import DdAppsec.Helper.RemoteConfig.Expirations
import DdAppsec.Helper.RemoteConfig.Reading

/-!
# RemoteConfig — an `add` that throws changes nothing

The functions here run `add` on an aggregator in place: they return what the
aggregator holds also when an exception ends them, with every write up to it.
`addInPlace_eq` says that the functions of `Aggregators`, which return no state
with an exception, are the same.

What an `add` that succeeds has done is stated without its loops: `AsmGains`,
`DataGains` and `DdGains` compare the two states with what the config's document
says (`adds_atomic_iff`).
-/

namespace DdAppsec.Helper.RemoteConfig

open Lib

/-! ## Aggregators in place -/

/-- The merging loop of `asm_aggregator::add`, key after key in `ruleset_`. -/
def mergeKeysInPlace (doc : Members) : List Bytes → Members → Except Exception Unit × Members
  | [], ruleset => (.ok (), ruleset)
  | key :: rest, ruleset =>
    match ruleset.find key, doc.find key with
    | some dest, some source =>
      match mergeArrays dest source with
      | .error e => (.error e, ruleset)
      | .ok merged => mergeKeysInPlace doc rest (setMember key merged ruleset)
    | _, _ => (.error .assertion, ruleset)

/-- `asm_aggregator::add`. -/
def asmAddInPlace (deps : Deps) (config : Config) (ruleset : Members) :
    Except Exception Unit × Members :=
  match getJsonBase64EncodedContent deps config.contents with
  | none => (.error (.errorApplyingConfig "Invalid config contents"), ruleset)
  | some (.object doc) =>
    match availableKeys doc expectedKeys with
    | .error e => (.error e, ruleset)
    | .ok keys => mergeKeysInPlace doc keys ruleset
  | some _ => (.error (.errorApplyingConfig "Invalid type for config, expected object"), ruleset)

/-- The loop at the end of `asm_data_aggregator::add`, rule after rule in
`rules_data_`. -/
def mergeRulesInPlace : List (Bytes × RuleData) → RulesData → Except Exception Unit × RulesData
  | [], rules => (.ok (), rules)
  | (key, value) :: rest, rules =>
    match rules[key]? with
    | some rule => mergeRulesInPlace rest (rules.insert key (rule.merge value))
    | none => mergeRulesInPlace rest (rules.insertIfNew key value)

/-- `asm_data_aggregator::add`; `new_rules_data_` is a local variable. -/
def asmDataAddInPlace (deps : Deps) (ord : IterOrder) (config : Config) (rules : RulesData) :
    Except Exception Unit × RulesData :=
  match getJsonBase64EncodedContent deps config.contents with
  | none => (.error (.errorApplyingConfig "Invalid config contents"), rules)
  | some doc =>
    match getFieldOfType doc "rules_data" .array with
    | .error e => (.error e, rules)
    | .ok (some (.array entries)) =>
      match newRulesData entries ∅ with
      | .error e => (.error e, rules)
      | .ok fresh => mergeRulesInPlace (ord.entries fresh) rules
    | .ok _ => (.error (.errorApplyingConfig
        "Invalid config json contents: rules_data key missing or invalid"), rules)

/-- `asm_dd_aggregator::add`. -/
def asmDdAddInPlace (deps : Deps) (config : Config) (ruleset : Members) :
    Except Exception Unit × Members :=
  match getJsonBase64EncodedContent deps config.contents with
  | none => (.error (.errorApplyingConfig "Invalid config contents"), ruleset)
  | some (.object doc) => (.ok (), doc)
  | some _ => (.error (.errorApplyingConfig "Invalid type for config, expected object"), ruleset)

/-- A result with the state that is left: the old one under an exception. -/
def inPlace {σ : Type} (s : σ) : Except Exception σ → Except Exception Unit × σ
  | .ok s' => (.ok (), s')
  | .error e => (.error e, s)

section InPlace

variable {deps : Deps} {ord : IterOrder} {config : Config}

theorem mergeKeysInPlace_ok {doc : Members} {keys : List Bytes} {ruleset ruleset' : Members}
    (h : mergeKeys doc keys ruleset = .ok ruleset') :
    mergeKeysInPlace doc keys ruleset = (.ok (), ruleset') := by
  induction keys generalizing ruleset with
  | nil =>
    cases h
    rfl
  | cons key keys ih =>
    rw [mergeKeys] at h
    rw [mergeKeysInPlace]
    cases hdest : ruleset.find key with
    | none =>
      rw [hdest] at h
      cases h
    | some dest =>
      cases hsource : doc.find key with
      | none =>
        rw [hdest, hsource] at h
        cases h
      | some source =>
        rw [hdest, hsource] at h
        dsimp only at h ⊢
        cases hmerge : mergeArrays dest source with
        | error e =>
          rw [hmerge] at h
          cases h
        | ok merged =>
          rw [hmerge] at h
          exact ih h

theorem mergeRulesInPlace_eq (entries : List (Bytes × RuleData)) (rules : RulesData) :
    mergeRulesInPlace entries rules =
      (.ok (), entries.foldl (fun acc kv =>
        match acc[kv.1]? with
        | some rule => acc.insert kv.1 (rule.merge kv.2)
        | none => acc.insertIfNew kv.1 kv.2) rules) := by
  induction entries generalizing rules with
  | nil => rfl
  | cons kv entries ih =>
    obtain ⟨key, value⟩ := kv
    rw [mergeRulesInPlace, List.foldl_cons]
    split
    · rename_i rule hrule
      rw [ih, hrule]
    · rename_i hrule
      rw [ih, hrule]

/-- By the merging loop every key has its array, on both sides. -/
theorem asmAddInPlace_eq (arrays : Bytes → List Json) :
    asmAddInPlace deps config (asmRuleset arrays) =
      inPlace (asmRuleset arrays) (asmAdd deps config (asmRuleset arrays)) := by
  unfold asmAddInPlace asmAdd
  cases getJsonBase64EncodedContent deps config.contents with
  | none => rfl
  | some doc =>
    cases doc with
    | object doc =>
      dsimp only
      cases hkeys : availableKeys doc expectedKeys with
      | error e => rfl
      | ok keys =>
        obtain ⟨hnodup, hin, harrays, -⟩ := availableKeys_ok hkeys (by decide)
        have hmerge := mergeKeys_asmRuleset hnodup hin harrays arrays
        dsimp only
        rw [mergeKeysInPlace_ok hmerge, hmerge]
        rfl
    | _ => rfl

theorem asmDataAddInPlace_eq (rules : RulesData) :
    asmDataAddInPlace deps ord config rules =
      inPlace rules (asmDataAdd deps ord config rules) := by
  unfold asmDataAddInPlace asmDataAdd
  cases getJsonBase64EncodedContent deps config.contents with
  | none => rfl
  | some doc =>
    dsimp only
    cases getFieldOfType doc "rules_data" .array with
    | error e => rfl
    | ok field =>
      rcases field with _ | (_ | _ | _ | _ | entries | _)
      all_goals try rfl
      dsimp only
      cases newRulesData entries ∅ with
      | error e => rfl
      | ok fresh => exact mergeRulesInPlace_eq _ rules

theorem asmDdAddInPlace_eq (ruleset : Members) :
    asmDdAddInPlace deps config ruleset = inPlace ruleset (asmDdAdd deps config) := by
  unfold asmDdAddInPlace asmDdAdd
  cases getJsonBase64EncodedContent deps config.contents with
  | none => rfl
  | some doc => cases doc <;> rfl

/-- **The engine listener's `add` is that of the aggregator, in place.** -/
theorem addInPlace_eq {l : EngineListener} {arrays : Bytes → List Json}
    (h : l.asm = asmRuleset arrays) (id : AggregatorId) :
    l.add deps ord id config =
      match id with
      | .asm =>
        ((asmAddInPlace deps config l.asm).1, { l with asm := (asmAddInPlace deps config l.asm).2 })
      | .asmDd =>
        ((asmDdAddInPlace deps config l.asmDd).1,
          { l with asmDd := (asmDdAddInPlace deps config l.asmDd).2 })
      | .asmData =>
        ((asmDataAddInPlace deps ord config l.asmData).1,
          { l with asmData := (asmDataAddInPlace deps ord config l.asmData).2 }) := by
  cases id with
  | asm =>
    rw [EngineListener.add, h, asmAddInPlace_eq]
    cases asmAdd deps config (asmRuleset arrays) with
    | ok ruleset => rfl
    | error e => simp [inPlace, ← h]
  | asmDd =>
    simp only [EngineListener.add, asmDdAddInPlace_eq]
    cases asmDdAdd deps config <;> rfl
  | asmData =>
    simp only [EngineListener.add, asmDataAddInPlace_eq]
    cases asmDataAdd deps ord config l.asmData <;> rfl

end InPlace

/-! ## The types of the rules -/

/-- The type that an entry of `rules_data` gives to a rule that is new: it has
one if its type is supported and it has data. -/
def ruleTypeFor (id : Bytes) : Json → Option Bytes
  | .object ms =>
    match Members.find ms "id", Members.find ms "type", Members.find ms "data" with
    | some (.string id'), some (.string type), some (.array data) =>
      if cstr type ≠ "data_with_expiration" ∧ cstr type ≠ "ip_with_expiration" then none
      else if cstr id' = id ∧ !data.isEmpty then some (cstr type)
      else none
    | _, _, _ => none
  | _ => none

def ruleType (rules : RulesData) (id : Bytes) : Option Bytes := rules[id]?.map (·.type)

section Types

variable {id : Bytes} {rules rules' fresh : RulesData}

theorem extractData_type {data : List Json} {rd rd' : RuleData}
    (h : extractData data rd = .ok rd') : rd'.type = rd.type := by
  induction data generalizing rd with
  | nil =>
    cases h
    rfl
  | cons entry data ih =>
    rw [extractData] at h
    split at h
    · cases h
    · rw [ih h, (rd.emplace_head _).2]

/-- A rule has data if the config has some for it. -/
theorem extractData_isEmpty {data : List Json} {rd rd' : RuleData}
    (h : extractData data rd = .ok rd') :
    rd'.data.isEmpty = (rd.data.isEmpty && data.isEmpty) := by
  induction data generalizing rd with
  | nil =>
    cases h
    simp
  | cons entry data ih =>
    rw [extractData] at h
    split at h
    · cases h
    · rename_i point _
      have hfilled : (rd.emplace point).data.isEmpty = false := by
        rw [Bool.eq_false_iff, Ne, StringMap.isEmpty_iff]
        intro hempty
        have hpoint := hempty point.value
        rw [RuleData.emplace_data, if_pos rfl] at hpoint
        cases hold : rd.data[point.value]? with
        | none => simp [hold] at hpoint
        | some old => simp [hold] at hpoint
      rw [ih h, hfilled]
      simp

theorem ruleType_insert (rules : RulesData) (id' : Bytes) (rd : RuleData) :
    ruleType (rules.insert id' rd) id = if id' = id then some rd.type else ruleType rules id := by
  rw [ruleType, StringMap.getElem?_insert]
  split <;> rfl

theorem addRuleData_ruleType {id' type : Bytes} {data : List Json}
    (h : addRuleData id' type data rules = .ok rules') :
    ruleType rules' id =
      (ruleType rules id).or (if id' = id ∧ !data.isEmpty then some type else none) := by
  unfold addRuleData at h
  split at h
  · rename_i hnone
    split at h
    · cases h
    · rename_i rd hdata
      have hempty : rd.data.isEmpty = data.isEmpty := by simp [extractData_isEmpty hdata]
      cases h
      rw [hempty]
      split
      · rename_i hno
        simp [hno]
      · rename_i hsome
        rw [StringMap.insertIfNew_of_none hnone, ruleType_insert, extractData_type hdata]
        by_cases hid : id' = id
        · rw [if_pos hid, ← hid, if_pos ⟨rfl, by simpa using hsome⟩, ruleType, hnone]
          rfl
        · simp [hid]
  · rename_i rule hrule
    split at h
    · cases h
    · rename_i rd hdata
      cases h
      rw [ruleType_insert, extractData_type hdata]
      by_cases hid : id' = id
      · rw [if_pos hid, ← hid, ruleType, hrule]
        rfl
      · simp [hid]

theorem newRulesData_ruleType {entries : List Json} (h : newRulesData entries rules = .ok rules') :
    ruleType rules' id = (ruleType rules id).or (entries.findSome? (ruleTypeFor id)) := by
  induction entries generalizing rules with
  | nil =>
    cases h
    simp
  | cons entry entries ih =>
    cases entry with
    | object ms =>
      rw [newRulesData] at h
      split at h
      · rename_i id' type data hid htype hdata
        split at h
        · rename_i hunsupported
          have hentry : ruleTypeFor id (.object ms) = none := by
            simp only [ruleTypeFor, hid, htype, hdata, if_pos hunsupported]
          rw [ih h, List.findSome?_cons, hentry]
        · rename_i hsupported
          have hentry : ruleTypeFor id (.object ms) =
              if cstr id' = id ∧ !data.isEmpty then some (cstr type) else none := by
            simp only [ruleTypeFor, hid, htype, hdata, if_neg hsupported]
          split at h
          · cases h
          · rename_i hadd
            rw [ih h, addRuleData_ruleType hadd, List.findSome?_cons, hentry, Option.or_assoc]
            split <;> rfl
      · cases h
    | _ => cases h

theorem mergeRulesData_ruleType (ord : IterOrder) :
    ruleType (mergeRulesData ord fresh rules) id =
      (ruleType rules id).or (ruleType fresh id) := by
  rw [ruleType, mergeRulesData_getElem?, ruleType, ruleType]
  cases rules[id]? with
  | none => simp
  | some rule =>
    cases fresh[id]? with
    | none => rfl
    | some new => simp [(rule.merge_head new).2]

theorem RuleData.Keyed.merge {rd : RuleData} (h : rd.Keyed) (other : RuleData) :
    (rd.merge other).Keyed := by
  refine entries_foldl_invariant IterOrder.sorted (fun _ (acc : RuleData) => acc.Keyed) h ?_
  intro _ k point acc _ _ hacc
  exact hacc.emplace point

theorem mergeRulesData_keyed (ord : IterOrder) (h : RulesData.Keyed rules)
    (hfresh : RulesData.Keyed fresh) : RulesData.Keyed (mergeRulesData ord fresh rules) := by
  intro id rd hrd
  rw [mergeRulesData_getElem?] at hrd
  cases hold : rules[id]? with
  | none =>
    rw [hold, optJoin_none_left] at hrd
    exact hfresh id rd hrd
  | some rule =>
    rw [hold] at hrd
    obtain ⟨hid, hkeyed⟩ := h id rule hold
    cases hnew : fresh[id]? with
    | none =>
      rw [hnew] at hrd
      cases hrd
      exact ⟨hid, hkeyed⟩
    | some new =>
      rw [hnew] at hrd
      cases hrd
      exact ⟨(rule.merge_head new).1.trans hid, hkeyed.merge new⟩

end Types

/-! ## What a config adds -/

/-- `add` throws `error_applying_config` and leaves the state, or succeeds with
what the config adds. -/
def Atomic {σ : Type} (before : σ) (gains : σ → Prop) (r : Except Exception Unit × σ) : Prop :=
  (∃ what, r = (.error (.errorApplyingConfig what), before)) ∨
    ∃ after, r = (.ok (), after) ∧ gains after

/-- Each of the four arrays is followed by that of the config. -/
def AsmGains (deps : Deps) (config : Config) (arrays : Bytes → List Json) (after : Members) :
    Prop :=
  ∃ doc, getJsonBase64EncodedContent deps config.contents = some (.object doc) ∧
    after = asmRuleset fun key => arrays key ++ arrayOf doc key

/-- The expirations of every value of every rule are those it had and those of
the supported entries; a rule has the type it had or the first it is given, and
is filed as before. -/
structure DataGains (deps : Deps) (config : Config) (before after : RulesData) : Prop where
  gained : ∃ doc entries,
    getJsonBase64EncodedContent deps config.contents = some (.object doc) ∧
    Members.find doc "rules_data" = some (.array entries) ∧
    (∀ id value, storedExpiration after id value =
      optJoin later (storedExpiration before id value)
        (joinInto later none (configExpirations id value entries))) ∧
    ∀ id, ruleType after id = (ruleType before id).or (entries.findSome? (ruleTypeFor id))
  keyed : RulesData.Keyed before → RulesData.Keyed after

/-- The ruleset is the config's object. -/
def DdGains (deps : Deps) (config : Config) (after : Members) : Prop :=
  getJsonBase64EncodedContent deps config.contents = some (.object after)

section Gains

variable {deps : Deps} {ord : IterOrder} {config : Config}

theorem asmAddInPlace_atomic (arrays : Bytes → List Json) :
    Atomic (asmRuleset arrays) (AsmGains deps config arrays)
      (asmAddInPlace deps config (asmRuleset arrays)) := by
  rw [asmAddInPlace_eq]
  cases hadded : asmContribution deps config.contents with
  | none =>
    obtain ⟨what, hadd⟩ := asmAdd_of_none hadded (asmRuleset arrays)
    rw [hadd]
    exact .inl ⟨what, rfl⟩
  | some added =>
    rw [asmAdd_of_some hadded]
    refine .inr ⟨_, rfl, ?_⟩
    unfold asmContribution at hadded
    split at hadded
    · rename_i doc hdoc
      split at hadded
      · cases hadded
        exact ⟨doc, hdoc, rfl⟩
      · cases hadded
    · cases hadded

theorem asmDdAddInPlace_atomic (ruleset : Members) :
    Atomic ruleset (DdGains deps config) (asmDdAddInPlace deps config ruleset) := by
  unfold asmDdAddInPlace
  split
  · exact .inl ⟨_, rfl⟩
  · rename_i doc hdoc
    exact .inr ⟨doc, rfl, hdoc⟩
  · exact .inl ⟨_, rfl⟩

theorem asmDataContribution_ok {contents : Bytes} {fresh : RulesData}
    (h : asmDataContribution deps contents = .ok fresh) :
    ∃ doc entries, getJsonBase64EncodedContent deps contents = some (.object doc) ∧
      Members.find doc "rules_data" = some (.array entries) ∧
      newRulesData entries ∅ = .ok fresh := by
  unfold asmDataContribution at h
  cases hdoc : getJsonBase64EncodedContent deps contents with
  | none =>
    rw [hdoc] at h
    cases h
  | some doc =>
    rw [hdoc] at h
    cases doc with
    | object doc =>
      simp only [getFieldOfType_object] at h
      split at h
      · cases h
      · rename_i entries hfield
        refine ⟨doc, entries, rfl, ?_, h⟩
        cases hfind : Members.find doc "rules_data" with
        | none => simp [hfind] at hfield
        | some v =>
          rw [hfind] at hfield
          simp only [Option.bind_some, Except.ok.injEq] at hfield
          split at hfield
          · exact hfield
          · cases hfield
      · cases h
    | _ => cases h

theorem asmDataAddInPlace_gains (ord : IterOrder) {fresh : RulesData}
    (h : asmDataContribution deps config.contents = .ok fresh) (rules : RulesData) :
    DataGains deps config rules (mergeRulesData ord fresh rules) where
  gained := by
    obtain ⟨doc, entries, hdoc, hentries, hfresh⟩ := asmDataContribution_ok h
    refine ⟨doc, entries, hdoc, hentries, ?_, ?_⟩
    · intro id value
      rw [mergeRulesData_storedExpiration ord (asmDataContribution_keyed h),
        newRulesData_storedExpiration hfresh]
      simp [storedExpiration]
    · intro id
      rw [mergeRulesData_ruleType, newRulesData_ruleType hfresh]
      simp [ruleType]
  keyed hkeyed := mergeRulesData_keyed ord hkeyed (asmDataContribution_keyed h)

theorem asmDataAddInPlace_atomic_iff (rules : RulesData) :
    Atomic rules (DataGains deps config rules) (asmDataAddInPlace deps ord config rules) ↔
      misreads deps asmDataProduct config.contents = false := by
  obtain ⟨_, hreads⟩ := asmDataContribution_reads deps config.contents
  rw [asmDataAddInPlace_eq, asmDataAdd_eq, ← Bool.not_eq_true, ← hreads.assertion_iff]
  cases hcontribution : asmDataContribution deps config.contents with
  | ok fresh =>
    refine iff_of_true (.inr ⟨_, rfl, asmDataAddInPlace_gains ord hcontribution rules⟩) ?_
    intro h
    cases h
  | error e =>
    rw [hcontribution] at hreads
    obtain rfl | ⟨what, rfl⟩ := hreads.error_cases
    · refine iff_of_false ?_ (fun h => h rfl)
      rintro (⟨what, h⟩ | ⟨after, h, -⟩)
      · cases h
      · cases h
    · refine iff_of_true (.inl ⟨what, rfl⟩) ?_
      intro h
      cases h

end Gains

/-- **Every `add` is atomic, and adds what the config says**, for any state of
the three aggregators, if and only if ASM_DATA does not misread the config. -/
theorem adds_atomic_iff (deps : Deps) (ord : IterOrder) (config : Config)
    (arrays : Bytes → List Json) (rules : RulesData) (ruleset : Members) :
    (Atomic (asmRuleset arrays) (AsmGains deps config arrays)
        (asmAddInPlace deps config (asmRuleset arrays)) ∧
      Atomic rules (DataGains deps config rules) (asmDataAddInPlace deps ord config rules) ∧
      Atomic ruleset (DdGains deps config) (asmDdAddInPlace deps config ruleset)) ↔
      misreads deps asmDataProduct config.contents = false := by
  rw [asmDataAddInPlace_atomic_iff]
  constructor
  · rintro ⟨-, hread, -⟩
    exact hread
  · intro hread
    exact ⟨asmAddInPlace_atomic arrays, hread, asmDdAddInPlace_atomic ruleset⟩

/-- A rule with two values, the second of them with a negative expiration. -/
def negativeContents : Bytes :=
  ofPieces ["eyJydWxlc19kYXRhIjpbeyJpZCI6ImEi",
    "LCJ0eXBlIjoiaXBfd2l0aF9leHBpcmF0",
    "aW9uIiwiZGF0YSI6W3sidmFsdWUiOiJi",
    "IiwiZXhwaXJhdGlvbiI6MX0seyJ2YWx1",
    "ZSI6ImMiLCJleHBpcmF0aW9uIjotMX1d",
    "fV19"]

def negativeText : Bytes :=
  ofPieces ["\x7b\"rules_data\":[\x7b\"id\":\"a\",\"type\":",
    "\"ip_with_expiration\",\"data\":[\x7b\"v",
    "alue\":\"b\",\"expiration\":1\x7d,\x7b\"valu",
    "e\":\"c\",\"expiration\":-1\x7d]\x7d]\x7d"]

def negativeDeps : Deps :=
  .ofTables [(negativeContents, negativeText)]
    [(negativeText, .object [("rules_data", .array [.object [("id", .string "a"),
      ("type", .string "ip_with_expiration"), ("data", .array [
        .object [("value", .string "b"), ("expiration", .number (.int 1))],
        .object [("value", .string "c"), ("expiration", .number (.int (-1)))]])]])])]

/-- It is neither added nor refused with `error_applying_config`. -/
theorem negative_expiration_not_atomic :
    ¬ Atomic ∅ (DataGains negativeDeps (bareConfig asmDataProduct negativeContents) ∅)
      (asmDataAddInPlace negativeDeps .sorted (bareConfig asmDataProduct negativeContents) ∅) := by
  rw [asmDataAddInPlace_atomic_iff]
  decide +kernel

end DdAppsec.Helper.RemoteConfig
