import DdAppsec.Helper.RemoteConfig.RulesData
import Mathlib.Order.WithBot
import Mathlib.Data.Multiset.Basic
import Mathlib.Data.Multiset.Count
import Mathlib.Data.Multiset.Filter

/-!
# RemoteConfig — the expiration of a value

One value of one rule can be listed many times, in one config or in several,
with no expiration, with one of 0 or with a point in time. `lifetime` is what
an expiration means: the first two never end, and the longest lifetime is the
one to keep.

`emplace` lets 0 replace a point in time, but it also lets a point in time
replace 0. So what stays is the longest lifetime, whatever the order and the
grouping into configs, unless all that never expires has an expiration of 0
and there are points in time as well (`latest_stored_iff`).
-/

namespace DdAppsec.Helper.RemoteConfig

open Lib

/-! ## Lifetimes -/

/-- How long a value with this expiration lasts. -/
def lifetime : Option Nat → WithTop Nat
  | none => ⊤
  | some 0 => ⊤
  | some (e + 1) => WithTop.some (e + 1)

theorem lifetime_le_lifetime {a b : Nat} (ha : a ≠ 0) (hb : b ≠ 0) :
    lifetime (some a) ≤ lifetime (some b) ↔ a ≤ b := by
  obtain ⟨a, rfl⟩ := Nat.exists_eq_succ_of_ne_zero ha
  obtain ⟨b, rfl⟩ := Nat.exists_eq_succ_of_ne_zero hb
  exact WithTop.coe_le_coe

theorem lifetime_ne_top {a : Nat} (ha : a ≠ 0) : lifetime (some a) ≠ ⊤ := by
  obtain ⟨a, rfl⟩ := Nat.exists_eq_succ_of_ne_zero ha
  exact WithTop.coe_ne_top

/-- The expirations of `emplace` on a value that is there. -/
def later (old new : Option Nat) : Option Nat :=
  match new with
  | none => none
  | some expiration =>
    match old with
    | none => none
    | some current => if expiration = 0 ∨ current < expiration then some expiration else old

theorem DataWithExpiration.join_expiration (old point : DataWithExpiration) :
    (old.join point).expiration = later old.expiration point.expiration := by
  obtain ⟨value, expiration⟩ := old
  obtain ⟨value', expiration'⟩ := point
  cases expiration' with
  | none => rfl
  | some e =>
    cases expiration with
    | none => rfl
    | some c =>
      simp only [DataWithExpiration.join, later]
      split <;> rfl

theorem later_none_left (new : Option Nat) : later none new = none := by
  cases new <;> rfl

theorem later_none_right (old : Option Nat) : later old none = none := rfl

theorem later_mem (old new : Option Nat) : later old new = old ∨ later old new = new := by
  cases new with
  | none => exact .inr rfl
  | some e =>
    cases old with
    | none => exact .inl rfl
    | some c =>
      simp only [later]
      split
      · exact .inr rfl
      · exact .inl rfl

/-- The longer lifetime stays, unless a point in time comes after a 0. -/
theorem lifetime_le_later {old new : Option Nat}
    (h : old = some 0 → ∀ e, new = some e → e = 0) :
    lifetime old ≤ lifetime (later old new) ∧ lifetime new ≤ lifetime (later old new) := by
  cases new with
  | none => exact ⟨le_top, le_top⟩
  | some e =>
    cases old with
    | none => exact ⟨le_top, le_top⟩
    | some c =>
      simp only [later]
      by_cases he : e = 0
      · subst he
        exact ⟨le_top, le_top⟩
      have hc : c ≠ 0 := fun hc => he (h (by rw [hc]) e rfl)
      by_cases hlt : c < e
      · rw [if_pos (.inr hlt)]
        exact ⟨(lifetime_le_lifetime hc he).mpr hlt.le, le_rfl⟩
      · rw [if_neg (by omega)]
        exact ⟨le_rfl, (lifetime_le_lifetime he hc).mpr (by omega)⟩

/-! ## Any order and any grouping -/

/-- What becomes of some expirations: one of them; none if there is a none
among them; and the longest lifetime, if there are not both 0 and a point in
time. -/
structure Outcome (r : Option Nat) (xs : List (Option Nat)) : Prop where
  mem : r ∈ xs
  absorbs : none ∈ xs → r = none
  longest : (some 0 ∉ xs ∨ ∀ e, some e ∈ xs → e = 0) → ∀ x ∈ xs, lifetime x ≤ lifetime r

theorem Outcome.single (x : Option Nat) : Outcome x [x] where
  mem := List.mem_singleton_self x
  absorbs h := (List.mem_singleton.mp h).symm
  longest _ y hy := by rw [List.mem_singleton.mp hy]

theorem Outcome.later (a b : Option Nat) (xs ys : List (Option Nat)) (ha : Outcome a xs)
    (hb : Outcome b ys) : Outcome (later a b) (xs ++ ys) where
  mem := by
    obtain h | h := later_mem a b
    · rw [h]
      exact List.mem_append_left _ ha.mem
    · rw [h]
      exact List.mem_append_right _ hb.mem
  absorbs h := by
    obtain h | h := List.mem_append.mp h
    · rw [ha.absorbs h, later_none_left]
    · rw [hb.absorbs h, later_none_right]
  longest h := by
    have hx : some 0 ∉ xs ∨ ∀ e, some e ∈ xs → e = 0 :=
      h.imp (fun h hin => h (List.mem_append_left _ hin))
        fun h e hin => h e (List.mem_append_left _ hin)
    have hy : some 0 ∉ ys ∨ ∀ e, some e ∈ ys → e = 0 :=
      h.imp (fun h hin => h (List.mem_append_right _ hin))
        fun h e hin => h e (List.mem_append_right _ hin)
    have hne : a = some 0 → ∀ e, b = some e → e = 0 := by
      rintro rfl e rfl
      obtain h | h := h
      · exact absurd (List.mem_append_left _ ha.mem) h
      · exact h e (List.mem_append_right _ hb.mem)
    obtain ⟨hleft, hright⟩ := lifetime_le_later hne
    intro x hin
    obtain hin | hin := List.mem_append.mp hin
    · exact (ha.longest hx x hin).trans hleft
    · exact (hb.longest hy x hin).trans hright

/-- Some expirations, and one of them that lasts longest. -/
def Latest (r : Option Nat) (expirations : Multiset (Option Nat)) : Prop :=
  r ∈ expirations ∧ ∀ x ∈ expirations, lifetime x ≤ lifetime r

/-- All that never expires has an expiration of 0, and there are points in time. -/
def ZeroAmongTimes (expirations : Multiset (Option Nat)) : Prop :=
  none ∉ expirations ∧ some 0 ∈ expirations ∧ ∃ e, e ≠ 0 ∧ some e ∈ expirations

section Groups

variable {expirations : Multiset (Option Nat)} {r r' : Option Nat}

/-- Without a none, both no 0 and nothing but 0 leave one longest expiration. -/
theorem Latest.unique (hnone : none ∉ expirations)
    (h : some 0 ∉ expirations ∨ ∀ e, some e ∈ expirations → e = 0) (hr : Latest r expirations)
    (hr' : Latest r' expirations) : r = r' := by
  cases r with
  | none => exact absurd hr.1 hnone
  | some a =>
    cases r' with
    | none => exact absurd hr'.1 hnone
    | some b =>
      obtain h | h := h
      · have ha : a ≠ 0 := fun h0 => h (h0 ▸ hr.1)
        have hb : b ≠ 0 := fun h0 => h (h0 ▸ hr'.1)
        have hab := (lifetime_le_lifetime ha hb).mp (hr'.2 _ hr.1)
        have hba := (lifetime_le_lifetime hb ha).mp (hr.2 _ hr'.1)
        rw [Nat.le_antisymm hab hba]
      · rw [h a hr.1, h b hr'.1]

theorem coe_zeros_times (expirations : Multiset (Option Nat)) :
    (([List.replicate (expirations.count (some 0)) (some 0),
      (expirations.filter (· ≠ some 0)).toList].flatten : List (Option Nat)) :
        Multiset (Option Nat)) = expirations := by
  have hsplit := Multiset.filter_add_not (· = some 0) expirations
  rw [Multiset.filter_eq', ← Multiset.coe_replicate] at hsplit
  simpa [← Multiset.coe_add] using hsplit

theorem joinGroups_later {groups : List (List (Option Nat))}
    (hgroups : (groups.flatten : Multiset (Option Nat)) = expirations)
    (hne : expirations ≠ 0) : ∃ r, joinGroups later groups = some r ∧ Outcome r groups.flatten := by
  have hjoined := joinGroups_induct Outcome.single Outcome.later groups
  cases hjoin : joinGroups later groups with
  | none =>
    rw [hjoin] at hjoined
    rw [show groups.flatten = [] from hjoined] at hgroups
    exact absurd hgroups.symm hne
  | some r =>
    rw [hjoin] at hjoined
    exact ⟨r, rfl, hjoined⟩

/-- **The longest lifetime is found in any grouping**, and always written in
the same way. -/
theorem joinGroups_latest (hne : expirations ≠ 0) (h : ¬ ZeroAmongTimes expirations) :
    ∃ r, Latest r expirations ∧ ∀ groups : List (List (Option Nat)),
      (groups.flatten : Multiset (Option Nat)) = expirations →
        joinGroups later groups = some r := by
  by_cases hnone : none ∈ expirations
  · refine ⟨none, ⟨hnone, fun _ _ => le_top⟩, fun groups hgroups => ?_⟩
    obtain ⟨r, hjoin, hr⟩ := joinGroups_later hgroups hne
    rw [hjoin, hr.absorbs (by rwa [← Multiset.mem_coe, hgroups])]
  have hpure : some 0 ∉ expirations ∨ ∀ e, some e ∈ expirations → e = 0 := by
    by_cases hzero : some 0 ∈ expirations
    · right
      intro e he
      by_contra hpos
      exact h ⟨hnone, hzero, e, hpos, he⟩
    · exact .inl hzero
  have hall : ∀ groups : List (List (Option Nat)),
      (groups.flatten : Multiset (Option Nat)) = expirations →
        ∃ r, joinGroups later groups = some r ∧ Latest r expirations := by
    intro groups hgroups
    obtain ⟨r, hjoin, hr⟩ := joinGroups_later hgroups hne
    subst hgroups
    exact ⟨r, hjoin, hr.mem, hr.longest hpure⟩
  obtain ⟨r, -, hr⟩ := hall [expirations.toList] (by simp)
  refine ⟨r, hr, fun groups hgroups => ?_⟩
  obtain ⟨r', hjoin, hr'⟩ := hall groups hgroups
  rw [hjoin, Latest.unique hnone hpure hr' hr]

/-- Zeros in one config and points in time in the next: a point in time is
left. -/
theorem joinGroups_zero_then_times {times : List (Option Nat)} {zeros : Nat} (hzeros : zeros ≠ 0)
    (htimes : times ≠ []) (hpos : ∀ x ∈ times, ∃ e, e ≠ 0 ∧ x = some e) :
    ∃ e, e ≠ 0 ∧ joinGroups later [List.replicate zeros (some 0), times] = some (some e) := by
  have hzero := joinInto_induct Outcome.single Outcome.later (List.replicate zeros (some 0))
  have htime := joinInto_induct Outcome.single Outcome.later times
  cases hjoin : joinInto later none times with
  | none =>
    rw [hjoin] at htime
    exact absurd htime htimes
  | some r =>
    rw [hjoin] at htime
    obtain ⟨e, he, rfl⟩ := hpos r htime.mem
    cases hjoin' : joinInto later none (List.replicate zeros (some 0)) with
    | none =>
      rw [hjoin'] at hzero
      have hnil : List.replicate zeros (some 0) = [] := hzero
      exact absurd (by simpa using hnil) hzeros
    | some z =>
      rw [hjoin'] at hzero
      rw [List.eq_of_mem_replicate hzero.mem] at hjoin'
      refine ⟨e, he, ?_⟩
      simp [joinGroups, hjoin, hjoin', later, Nat.pos_of_ne_zero he]

end Groups

/-! ## The expirations in configs -/

/-- The expirations the entries of a `data` array have for a value. -/
def dataExpirations (value : Bytes) (data : List Json) : List (Option Nat) :=
  data.filterMap fun entry =>
    match dataPoint entry with
    | .ok point => if point.value = value then some point.expiration else none
    | .error _ => none

/-- The expirations an entry of `rules_data` has for a value of a rule. -/
def ruleExpirations (id value : Bytes) (entry : Json) : List (Option Nat) :=
  match entry with
  | .object ms =>
    match Members.find ms "id", Members.find ms "type", Members.find ms "data" with
    | some (.string id'), some (.string type), some (.array data) =>
      if cstr type ≠ "data_with_expiration" ∧ cstr type ≠ "ip_with_expiration" then []
      else if cstr id' = id then dataExpirations value data
      else []
    | _, _, _ => []
  | _ => []

/-- The expirations a config has for a value of a rule. -/
def configExpirations (id value : Bytes) (entries : List Json) : List (Option Nat) :=
  entries.flatMap (ruleExpirations id value)

/-- `asm_data_aggregator::add`, config after config; a config is given by its
`rules_data` array. -/
def addConfigs (ord : IterOrder) : List (List Json) → RulesData → Except Exception RulesData
  | [], rules => .ok rules
  | entries :: rest, rules =>
    match newRulesData entries ∅ with
    | .error e => .error e
    | .ok fresh => addConfigs ord rest (mergeRulesData ord fresh rules)

def RuleData.expirationOf (rd : RuleData) (value : Bytes) : Option (Option Nat) :=
  rd.data[value]?.map (·.expiration)

/-- The expiration that is stored for a value of a rule, if it is there. -/
def storedExpiration (rules : RulesData) (id value : Bytes) : Option (Option Nat) :=
  rules[id]?.bind fun rd => rd.expirationOf value

section Stored

variable {id value : Bytes} {rules rules' fresh : RulesData} {rd rd' : RuleData}

theorem RuleData.emplace_expirationOf (rd : RuleData) (point : DataWithExpiration) :
    (rd.emplace point).expirationOf value =
      if point.value = value then
        optJoin later (rd.expirationOf value) (some point.expiration)
      else rd.expirationOf value := by
  rw [RuleData.expirationOf, RuleData.emplace_data]
  split
  · rename_i hvalue
    rw [optJoin_map DataWithExpiration.join_expiration, hvalue]
    rfl
  · rfl

theorem dataExpirations_cons {entry : Json} {point : DataWithExpiration}
    (h : dataPoint entry = .ok point) (data : List Json) :
    dataExpirations value (entry :: data) =
      if point.value = value then point.expiration :: dataExpirations value data
      else dataExpirations value data := by
  rw [dataExpirations, List.filterMap_cons, h]
  by_cases hvalue : point.value = value
  · simp only [hvalue, if_true]
    rfl
  · simp only [hvalue, if_false]
    rfl

theorem extractData_expirationOf {data : List Json} (h : extractData data rd = .ok rd') :
    rd'.expirationOf value =
      joinInto later (rd.expirationOf value) (dataExpirations value data) := by
  induction data generalizing rd with
  | nil =>
    cases h
    rfl
  | cons entry data ih =>
    rw [extractData] at h
    split at h
    · cases h
    · rename_i point hpoint
      rw [ih h, RuleData.emplace_expirationOf, dataExpirations_cons hpoint]
      by_cases hvalue : point.value = value
      · rw [if_pos hvalue, if_pos hvalue]
        rfl
      · rw [if_neg hvalue, if_neg hvalue]

theorem storedExpiration_insert (rules : RulesData) (id' : Bytes) (rd : RuleData) :
    storedExpiration (rules.insert id' rd) id value =
      if id' = id then rd.expirationOf value else storedExpiration rules id value := by
  rw [storedExpiration, StringMap.getElem?_insert]
  split <;> rfl

theorem storedExpiration_of_some (h : rules[id]? = some rd) :
    storedExpiration rules id value = rd.expirationOf value := by
  rw [storedExpiration, h]
  rfl

theorem storedExpiration_of_none (h : rules[id]? = none) :
    storedExpiration rules id value = none := by
  rw [storedExpiration, h]
  rfl

theorem addRuleData_storedExpiration {id' type : Bytes} {data : List Json}
    (h : addRuleData id' type data rules = .ok rules') :
    storedExpiration rules' id value =
      joinInto later (storedExpiration rules id value)
        (if id' = id then dataExpirations value data else []) := by
  unfold addRuleData at h
  split at h
  · rename_i hnone
    split at h
    · cases h
    · rename_i rd hdata
      have hexp : rd.expirationOf value = joinInto later none (dataExpirations value data) := by
        rw [extractData_expirationOf hdata]
        simp [RuleData.expirationOf]
      cases h
      by_cases hid : id' = id
      · rw [if_pos hid, ← hid, storedExpiration_of_none hnone, ← hexp]
        split
        · -- a rule without data is not kept
          rename_i hempty
          rw [storedExpiration_of_none hnone, RuleData.expirationOf,
            StringMap.isEmpty_iff.mp hempty]
          rfl
        · rw [StringMap.insertIfNew_of_none hnone, storedExpiration_insert, if_pos rfl]
      · rw [if_neg hid]
        split
        · rfl
        · rw [StringMap.insertIfNew_of_none hnone, storedExpiration_insert, if_neg hid]
          rfl
  · rename_i rule hrule
    split at h
    · cases h
    · rename_i rd hdata
      cases h
      rw [storedExpiration_insert]
      by_cases hid : id' = id
      · rw [if_pos hid, if_pos hid, ← hid, storedExpiration_of_some hrule,
          extractData_expirationOf hdata]
      · rw [if_neg hid, if_neg hid]
        rfl

/-- **What a config brings for a value.** -/
theorem newRulesData_storedExpiration {entries : List Json}
    (h : newRulesData entries rules = .ok rules') :
    storedExpiration rules' id value =
      joinInto later (storedExpiration rules id value) (configExpirations id value entries) := by
  induction entries generalizing rules with
  | nil =>
    cases h
    rfl
  | cons entry entries ih =>
    rw [configExpirations, List.flatMap_cons, joinInto_append]
    unfold newRulesData at h
    split at h
    · rename_i hentry
      cases hentry
    · rename_i hentry
      cases hentry
      split at h
      · rename_i hid htype hdata
        simp only [ruleExpirations, hid, htype, hdata]
        split at h
        · rename_i hunsupported
          rw [if_pos hunsupported]
          exact ih h
        · rename_i hsupported
          rw [if_neg hsupported]
          split at h
          · cases h
          · rename_i hadd
            rw [ih h, addRuleData_storedExpiration hadd]
            rfl
      · cases h
    · cases h

theorem mergeRulesData_storedExpiration (ord : IterOrder) (hkeyed : RulesData.Keyed fresh) :
    storedExpiration (mergeRulesData ord fresh rules) id value =
      optJoin later (storedExpiration rules id value) (storedExpiration fresh id value) := by
  cases hfresh : fresh[id]? with
  | none =>
    rw [storedExpiration_of_none hfresh, optJoin_none_right, storedExpiration,
      mergeRulesData_getElem?, hfresh, optJoin_none_right]
    rfl
  | some new =>
    rw [storedExpiration_of_some hfresh]
    cases hold : rules[id]? with
    | none =>
      have hmerged : (mergeRulesData ord fresh rules)[id]? = some new := by
        rw [mergeRulesData_getElem?, hold, hfresh]
        rfl
      rw [storedExpiration_of_some hmerged, storedExpiration_of_none hold]
      rfl
    | some rule =>
      have hmerged : (mergeRulesData ord fresh rules)[id]? = some (rule.merge new) := by
        rw [mergeRulesData_getElem?, hold, hfresh]
        rfl
      rw [storedExpiration_of_some hmerged, storedExpiration_of_some hold,
        RuleData.expirationOf, RuleData.merge_data (hkeyed id new hfresh).2,
        optJoin_map DataWithExpiration.join_expiration]
      rfl

/-- **What is stored after some configs**: their expirations, combined config
by config. -/
theorem addConfigs_storedExpiration {ord : IterOrder} {configs : List (List Json)}
    (h : addConfigs ord configs ∅ = .ok rules) :
    storedExpiration rules id value =
      joinGroups later (configs.map (configExpirations id value)) := by
  have hgen : ∀ before : RulesData, addConfigs ord configs before = .ok rules →
      storedExpiration rules id value =
        (configs.map (configExpirations id value)).foldl
          (fun acc group => optJoin later acc (joinInto later none group))
          (storedExpiration before id value) := by
    clear h
    induction configs with
    | nil =>
      intro before h
      cases h
      rfl
    | cons entries configs ih =>
      intro before h
      rw [addConfigs] at h
      split at h
      · cases h
      · rename_i fresh hfresh
        have hempty : RulesData.Keyed ∅ := by
          intro id rd hrd
          simp at hrd
        rw [ih _ h, mergeRulesData_storedExpiration ord (newRulesData_keyed hempty hfresh),
          newRulesData_storedExpiration hfresh, List.map_cons, List.foldl_cons]
        simp [storedExpiration]
  rw [hgen ∅ h]
  simp [storedExpiration, joinGroups]

end Stored

/-- The decoded `asm_data_aggregator::add` is that of `addConfigs`. -/
theorem asmDataAdd_of_decoded {deps : Deps} {config : Config} {doc : Json} {entries : List Json}
    (hdoc : getJsonBase64EncodedContent deps config.contents = some doc)
    (hfield : getFieldOfType doc "rules_data" .array = .ok (some (.array entries)))
    (ord : IterOrder) (rules : RulesData) :
    asmDataAdd deps ord config rules = addConfigs ord [entries] rules := by
  cases hnew : newRulesData entries ∅ with
  | error e => simp only [asmDataAdd, hdoc, hfield, addConfigs, hnew]
  | ok fresh => simp only [asmDataAdd, hdoc, hfield, addConfigs, hnew]

/-! ## The longest lifetime -/

/-- A config with one rule that has one value, again and again. -/
def listing (id value : Bytes) (expirations : List (Option Nat)) : List Json :=
  [.object [("id", .string id), ("type", .string "ip_with_expiration"),
    ("data", .array (expirations.map fun e => dataPointJson value ⟨value, e⟩))]]

section Listing

variable {id value : Bytes} {expirations : List (Option Nat)}

theorem find_ruleMembers (id type data : Json) :
    Members.find [("id", id), ("type", type), ("data", data)] "id" = some id ∧
      Members.find [("id", id), ("type", type), ("data", data)] "type" = some type ∧
      Members.find [("id", id), ("type", type), ("data", data)] "data" = some data := by
  have hidType : ("id" : Bytes) ≠ "type" := by decide
  have hidData : ("id" : Bytes) ≠ "data" := by decide
  have htypeData : ("type" : Bytes) ≠ "data" := by decide
  simp [hidType, hidData, htypeData]

theorem entryExpiration_of_number {entry : Members} {n : Number} {e : Nat}
    (hfind : entry.find "expiration" = some (.number n)) (hget : getUint64 n = .ok e) :
    entryExpiration entry = .ok (some e) := by
  simp only [entryExpiration, hfind, hget]

theorem dataPoint_of_fields {entry : Members} {expiration : Option Nat}
    (hvalue : entry.find "value" = some (.string value))
    (hexpiration : entryExpiration entry = .ok expiration) :
    dataPoint (.object entry) = .ok ⟨cstr value, expiration⟩ := by
  simp only [dataPoint, hvalue, hexpiration]

theorem dataPoint_dataPointJson (hvalue : cstr value = value) {expiration : Option Nat}
    (hrange : ∀ e, expiration = some e → e < 2 ^ 64) :
    dataPoint (dataPointJson value ⟨value, expiration⟩) = .ok ⟨value, expiration⟩ := by
  have hnames : ("value" : Bytes) ≠ "expiration" := by decide
  cases expiration with
  | none =>
    let entry : Members := [("value", .string value)]
    have hfind : entry.find "value" = some (.string value) := by simp [entry]
    have hexpiration : entryExpiration entry = .ok none := by
      simp [entry, entryExpiration, hnames]
    exact (dataPoint_of_fields hfind hexpiration).trans (by rw [hvalue])
  | some e =>
    let entry : Members := [("expiration", .number (.int e)), ("value", .string value)]
    have hfind : entry.find "value" = some (.string value) := by simp [entry, hnames.symm]
    have hnumber : entry.find "expiration" = some (.number (.int e)) := by simp [entry]
    have hexpiration := entryExpiration_of_number hnumber (getUint64_natCast (hrange e rfl))
    exact (dataPoint_of_fields hfind hexpiration).trans (by rw [hvalue])

theorem dataExpirations_listing (hvalue : cstr value = value)
    (hrange : ∀ e, some e ∈ expirations → e < 2 ^ 64) :
    dataExpirations value (expirations.map fun e => dataPointJson value ⟨value, e⟩) =
      expirations := by
  induction expirations with
  | nil => rfl
  | cons x expirations ih =>
    have hx : dataPoint (dataPointJson value ⟨value, x⟩) = .ok ⟨value, x⟩ :=
      dataPoint_dataPointJson hvalue fun e he => hrange e (he ▸ List.mem_cons_self)
    rw [List.map_cons, dataExpirations_cons hx, if_pos rfl,
      ih fun e he => hrange e (List.mem_cons_of_mem _ he)]

theorem extractData_listing (hvalue : cstr value = value)
    (hrange : ∀ e, some e ∈ expirations → e < 2 ^ 64) (rd : RuleData) :
    ∃ rd', extractData (expirations.map fun e => dataPointJson value ⟨value, e⟩) rd = .ok rd' := by
  induction expirations generalizing rd with
  | nil => exact ⟨rd, rfl⟩
  | cons x expirations ih =>
    have hx : dataPoint (dataPointJson value ⟨value, x⟩) = .ok ⟨value, x⟩ :=
      dataPoint_dataPointJson hvalue fun e he => hrange e (he ▸ List.mem_cons_self)
    rw [List.map_cons, extractData, hx]
    exact ih (fun e he => hrange e (List.mem_cons_of_mem _ he)) _

theorem configExpirations_listing (hid : cstr id = id) (hvalue : cstr value = value)
    (hrange : ∀ e, some e ∈ expirations → e < 2 ^ 64) :
    configExpirations id value (listing id value expirations) = expirations := by
  obtain ⟨hfindId, hfindType, hfindData⟩ := find_ruleMembers (.string id)
    (.string "ip_with_expiration")
    (.array (expirations.map fun e => dataPointJson value ⟨value, e⟩))
  have htype : cstr "ip_with_expiration" = "ip_with_expiration" := by decide
  simp [configExpirations, listing, ruleExpirations, hfindId, hfindType, hfindData, htype, hid,
    dataExpirations_listing hvalue hrange]

theorem map_configExpirations_listing (hid : cstr id = id) (hvalue : cstr value = value)
    {groups : List (List (Option Nat))} (hrange : ∀ e, some e ∈ groups.flatten → e < 2 ^ 64) :
    (groups.map (listing id value)).map (configExpirations id value) = groups := by
  induction groups with
  | nil => rfl
  | cons group groups ih =>
    rw [List.flatten_cons] at hrange
    have hgroup := configExpirations_listing hid hvalue fun e he =>
      hrange e (List.mem_append_left _ he)
    rw [List.map_cons, List.map_cons, hgroup,
      ih fun e he => hrange e (List.mem_append_right _ he)]

theorem newRulesData_listing (hvalue : cstr value = value)
    (hrange : ∀ e, some e ∈ expirations → e < 2 ^ 64) :
    ∃ fresh, newRulesData (listing id value expirations) ∅ = .ok fresh := by
  obtain ⟨hfindId, hfindType, hfindData⟩ := find_ruleMembers (.string id)
    (.string "ip_with_expiration")
    (.array (expirations.map fun e => dataPointJson value ⟨value, e⟩))
  have htype : cstr "ip_with_expiration" = "ip_with_expiration" := by decide
  obtain ⟨rd, hrd⟩ :=
    extractData_listing hvalue hrange ⟨cstr id, "ip_with_expiration", ∅⟩
  simp [listing, newRulesData, addRuleData, hfindId, hfindType, hfindData, htype, hrd]

theorem addConfigs_listings (ord : IterOrder) (hvalue : cstr value = value)
    {groups : List (List (Option Nat))} (hrange : ∀ e, some e ∈ groups.flatten → e < 2 ^ 64)
    (before : RulesData) :
    ∃ rules, addConfigs ord (groups.map (listing id value)) before = .ok rules := by
  induction groups generalizing before with
  | nil => exact ⟨before, rfl⟩
  | cons group groups ih =>
    obtain ⟨fresh, hfresh⟩ : ∃ fresh, newRulesData (listing id value group) ∅ = .ok fresh :=
      newRulesData_listing hvalue fun e he =>
        hrange e (List.mem_flatten_of_mem List.mem_cons_self he)
    rw [List.map_cons, addConfigs, hfresh]
    exact ih (fun e he => hrange e (by rw [List.flatten_cons]; exact List.mem_append_right _ he)) _

end Listing

/-- **What a value is stored with.** For the expirations of one value of one
rule, the longest lifetime is stored in every order and every grouping into
configs, and always with the same expiration, if and only if they are not zeros
and points in time without a none. -/
theorem latest_stored_iff {id value : Bytes} (hid : cstr id = id) (hvalue : cstr value = value)
    {expirations : Multiset (Option Nat)} (hne : expirations ≠ 0)
    (hrange : ∀ e, some e ∈ expirations → e < 2 ^ 64) :
    (∃ r, Latest r expirations ∧
      ∀ (ord : IterOrder) (configs : List (List Json)) (rules : RulesData),
        ((configs.map (configExpirations id value)).flatten : Multiset (Option Nat)) =
          expirations →
        addConfigs ord configs ∅ = .ok rules → storedExpiration rules id value = some r) ↔
      ¬ ZeroAmongTimes expirations := by
  constructor
  · rintro ⟨r, hlatest, hall⟩ ⟨hnone, hzero, time, htime, hmem⟩
    -- all the zeros in one config, all the points in time in the next
    have hgroups := coe_zeros_times expirations
    have hzeros := Multiset.count_ne_zero.mpr hzero
    have htimes : (expirations.filter (· ≠ some 0)).toList ≠ [] := by
      have hin : some time ∈ (expirations.filter (· ≠ some 0)).toList := by
        simp [hmem, htime]
      exact List.ne_nil_of_mem hin
    have hpos : ∀ x ∈ (expirations.filter (· ≠ some 0)).toList, ∃ e, e ≠ 0 ∧ x = some e := by
      intro x hx
      obtain ⟨hin, hx⟩ := Multiset.mem_filter.mp (Multiset.mem_toList.mp hx)
      cases x with
      | none => exact absurd hin hnone
      | some e => exact ⟨e, fun he => hx (by rw [he]), rfl⟩
    obtain ⟨e, he, hjoin⟩ := joinGroups_zero_then_times hzeros htimes hpos
    generalize [List.replicate (expirations.count (some 0)) (some 0),
      (expirations.filter (· ≠ some 0)).toList] = groups at hgroups hjoin
    have hrange' : ∀ e, some e ∈ groups.flatten → e < 2 ^ 64 := by
      intro e he
      exact hrange e (by rwa [← hgroups, Multiset.mem_coe])
    have hmap := map_configExpirations_listing hid hvalue hrange'
    obtain ⟨rules, hrules⟩ := addConfigs_listings .sorted hvalue hrange' ∅
    have hstored := hall _ _ rules (by rw [hmap]; exact hgroups) hrules
    rw [addConfigs_storedExpiration hrules, hmap, hjoin] at hstored
    cases hstored
    exact lifetime_ne_top he (top_le_iff.mp (hlatest.2 _ hzero))
  · intro h
    obtain ⟨r, hlatest, hgroups⟩ := joinGroups_latest hne h
    refine ⟨r, hlatest, fun ord configs rules hconfigs hrules => ?_⟩
    rw [addConfigs_storedExpiration hrules]
    exact hgroups _ hconfigs

/-- Two points in time and no expiration. -/
theorem no_expiration_stored :
    ∃ r, Latest r {some 11, none, some 33} ∧
      ∀ (ord : IterOrder) (configs : List (List Json)) (rules : RulesData),
        ((configs.map (configExpirations "id01" "1.2.3.4")).flatten : Multiset (Option Nat)) =
          {some 11, none, some 33} →
        addConfigs ord configs ∅ = .ok rules →
          storedExpiration rules "id01" "1.2.3.4" = some r := by
  refine (latest_stored_iff (by decide) (by decide) ?_ ?_).mpr ?_
  · exact Multiset.cons_ne_zero
  · intro e he
    have hcases : e = 11 ∨ e = 33 := by simpa using he
    omega
  · exact fun h => h.1 (by simp)

/-- An expiration of 0 is kept if it comes after a point in time, and lost if
it comes before it. -/
theorem time_after_zero_replaces_it :
    ∃ rules rules',
      addConfigs .sorted
        [listing "id01" "1.2.3.4" [some 5], listing "id01" "1.2.3.4" [some 0]] ∅ = .ok rules ∧
      storedExpiration rules "id01" "1.2.3.4" = some (some 0) ∧
      addConfigs .sorted
        [listing "id01" "1.2.3.4" [some 0], listing "id01" "1.2.3.4" [some 5]] ∅ = .ok rules' ∧
      storedExpiration rules' "id01" "1.2.3.4" = some (some 5) := by
  have hid : cstr "id01" = "id01" := by decide
  have hvalue : cstr "1.2.3.4" = "1.2.3.4" := by decide
  have hrun : ∀ a b : Nat, a < 2 ^ 64 → b < 2 ^ 64 → ∃ rules,
      addConfigs .sorted
        [listing "id01" "1.2.3.4" [some a], listing "id01" "1.2.3.4" [some b]] ∅ = .ok rules ∧
      storedExpiration rules "id01" "1.2.3.4" = joinGroups later [[some a], [some b]] := by
    intro a b ha hb
    have hrange : ∀ e, some e ∈ [[some a], [some b]].flatten → e < 2 ^ 64 := by
      intro e he
      have hcases : e = a ∨ e = b := by simpa using he
      omega
    obtain ⟨rules, hrules⟩ := addConfigs_listings .sorted hvalue hrange ∅
    refine ⟨rules, hrules, ?_⟩
    rw [addConfigs_storedExpiration hrules, map_configExpirations_listing hid hvalue hrange]
  obtain ⟨rules, hrules, hstored⟩ := hrun 5 0 (by decide) (by decide)
  obtain ⟨rules', hrules', hstored'⟩ := hrun 0 5 (by decide) (by decide)
  exact ⟨rules, rules', hrules, hstored.trans (by decide), hrules', hstored'.trans (by decide)⟩

end DdAppsec.Helper.RemoteConfig
