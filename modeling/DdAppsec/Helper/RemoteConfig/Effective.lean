import DdAppsec.Helper.RemoteConfig.AsmDd
import DdAppsec.Helper.RemoteConfig.Frames
import DdAppsec.Helper.RemoteConfig.RulesData

/-!
# RemoteConfig — the values the engine ends up with

A commit has the sections of the aggregators the poll touched and nothing of
the others, so what the engine works with, key by key, is the value in the
last commit that has the key: `effective`. What it should be is a function
of the contents of the stored configs, whatever happened before:
`configured`.

This module relates the two for one poll: what `assign_configs` leaves in an
aggregator (`assign_aggregator`), and what the commit after it means to a
key (`effective_engineCommit`).
-/

namespace DdAppsec.Helper.RemoteConfig

open Lib

variable {Sub : Type}

/-- The keys of the engine's ruleset that ASM and ASM_DATA fill. -/
def effectiveKeys : List Bytes :=
  ["exclusions", "rules_override", "custom_rules", "rules_data"].map Bytes.ofString

/-- The value in the last committed document that has the key, and an empty
array if none has. -/
def effective (commits : List Commit) (key : Bytes) : Json :=
  (commits.reverse.findSome? fun commit => commit.document.members.find key).getD (.array [])

/-- Two arrays with the same elements. -/
def SameUpToOrder (a b : Json) : Prop :=
  ∃ xs ys, a = .array xs ∧ b = .array ys ∧ xs.Perm ys

theorem SameUpToOrder.symm {a b : Json} (h : SameUpToOrder a b) : SameUpToOrder b a := by
  obtain ⟨xs, ys, hxs, hys, hperm⟩ := h
  exact ⟨ys, xs, hys, hxs, hperm.symm⟩

theorem SameUpToOrder.trans {a b c : Json} (hab : SameUpToOrder a b) (hbc : SameUpToOrder b c) :
    SameUpToOrder a c := by
  obtain ⟨xs, ys, hxs, hys, hperm⟩ := hab
  obtain ⟨ys', zs, hys', hzs, hperm'⟩ := hbc
  rw [hys] at hys'
  cases hys'
  exact ⟨xs, zs, hxs, hzs, hperm.trans hperm'⟩

/-! ## What the stored configs stand for -/

/-- The contents of the configs of a product. -/
def contentsOf (configs : StringMap Config) : StringMap Bytes :=
  configs.map fun _ config => config.contents

@[simp] theorem contentsOf_getElem? (configs : StringMap Config) (id : Bytes) :
    (contentsOf configs)[id]? = configs[id]?.map Config.contents := by
  rw [contentsOf, Std.ExtTreeMap.getElem?_map]

theorem contentsOf_insert (configs : StringMap Config) (id : Bytes) (config : Config) :
    contentsOf (configs.insert id config) = (contentsOf configs).insert id config.contents := by
  apply StringMap.ext
  intro k
  simp only [contentsOf_getElem?, StringMap.getElem?_insert]
  split <;> rfl

/-- What contents bring under a key of ASM. -/
def asmBrings (deps : Deps) (key contents : Bytes) : List Json :=
  match asmContribution deps contents with
  | some added => added key
  | none => []

/-- The array of the ASM configs under a key. -/
def asmArray (deps : Deps) (m : StringMap Bytes) (key : Bytes) : List Json :=
  (IterOrder.sorted.entries m).flatMap fun kv => asmBrings deps key kv.2

/-- The rules with those of one more ASM_DATA config. -/
def addData (deps : Deps) (rules : RulesData) (contents : Bytes) : RulesData :=
  match asmDataContribution deps contents with
  | .ok fresh => mergeRulesData IterOrder.sorted fresh rules
  | .error _ => rules

/-- The rules of the ASM_DATA configs. -/
def dataRulesOf (deps : Deps) (m : StringMap Bytes) : RulesData :=
  (IterOrder.sorted.entries m).foldl (fun rules kv => addData deps rules kv.2) ∅

/-- **The array configured for a key** by the contents of the ASM and the
ASM_DATA configs. -/
def configured (deps : Deps) (asm data : StringMap Bytes) (key : Bytes) : List Json :=
  if key = "rules_data" then
    (IterOrder.sorted.entries (dataRulesOf deps data)).map fun kv => ruleDataJson kv.2
  else asmArray deps asm key

theorem asmArray_insert (deps : Deps) {m : StringMap Bytes} {id : Bytes} (h : m[id]? = none)
    (contents key : Bytes) :
    (asmArray deps (m.insert id contents) key).Perm
      (asmArray deps m key ++ asmBrings deps key contents) := by
  refine ((IterOrder.sorted.entries_insert h contents).flatMap_right _).trans ?_
  rw [List.flatMap_cons]
  exact List.perm_append_comm

/-- What an id stands for does not change: contributions of one type and
without expirations of 0. -/
def UniformData (deps : Deps) (typeOf : Bytes → Bytes) (contents : Bytes) : Prop :=
  ∀ fresh, asmDataContribution deps contents = .ok fresh →
    ∀ (id : Bytes) (rd : RuleData), fresh[id]? = some rd → rd.type = typeOf id ∧
      ∀ (v : Bytes) (point : DataWithExpiration), rd.data[v]? = some point →
        point.expiration ≠ some 0

theorem UniformData.regular {deps : Deps} {typeOf : Bytes → Bytes} {contents : Bytes}
    (h : UniformData deps typeOf contents) {fresh : RulesData}
    (hfresh : asmDataContribution deps contents = .ok fresh) :
    RulesData.Regular typeOf fresh := by
  intro id rd hrd
  obtain ⟨htype, hexpiration⟩ := h fresh hfresh id rd hrd
  obtain ⟨hid, hkeyed⟩ := asmDataContribution_keyed hfresh id rd hrd
  exact ⟨hid, htype, hkeyed, hexpiration⟩

theorem addData_right_comm {deps : Deps} {typeOf : Bytes → Bytes} {a b : Bytes}
    (ha : UniformData deps typeOf a) (hb : UniformData deps typeOf b) (z : RulesData) :
    addData deps (addData deps z a) b = addData deps (addData deps z b) a := by
  unfold addData
  cases hca : asmDataContribution deps a with
  | error e => rfl
  | ok fresh =>
    cases hcb : asmDataContribution deps b with
    | error e => rfl
    | ok fresh' =>
      exact mergeRulesData_right_comm (ha.regular hca) (hb.regular hcb) IterOrder.sorted z

theorem dataRulesOf_insert {deps : Deps} {typeOf : Bytes → Bytes} {m : StringMap Bytes}
    {id contents : Bytes} (h : m[id]? = none)
    (hm : ∀ (k b : Bytes), m[k]? = some b → UniformData deps typeOf b)
    (hc : UniformData deps typeOf contents) :
    dataRulesOf deps (m.insert id contents) = addData deps (dataRulesOf deps m) contents := by
  -- the entries in another order: the new one comes last
  have hperm : (IterOrder.sorted.entries (m.insert id contents)).Perm
      (IterOrder.sorted.entries m ++ [(id, contents)]) :=
    (IterOrder.sorted.entries_insert h contents).trans (List.perm_append_singleton _ _).symm
  have huniform : ∀ kv ∈ IterOrder.sorted.entries (m.insert id contents),
      UniformData deps typeOf kv.2 := by
    rintro ⟨k, b⟩ hkv
    rw [IterOrder.mem_entries, StringMap.getElem?_insert] at hkv
    split at hkv
    · cases hkv
      exact hc
    · exact hm k b hkv
  rw [dataRulesOf, hperm.foldl_eq'
    (fun x hx y hy z => addData_right_comm (huniform x hx) (huniform y hy) z),
    List.foldl_append]
  rfl

/-! ## What a product leaves in its aggregator -/

section Aggregator

variable {deps : Deps} {updateSub : Sub → Parameter → Option Sub} {fallback : Bytes}
  {id : AggregatorId} {product : Bytes} {c : Config} {w w' : World Sub}
  {r : Except Exception Unit}

theorem onUpdate_touches (hid : AggregatorId.ofProduct c.product = some id)
    (h : engineOnUpdate deps c w = (r, w')) : id ∈ w'.listener.toCommit := by
  rcases engineOnUpdate_cases h with ⟨hnone, _⟩ | ⟨id', l, hid', hadd, rfl⟩
  · rw [hid] at hnone
    cases hnone
  · rw [hid] at hid'
    cases hid'
    show id ∈ l.toCommit
    rw [(EngineListener.add_static hadd).1]
    exact (EngineListener.touch_toCommit _ _ _).mpr (Or.inl rfl)

theorem onUnapply_touches (hid : AggregatorId.ofProduct c.product = some id)
    (h : engineOnUnapply deps fallback c w = (r, w')) : id ∈ w'.listener.toCommit := by
  rcases engineOnUnapply_cases h with ⟨hnone, _⟩ | ⟨id', l, hid', hrem, rfl⟩
  · rw [hid] at hnone
    cases hnone
  · rw [hid] at hid'
    cases hid'
    show id ∈ l.toCommit
    rw [(EngineListener.remove_static hrem).1]
    exact (EngineListener.touch_toCommit _ _ _).mpr (Or.inl rfl)

/-- **`assign_configs`, seen from the aggregator of the product.** `R m w`
says that the aggregator in `w` holds what the contents `m` stand for. Either
nothing was touched and the product has what it had, or the aggregator holds
what the new configs stand for. -/
theorem assign_aggregator {ord : IterOrder} {p p' : Product (World Sub)}
    {configs : StringMap Config} (R : StringMap Bytes → World Sub → Prop)
    (hid : AggregatorId.ofProduct product = some id)
    (hl : p.listener = engineListener deps updateSub fallback)
    (hs : ∀ (k : Bytes) (c : Config), p.configs[k]? = some c → c.product = product)
    (hn : ∀ (k : Bytes) (c : Config), configs[k]? = some c → c.product = product)
    (hupdate : ∀ m (k : Bytes) c w r w',
      (classify ord p.configs configs).toUpdate[k]? = some c → m[k]? = none →
      c.product = product → R m w → engineOnUpdate deps c w = (r, w') →
      R (m.insert k c.contents) w')
    (hunapply : ∀ m c w r w', c.product = product → R m w →
      engineOnUnapply deps fallback c w = (r, w') → R m w')
    (h0 : R ∅ w) (h : p.assignConfigs ord configs w = (.ok (), p', w')) :
    (w' = w ∧ contentsOf p'.configs = contentsOf p.configs) ∨
      (id ∈ w'.listener.toCommit ∧ R (contentsOf p'.configs) w') := by
  rcases Product.assignConfigs_ok h with
    ⟨_, rfl, rfl⟩ | ⟨hchange, updated, w₁, unapplied, hu, hun, rfl⟩
  · exact Or.inl ⟨rfl, rfl⟩
  · have hf : IgnoresState fun c => c.product = product := fun _ _ _ hc => hc
    have hspec := classify_spec ord p.configs configs
    rw [hl] at hu hun
    have hupdated : (id ∈ w₁.listener.toCommit ∨ updated = ∅) ∧ R (contentsOf updated) w₁ := by
      refine forEach_invariant (fun done wc => (id ∈ wc.listener.toCommit ∨ done = ∅) ∧
        R (contentsOf done) wc) ⟨Or.inr rfl, ?_⟩ ?_ hu
      · rw [show contentsOf ∅ = ∅ from StringMap.ext fun k => by simp]
        exact h0
      · rintro done k c wa c' wb hk hd ⟨_, hR⟩ hb
        have hproduct : c.product = product := classify_toUpdate_of hf hs hn hk
        have hfresh : (contentsOf done)[k]? = none := by simp [hd]
        obtain ⟨r, hcall, hcontents⟩ : ∃ r, engineOnUpdate deps c wa = (r, wb) ∧
            c'.contents = c.contents := by
          rcases applyConfig_ok hb with ⟨hcall, rfl⟩ | ⟨what, hcall, rfl⟩
          · exact ⟨_, hcall, rfl⟩
          · exact ⟨_, hcall, rfl⟩
        refine ⟨Or.inl (onUpdate_touches (hproduct ▸ hid) hcall), ?_⟩
        rw [contentsOf_insert, hcontents]
        exact hupdate _ k c wa r wb hk hfresh hproduct hR hcall
    have hunapplied : (id ∈ w'.listener.toCommit ∨ unapplied = ∅ ∧ w' = w₁) ∧
        R (contentsOf updated) w' := by
      refine forEach_invariant (fun done wc => (id ∈ wc.listener.toCommit ∨ done = ∅ ∧ wc = w₁) ∧
        R (contentsOf updated) wc) ⟨Or.inr ⟨rfl, rfl⟩, hupdated.2⟩ ?_ hun
      rintro done k c wa c' wb hk _ ⟨_, hR⟩ hb
      have hproduct : c.product = product := classify_stored_of hs hk
      obtain ⟨r, hcall⟩ : ∃ r, engineOnUnapply deps fallback c wa = (r, wb) := by
        rcases applyConfig_ok hb with ⟨hcall, _⟩ | ⟨what, hcall, _⟩
        · exact ⟨_, hcall⟩
        · exact ⟨_, hcall⟩
      exact ⟨Or.inl (onUnapply_touches (hproduct ▸ hid) hcall),
        hunapply _ c wa r wb hproduct hR hcall⟩
    refine Or.inr ⟨?_, hunapplied.2⟩
    rcases hunapplied.1 with htouched | ⟨hnone, hsame⟩
    · exact htouched
    · rcases hupdated.1 with htouched | hempty
      · rw [hsame]
        exact htouched
      · -- no call at all: there was nothing to do
        refine absurd ⟨?_, ?_⟩ hchange
        · intro k new hk
          have hto := hspec.toUpdate k
          rw [hk] at hto
          obtain ⟨_, _, hin⟩ := (updateConfigs_ok hu k).2 _ hto
          rw [hempty] at hin
          simp at hin
        · intro k hk
          have hstored := hspec.stored k
          rw [if_pos hk] at hstored
          cases hp : p.configs[k]? with
          | none => rfl
          | some previous =>
            rw [hp] at hstored
            have hkept : unapplied[k]? ≠ none := by
              refine forEntries_keeps_key _ hun ?_
              rw [hstored]
              exact Option.some_ne_none previous
            rw [hnone] at hkept
            simp at hkept

/-- What the ASM aggregator holds for these contents. -/
def HoldsAsm (deps : Deps) (m : StringMap Bytes) (w : World Sub) : Prop :=
  ∃ arrays, asmRules w = asmRuleset arrays ∧
    ∀ key, (arrays key).Perm (asmArray deps m key)

theorem HoldsAsm.empty (h : AggregatorId.asm ∉ w.listener.toCommit) : HoldsAsm deps ∅ w := by
  refine ⟨fun _ => [], ?_, fun key => ?_⟩
  · rw [asmRules_eq, if_neg h, asmInit_eq]
  · rw [asmArray, IterOrder.entries_eq_nil _ (by simp)]
    exact List.Perm.refl _

theorem HoldsAsm.update {m : StringMap Bytes} {k : Bytes} (hm : m[k]? = none)
    (hc : c.product = asmProduct) (h : HoldsAsm deps m w)
    (hcall : engineOnUpdate deps c w = (r, w')) :
    HoldsAsm deps (m.insert k c.contents) w' := by
  obtain ⟨arrays, harrays, hperm⟩ := h
  obtain ⟨_, _, ⟨added, hadded, _, hrules⟩ | ⟨hnone, _, hrules⟩⟩ := onUpdate_asm hc harrays hcall
  · refine ⟨_, hrules, fun key => ?_⟩
    refine List.Perm.trans ?_ (asmArray_insert deps hm c.contents key).symm
    rw [show asmBrings deps key c.contents = added key by rw [asmBrings, hadded]]
    exact (hperm key).append_right _
  · refine ⟨arrays, hrules, fun key => ?_⟩
    refine List.Perm.trans ?_ (asmArray_insert deps hm c.contents key).symm
    rw [show asmBrings deps key c.contents = [] by rw [asmBrings, hnone], List.append_nil]
    exact hperm key

theorem HoldsAsm.unapply {m : StringMap Bytes} (hc : c.product = asmProduct)
    (h : HoldsAsm deps m w) (hcall : engineOnUnapply deps fallback c w = (r, w')) :
    HoldsAsm deps m w' := by
  obtain ⟨arrays, harrays, hperm⟩ := h
  obtain ⟨_, _, _, hrules⟩ := onUnapply_asm hc hcall
  exact ⟨arrays, hrules.trans harrays, hperm⟩

/-- What the ASM_DATA aggregator holds for these contents. -/
structure HoldsData (deps : Deps) (typeOf : Bytes → Bytes) (m : StringMap Bytes)
    (w : World Sub) : Prop where
  uniform : ∀ (k b : Bytes), m[k]? = some b → UniformData deps typeOf b
  rules : dataRules w = dataRulesOf deps m

theorem HoldsData.empty {typeOf : Bytes → Bytes}
    (h : AggregatorId.asmData ∉ w.listener.toCommit) : HoldsData deps typeOf ∅ w := by
  refine ⟨fun k b hb => ?_, ?_⟩
  · simp at hb
  · rw [dataRules_eq, if_neg h, dataRulesOf, IterOrder.entries_eq_nil _ (by simp)]
    rfl

theorem HoldsData.update {typeOf : Bytes → Bytes} {m : StringMap Bytes} {k : Bytes}
    (hm : m[k]? = none) (hc : c.product = asmDataProduct)
    (huniform : UniformData deps typeOf c.contents) (h : HoldsData deps typeOf m w)
    (hcall : engineOnUpdate deps c w = (r, w')) :
    HoldsData deps typeOf (m.insert k c.contents) w' := by
  refine ⟨?_, ?_⟩
  · intro k' b hb
    rw [StringMap.getElem?_insert] at hb
    split at hb
    · cases hb
      exact huniform
    · exact h.uniform k' b hb
  · rw [dataRulesOf_insert hm h.uniform huniform, ← h.rules]
    obtain ⟨_, _, _, ⟨fresh, hfresh, _, hrules⟩ | ⟨e, he, _, hrules⟩⟩ :=
      onUpdate_asmData hc hcall
    · rw [hrules, addData, hfresh]
      exact mergeRulesData_order _ _ _ _
    · rw [hrules, addData, he]

theorem HoldsData.unapply {typeOf : Bytes → Bytes} {m : StringMap Bytes}
    (hc : c.product = asmDataProduct) (h : HoldsData deps typeOf m w)
    (hcall : engineOnUnapply deps fallback c w = (r, w')) : HoldsData deps typeOf m w' := by
  obtain ⟨_, _, _, _, hrules⟩ := onUnapply_asmData hc hcall
  exact ⟨h.uniform, hrules.trans h.rules⟩

end Aggregator

/-! ## What a commit means to a key -/

theorem effective_append (commits : List Commit) (commit : Commit) (key : Bytes) :
    effective (commits ++ [commit]) key =
      (commit.document.members.find key).getD (effective commits key) := by
  simp only [effective, List.reverse_append, List.reverse_singleton, List.singleton_append,
    List.findSome?_cons]
  cases commit.document.members.find key <;> rfl

/-- The ids whose sections a document has, with `sec` for the sections. -/
theorem find_flatMap_sections {touched : List AggregatorId} {sec : AggregatorId → Members}
    {key : Bytes} {id : AggregatorId}
    (hothers : ∀ id', id' ∈ touched → id' ≠ id → (sec id').find key = none)
    (ids : List AggregatorId) :
    Members.find ((ids.filterMap fun id' =>
        if id' ∈ touched then some (id', sec id') else none).flatMap Prod.snd) key =
      if id ∈ ids ∧ id ∈ touched then (sec id).find key else none := by
  induction ids with
  | nil => simp
  | cons id' ids ih =>
    by_cases htouched : id' ∈ touched
    · simp only [List.filterMap_cons, if_pos htouched, List.flatMap_cons, Members.find_append, ih]
      by_cases hid : id' = id
      · subst hid
        simp only [List.mem_cons, true_or, htouched, and_self, and_true, if_true]
        split
        · cases (sec id').find key <;> rfl
        · rw [Option.or_none]
      · rw [hothers id' htouched hid, Option.none_or]
        simp [Ne.symm hid]
    · simp only [List.filterMap_cons, if_neg htouched, ih]
      by_cases hid : id' = id
      · subst hid
        simp [htouched]
      · simp [Ne.symm hid]

theorem find_sections {ord : IterOrder} {l : EngineListener} {key : Bytes} {id : AggregatorId}
    (hothers : ∀ id', id' ∈ l.toCommit → id' ≠ id → (l.section ord id').find key = none) :
    Members.find ((l.sections ord).flatMap Prod.snd) key =
      if id ∈ l.toCommit then (l.section ord id).find key else none := by
  -- every aggregator has its turn
  have hall : id ∈ (ord.arrange [asmProduct, asmDataProduct, asmDdProduct]).filterMap
      AggregatorId.ofProduct := by
    rw [List.mem_filterMap]
    cases id with
    | asm => exact ⟨asmProduct, (ord.perm _).mem_iff.mpr (by simp), ofProduct_asm⟩
    | asmDd => exact ⟨asmDdProduct, (ord.perm _).mem_iff.mpr (by simp), ofProduct_asmDd⟩
    | asmData => exact ⟨asmDataProduct, (ord.perm _).mem_iff.mpr (by simp), ofProduct_asmData⟩
  rw [EngineListener.sections, find_flatMap_sections hothers]
  simp only [hall, true_and]

/-- **A commit, seen from a key** that only one aggregator fills. -/
theorem effective_engineCommit {updateSub : Sub → Parameter → Option Sub} {w : World Sub}
    {key : Bytes} {id : AggregatorId}
    (hothers : ∀ id', id' ∈ w.listener.toCommit → id' ≠ id →
      (w.listener.section w.order id').find key = none) :
    effective (engineCommit updateSub w).commits key =
      if id ∈ w.listener.toCommit then
        ((w.listener.section w.order id).find key).getD (effective w.commits key)
      else effective w.commits key := by
  unfold engineCommit
  split
  · rename_i hnone
    rw [if_neg (by simp [hnone])]
  · dsimp only
    rw [effective_append]
    show (Members.find ((w.listener.sections w.order).flatMap Prod.snd) key).getD _ = _
    rw [find_sections hothers]
    split
    · rfl
    · rfl

section Commit

variable {deps : Deps} {updateSub : Sub → Parameter → Option Sub} {w : World Sub}
  {m m' : StringMap Bytes} {key : Bytes}

theorem asmKey_of_ne (hkey : key ∈ effectiveKeys) (hne : key ≠ Bytes.ofString "rules_data") :
    key ∈ expectedKeys := by
  have hall : ∀ k ∈ effectiveKeys, k = Bytes.ofString "rules_data" ∨ k ∈ expectedKeys := by
    decide
  exact (hall key hkey).resolve_left hne

/-- A key of ASM, committed: `m` is what the engine had and `m'` what the
product has now. -/
theorem commit_asm (hkey : key ∈ expectedKeys) (hne : key ≠ Bytes.ofString "rules_data")
    (hdd : AggregatorId.asmDd ∈ w.listener.toCommit → w.listener.asmDd.find key = none)
    (hasm : (AggregatorId.asm ∉ w.listener.toCommit ∧ m' = m) ∨
      (AggregatorId.asm ∈ w.listener.toCommit ∧ HoldsAsm deps m' w))
    (hold : SameUpToOrder (effective w.commits key) (.array (asmArray deps m key))) :
    SameUpToOrder (effective (engineCommit updateSub w).commits key)
      (.array (asmArray deps m' key)) := by
  have hothers : ∀ id', id' ∈ w.listener.toCommit → id' ≠ .asm →
      (w.listener.section w.order id').find key = none := by
    intro id' htouched hid
    cases id' with
    | asm => exact absurd rfl hid
    | asmDd => exact hdd htouched
    | asmData =>
      show Members.find (asmDataSection w.order w.listener.asmData) key = none
      rw [asmDataSection, Members.find_cons, if_neg (Ne.symm hne)]
      rfl
  rw [effective_engineCommit hothers]
  rcases hasm with ⟨hnot, rfl⟩ | ⟨htouched, arrays, harrays, hperm⟩
  · rw [if_neg hnot]
    exact hold
  · rw [asmRules_eq, if_pos htouched] at harrays
    have hfind : (w.listener.section w.order .asm).find key = some (.array (arrays key)) := by
      show Members.find w.listener.asm key = _
      rw [harrays]
      exact find_asmRuleset hkey arrays
    rw [if_pos htouched, hfind]
    exact ⟨_, _, rfl, rfl, hperm key⟩

/-- The key of ASM_DATA, committed. -/
theorem commit_data {typeOf : Bytes → Bytes}
    (hdd : AggregatorId.asmDd ∈ w.listener.toCommit →
      w.listener.asmDd.find "rules_data" = none)
    (hasm : AggregatorId.asm ∈ w.listener.toCommit → ∃ m, HoldsAsm deps m w)
    (hdata : (AggregatorId.asmData ∉ w.listener.toCommit ∧ m' = m) ∨
      (AggregatorId.asmData ∈ w.listener.toCommit ∧ HoldsData deps typeOf m' w))
    (hold : SameUpToOrder (effective w.commits "rules_data")
      (.array ((IterOrder.sorted.entries (dataRulesOf deps m)).map fun kv =>
        ruleDataJson kv.2))) :
    SameUpToOrder (effective (engineCommit updateSub w).commits "rules_data")
      (.array ((IterOrder.sorted.entries (dataRulesOf deps m')).map fun kv =>
        ruleDataJson kv.2)) := by
  have hothers : ∀ id', id' ∈ w.listener.toCommit → id' ≠ .asmData →
      (w.listener.section w.order id').find "rules_data" = none := by
    intro id' htouched hid
    cases id' with
    | asmData => exact absurd rfl hid
    | asmDd => exact hdd htouched
    | asm =>
      obtain ⟨_, arrays, harrays, _⟩ := hasm htouched
      rw [asmRules_eq, if_pos htouched] at harrays
      show Members.find w.listener.asm "rules_data" = none
      rw [harrays]
      exact find_asmRuleset_none (by decide) arrays
  rw [effective_engineCommit hothers]
  rcases hdata with ⟨hnot, rfl⟩ | ⟨htouched, hR⟩
  · rw [if_neg hnot]
    exact hold
  · have hmap := hR.rules
    rw [dataRules_eq, if_pos htouched] at hmap
    have hfind : (w.listener.section w.order .asmData).find "rules_data" = some (.array
        ((w.order.entries w.listener.asmData).map fun kv => ruleDataJson kv.2)) := by
      show Members.find (asmDataSection w.order w.listener.asmData) _ = _
      rw [asmDataSection, Members.find_cons, if_pos rfl]
    rw [if_pos htouched, hfind, hmap]
    exact ⟨_, _, rfl, rfl, (IterOrder.entries_perm _ _ _).map _⟩

end Commit

end DdAppsec.Helper.RemoteConfig
