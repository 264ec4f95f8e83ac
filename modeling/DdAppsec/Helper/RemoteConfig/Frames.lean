import DdAppsec.Helper.RemoteConfig.Contributions
import DdAppsec.Helper.RemoteConfig.Service

/-!
# RemoteConfig — the engine listener, aggregator by aggregator

A call of the engine listener is for a config of some product and so for
one aggregator: the call resets it if this is the first one since `init`,
and then adds or removes. `asmRules` and `dataRules` are the two aggregators
as the next call will find them; what a call does to its own one is stated
with the contribution of the config, and `SameAggregator` says that the
calls for other products leave it alone.
-/

namespace DdAppsec.Helper.RemoteConfig

open Lib

variable {Sub : Type}

/-- The ASM aggregator after a touch. -/
def asmRules (w : World Sub) : Members := (w.listener.touch .asm).asm

/-- The ASM_DATA aggregator after a touch. -/
def dataRules (w : World Sub) : RulesData := (w.listener.touch .asmData).asmData

theorem asmRules_eq (w : World Sub) :
    asmRules w = if AggregatorId.asm ∈ w.listener.toCommit then w.listener.asm else asmInit := by
  unfold asmRules EngineListener.touch
  split <;> rfl

theorem dataRules_eq (w : World Sub) :
    dataRules w =
      if AggregatorId.asmData ∈ w.listener.toCommit then w.listener.asmData else ∅ := by
  unfold dataRules EngineListener.touch
  split <;> rfl

/-! ## Calls for other products -/

/-- What only the configs of one product change. -/
structure SameAggregator (id : AggregatorId) (a b : World Sub) : Prop where
  touched : id ∈ b.listener.toCommit ↔ id ∈ a.listener.toCommit
  asm : id = .asm → b.listener.asm = a.listener.asm
  asmData : id = .asmData → b.listener.asmData = a.listener.asmData
  files : b.files = a.files
  order : b.order = a.order

theorem SameAggregator.refl (id : AggregatorId) (w : World Sub) : SameAggregator id w w :=
  ⟨Iff.rfl, fun _ => rfl, fun _ => rfl, rfl, rfl⟩

theorem SameAggregator.trans (id : AggregatorId) (a b c : World Sub)
    (hab : SameAggregator id a b) (hbc : SameAggregator id b c) : SameAggregator id a c :=
  ⟨hbc.touched.trans hab.touched, fun h => (hbc.asm h).trans (hab.asm h),
    fun h => (hbc.asmData h).trans (hab.asmData h), hbc.files.trans hab.files,
    hbc.order.trans hab.order⟩

theorem SameAggregator.asmRules_eq {a b : World Sub} (h : SameAggregator .asm a b) :
    asmRules b = asmRules a := by
  simp only [RemoteConfig.asmRules_eq, h.touched, h.asm rfl]

theorem SameAggregator.dataRules_eq {a b : World Sub} (h : SameAggregator .asmData a b) :
    dataRules b = dataRules a := by
  simp only [RemoteConfig.dataRules_eq, h.touched, h.asmData rfl]

section Calls

variable {deps : Deps} {updateSub : Sub → Parameter → Option Sub} {fallback : Bytes}
  {c : Config} {w w' : World Sub} {r : Except Exception Unit}

/-- A touch of another aggregator. -/
theorem EngineListener.touch_other {id id' : AggregatorId} (l : EngineListener) (hid : id ≠ id') :
    (id ∈ (l.touch id').toCommit ↔ id ∈ l.toCommit) ∧
      (id = .asm → (l.touch id').asm = l.asm) ∧
      (id = .asmData → (l.touch id').asmData = l.asmData) := by
  refine ⟨?_, ?_, ?_⟩
  · rw [EngineListener.touch_toCommit]
    exact or_iff_right hid
  · rintro rfl
    unfold EngineListener.touch
    split
    · rfl
    · cases id' <;> first | rfl | exact absurd rfl hid
  · rintro rfl
    unfold EngineListener.touch
    split
    · rfl
    · cases id' <;> first | rfl | exact absurd rfl hid

/-- `add` and `remove` change the aggregator they are called on. -/
theorem EngineListener.add_other {ord : IterOrder} {id id' : AggregatorId} {config : Config}
    {l l' : EngineListener} (hid : id ≠ id') (h : l.add deps ord id' config = (r, l')) :
    (id = .asm → l'.asm = l.asm) ∧ (id = .asmData → l'.asmData = l.asmData) := by
  cases id' <;> simp only [EngineListener.add] at h <;> split at h <;> cases h <;>
    exact ⟨fun he => by first | rfl | exact absurd he hid,
      fun he => by first | rfl | exact absurd he hid⟩

theorem EngineListener.remove_other {files : FileSystem} {id' : AggregatorId}
    {l l' : EngineListener} (h : l.remove deps files fallback id' = (r, l')) :
    l'.asm = l.asm ∧ l'.asmData = l.asmData := by
  cases id' with
  | asm => cases h; exact ⟨rfl, rfl⟩
  | asmData => cases h; exact ⟨rfl, rfl⟩
  | asmDd =>
    simp only [EngineListener.remove] at h
    split at h <;> cases h <;> exact ⟨rfl, rfl⟩

theorem onUpdate_other {id : AggregatorId}
    (hid : AggregatorId.ofProduct c.product ≠ some id)
    (h : engineOnUpdate deps c w = (r, w')) : SameAggregator id w w' := by
  rcases engineOnUpdate_cases h with ⟨_, rfl⟩ | ⟨id', l, hid', hadd, rfl⟩
  · exact SameAggregator.refl id w'
  · have hne : id ≠ id' := fun he => hid (he ▸ hid')
    obtain ⟨htouched, hasm, hdata⟩ := EngineListener.touch_other w.listener hne
    obtain ⟨hasm', hdata'⟩ := EngineListener.add_other hne hadd
    refine ⟨?_, fun he => (hasm' he).trans (hasm he), fun he => (hdata' he).trans (hdata he),
      rfl, rfl⟩
    show id ∈ l.toCommit ↔ _
    rw [(EngineListener.add_static hadd).1]
    exact htouched

theorem onUnapply_other {id : AggregatorId}
    (hid : AggregatorId.ofProduct c.product ≠ some id)
    (h : engineOnUnapply deps fallback c w = (r, w')) : SameAggregator id w w' := by
  rcases engineOnUnapply_cases h with ⟨_, rfl⟩ | ⟨id', l, hid', hrem, rfl⟩
  · exact SameAggregator.refl id w'
  · have hne : id ≠ id' := fun he => hid (he ▸ hid')
    obtain ⟨htouched, hasm, hdata⟩ := EngineListener.touch_other w.listener hne
    obtain ⟨hasm', hdata'⟩ := EngineListener.remove_other hrem
    refine ⟨?_, fun he => hasm'.trans (hasm he), fun he => hdata'.trans (hdata he), rfl, rfl⟩
    show id ∈ l.toCommit ↔ _
    rw [(EngineListener.remove_static hrem).1]
    exact htouched

/-- The engine listener for the configs of a product of another aggregator. -/
theorem engineListener_respects_aggregator {id : AggregatorId} {name : Bytes}
    (hname : AggregatorId.ofProduct name ≠ some id) :
    (engineListener deps updateSub fallback).Respects name
      (SameAggregator id : World Sub → World Sub → Prop) where
  refl := SameAggregator.refl id
  trans := SameAggregator.trans id
  onUpdate := fun _ _ _ _ hc h => onUpdate_other (hc ▸ hname) h
  onUnapply := fun _ _ _ _ hc h => onUnapply_other (hc ▸ hname) h

theorem asmFeaturesListener_respects_aggregator (id : AggregatorId) (name : Bytes) :
    (asmFeaturesListener deps).Respects name
      (SameAggregator id : World Sub → World Sub → Prop) where
  refl := SameAggregator.refl id
  trans := SameAggregator.trans id
  onUpdate := by
    intro c w r w' _ h
    obtain ⟨status, rfl⟩ := asmFeatures_onUpdate_world h
    exact ⟨Iff.rfl, fun _ => rfl, fun _ => rfl, rfl, rfl⟩
  onUnapply := by
    intro c w r w' _ h
    cases h
    exact ⟨Iff.rfl, fun _ => rfl, fun _ => rfl, rfl, rfl⟩

/-- A product has its own aggregator. -/
theorem ofProduct_eq_some {name : Bytes} {id : AggregatorId}
    (h : AggregatorId.ofProduct name = some id) :
    (id = .asm ∧ name = asmProduct) ∨ (id = .asmDd ∧ name = asmDdProduct) ∨
      (id = .asmData ∧ name = asmDataProduct) := by
  unfold AggregatorId.ofProduct at h
  split at h
  · cases h
    exact Or.inl ⟨rfl, by assumption⟩
  · split at h
    · cases h
      exact Or.inr (Or.inl ⟨rfl, by assumption⟩)
    · split at h
      · cases h
        exact Or.inr (Or.inr ⟨rfl, by assumption⟩)
      · cases h

theorem ofProduct_ne_asm {name : Bytes} (hname : name ≠ asmProduct) :
    AggregatorId.ofProduct name ≠ some .asm := by
  intro h
  rcases ofProduct_eq_some h with ⟨_, hn⟩ | ⟨hid, _⟩ | ⟨hid, _⟩
  · exact hname hn
  · cases hid
  · cases hid

/-! ## ASM -/

theorem ofProduct_asm : AggregatorId.ofProduct asmProduct = some .asm := by decide

theorem ofProduct_asmData : AggregatorId.ofProduct asmDataProduct = some .asmData := by decide

/-- `on_update` of an ASM config: its arrays are appended, or it is refused. -/
theorem onUpdate_asm {arrays : Bytes → List Json} (hc : c.product = asmProduct)
    (hrules : asmRules w = asmRuleset arrays) (h : engineOnUpdate deps c w = (r, w')) :
    AggregatorId.asm ∈ w'.listener.toCommit ∧ w'.files = w.files ∧
    ((∃ added, asmContribution deps c.contents = some added ∧ r = .ok () ∧
        asmRules w' = asmRuleset fun key => arrays key ++ added key) ∨
      (asmContribution deps c.contents = none ∧
        (∃ what, r = .error (.errorApplyingConfig what)) ∧ asmRules w' = asmRuleset arrays)) := by
  rcases engineOnUpdate_cases h with ⟨hid, _⟩ | ⟨id, l, hid, hadd, rfl⟩
  · rw [hc, ofProduct_asm] at hid
    cases hid
  · rw [hc, ofProduct_asm] at hid
    cases hid
    have hin : AggregatorId.asm ∈ l.toCommit := by
      rw [(EngineListener.add_static hadd).1]
      exact (EngineListener.touch_toCommit _ _ _).mpr (Or.inl rfl)
    have hafter : asmRules { w with listener := l } = l.asm := by
      rw [asmRules_eq, if_pos hin]
    change (w.listener.touch .asm).asm = asmRuleset arrays at hrules
    refine ⟨hin, rfl, ?_⟩
    rw [hafter]
    simp only [EngineListener.add, hrules] at hadd
    cases hcontribution : asmContribution deps c.contents with
    | none =>
      obtain ⟨what, herror⟩ := asmAdd_of_none hcontribution (asmRuleset arrays)
      rw [herror] at hadd
      cases hadd
      exact Or.inr ⟨rfl, ⟨what, rfl⟩, hrules⟩
    | some added =>
      rw [asmAdd_of_some hcontribution] at hadd
      cases hadd
      exact Or.inl ⟨added, rfl, rfl, rfl⟩

/-- `on_unapply` of an ASM config only touches. -/
theorem onUnapply_asm (hc : c.product = asmProduct)
    (h : engineOnUnapply deps fallback c w = (r, w')) :
    r = .ok () ∧ AggregatorId.asm ∈ w'.listener.toCommit ∧ w'.files = w.files ∧
      asmRules w' = asmRules w := by
  rcases engineOnUnapply_cases h with ⟨hid, _⟩ | ⟨id, l, hid, hrem, rfl⟩
  · rw [hc, ofProduct_asm] at hid
    cases hid
  · rw [hc, ofProduct_asm] at hid
    cases hid
    cases hrem
    have hin : AggregatorId.asm ∈ (w.listener.touch .asm).toCommit :=
      (EngineListener.touch_toCommit _ _ _).mpr (Or.inl rfl)
    refine ⟨rfl, hin, rfl, ?_⟩
    rw [asmRules_eq, if_pos hin]
    rfl

/-! ## ASM_DATA -/

/-- `on_update` of an ASM_DATA config: what it brings is merged, or its
error is thrown. -/
theorem onUpdate_asmData (hc : c.product = asmDataProduct)
    (h : engineOnUpdate deps c w = (r, w')) :
    AggregatorId.asmData ∈ w'.listener.toCommit ∧ w'.files = w.files ∧ w'.order = w.order ∧
    ((∃ fresh, asmDataContribution deps c.contents = .ok fresh ∧ r = .ok () ∧
        dataRules w' = mergeRulesData w.order fresh (dataRules w)) ∨
      ∃ e, asmDataContribution deps c.contents = .error e ∧ r = .error e ∧
        dataRules w' = dataRules w) := by
  rcases engineOnUpdate_cases h with ⟨hid, _⟩ | ⟨id, l, hid, hadd, rfl⟩
  · rw [hc, ofProduct_asmData] at hid
    cases hid
  · rw [hc, ofProduct_asmData] at hid
    cases hid
    have hin : AggregatorId.asmData ∈ l.toCommit := by
      rw [(EngineListener.add_static hadd).1]
      exact (EngineListener.touch_toCommit _ _ _).mpr (Or.inl rfl)
    have hafter : dataRules { w with listener := l } = l.asmData := by
      rw [dataRules_eq, if_pos hin]
    refine ⟨hin, rfl, rfl, ?_⟩
    rw [hafter]
    simp only [EngineListener.add, asmDataAdd_eq] at hadd
    cases hcontribution : asmDataContribution deps c.contents with
    | error e =>
      rw [hcontribution] at hadd
      cases hadd
      exact Or.inr ⟨e, rfl, rfl, rfl⟩
    | ok fresh =>
      rw [hcontribution] at hadd
      cases hadd
      exact Or.inl ⟨fresh, rfl, rfl, rfl⟩

/-- `on_unapply` of an ASM_DATA config only touches. -/
theorem onUnapply_asmData (hc : c.product = asmDataProduct)
    (h : engineOnUnapply deps fallback c w = (r, w')) :
    r = .ok () ∧ AggregatorId.asmData ∈ w'.listener.toCommit ∧ w'.files = w.files ∧
      w'.order = w.order ∧ dataRules w' = dataRules w := by
  rcases engineOnUnapply_cases h with ⟨hid, _⟩ | ⟨id, l, hid, hrem, rfl⟩
  · rw [hc, ofProduct_asmData] at hid
    cases hid
  · rw [hc, ofProduct_asmData] at hid
    cases hid
    cases hrem
    have hin : AggregatorId.asmData ∈ (w.listener.touch .asmData).toCommit :=
      (EngineListener.touch_toCommit _ _ _).mpr (Or.inl rfl)
    refine ⟨rfl, hin, rfl, rfl, ?_⟩
    rw [dataRules_eq, if_pos hin]
    rfl

end Calls

end DdAppsec.Helper.RemoteConfig
