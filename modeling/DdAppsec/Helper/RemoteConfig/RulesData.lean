import DdAppsec.Helper.RemoteConfig.Contributions
import DdAppsec.Lib.Join

/-!
# RemoteConfig — merging ASM_DATA contributions

`rules_data_` is merged by id, and each rule by value; of two expirations of
one value the later one stays, and none at all is later than any. So the
contributions of several configs can be merged in any order, with two
exceptions the code makes: an expiration of 0 replaces whatever is there,
and the type of a rule is that of the first contribution. `Regular` leaves
the two out.
-/

namespace DdAppsec.Helper.RemoteConfig

open Lib

/-! ## Data points -/

/-- `emplace` on a value that is there. -/
def DataWithExpiration.join (old point : DataWithExpiration) : DataWithExpiration :=
  match point.expiration with
  | none => { old with expiration := none }
  | some expiration =>
    match old.expiration with
    | none => old
    | some current =>
      if expiration = 0 ∨ current < expiration then { old with expiration := some expiration }
      else old

/-- The later expiration, where none is 0. -/
theorem DataWithExpiration.join_eq {old point : DataWithExpiration}
    (h : point.expiration ≠ some 0) :
    old.join point =
      ⟨old.value, old.expiration.bind fun a => point.expiration.map fun b => max a b⟩ := by
  obtain ⟨value, expiration⟩ := old
  obtain ⟨value', expiration'⟩ := point
  cases expiration' with
  | none => cases expiration <;> rfl
  | some b =>
    cases expiration with
    | none => rfl
    | some a =>
      have hb : b ≠ 0 := fun h0 => h (by rw [h0])
      simp only [DataWithExpiration.join, Option.bind_some, Option.map_some]
      by_cases hlt : a < b
      · rw [if_pos (Or.inr hlt), Nat.max_eq_right (by omega)]
      · rw [if_neg (by omega), Nat.max_eq_left (by omega)]

theorem DataWithExpiration.join_comm {p q : DataWithExpiration} (hvalue : p.value = q.value)
    (hp : p.expiration ≠ some 0) (hq : q.expiration ≠ some 0) : p.join q = q.join p := by
  rw [DataWithExpiration.join_eq hq, DataWithExpiration.join_eq hp, hvalue]
  cases p.expiration with
  | none => cases q.expiration <;> rfl
  | some a =>
    cases q.expiration with
    | none => rfl
    | some b => simp [Nat.max_comm]

theorem DataWithExpiration.join_right_comm {p q : DataWithExpiration}
    (hp : p.expiration ≠ some 0) (hq : q.expiration ≠ some 0) (z : DataWithExpiration) :
    (z.join p).join q = (z.join q).join p := by
  simp only [DataWithExpiration.join_eq hq, DataWithExpiration.join_eq hp]
  cases z.expiration with
  | none => rfl
  | some c =>
    cases p.expiration with
    | none => cases q.expiration <;> rfl
    | some a =>
      cases q.expiration with
      | none => rfl
      | some b => simp [Nat.max_comm, Nat.max_left_comm]

/-! ## Rules -/

theorem RuleData.emplace_data (rd : RuleData) (point : DataWithExpiration) (v : Bytes) :
    (rd.emplace point).data[v]? =
      if point.value = v then optJoin .join rd.data[point.value]? (some point)
      else rd.data[v]? := by
  cases hold : rd.data[point.value]? with
  | none => simp [RuleData.emplace, hold]
  | some old =>
    simp only [RuleData.emplace, hold, optJoin_some, DataWithExpiration.join]
    cases point.expiration with
    | none => simp
    | some expiration =>
      cases hcurrent : old.expiration with
      | none =>
        dsimp only
        split
        · rename_i hv
          rw [← hv, hold]
        · rfl
      | some current =>
        dsimp only
        split
        · simp
        · split
          · rename_i hv
            rw [← hv, hold]
          · rfl

theorem RuleData.emplace_head (rd : RuleData) (point : DataWithExpiration) :
    (rd.emplace point).id = rd.id ∧ (rd.emplace point).type = rd.type := by
  unfold RuleData.emplace
  split
  · exact ⟨rfl, rfl⟩
  · split
    · exact ⟨rfl, rfl⟩
    · split
      · exact ⟨rfl, rfl⟩
      · split
        · exact ⟨rfl, rfl⟩
        · exact ⟨rfl, rfl⟩

/-- Every data point sits under its own value. -/
def RuleData.Keyed (rd : RuleData) : Prop :=
  ∀ (v : Bytes) (point : DataWithExpiration), rd.data[v]? = some point → point.value = v

theorem RuleData.merge_head (rd other : RuleData) :
    (rd.merge other).id = rd.id ∧ (rd.merge other).type = rd.type := by
  refine entries_foldl_invariant IterOrder.sorted
    (fun _ (acc : RuleData) => acc.id = rd.id ∧ acc.type = rd.type) ⟨rfl, rfl⟩ ?_
  rintro _ k point acc _ _ ⟨hid, htype⟩
  obtain ⟨hid', htype'⟩ := acc.emplace_head point
  exact ⟨hid'.trans hid, htype'.trans htype⟩

theorem RuleData.merge_data {other : RuleData} (hkeyed : other.Keyed) (rd : RuleData) (v : Bytes) :
    (rd.merge other).data[v]? = optJoin .join rd.data[v]? other.data[v]? := by
  refine foldl_join IterOrder.sorted DataWithExpiration.join (fun acc v => acc.data[v]?) ?_ rd v
  intro acc k point hk v'
  dsimp only
  rw [RuleData.emplace_data, hkeyed k point hk]

theorem RuleData.ext_data {a b : RuleData} (hid : a.id = b.id) (htype : a.type = b.type)
    (hdata : ∀ v : Bytes, a.data[v]? = b.data[v]?) : a = b := by
  obtain ⟨id, type, data⟩ := a
  obtain ⟨id', type', data'⟩ := b
  cases hid
  cases htype
  rw [show data = data' from StringMap.ext hdata]

/-- A rule that can be merged in any order: filed under its id, with the
type of that id, and without expirations of 0. -/
structure RuleData.Regular (typeOf : Bytes → Bytes) (id : Bytes) (rd : RuleData) : Prop where
  filed : rd.id = id
  type : rd.type = typeOf id
  keyed : rd.Keyed
  expiration : ∀ (v : Bytes) (point : DataWithExpiration), rd.data[v]? = some point →
    point.expiration ≠ some 0

section Rules

variable {typeOf : Bytes → Bytes} {id : Bytes} {a b : RuleData}

theorem RuleData.merge_comm (ha : a.Regular typeOf id) (hb : b.Regular typeOf id) :
    a.merge b = b.merge a := by
  obtain ⟨hid, htype⟩ := a.merge_head b
  obtain ⟨hid', htype'⟩ := b.merge_head a
  apply RuleData.ext_data
  · rw [hid, hid', ha.filed, hb.filed]
  · rw [htype, htype', ha.type, hb.type]
  · intro v
    rw [RuleData.merge_data hb.keyed, RuleData.merge_data ha.keyed]
    apply optJoin_comm
    intro p q hp hq
    exact DataWithExpiration.join_comm ((ha.keyed v p hp).trans (hb.keyed v q hq).symm)
      (ha.expiration v p hp) (hb.expiration v q hq)

theorem RuleData.merge_right_comm (ha : a.Regular typeOf id) (hb : b.Regular typeOf id)
    (z : RuleData) : (z.merge a).merge b = (z.merge b).merge a := by
  apply RuleData.ext_data
  · rw [(RuleData.merge_head _ b).1, (RuleData.merge_head _ a).1, (RuleData.merge_head _ a).1,
      (RuleData.merge_head _ b).1]
  · rw [(RuleData.merge_head _ b).2, (RuleData.merge_head _ a).2, (RuleData.merge_head _ a).2,
      (RuleData.merge_head _ b).2]
  · intro v
    simp only [RuleData.merge_data hb.keyed, RuleData.merge_data ha.keyed]
    apply optJoin_right_comm
    · intro p q hp hq
      exact DataWithExpiration.join_comm ((ha.keyed v p hp).trans (hb.keyed v q hq).symm)
        (ha.expiration v p hp) (hb.expiration v q hq)
    · intro z p q hp hq
      exact DataWithExpiration.join_right_comm (ha.expiration v p hp) (hb.expiration v q hq) z

end Rules

/-! ## Maps of rules -/

theorem mergeRulesData_getElem? (ord : IterOrder) (fresh rules : RulesData) (id : Bytes) :
    (mergeRulesData ord fresh rules)[id]? = optJoin .merge rules[id]? fresh[id]? := by
  refine foldl_join ord RuleData.merge (fun acc id => acc[id]?) ?_ rules id
  intro acc k rd _ k'
  dsimp only
  cases hk : acc[k]? with
  | none =>
    dsimp only
    rw [StringMap.insertIfNew_of_none hk, StringMap.getElem?_insert]
    rfl
  | some rule => exact StringMap.getElem?_insert

/-- The iteration order of the contribution plays no part. -/
theorem mergeRulesData_order (ord ord' : IterOrder) (fresh rules : RulesData) :
    mergeRulesData ord fresh rules = mergeRulesData ord' fresh rules := by
  apply StringMap.ext
  intro id
  rw [mergeRulesData_getElem?, mergeRulesData_getElem?]

/-- Rules that can be merged in any order. -/
def RulesData.Regular (typeOf : Bytes → Bytes) (rules : RulesData) : Prop :=
  ∀ (id : Bytes) (rd : RuleData), rules[id]? = some rd → rd.Regular typeOf id

theorem mergeRulesData_right_comm {typeOf : Bytes → Bytes} {a b : RulesData}
    (ha : RulesData.Regular typeOf a) (hb : RulesData.Regular typeOf b) (ord : IterOrder)
    (z : RulesData) :
    mergeRulesData ord b (mergeRulesData ord a z) =
      mergeRulesData ord a (mergeRulesData ord b z) := by
  apply StringMap.ext
  intro id
  simp only [mergeRulesData_getElem?]
  apply optJoin_right_comm
  · intro x y hx hy
    exact RuleData.merge_comm (ha id x hx) (hb id y hy)
  · intro z x y hx hy
    exact RuleData.merge_right_comm (ha id x hx) (hb id y hy) z

/-! ## What a config brings -/

theorem getUint64_natCast {e : Nat} (h : e < 2 ^ 64) : getUint64 (.int e) = .ok e := by
  have hlt : (e : Int) < 2 ^ 64 := by omega
  rw [getUint64, if_pos ⟨Int.natCast_nonneg e, hlt⟩, Int.toNat_natCast]

/-- Rules filed under their ids, and their data under its values. -/
def RulesData.Keyed (rules : RulesData) : Prop :=
  ∀ (id : Bytes) (rd : RuleData), rules[id]? = some rd → rd.id = id ∧ rd.Keyed

theorem RuleData.Keyed.emplace {rd : RuleData} (h : rd.Keyed) (point : DataWithExpiration) :
    (rd.emplace point).Keyed := by
  have hjoin : ∀ old : DataWithExpiration, (old.join point).value = old.value := by
    intro old
    unfold DataWithExpiration.join
    split
    · rfl
    · split
      · rfl
      · split <;> rfl
  intro v p hp
  rw [RuleData.emplace_data] at hp
  split at hp
  · rename_i hv
    cases hold : rd.data[point.value]? with
    | none =>
      rw [hold] at hp
      cases hp
      exact hv
    | some old =>
      rw [hold] at hp
      cases hp
      rw [hjoin, h _ old hold, hv]
  · exact h v p hp

theorem extractData_keyed {entries : List Json} {rd rd' : RuleData} (h : rd.Keyed)
    (hdata : extractData entries rd = .ok rd') : rd'.id = rd.id ∧ rd'.Keyed := by
  induction entries generalizing rd with
  | nil =>
    cases hdata
    exact ⟨rfl, h⟩
  | cons entry rest ih =>
    rw [extractData] at hdata
    split at hdata
    · cases hdata
    · rename_i point _
      obtain ⟨hid, hkeyed⟩ := ih (h.emplace point) hdata
      exact ⟨hid.trans (rd.emplace_head point).1, hkeyed⟩

theorem RulesData.Keyed.insert {rules : RulesData} (h : RulesData.Keyed rules) {id : Bytes}
    {rd : RuleData} (hid : rd.id = id) (hkeyed : rd.Keyed) :
    RulesData.Keyed (rules.insert id rd) := by
  intro id' rd' hrd'
  rw [StringMap.getElem?_insert] at hrd'
  split at hrd'
  · rename_i heq
    cases hrd'
    exact ⟨hid.trans heq, hkeyed⟩
  · exact h id' rd' hrd'

theorem addRuleData_keyed {id type : Bytes} {data : List Json} {rules rules' : RulesData}
    (h : RulesData.Keyed rules) (hadd : addRuleData id type data rules = .ok rules') :
    RulesData.Keyed rules' := by
  unfold addRuleData at hadd
  split at hadd
  · rename_i hnone
    split at hadd
    · cases hadd
    · rename_i rd hdata
      have hempty : (⟨id, type, ∅⟩ : RuleData).Keyed := by
        intro v p hp
        simp at hp
      obtain ⟨hid, hkeyed⟩ := extractData_keyed hempty hdata
      cases hadd
      split
      · exact h
      · rw [StringMap.insertIfNew_of_none hnone]
        exact h.insert hid hkeyed
  · rename_i rule hrule
    split at hadd
    · cases hadd
    · rename_i rd hdata
      obtain ⟨hrid, hrkeyed⟩ := h id rule hrule
      obtain ⟨hid, hkeyed⟩ := extractData_keyed hrkeyed hdata
      cases hadd
      exact h.insert (hid.trans hrid) hkeyed

theorem newRulesData_keyed {entries : List Json} {rules rules' : RulesData}
    (h : RulesData.Keyed rules) (hnew : newRulesData entries rules = .ok rules') :
    RulesData.Keyed rules' := by
  induction entries generalizing rules with
  | nil =>
    cases hnew
    exact h
  | cons entry rest ih =>
    unfold newRulesData at hnew
    split at hnew
    · rename_i hentry
      cases hentry
    · rename_i hentry
      cases hentry
      split at hnew
      · split at hnew
        · exact ih h hnew
        · split at hnew
          · cases hnew
          · rename_i hadd
            exact ih (addRuleData_keyed h hadd) hnew
      · cases hnew
    · cases hnew

/-- **A contribution is filed as it should be**, whatever the config says. -/
theorem asmDataContribution_keyed {deps : Deps} {contents : Bytes} {fresh : RulesData}
    (h : asmDataContribution deps contents = .ok fresh) : RulesData.Keyed fresh := by
  unfold asmDataContribution at h
  split at h
  · cases h
  · split at h
    · cases h
    · refine newRulesData_keyed ?_ h
      intro id rd hrd
      simp at hrd
    · cases h

end DdAppsec.Helper.RemoteConfig
