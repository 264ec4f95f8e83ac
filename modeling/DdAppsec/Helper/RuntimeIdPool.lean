import DdAppsec.Lib.Bytes
import Mathlib.Data.List.Induction
import Mathlib.Data.List.Lex
import Mathlib.Data.Multiset.Sort
import Mathlib.Order.Fin.Basic

/-!
# Helper — the pool of runtime ids

Every client brings the runtime id of its process and takes it away when it
leaves. `RuntimeIdPool` is `runtime_id_pool`: the ids counted with
multiplicity, and the one that remote config uses.

The mutex makes each call one step, so a history is a list of calls. Which
element `*ids_.begin()` is depends on the hash table at that moment; every
call comes with its own choice (`Begin`).

`step_current` says once what a call can do to the current id; the invariant
and `current_id_kept` follow from it.
-/

namespace DdAppsec.Helper

open Lib

/-- `*ids_.begin()`: an element if there is one. -/
structure Begin where
  pick : Multiset Bytes → Bytes
  mem : ∀ ids, ids ≠ 0 → pick ids ∈ ids

/-- The smallest id. -/
def Begin.smallest : Begin where
  pick := fun ids => (ids.sort (· ≤ ·)).headD []
  mem := by
    intro ids hids
    cases hsort : ids.sort (· ≤ ·) with
    | nil =>
      have hzero : ids = 0 := by rw [← Multiset.sort_eq ids (· ≤ ·), hsort]; rfl
      exact absurd hzero hids
    | cons id rest =>
      rw [← Multiset.mem_sort (· ≤ ·), hsort]
      exact List.mem_cons_self

/-- `ids_` and `current_`. -/
structure RuntimeIdPool where
  ids : Multiset Bytes
  current : Bytes

def RuntimeIdPool.empty : RuntimeIdPool := ⟨0, []⟩

/-- `runtime_id_pool::add`. -/
def RuntimeIdPool.add (b : Begin) (id : Bytes) (p : RuntimeIdPool) : RuntimeIdPool :=
  if id = [] then p
  else
    let ids := id ::ₘ p.ids
    if Multiset.card ids = 1 ∨ p.current = [] then ⟨ids, b.pick ids⟩ else ⟨ids, p.current⟩

/-- `runtime_id_pool::remove`. -/
def RuntimeIdPool.remove (b : Begin) (id : Bytes) (p : RuntimeIdPool) : RuntimeIdPool :=
  if id = [] then p
  else if id ∈ p.ids then
    let ids := p.ids.erase id
    -- the id stays if it is the last one, or still valid
    if ids ≠ 0 ∧ p.current ∉ ids then ⟨ids, b.pick ids⟩ else ⟨ids, p.current⟩
  else p

/-- `runtime_id_pool::get`. -/
def RuntimeIdPool.get (p : RuntimeIdPool) : Bytes := p.current

/-- `runtime_id_pool::has_value`. -/
def RuntimeIdPool.hasValue (p : RuntimeIdPool) : Bool := p.current ≠ []

inductive PoolCall where
  | add (b : Begin) (id : Bytes)
  | remove (b : Begin) (id : Bytes)

def RuntimeIdPool.step (p : RuntimeIdPool) : PoolCall → RuntimeIdPool
  | .add b id => p.add b id
  | .remove b id => p.remove b id

/-- The pool after some calls. -/
def RuntimeIdPool.after (calls : List PoolCall) : RuntimeIdPool := calls.foldl step empty

/-! ## What is registered -/

/-- The ids that calls have registered: added and not removed, with
multiplicity. -/
def registered (calls : List PoolCall) : Multiset Bytes :=
  calls.foldl (fun ids call =>
    match call with
    | .add _ id => if id = [] then ids else id ::ₘ ids
    | .remove _ id => ids.erase id) 0

/-- Some call has added an id that is not empty. -/
def AddsValid (calls : List PoolCall) : Prop := ∃ b id, id ≠ [] ∧ PoolCall.add b id ∈ calls

/-- **The invariant**: an id that is registered is not empty, and while there
are any the current one is among them. -/
structure RuntimeIdPool.Inv (p : RuntimeIdPool) : Prop where
  valid : [] ∉ p.ids
  current : p.ids ≠ 0 → p.current ∈ p.ids

namespace RuntimeIdPool

variable {p : RuntimeIdPool}

theorem inv_empty : empty.Inv := ⟨by simp [empty], fun h => absurd rfl h⟩

/-- What one call does to the ids. -/
theorem step_ids (h : p.Inv) (call : PoolCall) :
    (p.step call).ids =
      match call with
      | .add _ id => if id = [] then p.ids else id ::ₘ p.ids
      | .remove _ id => p.ids.erase id := by
  cases call with
  | add b id =>
    simp only [step, add]
    split
    · rfl
    · split <;> rfl
  | remove b id =>
    simp only [step, remove]
    split
    · rename_i hid
      rw [hid, Multiset.erase_of_notMem h.valid]
    · split
      · split <;> rfl
      · rename_i hmem
        rw [Multiset.erase_of_notMem hmem]

/-- **What one call does to the current id**: it becomes one of those that are
registered now, or it stays and then is registered if any is. -/
theorem step_current (h : p.Inv) (call : PoolCall) :
    ((p.step call).current ∈ (p.step call).ids ∧ p.current ∉ (p.step call).ids) ∨
      ((p.step call).current = p.current ∧
        ((p.step call).ids ≠ 0 → p.current ∈ (p.step call).ids)) := by
  cases call with
  | add b id =>
    simp only [step, add]
    split
    · exact Or.inr ⟨rfl, h.current⟩
    · rename_i hid
      split
      · rename_i hnew
        have hpick := b.mem (id ::ₘ p.ids) Multiset.cons_ne_zero
        by_cases hmem : p.current ∈ id ::ₘ p.ids
        · -- the id that was removed last has come back
          refine Or.inr ⟨?_, fun _ => hmem⟩
          obtain hcard | hempty := hnew
          · obtain ⟨x, hx⟩ := Multiset.card_eq_one.mp hcard
            rw [hx, Multiset.mem_singleton] at hmem hpick
            show b.pick (id ::ₘ p.ids) = p.current
            rw [hx, hpick, hmem]
          · rw [hempty, Multiset.mem_cons] at hmem
            obtain hmem | hmem := hmem
            · exact absurd hmem.symm hid
            · exact absurd hmem h.valid
        · exact Or.inl ⟨hpick, hmem⟩
      · rename_i hold
        refine Or.inr ⟨rfl, fun _ => ?_⟩
        have hids : p.ids ≠ 0 := by
          intro hzero
          exact hold (Or.inl (by rw [hzero]; rfl))
        exact Multiset.mem_cons_of_mem (h.current hids)
  | remove b id =>
    simp only [step, remove]
    split
    · exact Or.inr ⟨rfl, h.current⟩
    · split
      · split
        · rename_i hgone
          exact Or.inl ⟨b.mem _ hgone.1, hgone.2⟩
        · rename_i hkept
          refine Or.inr ⟨rfl, fun hids => ?_⟩
          by_contra hno
          exact hkept ⟨hids, hno⟩
      · exact Or.inr ⟨rfl, h.current⟩

theorem step_inv (h : p.Inv) (call : PoolCall) : (p.step call).Inv := by
  constructor
  · rw [step_ids h]
    cases call with
    | add b id =>
      show [] ∉ if id = [] then p.ids else id ::ₘ p.ids
      split
      · exact h.valid
      · rename_i hid
        intro hmem
        obtain hmem | hmem := Multiset.mem_cons.mp hmem
        · exact hid hmem.symm
        · exact h.valid hmem
    | remove b id => exact fun hmem => h.valid (Multiset.mem_of_mem_erase hmem)
  · intro hids
    obtain ⟨hmem, _⟩ | ⟨hsame, hmem⟩ := step_current h call
    · exact hmem
    · rw [hsame]
      exact hmem hids

/-- The current id is not empty any more once it is not, or an id is there. -/
theorem step_current_ne_nil (h : p.Inv) (call : PoolCall)
    (hvalid : p.current ≠ [] ∨ (p.step call).ids ≠ 0) : (p.step call).current ≠ [] := by
  have hinv := step_inv h call
  intro hnil
  obtain ⟨hmem, _⟩ | ⟨hsame, hmem⟩ := step_current h call
  · exact hinv.valid (hnil ▸ hmem)
  · obtain hvalid | hids := hvalid
    · exact hvalid (hsame ▸ hnil)
    · exact hinv.valid (hnil ▸ hinv.current hids)

/-! ## Histories -/

theorem after_append (calls : List PoolCall) (call : PoolCall) :
    after (calls ++ [call]) = (after calls).step call := by
  simp [after]

theorem after_inv (calls : List PoolCall) : (after calls).Inv := by
  induction calls using List.reverseRecOn with
  | nil => exact inv_empty
  | append_singleton calls call ih =>
    rw [after_append]
    exact step_inv ih call

/-- The pool holds the ids that are registered. -/
theorem after_ids (calls : List PoolCall) : (after calls).ids = registered calls := by
  induction calls using List.reverseRecOn with
  | nil => rfl
  | append_singleton calls call ih =>
    rw [after_append, step_ids (after_inv calls), ih]
    simp only [registered, List.foldl_append, List.foldl_cons, List.foldl_nil]

theorem after_current_ne_nil {calls : List PoolCall} (h : AddsValid calls) :
    (after calls).current ≠ [] := by
  induction calls using List.reverseRecOn with
  | nil =>
    obtain ⟨_, _, _, hmem⟩ := h
    cases hmem
  | append_singleton calls call ih =>
    rw [after_append]
    apply step_current_ne_nil (after_inv calls)
    obtain ⟨b, id, hid, hmem⟩ := h
    obtain hmem | hmem := List.mem_append.mp hmem
    · exact Or.inl (ih ⟨b, id, hid, hmem⟩)
    · right
      rw [step_ids (after_inv calls), ← List.mem_singleton.mp hmem]
      simp [hid]

/-- Once there is a value, it stays. -/
theorem hasValue_of_addsValid {calls : List PoolCall} (h : AddsValid calls) :
    (after calls).hasValue = true := by
  simpa [hasValue] using after_current_ne_nil h

/-- **The pool over any history of calls.** The current id is registered while
any id is; a call changes it only if the old one is not registered any more; and
after the first valid id there is always one. -/
theorem current_id_kept (calls : List PoolCall) (call : PoolCall) :
    (registered calls ≠ 0 → (after calls).get ∈ registered calls) ∧
      ((after (calls ++ [call])).get ≠ (after calls).get →
        (after calls).get ∉ registered (calls ++ [call])) ∧
      (AddsValid calls → (after calls).get ≠ []) := by
  refine ⟨?_, ?_, after_current_ne_nil⟩
  · rw [← after_ids]
    exact (after_inv calls).current
  · intro hchanged
    rw [← after_ids, after_append]
    rw [after_append] at hchanged
    obtain ⟨_, hgone⟩ | ⟨hsame, _⟩ := step_current (after_inv calls) call
    · exact hgone
    · exact absurd hsame hchanged

end RuntimeIdPool

end DdAppsec.Helper
