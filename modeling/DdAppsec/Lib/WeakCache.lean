/-!
# Lib — a cache of weak references

Objects are numbered in the order they are made. A cache entry names an
object without keeping it alive: whether it still is, `alive` says, and an
entry for a dead object stays until a `sweep`. Entries are found by key,
the first one counts, and `emplace` never replaces one — not even one whose
object is dead.
-/

namespace DdAppsec.Lib

variable {K : Type} [DecidableEq K]

/-- Weak references by key. -/
def WeakCache (K : Type) : Type := List (K × Nat)

namespace WeakCache

def empty : WeakCache K := []

/-- The object of the entry for `k`, alive or not. -/
def find (k : K) : WeakCache K → Option Nat
  | [] => none
  | (k', o) :: rest => if k' = k then some o else find k rest

/-- A new entry, unless there is one for `k`. -/
def emplace (k : K) (o : Nat) (cache : WeakCache K) : WeakCache K :=
  match cache.find k with
  | some _ => cache
  | none => List.append cache [(k, o)]

/-- Drop the entries of dead objects. -/
def sweep (alive : Nat → Bool) (cache : WeakCache K) : WeakCache K :=
  List.filter (fun e => alive e.2) cache

theorem find_append (k k' : K) (o : Nat) (cache : WeakCache K) :
    find k' (List.append cache [(k, o)]) =
      (cache.find k').or (if k = k' then some o else none) := by
  induction cache with
  | nil => rfl
  | cons e rest ih =>
    show find k' (e :: List.append rest [(k, o)]) = _
    simp only [find]
    split
    · rfl
    · exact ih

variable {cache : WeakCache K} {k k' : K} {o o' : Nat} {alive : Nat → Bool}

theorem find_emplace_self (h : cache.find k = none) : (cache.emplace k o).find k = some o := by
  rw [emplace, h]
  show find k (List.append cache [(k, o)]) = _
  rw [find_append, h]
  simp

theorem find_emplace_of_some (h : cache.find k' = some o') :
    (cache.emplace k o).find k' = some o' := by
  unfold emplace
  split
  · exact h
  · rw [find_append, h]
    rfl

/-- An entry of a live object survives a sweep. -/
theorem find_sweep (h : cache.find k = some o) (ha : alive o = true) :
    (cache.sweep alive).find k = some o := by
  induction cache with
  | nil => simp [find] at h
  | cons e rest ih =>
    obtain ⟨k₁, o₁⟩ := e
    simp only [find] at h
    show find k (List.filter _ _) = _
    split at h
    · rename_i hk
      cases h
      rw [List.filter_cons_of_pos (by exact ha), find, if_pos hk]
    · rename_i hk
      by_cases ha₁ : alive o₁ = true
      · rw [List.filter_cons_of_pos (by exact ha₁), find, if_neg hk]
        exact ih h
      · rw [List.filter_cons_of_neg (by simpa using ha₁)]
        exact ih h

end WeakCache

end DdAppsec.Lib
