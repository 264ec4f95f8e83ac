import Mathlib.Data.List.Basic

/-!
# Lib — descriptors and advisory locks

A DESCRIPTOR TABLE is the list of what a process has open: entry `n` is what
descriptor `n` refers to, and `allocate` takes the lowest number that is free.

`flock` puts its lock on the OPEN FILE DESCRIPTION, which one `open` makes and
which every duplicate of the descriptor and every forked process shares. The
lock is gone when the last of them is closed, so nothing needs to happen to the
description then: it excludes others as long as it is `held`, that is, as long
as some table has an entry for it. Descriptions are numbered in the order they
are made, and a number is never used again.
-/

namespace DdAppsec.Lib

/-! ## Descriptor tables -/

/-- Entry `n` is what descriptor `n` refers to. -/
abbrev Descriptors (E : Type) := List (Option E)

namespace Descriptors

variable {E : Type}

def get : Descriptors E → Nat → Option E
  | [], _ => none
  | x :: _, 0 => x
  | _ :: t, n + 1 => get t n

def put : Descriptors E → Nat → Option E → Descriptors E
  | [], 0, e => [e]
  | [], n + 1, e => none :: put [] n e
  | _ :: t, 0, e => e :: t
  | x :: t, n + 1, e => x :: put t n e

/-- The number the next `open`, `socket` or `dup` gives. -/
def lowest : Descriptors E → Nat
  | [] => 0
  | none :: _ => 0
  | some _ :: t => lowest t + 1

def allocate (t : Descriptors E) (e : E) : Descriptors E := t.put t.lowest (some e)

/-- Close every descriptor that `p` picks. -/
def closeAll (p : Nat → Bool) : Descriptors E → Descriptors E
  | [] => []
  | x :: t => (if p 0 then none else x) :: closeAll (fun n => p (n + 1)) t

def close (t : Descriptors E) (n : Nat) : Descriptors E := t.closeAll fun m => m == n

@[simp] theorem get_put (t : Descriptors E) (n m : Nat) (e : Option E) :
    (t.put n e).get m = if m = n then e else t.get m := by
  induction n generalizing t m with
  | zero => cases t <;> cases m <;> simp [put, get]
  | succ n ih =>
    cases t with
    | nil => cases m <;> simp [put, get, ih]
    | cons x t => cases m <;> simp [put, get, ih]

@[simp] theorem get_lowest (t : Descriptors E) : t.get t.lowest = none := by
  induction t with
  | nil => rfl
  | cons x t ih => cases x <;> simp [lowest, get, ih]

@[simp] theorem get_allocate (t : Descriptors E) (e : E) (m : Nat) :
    (t.allocate e).get m = if m = t.lowest then some e else t.get m := by
  rw [allocate, get_put]

@[simp] theorem get_closeAll (p : Nat → Bool) (t : Descriptors E) (m : Nat) :
    (t.closeAll p).get m = if p m then none else t.get m := by
  induction t generalizing p m with
  | nil => simp [closeAll, get]
  | cons x t ih => cases m <;> simp [closeAll, get, ih]

@[simp] theorem get_close (t : Descriptors E) (n m : Nat) :
    (t.close n).get m = if m = n then none else t.get m := by
  simp [close]

theorem get_of_get_close {t : Descriptors E} {n m : Nat} {e : E}
    (h : (t.close n).get m = some e) : t.get m = some e := by
  rw [get_close] at h
  split at h
  · cases h
  · exact h

end Descriptors

/-! ## Locks -/

/-- The open file descriptions: the file of each, and whether `flock` put its
lock on it. -/
abbrev Locks (F : Type) := List (F × Bool)

namespace Locks

variable {F : Type}

/-- A description of its own for every `open`; its number is the length of the
list before. -/
def opened (f : F) (locks : Locks F) : Locks F := locks ++ [(f, false)]

def lock (d : Nat) (f : F) (locks : Locks F) : Locks F := locks.set d (f, true)

/-- No description that is still held has the lock on `f`: what `flock` asks
for. -/
def Free (held : Nat → Prop) (f : F) (locks : Locks F) : Prop :=
  ∀ d, held d → locks[d]? ≠ some (f, true)

/-- At most one of the descriptions that are held has the lock on a file. -/
def Exclusive (held : Nat → Prop) (locks : Locks F) : Prop :=
  ∀ f d d', held d → held d' → locks[d]? = some (f, true) → locks[d']? = some (f, true) →
    d = d'

variable {held held' : Nat → Prop} {locks : Locks F} {f : F} {d d' : Nat} {x : F × Bool}

theorem getElem?_opened_self : (locks.opened f)[locks.length]? = some (f, false) := by
  simp [opened]

theorem getElem?_opened (h : locks[d]? = some x) : (locks.opened f)[d]? = some x := by
  rw [opened, List.getElem?_append_left (List.getElem?_eq_some_iff.mp h).1]
  exact h

theorem of_getElem?_opened (h : (locks.opened f)[d]? = some (x.1, true)) :
    locks[d]? = some (x.1, true) := by
  rw [opened, List.getElem?_append] at h
  split at h
  · exact h
  · rw [List.getElem?_singleton] at h
    split at h <;> cases h

theorem getElem?_lock_self (h : locks[d]? = some x) : (locks.lock d f)[d]? = some (f, true) := by
  rw [lock, List.getElem?_set_self (List.getElem?_eq_some_iff.mp h).1]

theorem getElem?_lock_ne (h : d ≠ d') : (locks.lock d f)[d']? = locks[d']? :=
  List.getElem?_set_ne h

/-- Who no longer holds a description cannot be in its way. -/
theorem Exclusive.mono (h : Exclusive held locks) (hsub : ∀ d, held' d → held d) :
    Exclusive held' locks :=
  fun f d d' hd hd' => h f d d' (hsub d hd) (hsub d' hd')

/-- A new description is not locked. -/
theorem Exclusive.opened (h : Exclusive held locks)
    (hsub : ∀ d, held' d → held d ∨ d = locks.length) : Exclusive held' (locks.opened f) := by
  have hold : ∀ {d f'}, held' d → (locks.opened f)[d]? = some (f', true) →
      held d ∧ locks[d]? = some (f', true) := by
    intro d f' hd hlocked
    rcases hsub d hd with hheld | rfl
    · exact ⟨hheld, of_getElem?_opened (x := (f', true)) hlocked⟩
    · rw [getElem?_opened_self] at hlocked
      cases hlocked
  intro f' d d' hd hd' hlocked hlocked'
  obtain ⟨hheld, hl⟩ := hold hd hlocked
  obtain ⟨hheld', hl'⟩ := hold hd' hlocked'
  exact h f' d d' hheld hheld' hl hl'

/-- `flock` on a file nobody has locked. -/
theorem Exclusive.lock (h : Exclusive held locks) (hfree : Free held f locks)
    (hd : locks[d]? = some (f, false)) : Exclusive held (locks.lock d f) := by
  intro f' d₁ d₂ h₁ h₂ hl₁ hl₂
  by_cases heq₁ : d = d₁ <;> by_cases heq₂ : d = d₂
  · exact heq₁.symm.trans heq₂
  · subst heq₁
    rw [getElem?_lock_self hd] at hl₁
    rw [getElem?_lock_ne heq₂] at hl₂
    cases hl₁
    exact absurd hl₂ (hfree d₂ h₂)
  · subst heq₂
    rw [getElem?_lock_self hd] at hl₂
    rw [getElem?_lock_ne heq₁] at hl₁
    cases hl₂
    exact absurd hl₁ (hfree d₁ h₁)
  · rw [getElem?_lock_ne heq₁] at hl₁
    rw [getElem?_lock_ne heq₂] at hl₂
    exact h f' d₁ d₂ h₁ h₂ hl₁ hl₂

end Locks

end DdAppsec.Lib
