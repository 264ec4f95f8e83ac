import Mathlib.Algebra.Ring.Int.Defs
import Mathlib.Algebra.Ring.Nat
import Mathlib.Data.List.Nodup
import Mathlib.Data.List.Perm.Basic
import Mathlib.Data.List.TakeWhile

/-!
# Lib — byte strings and hash containers

C and C++ strings are byte sequences, so a string here is a `List UInt8`:
NUL bytes and invalid UTF-8 stay representable, and `cstr` is the reading
a `const char *` gives of such a buffer.

The two containers of the standard library share one representation, a
finite map with EXTENSIONAL equality (`Std.ExtTreeMap`): two maps with the
same entries are equal whatever the insertion history. `std::map` iterates
in key order, which is `toList`. `std::unordered_map` iterates in an order
the standard leaves open; `IterOrder` is that order as an oracle, and a
result that holds for every `IterOrder` does not depend on it.
-/

namespace DdAppsec.Lib

/-- The bytes of a string, NUL included. -/
abbrev Bytes := List UInt8

/-- The bytes of an ASCII literal. -/
def Bytes.ofString (s : String) : Bytes := s.toList.map fun c => UInt8.ofNat c.toNat

instance : Coe String Bytes := ⟨Bytes.ofString⟩

instance Bytes.instLawfulBEq : LawfulBEq Bytes := inferInstance

/-- What a `const char *` reader sees of the buffer: everything before the
first NUL. -/
def cstr (b : Bytes) : Bytes := b.takeWhile (· ≠ 0)

/-- A map from strings: `std::map` and `std::unordered_map` alike. -/
abbrev StringMap (α : Type) := Std.ExtTreeMap Bytes α

/-- The iteration order of the hash containers: some rearrangement of the
keys, chosen by the implementation. -/
structure IterOrder where
  arrange : List Bytes → List Bytes
  perm : ∀ keys : List Bytes, (arrange keys).Perm keys

/-- Iteration in key order, the order of a `std::map`. -/
def IterOrder.sorted : IterOrder where
  arrange := fun keys => keys
  perm := fun keys => List.Perm.refl keys

variable {α : Type}

/-! ## Lookups, with keys compared by equality -/

section StringMap

variable {m m' : StringMap α} {k a : Bytes} {v : α}

theorem StringMap.ext (h : ∀ k : Bytes, m[k]? = m'[k]?) : m = m' :=
  Std.ExtTreeMap.ext_getElem? fun {k} => h k

@[simp] theorem StringMap.getElem?_insert :
    (m.insert k v)[a]? = if k = a then some v else m[a]? := by
  rw [Std.ExtTreeMap.getElem?_insert]
  simp only [Std.LawfulEqCmp.compare_eq_iff_eq]

@[simp] theorem StringMap.getElem?_erase :
    (m.erase k)[a]? = if k = a then none else m[a]? := by
  rw [Std.ExtTreeMap.getElem?_erase]
  simp only [Std.LawfulEqCmp.compare_eq_iff_eq]

theorem StringMap.getElem?_insertIfNew :
    (m.insertIfNew k v)[a]? = if k = a ∧ m[k]? = none then some v else m[a]? := by
  rw [Std.ExtTreeMap.getElem?_insertIfNew]
  simp only [Std.LawfulEqCmp.compare_eq_iff_eq, Std.ExtTreeMap.mem_iff_isSome_getElem?,
    Option.not_isSome_iff_eq_none]

theorem StringMap.insertIfNew_of_none (h : m[k]? = none) :
    m.insertIfNew k v = m.insert k v := by
  apply StringMap.ext
  intro a
  rw [StringMap.getElem?_insertIfNew, StringMap.getElem?_insert]
  simp only [h, and_true]

theorem StringMap.isEmpty_iff : m.isEmpty = true ↔ ∀ k : Bytes, m[k]? = none := by
  rw [Std.ExtTreeMap.isEmpty_iff]
  constructor
  · rintro rfl k
    simp
  · intro h
    exact StringMap.ext fun k => by simp [h k]

theorem StringMap.mem_keys_of_getElem? (h : m[k]? = some v) : k ∈ m.keys :=
  Std.ExtTreeMap.mem_keys.mpr
    (Std.ExtTreeMap.mem_iff_isSome_getElem?.mpr (Option.isSome_iff_exists.mpr ⟨v, h⟩))

end StringMap

/-! ## Iteration -/

/-- The entries of a map in the order a range-`for` visits them. -/
def IterOrder.entries (ord : IterOrder) (m : StringMap α) : List (Bytes × α) :=
  (ord.arrange m.keys).filterMap fun k => m[k]?.map fun v => (k, v)

@[simp] theorem IterOrder.mem_entries (ord : IterOrder) (m : StringMap α)
    {k : Bytes} {v : α} : (k, v) ∈ ord.entries m ↔ m[k]? = some v := by
  rw [IterOrder.entries, List.mem_filterMap]
  constructor
  · rintro ⟨k', _, h⟩
    obtain ⟨v', hv, heq⟩ := Option.map_eq_some_iff.mp h
    cases heq
    exact hv
  · intro h
    have hk : k ∈ m.keys := by
      rw [Std.ExtTreeMap.mem_keys, Std.ExtTreeMap.mem_iff_isSome_getElem?, h]
      rfl
    exact ⟨k, (ord.perm m.keys).mem_iff.mpr hk, by rw [h]; rfl⟩

/-- No key is visited twice. -/
theorem IterOrder.nodup_keys (ord : IterOrder) (m : StringMap α) :
    ((ord.entries m).map Prod.fst).Nodup := by
  have hkeys : (ord.arrange m.keys).Nodup :=
    (ord.perm m.keys).nodup_iff.mpr Std.ExtTreeMap.nodup_keys
  rw [IterOrder.entries]
  refine hkeys.sublist ?_
  induction ord.arrange m.keys with
  | nil => exact List.Sublist.refl _
  | cons k rest ih =>
    cases hk : m[k]? with
    | none =>
      simp only [List.filterMap_cons, hk, Option.map_none]
      exact ih.cons k
    | some v =>
      simp only [List.filterMap_cons, hk, Option.map_some, List.map_cons]
      exact ih.cons_cons k

/-- Two containers visit the same entries. -/
theorem IterOrder.entries_perm (ord ord' : IterOrder) (m : StringMap α) :
    (ord.entries m).Perm (ord'.entries m) :=
  ((ord.perm m.keys).trans (ord'.perm m.keys).symm).filterMap _

/-- A new key is one more entry. -/
theorem IterOrder.entries_insert (ord : IterOrder) {m : StringMap α} {k : Bytes}
    (h : m[k]? = none) (v : α) :
    (ord.entries (m.insert k v)).Perm ((k, v) :: ord.entries m) := by
  have hnew : (k, v) ∉ ord.entries m := by
    rw [ord.mem_entries, h]
    exact fun hk => by cases hk
  rw [List.perm_ext_iff_of_nodup (ord.nodup_keys _).of_map
    (List.nodup_cons.mpr ⟨hnew, (ord.nodup_keys m).of_map⟩)]
  rintro ⟨a, u⟩
  rw [ord.mem_entries, StringMap.getElem?_insert, List.mem_cons, ord.mem_entries, Prod.mk.injEq]
  by_cases hka : k = a
  · subst hka
    simp [h, eq_comm]
  · simp [hka, Ne.symm hka]

/-- An empty map is visited zero times. -/
theorem IterOrder.entries_eq_nil (ord : IterOrder) {m : StringMap α}
    (h : ∀ k : Bytes, m[k]? = none) : ord.entries m = [] := by
  apply List.eq_nil_iff_forall_not_mem.mpr
  rintro ⟨k, v⟩ hmem
  rw [ord.mem_entries, h k] at hmem
  cases hmem

end DdAppsec.Lib
