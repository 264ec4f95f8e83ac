import Mathlib.Data.List.Dedup
import Mathlib.Data.List.Induction
import Mathlib.Data.List.Perm.Basic
import Mathlib.Data.List.TakeWhile

/-!
# Lib — values grouped under keys

A table from keys to lists of values that is filled one pair after the other:
`insertInto` adds a value to the list of its key, and a key that is new comes
last. `group_eq` says what a whole list of pairs becomes: the keys in the
order in which they are first seen, each with its values in order.
`map_group_eq_iff_of_mem` compares the tables of two lists that differ under
one key only.
-/

namespace DdAppsec.Lib

variable {κ α : Type} [DecidableEq κ]

/-- Adds a value to the list of its key. -/
def insertInto (table : List (κ × List α)) (pair : κ × α) : List (κ × List α) :=
  if pair.1 ∈ table.map Prod.fst then
    table.map fun e => if e.1 = pair.1 then (e.1, e.2 ++ [pair.2]) else e
  else table ++ [(pair.1, [pair.2])]

def group (pairs : List (κ × α)) : List (κ × List α) := pairs.foldl insertInto []

/-- The values of a key, in order. -/
def valuesOf (pairs : List (κ × α)) (key : κ) : List α :=
  (pairs.filter fun pair => pair.1 = key).map Prod.snd

/-- The keys in the order in which they are first seen. -/
def keysOf (pairs : List (κ × α)) : List κ := (pairs.map Prod.fst).eraseDups

theorem keysOf_append (pairs : List (κ × α)) (pair : κ × α) :
    keysOf (pairs ++ [pair]) =
      if pair.1 ∈ keysOf pairs then keysOf pairs else keysOf pairs ++ [pair.1] := by
  unfold keysOf
  rw [List.map_append, List.eraseDups_append, List.map_singleton]
  by_cases h : pair.1 ∈ pairs.map Prod.fst
  · rw [if_pos (List.mem_eraseDups.mpr h)]
    simp [List.removeAll, h]
  · rw [if_neg (mt List.mem_eraseDups.mp h)]
    simp [List.removeAll, h, List.eraseDups_cons]

theorem mem_keysOf (pairs : List (κ × α)) (key : κ) :
    key ∈ keysOf pairs ↔ key ∈ pairs.map Prod.fst := List.mem_eraseDups

theorem nodup_keysOf (pairs : List (κ × α)) : (keysOf pairs).Nodup := by
  induction pairs using List.reverseRecOn with
  | nil => exact List.nodup_nil
  | append_singleton pairs pair ih =>
    rw [keysOf_append]
    split
    · exact ih
    · rename_i hnew
      exact List.nodup_append'.mpr ⟨ih, List.nodup_singleton _, by simpa using hnew⟩

theorem valuesOf_append (pairs : List (κ × α)) (pair : κ × α) (key : κ) :
    valuesOf (pairs ++ [pair]) key =
      if pair.1 = key then valuesOf pairs key ++ [pair.2] else valuesOf pairs key := by
  unfold valuesOf
  rw [List.filter_append]
  split
  · rename_i h
    simp [h]
  · rename_i h
    simp [h]

/-- A key that was not seen has no values. -/
theorem valuesOf_of_not_mem {pairs : List (κ × α)} {key : κ} (h : key ∉ keysOf pairs) :
    valuesOf pairs key = [] := by
  rw [mem_keysOf] at h
  unfold valuesOf
  rw [List.filter_eq_nil_iff.mpr, List.map_nil]
  intro pair hpair hkey
  exact h (List.mem_map.mpr ⟨pair, hpair, by simpa using hkey⟩)

/-- **What the pairs become.** -/
theorem group_eq (pairs : List (κ × α)) :
    group pairs = (keysOf pairs).map fun key => (key, valuesOf pairs key) := by
  induction pairs using List.reverseRecOn with
  | nil => rfl
  | append_singleton pairs pair ih =>
    have hkeys : (group pairs).map Prod.fst = keysOf pairs := by
      rw [ih, List.map_map]
      exact List.map_id _
    rw [group, List.foldl_append, List.foldl_cons, List.foldl_nil, ← group, insertInto, hkeys,
      keysOf_append]
    by_cases hmem : pair.1 ∈ keysOf pairs
    · rw [if_pos hmem, if_pos hmem, ih, List.map_map]
      refine List.map_congr_left fun key _ => ?_
      rw [valuesOf_append]
      by_cases hkey : key = pair.1
      · simp [hkey]
      · simp [hkey, Ne.symm hkey]
    · rw [if_neg hmem, if_neg hmem, List.map_append, List.map_singleton, valuesOf_append,
        if_pos rfl, valuesOf_of_not_mem hmem, ih]
      congr 1
      refine List.map_congr_left fun key hkey => ?_
      rw [valuesOf_append, if_neg (fun h : pair.1 = key => hmem (h ▸ hkey))]

/-! ## Tables that differ under one key -/

/-- The pairs without those of a key. -/
def withoutKey (key : κ) (pairs : List (κ × α)) : List (κ × α) :=
  pairs.filter fun pair => pair.1 ≠ key

/-- The keys that are seen before a key. -/
def keysBefore (key : κ) (pairs : List (κ × α)) : List κ :=
  keysOf (pairs.takeWhile fun pair => pair.1 ≠ key)

theorem valuesOf_withoutKey {key other : κ} (h : other ≠ key) (pairs : List (κ × α)) :
    valuesOf (withoutKey key pairs) other = valuesOf pairs other := by
  unfold valuesOf withoutKey
  rw [List.filter_filter]
  congr 1
  refine List.filter_congr fun pair _ => ?_
  by_cases hother : pair.1 = other
  · simp [hother, h]
  · simp [hother]

/-- A key stands behind those that are seen before it, and in front of all
others. -/
theorem keysOf_of_mem {key : κ} {pairs : List (κ × α)} (h : key ∈ keysOf pairs) :
    ∃ behind, keysOf pairs = keysBefore key pairs ++ key :: behind ∧
      keysOf (withoutKey key pairs) = keysBefore key pairs ++ behind := by
  obtain ⟨_, _, hsplit, hnew⟩ := List.eq_append_cons_of_mem ((mem_keysOf pairs key).mp h)
  obtain ⟨front, tail, rfl, rfl, htail⟩ := List.map_eq_append_iff.mp hsplit
  obtain ⟨pair, back, rfl, rfl, rfl⟩ := List.map_eq_cons_iff.mp htail
  have hfront : ∀ e ∈ front, e.1 ≠ pair.1 := fun e he hkey =>
    hnew (List.mem_map.mpr ⟨e, he, hkey⟩)
  have hbefore : keysBefore pair.1 (front ++ pair :: back) = keysOf front := by
    rw [keysBefore, List.takeWhile_append_of_pos (by simpa using hfront),
      List.takeWhile_cons_of_neg (by simp), List.append_nil]
  refine ⟨(((back.map Prod.fst).removeAll (front.map Prod.fst)).filter
    fun key => !key == pair.1).eraseDups, ?_, ?_⟩
  · rw [hbefore, keysOf, List.map_append, List.eraseDups_append, List.map_cons, List.cons_removeAll,
      if_pos (by simpa using hnew), List.eraseDups_cons, keysOf]
  · rw [hbefore, keysOf, withoutKey, List.filter_append,
      List.filter_eq_self.mpr (by simpa using hfront), List.filter_cons_of_neg (by simp),
      List.map_append, List.eraseDups_append, keysOf]
    congr 2
    rw [List.removeAll, List.removeAll, List.filter_filter, List.filter_map, List.filter_map,
      List.filter_filter]
    congr 1
    refine List.filter_congr fun e _ => ?_
    simp [Bool.and_comm, beq_eq_decide]

theorem withoutKey_of_not_mem {key : κ} {pairs : List (κ × α)} (h : key ∉ keysOf pairs) :
    withoutKey key pairs = pairs := by
  rw [mem_keysOf] at h
  refine List.filter_eq_self.mpr fun pair hpair => ?_
  have hne : pair.1 ≠ key := fun hkey => h (List.mem_map.mpr ⟨pair, hpair, hkey⟩)
  simpa using hne

theorem length_group (pairs : List (κ × α)) : (group pairs).length = (keysOf pairs).length := by
  rw [group_eq, List.length_map]

theorem length_group_of_mem {key : κ} {pairs : List (κ × α)} (h : key ∈ keysOf pairs) :
    (group pairs).length = (group (withoutKey key pairs)).length + 1 := by
  obtain ⟨behind, hkeys, hrest⟩ := keysOf_of_mem h
  rw [length_group, length_group, hkeys, hrest, List.length_append, List.length_append,
    List.length_cons, Nat.add_assoc]

/-- An item moved over others. -/
theorem cons_append_eq_iff {β : Type} (c d : β) (ys zs : List β) :
    c :: (ys ++ zs) = ys ++ d :: zs ↔ c = d ∧ ∀ y ∈ ys, y = c := by
  induction ys generalizing c with
  | nil => simp
  | cons y ys ih =>
    rw [List.cons_append, List.cons_append, List.cons.injEq, ih, List.forall_mem_cons]
    constructor
    · rintro ⟨rfl, rfl, hys⟩
      exact ⟨rfl, rfl, hys⟩
    · rintro ⟨rfl, rfl, hys⟩
      exact ⟨rfl, rfl, hys⟩


/-- A list with an item put in at one place or at another. -/
theorem moved_eq_iff {β : Type} {before behind mid : List κ} (hnodup : (before ++ mid).Nodup)
    (g : κ → β) (c d : β) :
    before.map g ++ c :: (mid ++ behind).map g = (before ++ mid).map g ++ d :: behind.map g ↔
      c = d ∧ ∀ k, (k ∈ before ↔ k ∈ before ++ mid) ∨ g k = c := by
  rw [List.map_append, List.map_append, List.append_assoc, List.append_cancel_left_eq,
    cons_append_eq_iff, List.forall_mem_map]
  refine and_congr_right fun _ => ⟨fun hmid k => ?_, fun h k hk => ?_⟩
  · by_cases hk : k ∈ mid
    · exact Or.inr (hmid k hk)
    · simp [hk]
  · refine (h k).resolve_left fun hiff => ?_
    have hboth : k ∈ before := hiff.mpr (List.mem_append_right before hk)
    exact (List.nodup_append'.mp hnodup).2.2 hboth hk

/-- What is written for a key other than `key`. -/
def writtenFor {β : Type} (write : κ × List α → β) (key : κ) (pairs : List (κ × α)) (other : κ) :
    β :=
  write (other, valuesOf (withoutKey key pairs) other)

theorem not_mem_keysBefore (key : κ) (pairs : List (κ × α)) : key ∉ keysBefore key pairs := by
  rw [keysBefore, mem_keysOf, List.mem_map]
  rintro ⟨pair, hpair, rfl⟩
  simpa using List.mem_takeWhile_imp hpair

theorem map_group_of_mem {β : Type} {key : κ} {pairs : List (κ × α)} {behind : List κ}
    (hkeys : keysOf pairs = keysBefore key pairs ++ key :: behind) (write : κ × List α → β) :
    (group pairs).map write = (keysBefore key pairs).map (writtenFor write key pairs) ++
      write (key, valuesOf pairs key) :: behind.map (writtenFor write key pairs) := by
  have hbehind : key ∉ behind := by
    have hnodup := nodup_keysOf pairs
    rw [hkeys, List.nodup_append'] at hnodup
    exact (List.nodup_cons.mp hnodup.2.1).1
  have hother : ∀ other ≠ key, write (other, valuesOf pairs other) =
      writtenFor write key pairs other := by
    intro other hne
    rw [writtenFor, valuesOf_withoutKey hne]
  rw [group_eq, List.map_map, hkeys, List.map_append, List.map_cons]
  congr 1
  · refine List.map_congr_left fun other hmem => hother other ?_
    rintro rfl
    exact not_mem_keysBefore other pairs hmem
  · congr 1
    refine List.map_congr_left fun other hmem => hother other ?_
    rintro rfl
    exact hbehind hmem

/-- What is written for two lists of pairs that differ under `key` only. -/
theorem map_group_eq_iff_of_mem {β : Type} {key : κ} {xs ys : List (κ × α)}
    (hrest : withoutKey key xs = withoutKey key ys) (hx : key ∈ keysOf xs) (hy : key ∈ keysOf ys)
    (write : κ × List α → β) :
    (group xs).map write = (group ys).map write ↔
      write (key, valuesOf xs key) = write (key, valuesOf ys key) ∧
        ∀ other, (other ∈ keysBefore key xs ↔ other ∈ keysBefore key ys) ∨
          writtenFor write key xs other = write (key, valuesOf xs key) := by
  obtain ⟨behindX, hkeysX, hrestX⟩ := keysOf_of_mem hx
  obtain ⟨behindY, hkeysY, hrestY⟩ := keysOf_of_mem hy
  have hsame : writtenFor write key ys = writtenFor write key xs := by
    funext other
    rw [writtenFor, writtenFor, hrest]
  have hnodupX := nodup_keysOf (withoutKey key xs)
  have hnodupY := nodup_keysOf (withoutKey key ys)
  rw [map_group_of_mem hkeysX, map_group_of_mem hkeysY, hsame]
  have hsplit := hrestX.symm.trans ((congrArg keysOf hrest).trans hrestY)
  -- the key comes first in one of the lists, and `mid` is what it was moved over
  rcases List.append_eq_append_iff.mp hsplit with ⟨mid, hmid, hbehind⟩ | ⟨mid, hmid, hbehind⟩
  · rw [hrestY, hmid] at hnodupY
    rw [hmid, hbehind]
    exact moved_eq_iff (List.nodup_append'.mp hnodupY).1 _ _ _
  · rw [hrestX, hmid] at hnodupX
    rw [hmid, hbehind, eq_comm, moved_eq_iff (List.nodup_append'.mp hnodupX).1, eq_comm]
    refine and_congr_right fun heq => forall_congr' fun other => ?_
    rw [heq]
    exact or_congr_left iff_comm

end DdAppsec.Lib
