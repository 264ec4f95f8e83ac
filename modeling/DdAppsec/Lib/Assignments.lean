import DdAppsec.Lib.Bytes

/-!
# Lib — assignments to the keys of a map

A list of pairs read as assignments, in order: `lastValue` and `firstValue`
are what is left under a key if a later assignment replaces an earlier one, or
gives way to it.

A `Write` is one or the other. `getElem?_foldl_apply` is the law for any mix of
the two: the last write that overrides, else what was there before, else the
first write that does not.
-/

namespace DdAppsec.Lib

variable {α : Type}

def lastValue (key : Bytes) (list : List (Bytes × α)) : Option α :=
  ((list.filter (·.1 = key)).getLast?).map Prod.snd

def firstValue (key : Bytes) (list : List (Bytes × α)) : Option α :=
  ((list.filter (·.1 = key)).head?).map Prod.snd

theorem lastValue_append (key : Bytes) (first second : List (Bytes × α)) :
    lastValue key (first ++ second) = (lastValue key second).or (lastValue key first) := by
  rw [lastValue, List.filter_append, List.getLast?_append]
  cases h : (second.filter (·.1 = key)).getLast? <;> simp [lastValue, h]

theorem lastValue_singleton (key : Bytes) (entry : Bytes × α) :
    lastValue key [entry] = if entry.1 = key then some entry.2 else none := by
  by_cases h : entry.1 = key <;> simp [lastValue, h]

theorem lastValue_cons (key : Bytes) (entry : Bytes × α) (list : List (Bytes × α)) :
    lastValue key (entry :: list) =
      (lastValue key list).or (if entry.1 = key then some entry.2 else none) := by
  rw [← List.singleton_append, lastValue_append, lastValue_singleton]

theorem firstValue_cons (key : Bytes) (entry : Bytes × α) (list : List (Bytes × α)) :
    firstValue key (entry :: list) =
      if entry.1 = key then some entry.2 else firstValue key list := by
  by_cases h : entry.1 = key <;> simp [firstValue, h]

theorem firstValue_append (key : Bytes) (first second : List (Bytes × α)) :
    firstValue key (first ++ second) = (firstValue key first).or (firstValue key second) := by
  rw [firstValue, List.filter_append, List.head?_append]
  cases h : (first.filter (·.1 = key)).head? <;> simp [firstValue, h]

theorem firstValue_eq_none {key : Bytes} {list : List (Bytes × α)}
    (h : ∀ entry ∈ list, entry.1 ≠ key) : firstValue key list = none := by
  rw [firstValue, List.filter_eq_nil_iff.mpr fun entry hentry => by simpa using h entry hentry]
  rfl

theorem getElem?_foldl_insert (m : StringMap α) (list : List (Bytes × α)) (key : Bytes) :
    (list.foldl (fun m entry => m.insert entry.1 entry.2) m)[key]? =
      (lastValue key list).or m[key]? := by
  induction list generalizing m with
  | nil => rfl
  | cons entry list ih =>
    rw [List.foldl_cons, ih, StringMap.getElem?_insert, lastValue_cons]
    by_cases h : entry.1 = key
    · cases lastValue key list <;> simp [h]
    · cases lastValue key list <;> simp [h]

/-- An assignment that replaces what is under its key, or one that is made only
if nothing is there. -/
structure Write (α : Type) where
  override : Bool
  key : Bytes
  value : α

def Write.apply (m : StringMap α) (w : Write α) : StringMap α :=
  if w.override then m.insert w.key w.value else m.insertIfNew w.key w.value

def Write.entry (w : Write α) : Bytes × α := (w.key, w.value)

/-- The assignments that override, and those that do not. -/
def overriding (writes : List (Write α)) : List (Bytes × α) :=
  (writes.filter (·.override)).map Write.entry

def yielding (writes : List (Write α)) : List (Bytes × α) :=
  (writes.filter (!·.override)).map Write.entry

/-- Writes that all have the same flag. -/
def writesWith (override : Bool) (entries : List (Bytes × α)) : List (Write α) :=
  entries.map fun e => ⟨override, e.1, e.2⟩

theorem foldl_writesWith_append (override : Bool) (m : StringMap α)
    (first second : List (Bytes × α)) :
    (writesWith override second).foldl Write.apply
        ((writesWith override first).foldl Write.apply m) =
      (writesWith override (first ++ second)).foldl Write.apply m := by
  rw [writesWith, writesWith, writesWith, List.map_append, List.foldl_append]

theorem overriding_append (first second : List (Write α)) :
    overriding (first ++ second) = overriding first ++ overriding second := by
  simp [overriding]

theorem yielding_append (first second : List (Write α)) :
    yielding (first ++ second) = yielding first ++ yielding second := by
  simp [yielding]

theorem overriding_writesWith (override : Bool) (entries : List (Bytes × α)) :
    overriding (writesWith override entries) = if override then entries else [] := by
  induction entries with
  | nil => cases override <;> rfl
  | cons e entries ih =>
    rw [writesWith] at ih ⊢
    rw [List.map_cons, ← List.singleton_append, overriding_append, ih]
    cases override <;> rfl

theorem yielding_writesWith (override : Bool) (entries : List (Bytes × α)) :
    yielding (writesWith override entries) = if override then [] else entries := by
  induction entries with
  | nil => cases override <;> rfl
  | cons e entries ih =>
    rw [writesWith] at ih ⊢
    rw [List.map_cons, ← List.singleton_append, yielding_append, ih]
    cases override <;> rfl

theorem getElem?_foldl_apply (m : StringMap α) (writes : List (Write α)) (key : Bytes) :
    (writes.foldl Write.apply m)[key]? =
      (lastValue key (overriding writes)).or (m[key]?.or (firstValue key (yielding writes))) := by
  induction writes generalizing m with
  | nil => simp [overriding, yielding, lastValue, firstValue]
  | cons w writes ih =>
    rw [List.foldl_cons, ih]
    cases hover : w.override with
    | true =>
      have hlast : overriding (w :: writes) = w.entry :: overriding writes := by
        simp [overriding, hover]
      have hfirst : yielding (w :: writes) = yielding writes := by simp [yielding, hover]
      rw [hlast, hfirst, lastValue_cons, Write.apply, hover, if_pos rfl,
        StringMap.getElem?_insert, Write.entry]
      by_cases hkey : w.key = key
      · cases lastValue key (overriding writes) <;> simp [hkey]
      · cases lastValue key (overriding writes) <;> simp [hkey]
    | false =>
      have hlast : overriding (w :: writes) = overriding writes := by simp [overriding, hover]
      have hfirst : yielding (w :: writes) = w.entry :: yielding writes := by
        simp [yielding, hover]
      rw [hlast, hfirst, firstValue_cons, Write.apply, hover, if_neg (by decide),
        StringMap.getElem?_insertIfNew, Write.entry]
      by_cases hkey : w.key = key
      · subst hkey
        cases m[w.key]? <;> simp
      · simp [hkey]

end DdAppsec.Lib
