import DdAppsec.Helper.JsonHelper

/-!
# Helper — what the WAF gets of a document

`structuralImage` is the WAF object that stands for a JSON document: the same
tree, with every scalar as text. `json_to_parameter` builds it value by value,
into elements that start without a value. It leaves two kinds of documents
behind. A number that is no 64-bit integer is not written at all, so that its
element goes into the container as it was; and texts are measured up to their
first NUL.

`faithful_iff` says that these are the only ones.
-/

namespace DdAppsec.Helper

open Lib

/-! ## The image of a document -/

mutual

/-- The object that stands for a document. -/
def structuralImage : Json → Parameter
  | .bool false => .string "false"
  | .bool true => .string "true"
  | .object ms => .map (imageEntries ms)
  | .array vs => .array (imageElements vs)
  | .string s => .string s
  | .number (.int n) => .string (intToString n)
  | .number (.double bits) => .string (doubleToString bits)
  | .null => .invalid

def imageEntries : List (Bytes × Json) → List (Bytes × Parameter)
  | [] => []
  | (k, v) :: rest => (k, structuralImage v) :: imageEntries rest

def imageElements : List Json → List Parameter
  | [] => []
  | v :: rest => structuralImage v :: imageElements rest

end

mutual

/-- Every element of an object has been assigned. -/
def Parameter.initialised : Parameter → Bool
  | .uninitialised => false
  | .map entries => initialisedEntries entries
  | .array elems => initialisedElements elems
  | .invalid | .int64 _ | .uint64 _ | .string _ | .boolean _ | .float64 _ | .null => true

def initialisedEntries : List (Bytes × Parameter) → Bool
  | [] => true
  | (_, p) :: rest => p.initialised && initialisedEntries rest

def initialisedElements : List Parameter → Bool
  | [] => true
  | p :: rest => p.initialised && initialisedElements rest

end

mutual

/-- Every number is a 64-bit integer, and no key or string has a NUL in it. -/
def faithful : Json → Bool
  | .object ms => faithfulEntries ms
  | .array vs => faithfulElements vs
  | .string s => 0 ∉ s
  | .number (.int _) => true
  | .number (.double _) => false
  | .bool _ | .null => true

def faithfulEntries : List (Bytes × Json) → Bool
  | [] => true
  | (k, v) :: rest => 0 ∉ k && faithful v && faithfulEntries rest

def faithfulElements : List Json → Bool
  | [] => true
  | v :: rest => faithful v && faithfulElements rest

end

/-! ## Value by value -/

/-- A text is measured in full if there is no NUL in it. -/
theorem cstr_eq_self_iff {s : Bytes} : cstr s = s ↔ 0 ∉ s := by
  rw [cstr, List.takeWhile_eq_self_iff]
  constructor
  · intro h hmem
    simpa using h 0 hmem
  · intro h b hb
    have hne : b ≠ 0 := by
      rintro rfl
      exact h hb
    simpa using hne

mutual

/-- **One case for each kind of value**: what is built is the image exactly if
the value is faithful. -/
theorem jsonToObject_eq_iff (v : Json) :
    jsonToObject v = structuralImage v ↔ faithful v = true := by
  match v with
  | .null => simp [jsonToObject, structuralImage, faithful]
  | .bool false => simp [jsonToObject, structuralImage, faithful]
  | .bool true => simp [jsonToObject, structuralImage, faithful]
  | .number (.int n) => simp [jsonToObject, structuralImage, faithful]
  | .number (.double bits) => simp [jsonToObject, structuralImage, faithful]
  | .string s => simp [jsonToObject, structuralImage, faithful, cstr_eq_self_iff]
  | .object ms =>
    rw [jsonToObject, structuralImage, faithful, Parameter.map.injEq]
    exact jsonToEntries_eq_iff ms
  | .array vs =>
    rw [jsonToObject, structuralImage, faithful, Parameter.array.injEq]
    exact jsonToElements_eq_iff vs

theorem jsonToEntries_eq_iff (ms : List (Bytes × Json)) :
    jsonToEntries ms = imageEntries ms ↔ faithfulEntries ms = true := by
  match ms with
  | [] => simp [jsonToEntries, imageEntries, faithfulEntries]
  | (k, v) :: rest =>
    rw [jsonToEntries, imageEntries, faithfulEntries, List.cons.injEq, Prod.mk.injEq,
      cstr_eq_self_iff, jsonToObject_eq_iff v, jsonToEntries_eq_iff rest]
    simp

theorem jsonToElements_eq_iff (vs : List Json) :
    jsonToElements vs = imageElements vs ↔ faithfulElements vs = true := by
  match vs with
  | [] => simp [jsonToElements, imageElements, faithfulElements]
  | v :: rest =>
    rw [jsonToElements, imageElements, faithfulElements, List.cons.injEq, jsonToObject_eq_iff v,
      jsonToElements_eq_iff rest]
    simp

end

mutual

theorem initialised_structuralImage (v : Json) : (structuralImage v).initialised = true := by
  match v with
  | .null | .bool false | .bool true | .number (.int _) | .number (.double _) | .string _ => rfl
  | .object ms =>
    rw [structuralImage, Parameter.initialised]
    exact initialised_imageEntries ms
  | .array vs =>
    rw [structuralImage, Parameter.initialised]
    exact initialised_imageElements vs

theorem initialised_imageEntries (ms : List (Bytes × Json)) :
    initialisedEntries (imageEntries ms) = true := by
  match ms with
  | [] => rfl
  | (k, v) :: rest =>
    rw [imageEntries, initialisedEntries, initialised_structuralImage v,
      initialised_imageEntries rest]
    rfl

theorem initialised_imageElements (vs : List Json) :
    initialisedElements (imageElements vs) = true := by
  match vs with
  | [] => rfl
  | v :: rest =>
    rw [imageElements, initialisedElements, initialised_structuralImage v,
      initialised_imageElements rest]
    rfl

end

/-- The root starts as invalid, which is the image of no number either. -/
theorem jsonToParameter_eq_iff (doc : Json) :
    jsonToParameter doc = structuralImage doc ↔ jsonToObject doc = structuralImage doc := by
  unfold jsonToParameter
  split
  · rename_i hroot
    have hdoc : ∃ bits, doc = .number (.double bits) := by
      cases doc with
      | number n =>
        cases n with
        | int n => simp [jsonToObject] at hroot
        | double bits => exact ⟨bits, rfl⟩
      | bool b => cases b <;> simp [jsonToObject] at hroot
      | _ => simp [jsonToObject] at hroot
    obtain ⟨bits, rfl⟩ := hdoc
    rw [hroot]
    simp [structuralImage]
  · rfl

/-- **When the WAF gets the document**: what `json_to_parameter` builds is the
image of the document, with every element assigned, exactly if all numbers are
64-bit integers and no text has a NUL in it. -/
theorem faithful_iff (doc : Json) :
    (jsonToParameter doc = structuralImage doc ∧ (jsonToParameter doc).initialised = true) ↔
      faithful doc = true := by
  rw [← jsonToObject_eq_iff, ← jsonToParameter_eq_iff]
  refine and_iff_left_of_imp fun h => ?_
  rw [h]
  exact initialised_structuralImage doc

/-- A number with a fraction leaves its element unassigned. -/
theorem fraction_not_assigned :
    jsonToParameter (.object [("confidence", .number (.double 0x3FE0000000000000))]) =
        .map [("confidence", .uninitialised)] ∧
      (jsonToParameter
        (.object [("confidence", .number (.double 0x3FE0000000000000))])).initialised = false ∧
      structuralImage (.object [("confidence", .number (.double 0x3FE0000000000000))]) =
        .map [("confidence", .string "0.500000")] := by
  have htext : doubleToString 0x3FE0000000000000 = Bytes.ofString "0.500000" := by decide +kernel
  refine ⟨rfl, rfl, ?_⟩
  rw [structuralImage, imageEntries, structuralImage, htext]
  rfl

end DdAppsec.Helper
