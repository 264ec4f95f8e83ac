import DdAppsec.Lib.Bytes
import Mathlib.Data.List.DropRight

/-!
# Lib — text

Searching and trimming byte strings. `memmem` gives the FIRST occurrence of a
needle (`memmem_eq_some_iff`); `trim` drops what surrounds a text. An
`EscapedText` can stand between two delimiters: where it holds one, or the
escape character, that is escaped.
-/

namespace DdAppsec.Lib

/-! ## Search -/

/-- `memmem`: where the first occurrence of the needle begins. -/
def memmem (needle : Bytes) : Bytes → Option Nat
  | [] => if needle = [] then some 0 else none
  | c :: rest =>
    if needle <+: c :: rest then some 0 else (memmem needle rest).map (· + 1)

/-- **The first occurrence.** -/
theorem memmem_eq_some_iff {needle : Bytes} (hne : needle ≠ []) (haystack : Bytes) (i : Nat) :
    memmem needle haystack = some i ↔
      needle <+: haystack.drop i ∧ ∀ j < i, ¬ needle <+: haystack.drop j := by
  induction haystack generalizing i with
  | nil => simp [memmem, hne]
  | cons c rest ih =>
    rw [memmem]
    by_cases hhere : needle <+: c :: rest
    · rw [if_pos hhere]
      constructor
      · intro h
        cases h
        exact ⟨hhere, fun j hj => absurd hj (Nat.not_lt_zero j)⟩
      · rintro ⟨-, hfirst⟩
        cases i with
        | zero => rfl
        | succ i => exact absurd hhere (hfirst 0 (Nat.succ_pos i))
    · rw [if_neg hhere, Option.map_eq_some_iff]
      cases i with
      | zero => exact iff_of_false (fun ⟨a, _, ha⟩ => by omega) (fun h => hhere h.1)
      | succ i =>
        simp only [Nat.add_right_cancel_iff, exists_eq_right, List.drop_succ_cons, ih]
        refine and_congr_right fun _ => ⟨fun hfirst j hj => ?_, fun hfirst j hj => ?_⟩
        · cases j with
          | zero => exact hhere
          | succ j => exact hfirst j (by omega)
        · exact hfirst (j + 1) (by omega)

/-- What is behind the first occurrence. -/
def behind (needle haystack : Bytes) : Option Bytes :=
  (memmem needle haystack).map fun start => haystack.drop (start + needle.length)

/-- Where a needle is found, there is room for it. -/
theorem memmem_le {needle haystack : Bytes} (hne : needle ≠ []) {start : Nat}
    (h : memmem needle haystack = some start) : start + needle.length ≤ haystack.length := by
  have hstarts := (((memmem_eq_some_iff hne haystack start).mp h).1).length_le
  have hpos := List.length_pos_iff.mpr hne
  rw [List.length_drop] at hstarts
  omega

/-- A needle without the separator is found on one side of it. -/
theorem memmem_append_cons {needle : Bytes} {sep : UInt8} (hne : needle ≠ [])
    (hsep : sep ∉ needle) (first rest : Bytes) :
    memmem needle (first ++ sep :: rest) =
      (memmem needle first).or ((memmem needle rest).map (· + (first.length + 1))) := by
  have hstarts (text : Bytes) : needle <+: text ++ sep :: rest ↔ needle <+: text := by
    constructor
    · intro h
      refine List.prefix_of_prefix_length_le h (List.prefix_append text _) ?_
      apply Nat.le_of_not_lt
      intro hlong
      have hget := h.getElem hlong
      rw [List.getElem_append_right (Nat.le_refl _)] at hget
      simp only [Nat.sub_self, List.getElem_cons_zero] at hget
      exact hsep (hget ▸ List.getElem_mem hlong)
    · exact fun h => h.trans (List.prefix_append text _)
  induction first with
  | nil =>
    have hhead : ¬ needle <+: sep :: rest := fun h => hne (List.prefix_nil.mp ((hstarts []).mp h))
    simp [memmem, hhead, hne]
  | cons c first ih =>
    rw [List.cons_append, memmem, memmem, ← List.cons_append]
    by_cases hhere : needle <+: c :: first
    · rw [if_pos hhere, if_pos ((hstarts (c :: first)).mpr hhere), Option.some_or]
    · rw [if_neg hhere, if_neg fun h => hhere ((hstarts (c :: first)).mp h), ih, Option.map_or,
        Option.map_map, List.length_cons]
      rfl

theorem behind_append_cons {needle : Bytes} {sep : UInt8} (hne : needle ≠ [])
    (hsep : sep ∉ needle) (first rest : Bytes) :
    behind needle (first ++ sep :: rest) =
      ((behind needle first).map (· ++ sep :: rest)).or (behind needle rest) := by
  unfold behind
  rw [memmem_append_cons hne hsep]
  cases hfirst : memmem needle first with
  | some start =>
    simp [List.drop_append_of_le_length (memmem_le hne hfirst)]
  | none =>
    cases memmem needle rest with
    | none => rfl
    | some start =>
      have hsum : start + (first.length + 1) + needle.length =
          first.length + (start + needle.length + 1) := by omega
      simp only [Option.map_some, Option.map_none, Option.none_or, hsum, List.drop_append,
        List.drop_succ_cons, Nat.add_sub_cancel_left, List.drop_of_length_le (Nat.le_add_right ..)]
      rfl

/-! ## Escapes -/

/-- A text without the delimiter, apart from what is escaped. -/
inductive EscapedText (escape delimiter : UInt8) : Bytes → Prop where
  | nil : EscapedText escape delimiter []
  | plain {c : UInt8} {text : Bytes} : c ≠ delimiter → c ≠ escape →
      EscapedText escape delimiter text → EscapedText escape delimiter (c :: text)
  | escaped {c : UInt8} {text : Bytes} :
      EscapedText escape delimiter text → EscapedText escape delimiter (escape :: c :: text)

/-- A text with neither of the two bytes. -/
theorem EscapedText.of_plain {escape delimiter : UInt8} {text : Bytes}
    (h : ∀ c ∈ text, c ≠ delimiter ∧ c ≠ escape) : EscapedText escape delimiter text := by
  induction text with
  | nil => exact .nil
  | cons c text ih =>
    obtain ⟨hc, hrest⟩ := List.forall_mem_cons.mp h
    exact .plain hc.1 hc.2 (ih hrest)

/-! ## Letters -/

/-- ASCII lower case. -/
def lowerCase (text : Bytes) : Bytes :=
  text.map fun c => if 0x41 ≤ c ∧ c ≤ 0x5a then c + 0x20 else c

/-! ## Trimming -/

/-- What stands around a text is dropped on both sides. -/
def trim (p : UInt8 → Bool) (text : Bytes) : Bytes := (text.dropWhile p).rdropWhile p

end DdAppsec.Lib
