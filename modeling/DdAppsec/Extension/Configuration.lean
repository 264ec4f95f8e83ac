import DdAppsec.Extension.Verdict.Parameters
import DdAppsec.Lib.Text

/-!
# Extension — values of the configuration

Settings are texts, from the environment or an INI file. `parseList` and
`parseUint` are the parsers of the extension's own; both work byte by byte.

`listed` says what a list is meant to be: the parts between commas, without the
blanks around them, unless nothing is left. A number is clamped to the range of
its type (`parseUint_number`).
-/

namespace DdAppsec.Extension

open Lib

/-! ## Lists -/

/-- A blank, a tab or a newline. -/
def isListBlank (c : UInt8) : Bool := c = 0x20 || c = 0x09 || c = 0x0a

/-- The loops of `_parse_list`. Within a value there is `val_start` to `val_end`,
and what stands between `val_end` and `data`. -/
def parseListFrom : Option (Bytes × Bytes) → Bytes → List Bytes
  | none, [] => []
  | some (val, _), [] => [val]
  | none, c :: data =>
    if c ≠ comma ∧ !isListBlank c then parseListFrom (some ([c], [])) data
    else parseListFrom none data
  | some (val, blanks), c :: data =>
    if c = comma then val :: parseListFrom none data
    else if isListBlank c then parseListFrom (some (val, blanks ++ [c])) data
    else parseListFrom (some (val ++ blanks ++ [c], [])) data

/-- `_parse_list`, `none` where it returns `false`: a text in which there is no
value. -/
def parseList (value : Option Bytes) : Option (List Bytes) :=
  match cstr (value.getD []) with
  | [] => some []
  | data =>
    match parseListFrom none data with
    | [] => none
    | vals => some vals

/-- What a list is meant to be. -/
def listed (text : Bytes) : List Bytes :=
  ((text.splitOn comma).map (trim isListBlank)).filter (· ≠ [])

/-- The end of a part. -/
def Stops (rest : Bytes) : Prop := rest = [] ∨ ∃ more, rest = comma :: more

theorem parseListFrom_stop {rest : Bytes} (h : Stops rest) (val blanks : Bytes) :
    parseListFrom (some (val, blanks)) rest = val :: parseListFrom none rest := by
  rcases h with rfl | ⟨more, rfl⟩
  · rfl
  · have hnone : parseListFrom none (comma :: more) = parseListFrom none more := by
      rw [parseListFrom, if_neg fun h => h.1 rfl]
    rw [hnone, parseListFrom, if_pos rfl]

theorem rdropWhile_append_blanks {val blanks : Bytes}
    (hblanks : ∀ c ∈ blanks, isListBlank c = true) :
    (val ++ blanks).rdropWhile isListBlank = val.rdropWhile isListBlank := by
  induction blanks using List.reverseRecOn with
  | nil => rw [List.append_nil]
  | append_singleton blanks c ih =>
    rw [← List.append_assoc, List.rdropWhile_concat_pos _ _ _ (hblanks c (by simp))]
    exact ih fun d hd => hblanks d (List.mem_append_left [c] hd)

/-- Within a value: it ends with the last byte of its part that is no blank. -/
theorem parseListFrom_inside {part rest : Bytes} (hpart : comma ∉ part) (hrest : Stops rest)
    {val blanks : Bytes} (hval : val.rdropWhile isListBlank = val)
    (hblanks : ∀ c ∈ blanks, isListBlank c = true) :
    parseListFrom (some (val, blanks)) (part ++ rest) =
      (val ++ blanks ++ part).rdropWhile isListBlank :: parseListFrom none rest := by
  induction part generalizing val blanks with
  | nil =>
    rw [List.nil_append, List.append_nil, rdropWhile_append_blanks hblanks, hval,
      parseListFrom_stop hrest]
  | cons c part ih =>
    obtain ⟨hcomma, hpart⟩ := not_or.mp (List.mem_cons.not.mp hpart)
    rw [List.cons_append, parseListFrom, if_neg (Ne.symm hcomma)]
    split
    · next hblank =>
      rw [ih hpart hval fun d hd => ?_]
      · simp
      · rcases List.mem_append.mp hd with hd | hd
        · exact hblanks d hd
        · exact List.mem_singleton.mp hd ▸ hblank
    · next hblank =>
      rw [ih hpart (List.rdropWhile_concat_neg _ _ _ hblank) fun d hd => by cases hd]
      simp

/-- In front of a value. -/
theorem parseListFrom_part {part rest : Bytes} (hpart : comma ∉ part) (hrest : Stops rest) :
    parseListFrom none (part ++ rest) =
      [trim isListBlank part].filter (· ≠ []) ++ parseListFrom none rest := by
  induction part with
  | nil => simp [trim]
  | cons c part ih =>
    obtain ⟨hcomma, hpart⟩ := not_or.mp (List.mem_cons.not.mp hpart)
    rw [List.cons_append, parseListFrom]
    cases hblank : isListBlank c with
    | true =>
      have htrim : trim isListBlank (c :: part) = trim isListBlank part := by
        rw [trim, trim, List.dropWhile_cons_of_pos hblank]
      rw [if_neg (by simp), ih hpart, htrim]
    | false =>
      have hone : ([c] : Bytes).rdropWhile isListBlank = [c] := by
        rw [List.rdropWhile_singleton, if_neg (by simp [hblank])]
      have htrim : trim isListBlank (c :: part) = (c :: part).rdropWhile isListBlank := by
        rw [trim, List.dropWhile_cons_of_neg (by simp [hblank])]
      have hvalue : (c :: part).rdropWhile isListBlank ≠ [] := by
        rw [Ne, List.rdropWhile_eq_nil_iff]
        exact fun h => by simpa [hblank] using h c List.mem_cons_self
      rw [if_pos ⟨Ne.symm hcomma, by simp⟩,
        parseListFrom_inside hpart hrest hone (fun d hd => (by cases hd)), htrim]
      simp [hvalue]

/-- The scan is the list that is meant. -/
theorem parseListFrom_eq (text : Bytes) : parseListFrom none text = listed text := by
  induction hlength : text.length using Nat.strongRecOn generalizing text with
  | ind n ih =>
    by_cases hmem : comma ∈ text
    · obtain ⟨part, rest, rfl, hpart⟩ := List.eq_append_cons_of_mem hmem
      have hrest := ih rest.length (by simp at hlength; omega) rest rfl
      rw [parseListFrom_part hpart (.inr ⟨rest, rfl⟩), parseListFrom, if_neg fun h => h.1 rfl,
        hrest, listed, listed, List.splitOn_append_cons_self_of_not_mem hpart, List.map_cons,
        List.filter_cons]
      split <;> simp_all
    · have hpart := parseListFrom_part hmem (.inl rfl)
      rw [List.append_nil] at hpart
      rw [hpart, listed, List.splitOn_eq_singleton hmem, parseListFrom, List.append_nil]
      rfl

/-- **A list is its parts**: what is between the commas without the blanks around
it. A text in which there is nothing else is refused, but not the empty one. -/
theorem parseList_eq (value : Option Bytes) :
    parseList value =
      if cstr (value.getD []) ≠ [] ∧ listed (cstr (value.getD [])) = [] then none
      else some (listed (cstr (value.getD []))) := by
  rw [parseList]
  generalize cstr (value.getD []) = data
  cases data with
  | nil => simp [listed, trim]
  | cons c data =>
    dsimp only
    rw [parseListFrom_eq]
    cases listed (c :: data) <;> simp

/-- A value that can stand in a list. -/
structure Listable (val : Bytes) : Prop where
  nonempty : val ≠ []
  plain : comma ∉ val ∧ 0 ∉ val
  trimmed : trim isListBlank val = val

theorem nul_notMem_join {vals : List Bytes} (h : ∀ val ∈ vals, 0 ∉ val) :
    0 ∉ [comma].intercalate vals := by
  induction vals with
  | nil => simp
  | cons val vals ih =>
    have hval := h val List.mem_cons_self
    cases vals with
    | nil => simpa using hval
    | cons val' vals =>
      rw [List.intercalate_cons_cons, List.mem_append, List.mem_append]
      rintro ((hmem | hmem) | hmem)
      · exact hval hmem
      · exact absurd hmem (by decide)
      · exact ih (fun v hv => h v (List.mem_cons_of_mem val hv)) hmem

/-- **Values are read back** from the text in which they are joined. -/
theorem parseList_join {vals : List Bytes} (h : ∀ val ∈ vals, Listable val) :
    parseList (some ([comma].intercalate vals)) = some vals := by
  have hnul := nul_notMem_join fun val hval => (h val hval).plain.2
  have hcstr : cstr ([comma].intercalate vals) = [comma].intercalate vals :=
    List.takeWhile_eq_self_iff.mpr fun c hc => by
      simpa using fun hzero : c = 0 => hnul (hzero ▸ hc)
  rw [parseList_eq, Option.getD_some, hcstr]
  cases vals with
  | nil => simp [listed, trim]
  | cons val vals =>
    have hparts : listed ([comma].intercalate (val :: vals)) = val :: vals := by
      rw [listed, List.splitOn_intercalate comma (fun v hv => (h v hv).plain.1) (by simp),
        List.map_congr_left fun v hv => (h v hv).trimmed, List.map_id',
        List.filter_eq_self.mpr fun v hv => by simpa using (h v hv).nonempty]
    rw [hparts, if_neg fun hempty => by cases hempty.2]

theorem services_read_back :
    parseList (some "api,back office") = some [Bytes.ofString "api", "back office"] := by
  have hapi : Listable "api" := ⟨by decide, by decide, by decide⟩
  have hoffice : Listable "back office" := ⟨by decide, by decide, by decide⟩
  exact @parseList_join ["api", "back office"] fun val hval => by
    rcases List.mem_cons.mp hval with rfl | hval
    · exact hapi
    · exact List.mem_singleton.mp hval ▸ hoffice

/-! ## Numbers -/

def llongMax : Int := 2 ^ 63 - 1

/-- The number behind the sign. -/
def signedDigits (negative : Bool) (digits : Bytes) : Option (Int × Bytes) :=
  if digits.takeWhile isDigitByte = [] then none
  else
    let n : Int := leadingDigits digits
    some (max (-llongMax - 1) (min llongMax (if negative then -n else n)),
      digits.dropWhile isDigitByte)

/-- `strtoll` with base 10: the number, clamped to a `long long`, and what follows
it; `none` without a digit. -/
def strtoll (s : Bytes) : Option (Int × Bytes) :=
  match s.dropWhile isSpaceByte with
  | 0x2d :: digits => signedDigits true digits
  | 0x2b :: digits => signedDigits false digits
  | digits => signedDigits false digits

/-- `_parse_uint`, `none` where it returns `false`. -/
def parseUint (value : Bytes) (max : Int) : Option Int :=
  match strtoll (cstr value) with
  | some (n, []) => some (if n < 0 then 0 else if max < n then max else n)
  | _ => none

/-- `_parse_uint32` and `_parse_uint64`. -/
def parseUint32 (value : Bytes) : Option Int := parseUint value (2 ^ 32 - 1)
def parseUint64 (value : Bytes) : Option Int := parseUint value llongMax

/-- The text of a number is its digits, and they are the number. -/
theorem digits_repr (n : Nat) :
    (∀ c ∈ Bytes.ofString n.repr, isDigitByte c = true) ∧
      (Bytes.ofString n.repr).foldl (fun n c => 10 * n + (c.toNat - 0x30)) 0 = n := by
  rw [Bytes.ofString, Nat.toList_repr]
  induction n using Nat.strongRecOn with
  | ind n ih =>
    by_cases hsmall : n < 10
    · obtain ⟨hdigit, hnat⟩ := digitByte hsmall
      rw [Nat.toDigits_of_lt_base hsmall]
      refine ⟨fun c hc => List.mem_singleton.mp hc ▸ hdigit, ?_⟩
      simp only [List.map_cons, List.map_nil, List.foldl_cons, List.foldl_nil, hnat]
      omega
    · obtain ⟨hdigits, hnumber⟩ := ih (n / 10) (by omega)
      obtain ⟨hdigit, hnat⟩ := digitByte (show n % 10 < 10 by omega)
      rw [Nat.toDigits_of_base_le (by decide) (by omega), List.map_append]
      constructor
      · intro c hc
        rcases List.mem_append.mp hc with hc | hc
        · exact hdigits c hc
        · exact List.mem_singleton.mp hc ▸ hdigit
      · rw [List.foldl_append, hnumber]
        simp only [List.map_cons, List.map_nil, List.foldl_cons, List.foldl_nil, hnat]
        omega

theorem repr_ne_nil (n : Nat) : Bytes.ofString n.repr ≠ [] := by
  rw [Bytes.ofString, Nat.toList_repr, Ne, List.map_eq_nil_iff]
  exact Nat.toDigits_ne_nil

theorem takeWhile_repr (n : Nat) :
    (Bytes.ofString n.repr).takeWhile isDigitByte = Bytes.ofString n.repr :=
  List.takeWhile_eq_self_iff.mpr (digits_repr n).1

theorem leadingDigits_repr (n : Nat) : leadingDigits (Bytes.ofString n.repr) = n := by
  rw [leadingDigits, takeWhile_repr]
  exact (digits_repr n).2

theorem dropWhile_repr (n : Nat) : (Bytes.ofString n.repr).dropWhile isDigitByte = [] :=
  List.dropWhile_eq_nil_iff.mpr (digits_repr n).1

theorem signedDigits_repr (negative : Bool) (n : Nat) :
    signedDigits negative (Bytes.ofString n.repr) =
      some (max (-llongMax - 1) (min llongMax (if negative then -n else n)), []) := by
  rw [signedDigits, takeWhile_repr, if_neg (repr_ne_nil n), leadingDigits_repr, dropWhile_repr]

/-- In front of the digits there is neither a blank nor a sign. -/
theorem strtoll_repr (n : Nat) :
    strtoll (Bytes.ofString n.repr) = some (max (-llongMax - 1) (min llongMax n), []) := by
  obtain ⟨c, digits, hcons⟩ := List.exists_cons_of_ne_nil (repr_ne_nil n)
  have hdigit := toNat_digit ((digits_repr n).1 c (hcons ▸ List.mem_cons_self))
  have hspace : isSpaceByte c = false := by
    simp [isSpaceByte, UInt8.le_iff_toNat_le, ← UInt8.toNat_inj]
    omega
  have hdrop : (Bytes.ofString n.repr).dropWhile isSpaceByte = Bytes.ofString n.repr := by
    rw [hcons, List.dropWhile_cons_of_neg (by simp [hspace])]
  rw [strtoll, hdrop]
  split
  · next heq =>
    rw [hcons] at heq
    cases heq
    exact absurd hdigit (by decide)
  · next heq =>
    rw [hcons] at heq
    cases heq
    exact absurd hdigit (by decide)
  · rw [signedDigits_repr]
    rfl

theorem strtoll_neg (n : Nat) :
    strtoll (0x2d :: Bytes.ofString n.repr) =
      some (max (-llongMax - 1) (min llongMax (-n)), []) := by
  have hdrop : (0x2d :: Bytes.ofString n.repr).dropWhile isSpaceByte =
      0x2d :: Bytes.ofString n.repr := List.dropWhile_cons_of_neg (by decide)
  rw [strtoll, hdrop]
  exact signedDigits_repr true n

theorem strtoll_intToString (n : Int) :
    strtoll (intToString n) = some (max (-llongMax - 1) (min llongMax n), []) := by
  rw [intToString, Int.toString_eq_repr, Int.repr_eq_if]
  split
  · next hpos => rw [strtoll_repr, Int.toNat_of_nonneg hpos]
  · next hneg =>
    have hminus : Bytes.ofString ("-" ++ (-n).toNat.repr) =
        0x2d :: Bytes.ofString (-n).toNat.repr := by
      rw [Bytes.ofString, String.toList_append, List.map_append]
      rfl
    rw [hminus, strtoll_neg, Int.toNat_of_nonneg (by omega), Int.neg_neg]

/-- There is no NUL in a number. -/
theorem cstr_intToString (n : Int) : cstr (intToString n) = intToString n := by
  have hdigits (m : Nat) : cstr (Bytes.ofString m.repr) = Bytes.ofString m.repr :=
    List.takeWhile_eq_self_iff.mpr fun c hc => by
      have hc := toNat_digit ((digits_repr m).1 c hc)
      simp only [ne_eq, decide_not, Bool.not_eq_eq_eq_not, Bool.not_true,
        decide_eq_false_iff_not]
      rintro rfl
      exact absurd hc (by decide)
  rw [intToString, Int.toString_eq_repr, Int.repr_eq_if]
  split
  · exact hdigits _
  · rw [Bytes.ofString, String.toList_append, List.map_append]
    have hrest := hdigits (-n).toNat
    rw [Bytes.ofString] at hrest
    exact congrArg (0x2d :: ·) hrest

/-- **A number in decimal is clamped** to the range of the setting, however long
it is. -/
theorem parseUint_number (n : Int) {max : Int} (hpos : 0 ≤ max) (hmax : max ≤ llongMax) :
    parseUint (intToString n) max = some (if n < 0 then 0 else min max n) := by
  rw [parseUint, cstr_intToString, strtoll_intToString]
  dsimp only
  rw [llongMax] at hmax ⊢
  congr 1
  split <;> split <;> omega

theorem long_number_clamped : parseUint32 (intToString (10 ^ 20)) = some 4294967295 :=
  (parseUint_number (10 ^ 20) (by decide) (by decide)).trans (by decide)

end DdAppsec.Extension
