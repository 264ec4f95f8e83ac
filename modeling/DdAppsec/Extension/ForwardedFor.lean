import DdAppsec.Extension.IpAddress
import DdAppsec.Extension.RequestAbort

/-!
# Extension — lists of forwarded addresses

`parseXForwardedFor` is `_parse_x_forwarded_for`, the reader of a list that is
separated by commas. It removes the spaces in front of an element and not
those behind, so that an address with a space behind it is passed over.
`elements_read_iff` says when this makes no difference.
-/

namespace DdAppsec.Extension

open Lib

/-! ## `_parse_x_forwarded_for` -/

/-- `value` without the spaces in front. -/
def skipSpaces (value : Bytes) : Bytes := value.dropWhile (· = space)

/-- What follows the next comma. -/
def behindComma (value : Bytes) : Bytes := (value.dropWhile (· ≠ comma)).drop 1

theorem length_behindComma_skipSpaces {value : Bytes}
    (h : behindComma (skipSpaces value) ≠ []) :
    (behindComma (skipSpaces value)).length < value.length := by
  have hspaces : (skipSpaces value).length ≤ value.length := List.length_dropWhile_le _ value
  have hcomma : ((skipSpaces value).dropWhile (· ≠ comma)).length ≤ (skipSpaces value).length :=
    List.length_dropWhile_le _ _
  have hnext := List.length_pos_iff.mpr h
  rw [behindComma, List.length_drop] at hnext ⊢
  omega

/-- The loop of `_parse_x_forwarded_for`. If nothing follows the comma,
`value` becomes `NULL`. -/
def parseXForwardedFor (inet : Inet) (value : Bytes) (out : IpAddr) : Bool × IpAddr :=
  let parsed := parseMaybePortPair inet ((skipSpaces value).takeWhile (· ≠ comma)) out
  if parsed.1 && !isPrivate parsed.2 then (true, parsed.2)
  else if behindComma (skipSpaces value) = [] then (false, parsed.2)
  else parseXForwardedFor inet (behindComma (skipSpaces value)) parsed.2
termination_by value.length
decreasing_by exact length_behindComma_skipSpaces ‹_›

/-! ## What is meant -/

/-- An element without the spaces around it. -/
def element (text : Bytes) : Bytes := trim (· = space) text

/-- The first public address among the elements. -/
def firstPublic (inet : Inet) (elements : List Bytes) : Option Address :=
  elements.findSome? inet.publicAddress

/-- **The elements are read**: what is found is the first public address. -/
def ElementsRead (inet : Inet) (value : Bytes) : Prop :=
  ∀ out, Finds (parseXForwardedFor inet value out)
    (firstPublic inet ((value.splitOn comma).map element))

/-- Spaces behind an address are not removed, unless a bracket or a port comes
in between (or a NUL, where the text ends anyway). -/
def KeepsSpaces (text : Bytes) : Prop :=
  text.getLast? = some space ∧ (skipSpaces text).head? ≠ some openBracket ∧
    text.count colon ≠ 1 ∧ 0 ∉ text

instance : DecidablePred KeepsSpaces := fun _ => instDecidableAnd

/-- If the first public address keeps the spaces behind it, then the next one
that does not is the same address. -/
def SpacesHarmless (inet : Inet) (value : Bytes) : Prop :=
  ∀ before text after a, value.splitOn comma = before ++ text :: after →
    (∀ t ∈ before, inet.publicAddress (element t) = none) →
    inet.publicAddress (element text) = some a → KeepsSpaces text →
    firstPublic inet ((after.filter fun t => ¬ KeepsSpaces t).map element) = some a

/-! ## What is read -/

section Read

variable {inet : Inet}

theorem publicAddress_nil : inet.publicAddress [] = none := rfl

theorem findSome?_cons_or {α β : Type} (f : α → Option β) (x : α) (l : List α) :
    (x :: l).findSome? f = (f x).or (l.findSome? f) := by
  rw [List.findSome?_cons]
  cases f x <;> rfl

theorem skipSpaces_append_comma (first rest : Bytes) :
    skipSpaces (first ++ comma :: rest) = skipSpaces first ++ comma :: rest := by
  induction first with
  | nil => rfl
  | cons c first ih =>
    unfold skipSpaces at ih ⊢
    by_cases hc : c = space
    · rw [List.cons_append, List.dropWhile_cons_of_pos (by simpa using hc),
        List.dropWhile_cons_of_pos (by simpa using hc), ih]
    · rw [List.cons_append, List.dropWhile_cons_of_neg (by simpa using hc),
        List.dropWhile_cons_of_neg (by simpa using hc), List.cons_append]

theorem comma_not_mem_skipSpaces {text : Bytes} (h : comma ∉ text) : comma ∉ skipSpaces text :=
  fun hmem => h ((List.dropWhile_sublist _).subset hmem)

/-- The first element, without the spaces in front, and the others. -/
theorem splitOn_skipSpaces_cons {first : Bytes} (h : comma ∉ first) (rest : Bytes) :
    (skipSpaces (first ++ comma :: rest)).takeWhile (· ≠ comma) = skipSpaces first ∧
    behindComma (skipSpaces (first ++ comma :: rest)) = rest ∧
    (first ++ comma :: rest).splitOn comma = first :: rest.splitOn comma := by
  have hall : ∀ c ∈ skipSpaces first, decide (c ≠ comma) = true := fun c hc => by
    rw [decide_eq_true_eq]
    rintro rfl
    exact comma_not_mem_skipSpaces h hc
  refine ⟨?_, ?_, List.splitOn_append_cons_self_of_not_mem h rest⟩
  · rw [skipSpaces_append_comma, List.takeWhile_append_of_pos hall,
      List.takeWhile_cons_of_neg (by simp), List.append_nil]
  · rw [behindComma, skipSpaces_append_comma, List.dropWhile_append_of_pos hall,
      List.dropWhile_cons_of_neg (by simp), List.drop_one, List.tail_cons]

theorem splitOn_skipSpaces_last {last : Bytes} (h : comma ∉ last) :
    (skipSpaces last).takeWhile (· ≠ comma) = skipSpaces last ∧
    behindComma (skipSpaces last) = [] ∧ last.splitOn comma = [last] := by
  have hall : ∀ c ∈ skipSpaces last, decide (c ≠ comma) = true := fun c hc => by
    rw [decide_eq_true_eq]
    rintro rfl
    exact comma_not_mem_skipSpaces h hc
  refine ⟨List.takeWhile_eq_self_iff.mpr hall, ?_, List.splitOn_eq_singleton h⟩
  rw [behindComma, List.dropWhile_eq_nil_iff.mpr hall, List.drop_nil]

/-- What is left for the loop after the element in hand. -/
theorem firstPublic_skipSpaces (value : Bytes) :
    firstPublic inet ((value.splitOn comma).map skipSpaces) =
      (inet.publicAddress ((skipSpaces value).takeWhile (· ≠ comma))).or
        (firstPublic inet (((behindComma (skipSpaces value)).splitOn comma).map skipSpaces)) := by
  by_cases hcomma : comma ∈ value
  · obtain ⟨first, rest, rfl, hfirst⟩ := List.eq_append_cons_of_mem hcomma
    obtain ⟨htake, hbehind, hsplit⟩ := splitOn_skipSpaces_cons hfirst rest
    rw [htake, hbehind, hsplit, List.map_cons, firstPublic, firstPublic, findSome?_cons_or]
  · obtain ⟨htake, hbehind, hsplit⟩ := splitOn_skipSpaces_last hcomma
    have hnone : firstPublic inet ((([] : Bytes).splitOn comma).map skipSpaces) = none := rfl
    rw [htake, hbehind, hsplit, hnone, Option.or_none, List.map_singleton, firstPublic,
      List.findSome?_singleton]

/-- The loop reads one element after the other, without the spaces in front. -/
theorem parseXForwardedFor_finds (inet : Inet) (value : Bytes) (out : IpAddr) :
    Finds (parseXForwardedFor inet value out)
      (firstPublic inet ((value.splitOn comma).map skipSpaces)) := by
  induction hlength : value.length using Nat.strong_induction_on generalizing value out with
  | _ n ih =>
    subst hlength
    rw [parseXForwardedFor, firstPublic_skipSpaces]
    refine (parsePublic_finds inet ((skipSpaces value).takeWhile (· ≠ comma)) out).or
      (fun out => if behindComma (skipSpaces value) = [] then (false, out)
        else parseXForwardedFor inet (behindComma (skipSpaces value)) out) fun out => ?_
    by_cases hnext : behindComma (skipSpaces value) = []
    · rw [if_pos hnext, hnext]
      exact ⟨rfl, nofun⟩
    · rw [if_neg hnext]
      exact ih _ (length_behindComma_skipSpaces hnext) _ out rfl

end Read

/-! ## Spaces behind an element -/

section Spaces

variable {inet : Inet}

/-- Only spaces. -/
def Blank (spaces : Bytes) : Prop := ∀ c ∈ spaces, c = space

theorem Blank.not_mem {spaces : Bytes} (h : Blank spaces) {c : UInt8} (hc : c ≠ space) :
    c ∉ spaces := fun hmem => hc (h c hmem)

theorem skipSpaces_eq (text : Bytes) :
    ∃ spaces, Blank spaces ∧ skipSpaces text = element text ++ spaces := by
  refine ⟨(skipSpaces text).rtakeWhile (· = space), fun c hc => ?_, ?_⟩
  · simpa using List.mem_rtakeWhile_imp hc
  · rw [element, trim, ← skipSpaces, List.rdropWhile, List.rtakeWhile, ← List.reverse_append,
      List.takeWhile_append_dropWhile, List.reverse_reverse]

/-- A search that ends in `text` does not see what is behind. -/
theorem takeWhile_ne_append {c : UInt8} {text : Bytes} (h : c ∈ text) (behind : Bytes) :
    (text ++ behind).takeWhile (· ≠ c) = text.takeWhile (· ≠ c) := by
  obtain ⟨front, rest, rfl, hfront⟩ := List.eq_append_cons_of_mem h
  have hall : ∀ d ∈ front, decide (d ≠ c) = true := fun d hd => by
    rw [decide_eq_true_eq]
    rintro rfl
    exact hfront hd
  rw [List.append_assoc, List.takeWhile_append_of_pos hall, List.takeWhile_append_of_pos hall,
    List.cons_append, List.takeWhile_cons_of_neg (by simp), List.takeWhile_cons_of_neg (by simp)]

/-- Behind a bracket or a port, spaces make no difference to what is read. -/
theorem bareText_spaces {text spaces : Bytes} (hne : text ≠ []) (hblank : Blank spaces)
    (h : text.head? = some openBracket ∨ text.count colon = 1) :
    bareText (text ++ spaces) = bareText text := by
  cases text with
  | nil => exact absurd rfl hne
  | cons c rest =>
    have hclose : closeBracket ∈ rest ++ spaces ↔ closeBracket ∈ rest := by
      rw [List.mem_append, or_iff_left (hblank.not_mem (by decide))]
    have hcount : (c :: rest ++ spaces).count colon = (c :: rest).count colon := by
      rw [List.count_append, List.count_eq_zero.mpr (hblank.not_mem (by decide)), Nat.add_zero]
    rw [List.cons_append] at hcount ⊢
    rw [bareText, bareText, hcount]
    simp only [hclose]
    by_cases hopen : c = openBracket
    · rw [if_pos hopen, if_pos hopen]
      by_cases hmem : closeBracket ∈ rest
      · rw [if_pos hmem, if_pos hmem, takeWhile_ne_append hmem]
      · rw [if_neg hmem, if_neg hmem]
    · have hport := h.resolve_left (by simpa using hopen)
      have hmem : colon ∈ c :: rest := List.count_pos_iff.mp (by omega)
      rw [if_neg hopen, if_neg hopen, if_pos hport, if_pos hport, ← List.cons_append,
        takeWhile_ne_append hmem]

/-- A text without brackets and port is read as it is. -/
theorem bareText_self {text : Bytes} (hne : text ≠ []) (hopen : text.head? ≠ some openBracket)
    (hcount : text.count colon ≠ 1) : bareText text = some text := by
  cases text with
  | nil => exact absurd rfl hne
  | cons c rest => rw [bareText, if_neg (by simpa using hopen), if_neg hcount]

/-- Behind a NUL, too. -/
theorem address_spaces {text spaces : Bytes} (hnul : 0 ∈ text) :
    inet.address (text ++ spaces) = inet.address text := by
  have hne : text ≠ [] := List.ne_nil_of_mem hnul
  rw [Inet.address, Inet.address, if_neg (List.append_ne_nil_of_left_ne_nil hne spaces),
    if_neg hne, cstr, takeWhile_ne_append hnul, ← cstr]

theorem address_of_space (hinet : inet.Lawful) {text : Bytes} (hnul : 0 ∉ text)
    (hspace : text.getLast? = some space) : inet.address text = none := by
  obtain ⟨front, rfl⟩ := List.getLast?_eq_some_iff.mp hspace
  have hcstr : cstr (front ++ [space]) = front ++ [space] := by
    refine List.takeWhile_eq_self_iff.mpr fun c hc => ?_
    rw [decide_eq_true_eq]
    rintro rfl
    exact hnul hc
  obtain ⟨hv4, hv6⟩ := hinet.spaced front
  rw [Inet.address, if_neg (by simp), hcstr, hv4, hv6]
  rfl

theorem skipSpaces_suffix (text : Bytes) :
    ∃ spaces, Blank spaces ∧ text = spaces ++ skipSpaces text :=
  ⟨text.takeWhile (· = space), fun c hc => by simpa using List.mem_takeWhile_imp hc,
    List.takeWhile_append_dropWhile.symm⟩

theorem count_skipSpaces (text : Bytes) {c : UInt8} (hc : c ≠ space) :
    (skipSpaces text).count c = text.count c := by
  obtain ⟨spaces, hblank, htext⟩ := skipSpaces_suffix text
  have hcount := congrArg (List.count c) htext
  rw [List.count_append, List.count_eq_zero.mpr (hblank.not_mem hc), Nat.zero_add] at hcount
  exact hcount.symm

theorem mem_skipSpaces (text : Bytes) {c : UInt8} (hc : c ≠ space) :
    c ∈ skipSpaces text ↔ c ∈ text := by
  rw [← List.count_pos_iff, ← List.count_pos_iff, count_skipSpaces text hc]

theorem getLast?_skipSpaces {text : Bytes} (hne : skipSpaces text ≠ []) :
    (skipSpaces text).getLast? = text.getLast? := by
  obtain ⟨spaces, -, htext⟩ := skipSpaces_suffix text
  have hlast := congrArg List.getLast? htext
  rw [List.getLast?_append_of_ne_nil _ hne] at hlast
  exact hlast.symm

theorem element_ne_nil {text : Bytes} (hne : skipSpaces text ≠ []) : element text ≠ [] := by
  intro hempty
  rw [element, trim, ← skipSpaces, List.rdropWhile_eq_nil_iff] at hempty
  refine hne ?_
  rw [skipSpaces, ← List.dropWhile_idempotent, ← skipSpaces]
  exact List.dropWhile_eq_nil_iff.mpr hempty

/-- Nothing is removed behind a text that has no space there. -/
theorem element_of_last {text : Bytes} (h : (skipSpaces text).getLast? ≠ some space) :
    element text = skipSpaces text := by
  rw [element, trim, ← skipSpaces]
  cases hlast : skipSpaces text using List.reverseRecOn with
  | nil => rfl
  | append_singleton front c =>
    rw [hlast, List.getLast?_concat] at h
    exact List.rdropWhile_concat_neg _ _ _ (by simpa using h)

/-- **What the loop reads of an element**: spaces that it keeps hide the
address. -/
theorem publicAddress_skipSpaces (hinet : inet.Lawful) (text : Bytes) :
    inet.publicAddress (skipSpaces text) =
      if KeepsSpaces text then none else inet.publicAddress (element text) := by
  obtain ⟨spaces, hblank, hsplit⟩ := skipSpaces_eq text
  by_cases hempty : skipSpaces text = []
  · have helement : element text = [] := (List.append_eq_nil_iff.mp (hsplit ▸ hempty)).1
    rw [hempty, helement, publicAddress_nil, ite_self]
  have hne := element_ne_nil hempty
  have hhead : (skipSpaces text).head? = (element text).head? := by
    rw [hsplit, List.head?_append_of_ne_nil _ hne]
  have hcount : (element text).count colon = text.count colon := by
    rw [← count_skipSpaces text (by decide), hsplit, List.count_append,
      List.count_eq_zero.mpr (hblank.not_mem (by decide)), Nat.add_zero]
  have hnul : 0 ∈ text ↔ 0 ∈ element text := by
    rw [← mem_skipSpaces text (by decide), hsplit, List.mem_append,
      or_iff_left (hblank.not_mem (by decide))]
  by_cases hkeeps : KeepsSpaces text
  · obtain ⟨hlast, hopen, hport, hzero⟩ := hkeeps
    rw [if_pos ⟨hlast, hopen, hport, hzero⟩, Inet.publicAddress,
      bareText_self hempty hopen (by rwa [count_skipSpaces text (by decide)]), Option.bind_some,
      address_of_space hinet (mt (mem_skipSpaces text (by decide)).mp hzero)
        (by rw [getLast?_skipSpaces hempty, hlast])]
    rfl
  · rw [if_neg hkeeps]
    by_cases hlast : text.getLast? = some space
    · by_cases hbracket : (element text).head? = some openBracket ∨ (element text).count colon = 1
      · rw [Inet.publicAddress, Inet.publicAddress, hsplit, bareText_spaces hne hblank hbracket]
      · rw [not_or] at hbracket
        -- what is left is a NUL, which ends the text before the spaces
        have hzero : 0 ∈ element text := by
          by_contra hzero
          refine hkeeps ⟨hlast, ?_, ?_, mt hnul.mp hzero⟩
          · rw [hhead]
            exact hbracket.1
          · rw [← hcount]
            exact hbracket.2
        rw [Inet.publicAddress, Inet.publicAddress,
          bareText_self hempty (hhead ▸ hbracket.1)
            (by rw [count_skipSpaces text (by decide), ← hcount]; exact hbracket.2),
          bareText_self hne hbracket.1 hbracket.2, hsplit, Option.bind_some, Option.bind_some,
          address_spaces hzero]
    · rw [element_of_last (by rwa [getLast?_skipSpaces hempty])]

end Spaces

/-! ## The first public address -/

section First

variable {α β : Type} {f g : α → Option β} {hidden : α → Prop} [DecidablePred hidden]

theorem findSome?_hidden {l : List α} (hg : ∀ x ∈ l, g x = if hidden x then none else f x) :
    l.findSome? g = (l.filter fun x => ¬ hidden x).findSome? f := by
  induction l with
  | nil => rfl
  | cons x l ih =>
    obtain ⟨hx, hl⟩ := List.forall_mem_cons.mp hg
    rw [findSome?_cons_or, hx, ih hl]
    by_cases hhidden : hidden x
    · rw [if_pos hhidden, List.filter_cons_of_neg (by simpa using hhidden), Option.none_or]
    · rw [if_neg hhidden, List.filter_cons_of_pos (by simpa using hhidden), findSome?_cons_or]

/-- A search that some items are hidden from comes to the same result. -/
theorem findSome?_hidden_eq_iff {l : List α}
    (hg : ∀ x ∈ l, g x = if hidden x then none else f x) :
    l.findSome? g = l.findSome? f ↔
      ∀ before x after b, l = before ++ x :: after → (∀ y ∈ before, f y = none) →
        f x = some b → hidden x → (after.filter fun y => ¬ hidden y).findSome? f = some b := by
  have hnone : ∀ before ⊆ l, (∀ y ∈ before, f y = none) → before.findSome? g = none := by
    intro before hsubset hbefore
    rw [List.findSome?_eq_none_iff]
    intro y hy
    rw [hg y (hsubset hy), hbefore y hy, ite_self]
  constructor
  · rintro heq before x after b rfl hbefore hx hhidden
    rw [List.findSome?_append, List.findSome?_append,
      hnone before (List.subset_append_left _ _) hbefore, List.findSome?_eq_none_iff.mpr hbefore,
      Option.none_or, Option.none_or, findSome?_cons_or, findSome?_cons_or, hx,
      hg x List.mem_append_cons_self, if_pos hhidden, Option.none_or, Option.some_or] at heq
    rw [← findSome?_hidden fun y hy => hg y (List.mem_append_right _ (List.mem_cons_of_mem x hy))]
    exact heq
  · intro h
    cases hfound : l.findSome? f with
    | none => exact hnone l (List.Subset.refl l) (List.findSome?_eq_none_iff.mp hfound)
    | some b =>
      obtain ⟨before, x, after, rfl, hx, hbefore⟩ := List.findSome?_eq_some_iff.mp hfound
      rw [List.findSome?_append, hnone before (List.subset_append_left _ _) hbefore,
        Option.none_or, findSome?_cons_or, hg x List.mem_append_cons_self]
      by_cases hhidden : hidden x
      · rw [if_pos hhidden, Option.none_or, findSome?_hidden fun y hy =>
          hg y (List.mem_append_right _ (List.mem_cons_of_mem x hy))]
        exact h before x after b rfl hbefore hx hhidden
      · rw [if_neg hhidden, hx, Option.some_or]

end First

theorem elementsRead_iff_eq (inet : Inet) (value : Bytes) :
    ElementsRead inet value ↔
      (value.splitOn comma).findSome? (fun t => inet.publicAddress (skipSpaces t)) =
        (value.splitOn comma).findSome? (fun t => inet.publicAddress (element t)) := by
  have hfinds := parseXForwardedFor_finds inet value
  simp only [ElementsRead, firstPublic, List.findSome?_map] at hfinds ⊢
  constructor
  · intro h
    exact (hfinds default).unique (h default)
  · intro h out
    exact h ▸ hfinds out

/-- **When the elements of a list are read** as they are meant, for every
list: the spaces behind the first public address, if it keeps some, are
harmless. -/
theorem elements_read_iff {inet : Inet} (hinet : inet.Lawful) (value : Bytes) :
    ElementsRead inet value ↔ SpacesHarmless inet value := by
  rw [elementsRead_iff_eq,
    findSome?_hidden_eq_iff fun t _ => publicAddress_skipSpaces hinet t]
  simp only [SpacesHarmless, firstPublic, List.findSome?_map]
  rfl

/-- Two addresses that are known to be public. -/
def publicResolvers : Inet :=
  .ofTable [("8.8.8.8", ⟨[8, 8, 8, 8], rfl⟩), ("1.1.1.1", ⟨[1, 1, 1, 1], rfl⟩)]

theorem publicResolvers_lawful : publicResolvers.Lawful := Inet.ofTable_lawful (by decide)

theorem plain_list_read : ElementsRead publicResolvers "8.8.8.8, 1.1.1.1" := by
  refine (elements_read_iff publicResolvers_lawful _).mpr fun before text after _ hsplit _ _ => ?_
  have hplain : ∀ t ∈ Bytes.ofString "8.8.8.8, 1.1.1.1" |>.splitOn comma, ¬ KeepsSpaces t := by
    decide
  exact fun hkeeps => absurd hkeeps (hplain text (by rw [hsplit]; simp))

/-- **A space behind the first address** gives the second. -/
theorem space_hides_address :
    Finds (parseXForwardedFor publicResolvers "8.8.8.8 , 1.1.1.1" default)
      (some (.v4 ⟨[1, 1, 1, 1], rfl⟩)) ∧
    firstPublic publicResolvers
      (((Bytes.ofString "8.8.8.8 , 1.1.1.1").splitOn comma).map element) =
      some (.v4 ⟨[8, 8, 8, 8], rfl⟩) ∧
    ¬ ElementsRead publicResolvers "8.8.8.8 , 1.1.1.1" := by
  have hfound : firstPublic publicResolvers
      (((Bytes.ofString "8.8.8.8 , 1.1.1.1").splitOn comma).map skipSpaces) =
      some (.v4 ⟨[1, 1, 1, 1], rfl⟩) := by decide
  have hmeant : firstPublic publicResolvers
      (((Bytes.ofString "8.8.8.8 , 1.1.1.1").splitOn comma).map element) =
      some (.v4 ⟨[8, 8, 8, 8], rfl⟩) := by decide
  have hread := parseXForwardedFor_finds publicResolvers "8.8.8.8 , 1.1.1.1" default
  rw [hfound] at hread
  refine ⟨hread, hmeant, fun h => ?_⟩
  have heq := hread.unique (h default)
  rw [hmeant] at heq
  revert heq
  decide

end DdAppsec.Extension
