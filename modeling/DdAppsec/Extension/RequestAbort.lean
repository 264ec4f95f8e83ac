import DdAppsec.Extension.MsgpackHelpers
import DdAppsec.Lib.Text

/-!
# Extension — the type of the blocking page

When a request is blocked without a configured type, the `Accept` header
chooses between HTML and JSON. `getResponseTypeFromAcceptHeader` looks for the
names of the two types as TEXT: the first occurrence of a name and the one
byte behind it. What is meant is the set of media ranges of the header
(`mediaRanges`).

The first occurrence is in the first ELEMENT of the list that has the name
anywhere in it, and all depends on how that one goes on (`Tells`).
`accept_answered_iff` says what the answer is worth if it does not tell whether
the name is a media range.
-/

namespace DdAppsec.Extension

open Lib

/-! ## `_get_response_type_from_accept_header` -/

inductive ResponseType where
  | auto | html | json
  deriving DecidableEq, Repr

def htmlContentType : Bytes := "text/html"
def jsonContentType : Bytes := "application/json"

def comma : UInt8 := 0x2c
def semicolon : UInt8 := 0x3b

/-- `dd_php_get_string_elem_cstr`. -/
def getStringElem (arr : Option HashTable) (name : Bytes) : Option Bytes :=
  match arr.bind fun table => table.find name with
  | some z =>
    match z.deref with
    | .string s => some s
    | _ => none
  | none => none

/-- The test for one of the two types. Behind a `zend_string` there is a
NUL. -/
def acceptHas (accept contentType : Bytes) : Bool :=
  match memmem contentType accept with
  | none => false
  | some start =>
    let last := start + contentType.length
    decide (last ≤ accept.length) &&
      match (accept ++ [0])[last]? with
      | some c => c = comma || c = 0 || c = semicolon
      | none => false

/-- `_get_response_type_from_accept_header`, given `$_SERVER`. -/
def getResponseTypeFromAcceptHeader (server : Option HashTable) : ResponseType :=
  match getStringElem server "HTTP_ACCEPT" with
  | none => .json
  | some accept =>
    if acceptHas accept jsonContentType then .json
    else if acceptHas accept htmlContentType then .html
    else .json

/-! ## What is meant -/

/-- Spaces and tabs may stand around an element of a list. -/
def isBlank (c : UInt8) : Bool := c = 0x20 || c = 0x09

/-- The media ranges of a header: what is before the parameters of each
element. -/
def mediaRanges (accept : Bytes) : List Bytes :=
  (accept.splitOn comma).map fun element => trim isBlank (element.takeWhile (· ≠ semicolon))

/-- The header accepts HTML and does not accept JSON. -/
def WantsHtml (accept : Bytes) : Prop :=
  htmlContentType ∈ mediaRanges accept ∧ jsonContentType ∉ mediaRanges accept

instance (accept : Bytes) : Decidable (WantsHtml accept) := inferInstanceAs (Decidable (_ ∧ _))

/-- What is behind the name in the first element that has it. -/
def behindFirst (name accept : Bytes) : Option Bytes :=
  (accept.splitOn comma).findSome? (behind name)

/-- Nothing, or the parameters of the media range, or a NUL. -/
def EndsHere (rest : Bytes) : Prop := rest.headD 0 = 0 ∨ rest.headD 0 = semicolon

instance (rest : Bytes) : Decidable (EndsHere rest) := inferInstanceAs (Decidable (_ ∨ _))

/-- The first element that has the name in it ends behind the name. -/
def FirstEnds (name accept : Bytes) : Prop :=
  ∃ rest, behindFirst name accept = some rest ∧ EndsHere rest

instance (name accept : Bytes) : Decidable (FirstEnds name accept) :=
  decidable_of_iff ((behindFirst name accept).any fun rest => decide (EndsHere rest)) (by
    rw [Option.any_eq_true]
    simp [FirstEnds])

/-- **The first element tells**: it ends behind the name exactly if that is a
media range of the header, of this element or of another. -/
def Tells (name accept : Bytes) : Prop := FirstEnds name accept ↔ name ∈ mediaRanges accept

instance (name accept : Bytes) : Decidable (Tells name accept) :=
  inferInstanceAs (Decidable (_ ↔ _))

/-- The answer is the one that is meant. -/
def AnsweredRight (server : Option HashTable) (accept : Bytes) : Prop :=
  getResponseTypeFromAcceptHeader server = if WantsHtml accept then .html else .json

/-! ## What is found -/

section Found

variable {name accept : Bytes}

theorem getElem?_append_nul {text : Bytes} {i : Nat} (h : i ≤ text.length) :
    (text ++ [0])[i]? = some ((text.drop i).headD 0) := by
  induction text generalizing i with
  | nil =>
    obtain rfl : i = 0 := Nat.le_zero.mp h
    rfl
  | cons c text ih =>
    cases i with
    | zero => rfl
    | succ i => exact ih (Nat.le_of_succ_le_succ h)

/-- The test looks at the byte behind the first occurrence. -/
theorem acceptHas_iff_behind (hne : name ≠ []) :
    acceptHas accept name = true ↔
      ∃ rest, behind name accept = some rest ∧ (rest.headD 0 = comma ∨ EndsHere rest) := by
  unfold acceptHas behind
  cases hfound : memmem name accept with
  | none => simp
  | some start =>
    have hroom := memmem_le hne hfound
    dsimp only
    rw [getElem?_append_nul hroom]
    simp [hroom, EndsHere, or_assoc]

/-- Behind an element there is a comma. -/
theorem ends_append_comma {rest : Bytes} (h : comma ∉ rest) (others : Bytes) :
    ((rest ++ comma :: others).headD 0 = comma ∨ EndsHere (rest ++ comma :: others)) ↔
      EndsHere rest := by
  cases rest with
  | nil => simp [EndsHere]
  | cons c rest =>
    have hc : c ≠ comma := fun heq => h (heq ▸ List.mem_cons_self)
    simp [EndsHere, hc]

theorem ends_last {rest : Bytes} (h : comma ∉ rest) :
    (rest.headD 0 = comma ∨ EndsHere rest) ↔ EndsHere rest := by
  refine or_iff_right_of_imp fun hcomma => ?_
  cases rest with
  | nil => exact .inl rfl
  | cons c rest => exact absurd (hcomma ▸ List.mem_cons_self) h

theorem comma_not_mem_behind {element rest : Bytes} (h : comma ∉ element)
    (hbehind : behind name element = some rest) : comma ∉ rest := by
  obtain ⟨start, -, rfl⟩ := Option.map_eq_some_iff.mp hbehind
  exact fun hmem => h (List.mem_of_mem_drop hmem)

/-- **The search finds the first element that has the name**, since a name has no
comma in it. -/
theorem acceptHas_iff (hne : name ≠ []) (hcomma : comma ∉ name) (accept : Bytes) :
    acceptHas accept name = true ↔ FirstEnds name accept := by
  rw [acceptHas_iff_behind hne, FirstEnds, behindFirst]
  induction hlength : accept.length using Nat.strong_induction_on generalizing accept with
  | _ n ih =>
    by_cases hlist : comma ∈ accept
    · obtain ⟨first, others, rfl, hfirst⟩ := List.eq_append_cons_of_mem hlist
      rw [behind_append_cons hne hcomma, List.splitOn_append_cons_self_of_not_mem hfirst,
        List.findSome?_cons]
      cases hbehind : behind name first with
      | some rest =>
        have hends := ends_append_comma (comma_not_mem_behind hfirst hbehind) others
        simpa using hends
      | none =>
        have hshort : others.length < n := by
          rw [← hlength, List.length_append, List.length_cons]
          omega
        simpa using ih others.length hshort others rfl
    · rw [List.splitOn_eq_singleton hlist, List.findSome?_singleton]
      refine exists_congr fun rest => and_congr_right fun hbehind => ?_
      exact ends_last (comma_not_mem_behind hlist hbehind)

end Found

/-- The answer in terms of the first elements. -/
theorem answeredRight_iff {server : Option HashTable} {accept : Bytes}
    (haccept : getStringElem server "HTTP_ACCEPT" = some accept) :
    AnsweredRight server accept ↔ (WantsHtml accept ↔
      FirstEnds htmlContentType accept ∧ ¬ FirstEnds jsonContentType accept) := by
  rw [AnsweredRight, getResponseTypeFromAcceptHeader, haccept,
    ← acceptHas_iff (by decide) (by decide), ← acceptHas_iff (by decide) (by decide)]
  dsimp only
  cases acceptHas accept jsonContentType <;> cases acceptHas accept htmlContentType <;>
    by_cases hwants : WantsHtml accept <;> simp [hwants]

/-- **What the answer is worth.** It is right where the first elements tell of
both names. Where those of one name or of both do not, it is right by chance:
if HTML is not accepted anyway, if JSON is, or if both are or neither. -/
theorem accept_answered_iff {server : Option HashTable} {accept : Bytes}
    (haccept : getStringElem server "HTTP_ACCEPT" = some accept) :
    (Tells jsonContentType accept → Tells htmlContentType accept →
      AnsweredRight server accept) ∧
    (¬ Tells jsonContentType accept → Tells htmlContentType accept →
      (AnsweredRight server accept ↔ htmlContentType ∉ mediaRanges accept)) ∧
    (Tells jsonContentType accept → ¬ Tells htmlContentType accept →
      (AnsweredRight server accept ↔ jsonContentType ∈ mediaRanges accept)) ∧
    (¬ Tells jsonContentType accept → ¬ Tells htmlContentType accept →
      (AnsweredRight server accept ↔
        (jsonContentType ∈ mediaRanges accept ↔ htmlContentType ∈ mediaRanges accept))) := by
  rw [answeredRight_iff haccept, WantsHtml, Tells, Tells]
  by_cases hjson : jsonContentType ∈ mediaRanges accept <;>
    by_cases hhtml : htmlContentType ∈ mediaRanges accept <;>
    by_cases hfoundJson : FirstEnds jsonContentType accept <;>
    by_cases hfoundHtml : FirstEnds htmlContentType accept <;>
    simp [hjson, hhtml, hfoundJson, hfoundHtml]

/-- HTML is accepted, with a weight, and a type that has its name in it. -/
def browserAccept : Bytes := "text/html;q=0.9, application/xhtml+xml, x-text/html-part, */*"

theorem browser_answered :
    getResponseTypeFromAcceptHeader (some [(.str "HTTP_ACCEPT", .string browserAccept)]) =
      .html := by
  have hright : AnsweredRight (some [(.str "HTTP_ACCEPT", .string browserAccept)])
      browserAccept :=
    (accept_answered_iff rfl).1 (by decide +kernel) (by decide +kernel)
  have hwants : WantsHtml browserAccept := by decide +kernel
  rw [AnsweredRight, if_pos hwants] at hright
  exact hright

/-- A longer name in front hides the JSON that is accepted. -/
theorem longer_name_hides_json :
    getResponseTypeFromAcceptHeader
        (some [(.str "HTTP_ACCEPT",
          .string "application/json-seq, application/json, text/html")]) = .html ∧
      mediaRanges "application/json-seq, application/json, text/html" =
        ["application/json-seq", "application/json", "text/html"] ∧
      ¬ WantsHtml "application/json-seq, application/json, text/html" := by
  refine ⟨by decide +kernel, by decide +kernel, by decide +kernel⟩

end DdAppsec.Extension
