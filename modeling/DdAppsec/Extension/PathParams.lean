import DdAppsec.Extension.RequestInit

/-!
# Extension — the path parameters of a URI

`splitPath` decodes the parts of a URI in the buffer that it scans. What is
meant is a function of the URI alone: `pathParts` cuts the URI first and
decodes last. The two agree for every URI (`path_params_decoded`): where a
part is decoded, the scan is already behind it.
-/

namespace DdAppsec.Extension

open Lib Lib.MsgPack

def slash : UInt8 := 0x2f

/-! ## What is meant -/

/-- The URI up to the first question mark or NUL. -/
def uriPath (uri : Bytes) : Bytes := uri.takeWhile fun c => c ≠ 0 ∧ c ≠ 0x3f

/-- One slash at the beginning is dropped. -/
def withoutSlash : Bytes → Bytes
  | [] => []
  | c :: path => if c = slash then path else c :: path

/-- One empty part at the end is dropped. -/
def withoutEmptyLast (parts : List Bytes) : List Bytes :=
  if parts.getLast? = some [] then parts.dropLast else parts

/-- The parts of a path, decoded. -/
def decodedParts (path : Bytes) : List Bytes :=
  (withoutEmptyLast (path.splitOn slash)).map rawUrlDecode

def pathParts (uri : Bytes) : List Bytes := decodedParts (withoutSlash (uriPath uri))

/-! ## Parts -/

section Parts

variable {part path : Bytes}

theorem decodedParts_last (hpart : slash ∉ part) :
    decodedParts part = if part = [] then [] else [rawUrlDecode part] := by
  rw [decodedParts, List.splitOn_eq_singleton hpart]
  cases part <;> simp [withoutEmptyLast]

theorem decodedParts_cons (hpart : slash ∉ part) :
    decodedParts (part ++ slash :: path) = rawUrlDecode part :: decodedParts path := by
  have hne := List.splitOn_ne_nil slash path
  rw [decodedParts, List.splitOn_append_cons_self_of_not_mem hpart, withoutEmptyLast,
    List.getLast?_cons_of_ne_nil hne, List.dropLast_cons_of_ne_nil hne, decodedParts,
    withoutEmptyLast]
  split <;> rfl

theorem uriPath_cons_end {c : UInt8} (hc : c = 0 ∨ c = 0x3f) (rest : Bytes) :
    uriPath (c :: rest) = [] := by
  rw [uriPath, List.takeWhile_cons_of_neg]
  simp only [decide_eq_true_eq]
  exact fun hgoes => hc.elim hgoes.1 hgoes.2

theorem uriPath_cons {c : UInt8} (hc : ¬ (c = 0 ∨ c = 0x3f)) (rest : Bytes) :
    uriPath (c :: rest) = c :: uriPath rest := by
  rw [uriPath, List.takeWhile_cons_of_pos, uriPath]
  simpa using not_or.mp hc

/-- The NUL behind the URI ends it. -/
theorem uriPath_nul (uri : Bytes) : uriPath (uri ++ [0]) = uriPath uri := by
  induction uri with
  | nil => rfl
  | cons c uri ih =>
    rw [List.cons_append]
    by_cases hends : c = 0 ∨ c = 0x3f
    · rw [uriPath_cons_end hends, uriPath_cons_end hends]
    · rw [uriPath_cons hends, uriPath_cons hends, ih]

theorem withoutSlash_uriPath {c : UInt8} (hc : c ≠ slash) (uri : Bytes) :
    withoutSlash (uriPath (c :: uri)) = uriPath (c :: uri) := by
  by_cases hends : c = 0 ∨ c = 0x3f
  · rw [uriPath_cons_end hends]
    rfl
  · rw [uriPath_cons hends, withoutSlash, if_neg hc]

end Parts

/-! ## The scan -/

/-- **Loop lemma**: what is ahead of the scan is as it was in the URI, and so
is the part that it is in. -/
theorem splitPath_eq (turns : Nat) (buffer : Bytes) (p beg : Nat) (hbeg : beg ≤ p)
    (hnul : 0 ∈ buffer.drop p) (hturns : buffer.length ≤ p + turns)
    (hpart : slash ∉ (buffer.drop beg).take (p - beg)) :
    splitPath turns buffer p beg =
      some (decodedParts ((buffer.drop beg).take (p - beg) ++ uriPath (buffer.drop p))) := by
  induction turns generalizing buffer p beg with
  | zero =>
    rw [List.drop_of_length_le (by omega)] at hnul
    simp at hnul
  | succ turns ih =>
    have hp : p < buffer.length := by
      apply Nat.lt_of_not_le
      intro hle
      rw [List.drop_of_length_le hle] at hnul
      simp at hnul
    rw [List.drop_eq_getElem_cons hp, List.mem_cons] at hnul
    rw [List.drop_eq_getElem_cons hp]
    have hlength : ((buffer.drop beg).take (p - beg)).length = p - beg := by
      rw [List.length_take, List.length_drop]
      omega
    unfold splitPath
    rw [List.getElem?_eq_getElem hp]
    dsimp only
    by_cases hends : buffer[p] = 0 ∨ buffer[p] = 0x3f
    · -- the path ends here, and so does its last part
      rw [if_neg (fun hscan => hscan.2 hends), uriPath_cons_end hends, List.append_nil,
        decodedParts_last hpart]
      simp only [hends, and_true, if_true]
      by_cases hlen : p - beg = 0
      · rw [if_pos hlen, if_pos (List.eq_nil_of_length_eq_zero (hlength.trans hlen))]
      · rw [if_neg hlen, if_neg (fun hnil => hlen (by rw [← hlength, hnil]; rfl))]
    · have hahead := hnul.resolve_left fun h => hends (Or.inl h.symm)
      rw [uriPath_cons hends]
      by_cases hslash : buffer[p] = slash
      · -- what is written ends at `p` or before, and the next part begins behind it
        have hwritten : beg +
            (rawUrlDecode ((buffer.drop beg).take (p - beg)) ++ [0]).length ≤ p + 1 := by
          have hdecoded := length_rawUrlDecode ((buffer.drop beg).take (p - beg))
          rw [List.length_append, List.length_singleton]
          omega
        have hbeg' : beg ≤ buffer.length := by omega
        have hdrop := overlay_drop hbeg' hwritten
        rw [if_neg (fun hscan => hscan.1 hslash), if_neg (fun hscan => hends hscan.2),
          if_neg hends, hslash, decodedParts_cons hpart]
        rw [ih _ _ _ (Nat.le_refl _) (by rw [hdrop]; exact hahead)
          (by rw [length_overlay (by omega)]; omega) (by simp), hdrop, Nat.sub_self,
          List.take_zero, List.nil_append]
        rfl
      · have hgrows : (buffer.drop beg).take (p + 1 - beg) =
            (buffer.drop beg).take (p - beg) ++ [buffer[p]] := by
          have hlt : p - beg < (buffer.drop beg).length := by
            rw [List.length_drop]
            omega
          have hat : (buffer.drop beg)[p - beg] = buffer[p] := by
            rw [List.getElem_drop]
            congr 1
            omega
          rw [show p + 1 - beg = p - beg + 1 by omega, List.take_succ_eq_append_getElem hlt, hat]
        have hpart' : slash ∉ (buffer.drop beg).take (p + 1 - beg) := by
          rw [hgrows, List.mem_append, List.mem_singleton]
          exact not_or.mpr ⟨hpart, Ne.symm hslash⟩
        rw [if_pos ⟨hslash, hends⟩, ih buffer (p + 1) beg (by omega) hahead (by omega) hpart',
          hgrows, List.append_assoc, List.singleton_append]

/-- The scan from `p` on, with nothing of a part before it. -/
theorem splitPath_start (uri : Bytes) {p : Nat} (hp : p ≤ uri.length) :
    splitPath (uri ++ [0]).length (uri ++ [0]) p p =
      some (decodedParts (uriPath (uri.drop p))) := by
  have hdrop : (uri ++ [0]).drop p = uri.drop p ++ [0] := List.drop_append_of_le_length hp
  rw [splitPath_eq _ _ p p (Nat.le_refl p) (by rw [hdrop]; simp) (by omega) (by simp),
    Nat.sub_self, List.take_zero, List.nil_append, hdrop, uriPath_nul]

theorem splitPath_uri (uri : Bytes) :
    let p := if (uri ++ [0]).head? = some slash then 1 else 0
    splitPath (uri ++ [0]).length (uri ++ [0]) p p = some (pathParts uri) := by
  rw [pathParts]
  cases uri with
  | nil => exact splitPath_start [] (Nat.le_refl 0)
  | cons c uri =>
    by_cases hc : c = slash
    · subst hc
      have hpath : withoutSlash (uriPath (slash :: uri)) = uriPath uri := by
        rw [uriPath_cons (by decide), withoutSlash, if_pos rfl]
      rw [hpath]
      exact splitPath_start (slash :: uri) (Nat.le_add_left 1 uri.length)
    · rw [withoutSlash_uriPath hc]
      simp only [List.cons_append, List.head?_cons, Option.some.injEq, hc, if_false]
      exact splitPath_start (c :: uri) (Nat.zero_le _)

/-- **The path parameters of a URI.** The scan stays in the copy of the URI
and its NUL, and the array that is written has the decoded parts. -/
theorem path_params_decoded (uri : Bytes) (codec : Codec) :
    (let buffer := uri ++ [0]
     let p := if buffer.head? = some slash then 1 else 0
     splitPath buffer.length buffer p p = some (pathParts uri)) ∧
    pathParams uri = pathParts uri ∧
    packPathParams codec (some uri) =
      buildArray codec ((pathParts uri).map (writeStr codec)) := by
  have hparams : pathParams uri = pathParts uri := congrArg (Option.getD · []) (splitPath_uri uri)
  refine ⟨splitPath_uri uri, hparams, ?_⟩
  rw [packPathParams, hparams]

/-- An encoded slash or NUL does not end a part. -/
example : pathParams "/a%2Fb/c%00d//?x=/y" =
    [("a/b" : Bytes), [0x63, 0, 0x64], []] := by decide

end DdAppsec.Extension
