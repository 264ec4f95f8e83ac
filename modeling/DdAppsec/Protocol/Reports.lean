import DdAppsec.Extension.SpanTags.AtEnd
import DdAppsec.Protocol.Verdicts

/-!
# Protocol — the report of a request

A request has several verdicts: one at its start, one for each `request_exec`,
one at its end. What they leave behind is kept in statics, and `dd_tags_add_tags`
writes it to the root span.

`tags_of_responses` is the state after any of them, and `report_of_run` what comes
of it: the document on the span lists the triggers of all, in the order they came.
-/

namespace DdAppsec.Protocol

open Lib Lib.MsgPack Extension

/-! ## The verdicts of a request -/

section Reports

variable (packDouble : UInt64 → Obj)

def Response.blocks (r : Response) : Bool :=
  match r.judged with
  | some (j, _) => isAction j.verdict
  | none => false

/-- A response with a judgement whose metrics can be read, and whose tags leave
the report alone. -/
structure Response.Regular (r : Response) (j : Judgement)
    (more : Option (List (Bytes × Bytes) × List (Bytes × UInt64))) : Prop where
  judged : r.judged = some (j, more)
  metrics : ∀ m ∈ more, ∀ e ∈ m.2, Packs packDouble e.2
  tags : ∀ m ∈ more, ∀ e ∈ m.1, e.1 ≠ tagData

variable {packDouble} {r : Response} {j : Judgement}
  {more : Option (List (Bytes × Bytes) × List (Bytes × UInt64))} {responses : List Response}

/-- Nobody has written the tag of the report. -/
def ReportFree (span : RootSpan) : Prop :=
  ∃ m : Tags, span.metaTags = some m ∧ m[tagData]? = none

theorem ReportFree.addTagStr {span : RootSpan} (h : ReportFree span) {key : Bytes}
    (hkey : key ≠ tagData) (value : Bytes) : ReportFree (span.addTagStr key value).2 := by
  obtain ⟨m, hm, hnone⟩ := h
  rw [RootSpan.addTagStr]
  split
  · exact ⟨m, hm, hnone⟩
  · rw [addTag_snd, hm]
    refine ⟨_, rfl, ?_⟩
    rw [Tags.getElem?_addAll_other m fun e he => List.mem_singleton.mp he ▸ hkey, hnone]

/-- The names are cut, but not so short. -/
theorem take_ne_tagData {key : Bytes} (h : key ≠ tagData) :
    key.take maxTagValueLen ≠ tagData := by
  intro heq
  have hlength := congrArg List.length heq
  have hdata : tagData.length = 15 := by decide
  rw [List.length_take, hdata, maxTagValueLen] at hlength
  rw [List.take_of_length_le (by rw [maxTagValueLen]; omega)] at heq
  exact h heq

theorem ReportFree.addMetaEntries {span : RootSpan} (h : ReportFree span)
    {tags : List (Bytes × Bytes)} (htags : ∀ e ∈ tags, e.1 ≠ tagData) :
    ReportFree (span.addMetaEntries (tags.map fun e => (.str e.1, .str e.2))) := by
  induction tags generalizing span with
  | nil => exact h
  | cons e tags ih =>
    have hadd := h.addTagStr (take_ne_tagData (htags e List.mem_cons_self)) e.2
    rw [List.map_cons, RootSpan.addMetaEntries]
    rcases hspan' : span.addTagStr (e.1.take maxTagValueLen) e.2 with ⟨added, span'⟩
    rw [hspan'] at hadd
    cases added with
    | true => exact ih hadd fun e' he' => htags e' (List.mem_cons_of_mem e he')
    | false => exact hadd

/-- Metrics are kept apart. -/
theorem commandProcessMetrics_frame (span : RootSpan) (o : Obj) :
    (span.commandProcessMetrics o).1.metaTags = span.metaTags ∧
      (span.commandProcessMetrics o).1.userKeep = span.userKeep := by
  unfold RootSpan.commandProcessMetrics
  split <;> exact ⟨rfl, rfl⟩

/-- No tag of a response is the report. -/
theorem ReportFree.response {s : VerdictState} (h : ReportFree s.span)
    (hr : r.Regular packDouble j more) :
    ReportFree (s.incoming (r.message packDouble)).2.span := by
  rw [incoming_message packDouble hr.judged hr.metrics]
  show ReportFree (s.span.enact (j.parsed packDouble more)).1
  cases more with
  | none => exact h
  | some m =>
    obtain ⟨m', hm', hnone⟩ := h.addMetaEntries (hr.tags m rfl)
    exact ⟨m', (commandProcessMetrics_frame ..).1.trans hm', hnone⟩

end Reports

end DdAppsec.Protocol
