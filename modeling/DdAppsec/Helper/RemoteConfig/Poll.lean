import DdAppsec.Helper.RemoteConfig.Parser
import DdAppsec.Helper.RemoteConfig.Requests

/-!
# RemoteConfig — `client::poll` and the error it reports next time

A poll sends a request, receives a body, parses it and processes the
response. What went wrong is kept in `last_poll_error_` for the request of
the NEXT poll: `process_response` writes it where it rejects a path, `poll`
clears it once the body has been parsed, `generate_request` reads it.

A body that cannot be parsed leaves through the exception handler, before
the field is cleared and without writing it. `error_reported_iff_parses`
says that this is the one way for a request to report something else than
how the last poll ended.
-/

namespace DdAppsec.Helper.RemoteConfig

open Lib

variable {σ : Type}

/-! ## A poll -/

/-- How `client::poll` ends: it returns, or throws `network_exception` or
something else. -/
inductive PollOutcome where
  | returned (accepted : Bool)
  | network
  | escaped (e : Exception)
  deriving DecidableEq

/-- What `client::poll` does with the body it received. -/
def Client.receive (deps : Deps) (ord : IterOrder) (body : Bytes) (c : Client σ) (w : σ) :
    PollOutcome × Client σ × σ :=
  match parse deps body with
  | .error (.parserException _) => (.returned false, c, w)
  | .error .assertion => (.escaped .assertion, c, w)
  | .ok response =>
    match processResponse ord response { c with lastPollError := [] } w with
    | (.ok accepted, c, w) => (.returned accepted, c, w)
    | (.error e, c, w) => (.escaped e, c, w)

/-- `client::poll`. `tracer` is `none` while `ids_` has no value; `api` is
`get_configs`, `none` where it throws. Serializing a request never fails. -/
def Client.poll (deps : Deps) (ord : IterOrder) (id : Bytes) (tracer : Option ClientTracer)
    (api : GetConfigsRequest → Option Bytes) (c : Client σ) (w : σ) :
    PollOutcome × Client σ × σ :=
  match tracer with
  | none => (.returned false, c, w)
  | some tracer =>
    match api (c.generateRequest ord id tracer) with
    | none => (.network, c, w)
    | some body => c.receive deps ord body w

/-- A poll that receives a body, with what the environment decides for it:
the world is whatever it has become since the last poll. -/
structure Exchange (σ : Type) where
  order : IterOrder
  tracer : ClientTracer
  body : Bytes
  world : σ

/-- The request of an exchange. -/
def Exchange.request (x : Exchange σ) (id : Bytes) (c : Client σ) : GetConfigsRequest :=
  c.generateRequest x.order id x.tracer

/-- The client after an exchange; `none` if an exception escaped. -/
def Client.exchange (deps : Deps) (id : Bytes) (c : Client σ) (x : Exchange σ) :
    Option (Client σ) :=
  match c.poll deps x.order id (some x.tracer) (fun _ => some x.body) x.world with
  | (.returned _, c, _) => some c
  | _ => none

/-! ## What the next request should say -/

/-- The body of an exchange is rejected: it does not parse, or
`process_response` returns `false`. -/
def Rejected (deps : Deps) (c : Client σ) (x : Exchange σ) : Prop :=
  (∃ result, parse deps x.body = .error (.parserException result)) ∨
    ∃ response, parse deps x.body = .ok response ∧
      (processResponse x.order response { c with lastPollError := [] } x.world).1 = .ok false

/-- A text about the rejection of this very body: the result of the parser,
or what `process_response` has to say about a path of the response. -/
inductive Describes (deps : Deps) (c : Client σ) (x : Exchange σ) : Bytes → Prop where
  | unparsable (result : ParserResult)
      (h : parse deps x.body = .error (.parserException result)) :
      Describes deps c x result.toStr
  | unacceptable (response : GetConfigsResponse) (targets : Targets) (path text : Bytes)
      (h : parse deps x.body = .ok response) (ht : response.targets = some targets)
      (hpath : path ∈ response.clientConfigs)
      (htext : buildConfig x.order c.products targets response.targetFiles path = .error text) :
      Describes deps c x text

/-- **The next request tells how this exchange ended**: it has an error
exactly when the body was rejected, and then its text describes that. -/
structure TellsOf (deps : Deps) (c : Client σ) (x : Exchange σ) (next : GetConfigsRequest) :
    Prop where
  hasError : next.client.clientState.hasError = true ↔ Rejected deps c x
  describes : Rejected deps c x → next.client.clientState.error ≠ [] ∧
    Describes deps c x next.client.clientState.error

/-! ## Texts -/

/-- The text for a path has a blank in it. -/
theorem buildConfig_text {ord : IterOrder} {products : StringMap (Product σ)} {targets : Targets}
    {targetFiles : StringMap TargetFile} {path text : Bytes}
    (h : buildConfig ord products targets targetFiles path = .error text) : 32 ∈ text := by
  have hmalformed : 32 ∈ Bytes.ofString "error parsing path " := by decide
  have hmissing : 32 ∈ Bytes.ofString "missing config " := by decide
  have hreceived : 32 ∈ Bytes.ofString "received config " := by decide
  rw [buildConfig] at h
  split at h
  · cases h
    exact List.mem_append_left _ hmalformed
  · split at h
    · cases h
      exact List.mem_append_left _ (List.mem_append_left _ hmissing)
    · split at h
      · cases h
        exact List.mem_append_left _ (List.mem_append_left _ hreceived)
      · split at h
        · cases h
        · split at h
          · cases h
            exact List.mem_append_left _ (List.mem_append_left _ hmissing)
          · cases h

/-- The parser's results have none. -/
theorem ParserResult.toStr_blank (result : ParserResult) : 32 ∉ result.toStr := by
  cases result <;> decide +kernel

theorem buildConfigs_text {ord : IterOrder} {products : StringMap (Product σ)} {targets : Targets}
    {targetFiles : StringMap TargetFile} {paths : List Bytes} {text : Bytes}
    {configs : StringMap (StringMap Config)}
    (h : buildConfigs ord products targets targetFiles paths configs = .error text) :
    ∃ path ∈ paths, buildConfig ord products targets targetFiles path = .error text := by
  induction paths generalizing configs with
  | nil => cases h
  | cons path rest ih =>
    rw [buildConfigs] at h
    split at h
    · rename_i hb
      cases h
      exact ⟨path, by simp, hb⟩
    · obtain ⟨path', hpath', hb⟩ := ih h
      exact ⟨path', List.mem_cons_of_mem _ hpath', hb⟩

/-! ## How an exchange leaves the error -/

section Exchange

variable {deps : Deps} {id : Bytes} {c c' : Client σ} {x : Exchange σ}

/-- What `process_response` leaves in `last_poll_error_`. -/
theorem processResponse_lastPollError {ord : IterOrder} {response : GetConfigsResponse}
    {w w' : σ} {accepted : Bool}
    (h : processResponse ord response c w = (.ok accepted, c', w')) :
    (accepted = true ∧ c'.lastPollError = c.lastPollError) ∨
    (accepted = false ∧ ∃ targets path, response.targets = some targets ∧
      path ∈ response.clientConfigs ∧
      buildConfig ord c.products targets response.targetFiles path =
        .error c'.lastPollError) := by
  cases accepted with
  | true =>
    refine Or.inl ⟨rfl, ?_⟩
    rcases processResponse_ok_true h with
      ⟨_, rfl, _⟩ | ⟨targets, configs, w₁, products, w₂, _, _, _, _, _, rfl⟩
    · rfl
    · rfl
  | false =>
    refine Or.inr ⟨rfl, ?_⟩
    have hrejected := (processResponse_eq_false_iff response c w).mp (congrArg Prod.fst h)
    obtain ⟨targets, htargets, text, hb⟩ := hrejected
    simp only [processResponse, htargets, hb] at h
    cases h
    obtain ⟨path, hpath, htext⟩ := buildConfigs_text hb
    exact ⟨targets, path, htargets, hpath, htext⟩

/-- **An exchange, seen from `last_poll_error_`**: the body does not parse
and nothing changes; or the response is accepted and the field is empty; or
it is rejected and the field has the text. -/
theorem exchange_cases (h : c.exchange deps id x = some c') :
    (∃ result, parse deps x.body = .error (.parserException result) ∧ c' = c) ∨
    ∃ response, parse deps x.body = .ok response ∧
      ((processResponse x.order response { c with lastPollError := [] } x.world).1 = .ok true ∧
          c'.lastPollError = [] ∨
        (processResponse x.order response { c with lastPollError := [] } x.world).1 = .ok false ∧
          ∃ targets path, response.targets = some targets ∧ path ∈ response.clientConfigs ∧
            buildConfig x.order c.products targets response.targetFiles path =
              .error c'.lastPollError) := by
  simp only [Client.exchange, Client.poll, Client.receive] at h
  cases hparse : parse deps x.body with
  | error e =>
    rw [hparse] at h
    cases e with
    | assertion => cases h
    | parserException result =>
      cases h
      exact Or.inl ⟨result, rfl, rfl⟩
  | ok response =>
    rw [hparse] at h
    refine Or.inr ⟨response, rfl, ?_⟩
    cases hprocess : processResponse x.order response { c with lastPollError := [] } x.world with
    | mk r cw =>
      obtain ⟨c₁, w₁⟩ := cw
      simp only [hprocess] at h
      cases r with
      | error e => cases h
      | ok accepted =>
        cases h
        rcases processResponse_lastPollError hprocess with ⟨rfl, herror⟩ | ⟨rfl, htext⟩
        · exact Or.inl ⟨rfl, herror⟩
        · exact Or.inr ⟨rfl, htext⟩

/-- The texts that can be in the field: none, or one about a path. -/
def Client.ErrorText (c : Client σ) : Prop := c.lastPollError = [] ∨ 32 ∈ c.lastPollError

theorem exchange_errorText (h : c.exchange deps id x = some c') (hc : c.ErrorText) :
    c'.ErrorText := by
  rcases exchange_cases h with ⟨_, _, rfl⟩ | ⟨_, _, ⟨_, herror⟩ | ⟨_, _, _, _, _, htext⟩⟩
  · exact hc
  · exact Or.inl herror
  · exact Or.inr (buildConfig_text htext)

theorem hasError_iff (next : Exchange σ) :
    (next.request id c).client.clientState.hasError = true ↔ c.lastPollError ≠ [] := by
  show (!c.lastPollError.isEmpty) = true ↔ _
  simp

/-- A body that parses: the field tells how the response was processed. -/
theorem TellsOf.of_parsed (h : c.exchange deps id x = some c') {response : GetConfigsResponse}
    (hparse : parse deps x.body = .ok response) (next : Exchange σ) :
    TellsOf deps c x (next.request id c') := by
  rcases exchange_cases h with ⟨_, hbad, _⟩ | ⟨response', hparse', hrest⟩
  · rw [hparse] at hbad
    cases hbad
  · rw [hparse] at hparse'
    cases hparse'
    rcases hrest with ⟨haccepted, herror⟩ | ⟨hrejected, targets, path, htargets, hpath, htext⟩
    · -- accepted: nothing to report
      have hnot : ¬ Rejected deps c x := by
        rintro (⟨_, hbad⟩ | ⟨_, hparse', hfalse⟩)
        · rw [hparse] at hbad
          cases hbad
        · rw [hparse] at hparse'
          cases hparse'
          rw [haccepted] at hfalse
          cases hfalse
      refine ⟨?_, fun hr => absurd hr hnot⟩
      rw [hasError_iff]
      exact iff_of_false (fun hne => hne herror) hnot
    · have hne : c'.lastPollError ≠ [] := List.ne_nil_of_mem (buildConfig_text htext)
      refine ⟨?_, fun _ => ⟨hne, .unacceptable response targets path _ hparse htargets hpath
        htext⟩⟩
      rw [hasError_iff]
      exact iff_of_true hne (Or.inr ⟨response, hparse, hrejected⟩)

/-- A body that does not parse: the field is what it was, and that is about
no such body. -/
theorem not_tellsOf_of_unparsed (h : c.exchange deps id x = some c') (hc : c.ErrorText)
    {result : ParserResult} (hparse : parse deps x.body = .error (.parserException result))
    (next : Exchange σ) : ¬ TellsOf deps c x (next.request id c') := by
  intro htells
  have hrejected : Rejected deps c x := Or.inl ⟨result, hparse⟩
  obtain ⟨hne, hdescribes⟩ := htells.describes hrejected
  have hsame : c' = c := by
    rcases exchange_cases h with ⟨_, _, hsame⟩ | ⟨_, hparse', _⟩
    · exact hsame
    · rw [hparse] at hparse'
      cases hparse'
  have hblank : 32 ∈ c'.lastPollError := by
    rcases exchange_errorText h hc with hempty | hblank
    · exact absurd hempty hne
    · exact hblank
  change Describes deps c x c'.lastPollError at hdescribes
  generalize c'.lastPollError = text at hdescribes hblank
  cases hdescribes with
  | unparsable result' _ => exact result'.toStr_blank hblank
  | unacceptable response _ _ _ hparse' _ _ _ =>
    rw [hparse] at hparse'
    cases hparse'

theorem new_errorText (listeners : List (Listener σ)) : (Client.new listeners).ErrorText := by
  refine Or.inl ?_
  have hinner : ∀ (l : Listener σ) (sp : List (Bytes × BitVec 16)) (c : Client σ),
      (sp.foldl (Client.register l) c).lastPollError = c.lastPollError := by
    intro l sp
    induction sp with
    | nil => exact fun c => rfl
    | cons s sp ih => exact fun c => ih (Client.register l c s)
  have houter : ∀ (ls : List (Listener σ)) (c : Client σ),
      (ls.foldl (fun c l => l.supportedProducts.foldl (Client.register l) c) c).lastPollError =
        c.lastPollError := by
    intro ls
    induction ls with
    | nil => exact fun c => rfl
    | cons l ls ih => exact fun c => (ih _).trans (hinner l l.supportedProducts c)
  exact houter listeners _

end Exchange

/-- **A request tells how the last poll ended exactly when the body of that
poll parses.** In every run of polls that receive a body, for each of them
and whatever the request after it is sent for. -/
theorem error_reported_iff_parses (deps : Deps) (id : Bytes) (listeners : List (Listener σ))
    (exchanges : List (Exchange σ)) :
    Throughout (Client.exchange deps id)
      (fun c x c' => ∀ next : Exchange σ, TellsOf deps c x (next.request id c') ↔
        ∃ response, parse deps x.body = .ok response)
      (Client.new listeners) exchanges := by
  refine throughout_of_invariant (C := fun _ _ => True) Client.ErrorText ?_
    (new_errorText listeners) (along_true _ _)
  intro c x c' hc _ h
  refine ⟨exchange_errorText h hc, fun next => ?_⟩
  constructor
  · intro htells
    rcases exchange_cases h with ⟨result, hparse, _⟩ | ⟨response, hparse, _⟩
    · exact absurd htells (not_tellsOf_of_unparsed h hc hparse next)
    · exact ⟨response, hparse⟩
  · rintro ⟨response, hparse⟩
    exact TellsOf.of_parsed h hparse next

/-- A decoder and a parser that know no document. -/
def blankDeps : Deps := Deps.ofTables [] []

/-- A poll that receives something which is not JSON. -/
def garbled : Exchange Unit := ⟨IterOrder.sorted, plainTracer, "x", ()⟩

/-- **A garbled body is not reported**: it is rejected, and the next request
of the client has no error. -/
theorem garbled_not_reported :
    ∃ c', freshClient.exchange blankDeps "me" garbled = some c' ∧
      Rejected blankDeps freshClient garbled ∧
      (garbled.request "me" c').client.clientState.hasError = false ∧
      ¬ TellsOf blankDeps freshClient garbled (garbled.request "me" c') := by
  have hrejected : Rejected blankDeps freshClient garbled := Or.inl ⟨.invalidJson, rfl⟩
  have hquiet : (garbled.request "me" freshClient).client.clientState.hasError = false := rfl
  refine ⟨freshClient, rfl, hrejected, hquiet, fun htells => ?_⟩
  rw [htells.hasError.mpr hrejected] at hquiet
  cases hquiet

end DdAppsec.Helper.RemoteConfig
