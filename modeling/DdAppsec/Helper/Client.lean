import DdAppsec.Helper.Engine

/-!
# Helper — the client of one connection

`Client` is the helper's side of one connection to the extension. A message
goes through `handleMessage`: receive, dispatch to the handler of its
command, and turn every failure into an error response, a closed connection
or both. `runRequest` picks the commands that are acceptable at the moment,
which depends on `request_enabled_`.

What the client does not decide is in `Env`, one for each message: how the
message arrives, what the status of the service is at that moment, what the
engine finds and whether the response can be written.

Engine contexts have an IDENTITY here, so that it can be said which context
a piece of data went to: `Event.created` and `Event.published`.
-/

namespace DdAppsec.Helper

open Lib

/-! ## Messages -/

/-- `request_id`. -/
inductive RequestId where
  | unknown | clientInit | requestInit | requestExec | requestShutdown | configSync
  deriving DecidableEq, Repr

/-- A decoded request of the request phase. A body whose arguments do not
convert leaves the default argument, an invalid parameter. -/
structure Request where
  id : RequestId
  data : Parameter

/-- What `broker::recv` does: it returns a request or throws. -/
inductive Received where
  | request (r : Request)
  /-- `client_disconnect` -/
  | disconnect
  /-- `std::out_of_range`: the body was too large and has been discarded -/
  | tooLarge
  /-- `std::length_error`: the message was received in part -/
  | partialMessage
  /-- `dds::bad_cast` -/
  | badCast
  /-- `msgpack::unpack_error` -/
  | unpackError
  /-- any other `std::exception`, such as `msgpack::type_error` -/
  | exception

inductive Verdict where
  | ok | record | block | redirect
  deriving DecidableEq, Repr

/-- The fields common to the three request responses. `force_keep` has no
initial value and is only written together with a result. -/
structure Analysis where
  verdict : Verdict
  parameters : StringMap Bytes
  triggers : List Bytes
  forceKeep : Option Bool

inductive Response where
  | requestInit (a : Analysis)
  | requestExec (a : Analysis)
  | requestShutdown (a : Analysis) (tags : StringMap Bytes) (metrics : StringMap UInt64)
  | configSync
  | configFeatures (enabled : Bool)
  | error

/-- `broker::send`. -/
inductive SendOutcome where
  | sent | failed | threw
  deriving DecidableEq, Repr

/-- What the environment decides while one message is handled. -/
structure Env where
  /-- the status of the service's configuration -/
  status : EnableAsmStatus
  /-- what publishing a map to the context returns -/
  result : Option EngineResult
  /-- whether the schema sampler picks this request -/
  sampled : Bool
  /-- what `get_meta_and_metrics` adds to the response -/
  tags : StringMap Bytes
  metrics : StringMap UInt64
  send : SendOutcome

/-! ## The client -/

/-- What happened to engine contexts. -/
inductive Event where
  | created (context : Nat)
  | published (context : Nat) (data : Parameter)

/-- The fields of `dds::client` that its handlers use. `service` and
`context` are identities; `nextContext` is the next fresh one. -/
structure Client where
  service : Option Nat
  clientEnabledConf : Option Bool
  requestEnabled : Bool
  context : Option Nat
  nextContext : Nat

/-- The effect of a message: the client afterwards, whether the connection
is kept, the response given to the broker, and what happened to contexts. -/
structure Outcome where
  client : Client
  keep : Bool
  response : Option Response
  events : List Event

/-- `client::compute_client_status`; the returned value is the new
`request_enabled_`. -/
def Client.computeClientStatus (status : EnableAsmStatus) (c : Client) : Client :=
  match c.clientEnabledConf with
  | some enabled => { c with requestEnabled := enabled }
  | none =>
    match c.service with
    | none => { c with requestEnabled := false }
    | some _ => { c with requestEnabled := decide (status = .enabled) }

/-- `send_error_response` followed by `return false`. -/
def Client.refuse (c : Client) (events : List Event) : Outcome :=
  ⟨c, false, some .error, events⟩

/-- The response built from what the engine returned. -/
def analysisOf : Option EngineResult → Analysis
  | none => ⟨.ok, ∅, [], none⟩
  | some r =>
    match r.type with
    | .block => ⟨.block, r.parameters, r.events, some r.forceKeep⟩
    | .redirect => ⟨.redirect, r.parameters, r.events, some r.forceKeep⟩
    | .record => ⟨.record, ∅, r.events, some r.forceKeep⟩

/-- `broker_->send(response)` as the last thing a handler does. -/
def Client.reply (env : Env) (c : Client) (response : Response) (events : List Event) :
    Outcome :=
  ⟨c, decide (env.send = .sent), some response, events⟩

/-- A fresh `engine::context` in `context_`. -/
def Client.newContext (c : Client) : Client × Nat :=
  ({ c with context := some c.nextContext, nextContext := c.nextContext + 1 }, c.nextContext)

/-- `context_`, created if there is none. -/
def Client.ensureContext (c : Client) : Client × Nat × List Event :=
  match c.context with
  | some context => (c, context, [])
  | none =>
    let (c', context) := c.newContext
    (c', context, [.created context])

/-- The context in use, and where it comes from. -/
theorem Client.ensureContext_events (c : Client) :
    c.ensureContext.1.context = some c.ensureContext.2.1 ∧
      (Event.created c.ensureContext.2.1 ∈ c.ensureContext.2.2 ∨
        c.context = some c.ensureContext.2.1) := by
  unfold Client.ensureContext
  cases h : c.context with
  | none => exact ⟨rfl, Or.inl (by simp [Client.newContext])⟩
  | some context => exact ⟨h, Or.inr rfl⟩

theorem Client.ensureContext_keeps (c : Client) :
    c.ensureContext.1.service = c.service ∧
      c.ensureContext.1.clientEnabledConf = c.clientEnabledConf ∧
      c.ensureContext.1.requestEnabled = c.requestEnabled := by
  unfold Client.ensureContext
  split <;> exact ⟨rfl, rfl, rfl⟩

/-- `handle_command(request_init)`. The answer to a disabled client keeps
the connection even when writing it throws. -/
def Client.requestInit (env : Env) (data : Parameter) (c : Client) : Outcome :=
  if c.service = none then c.refuse []
  else
    let c := c.computeClientStatus env.status
    if !c.requestEnabled then
      ⟨c, decide (env.send ≠ .failed), some (.configFeatures false), []⟩
    else
      -- the context is replaced before `publish` looks at the data
      let (c, context) := c.newContext
      let events := [.created context, .published context data]
      if data.isMap then c.reply env (.requestInit (analysisOf env.result)) events
      else c.refuse events

/-- `handle_command(request_exec)`. -/
def Client.requestExec (env : Env) (data : Parameter) (c : Client) : Outcome :=
  if c.context = none ∧ c.service = none then c.refuse []
  else
    let (c, context, created) := c.ensureContext
    let events := created ++ [.published context data]
    if data.isMap then c.reply env (.requestExec (analysisOf env.result)) events
    else c.refuse events

/-- `handle_command(config_sync)`. -/
def Client.configSync (env : Env) (c : Client) : Outcome :=
  if c.service = none then c.refuse []
  else
    let c := c.computeClientStatus env.status
    if c.requestEnabled then
      ⟨c, decide (env.send ≠ .failed), some (.configFeatures true), []⟩
    else c.reply env .configSync []

/-- The sampled request carries one more address. -/
def addContextProcessor (data : Parameter) : Parameter :=
  match data with
  | .map entries =>
    let processor : Parameter := .map [("extract-schema", .boolean true)]
    .map (entries ++ [(Bytes.ofString "waf.context.processor", processor)])
  | p => p

def maxPlainSchemaAllowed : Nat := 260

/-- The schemas of a result as tags. A long one goes through `encode`, that
is `compress` and `base64_encode`; it stays plain if compressing fails. -/
def schemaTags (encode : Bytes → Option Bytes) (schemas : StringMap Bytes) : StringMap Bytes :=
  (IterOrder.sorted.entries schemas).foldl (fun tags kv =>
    tags.insertIfNew kv.1
      (if maxPlainSchemaAllowed < kv.2.length then (encode kv.2).getD kv.2 else kv.2)) ∅

/-- `meta[key] = value` for every tag of the listeners. -/
def assignTags (tags more : StringMap Bytes) : StringMap Bytes :=
  (IterOrder.sorted.entries more).foldl (fun acc kv => acc.insert kv.1 kv.2) tags

/-- `handle_command(request_shutdown)`: the context is freed at the end,
whatever happened. -/
def Client.requestShutdown (encode : Bytes → Option Bytes) (env : Env) (data : Parameter)
    (c : Client) : Outcome :=
  if c.context = none ∧ c.service = none then c.refuse []
  else
    let (c, context, created) := c.ensureContext
    let data := if env.sampled then addContextProcessor data else data
    let events := created ++ [.published context data]
    let c := { c with context := none }
    if data.isMap then
      let schemas := (env.result.map fun r => schemaTags encode r.schemas).getD ∅
      c.reply env (.requestShutdown (analysisOf env.result) (assignTags schemas env.tags)
        env.metrics) events
    else c.refuse events

/-! ## One message -/

/-- Dispatch to the handler of a command. -/
def Client.handleCommand (encode : Bytes → Option Bytes) (env : Env) (r : Request) (c : Client) :
    Outcome :=
  match r.id with
  | .requestInit => c.requestInit env r.data
  | .requestExec => c.requestExec env r.data
  | .requestShutdown => c.requestShutdown encode env r.data
  | .configSync => c.configSync env
  | .clientInit | .unknown => ⟨c, false, none, []⟩

/-- The end of `handle_message` when an error response is due: without it
the connection ends, with it the status is computed again. -/
def Client.sendError (env : Env) (keep : Bool) (c : Client) : Outcome :=
  if env.send ≠ .sent then ⟨c, false, some .error, []⟩
  else if keep then ⟨c.computeClientStatus env.status, true, some .error, []⟩
  else ⟨c, false, some .error, []⟩

/-- `handle_message` for the commands in `allowed`. -/
def Client.handleMessage (encode : Bytes → Option Bytes) (allowed : List RequestId)
    (ignoreUnexpected : Bool) (env : Env) (received : Received) (c : Client) : Outcome :=
  match received with
  | .request r =>
    if r.id ∈ allowed then c.handleCommand encode env r
    else c.sendError env ignoreUnexpected
  | .disconnect => ⟨c, false, none, []⟩
  | .tooLarge => c.sendError env true
  | .partialMessage => c.sendError env false
  | .badCast => c.sendError env true
  | .unpackError => c.sendError env true
  | .exception => ⟨c, false, none, []⟩

/-- `client::run_request`. -/
def Client.runRequest (encode : Bytes → Option Bytes) (env : Env) (received : Received)
    (c : Client) : Outcome :=
  if !c.requestEnabled then
    c.handleMessage encode [.requestInit, .configSync] true env received
  else
    c.handleMessage encode [.requestInit, .requestExec, .configSync, .requestShutdown] true
      env received

end DdAppsec.Helper
