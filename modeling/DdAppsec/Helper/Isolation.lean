import DdAppsec.Helper.Client
import DdAppsec.Lib.Runs

/-!
# Helper — which context the data of a request goes to

One connection serves PHP requests one after the other: a `request_init`,
any number of `request_exec`, a `request_shutdown`, perhaps a `config_sync`
before. Each message may arrive in any of the ways `Arrival` lists. The
purpose of `context_` is that data of a request is published to a context
created for THAT request (`Isolated`).

`context_` is created in three handlers and reset in one. A message that
fails before dispatch reaches none of them while the connection stays open,
so a context can outlive its request, and a later request whose own
`request_init` creates none is then served with it. `Clean` is the condition
on a request that rules this out; `requests_isolated` is the run theorem.
-/

namespace DdAppsec.Helper

open Lib

/-! ## Requests over a connection -/

/-- How a message the extension sent reaches the helper. -/
inductive Arrival where
  | decoded (data : Parameter)
  | disconnect | tooLarge | partialMessage | badCast | unpackError | exception

def Arrival.received (id : RequestId) : Arrival → Received
  | .decoded data => .request ⟨id, data⟩
  | .disconnect => .disconnect
  | .tooLarge => .tooLarge
  | .partialMessage => .partialMessage
  | .badCast => .badCast
  | .unpackError => .unpackError
  | .exception => .exception

structure Message where
  id : RequestId
  arrival : Arrival
  env : Env

structure PhpRequest where
  sync : Option (Arrival × Env)
  init : Arrival × Env
  execs : List (Arrival × Env)
  shutdown : Arrival × Env

/-- The messages after `request_init`. -/
def PhpRequest.later (req : PhpRequest) : List Message :=
  req.execs.map (fun d => ⟨.requestExec, d.1, d.2⟩) ++
    [⟨.requestShutdown, req.shutdown.1, req.shutdown.2⟩]

def PhpRequest.messages (req : PhpRequest) : List Message :=
  (req.sync.map fun d => (⟨.configSync, d.1, d.2⟩ : Message)).toList ++
    ⟨.requestInit, req.init.1, req.init.2⟩ :: req.later

/-- The client after some messages, whether the connection is still open,
and what happened to contexts. -/
def serveMessages (encode : Bytes → Option Bytes) :
    List Message → Client → Client × Bool × List Event
  | [], c => (c, true, [])
  | m :: rest, c =>
    let out := c.runRequest encode m.env (m.arrival.received m.id)
    if out.keep then
      let (c', isOpen, events) := serveMessages encode rest out.client
      (c', isOpen, out.events ++ events)
    else (out.client, false, out.events)

/-- A connection, with what the last request did to contexts. -/
structure Connection where
  client : Client
  isOpen : Bool
  events : List Event

/-- One PHP request; `none` once the connection is closed. -/
def serveRequest (encode : Bytes → Option Bytes) (conn : Connection) (req : PhpRequest) :
    Option Connection :=
  if conn.isOpen then
    let (c, isOpen, events) := serveMessages encode req.messages conn.client
    some ⟨c, isOpen, events⟩
  else none

/-- A connection after a successful `client_init`. -/
def Connection.start (service : Nat) (clientEnabledConf : Option Bool) : Connection :=
  ⟨⟨some service, clientEnabledConf, false, none, 0⟩, true, []⟩

/-! ## The property and the condition -/

/-- **Isolation**: whatever was published while serving a request was
published to a context created while serving it. -/
def Isolated (_ : Connection) (_ : PhpRequest) (conn' : Connection) : Prop :=
  ∀ context data, Event.published context data ∈ conn'.events →
    Event.created context ∈ conn'.events

/-- `request_enabled_` as the client would compute it. -/
def Client.enabledBy (c : Client) (status : EnableAsmStatus) : Bool :=
  (c.computeClientStatus status).requestEnabled

/-- Whether a `request_exec` or a `request_shutdown` reaches its handler
before a `request_init` has been accepted, that is decoded while ASM is
enabled. `enabled` is the current `request_enabled_`. A message that is not
handled is answered with an error and the status is computed again. -/
def handledBeforeInit (enabledBy : EnableAsmStatus → Bool) : Bool → List Message → Bool
  | _, [] => false
  | enabled, m :: rest =>
    let now := enabledBy m.env.status
    match m.arrival with
    | .decoded _ =>
      match m.id with
      | .requestExec | .requestShutdown =>
        enabled || (decide (m.env.send = .sent) && handledBeforeInit enabledBy now rest)
      | .requestInit =>
        !now && decide (m.env.send ≠ .failed) && handledBeforeInit enabledBy now rest
      | .configSync =>
        decide (m.env.send = .sent ∨ (now ∧ m.env.send ≠ .failed)) &&
          handledBeforeInit enabledBy now rest
      | .clientInit | .unknown =>
        decide (m.env.send = .sent) && handledBeforeInit enabledBy now rest
    | .tooLarge | .badCast | .unpackError =>
      decide (m.env.send = .sent) && handledBeforeInit enabledBy now rest
    | .disconnect | .partialMessage | .exception => false

/-- The condition on one request: no context is left over from an earlier
one, or none of its data is handled before its own `request_init` has
replaced the context. -/
def Clean (conn : Connection) (req : PhpRequest) : Prop :=
  conn.client.context = none ∨
    handledBeforeInit conn.client.enabledBy conn.client.requestEnabled req.messages = false

/-! ## One message -/

/-- `c'` differs from `c` in `request_enabled_` only. -/
def SameButEnabled (c c' : Client) : Prop :=
  c' = { c with requestEnabled := c'.requestEnabled }

theorem computeClientStatus_same (c : Client) (status : EnableAsmStatus) :
    SameButEnabled c (c.computeClientStatus status) := by
  unfold SameButEnabled Client.computeClientStatus
  split
  · rfl
  · split <;> rfl

/-- Where the contexts of a message's events come from: created by it, or
in `context_` before. -/
structure EventsFrom (c : Client) (out : Outcome) : Prop where
  published : ∀ context data, Event.published context data ∈ out.events →
    Event.created context ∈ out.events ∨ c.context = some context
  context : ∀ context, out.client.context = some context →
    Event.created context ∈ out.events ∨ c.context = some context

theorem EventsFrom.quiet {c : Client} {out : Outcome} (he : out.events = [])
    (hc : out.client.context = c.context) : EventsFrom c out where
  published := by simp [he]
  context := fun context h => Or.inr (hc ▸ h)

theorem sendError_quiet (c : Client) (env : Env) (keep : Bool) :
    (c.sendError env keep).events = [] ∧
      SameButEnabled c (c.sendError env keep).client := by
  unfold Client.sendError
  split
  · exact ⟨rfl, rfl⟩
  · split
    · exact ⟨rfl, computeClientStatus_same c env.status⟩
    · exact ⟨rfl, rfl⟩

theorem requestInit_events (c : Client) (env : Env) (data : Parameter) :
    EventsFrom c (c.requestInit env data) := by
  have hsame := computeClientStatus_same c env.status
  unfold Client.requestInit
  split
  · exact .quiet rfl rfl
  · dsimp only
    split
    · refine .quiet rfl ?_
      rw [hsame]
    · split
      · constructor <;> simp [Client.newContext, Client.reply]
      · constructor <;> simp [Client.newContext, Client.refuse]

/-- A handler that publishes to the context it ensured, whatever it does
with the context afterwards. -/
theorem EventsFrom.published_to {c : Client} {out : Outcome} {data : Parameter}
    (he : out.events = c.ensureContext.2.2 ++ [.published c.ensureContext.2.1 data])
    (hc : out.client.context = none ∨
      out.client.context = c.ensureContext.1.context) : EventsFrom c out := by
  obtain ⟨hctx, hfrom⟩ := c.ensureContext_events
  have hmem : Event.created c.ensureContext.2.1 ∈ out.events ∨
      c.context = some c.ensureContext.2.1 := by
    rw [he]
    exact hfrom.imp_left (List.mem_append_left _)
  constructor
  · intro context d hp
    rw [he, List.mem_append, List.mem_singleton] at hp
    rcases hp with hp | hp
    · -- ensuring a context publishes nothing
      unfold Client.ensureContext at hp
      split at hp <;> simp at hp
    · cases hp
      exact hmem
  · intro context h
    rcases hc with hc | hc
    · simp [hc] at h
    · rw [hc, hctx] at h
      cases h
      exact hmem

theorem requestExec_events (c : Client) (env : Env) (data : Parameter) :
    EventsFrom c (c.requestExec env data) := by
  unfold Client.requestExec
  split
  · exact .quiet rfl rfl
  · dsimp only
    split
    · exact .published_to rfl (Or.inr rfl)
    · exact .published_to rfl (Or.inr rfl)

theorem requestShutdown_events (encode : Bytes → Option Bytes) (c : Client) (env : Env)
    (data : Parameter) : EventsFrom c (c.requestShutdown encode env data) := by
  unfold Client.requestShutdown
  split
  · exact .quiet rfl rfl
  · dsimp only
    generalize (if env.sampled = true then addContextProcessor data else data) = data
    split
    · exact .published_to rfl (Or.inl rfl)
    · exact .published_to rfl (Or.inl rfl)

theorem configSync_quiet (c : Client) (env : Env) :
    (c.configSync env).events = [] ∧ SameButEnabled c (c.configSync env).client := by
  unfold Client.configSync
  split
  · exact ⟨rfl, rfl⟩
  · dsimp only
    split
    · exact ⟨rfl, computeClientStatus_same c env.status⟩
    · exact ⟨rfl, computeClientStatus_same c env.status⟩

theorem EventsFrom.same {c : Client} {out : Outcome}
    (h : out.events = [] ∧ SameButEnabled c out.client) : EventsFrom c out := by
  refine .quiet h.1 ?_
  rw [h.2]

theorem handleMessage_events (encode : Bytes → Option Bytes) (allowed : List RequestId)
    (env : Env) (received : Received) (c : Client) :
    EventsFrom c (c.handleMessage encode allowed true env received) := by
  unfold Client.handleMessage
  split
  · split
    · unfold Client.handleCommand
      split
      · exact requestInit_events c env _
      · exact requestExec_events c env _
      · exact requestShutdown_events encode c env _
      · exact .same (configSync_quiet c env)
      · exact .quiet rfl rfl
      · exact .quiet rfl rfl
    · exact .same (sendError_quiet c env true)
  · exact .quiet rfl rfl
  · exact .same (sendError_quiet c env true)
  · exact .same (sendError_quiet c env false)
  · exact .same (sendError_quiet c env true)
  · exact .same (sendError_quiet c env true)
  · exact .quiet rfl rfl

theorem runRequest_events (encode : Bytes → Option Bytes) (env : Env) (received : Received)
    (c : Client) : EventsFrom c (c.runRequest encode env received) := by
  unfold Client.runRequest
  split
  · exact handleMessage_events encode _ env received c
  · exact handleMessage_events encode _ env received c

/-! ## The messages of a request -/

/-- **Run lemma**: when `context_` is one of `own` at the start, everything
published goes to one of `own` or to a context created on the way. -/
theorem serveMessages_events (encode : Bytes → Option Bytes) (ms : List Message) :
    ∀ (own : Nat → Prop) (c : Client), (∀ k, c.context = some k → own k) →
      ∀ k data, Event.published k data ∈ (serveMessages encode ms c).2.2 →
        own k ∨ Event.created k ∈ (serveMessages encode ms c).2.2 := by
  induction ms with
  | nil =>
    intro own c _ k data h
    simp [serveMessages] at h
  | cons m rest ih =>
    intro own c hown k data h
    have hfrom := runRequest_events encode m.env (m.arrival.received m.id) c
    rw [serveMessages] at h ⊢
    dsimp only at h ⊢
    split at h
    case isFalse hkeep =>
      rw [if_neg hkeep]
      rcases hfrom.published k data h with h' | h'
      · exact Or.inr h'
      · exact Or.inl (hown k h')
    case isTrue hkeep =>
      rw [if_pos hkeep]
      simp only [List.mem_append] at h ⊢
      rcases h with h | h
      · rcases hfrom.published k data h with h' | h'
        · exact Or.inr (Or.inl h')
        · exact Or.inl (hown k h')
      · -- what this message created joins `own` for the rest
        let own' (k : Nat) : Prop := own k ∨
          Event.created k ∈ (c.runRequest encode m.env (m.arrival.received m.id)).events
        have hown' : ∀ k, (c.runRequest encode m.env (m.arrival.received m.id)).client.context
            = some k → own' k := by
          intro k hk
          rcases hfrom.context k hk with h' | h'
          · exact Or.inr h'
          · exact Or.inl (hown k h')
        rcases ih own' _ hown' k data h with (h' | h') | h'
        · exact Or.inl h'
        · exact Or.inr (Or.inl h')
        · exact Or.inr (Or.inr h')

/-- A message that leaves contexts alone, after which the same holds of the
rest. -/
def PassesBy (c : Client) (rest : List Message) (out : Outcome) : Prop :=
  out.events = [] ∧ SameButEnabled c out.client ∧
    (out.keep = true →
      handledBeforeInit c.enabledBy out.client.requestEnabled rest = false)

/-- A message that starts a context and publishes to it. -/
def Renews (out : Outcome) : Prop :=
  ∃ k data, out.events = [.created k, .published k data] ∧ out.client.context = some k

theorem sendError_passesBy (c : Client) (env : Env) {rest : List Message} (keep : Bool)
    (h : env.send = .sent →
      handledBeforeInit c.enabledBy (c.enabledBy env.status) rest = false) :
    PassesBy c rest (c.sendError env keep) := by
  obtain ⟨he, hsame⟩ := sendError_quiet c env keep
  refine ⟨he, hsame, fun hkeep => ?_⟩
  unfold Client.sendError at hkeep ⊢
  split at hkeep
  · simp at hkeep
  · rename_i hsent
    split at hkeep
    · rename_i hk
      rw [if_neg hsent, if_pos hk]
      exact h (not_not.mp hsent)
    · simp at hkeep

theorem configSync_passesBy (c : Client) (env : Env) {rest : List Message}
    (h : env.send = .sent ∨ (c.enabledBy env.status = true ∧ env.send ≠ .failed) →
      handledBeforeInit c.enabledBy (c.enabledBy env.status) rest = false) :
    PassesBy c rest (c.configSync env) := by
  obtain ⟨he, hsame⟩ := configSync_quiet c env
  refine ⟨he, hsame, fun hkeep => ?_⟩
  unfold Client.configSync at hkeep ⊢
  split at hkeep
  · simp [Client.refuse] at hkeep
  · rename_i hservice
    rw [if_neg hservice]
    dsimp only at hkeep ⊢
    split at hkeep
    · rename_i hnow
      rw [if_pos hnow]
      exact h (Or.inr ⟨hnow, of_decide_eq_true hkeep⟩)
    · rename_i hnow
      rw [if_neg hnow]
      exact h (Or.inl (of_decide_eq_true hkeep))

theorem requestInit_passesBy_or_renews (c : Client) (env : Env) (data : Parameter)
    {rest : List Message}
    (h : c.enabledBy env.status = false → env.send ≠ .failed →
      handledBeforeInit c.enabledBy (c.enabledBy env.status) rest = false) :
    PassesBy c rest (c.requestInit env data) ∨ Renews (c.requestInit env data) := by
  unfold Client.requestInit
  split
  · refine Or.inl ⟨rfl, rfl, ?_⟩
    simp [Client.refuse]
  · dsimp only
    split
    · rename_i hnow
      refine Or.inl ⟨rfl, computeClientStatus_same c env.status, fun hkeep => ?_⟩
      exact h (by simpa [Client.enabledBy] using hnow) (of_decide_eq_true hkeep)
    · split
      · exact Or.inr ⟨_, _, rfl, rfl⟩
      · exact Or.inr ⟨_, _, rfl, rfl⟩

/-- **Step lemma** before the request's own context exists. -/
theorem runRequest_beforeInit (encode : Bytes → Option Bytes) {c : Client} {m : Message}
    {rest : List Message}
    (h : handledBeforeInit c.enabledBy c.requestEnabled (m :: rest) = false) :
    PassesBy c rest (c.runRequest encode m.env (m.arrival.received m.id)) ∨
      Renews (c.runRequest encode m.env (m.arrival.received m.id)) := by
  obtain ⟨id, arrival, env⟩ := m
  unfold handledBeforeInit at h
  unfold Client.runRequest Client.handleMessage
  cases arrival with
  | decoded data =>
    dsimp only [Arrival.received] at h ⊢
    cases id with
    | unknown | clientInit =>
      have hpass := sendError_passesBy c env true (by simpa using h)
      left
      split <;> simpa using hpass
    | requestInit =>
      have hinit := requestInit_passesBy_or_renews c env data (by simpa using h)
      split <;> simpa [Client.handleCommand] using hinit
    | configSync =>
      have hsync := configSync_passesBy c env (by simpa using h)
      left
      split <;> simpa [Client.handleCommand] using hsync
    | requestExec | requestShutdown =>
      -- handled only while enabled, which the hypothesis excludes
      obtain ⟨henabled, hrest⟩ : c.requestEnabled = false ∧ (env.send = .sent →
          handledBeforeInit c.enabledBy (c.enabledBy env.status) rest = false) := by
        simpa using h
      left
      simpa [henabled] using sendError_passesBy c env true hrest
  | disconnect | exception =>
    left
    dsimp only [Arrival.received]
    split <;> exact ⟨rfl, rfl, by simp⟩
  | partialMessage =>
    left
    dsimp only [Arrival.received]
    have hclosed : (c.sendError env false).keep = false := by
      unfold Client.sendError
      split <;> rfl
    have hpass : PassesBy c rest (c.sendError env false) :=
      ⟨(sendError_quiet c env false).1, (sendError_quiet c env false).2, by simp [hclosed]⟩
    split <;> exact hpass
  | tooLarge | badCast | unpackError =>
    have hpass := sendError_passesBy c env true (by simpa using h)
    left
    dsimp only [Arrival.received]
    split <;> exact hpass

theorem SameButEnabled.enabledBy {c c' : Client} (h : SameButEnabled c c') :
    c'.enabledBy = c.enabledBy := by
  funext status
  rw [h]
  rfl

/-- **Run lemma** before the request's own context exists: nothing is
published until it does, and then `serveMessages_events` takes over. -/
theorem serveMessages_beforeInit (encode : Bytes → Option Bytes) (ms : List Message) :
    ∀ c : Client, handledBeforeInit c.enabledBy c.requestEnabled ms = false →
      ∀ k data, Event.published k data ∈ (serveMessages encode ms c).2.2 →
        Event.created k ∈ (serveMessages encode ms c).2.2 := by
  induction ms with
  | nil =>
    intro c _ k data h
    simp [serveMessages] at h
  | cons m rest ih =>
    intro c hbefore k data h
    rw [serveMessages] at h ⊢
    dsimp only at h ⊢
    rcases runRequest_beforeInit encode hbefore with ⟨hquiet, hsame, hrest⟩ | ⟨k', d, he, hctx⟩
    · split at h
      case isFalse => simp [hquiet] at h
      case isTrue hkeep =>
        rw [if_pos hkeep]
        rw [hquiet, List.nil_append] at h ⊢
        have hbefore' := hrest hkeep
        rw [← hsame.enabledBy] at hbefore'
        exact ih _ hbefore' k data h
    · split at h
      case isFalse hkeep =>
        rw [if_neg hkeep]
        simp only [he, List.mem_cons, Event.published.injEq, List.not_mem_nil, or_false] at h ⊢
        grind
      case isTrue hkeep =>
        rw [if_pos hkeep]
        simp only [he, List.mem_append, List.mem_cons, List.not_mem_nil, or_false] at h ⊢
        rcases h with h | h
        · grind
        · have hown := serveMessages_events encode rest (fun i => i = k') _
            (fun i hi => by rw [hctx] at hi; exact (Option.some.inj hi).symm) k data h
          grind

/-! ## Every run -/

theorem serveRequest_isolated (encode : Bytes → Option Bytes) {conn conn' : Connection}
    {req : PhpRequest} (hclean : Clean conn req) (h : serveRequest encode conn req = some conn') :
    Isolated conn req conn' := by
  unfold serveRequest at h
  split at h
  · cases h
    intro k data hp
    rcases hclean with hnone | hbefore
    · rcases serveMessages_events encode req.messages (fun _ => False) conn.client
        (by simp [hnone]) k data hp with hfalse | hcreated
      · exact hfalse.elim
      · exact hcreated
    · exact serveMessages_beforeInit encode req.messages conn.client hbefore k data hp
  · simp at h

/-- **Isolation**: in every run of requests that are all `Clean`, data of a
request is published only to contexts created while serving it. -/
theorem requests_isolated (encode : Bytes → Option Bytes) (service : Nat)
    (clientEnabledConf : Option Bool) (reqs : List PhpRequest)
    (h : Along (serveRequest encode) Clean (Connection.start service clientEnabledConf) reqs) :
    Throughout (serveRequest encode) Isolated (Connection.start service clientEnabledConf)
      reqs := by
  refine throughout_of_invariant (C := Clean) (fun _ => True) ?_ trivial h
  intro conn req conn' _ hclean hstep
  exact ⟨trivial, serveRequest_isolated encode hclean hstep⟩

/-- An environment in which the status is `enabled`, the engine finds
nothing and responses can be written. -/
def Env.plain : Env := ⟨.enabled, none, false, ∅, ∅, .sent⟩

def PhpRequest.plain : PhpRequest :=
  ⟨none, (.decoded (.map []), .plain), [(.decoded (.map []), .plain)],
    (.decoded (.map []), .plain)⟩

theorem two_plain_requests_isolated :
    (serveRequest (fun _ => none) (Connection.start 0 none) .plain).map (·.events) =
      some [.created 0, .published 0 (.map []), .published 0 (.map []),
        .published 0 (.map [])] ∧
    Throughout (serveRequest fun _ => none) Isolated (Connection.start 0 none)
      [.plain, .plain] := by
  refine ⟨rfl, requests_isolated _ 0 none _ ⟨Or.inl rfl, fun conn h => ?_⟩⟩
  cases h
  exact ⟨Or.inl rfl, fun _ _ => trivial⟩

/-- The first request's `request_shutdown` is discarded as too large, so its
context stays; the second one's `request_init` is too large as well, and its
`request_exec` is then published to the first one's context. -/
theorem discarded_messages_share_context :
    ¬ Throughout (serveRequest fun _ => none) Isolated (Connection.start 0 none)
      [{ PhpRequest.plain with shutdown := (.tooLarge, .plain) },
        { PhpRequest.plain with init := (.tooLarge, .plain) }] := by
  intro h
  obtain ⟨_, h⟩ := h _ rfl
  obtain ⟨hisolated, _⟩ := h _ rfl
  have hcreated :
      Event.created 0 ∈ ([.published 0 (.map []), .published 0 (.map [])] : List Event) :=
    hisolated 0 (.map []) (List.mem_cons_self ..)
  simp at hcreated

end DdAppsec.Helper
