import DdAppsec.Helper.RemoteConfig.Poll
import DdAppsec.Helper.RemoteConfig.Survival

/-!
# RemoteConfig — the polling thread

`client_handler` runs one action at each tick: it looks for the agent's
remote config endpoint (`discover`) or polls it. A network error brings it
back to discovery and stretches the interval.

`tick` handles `network_exception` and nothing else; any other exception
ends the thread. What can be thrown comes from the listeners, through
`assign_configs`, which catches `error_applying_config` only.
`ticks_survive` says for which responses and files no exception gets
through and every product ends up with the configs of the response.
-/

namespace DdAppsec.Helper.RemoteConfig

open Lib

variable {σ : Type}

/-! ## client_handler -/

/-- `rc_action_`. -/
inductive RcAction where
  | discover | poll
  deriving DecidableEq, Repr

/-- `client_handler`; intervals are in milliseconds. `infinitePower` is a
history: `pow(2, errors_)` has been asked for a number no double holds. -/
structure ClientHandler (σ : Type) where
  client : Client σ
  pollInterval : Nat
  interval : Nat
  maxInterval : Nat
  action : RcAction
  errors : Nat
  infinitePower : Bool

/-- `default_max_interval`. -/
def defaultMaxInterval : Nat := 5 * 60 * 1000

def ClientHandler.new (client : Client σ) (pollInterval : Nat) : ClientHandler σ :=
  ⟨client, pollInterval, pollInterval, defaultMaxInterval, .discover, 0, false⟩

/-- `pow(2, errors)` as a double. -/
def powerOfTwo (errors : Nat) : Option Nat := if errors < 1024 then some (2 ^ errors) else none

/-- `client_handler::handle_error`. Where `pow` is infinite, the code converts what
may be a NaN and stores that; here the interval stays as it was, and behind an
`infinitePower` it is not the code's any more. -/
def ClientHandler.handleError (h : ClientHandler σ) : ClientHandler σ :=
  let errors := if h.errors < 2 ^ 16 - 1 - 1 then h.errors + 1 else h.errors
  let h := { h with action := .discover, errors := errors }
  if h.interval < h.maxInterval then
    match powerOfTwo errors with
    | some power => { h with interval := min h.maxInterval (h.pollInterval * power) }
    | none => { h with infinitePower := true }
  else h

theorem ClientHandler.handleError_client (h : ClientHandler σ) :
    h.handleError.client = h.client := by
  unfold ClientHandler.handleError
  dsimp only
  split
  · split
    · rfl
    · rfl
  · rfl

/-- What a tick meets: the iteration order, the runtime id, and the agent's
answers, `none` where the request ends in `network_exception`. -/
structure Tick where
  order : IterOrder
  tracer : Option ClientTracer
  info : Option Bytes
  configs : GetConfigsRequest → Option Bytes

/-- `client::is_remote_config_available`. -/
def isRemoteConfigAvailable (deps : Deps) (info : Option Bytes) : PollOutcome :=
  match info with
  | none => .network
  | some body =>
    match parseInfo deps body with
    | .ok endpoints => .returned (decide (Bytes.ofString "/v0.7/config" ∈ endpoints))
    | .error (.parserException _) => .returned false
    | .error .assertion => .escaped .assertion

/-- `client_handler::discover`; the exception is the one that escapes. -/
def ClientHandler.discover (deps : Deps) (t : Tick) (h : ClientHandler σ) :
    Option Exception × ClientHandler σ :=
  match isRemoteConfigAvailable deps t.info with
  | .returned true => (none, { h with action := .poll, errors := 0, interval := h.pollInterval })
  | .returned false => (none, h.handleError)
  | .network => (none, h.handleError)
  | .escaped e => (some e, h)

/-- `client_handler::poll`. What the poll returns is ignored. -/
def ClientHandler.poll (deps : Deps) (id : Bytes) (t : Tick) (h : ClientHandler σ) (w : σ) :
    Option Exception × ClientHandler σ × σ :=
  match h.client.poll deps t.order id t.tracer t.configs w with
  | (.returned _, c, w) => (none, { h with client := c }, w)
  | (.network, c, w) => (none, { h with client := c }.handleError, w)
  | (.escaped e, c, w) => (some e, { h with client := c }, w)

/-- `client_handler::tick`. -/
def ClientHandler.tick (deps : Deps) (id : Bytes) (t : Tick) (h : ClientHandler σ) (w : σ) :
    Option Exception × ClientHandler σ × σ :=
  match h.action with
  | .discover =>
    let (e, h) := h.discover deps t
    (e, h, w)
  | .poll => h.poll deps id t w

variable {Sub : Type}

/-- The polling thread of a service with the world of its listeners. -/
abbrev PollingThread (Sub : Type) := ClientHandler (World Sub) × World Sub

/-- A tick of the thread, and the files it finds. -/
structure ServiceTick extends Tick where
  files : FileSystem

/-- The world as a tick finds it. -/
def World.at (w : World Sub) (t : ServiceTick) : World Sub :=
  { w with files := t.files, order := t.order }

/-- One tick; `none` if an exception escapes and the thread ends. -/
def PollingThread.step (deps : Deps) (id : Bytes) (s : PollingThread Sub) (t : ServiceTick) :
    Option (PollingThread Sub) :=
  match s.1.tick deps id t.toTick (s.2.at t) with
  | (none, h, w) => some (h, w)
  | (some _, _, _) => none

def PollingThread.start (deps : Deps) (updateSub : Sub → Parameter → Option Sub)
    (fallback : Bytes) (dynamicEnablement rulesFileEmpty : Bool) (pollInterval : Nat)
    (engine : Engine Sub) : PollingThread Sub :=
  (.new (Client.new (serviceListeners deps updateSub fallback dynamicEnablement rulesFileEmpty))
    pollInterval, World.start engine)

/-- The configs stored for a product. -/
def PollingThread.configsOf (s : PollingThread Sub) (product : Bytes) : StringMap Config :=
  Service.configsOf (s.1.client, s.2) product

/-! ## The property and the condition -/

/-- A tick that polls and receives this body. -/
structure Receives (id : Bytes) (s : PollingThread Sub) (t : ServiceTick) (body : Bytes) :
    Prop where
  polling : s.1.action = .poll
  received : ∃ tracer, t.tracer = some tracer ∧
    t.configs (s.1.client.generateRequest t.order id tracer) = some body

/-- A tick that processes a response with targets. -/
structure Processes (deps : Deps) (id : Bytes) (s : PollingThread Sub) (t : ServiceTick)
    (response : GetConfigsResponse) (targets : Targets) : Prop where
  received : ∃ body, Receives id s t body ∧ parse deps body = .ok response
  hasTargets : response.targets = some targets
  accepted : ∀ path ∈ response.clientConfigs,
    ¬ Unacceptable s.1.client.products targets response.targetFiles path

theorem not_processes {deps : Deps} {id : Bytes} {s : PollingThread Sub} {t : ServiceTick}
    {response : GetConfigsResponse} {targets : Targets}
    (h : ∀ body, ¬ Receives id s t body) : ¬ Processes deps id s t response targets := by
  intro hprocesses
  obtain ⟨body, hreceives, _⟩ := hprocesses.received
  exact h body hreceives

/-- **Every product stores exactly the configs of the response**: those of
the first path listed for each id, with the hashes of the targets. -/
def StoresExactly (targets : Targets) (paths : List Bytes) (products : StringMap (Product σ)) :
    Prop :=
  ∀ (name : Bytes) (p : Product σ), products[name]? = some p → ∀ id : Bytes,
    match firstListed paths name id with
    | none => p.configs[id]? = none
    | some path => ∃ config target, p.configs[id]? = some config ∧
        targets.paths[path]? = some target ∧ config.hashes = target.hashes ∧
        config.product = name ∧ config.id = id

/-- **The condition on a tick.** The body and the contents to be applied
hold nothing a rapidjson accessor is misused on; and if a stored ASM_DD
config is not listed any more, the fallback file, where there is one, can be
read and is a JSON object. -/
structure TickFine (deps : Deps) (fallback id : Bytes) (s : PollingThread Sub)
    (t : ServiceTick) : Prop where
  body : ∀ body, Receives id s t body → parse deps body ≠ .error .assertion
  contents : ∀ response targets, Processes deps id s t response targets →
    ∀ product cid path contents,
      firstListed response.clientConfigs product cid = some path →
      effectiveContents (s.configsOf product) targets response.targetFiles cid path =
        some contents → Readable deps product contents
  fallback : ∀ response targets, Processes deps id s t response targets →
    ∀ (cid : Bytes) (c : Config), (s.configsOf asmDdProduct)[cid]? = some c →
      firstListed response.clientConfigs asmDdProduct cid = none →
      fallback = [] ∨ ∃ ruleset, EngineRuleset.fromPath deps t.files fallback = .ok ruleset

/-- A processed response leaves exactly its configs in the store. -/
theorem processResponse_storesExactly {ord : IterOrder} {response : GetConfigsResponse}
    {targets : Targets} {c c' : Client σ} {w w' : σ} (hfiled : c.WellFiled)
    (ht : response.targets = some targets)
    (h : processResponse ord response c w = (.ok true, c', w')) :
    StoresExactly targets response.clientConfigs c'.products := by
  intro name p' hp' id
  cases hfirst : firstListed response.clientConfigs name id with
  | none =>
    cases hs' : p'.configs[id]? with
    | none => rfl
    | some config =>
      obtain ⟨path, _, _, hlisted, _⟩ := processResponse_stored ht h hp' hs'
      rw [hfirst] at hlisted
      cases hlisted
  | some path =>
    obtain ⟨hmem, hpath⟩ := firstListed_some hfirst
    obtain ⟨cp, p₁, config, hcp, hp₁, hs'⟩ := processResponse_stores ht h hmem
    rw [hpath] at hcp
    cases hcp
    rw [hp'] at hp₁
    cases hp₁
    obtain ⟨path', target, _, hfirst', htarget, _, hhashes, _⟩ :=
      processResponse_stored ht h hp' hs'
    rw [hfirst] at hfirst'
    cases hfirst'
    have hat := processResponse_wellFiled h hfiled name p' hp' id config hs'
    exact ⟨config, target, hs', htarget, hhashes, hat.product, hat.id⟩

/-! ## Ticks -/

section Ticks

variable {deps : Deps} {updateSub : Sub → Parameter → Option Sub} {fallback id : Bytes}
  {dynamicEnablement rulesFileEmpty : Bool}

/-- What every tick that ends well keeps. -/
structure PollingThread.Inv (deps : Deps) (updateSub : Sub → Parameter → Option Sub)
    (fallback : Bytes) (dynamicEnablement rulesFileEmpty : Bool) (s : PollingThread Sub) :
    Prop where
  service : Service.Inv deps updateSub fallback dynamicEnablement rulesFileEmpty
    (s.1.client, s.2)
  filed : s.1.client.WellFiled
  arrays : ∃ arrays, asmRules s.2 = asmRuleset arrays

theorem PollingThread.Inv.start (pollInterval : Nat) (engine : Engine Sub) :
    (PollingThread.start deps updateSub fallback dynamicEnablement rulesFileEmpty pollInterval
      engine).Inv deps updateSub fallback dynamicEnablement rulesFileEmpty where
  service := Service.Inv.start engine
  filed := Client.Reachable.new.wellFiled
  arrays := ⟨fun _ => [], by rw [asmRules_eq]; rfl⟩

/-- **A response gets through**, processed or rejected. -/
theorem response_survives {c : Client (World Sub)} {w : World Sub} {files : FileSystem}
    {ord : IterOrder} {response : GetConfigsResponse}
    (hservice : Service.Inv deps updateSub fallback dynamicEnablement rulesFileEmpty (c, w))
    (hfiled : c.WellFiled) (hsound : Sound files w)
    (hcontents : ∀ targets, response.targets = some targets →
      (∀ path ∈ response.clientConfigs,
        ¬ Unacceptable c.products targets response.targetFiles path) →
      ∀ (name : Bytes) (p : Product (World Sub)), c.products[name]? = some p →
      ∀ cid path contents, firstListed response.clientConfigs name cid = some path →
        effectiveContents p.configs targets response.targetFiles cid path = some contents →
        Readable deps name contents)
    (hfallback : ∀ targets, response.targets = some targets →
      (∀ path ∈ response.clientConfigs,
        ¬ Unacceptable c.products targets response.targetFiles path) →
      ∀ (p : Product (World Sub)), c.products[asmDdProduct]? = some p →
      ∀ (cid : Bytes) (config : Config), p.configs[cid]? = some config →
        firstListed response.clientConfigs asmDdProduct cid = none →
        fallback = [] ∨ ∃ ruleset, EngineRuleset.fromPath deps files fallback = .ok ruleset) :
    ∃ accepted c' w', processResponse ord response c w = (.ok accepted, c', w') ∧
      Service.Inv deps updateSub fallback dynamicEnablement rulesFileEmpty (c', w') ∧
      c'.WellFiled ∧ Sound files w' ∧
      ∀ targets, response.targets = some targets →
        (∀ path ∈ response.clientConfigs,
          ¬ Unacceptable c.products targets response.targetFiles path) →
        StoresExactly targets response.clientConfigs c'.products := by
  cases htargets : response.targets with
  | none =>
    refine ⟨true, c, w, by simp only [processResponse, htargets], hservice, hfiled, hsound, ?_⟩
    intro targets hbad
    cases hbad
  | some targets =>
    by_cases haccepted : ∀ path ∈ response.clientConfigs,
        ¬ Unacceptable c.products targets response.targetFiles path
    · obtain ⟨c', w', hprocess, hsound'⟩ : ∃ c' w', processResponse ord response c w =
          (.ok true, c', w') ∧ Sound files w' :=
        processResponse_survives hservice htargets haccepted (hcontents targets htargets haccepted)
          (hfallback targets htargets haccepted) hsound
      refine ⟨true, c', w', hprocess, hservice.processed hprocess,
        processResponse_wellFiled hprocess hfiled, hsound', ?_⟩
      intro targets' hsame _
      cases hsame
      exact processResponse_storesExactly hfiled htargets hprocess
    · have hfalse := (processResponse_rejects ord response c w).2.mpr
        ⟨targets, htargets, by simpa using haccepted⟩
      obtain ⟨text, hrest⟩ := processResponse_frame_of_false hfalse
      refine ⟨false, { c with lastPollError := text }, w, Prod.ext hfalse hrest,
        hservice.of_products rfl rfl, hfiled, hsound, ?_⟩
      intro targets' hsame haccepted'
      cases hsame
      exact absurd haccepted' haccepted

/-- **The body of a tick that polls** gets through under the condition. -/
theorem receive_survives {s : PollingThread Sub} {t : ServiceTick} {body : Bytes}
    (hinv : s.Inv deps updateSub fallback dynamicEnablement rulesFileEmpty)
    (hfine : TickFine deps fallback id s t) (hreceives : Receives id s t body) :
    ∃ accepted c' w', s.1.client.receive deps t.order body (s.2.at t) =
        (.returned accepted, c', w') ∧
      Service.Inv deps updateSub fallback dynamicEnablement rulesFileEmpty (c', w') ∧
      c'.WellFiled ∧ (∃ arrays, asmRules w' = asmRuleset arrays) ∧
      ∀ response targets, parse deps body = .ok response →
        Processes deps id s t response targets →
        StoresExactly targets response.clientConfigs c'.products := by
  cases hparse : parse deps body with
  | error e =>
    cases e with
    | assertion => exact absurd hparse (hfine.body body hreceives)
    | parserException result =>
      refine ⟨false, s.1.client, s.2.at t, by simp only [Client.receive, hparse],
        hinv.service.of_products rfl rfl, hinv.filed, hinv.arrays, ?_⟩
      intro response targets hbad
      cases hbad
  | ok response =>
    have hprocesses : ∀ targets, response.targets = some targets →
        (∀ path ∈ response.clientConfigs,
          ¬ Unacceptable s.1.client.products targets response.targetFiles path) →
        Processes deps id s t response targets :=
      fun targets ht haccepted => ⟨⟨body, hreceives, hparse⟩, ht, haccepted⟩
    have hstored : ∀ {name : Bytes} {p : Product (World Sub)},
        s.1.client.products[name]? = some p → s.configsOf name = p.configs :=
      fun hp => Service.configsOf_of_some hp
    -- the error is cleared first, which no listener notices
    obtain ⟨accepted, c', w', hprocess, hservice, hfiled, hsound, hstores⟩ :
        ∃ accepted c' w', processResponse t.order response
            { s.1.client with lastPollError := [] } (s.2.at t) = (.ok accepted, c', w') ∧
          Service.Inv deps updateSub fallback dynamicEnablement rulesFileEmpty (c', w') ∧
          c'.WellFiled ∧ Sound t.files w' ∧
          ∀ targets, response.targets = some targets →
            (∀ path ∈ response.clientConfigs,
              ¬ Unacceptable s.1.client.products targets response.targetFiles path) →
            StoresExactly targets response.clientConfigs c'.products := by
      refine response_survives (hinv.service.of_products rfl rfl) hinv.filed
        ⟨rfl, hinv.arrays⟩ ?_ ?_
      · intro targets ht haccepted name p hp cid path contents hfirst hcontents
        rw [← hstored hp] at hcontents
        exact hfine.contents response targets (hprocesses targets ht haccepted) name cid path
          contents hfirst hcontents
      · intro targets ht haccepted p hp cid config hconfig hgone
        rw [← hstored hp] at hconfig
        exact hfine.fallback response targets (hprocesses targets ht haccepted) cid config hconfig
          hgone
    refine ⟨accepted, c', w', by simp only [Client.receive, hparse, hprocess], hservice, hfiled,
      hsound.arrays, ?_⟩
    intro response' targets hsame hprocesses'
    cases hsame
    exact hstores targets hprocesses'.hasTargets hprocesses'.accepted

/-- The agent's `/info` is checked before it is read: no accessor of
`parse_info` is misused. -/
theorem parseInfo_ne_assertion (body : Bytes) : parseInfo deps body ≠ .error .assertion := by
  have hendpoints : ∀ elems, parseEndpoints elems ≠ .error .assertion := by
    intro elems
    induction elems with
    | nil => exact fun h => nomatch h
    | cons v rest ih =>
      cases v with
      | string s =>
        rw [parseEndpoints]
        cases hrest : parseEndpoints rest with
        | error e =>
          intro h
          cases h
          exact ih hrest
        | ok endpoints => exact fun h => nomatch h
      | _ => exact fun h => nomatch h
  simp only [parseInfo, parseBody]
  split
  · exact fun h => nomatch h
  · rename_i ms _
    simp only [bind, Except.bind, validateFieldIsPresent, findIn]
    cases Members.find ms (Bytes.ofString "endpoints") with
    | none => exact fun h => nomatch h
    | some v =>
      by_cases hkind : Kind.array = v.kind
      · cases v with
        | array elems => exact hendpoints elems
        | bool b => cases b <;> cases hkind
        | _ => cases hkind
      · simp only [if_neg hkind]
        exact fun h => nomatch h
  · exact fun h => nomatch h

theorem discover_survives (deps : Deps) (t : Tick) (h : ClientHandler σ) :
    ∃ h', h.discover deps t = (none, h') ∧ h'.client = h.client := by
  unfold ClientHandler.discover isRemoteConfigAvailable
  cases t.info with
  | none => exact ⟨_, rfl, h.handleError_client⟩
  | some body =>
    dsimp only
    cases hparse : parseInfo deps body with
    | ok endpoints =>
      dsimp only
      cases decide (Bytes.ofString "/v0.7/config" ∈ endpoints) with
      | true => exact ⟨_, rfl, rfl⟩
      | false => exact ⟨_, rfl, h.handleError_client⟩
    | error e =>
      cases e with
      | parserException result => exact ⟨_, rfl, h.handleError_client⟩
      | assertion => exact absurd hparse (parseInfo_ne_assertion body)

theorem step_of_discover (deps : Deps) (id : Bytes) (s : PollingThread Sub) (t : ServiceTick)
    (h : s.1.action = .discover) :
    ∃ h', s.step deps id t = some (h', s.2.at t) ∧ h'.client = s.1.client := by
  obtain ⟨h', hdiscover, hclient⟩ := discover_survives deps t.toTick s.1
  exact ⟨h', by simp only [PollingThread.step, ClientHandler.tick, h, hdiscover], hclient⟩

/-- **A tick survives** under the condition, keeps the invariant, and leaves
exactly the configs of the response it processed. -/
theorem tick_survives {s : PollingThread Sub} {t : ServiceTick}
    (hinv : s.Inv deps updateSub fallback dynamicEnablement rulesFileEmpty)
    (hfine : TickFine deps fallback id s t) :
    ∃ s', s.step deps id t = some s' ∧
      s'.Inv deps updateSub fallback dynamicEnablement rulesFileEmpty ∧
      ∀ response targets, Processes deps id s t response targets →
        StoresExactly targets response.clientConfigs s'.1.client.products := by
  -- a tick that receives nothing leaves the client and its world alone
  have hkept : ∀ h' : ClientHandler (World Sub), h'.client = s.1.client →
      PollingThread.Inv deps updateSub fallback dynamicEnablement rulesFileEmpty
        (h', s.2.at t) := by
    intro h' hclient
    refine ⟨hinv.service.of_products (by rw [hclient]) (by rw [hclient]), ?_, hinv.arrays⟩
    rw [hclient]
    exact hinv.filed
  cases haction : s.1.action with
  | discover =>
    obtain ⟨h', hstep, hclient⟩ := step_of_discover deps id s t haction
    refine ⟨(h', s.2.at t), hstep, hkept h' hclient, ?_⟩
    refine fun response targets hprocesses => absurd hprocesses (not_processes ?_)
    intro body hreceives
    have hpolling := hreceives.polling
    rw [haction] at hpolling
    cases hpolling
  | poll =>
    cases htracer : t.tracer with
    | none =>
      refine ⟨({ s.1 with client := s.1.client }, s.2.at t),
        by simp only [PollingThread.step, ClientHandler.tick, haction, ClientHandler.poll,
          Client.poll, htracer],
        hkept _ rfl, fun response targets hprocesses =>
          absurd hprocesses (not_processes ?_)⟩
      rintro body ⟨_, tracer, hsome, _⟩
      rw [htracer] at hsome
      cases hsome
    | some tracer =>
      cases hbody : t.configs (s.1.client.generateRequest t.order id tracer) with
      | none =>
        refine ⟨({ s.1 with client := s.1.client }.handleError, s.2.at t),
          by simp only [PollingThread.step, ClientHandler.tick, haction, ClientHandler.poll,
            Client.poll, htracer, hbody],
          hkept _ (ClientHandler.handleError_client _), fun response targets hprocesses =>
            absurd hprocesses (not_processes ?_)⟩
        rintro body ⟨_, tracer', hsome, hreceived⟩
        rw [htracer] at hsome
        cases hsome
        rw [hbody] at hreceived
        cases hreceived
      | some body =>
        have hreceives : Receives id s t body := ⟨haction, tracer, htracer, hbody⟩
        obtain ⟨accepted, c', w', hreceive, hservice, hfiled, harrays, hstores⟩ :=
          receive_survives hinv hfine hreceives
        refine ⟨({ s.1 with client := c' }, w'),
          by simp only [PollingThread.step, ClientHandler.tick, haction, ClientHandler.poll,
            Client.poll, htracer, hbody, hreceive],
          ⟨hservice, hfiled, harrays⟩, ?_⟩
        intro response targets hprocesses
        obtain ⟨body', ⟨_, tracer', hsome, hreceived⟩, hparse⟩ := hprocesses.received
        rw [htracer] at hsome
        cases hsome
        rw [hbody] at hreceived
        cases hreceived
        exact hstores response targets hparse hprocesses

/-- **The thread survives, and every product stores what the response
lists**, as long as every tick meets the condition. -/
theorem ticks_survive (deps : Deps) (updateSub : Sub → Parameter → Option Sub)
    (fallback id : Bytes) (dynamicEnablement rulesFileEmpty : Bool) (pollInterval : Nat)
    (engine : Engine Sub) (ticks : List ServiceTick)
    (hfine : Along (PollingThread.step deps id) (TickFine deps fallback id)
      (.start deps updateSub fallback dynamicEnablement rulesFileEmpty pollInterval engine)
      ticks) :
    (∃ final, run (PollingThread.step deps id)
      (.start deps updateSub fallback dynamicEnablement rulesFileEmpty pollInterval engine)
      ticks = some final) ∧
    Throughout (PollingThread.step deps id)
      (fun s t s' => ∀ response targets, Processes deps id s t response targets →
        StoresExactly targets response.clientConfigs s'.1.client.products)
      (.start deps updateSub fallback dynamicEnablement rulesFileEmpty pollInterval engine)
      ticks := by
  have hstart : PollingThread.Inv deps updateSub fallback dynamicEnablement rulesFileEmpty
      (.start deps updateSub fallback dynamicEnablement rulesFileEmpty pollInterval engine) :=
    PollingThread.Inv.start pollInterval engine
  constructor
  · refine run_completes _ ?_ hstart hfine
    intro s t hinv ht
    obtain ⟨s', hstep, hinv', _⟩ := tick_survives hinv ht
    exact ⟨s', hstep, hinv'⟩
  · refine throughout_of_invariant _ ?_ hstart hfine
    intro s t s' hinv ht hstep
    obtain ⟨s₁, hstep₁, hinv₁, hstores⟩ := tick_survives hinv ht
    rw [hstep] at hstep₁
    cases hstep₁
    exact ⟨hinv₁, hstores⟩

end Ticks

/-! ## A run that ends -/

/-- `/info` of an agent with remote config. -/
def infoText : Bytes := "\x7b\"endpoints\":[\"/v0.7/config\"]\x7d"

/-- The targets of a response with one ASM_DD config. -/
def oneTarget : Bytes :=
  ofPieces ["eyJzaWduZWQiOnsi", "X3R5cGUiOiJ0YXJn", "ZXRzIiwiY3VzdG9t", "Ijp7Im9wYXF1ZV9i",
    "YWNrZW5kX3N0YXRl", "IjoiIn0sInRhcmdl", "dHMiOnsiZW1wbG95", "ZWUvQVNNX0REL2Ev",
    "YyI6eyJjdXN0b20i", "OnsidiI6MX0sImhh", "c2hlcyI6eyJzaGEy", "NTYiOiIwNyJ9LCJs",
    "ZW5ndGgiOjE2fX0s", "InZlcnNpb24iOjF9", "fQ=="]

def oneTargetText : Bytes :=
  ofPieces ["\x7b\"signed\":\x7b\"_type\":", "\"targets\",\"custom\":",
    "\x7b\"opaque_backend_sta", "te\":\"\"\x7d,\"targets\":", "\x7b\"employee/ASM_DD/a/",
    "c\":\x7b\"custom\":\x7b\"v\":", "1\x7d,\"hashes\":", "\x7b\"sha256\":\"07\"\x7d,",
    "\"length\":16\x7d\x7d,", "\"version\":1\x7d\x7d"]

/-- The targets of a response with none. -/
def noTarget : Bytes :=
  ofPieces ["eyJzaWduZWQiOnsi", "X3R5cGUiOiJ0YXJn", "ZXRzIiwiY3VzdG9t", "Ijp7Im9wYXF1ZV9i",
    "YWNrZW5kX3N0YXRl", "IjoiIn0sInRhcmdl", "dHMiOnt9LCJ2ZXJz", "aW9uIjoyfX0="]

def noTargetText : Bytes :=
  ofPieces ["\x7b\"signed\":\x7b\"_type\":", "\"targets\",\"custom\":",
    "\x7b\"opaque_backend_sta", "te\":\"\"\x7d,\"targets\":", "\x7b\x7d,\"version\":2\x7d\x7d"]

/-- The body that lists the config. -/
def listedBody : Bytes :=
  ofPieces ["\x7b\"targets\":\""] ++ oneTarget ++
    ofPieces ["\",\"target_files\":[\x7b\"path\":", "\"employee/ASM_DD/a/c\",\"raw\":",
      "\"eyJydWxlcyI6W119\"\x7d],", "\"client_configs\":[\"employee/ASM_DD/a/c\"]\x7d"]

/-- The body that lists nothing any more. -/
def emptyBody : Bytes := ofPieces ["\x7b\"targets\":\""] ++ noTarget ++ ofPieces ["\"\x7d"]

/-- The signed targets with these paths. -/
def signedTargets (version : Int) (paths : Members) : Json :=
  .object [("signed", .object [("_type", .string "targets"),
    ("custom", .object [("opaque_backend_state", .string "")]), ("targets", .object paths),
    ("version", .number (.int version))])]

/-- The decoder and the parser on the texts above. -/
def tickDeps : Deps :=
  Deps.ofTables
    [(oneTarget, oneTargetText), (noTarget, noTargetText), (emptyRulesContents, emptyRulesText)]
    [(infoText, .object [("endpoints", .array [.string "/v0.7/config"])]),
      (listedBody, .object [("targets", .string oneTarget),
        ("target_files", .array [.object [("path", .string "employee/ASM_DD/a/c"),
          ("raw", .string emptyRulesContents)]]),
        ("client_configs", .array [.string "employee/ASM_DD/a/c"])]),
      (oneTargetText, signedTargets 1 [("employee/ASM_DD/a/c", .object
        [("custom", .object [("v", .number (.int 1))]),
          ("hashes", .object [("sha256", .string "07")]), ("length", .number (.int 16))])]),
      (emptyBody, .object [("targets", .string noTarget)]),
      (noTargetText, signedTargets 2 []),
      (emptyRulesText, .object [("rules", .array [])])]

/-- A tick at which the agent answers with this body and there are no files. -/
def tickOf (body : Bytes) : ServiceTick where
  order := IterOrder.sorted
  tracer := some plainTracer
  info := some infoText
  configs := fun _ => some body
  files := fun _ => none

/-- The tick that lists nothing any more and finds the fallback file. -/
def droppingTick : ServiceTick :=
  { tickOf emptyBody with
    files := fun file => if file = "rules.json" then some emptyRulesText else none }

/-- A polling thread whose fallback file is `rules.json`. -/
def tickStart : PollingThread Unit :=
  .start tickDeps (fun sub _ => some sub) "rules.json" false true 1000 ⟨[()], defaultActions⟩

theorem TickFine.of_not_receives {deps : Deps} {fallback id : Bytes} {s : PollingThread Sub}
    {t : ServiceTick} (h : ∀ body, ¬ Receives id s t body) : TickFine deps fallback id s t := by
  exact ⟨fun body hreceives => absurd hreceives (h body),
    fun response targets hprocesses => absurd hprocesses (not_processes h),
    fun response targets hprocesses => absurd hprocesses (not_processes h)⟩

/-- The first two ticks find the endpoint and store the config. A third one that
does not list it drops it, or throws with the config still there. -/
theorem listedBody_run :
    (run (PollingThread.step tickDeps "me") tickStart [tickOf listedBody, tickOf listedBody]).map
      (fun s =>
        let thrown := s.1.tick tickDeps "me" (tickOf emptyBody).toTick (s.2.at (tickOf emptyBody))
        ((s.configsOf asmDdProduct)[Bytes.ofString "a"]?.isSome,
          (s.step tickDeps "me" droppingTick).map
            (fun s => (s.configsOf asmDdProduct)[Bytes.ofString "a"]?.isSome),
          thrown.1, (PollingThread.configsOf thrown.2 asmDdProduct)[Bytes.ofString "a"]?.isSome)) =
      some (true, some false, some .systemError, true) := by
  decide +kernel

theorem received_eq {s : PollingThread Unit} {t : ServiceTick} {body body' : Bytes}
    (ht : t.configs = fun _ => some body) (h : Receives "me" s t body') : body' = body := by
  obtain ⟨tracer, _, hreceived⟩ := h.received
  rw [ht] at hreceived
  exact (Option.some.inj hreceived).symm

/-- The paths that a body lists. -/
def listedPaths (body : Bytes) : Option (List Bytes) :=
  match parse tickDeps body with
  | .ok response => some response.clientConfigs
  | .error _ => none

theorem listedPaths_processes {s : PollingThread Unit} {t : ServiceTick} {body : Bytes}
    {paths : List Bytes} (ht : t.configs = fun _ => some body)
    (hpaths : listedPaths body = some paths) {response : GetConfigsResponse} {targets : Targets}
    (h : Processes tickDeps "me" s t response targets) : response.clientConfigs = paths := by
  obtain ⟨body', hreceives, hparse⟩ := h.received
  rw [received_eq ht hreceives] at hparse
  rw [listedPaths, hparse] at hpaths
  exact Option.some.inj hpaths

theorem listedPaths_body {s : PollingThread Unit} {t : ServiceTick} {body : Bytes}
    {paths : List Bytes} (ht : t.configs = fun _ => some body)
    (hpaths : listedPaths body = some paths) (body' : Bytes) (h : Receives "me" s t body') :
    parse tickDeps body' ≠ .error .assertion := by
  intro hparse
  rw [received_eq ht h] at hparse
  rw [listedPaths, hparse] at hpaths
  cases hpaths

/-- The one config of `listedBody` is of ASM_DD, which is always readable. -/
theorem listedBody_fine {s : PollingThread Unit}
    (hstored : ∀ k : Bytes, (s.configsOf asmDdProduct)[k]? = none) :
    TickFine tickDeps "rules.json" "me" s (tickOf listedBody) := by
  have hpaths : listedPaths listedBody = some [Bytes.ofString "employee/ASM_DD/a/c"] := by
    decide +kernel
  refine ⟨listedPaths_body rfl hpaths, ?_, ?_⟩
  · intro response targets hprocesses product cid path contents hfirst _
    obtain ⟨hmem, hpath⟩ := firstListed_some hfirst
    rw [listedPaths_processes rfl hpaths hprocesses, List.mem_singleton] at hmem
    subst hmem
    have hdd : product = asmDdProduct := by
      have hconfig : (ConfigPath.fromPath "employee/ASM_DD/a/c").map ConfigPath.product =
          some asmDdProduct := by decide +kernel
      rw [hpath] at hconfig
      exact Option.some.inj hconfig
    subst hdd
    exact ⟨fun h => absurd h (by decide), fun h => absurd h (by decide)⟩
  · intro response targets _ cid c hc
    rw [hstored] at hc
    cases hc

/-- A tick that lists nothing needs the fallback file only. -/
theorem droppingTick_fine {s : PollingThread Unit} :
    TickFine tickDeps "rules.json" "me" s droppingTick := by
  have hpaths : listedPaths emptyBody = some [] := by decide +kernel
  refine ⟨listedPaths_body rfl hpaths, ?_, ?_⟩
  · intro response targets hprocesses product cid path contents hfirst _
    obtain ⟨hmem, _⟩ := firstListed_some hfirst
    rw [listedPaths_processes rfl hpaths hprocesses] at hmem
    cases hmem
  · intro response targets _ cid c _ _
    have hruleset : EngineRuleset.ofText tickDeps emptyRulesText =
        .ok ⟨[("rules", .array [])]⟩ :=
      EngineRuleset.ofText_object (by decide +kernel) (by rfl)
    have hfile : readFile droppingTick.files "rules.json" = .ok emptyRulesText := rfl
    refine Or.inr ⟨EngineRuleset.addDefaultProcessorsAndScanners ⟨[("rules", .array [])]⟩, ?_⟩
    simp only [EngineRuleset.fromPath, hfile, hruleset]

/-- Three ticks that survive: the endpoint is found, the config is stored, and
it is dropped for the fallback file. -/
theorem dropping_ticks_survive :
    ((∃ final, run (PollingThread.step tickDeps "me") tickStart
        [tickOf listedBody, tickOf listedBody, droppingTick] = some final) ∧
      Throughout (PollingThread.step tickDeps "me")
        (fun s t s' => ∀ response targets, Processes tickDeps "me" s t response targets →
          StoresExactly targets response.clientConfigs s'.1.client.products)
        tickStart [tickOf listedBody, tickOf listedBody, droppingTick]) ∧
    (run (PollingThread.step tickDeps "me") tickStart
      [tickOf listedBody, tickOf listedBody]).map
        (fun s => (s.configsOf asmDdProduct)[Bytes.ofString "a"]?.isSome) = some true ∧
    (run (PollingThread.step tickDeps "me") tickStart
      [tickOf listedBody, tickOf listedBody, droppingTick]).map
        (fun s => (s.configsOf asmDdProduct)[Bytes.ofString "a"]?.isSome) = some false := by
  obtain ⟨s₂, h₂, hfacts⟩ := Option.map_eq_some_iff.mp listedBody_run
  obtain ⟨hstored, hrest⟩ := Prod.mk.inj hfacts
  have hdropped : run (PollingThread.step tickDeps "me") tickStart
      ([tickOf listedBody, tickOf listedBody] ++ [droppingTick]) =
        s₂.step tickDeps "me" droppingTick := by
    rw [run_append, h₂, Option.bind_some, run]
    exact Option.bind_fun_some _
  refine ⟨ticks_survive tickDeps (fun sub _ => some sub) "rules.json" "me" false true 1000
    ⟨[()], defaultActions⟩ [tickOf listedBody, tickOf listedBody, droppingTick]
    ⟨?_, fun s hstep => ?_⟩, ?_, ?_⟩
  · -- the first tick only looks for the endpoint
    refine TickFine.of_not_receives fun body hreceives => ?_
    cases hreceives.polling
  · refine ⟨listedBody_fine fun k => ?_, fun _ _ => ⟨droppingTick_fine, fun _ _ => trivial⟩⟩
    obtain ⟨h', hstep', hclient⟩ := step_of_discover tickDeps "me" tickStart
      (tickOf listedBody) rfl
    cases Option.some.inj (hstep'.symm.trans hstep)
    rw [PollingThread.configsOf, hclient]
    exact Service.start_configsOf _ asmDdProduct k
  · rw [h₂, Option.map_some, hstored]
  · exact (congrArg _ hdropped).trans (Prod.mk.inj hrest).1

/-- **A missing fallback file ends the thread.** The config is not listed any
more, the exception about the file goes through `tick`, and the product still
has the config. -/
theorem missing_fallback_ends_thread :
    (¬ ∃ final, run (PollingThread.step tickDeps "me") tickStart
      [tickOf listedBody, tickOf listedBody, tickOf emptyBody] = some final) ∧
    ∃ s, run (PollingThread.step tickDeps "me") tickStart
        [tickOf listedBody, tickOf listedBody] = some s ∧
      ∃ h w, s.1.tick tickDeps "me" (tickOf emptyBody).toTick (s.2.at (tickOf emptyBody)) =
          (some .systemError, h, w) ∧
        (PollingThread.configsOf (h, w) asmDdProduct)[Bytes.ofString "a"]?.isSome = true := by
  obtain ⟨s, hs, hfacts⟩ := Option.map_eq_some_iff.mp listedBody_run
  obtain ⟨_, hrest⟩ := Prod.mk.inj hfacts
  obtain ⟨hexception, hkept⟩ := Prod.mk.inj (Prod.mk.inj hrest).2
  have hdead : s.step tickDeps "me" (tickOf emptyBody) = none := by
    rw [PollingThread.step]
    split
    · rename_i hnone
      rw [hnone] at hexception
      cases hexception
    · rfl
  refine ⟨?_, s, hs, _, _, Prod.ext hexception rfl, hkept⟩
  rintro ⟨final, hrun⟩
  obtain ⟨s₁, h1, hrest⟩ := run_cons.mp hrun
  obtain ⟨s₂, h2, hrest⟩ := run_cons.mp hrest
  obtain ⟨s₃, h3, _⟩ := run_cons.mp hrest
  have hsame : s₂ = s := by
    have := hs.symm.trans (run_cons.mpr ⟨s₁, h1, run_cons.mpr ⟨s₂, h2, rfl⟩⟩)
    exact (Option.some.inj this).symm
  rw [hsame, hdead] at h3
  cases h3

end DdAppsec.Helper.RemoteConfig
