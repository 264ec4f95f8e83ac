import DdAppsec.Extension.Lifecycle
import DdAppsec.Helper.Client
import DdAppsec.Lib.Runs

/-!
# Extension — the two enablement flags

Extension and helper each keep a flag, `DDAPPSEC_G(enabled)` and
`request_enabled_`, and meet only in the replies to `config_sync` and
`request_init`; the remote config thread changes the status of the service
at any moment. Here every message is delivered, decodable and within limits,
and a `Moment` is what the helper finds when it handles one: the n-th message
of the connection finds the n-th moment of the schedule.

`flags_stay_synced`: whatever the schedule, from RINIT to the handling of
`request_shutdown` the extension is enabled exactly when the helper is and
holds a context made for the request.
-/

namespace DdAppsec.Extension

open Lib Helper

/-! ## One exchange -/

/-- The message and what the helper finds while handling it. -/
structure Moment where
  data : List (Bytes × Parameter)
  status : EnableAsmStatus
  result : Option EngineResult
  sampled : Bool
  tags : StringMap Bytes
  metrics : StringMap UInt64

def Moment.env (m : Moment) : Env := ⟨m.status, m.result, m.sampled, m.tags, m.metrics, .sent⟩

def Command.id : Command → RequestId
  | .configSync => .configSync
  | .requestInit => .requestInit
  | .requestExec => .requestExec
  | .requestShutdown => .requestShutdown

/-- The helper's end of the connection, what it did to contexts since the
request began, and every command with its reply. -/
structure HelperEnd where
  schedule : Nat → Moment
  clock : Nat
  client : Client
  isOpen : Bool
  events : List Event
  log : List (Command × Option Response)

/-- `dd_command_process_config_features`. -/
def processConfigFeatures (newStatus : Bool) (g : Globals) : Globals :=
  if g.enabledByConfiguration = .enabled ∧ !newStatus then { g with enabled := .enabled }
  else { g with enabled := if newStatus then .enabled else .disabled }

/-- `dd_command_proc_resp_verd_span_data`, as far as its result goes. -/
def DdResult.ofVerdict : Verdict → DdResult
  | .ok | .record => .success
  | .block => .shouldBlock
  | .redirect => .shouldRedirect

/-- `_dd_command_exec` once the reply is there: the callbacks of the command
by the type of the reply. No reply means that the helper hung up; an `error`
reply is one of an unexpected type. -/
def processReply (cmd : Command) (reply : Option Response) (g : Globals) : DdResult × Globals :=
  match reply with
  | none => (.network, g)
  | some .error => (.error, g)
  | some (.configFeatures enabled) =>
    match cmd with
    | .configSync | .requestInit => (.success, processConfigFeatures enabled g)
    | .requestExec | .requestShutdown => (.error, g)
  | some .configSync => (if cmd = .configSync then .success else .error, g)
  | some (.requestInit a) =>
    (if cmd = .requestInit then .ofVerdict a.verdict else .error, g)
  | some (.requestExec a) =>
    (if cmd = .requestExec then .ofVerdict a.verdict else .error, g)
  | some (.requestShutdown a _ _) =>
    (if cmd = .requestShutdown then .ofVerdict a.verdict else .error, g)

/-- A command sent to the helper and its reply processed. -/
def exchange (encode : Bytes → Option Bytes) (cmd : Command) (g : Globals) (w : HelperEnd) :
    DdResult × Globals × HelperEnd :=
  let m := w.schedule w.clock
  let out := w.client.runRequest encode m.env (.request ⟨cmd.id, .map m.data⟩)
  let (res, g) := processReply cmd out.response g
  (res, g, { w with
    clock := w.clock + 1
    client := out.client
    isOpen := out.keep
    events := w.events ++ out.events
    log := w.log ++ [(cmd, out.response)] })

def helperLink (encode : Bytes → Option Bytes) : Link HelperEnd where
  exec := exchange encode
  connected := HelperEnd.isOpen
  close := fun w => { w with isOpen := false }

/-- A request starts with no events of its own. -/
def step (encode : Bytes → Option Bytes) (s : Worker HelperEnd) (hook : Hook) :
    Option (Worker HelperEnd) :=
  match hook with
  | .rinit => (helperLink encode).step { s with world.events := [] } .rinit
  | hook => (helperLink encode).step s hook

/-- `enabled_configuration` as `client_init` sends it. -/
def EnabledConfiguration.packed : EnabledConfiguration → Option Bool
  | .notConfigured => none
  | .enabled => some true
  | .disabled => some false

/-- A worker whose connection has just been through `client_init`. -/
def Worker.start (conf : EnabledConfiguration) (service : Nat) (schedule : Nat → Moment) :
    Worker HelperEnd where
  globals := ⟨conf, conf, false⟩
  world := ⟨schedule, 0, ⟨some service, conf.packed, false, none, 0⟩, true, [], []⟩
  phase := .idle

/-! ## The property -/

/-- The extension is enabled exactly when the helper is and holds a context
made for this request. -/
def Synced (g : Globals) (w : HelperEnd) : Prop :=
  g.enabled = .enabled ↔ w.client.requestEnabled = true ∧
    ∃ context, w.client.context = some context ∧ Event.created context ∈ w.events

/-- Every `request_exec` and `request_shutdown` was answered by its handler. -/
def Answered (w : HelperEnd) : Prop :=
  ∀ cmd reply, (cmd, reply) ∈ w.log →
    (cmd = .requestExec → ∃ a, reply = some (.requestExec a)) ∧
    (cmd = .requestShutdown → ∃ a tags metrics, reply = some (.requestShutdown a tags metrics))

/-- While the script runs the flags are in step; the connection stays open
and no command is refused. -/
structure InStep (s : Worker HelperEnd) : Prop where
  synced : s.phase = .serving → Synced s.globals s.world
  answered : Answered s.world
  isOpen : s.world.isOpen = true

/-! ## What the helper answers -/

section Helper

variable (encode : Bytes → Option Bytes) (m : Moment) {c : Client}

theorem runRequest_requestExec (hservice : c.service ≠ none) (henabled : c.requestEnabled = true) :
    c.runRequest encode m.env (.request ⟨.requestExec, .map m.data⟩) =
      ⟨c.ensureContext.1, true, some (.requestExec (analysisOf m.result)),
        c.ensureContext.2.2 ++ [.published c.ensureContext.2.1 (.map m.data)]⟩ := by
  simp [Client.runRequest, henabled, Client.handleMessage, Client.handleCommand,
    Client.requestExec, hservice, Parameter.isMap, Client.reply, Moment.env]

theorem runRequest_requestShutdown (hservice : c.service ≠ none)
    (henabled : c.requestEnabled = true) :
    ∃ client events tags metrics,
      c.runRequest encode m.env (.request ⟨.requestShutdown, .map m.data⟩) =
        ⟨client, true, some (.requestShutdown (analysisOf m.result) tags metrics), events⟩ ∧
      client.service = c.service ∧ client.clientEnabledConf = c.clientEnabledConf := by
  obtain ⟨hsame, hconf, _⟩ := c.ensureContext_keeps
  have hmap : (if m.sampled = true then addContextProcessor (.map m.data)
      else Parameter.map m.data).isMap = true := by
    split <;> rfl
  simp only [Client.runRequest, henabled, Client.handleMessage, Client.handleCommand,
    Client.requestShutdown, hservice, Client.reply, Moment.env, and_false, if_false,
    if_true, Bool.not_true, Bool.false_eq_true, List.mem_cons, or_true, true_or, decide_true]
  exact ⟨_, _, _, _, if_pos hmap, hsame, hconf⟩

theorem runRequest_requestInit (hservice : c.service ≠ none) :
    c.runRequest encode m.env (.request ⟨.requestInit, .map m.data⟩) =
      let c := c.computeClientStatus m.status
      if c.requestEnabled then
        ⟨c.newContext.1, true, some (.requestInit (analysisOf m.result)),
          [.created c.newContext.2, .published c.newContext.2 (.map m.data)]⟩
      else ⟨c, true, some (.configFeatures false), []⟩ := by
  have hinit : c.runRequest encode m.env (.request ⟨.requestInit, .map m.data⟩) =
      c.requestInit m.env (.map m.data) := by
    unfold Client.runRequest
    split <;> simp [Client.handleMessage, Client.handleCommand]
  rw [hinit, Client.requestInit, if_neg hservice]
  cases h : (c.computeClientStatus m.status).requestEnabled <;>
    simp [Moment.env, Parameter.isMap, Client.reply, h]

theorem runRequest_configSync (hservice : c.service ≠ none) :
    c.runRequest encode m.env (.request ⟨.configSync, .map m.data⟩) =
      let c := c.computeClientStatus m.status
      ⟨c, true, some (if c.requestEnabled then .configFeatures true else .configSync), []⟩ := by
  have hsync : c.runRequest encode m.env (.request ⟨.configSync, .map m.data⟩) =
      c.configSync m.env := by
    unfold Client.runRequest
    split <;> simp [Client.handleMessage, Client.handleCommand]
  rw [hsync, Client.configSync, if_neg hservice]
  cases h : (c.computeClientStatus m.status).requestEnabled <;>
    simp [Moment.env, Client.reply, h]

end Helper

/-! ## The exchanges, one by one -/

variable {conf : EnabledConfiguration} {g : Globals} {w : HelperEnd}

/-- The helper's end between two exchanges. -/
structure Ready (conf : EnabledConfiguration) (w : HelperEnd) : Prop where
  isOpen : w.isOpen = true
  service : w.client.service ≠ none
  enabledConf : w.client.clientEnabledConf = conf.packed
  answered : Answered w

theorem Answered.append (h : Answered w) {w' : HelperEnd} {cmd : Command}
    {reply : Option Response} (hlog : w'.log = w.log ++ [(cmd, reply)])
    (hexec : cmd = .requestExec → ∃ a, reply = some (.requestExec a))
    (hshutdown : cmd = .requestShutdown →
      ∃ a tags metrics, reply = some (.requestShutdown a tags metrics)) : Answered w' := by
  intro cmd' reply' hmem
  rw [hlog, List.mem_append, List.mem_singleton] at hmem
  rcases hmem with hmem | hmem
  · exact h cmd' reply' hmem
  · cases hmem
    exact ⟨hexec, hshutdown⟩

theorem ofVerdict_ne_network (v : Verdict) : DdResult.ofVerdict v ≠ .network := by
  cases v <;> decide

theorem computeClientStatus_keeps (c : Client) (status : EnableAsmStatus) :
    (c.computeClientStatus status).service = c.service ∧
      (c.computeClientStatus status).clientEnabledConf = c.clientEnabledConf := by
  unfold Client.computeClientStatus
  split
  · exact ⟨rfl, rfl⟩
  · split <;> exact ⟨rfl, rfl⟩

variable (encode : Bytes → Option Bytes)

/-- `request_exec` to an enabled helper: its handler answers, and afterwards
there is a context, the one from before or one made now. -/
theorem exchange_requestExec (h : Ready conf w) (henabled : w.client.requestEnabled = true) :
    ∃ res w', (helperLink encode).exec .requestExec g w = (res, g, w') ∧ Ready conf w' ∧
      w'.client.requestEnabled = true ∧ (∀ e ∈ w.events, e ∈ w'.events) ∧
      ∃ context, w'.client.context = some context ∧
        (w.client.context = some context ∨ Event.created context ∈ w'.events) := by
  have hrun := runRequest_requestExec encode (w.schedule w.clock) h.service henabled
  obtain ⟨hservice, hconf, hflag⟩ := w.client.ensureContext_keeps
  obtain ⟨hctx, hfrom⟩ := w.client.ensureContext_events
  simp only [helperLink, exchange, Command.id, hrun, processReply, if_true]
  refine ⟨_, _, rfl, ⟨rfl, ?_, ?_, ?_⟩, ?_, ?_, ?_⟩
  · exact hservice.symm ▸ h.service
  · exact hconf.trans h.enabledConf
  · exact h.answered.append rfl (fun _ => ⟨_, rfl⟩) (by simp)
  · exact hflag.trans henabled
  · exact fun e he => List.mem_append_left _ he
  · refine ⟨_, hctx, ?_⟩
    rcases hfrom with hcreated | hold
    · exact Or.inr (List.mem_append_right _ (List.mem_append_left _ hcreated))
    · exact Or.inl hold

/-- `request_shutdown` to an enabled helper: its handler answers. -/
theorem exchange_requestShutdown (h : Ready conf w)
    (henabled : w.client.requestEnabled = true) :
    ∃ res w', (helperLink encode).exec .requestShutdown g w = (res, g, w') ∧ Ready conf w' ∧
      res ≠ .network := by
  obtain ⟨client, events, tags, metrics, hrun, hservice, hconf⟩ :=
    runRequest_requestShutdown encode (w.schedule w.clock) h.service henabled
  simp only [helperLink, exchange, Command.id, hrun, processReply, if_true]
  refine ⟨_, _, rfl, ⟨rfl, ?_, ?_, ?_⟩, ofVerdict_ne_network _⟩
  · exact hservice.symm ▸ h.service
  · exact hconf.trans h.enabledConf
  · exact h.answered.append rfl (by simp) (fun _ => ⟨_, _, _, rfl⟩)

/-- `request_init` from an enabled extension: both flags end up set, with a
new context, or both cleared. -/
theorem exchange_requestInit (h : Ready conf w) (hconf : g.enabledByConfiguration = conf)
    (hne : conf ≠ .disabled) (henabled : g.enabled = .enabled) :
    ∃ res g' w', (helperLink encode).exec .requestInit g w = (res, g', w') ∧ Ready conf w' ∧
      g'.enabledByConfiguration = conf ∧ g'.skipRshutdown = g.skipRshutdown ∧
      res ≠ .network ∧ Synced g' w' := by
  have hrun := runRequest_requestInit encode (w.schedule w.clock) h.service
  obtain ⟨hservice, henabledConf⟩ :=
    computeClientStatus_keeps w.client (w.schedule w.clock).status
  have hanswered {w' : HelperEnd} {reply} (hlog : w'.log = w.log ++ [(.requestInit, reply)]) :
      Answered w' := h.answered.append hlog (by simp) (by simp)
  cases hnow : (w.client.computeClientStatus (w.schedule w.clock).status).requestEnabled with
  | true =>
    simp only [hnow, if_true] at hrun
    simp only [helperLink, exchange, Command.id, hrun, processReply, if_true]
    refine ⟨_, _, _, rfl, ⟨rfl, ?_, ?_, hanswered rfl⟩, hconf, rfl,
      ofVerdict_ne_network _, ?_⟩
    · exact hservice.symm ▸ h.service
    · exact henabledConf.trans h.enabledConf
    · refine iff_of_true henabled ⟨hnow, _, rfl, ?_⟩
      exact List.mem_append_right _ (List.mem_cons_self ..)
  | false =>
    -- a helper told to be enabled is, so the configuration leaves it open
    have hopen : conf = .notConfigured := by
      cases conf with
      | notConfigured => rfl
      | disabled => exact absurd rfl hne
      | enabled =>
        have hset : w.client.clientEnabledConf = some true := h.enabledConf
        simp [Client.computeClientStatus, hset] at hnow
    simp only [hnow, Bool.false_eq_true, if_false] at hrun
    simp only [helperLink, exchange, Command.id, hrun, processReply, processConfigFeatures, hconf,
      hopen]
    refine ⟨_, _, _, rfl, ⟨rfl, ?_, ?_, hanswered rfl⟩, ?_, rfl, by decide, ?_⟩
    · exact hservice.symm ▸ h.service
    · exact (henabledConf.trans h.enabledConf).trans (by rw [hopen])
    · rfl
    · refine iff_of_false (by simp) ?_
      rintro ⟨htrue, _⟩
      exact Bool.false_ne_true (hnow.symm.trans htrue)

/-- `config_sync`: the extension becomes enabled exactly if the helper is. -/
theorem exchange_configSync (h : Ready conf w) (hconf : g.enabledByConfiguration = conf)
    (hdis : g.enabled ≠ .enabled) :
    ∃ g' w', (helperLink encode).exec .configSync g w = (.success, g', w') ∧ Ready conf w' ∧
      g'.enabledByConfiguration = conf ∧ g'.skipRshutdown = g.skipRshutdown ∧
      (g'.enabled = .enabled ↔ w'.client.requestEnabled = true) := by
  have hrun := runRequest_configSync encode (w.schedule w.clock) h.service
  obtain ⟨hservice, henabledConf⟩ :=
    computeClientStatus_keeps w.client (w.schedule w.clock).status
  have hanswered {w' : HelperEnd} {reply} (hlog : w'.log = w.log ++ [(.configSync, reply)]) :
      Answered w' := h.answered.append hlog (by simp) (by simp)
  cases hnow : (w.client.computeClientStatus (w.schedule w.clock).status).requestEnabled with
  | true =>
    simp only [hnow, if_true] at hrun
    simp only [helperLink, exchange, Command.id, hrun, processReply, processConfigFeatures]
    refine ⟨_, _, rfl, ⟨rfl, ?_, ?_, hanswered rfl⟩, ?_, ?_, ?_⟩
    · exact hservice.symm ▸ h.service
    · exact henabledConf.trans h.enabledConf
    · simpa using hconf
    · simp
    · simp [hnow]
  | false =>
    simp only [hnow, Bool.false_eq_true, if_false] at hrun
    simp only [helperLink, exchange, Command.id, hrun, processReply, if_true]
    refine ⟨_, _, rfl, ⟨rfl, ?_, ?_, hanswered rfl⟩, hconf, rfl, ?_⟩
    · exact hservice.symm ▸ h.service
    · exact henabledConf.trans h.enabledConf
    · simp [hnow, hdis]

/-! ## The hooks -/

/-- `dd_appsec_rshutdown` with the flags in step. -/
theorem appsecRshutdown_ready (h : Ready conf w)
    (hflag : g.enabled = .enabled → w.client.requestEnabled = true) :
    ∃ w', (helperLink encode).appsecRshutdown g w = (g, w') ∧ Ready conf w' := by
  unfold Link.appsecRshutdown
  split
  · rename_i hcond
    obtain ⟨res, w', heq, hready, hres⟩ := exchange_requestShutdown encode h (hflag hcond.2)
    refine ⟨w', ?_, hready⟩
    rw [heq]
    cases res <;> first | rfl | exact absurd rfl hres
  · exact ⟨w, rfl, h⟩

theorem Synced.flag (h : Synced g w) (henabled : g.enabled = .enabled) :
    w.client.requestEnabled = true := (h.mp henabled).1

/-- The commands of RINIT: the connection stays, and the flags are in step. -/
theorem rinit_commands (h : Ready conf w) (hconf : g.enabledByConfiguration = conf)
    (hne : conf ≠ .disabled) :
    ∃ res g' w', (if g.enabled = .enabled then (helperLink encode).exec .requestInit g w
        else (helperLink encode).syncThenInit g w) = (res, g', w') ∧ Ready conf w' ∧
      g'.enabledByConfiguration = conf ∧ g'.skipRshutdown = g.skipRshutdown ∧
      res ≠ .network ∧ Synced g' w' := by
  split
  · rename_i henabled
    exact exchange_requestInit encode h hconf hne henabled
  · rename_i hdis
    obtain ⟨g₁, w₁, heq, hready, hconf₁, hskip₁, hsync⟩ := exchange_configSync encode h hconf hdis
    unfold Link.syncThenInit
    rw [heq]
    dsimp only
    split
    · rename_i henabled
      obtain ⟨res, g', w', heq', hready', hconf', hskip', hrest⟩ :=
        exchange_requestInit encode hready hconf₁ hne henabled
      exact ⟨res, g', w', heq', hready', hconf', hskip'.trans hskip₁, hrest⟩
    · rename_i hstill
      refine ⟨_, g₁, w₁, rfl, hready, hconf₁, hskip₁, by decide, ?_⟩
      exact iff_of_false hstill fun hboth => hstill (hsync.mpr hboth.1)

/-- **RINIT**: afterwards the flags are in step, unless the request was
blocked and its `request_shutdown` has been handled already. -/
theorem rinit_ready (h : Ready conf w) (hconf : g.enabledByConfiguration = conf)
    (hne : conf ≠ .disabled) :
    ∃ g' w', (helperLink encode).rinit g w = (g', w') ∧ Ready conf w' ∧
      g'.enabledByConfiguration = conf ∧ (g'.skipRshutdown = false → Synced g' w') := by
  obtain ⟨res, g₁, w₁, heq, hready, hconf₁, hskip, hres, hsynced⟩ :=
    rinit_commands encode (g := { g with
      enabled := g.enabledByConfiguration, skipRshutdown := false }) h hconf hne
  have hopen : (helperLink encode).connected w = true := h.isOpen
  unfold Link.rinit Link.doRinit
  rw [if_neg (fun hdis => hne (hconf.symm.trans hdis)), if_pos hopen, heq]
  obtain ⟨w₂, hshut, hready₂⟩ := appsecRshutdown_ready encode hready hsynced.flag
  cases res with
  | network => exact absurd rfl hres
  | shouldBlock | shouldRedirect =>
    -- the abort shuts the request down within RINIT
    dsimp only
    rw [hshut]
    exact ⟨_, _, rfl, hready₂, hconf₁, by simp⟩
  | success | error | tryLater | helperError =>
    exact ⟨_, _, rfl, hready, hconf₁, fun _ => hsynced⟩

/-- **User tracking** keeps the flags in step. -/
theorem userExec_ready (h : Ready conf w) (hsynced : Synced g w) :
    ∃ w', (helperLink encode).findAndApplyVerdictForUser g w = (g, w') ∧ Ready conf w' ∧
      Synced g w' := by
  unfold Link.findAndApplyVerdictForUser
  split
  · rename_i hcond
    obtain ⟨hflag, k, hk, hcreated⟩ := hsynced.mp hcond.1
    obtain ⟨res, w', heq, hready, hflag', hevents, k', hk', hfrom⟩ :=
      exchange_requestExec encode (g := g) h hflag
    rw [heq]
    refine ⟨w', rfl, hready, iff_of_true hcond.1 ⟨hflag', k', hk', ?_⟩⟩
    -- the context published to is the one of `request_init`, made in this request
    rcases hfrom with hold | hnew
    · rw [hk] at hold
      cases hold
      exact hevents _ hcreated
    · exact hnew
  · exact ⟨w, rfl, h, hsynced⟩

/-! ## Every run -/

/-- What holds after every hook. -/
structure Worker.Inv (conf : EnabledConfiguration) (s : Worker HelperEnd) : Prop where
  ready : Ready conf s.world
  configured : s.globals.enabledByConfiguration = conf
  synced : s.phase = .serving → Synced s.globals s.world
  aborted : s.phase = .aborted → s.globals.skipRshutdown = true

theorem Worker.Inv.start (conf : EnabledConfiguration) (service : Nat)
    (schedule : Nat → Moment) : (Worker.start conf service schedule).Inv conf where
  ready := ⟨rfl, by simp [Worker.start], rfl, by simp [Worker.start, Answered]⟩
  configured := rfl
  synced := by simp [Worker.start]
  aborted := by simp [Worker.start]

theorem Ready.fresh (h : Ready conf w) : Ready conf { w with events := [] } :=
  ⟨h.isOpen, h.service, h.enabledConf, h.answered⟩

/-- **Step lemma**, one case for each hook. -/
theorem Worker.Inv.step {s s' : Worker HelperEnd} {hook : Hook} (hne : conf ≠ .disabled)
    (h : s.Inv conf) (hstep : step encode s hook = some s') : s'.Inv conf := by
  obtain ⟨g, w, phase⟩ := s
  cases hook with
  | rinit =>
    cases phase with
    | idle =>
      obtain ⟨g', w', heq, hready, hconf, hsynced⟩ :=
        rinit_ready encode h.ready.fresh h.configured hne
      simp only [Extension.step, Link.step, heq, Option.some.injEq] at hstep
      subst hstep
      refine ⟨hready, hconf, fun hphase => hsynced ?_, fun hphase => ?_⟩
      · by_contra hskip
        simp [hconf, hne, hskip] at hphase
      · by_contra hskip
        simp [hskip] at hphase
    | serving | aborted => simp [Extension.step, Link.step] at hstep
  | userExec =>
    cases phase with
    | serving =>
      obtain ⟨w', heq, hready, hsynced⟩ := userExec_ready encode h.ready (h.synced rfl)
      simp only [Extension.step, Link.step, heq, Option.some.injEq] at hstep
      subst hstep
      exact ⟨hready, h.configured, fun _ => hsynced, by simp⟩
    | idle | aborted => simp [Extension.step, Link.step] at hstep
  | rshutdown =>
    cases phase with
    | serving =>
      obtain ⟨w', heq, hready⟩ := appsecRshutdown_ready encode h.ready (h.synced rfl).flag
      have hshut : ∃ w', (helperLink encode).rshutdown g w = (g, w') ∧ Ready conf w' := by
        unfold Link.rshutdown
        split
        · exact ⟨w, rfl, h.ready⟩
        · exact ⟨w', heq, hready⟩
      obtain ⟨w', heq, hready⟩ := hshut
      simp only [Extension.step, Link.step, heq, Option.some.injEq] at hstep
      subst hstep
      exact ⟨hready, h.configured, by simp, by simp⟩
    | aborted =>
      -- `request_shutdown` was sent by the abort, and RSHUTDOWN sends nothing
      have hskip : g.skipRshutdown = true := h.aborted rfl
      simp only [Extension.step, Link.step, Link.rshutdown, hskip, or_true, if_true,
        Option.some.injEq] at hstep
      subst hstep
      exact ⟨h.ready, h.configured, by simp, by simp⟩
    | idle => simp [Extension.step, Link.step] at hstep

/-- **The flags stay in step**: over any sequence of requests and any
schedule of remote status changes, after each hook of a request being served
the extension is enabled exactly when the helper is and holds a context of
this request, and every `request_exec` and `request_shutdown` so far was
answered by its handler. -/
theorem flags_stay_synced (conf : EnabledConfiguration) (hne : conf ≠ .disabled) (service : Nat)
    (schedule : Nat → Moment) (hooks : List Hook) :
    Throughout (step encode) (fun _ _ s => InStep s) (Worker.start conf service schedule)
      hooks := by
  refine throughout_of_invariant (C := fun _ _ => True) (Worker.Inv conf) ?_
    (Worker.Inv.start conf service schedule) (along_true _ _)
  intro s hook s' hinv _ hstep
  have hinv' := hinv.step encode hne hstep
  exact ⟨hinv', hinv'.synced, hinv'.ready.answered, hinv'.ready.isOpen⟩

/-- The status is enabled for one request and disabled between the next
one's `config_sync` and its `request_init`. -/
def toggledSchedule (n : Nat) : Moment :=
  ⟨[], if n < 5 then .enabled else .disabled, none, false, ∅, ∅⟩

theorem toggled_status_stays_synced :
    (run (step fun _ => none) (.start .notConfigured 0 toggledSchedule)
        [.rinit, .userExec, .rshutdown, .rinit, .userExec, .rshutdown]).map
      (fun s => s.world.log.map Prod.fst) =
        some [.configSync, .requestInit, .requestExec, .requestShutdown, .configSync,
          .requestInit] ∧
    Throughout (step fun _ => none) (fun _ _ s => InStep s)
      (.start .notConfigured 0 toggledSchedule)
      [.rinit, .userExec, .rshutdown, .rinit, .userExec, .rshutdown] :=
  ⟨rfl, flags_stay_synced _ .notConfigured (by decide) 0 toggledSchedule _⟩

end DdAppsec.Extension
