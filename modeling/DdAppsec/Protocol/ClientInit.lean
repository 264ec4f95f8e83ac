import DdAppsec.Extension.ClientInit
import DdAppsec.Helper.ClientInitRequest
import DdAppsec.Helper.Framing
import DdAppsec.Protocol.RequestLimits
import DdAppsec.Protocol.Reports

/-!
# Protocol — the settings of a connection

`client_init` has no answer for settings that cannot be converted: the helper
goes on with its defaults. `meantInit` are the settings of the extension as the
helper's types have them, and `settings_arrive` says that it is always these that
the helper works with, if the message is within its limits.

`handshake_succeeds_iff` is about both directions: the extension takes the
connection exactly if the helper has a service for it and is of the same version.
-/

namespace DdAppsec.Protocol

open Lib Lib.MsgPack Extension

/-! ## Settings, as they are meant -/

section Settings

variable (phpUrlParse : Bytes → Option ParsedUrl) (e : ClientInitEnv)

/-- `optional<bool>`. -/
def meantEnabled : EnabledConfiguration → Option Bool
  | .notConfigured => none
  | .enabled => some true
  | .disabled => some false

def meantService : Helper.ServiceIdentifier where
  service := cstr e.service
  extraServices := e.extraServices
  env := cstr e.env
  tracerVersion := orEmpty e.tracerVersion
  appVersion := cstr e.appVersion
  runtimeId := e.runtimeId.getD []

def meantEngineSettings : Helper.EngineSettings where
  rulesFile := cstr e.rulesFile
  wafTimeoutUs := e.wafTimeout
  traceRateLimit := e.traceRateLimit
  obfuscatorKeyRegex := cstr e.obfuscationParameterKeyRegexp
  obfuscatorValueRegex := cstr e.obfuscationParameterValueRegexp
  schemaExtraction := ⟨e.apiSecurityEnabled, e.requestSampleRate⟩

def meantRcSettings : Helper.RcSettings where
  enabled := e.remoteConfigEnabled
  host := cstr (agentDetails phpUrlParse e).1
  port := (agentDetails phpUrlParse e).2
  pollInterval := e.pollInterval

def meantInit : Helper.ClientInitFields where
  pid := e.pid
  clientVersion := e.clientVersion
  runtimeVersion := e.runtimeVersion
  request := {
    service := meantService e
    enabledConfiguration := meantEnabled e.enabledByConfiguration
    engineSettings := meantEngineSettings e
    rcSettings := meantRcSettings phpUrlParse e }

/-! ## The conversion -/

@[simp] theorem asUint32_toNat (n : UInt32) : Helper.asUint32 (.int n.toNat) = some n := by
  have hlt := n.toNat_lt
  rw [Helper.asUint32, asUnsigned, if_pos (by omega)]
  simp

@[simp] theorem asUint64_toNat (n : UInt64) : Helper.asUint64 (.int n.toNat) = some n := by
  have hlt := n.toNat_lt
  rw [Helper.asUint64, asUnsigned, if_pos (by omega)]
  simp

@[simp] theorem asVector_strings (list : List Bytes) :
    asVector asString (.array (list.map .str)) = some list := allOf_map fun _ _ => rfl

theorem convert_service (id : Helper.ServiceIdentifier) :
    convertMap Helper.serviceMembers (namedMap (serviceEntries e)) id = some (meantService e) := by
  rw [namedMap, convertMap_named rfl (by decide) (.refl _)]
  simp [Helper.serviceMembers, serviceEntries, convertItems, setting, asString, meantService]

theorem convert_schemaExtraction (s : Helper.SchemaExtractionSettings) :
    convertMap Helper.schemaExtractionMembers (namedMap (schemaExtractionEntries e)) s =
      some ⟨e.apiSecurityEnabled, e.requestSampleRate⟩ := by
  rw [namedMap, convertMap_named rfl (by decide) (.refl _)]
  rfl

theorem convert_engineSettings (s : Helper.EngineSettings) :
    convertMap Helper.engineSettingsMembers (namedMap (engineSettingsEntries e)) s =
      some (meantEngineSettings e) := by
  rw [namedMap, convertMap_named rfl (by decide) (.refl _)]
  simp [Helper.engineSettingsMembers, engineSettingsEntries, convertItems, setting, asString,
    convert_schemaExtraction, meantEngineSettings]

theorem convert_rcSettings (s : Helper.RcSettings) :
    convertMap Helper.rcSettingsMembers (namedMap (rcSettingsEntries phpUrlParse e)) s =
      some (meantRcSettings phpUrlParse e) := by
  rw [namedMap, convertMap_named rfl (by decide) (.refl _)]
  simp [Helper.rcSettingsMembers, rcSettingsEntries, convertItems, setting, asString, asBool,
    meantRcSettings]

theorem convert_enabled :
    asOptional asBool (enabledConfigurationObj e) =
      some (meantEnabled e.enabledByConfiguration) := by
  rw [enabledConfigurationObj]
  cases e.enabledByConfiguration <;> rfl

/-- Whatever the settings are, they convert. -/
theorem msgpackToClientInit_eq :
    Helper.msgpackToClientInit (.array (clientInitObjs phpUrlParse e)) =
      meantInit phpUrlParse e := by
  simp [Helper.msgpackToClientInit, convertArray, clientInitObjs, Helper.clientInitMembers,
    convertItems, setting, Helper.inRequest, asString, convert_enabled, convert_service,
    convert_engineSettings, convert_rcSettings, meantInit, Helper.ClientInitFields.default]

end Settings

/-! ## The message -/

section Message

variable {codec : Codec} {phpUrlParse : Bytes → Option ParsedUrl} {e : ClientInitEnv}

/-- A message is unpacked if it is within the limits, and else there is an error
after which the connection goes on. -/
theorem recv_of_writes (hc : codec.Conforms) {body : Bytes} {o : Obj} (hwrites : Writes body o)
    {s : Helper.Socket} {more : Bytes} (hs : s.unread = connSendv body ++ more)
    (hprompt : s.Prompt (connSendv body).length) :
    (o.within Helper.brokerLimits Helper.maxDepth = true ∧ body.length < Helper.maxMsgBodySize →
      (Helper.recv codec s).1 = Helper.unpackRequest codec body ∧
        codec.unpack Helper.brokerLimits Helper.maxDepth body = .ok o) ∧
    (¬(o.within Helper.brokerLimits Helper.maxDepth = true ∧
        body.length < Helper.maxMsgBodySize) → Recoverable (Helper.recv codec s).1) := by
  have hunpack : codec.unpack Helper.brokerLimits Helper.maxDepth body =
      if o.within Helper.brokerLimits Helper.maxDepth then .ok o else .error .overflow := by
    rw [hwrites.eq, hc.unpack_encode hwrites.valid]
  rw [recv_connSendv codec body hs hprompt]
  constructor
  · rintro ⟨hwithin, hsize⟩
    have hsize' : body.length < 65536 := hsize
    rw [Nat.mod_eq_of_lt (by omega), if_neg (Nat.not_le_of_lt hsize), List.take_length]
    exact ⟨rfl, by rw [hunpack, hwithin, if_pos rfl]⟩
  · intro h
    split
    · exact .inl rfl
    · next hsmall =>
      refine unpackRequest_of_error fun o' => ?_
      by_cases hwhole : body.length < 256 ^ 4
      · rw [Nat.mod_eq_of_lt hwhole] at hsmall ⊢
        rw [List.take_length, hunpack]
        rw [if_neg fun hwithin => h ⟨hwithin, Nat.lt_of_not_le hsmall⟩]
        exact fun heq => by cases heq
      · -- the length has wrapped around
        have hmod : body.length % 256 ^ 4 < 256 ^ 4 := Nat.mod_lt _ (by decide)
        have hmore : body.drop (body.length % 256 ^ 4) ≠ [] := by
          rw [Ne, List.drop_eq_nil_iff]
          omega
        exact hc.unpack_strict hwrites.valid Helper.maxDepth
          ((List.take_append_drop _ body).trans hwrites.eq) hmore o'

/-- The limits of the helper. -/
def SettingsFit (codec : Codec) (phpUrlParse : Bytes → Option ParsedUrl) (e : ClientInitEnv) :
    Prop :=
  (clientInitObj phpUrlParse e).within Helper.brokerLimits Helper.maxDepth = true ∧
    (clientInitBody codec phpUrlParse e).length < Helper.maxMsgBodySize

theorem asRequest_clientInit (arguments : Obj) :
    Helper.asRequest (.array [.str "client_init", arguments]) = some ⟨.clientInit, .invalid⟩ ∧
      Helper.clientInitOf (.array [.str "client_init", arguments]) =
        some (Helper.msgpackToClientInit arguments) := by
  have hid : Helper.commandNameToId "client_init" = .clientInit := by decide
  constructor
  · unfold Helper.asRequest
    dsimp only
    rw [hid]
  · rw [Helper.clientInitOf, hid, if_pos rfl]

theorem recv_clientInit (hc : codec.Conforms) (hcounts : e.Counts phpUrlParse)
    {s : Helper.Socket} {more : Bytes}
    (hs : s.unread = connSendv (clientInitBody codec phpUrlParse e) ++ more)
    (hprompt : s.Prompt (connSendv (clientInitBody codec phpUrlParse e)).length) :
    (SettingsFit codec phpUrlParse e →
      (Helper.recv codec s).1 = .request ⟨.clientInit, .invalid⟩ ∧
        Helper.clientInitReceived codec (clientInitBody codec phpUrlParse e) =
          some (meantInit phpUrlParse e)) ∧
    (¬SettingsFit codec phpUrlParse e → Recoverable (Helper.recv codec s).1) := by
  obtain ⟨hwithin, hbeyond⟩ := recv_of_writes hc (writes_clientInit hc hcounts) hs hprompt
  obtain ⟨hrequest, harguments⟩ := asRequest_clientInit (.array (clientInitObjs phpUrlParse e))
  refine ⟨fun hfit => ?_, hbeyond⟩
  obtain ⟨hrecv, hunpack⟩ := hwithin hfit
  constructor
  · rw [hrecv, Helper.unpackRequest, hunpack]
    dsimp only
    rw [clientInitObj, hrequest]
  · rw [Helper.clientInitReceived, hunpack]
    dsimp only
    rw [clientInitObj, harguments, msgpackToClientInit_eq]

/-- The helper is told a port that there is. -/
theorem agentDetails_port (phpUrlParse : Bytes → Option ParsedUrl) (e : ClientInitEnv) :
    0 < (agentDetails phpUrlParse e).2.toNat ∧ (agentDetails phpUrlParse e).2.toNat ≤ 65535 := by
  rw [agentDetails]
  generalize configuredAgent phpUrlParse e = agent
  obtain ⟨host, port⟩ := agent
  dsimp only
  split
  · decide
  · next h =>
    obtain ⟨hzero, hlarge⟩ := not_or.mp h
    rw [← UInt32.toNat_inj] at hzero
    rw [UInt32.not_lt, UInt32.le_iff_toNat_le] at hlarge
    exact ⟨Nat.pos_of_ne_zero hzero, hlarge⟩

/-- **The settings arrive**, whatever they are, or there is an error: the defaults
of the helper are never used for them, and the port is always one that there is. -/
theorem settings_arrive (hc : codec.Conforms) (hcounts : e.Counts phpUrlParse)
    {s : Helper.Socket} {more : Bytes}
    (hs : s.unread = connSendv (clientInitBody codec phpUrlParse e) ++ more)
    (hprompt : s.Prompt (connSendv (clientInitBody codec phpUrlParse e)).length) :
    ((Helper.recv codec s).1 = .request ⟨.clientInit, .invalid⟩ ∧
      ∃ f, Helper.clientInitReceived codec (clientInitBody codec phpUrlParse e) = some f ∧
        f = meantInit phpUrlParse e ∧ 0 < f.request.rcSettings.port.toNat ∧
        f.request.rcSettings.port.toNat ≤ 65535) ∨
    (¬SettingsFit codec phpUrlParse e ∧ Recoverable (Helper.recv codec s).1) := by
  obtain ⟨hfits, hbeyond⟩ := recv_clientInit hc hcounts hs hprompt
  by_cases hfit : SettingsFit codec phpUrlParse e
  · obtain ⟨hrecv, hreceived⟩ := hfits hfit
    exact .inl ⟨hrecv, _, hreceived, rfl, agentDetails_port phpUrlParse e⟩
  · exact .inr ⟨hfit, hbeyond hfit⟩

/-- A web server with the defaults, and one more service. -/
def plainSettings : ClientInitEnv where
  pid := 17
  clientVersion := "1.0.0"
  runtimeVersion := "8.2.0"
  enabledByConfiguration := .notConfigured
  service := "web"
  extraServices := ["api", "jobs"]
  env := "prod"
  tracerVersion := some "1.1.0"
  appVersion := []
  runtimeId := none
  rulesFile := []
  wafTimeout := 10000
  traceRateLimit := 100
  obfuscationParameterKeyRegexp := []
  obfuscationParameterValueRegexp := []
  apiSecurityEnabled := false
  requestSampleRate := Helper.defaultSampleRate
  remoteConfigEnabled := false
  pollInterval := 1000
  agentHost := none
  traceAgentUrl := none
  traceAgentPort := 0

theorem plainSettings_counts : plainSettings.Counts fun _ => none where
  texts := by decide +kernel
  extraServices := by decide

theorem plainSettings_fit : SettingsFit Codec.format (fun _ => none) plainSettings :=
  ⟨by decide +kernel, by decide +kernel⟩

theorem plain_settings_arrive :
    (Helper.recv Codec.format (.holding (connSendv
        (clientInitBody Codec.format (fun _ => none) plainSettings)))).1 =
      .request ⟨.clientInit, .invalid⟩ ∧
    Helper.clientInitReceived Codec.format
        (clientInitBody Codec.format (fun _ => none) plainSettings) =
      some (meantInit (fun _ => none) plainSettings) := by
  rcases settings_arrive Codec.format_conforms plainSettings_counts (List.append_nil _).symm
    (Helper.Socket.holding_prompt _) with ⟨hrecv, f, hreceived, rfl, -⟩ | ⟨hbeyond, -⟩
  · exact ⟨hrecv, hreceived⟩
  · exact absurd plainSettings_fit hbeyond

end Message

/-! ## The answer -/

section Answer

variable {packDouble : UInt64 → Obj} {tags : List (Bytes × Bytes)}
  {metrics : List (Bytes × UInt64)}

/-- What the extension makes of the helper's answer. -/
theorem processClientInit_message (hmetrics : ∀ m ∈ metrics, Packs packDouble m.2)
    (span : RootSpan) (phpDdappsecVersion status version : Bytes) (errors : List Bytes) :
    span.processClientInit phpDdappsecVersion
        ((Response.clientInit status version errors tags metrics).message packDouble) =
      (if status = "ok" ∧ version = phpDdappsecVersion then .success else .error,
        ((span.commandProcessMeta (stringMap tags)).commandProcessMetrics
          (metricsMap packDouble metrics)).1) := by
  have hempty : (if 0 < (tags.map fun e => (Obj.str e.1, Obj.str e.2)).length then
      span.commandProcessMeta (stringMap tags) else span) =
      span.commandProcessMeta (stringMap tags) := by
    cases tags <;> rfl
  have hnumbers : ((span.commandProcessMeta (stringMap tags)).commandProcessMetrics
      (metricsMap packDouble metrics)).2 = false := by
    have hentries := addMetricEntries_ok packDouble hmetrics
    simp only [RootSpan.commandProcessMetrics, metricsMap]
    cases (span.commandProcessMeta (stringMap tags)).metrics with
    | none => rfl
    | some t => exact hentries t
  have hboth : span.processMetaAndMetrics
      ((Response.clientInit status version errors tags metrics).message packDouble) =
      (((span.commandProcessMeta (stringMap tags)).commandProcessMetrics
        (metricsMap packDouble metrics)).1, false) := by
    simp only [RootSpan.processMetaAndMetrics, Response.message, nodeArrayAt_array]
    show (_, false || _) = _
    rw [Bool.false_or]
    exact Prod.ext (congrArg (fun r => (RootSpan.commandProcessMetrics r _).1) hempty)
      ((congrArg (fun r => (RootSpan.commandProcessMetrics r _).2) hempty).trans hnumbers)
  rw [RootSpan.processClientInit, hboth]
  simp only [Response.message, nodeArrayAt_array]
  by_cases hstatus : status = "ok"
  · subst hstatus
    simp only [List.getElem?_cons_zero, Option.getD_some, Option.isNone_some, nodeStrEq_str,
      decide_true, if_true, checkHelperVersion, nodeArrayAt_array, true_and]
    rfl
  · simp [hstatus]

end Answer

/-! ## Both directions -/

section Handshake

variable {Sub : Type}

/-- What the helper writes after the first message. `what` is the text of an
exception, and tags and metrics are those of the new engine. -/
def initResponse (what : Helper.Exception → Bytes) (version : Bytes)
    (tags : List (Bytes × Bytes)) (metrics : List (Bytes × UInt64)) : Helper.Reply → Response
  | .clientInit r =>
    .clientInit (if r.ok then "ok" else "fail") version (r.errors.map what) tags metrics
  -- nothing but an error is answered to another message
  | .request _ => .error

/-- What `dd_client_init` returns. -/
def clientInitResult (span : RootSpan) (phpDdappsecVersion : Bytes) : Routed → DdResult
  | .incomingCb message => (span.processClientInit phpDdappsecVersion message).1
  | .notReceived res => res
  | .configFeaturesCb _ | .malformed | .unexpected => .error

variable {codec : Codec} {packDouble : UInt64 → Obj} {r : Response}

section Reply

variable (hc : codec.Conforms) (hsend : r.Sendable packDouble) {owner : Owner}
  {cmsg : Option Cmsghdr} (hcred : checkCredentials owner cmsg = .success) {d : Delivery}
  (harrives : Arrives d (r.packed packDouble)) (hsize : (r.packed packDouble).length < 2 ^ 32)

include hc hsend hcred harrives hsize

/-- The reply to the first message is sorted by its type, however long it is. -/
theorem commandIn_clientInit (more : Bytes) :
    commandIn codec "client_init" (replyRecv owner cmsg "client_init" d
        (Helper.responseFrame (r.packed packDouble) ++ more)).1 =
      if r.type = "config_features" then .configFeaturesCb (r.message packDouble)
      else if r.type = "client_init" then .incomingCb (r.message packDouble)
      else .unexpected := by
  have hmax : (r.packed packDouble).length ≤ maxReplySize "client_init" := by
    rw [maxReplySize, if_pos rfl]
    omega
  rw [(replyRecv_responseFrame (fun _ => hcred) harrives more).1 hmax, commandIn_packed hc hsend]

theorem clientInitResult_error (hr : r = .error) (more : Bytes) (span : RootSpan)
    (version : Bytes) :
    clientInitResult span version (commandIn codec "client_init" (replyRecv owner cmsg
      "client_init" d (Helper.responseFrame (r.packed packDouble) ++ more)).1) = .error := by
  have hfeatures : Response.error.type ≠ "config_features" := by decide
  have hname : Response.error.type ≠ "client_init" := by decide
  rw [commandIn_clientInit hc hsend hcred harrives hsize, hr, if_neg hfeatures, if_neg hname]
  rfl

theorem clientInitResult_clientInit {status version : Bytes} {errors : List Bytes}
    {tags : List (Bytes × Bytes)} {metrics : List (Bytes × UInt64)}
    (hr : r = .clientInit status version errors tags metrics)
    (hmetrics : ∀ m ∈ metrics, Packs packDouble m.2) (more : Bytes) (span : RootSpan)
    (phpDdappsecVersion : Bytes) :
    clientInitResult span phpDdappsecVersion (commandIn codec "client_init" (replyRecv owner cmsg
      "client_init" d (Helper.responseFrame (r.packed packDouble) ++ more)).1) =
      if status = "ok" ∧ version = phpDdappsecVersion then .success else .error := by
  have hfeatures : Bytes.ofString "client_init" ≠ "config_features" := by decide
  rw [commandIn_clientInit hc hsend hcred harrives hsize, hr, Response.type, if_neg hfeatures,
    if_pos rfl, clientInitResult, processClientInit_message hmetrics]

end Reply

variable {phpUrlParse : Bytes → Option ParsedUrl} {e : ClientInitEnv}
  {p : Helper.Platform Sub} {st : Helper.Process Sub}

/-- A client with these settings. -/
def newcomer (phpUrlParse : Bytes → Option ParsedUrl) (e : ClientInitEnv)
    (files : Helper.FileSystem) (uuid : Bytes) (send : Helper.SendOutcome) : Helper.Newcomer :=
  ⟨(meantInit phpUrlParse e).request, files, uuid, send⟩

theorem runClientInit_reply (n : Helper.Newcomer) (parameter : Helper.Parameter) :
    (Helper.runClientInit p n (.request ⟨.clientInit, parameter⟩) st).reply =
      some (.clientInit (Helper.clientInit p n st).response) := rfl

theorem runClientInit_refused {n : Helper.Newcomer} {received : Helper.Received}
    (h : Recoverable received) :
    (Helper.runClientInit p n received st).reply = some (.request .error) := by
  have herror (keep : Bool) : (Helper.Client.fresh.sendError n.env keep).response =
      some .error := by
    unfold Helper.Client.sendError
    split
    · rfl
    · split <;> rfl
  rcases h with rfl | rfl | rfl <;> exact congrArg (Option.map _) (herror true)

theorem clientInit_response_ok {n : Helper.Newcomer} {i : Nat} {st' : Helper.Process Sub}
    (h : st.createService p n.args = (.ok i, st')) :
    (Helper.clientInit p n st).response = ⟨true, []⟩ := by
  rw [Helper.clientInit, h]

theorem clientInit_response_error {n : Helper.Newcomer} {exception : Helper.Exception}
    {st' : Helper.Process Sub} (h : st.createService p n.args = (.error exception, st')) :
    (Helper.clientInit p n st).response = ⟨false, [exception]⟩ := by
  rw [Helper.clientInit, h]

/-- **When a connection is taken**: the settings are within the limits of the
helper, it has a service for them, and both are of one version. -/
theorem handshake_succeeds_iff (hc : codec.Conforms) (hcounts : e.Counts phpUrlParse)
    {s : Helper.Socket} {more : Bytes}
    (hs : s.unread = connSendv (clientInitBody codec phpUrlParse e) ++ more)
    (hprompt : s.Prompt (connSendv (clientInitBody codec phpUrlParse e)).length)
    (files : Helper.FileSystem) (uuid : Bytes) (send : Helper.SendOutcome)
    {what : Helper.Exception → Bytes} {version : Bytes} {tags : List (Bytes × Bytes)}
    {metrics : List (Bytes × UInt64)} (hmetrics : ∀ m ∈ metrics, Packs packDouble m.2)
    {reply : Helper.Reply}
    (hreply : (Helper.runClientInit p (newcomer phpUrlParse e files uuid send)
      (Helper.recv codec s).1 st).reply = some reply)
    (hr : r = initResponse what version tags metrics reply) (hsend : r.Sendable packDouble)
    {owner : Owner} {cmsg : Option Cmsghdr} (hcred : checkCredentials owner cmsg = .success)
    {d : Delivery} (harrives : Arrives d (r.packed packDouble))
    (hsize : (r.packed packDouble).length < 2 ^ 32) (rest : Bytes) (span : RootSpan) :
    clientInitResult span e.clientVersion (commandIn codec "client_init" (replyRecv owner cmsg
      "client_init" d (Helper.responseFrame (r.packed packDouble) ++ rest)).1) = .success ↔
    SettingsFit codec phpUrlParse e ∧
      (∃ i, (st.createService p (newcomer phpUrlParse e files uuid send).args).1 = .ok i) ∧
      version = e.clientVersion := by
  obtain ⟨hfits, hbeyond⟩ := recv_clientInit hc hcounts hs hprompt
  by_cases hfit : SettingsFit codec phpUrlParse e
  · rw [(hfits hfit).1, runClientInit_reply] at hreply
    cases hreply
    rw [clientInitResult_clientInit hc hsend hcred harrives hsize hr hmetrics]
    rcases hcreate : st.createService p (newcomer phpUrlParse e files uuid send).args with
      ⟨created, st'⟩
    cases created with
    | ok i =>
      rw [clientInit_response_ok hcreate, if_pos rfl]
      simp [hfit]
    | error exception =>
      have hfail : Bytes.ofString "fail" ≠ "ok" := by decide
      rw [clientInit_response_error hcreate, if_neg fun h => hfail h.1]
      simp
  · rw [runClientInit_refused (hbeyond hfit)] at hreply
    cases hreply
    rw [clientInitResult_error hc hsend hcred harrives hsize hr]
    exact iff_of_false (fun h => by cases h) fun h => hfit h.1

/-- The answer to `plainSettings`. -/
def plainAnswer : Response := .clientInit "ok" "1.0.0" [] [] []

theorem plain_handshake :
    clientInitResult ⟨none, none, false⟩ "1.0.0" (commandIn Codec.format "client_init"
      (replyRecv thisProcess (some helperCredentials) "client_init" Delivery.atOnce
        (Helper.responseFrame (plainAnswer.packed .double) ++ [])).1) = .success := by
  have hrecv : (Helper.recv Codec.format (.holding (connSendv
      (clientInitBody Codec.format (fun _ => none) plainSettings)))).1 =
        .request ⟨.clientInit, .invalid⟩ :=
    ((recv_clientInit Codec.format_conforms plainSettings_counts (List.append_nil _).symm
      (Helper.Socket.holding_prompt _)).1 plainSettings_fit).1
  have hvalid : plainAnswer.Sendable .double :=
    ⟨by decide, show (Head.str 2).Valid by decide, show (Head.str 5).Valid by decide,
      ⟨by decide, trivial⟩, ⟨by decide, trivial⟩, ⟨by decide, trivial⟩, trivial⟩
  have harrives : Arrives Delivery.atOnce (plainAnswer.packed .double) :=
    ⟨by decide, rfl, by decide +kernel⟩
  have hmetrics (m : Bytes × UInt64) (h : m ∈ []) : Packs (.double) m.2 := nomatch h
  have hanswer : plainAnswer = initResponse (fun _ => []) "1.0.0" [] []
      (.clientInit ⟨true, []⟩) := rfl
  exact (handshake_succeeds_iff Codec.format_conforms plainSettings_counts
    (List.append_nil _).symm (Helper.Socket.holding_prompt _)
    (fun _ => some "\x7b\x7d") "1b4e28ba" .sent hmetrics
    (congrArg (fun received => (Helper.runClientInit Helper.Platform.plain
      (newcomer (fun _ => none) plainSettings (fun _ => some "\x7b\x7d") "1b4e28ba" .sent)
      received .start).reply) hrecv)
    hanswer hvalid (by decide) harrives (by decide +kernel) [] ⟨none, none, false⟩).mpr
    ⟨plainSettings_fit, ⟨0, rfl⟩, rfl⟩

end Handshake

end DdAppsec.Protocol
