import DdAppsec.Extension.Lifecycle
import DdAppsec.Extension.RequestInit
import DdAppsec.Extension.Verdict

/-!
# Extension — client_init

The first message of a connection carries the settings of the extension: who it
is, which service it belongs to, and how the helper's engine and remote config
client are to be set up. The answer says whether the helper could do it, and of
which version it is.

The counts in front of the maps are written by hand. `clientInitObjs` is the
message that is meant, and `writes_clientInit` says that these bytes are it.
-/

namespace DdAppsec.Extension

open Lib Lib.MsgPack

/-! ## Settings -/

/-- What `php_url_parse` finds in a URL. -/
structure ParsedUrl where
  host : Option Bytes
  port : UInt16

/-- The settings that are sent. The texts are `zend_string`s; the tracer may not
know its version and its runtime id. -/
structure ClientInitEnv where
  pid : UInt32
  clientVersion : Bytes
  runtimeVersion : Bytes
  enabledByConfiguration : EnabledConfiguration
  service : Bytes
  extraServices : List Bytes
  env : Bytes
  tracerVersion : Option Bytes
  appVersion : Bytes
  runtimeId : Option Bytes
  rulesFile : Bytes
  wafTimeout : UInt64
  traceRateLimit : UInt32
  obfuscationParameterKeyRegexp : Bytes
  obfuscationParameterValueRegexp : Bytes
  apiSecurityEnabled : Bool
  requestSampleRate : UInt64
  remoteConfigEnabled : Bool
  pollInterval : UInt32
  agentHost : Option Bytes
  traceAgentUrl : Option Bytes
  traceAgentPort : Int64

def defaultAgentPort : UInt32 := 8126
def defaultAgentHost : Bytes := "127.0.0.1"
def maxTcpPortAllowed : UInt32 := 65535

section Agent

variable (phpUrlParse : Bytes → Option ParsedUrl) (e : ClientInitEnv)

/-- The host and the port before the defaults. -/
def configuredAgent : Option Bytes × UInt32 :=
  let port := e.traceAgentPort.toUInt64.toUInt32
  match e.agentHost, e.traceAgentUrl with
  | some (c :: host), _ => (some (c :: host), port)
  | _, some (c :: url) =>
    match phpUrlParse (cstr (c :: url)) with
    | some parsed => (parsed.host.filter (· ≠ []), parsed.port.toUInt32)
    | none => (none, port)
  | _, _ => (none, port)

/-- `_pack_agent_details`: the host and the port that are sent. -/
def agentDetails : Bytes × UInt32 :=
  let (host, port) := configuredAgent phpUrlParse e
  (host.getD defaultAgentHost,
    if port = 0 ∨ maxTcpPortAllowed < port then defaultAgentPort else port)

end Agent

/-! ## The message -/

section Pack

variable (codec : Codec) (phpUrlParse : Bytes → Option ParsedUrl) (e : ClientInitEnv)

/-- `dd_mpack_write_nullable_cstr`. -/
def writeNullableCstr : Option Bytes → Bytes
  | some s => writeStr codec (cstr s)
  | none => writeStr codec []

def writeBool (b : Bool) : Bytes := codec.write (.boolean b)

def writeUint (n : Nat) : Bytes := codec.write (.int n)

/-- The values of a table that was filled from 0 on. -/
def packedFrom (i : Nat) : List Bytes → HashTable
  | [] => []
  | s :: vals => (.int (.ofNat i), .string s) :: packedFrom (i + 1) vals

def packedTable (vals : List Bytes) : HashTable := packedFrom 0 vals

/-- `mpack_start_map` with this count, and the entries. -/
def packMap (count : Nat) (entries : List (Bytes × Bytes)) : Bytes :=
  codec.write (.map count) ++ (entries.map fun x => writeStr codec x.1 ++ x.2).flatten

def packEnabledConfiguration : Bytes :=
  match e.enabledByConfiguration with
  | .notConfigured => codec.write .nil
  | configured => writeBool codec (configured = .enabled)

def packService : Bytes :=
  packMap codec 6 [
    ("service", writeNullableCstr codec (some e.service)),
    ("extra_services", writeZval codec (.array (packedTable e.extraServices))),
    ("env", writeNullableCstr codec (some e.env)),
    ("tracer_version", writeNullableCstr codec e.tracerVersion),
    ("app_version", writeNullableCstr codec (some e.appVersion)),
    ("runtime_id", writeNullableZstr codec e.runtimeId)]

def packEngineSettings : Bytes :=
  packMap codec 6 [
    ("rules_file", writeNullableCstr codec (some e.rulesFile)),
    ("waf_timeout_us", writeUint codec e.wafTimeout.toNat),
    ("trace_rate_limit", writeUint codec e.traceRateLimit.toNat),
    ("obfuscator_key_regex", writeNullableCstr codec (some e.obfuscationParameterKeyRegexp)),
    ("obfuscator_value_regex", writeNullableCstr codec (some e.obfuscationParameterValueRegexp)),
    ("schema_extraction", packMap codec 2 [
      ("enabled", writeBool codec e.apiSecurityEnabled),
      ("sample_rate", codec.write (.double e.requestSampleRate))])]

def packRemoteConfigSettings : Bytes :=
  let (host, port) := agentDetails phpUrlParse e
  packMap codec 4 [
    ("enabled", writeBool codec e.remoteConfigEnabled),
    ("host", writeNullableCstr codec (some host)),
    ("port", writeUint codec port.toNat),
    ("poll_interval", writeUint codec e.pollInterval.toNat)]

/-- The arguments that `_pack_command` of `client_init.c` writes; `num_args` is
7. -/
def clientInitPack : List Bytes :=
  [writeUint codec e.pid.toNat, writeStr codec e.clientVersion, writeStr codec e.runtimeVersion,
    packEnabledConfiguration codec e, packService codec e, packEngineSettings codec e,
    packRemoteConfigSettings codec phpUrlParse e]

def clientInitBody : Bytes :=
  codec.write (.array 2) ++ writeStr codec "client_init" ++ codec.write (.array 7) ++
    (clientInitPack codec phpUrlParse e).flatten

end Pack

/-! ## The answer -/

/-- `_process_meta_and_metrics`, with the error state of the tree. -/
def RootSpan.processMetaAndMetrics (r : RootSpan) (root : Obj) : RootSpan × Bool :=
  let (tags, failed) := nodeArrayAt root 3 false
  let (entries, failed) := nodeMapEntries tags failed
  let r := if 0 < entries.length then r.commandProcessMeta tags else r
  let (metrics, failed) := nodeArrayAt root 4 failed
  let (r, more) := r.commandProcessMetrics metrics
  (r, failed || more)

/-- `_check_helper_version`. -/
def checkHelperVersion (phpDdappsecVersion : Bytes) (root : Obj) (failed : Bool) : DdResult :=
  match nodeArrayAt root 1 failed with
  | (.str version, false) => if version = phpDdappsecVersion then .success else .error
  | _ => .error

/-- `_process_response` of `client_init.c`, as `_dd_command_exec` sees it: an error
state of the tree is an error. -/
def RootSpan.processClientInit (r : RootSpan) (phpDdappsecVersion : Bytes) (root : Obj) :
    DdResult × RootSpan :=
  let (r, failed) := r.processMetaAndMetrics root
  let (verdict, failed) := nodeArrayAt root 0 failed
  let (isOk, failed) := nodeStrEq verdict "ok" failed
  if isOk then (checkHelperVersion phpDdappsecVersion root failed, r) else (.error, r)

/-! ## What is meant -/

section Meant

variable (phpUrlParse : Bytes → Option ParsedUrl) (e : ClientInitEnv)

/-- A map with these names. -/
def namedMap (entries : List (Bytes × Obj)) : Obj := .map (entries.map fun x => (.str x.1, x.2))

def enabledConfigurationObj : Obj :=
  match e.enabledByConfiguration with
  | .notConfigured => .nil
  | configured => .boolean (configured = .enabled)

/-- A text that may not be there. -/
def orEmpty (s : Option Bytes) : Bytes := (s.map cstr).getD []

def serviceEntries : List (Bytes × Obj) :=
  [("service", .str (cstr e.service)), ("extra_services", .array (e.extraServices.map .str)),
    ("env", .str (cstr e.env)), ("tracer_version", .str (orEmpty e.tracerVersion)),
    ("app_version", .str (cstr e.appVersion)), ("runtime_id", .str (e.runtimeId.getD []))]

def schemaExtractionEntries : List (Bytes × Obj) :=
  [("enabled", .boolean e.apiSecurityEnabled), ("sample_rate", .double e.requestSampleRate)]

def engineSettingsEntries : List (Bytes × Obj) :=
  [("rules_file", .str (cstr e.rulesFile)), ("waf_timeout_us", .int e.wafTimeout.toNat),
    ("trace_rate_limit", .int e.traceRateLimit.toNat),
    ("obfuscator_key_regex", .str (cstr e.obfuscationParameterKeyRegexp)),
    ("obfuscator_value_regex", .str (cstr e.obfuscationParameterValueRegexp)),
    ("schema_extraction", namedMap (schemaExtractionEntries e))]

def rcSettingsEntries : List (Bytes × Obj) :=
  [("enabled", .boolean e.remoteConfigEnabled),
    ("host", .str (cstr (agentDetails phpUrlParse e).1)),
    ("port", .int (agentDetails phpUrlParse e).2.toNat),
    ("poll_interval", .int e.pollInterval.toNat)]

def clientInitObjs : List Obj :=
  [.int e.pid.toNat, .str e.clientVersion, .str e.runtimeVersion, enabledConfigurationObj e,
    namedMap (serviceEntries e), namedMap (engineSettingsEntries e),
    namedMap (rcSettingsEntries phpUrlParse e)]

def clientInitObj : Obj := .array [.str "client_init", .array (clientInitObjs phpUrlParse e)]

/-- The texts that are written. -/
def sentTexts : List Bytes :=
  [e.clientVersion, e.runtimeVersion, e.service, e.env, e.tracerVersion.getD [], e.appVersion,
    e.runtimeId.getD [], e.rulesFile, e.obfuscationParameterKeyRegexp,
    e.obfuscationParameterValueRegexp, (agentDetails phpUrlParse e).1] ++ e.extraServices

/-- Every count fits 32 bits. -/
structure ClientInitEnv.Counts : Prop where
  texts : ∀ s ∈ sentTexts phpUrlParse e, s.length < 2 ^ 32
  extraServices : e.extraServices.length < 2 ^ 32

end Meant

/-! ## The bytes are the message -/

section Writes

variable {codec : Codec} (hc : codec.Conforms)

include hc

theorem writes_short {s : Bytes} (h : s.length < 2 ^ 32) :
    Writes (writeStr codec s) (.str s) := by
  have hwrites := writes_str hc s
  rwa [strObj, Nat.mod_eq_of_lt h, List.take_length] at hwrites

theorem writes_cstr {s : Bytes} (h : s.length < 2 ^ 32) :
    Writes (writeNullableCstr codec (some s)) (.str (cstr s)) :=
  writes_short hc (Nat.lt_of_le_of_lt (List.takeWhile_prefix _).length_le h)

theorem writes_nullableCstr {s : Option Bytes} (h : (s.getD []).length < 2 ^ 32) :
    Writes (writeNullableCstr codec s) (.str (orEmpty s)) := by
  cases s with
  | none => exact writes_short hc (s := []) (by decide)
  | some s => exact writes_cstr hc h

theorem writes_nullableZstr {s : Option Bytes} (h : (s.getD []).length < 2 ^ 32) :
    Writes (writeNullableZstr codec s) (.str (s.getD [])) := by
  cases s with
  | none => exact writes_short hc (s := []) (by decide)
  | some s => exact writes_short hc h

theorem writes_bool (b : Bool) : Writes (writeBool codec b) (.boolean b) :=
  ⟨hc.write_eq (.boolean b) trivial, trivial, trivial⟩

theorem writes_uint {n : Nat} (h : n < 2 ^ 64) : Writes (writeUint codec n) (.int n) := by
  have hvalid : (Head.int n).Valid := ⟨by omega, by omega⟩
  exact ⟨hc.write_eq _ hvalid, hvalid, trivial⟩

theorem writes_packedTable {vals : List Bytes} (hlength : vals.length < 2 ^ 32)
    (h : ∀ s ∈ vals, s.length < 2 ^ 32) :
    Writes (writeZval codec (.array (packedTable vals))) (.array (vals.map .str)) := by
  have htype (i : Nat) (vals : List Bytes) :
      arrayTypeFrom (UInt64.ofNat i) (packedFrom i vals) = .sequential := by
    induction vals generalizing i with
    | nil => rfl
    | cons s vals ih =>
      have hkey : (Int64.ofNat i).toUInt64 = UInt64.ofNat i := rfl
      have hnext : UInt64.ofNat i + 1 = UInt64.ofNat (i + 1) := by simp
      rw [packedFrom, arrayTypeFrom, hkey, if_neg (by simp), hnext]
      exact ih (i + 1)
  have hobjs (i : Nat) (vals : List Bytes) (h : ∀ s ∈ vals, s.length < 2 ^ 32) :
      valObjs (packedFrom i vals) = vals.map .str := by
    induction vals generalizing i with
    | nil => rfl
    | cons s vals ih =>
      have hs : zvalObj (.string s) = .str s := by
        rw [zvalObj, strObj, Nat.mod_eq_of_lt (h s List.mem_cons_self), List.take_length]
      rw [packedFrom, valObjs, hs, ih (i + 1) fun s' hs' => h s' (List.mem_cons_of_mem s hs')]
      rfl
  have hvalid (i : Nat) (vals : List Bytes) :
      (packedFrom i vals).length = vals.length ∧ ValidTable (packedFrom i vals) := by
    induction vals generalizing i with
    | nil => exact ⟨rfl, trivial⟩
    | cons s vals ih => exact ⟨congrArg (· + 1) (ih (i + 1)).1, trivial, (ih (i + 1)).2⟩
  have htable : (Zval.array (packedTable vals)).Valid :=
    ⟨(hvalid 0 vals).1 ▸ hlength, (hvalid 0 vals).2⟩
  have hwrites := writes_zval hc htable
  have hsequential : determineArrayType (packedTable vals) = .sequential := htype 0 vals
  rwa [zvalObj, hsequential, packedTable, hobjs 0 vals h] at hwrites

/-- A map whose count is the number of its entries. -/
theorem writes_packMap {count : Nat} (members : List (Bytes × Bytes × Obj))
    (hcount : count = members.length) (hlength : members.length < 2 ^ 32)
    (h : ∀ m ∈ members, m.1.length < 2 ^ 32 ∧ Writes m.2.1 m.2.2) :
    Writes (packMap codec count (members.map fun m => (m.1, m.2.1)))
      (namedMap (members.map fun m => (m.1, m.2.2))) := by
  have hbytes :
      ((members.map fun m => (m.1, m.2.1)).map fun x => writeStr codec x.1 ++ x.2).flatten =
      encodeEntries ((members.map fun m => (m.1, m.2.2)).map fun x => (.str x.1, x.2)) := by
    clear hcount hlength
    induction members with
    | nil => rfl
    | cons m members ih =>
      obtain ⟨hname, hvalue⟩ := h m List.mem_cons_self
      simp only [List.map_cons, List.flatten_cons, encodeEntries,
        ih fun m' hm' => h m' (List.mem_cons_of_mem m hm'), (writes_short hc hname).eq, hvalue.eq,
        List.append_assoc]
  have hhead : (Head.map members.length).Valid := hlength
  refine ⟨?_, ⟨by simpa using hhead, ?_⟩, ?_⟩
  · rw [packMap, hbytes, hcount, hc.write_eq _ hhead, namedMap, Obj.encode]
    simp only [List.length_map]
  · rw [validEntries_iff]
    intro e he
    simp only [List.map_map, List.mem_map, Function.comp_apply] at he
    obtain ⟨m, hm, rfl⟩ := he
    exact ⟨(writes_short hc (h m hm).1).valid, (h m hm).2.valid⟩
  · refine (stringKeysEntries_iff _).mpr fun e he => ?_
    simp only [List.map_map, List.mem_map, Function.comp_apply] at he
    obtain ⟨m, hm, rfl⟩ := he
    exact ⟨⟨_, rfl⟩, (h m hm).2.stringKeys⟩

theorem writes_uint32 (n : UInt32) : Writes (writeUint codec n.toNat) (.int n.toNat) := by
  have hlt := n.toNat_lt
  exact writes_uint hc (by omega)

variable {phpUrlParse : Bytes → Option ParsedUrl} {e : ClientInitEnv}

theorem writes_enabledConfiguration :
    Writes (packEnabledConfiguration codec e) (enabledConfigurationObj e) := by
  rw [packEnabledConfiguration, enabledConfigurationObj]
  cases e.enabledByConfiguration with
  | notConfigured => exact ⟨hc.write_eq .nil trivial, trivial, trivial⟩
  | enabled => exact writes_bool hc _
  | disabled => exact writes_bool hc _

theorem writes_service (h : e.Counts phpUrlParse) :
    Writes (packService codec e) (namedMap (serviceEntries e)) := by
  refine writes_packMap hc [
    ("service", _, .str (cstr e.service)), ("extra_services", _, .array (e.extraServices.map .str)),
    ("env", _, .str (cstr e.env)), ("tracer_version", _, .str (orEmpty e.tracerVersion)),
    ("app_version", _, .str (cstr e.appVersion)), ("runtime_id", _, .str (e.runtimeId.getD []))]
    rfl (by simp) ?_
  simp only [List.forall_mem_cons, List.not_mem_nil, false_imp_iff, implies_true, and_true]
  exact ⟨⟨by decide, writes_cstr hc (h.texts e.service (by simp [sentTexts]))⟩,
    ⟨by decide, writes_packedTable hc h.extraServices fun s hs =>
      h.texts s (List.mem_append_right _ hs)⟩,
    ⟨by decide, writes_cstr hc (h.texts e.env (by simp [sentTexts]))⟩,
    ⟨by decide, writes_nullableCstr hc
      (h.texts (e.tracerVersion.getD []) (by simp [sentTexts]))⟩,
    ⟨by decide, writes_cstr hc (h.texts e.appVersion (by simp [sentTexts]))⟩,
    by decide, writes_nullableZstr hc (h.texts (e.runtimeId.getD []) (by simp [sentTexts]))⟩

theorem writes_engineSettings (h : e.Counts phpUrlParse) :
    Writes (packEngineSettings codec e) (namedMap (engineSettingsEntries e)) := by
  have hschema := writes_packMap hc [
    ("enabled", _, .boolean e.apiSecurityEnabled),
    ("sample_rate", codec.write (.double e.requestSampleRate), .double e.requestSampleRate)]
    rfl (by simp) (by
      simp only [List.forall_mem_cons, List.not_mem_nil, false_imp_iff, implies_true, and_true]
      exact ⟨⟨by decide, writes_bool hc e.apiSecurityEnabled⟩, by decide,
        ⟨hc.write_eq (.double _) trivial, trivial, trivial⟩⟩)
  refine writes_packMap hc [
    ("rules_file", _, .str (cstr e.rulesFile)), ("waf_timeout_us", _, .int e.wafTimeout.toNat),
    ("trace_rate_limit", _, .int e.traceRateLimit.toNat),
    ("obfuscator_key_regex", _, .str (cstr e.obfuscationParameterKeyRegexp)),
    ("obfuscator_value_regex", _, .str (cstr e.obfuscationParameterValueRegexp)),
    ("schema_extraction", _, namedMap (schemaExtractionEntries e))] rfl (by simp) ?_
  simp only [List.forall_mem_cons, List.not_mem_nil, false_imp_iff, implies_true, and_true]
  have htimeout := e.wafTimeout.toNat_lt
  exact ⟨⟨by decide, writes_cstr hc (h.texts e.rulesFile (by simp [sentTexts]))⟩,
    ⟨by decide, writes_uint hc htimeout⟩, ⟨by decide, writes_uint32 hc e.traceRateLimit⟩,
    ⟨by decide, writes_cstr hc (h.texts e.obfuscationParameterKeyRegexp (by simp [sentTexts]))⟩,
    ⟨by decide, writes_cstr hc
      (h.texts e.obfuscationParameterValueRegexp (by simp [sentTexts]))⟩,
    by decide, hschema⟩

theorem writes_remoteConfigSettings (h : e.Counts phpUrlParse) :
    Writes (packRemoteConfigSettings codec phpUrlParse e)
      (namedMap (rcSettingsEntries phpUrlParse e)) := by
  refine writes_packMap hc [
    ("enabled", _, .boolean e.remoteConfigEnabled),
    ("host", _, .str (cstr (agentDetails phpUrlParse e).1)),
    ("port", _, .int (agentDetails phpUrlParse e).2.toNat),
    ("poll_interval", _, .int e.pollInterval.toNat)] rfl (by simp) ?_
  simp only [List.forall_mem_cons, List.not_mem_nil, false_imp_iff, implies_true, and_true]
  exact ⟨⟨by decide, writes_bool hc e.remoteConfigEnabled⟩,
    ⟨by decide, writes_cstr hc (h.texts (agentDetails phpUrlParse e).1 (by simp [sentTexts]))⟩,
    ⟨by decide, writes_uint32 hc _⟩, by decide, writes_uint32 hc e.pollInterval⟩

omit hc in
/-- Values one after the other. -/
theorem writes_items {args : List Bytes} {objs : List Obj} (h : List.Forall₂ Writes args objs) :
    args.flatten = encodeItems objs ∧ ValidItems objs ∧ StringKeysItems objs := by
  induction h with
  | nil => exact ⟨rfl, trivial, trivial⟩
  | cons hwrites _ ih =>
    exact ⟨by rw [List.flatten_cons, ih.1, hwrites.eq, encodeItems],
      ⟨hwrites.valid, ih.2.1⟩, hwrites.stringKeys, ih.2.2⟩

/-- **The message of the settings**: the counts that were written by hand are
right. -/
theorem writes_clientInit (h : e.Counts phpUrlParse) :
    Writes (clientInitBody codec phpUrlParse e) (clientInitObj phpUrlParse e) := by
  have hname := writes_short hc (s := "client_init") (by decide)
  have hargs : List.Forall₂ Writes (clientInitPack codec phpUrlParse e)
      (clientInitObjs phpUrlParse e) :=
    .cons (writes_uint32 hc e.pid) <|
      .cons (writes_short hc (h.texts e.clientVersion (by simp [sentTexts]))) <|
      .cons (writes_short hc (h.texts e.runtimeVersion (by simp [sentTexts]))) <|
      .cons (writes_enabledConfiguration hc) <|
      .cons (writes_service hc h) <| .cons (writes_engineSettings hc h) <|
      .cons (writes_remoteConfigSettings hc h) .nil
  obtain ⟨hbytes, hvalid, hkeys⟩ := writes_items hargs
  have htwo : (Head.array 2).Valid := by decide
  have hseven : (Head.array 7).Valid := by decide
  refine ⟨?_, ⟨htwo, hname.valid, ⟨hseven, hvalid⟩, trivial⟩, hname.stringKeys, hkeys, trivial⟩
  rw [clientInitBody, hbytes, hname.eq, hc.write_eq _ htwo, hc.write_eq _ hseven, clientInitObj]
  simp [Obj.encode, encodeItems, clientInitObjs]

end Writes

end DdAppsec.Extension
