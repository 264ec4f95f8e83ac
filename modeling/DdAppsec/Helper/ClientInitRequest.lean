import DdAppsec.Helper.Broker
import DdAppsec.Helper.ClientInit
import DdAppsec.Lib.Convert

/-!
# Helper — the arguments of client_init

The settings come as an array with three maps in it. A member that is missing
keeps its default, one of the wrong type makes the conversion throw, and then the
WHOLE request is the default one (`msgpackToClientInit`): `client_init` is never
refused for what is in it.
-/

namespace DdAppsec.Helper

open Lib Lib.MsgPack

/-! ## Defaults -/

/-- The bits of 0.1. -/
def defaultSampleRate : UInt64 := 0x3fb999999999999a

def ServiceIdentifier.default : ServiceIdentifier := ⟨[], [], [], [], [], []⟩

def SchemaExtractionSettings.default : SchemaExtractionSettings := ⟨false, defaultSampleRate⟩

def EngineSettings.default : EngineSettings := ⟨[], 10000, 100, [], [], .default⟩

def RcSettings.default : RcSettings := ⟨false, [], 8126, 1000⟩

/-- `client_init::request`: what is only logged, and what its handler uses. -/
structure ClientInitFields where
  pid : UInt32
  clientVersion : Bytes
  runtimeVersion : Bytes
  request : ClientInitRequest

def ClientInitFields.default : ClientInitFields where
  pid := 0
  clientVersion := []
  runtimeVersion := []
  request := ⟨.default, none, .default, .default⟩

/-! ## `MSGPACK_DEFINE_MAP` -/

def asUint32 (o : Obj) : Option UInt32 := (asUnsigned (2 ^ 32 - 1) o).map UInt32.ofNat

def asUint64 (o : Obj) : Option UInt64 := (asUnsigned (2 ^ 64 - 1) o).map UInt64.ofNat

def serviceMembers : List (Bytes × Setter ServiceIdentifier) :=
  [("service", setting asString fun id s => { id with service := s }),
    ("extra_services", setting (asVector asString) fun id s => { id with extraServices := s }),
    ("env", setting asString fun id s => { id with env := s }),
    ("tracer_version", setting asString fun id s => { id with tracerVersion := s }),
    ("app_version", setting asString fun id s => { id with appVersion := s }),
    ("runtime_id", setting asString fun id s => { id with runtimeId := s })]

def schemaExtractionMembers : List (Bytes × Setter SchemaExtractionSettings) :=
  [("enabled", setting asBool fun s b => { s with enabled := b }),
    ("sample_rate", setting asDouble fun s rate => { s with sampleRate := rate })]

def engineSettingsMembers : List (Bytes × Setter EngineSettings) :=
  [("rules_file", setting asString fun s file => { s with rulesFile := file }),
    ("waf_timeout_us", setting asUint64 fun s n => { s with wafTimeoutUs := n }),
    ("trace_rate_limit", setting asUint32 fun s n => { s with traceRateLimit := n }),
    ("obfuscator_key_regex", setting asString fun s r => { s with obfuscatorKeyRegex := r }),
    ("obfuscator_value_regex", setting asString fun s r => { s with obfuscatorValueRegex := r }),
    ("schema_extraction", fun s o =>
      (convertMap schemaExtractionMembers o s.schemaExtraction).map fun schema =>
        { s with schemaExtraction := schema })]

def rcSettingsMembers : List (Bytes × Setter RcSettings) :=
  [("enabled", setting asBool fun s b => { s with enabled := b }),
    ("host", setting asString fun s host => { s with host := host }),
    ("port", setting asUint32 fun s port => { s with port := port }),
    ("poll_interval", setting asUint32 fun s n => { s with pollInterval := n })]

/-! ## `MSGPACK_DEFINE` -/

/-- A member of the part that the handler uses. -/
def inRequest {α : Type} (conv : ClientInitRequest → Obj → Option α)
    (put : ClientInitRequest → α → ClientInitRequest) : Setter ClientInitFields :=
  fun f o => (conv f.request o).map fun a => { f with request := put f.request a }

def clientInitMembers : List (Setter ClientInitFields) :=
  [setting asUint32 fun f pid => { f with pid := pid },
    setting asString fun f version => { f with clientVersion := version },
    setting asString fun f version => { f with runtimeVersion := version },
    inRequest (fun _ => asOptional asBool) fun r b => { r with enabledConfiguration := b },
    inRequest (fun r o => convertMap serviceMembers o r.service) fun r id =>
      { r with service := id },
    inRequest (fun r o => convertMap engineSettingsMembers o r.engineSettings) fun r s =>
      { r with engineSettings := s },
    inRequest (fun r o => convertMap rcSettingsMembers o r.rcSettings) fun r s =>
      { r with rcSettings := s }]

/-- `msgpack_to_request` for `client_init`: whatever is thrown leaves the default
request. -/
def msgpackToClientInit (o : Obj) : ClientInitFields :=
  (convertArray clientInitMembers o .default).getD .default

/-- The arguments of a message, as `as<request>` converts them. -/
def clientInitOf : Obj → Option ClientInitFields
  | .array [.str method, arguments] =>
    if commandNameToId method = .clientInit then some (msgpackToClientInit arguments) else none
  | _ => none

/-- The arguments of a body that `broker::recv` unpacks. -/
def clientInitReceived (codec : Codec) (body : Bytes) : Option ClientInitFields :=
  match codec.unpack brokerLimits maxDepth body with
  | .ok o => clientInitOf o
  | .error _ => none

end DdAppsec.Helper
