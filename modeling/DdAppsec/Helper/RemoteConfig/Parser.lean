import DdAppsec.Helper.RemoteConfig.Config
import DdAppsec.Helper.JsonHelper

/-!
# RemoteConfig — parsing the agent's responses

`parse` is `protocol::parse` for the body of a response and `parseInfo` is
`protocol::parse_info` for the agent's `/info`. The body is a JSON document
with a second one inside: `targets` is base64 of the signed targets.

A parser that gives up throws `parser_exception` with one of the results
below. `assertion` is the other way out: a rapidjson accessor applied to a
value of the wrong kind. The validation helpers check the kind of a member
and not that of its parent.
-/

namespace DdAppsec.Helper.RemoteConfig

open Lib

/-- `remote_config_parser_result`. -/
inductive ParserResult where
  | success | allowMissing | invalidJson | targetsFieldEmpty | targetsFieldInvalidBase64
  | targetsFieldInvalidJson | targetsFieldInvalidType | signedTargetsFieldInvalid
  | signedTargetsFieldMissing | typeSignedTargetsFieldInvalid | typeSignedTargetsFieldInvalidType
  | typeSignedTargetsFieldMissing | versionSignedTargetsFieldInvalid
  | versionSignedTargetsFieldMissing | customSignedTargetsFieldInvalid
  | customSignedTargetsFieldMissing | obsCustomSignedTargetsFieldInvalid
  | obsCustomSignedTargetsFieldMissing | targetFilesObjectInvalid | targetFilesFieldInvalidType
  | targetFilesPathFieldMissing | targetFilesPathFieldInvalidType | targetFilesRawFieldMissing
  | targetFilesRawFieldInvalidType | clientConfigFieldInvalidType | clientConfigFieldInvalidEntry
  | targetsSignedTargetsFieldInvalid | targetsSignedTargetsFieldMissing
  | customPathTargetsFieldInvalid | customPathTargetsFieldMissing | vPathTargetsFieldInvalid
  | vPathTargetsFieldMissing | hashesPathTargetsFieldInvalid | hashesPathTargetsFieldMissing
  | hashesPathTargetsFieldEmpty | hashHashesPathTargetsFieldInvalid
  | lengthPathTargetsFieldInvalid | lengthPathTargetsFieldMissing | invalidResponse
  | endpointsFieldMissing | endpointsFieldInvalid | invalidEndpoint
  deriving DecidableEq, Repr

/-- `remote_config_parser_result_to_str`, the text of the exception. -/
def ParserResult.toStr : ParserResult → Bytes
  | .success => "success"
  | .allowMissing => "allow_missing"
  | .invalidJson => "invalid_json"
  | .targetsFieldEmpty => "targets_field_empty"
  | .targetsFieldInvalidBase64 => "targets_field_invalid_base64"
  | .targetsFieldInvalidJson => "targets_field_invalid_json"
  | .targetsFieldInvalidType => "targets_field_invalid_type"
  | .signedTargetsFieldInvalid => "signed_targets_field_invalid"
  | .signedTargetsFieldMissing => "signed_targets_field_missing"
  | .typeSignedTargetsFieldInvalid => "type_signed_targets_field_invalid"
  | .typeSignedTargetsFieldInvalidType => "type_signed_targets_field_invalid_type"
  | .typeSignedTargetsFieldMissing => "type_signed_targets_field_missing"
  | .versionSignedTargetsFieldInvalid => "version_signed_targets_field_invalid"
  | .versionSignedTargetsFieldMissing => "version_signed_targets_field_missing"
  | .customSignedTargetsFieldInvalid => "custom_signed_targets_field_invalid"
  | .customSignedTargetsFieldMissing => "custom_signed_targets_field_missing"
  | .obsCustomSignedTargetsFieldInvalid => "obs_custom_signed_targets_field_invalid"
  | .obsCustomSignedTargetsFieldMissing => "obs_custom_signed_targets_field_missing"
  | .targetFilesObjectInvalid => "target_files_object_invalid"
  | .targetFilesFieldInvalidType => "target_files_field_invalid_type"
  | .targetFilesPathFieldMissing => "target_files_path_field_missing"
  | .targetFilesPathFieldInvalidType => "target_files_path_field_invalid_type"
  | .targetFilesRawFieldMissing => "target_files_raw_field_missing"
  | .targetFilesRawFieldInvalidType => "target_files_raw_field_invalid_type"
  | .clientConfigFieldInvalidType => "client_config_field_invalid_type"
  | .clientConfigFieldInvalidEntry => "client_config_field_invalid_entry"
  | .targetsSignedTargetsFieldInvalid => "targets_signed_targets_field_invalid"
  | .targetsSignedTargetsFieldMissing => "targets_signed_targets_field_missing"
  | .customPathTargetsFieldInvalid => "custom_path_targets_field_invalid"
  | .customPathTargetsFieldMissing => "custom_path_targets_field_missing"
  | .vPathTargetsFieldInvalid => "v_path_targets_field_invalid"
  | .vPathTargetsFieldMissing => "v_path_targets_field_missing"
  | .hashesPathTargetsFieldInvalid => "hashes_path_targets_field_invalid"
  | .hashesPathTargetsFieldMissing => "hashes_path_targets_field_missing"
  | .hashesPathTargetsFieldEmpty => "hashes_path_targets_field_empty"
  | .hashHashesPathTargetsFieldInvalid => "hash_hashes_path_targets_field_invalid"
  | .lengthPathTargetsFieldInvalid => "length_path_targets_field_invalid"
  | .lengthPathTargetsFieldMissing => "length_path_targets_field_missing"
  | .invalidResponse => "invalid_response"
  | .endpointsFieldMissing => "endpoints_field_missing"
  | .endpointsFieldInvalid => "endpoints_field_invalid"
  | .invalidEndpoint => "invalid_endpoint"

/-- How parsing ends without a response. -/
inductive ParseError where
  | parserException (result : ParserResult)
  | assertion
  deriving DecidableEq, Repr

abbrev Parsed (α : Type) := Except ParseError α

def throwResult {α : Type} (result : ParserResult) : Parsed α := .error (.parserException result)

/-! ## Members -/

/-- `FindMember` on what must be an object. -/
def findIn (parent : Json) (key : Bytes) : Parsed (Option Json) :=
  match parent with
  | .object ms => .ok (Members.find ms key)
  | _ => .error .assertion

/-- `validate_field_is_present` of a value; `none` where it returns `false`. -/
def validateFieldIsPresent (parent : Json) (key : Bytes) (type : Kind)
    (missing invalid : ParserResult) : Parsed (Option Json) :=
  match findIn parent key with
  | .error e => .error e
  | .ok none => if missing = .allowMissing then .ok none else throwResult missing
  | .ok (some v) => if type = v.kind then .ok (some v) else throwResult invalid

/-- `validate_field_is_present` of a member: nothing is allowed to be
missing. -/
def validateMemberIsPresent (parent : Json) (key : Bytes) (type : Kind)
    (missing invalid : ParserResult) : Parsed Json :=
  match findIn parent key with
  | .error e => .error e
  | .ok none => throwResult missing
  | .ok (some v) => if type = v.kind then .ok v else throwResult invalid

/-- `GetInt`: a number that is an integer of 32 bits. -/
def getInt : Json → Parsed Int
  | .number (.int n) => if -2 ^ 31 ≤ n ∧ n < 2 ^ 31 then .ok n else .error .assertion
  | _ => .error .assertion

/-- `GetString` into a `std::string`: up to the first NUL. -/
def getString : Json → Parsed Bytes
  | .string s => .ok (cstr s)
  | _ => .error .assertion

/-- The elements of an array. -/
def getElements : Json → Parsed (List Json)
  | .array elems => .ok elems
  | _ => .error .assertion

/-- The members of an object. -/
def getMembers : Json → Parsed Members
  | .object ms => .ok ms
  | _ => .error .assertion

/-! ## The body -/

/-- One string of a target file. -/
def targetFileField (file : Members) (key : Bytes) (missing invalid : ParserResult) :
    Parsed Bytes :=
  match file.find key with
  | none => throwResult missing
  | some (.string s) => .ok (cstr s)
  | some _ => throwResult invalid

/-- `parse_target_files`. `insert` keeps the first file of a path. -/
def parseTargetFiles : List Json → StringMap TargetFile → Parsed (StringMap TargetFile)
  | [], files => .ok files
  | .object file :: rest, files => do
    let path ← targetFileField file "path" .targetFilesPathFieldMissing
      .targetFilesPathFieldInvalidType
    let raw ← targetFileField file "raw" .targetFilesRawFieldMissing
      .targetFilesRawFieldInvalidType
    parseTargetFiles rest (files.insertIfNew path ⟨path, raw⟩)
  | _ :: _, _ => throwResult .targetFilesObjectInvalid

/-- `parse_client_configs`. -/
def parseClientConfigs : List Json → Parsed (List Bytes)
  | [] => .ok []
  | .string s :: rest => do
    let paths ← parseClientConfigs rest
    .ok (cstr s :: paths)
  | _ :: _ => throwResult .clientConfigFieldInvalidEntry

/-! ## The signed targets -/

/-- The loop over `hashes`. -/
def parseHashes : Members → StringMap Bytes → Parsed (StringMap Bytes)
  | [], hashes => .ok hashes
  | (algorithm, .string hash) :: rest, hashes =>
    parseHashes rest (hashes.insertIfNew (cstr algorithm) (cstr hash))
  | _ :: _, _ => throwResult .hashHashesPathTargetsFieldInvalid

/-- `parse_target`. The two numbers are read at the very end. -/
def parseTarget (name : Bytes) (target : Json) : Parsed (Bytes × TargetPath) := do
  let custom ← validateMemberIsPresent target "custom" .object .customPathTargetsFieldMissing
    .customPathTargetsFieldInvalid
  let v ← validateMemberIsPresent custom "v" .number .vPathTargetsFieldMissing
    .vPathTargetsFieldInvalid
  let hashes ← validateMemberIsPresent target "hashes" .object .hashesPathTargetsFieldMissing
    .hashesPathTargetsFieldInvalid
  let hashes ← parseHashes (← getMembers hashes) ∅
  if hashes.isEmpty then throwResult .hashesPathTargetsFieldEmpty
  else
    let length ← validateMemberIsPresent target "length" .number .lengthPathTargetsFieldMissing
      .lengthPathTargetsFieldInvalid
    .ok (cstr name, ⟨← getInt v, hashes, ← getInt length⟩)

/-- The loop over the targets. -/
def parsePaths : Members → Parsed (List (Bytes × TargetPath))
  | [] => .ok []
  | (name, target) :: rest => do
    let path ← parseTarget name target
    let paths ← parsePaths rest
    .ok (path :: paths)

/-- `parse_targets_signed`. `emplace` keeps the first target of a path. -/
def parseTargetsSigned (signed : Json) : Parsed Targets := do
  let version ← validateMemberIsPresent signed "version" .number
    .versionSignedTargetsFieldMissing .versionSignedTargetsFieldInvalid
  let targets ← validateMemberIsPresent signed "targets" .object
    .targetsSignedTargetsFieldMissing .targetsSignedTargetsFieldInvalid
  let paths ← parsePaths (← getMembers targets)
  let type ← validateMemberIsPresent signed "_type" .string .typeSignedTargetsFieldMissing
    .typeSignedTargetsFieldInvalid
  if (← getString type) ≠ Bytes.ofString "targets" then
    throwResult .typeSignedTargetsFieldInvalidType
  else
    let custom ← validateMemberIsPresent signed "custom" .object
      .customSignedTargetsFieldMissing .customSignedTargetsFieldInvalid
    let state ← validateMemberIsPresent custom "opaque_backend_state" .string
      .obsCustomSignedTargetsFieldMissing .obsCustomSignedTargetsFieldInvalid
    .ok ⟨← getInt version, ← getString state,
      paths.foldl (fun acc path => acc.insertIfNew path.1 path.2) ∅⟩

/-- `parse_targets`. -/
def parseTargets (deps : Deps) (targets : Json) : Parsed Targets := do
  let encoded ← getString targets
  if encoded = [] then throwResult .targetsFieldEmpty
  else
    match deps.base64Decode encoded with
    | none => throwResult .targetsFieldInvalidBase64
    | some decoded =>
      match deps.parseJson (cstr decoded) with
      | none => throwResult .targetsFieldInvalidJson
      | some doc =>
        match ← validateFieldIsPresent doc "signed" .object .signedTargetsFieldMissing
            .signedTargetsFieldInvalid with
        | none => .error .assertion
        | some signed => parseTargetsSigned signed

/-! ## The two documents -/

/-- The document of a body: an object. -/
def parseBody (deps : Deps) (body : Bytes) : Parsed Json :=
  match deps.parseJson (cstr body) with
  | none => throwResult .invalidJson
  | some (.object ms) => .ok (.object ms)
  | some _ => throwResult .invalidResponse

/-- `protocol::parse`: the kinds of the three fields first, their contents
after that. -/
def parse (deps : Deps) (body : Bytes) : Parsed GetConfigsResponse := do
  let doc ← parseBody deps body
  let targetFiles ← validateFieldIsPresent doc "target_files" .array .allowMissing
    .targetFilesFieldInvalidType
  let clientConfigs ← validateFieldIsPresent doc "client_configs" .array .allowMissing
    .clientConfigFieldInvalidType
  let targets ← validateFieldIsPresent doc "targets" .string .allowMissing
    .targetsFieldInvalidType
  let targetFiles ← match targetFiles with
    | none => .ok ∅
    | some files => parseTargetFiles (← getElements files) ∅
  let clientConfigs ← match clientConfigs with
    | none => .ok []
    | some configs => parseClientConfigs (← getElements configs)
  let targets ← match targets with
    | none => .ok none
    | some targets => .ok (some (← parseTargets deps targets))
  .ok ⟨targetFiles, clientConfigs, targets⟩

/-- The loop over the endpoints. -/
def parseEndpoints : List Json → Parsed (List Bytes)
  | [] => .ok []
  | .string s :: rest => do
    let endpoints ← parseEndpoints rest
    .ok (cstr s :: endpoints)
  | _ :: _ => throwResult .invalidEndpoint

/-- `protocol::parse_info`: the endpoints of the agent. -/
def parseInfo (deps : Deps) (body : Bytes) : Parsed (List Bytes) := do
  let doc ← parseBody deps body
  match ← validateFieldIsPresent doc "endpoints" .array .endpointsFieldMissing
      .endpointsFieldInvalid with
  | none => .error .assertion
  | some endpoints => parseEndpoints (← getElements endpoints)

end DdAppsec.Helper.RemoteConfig
