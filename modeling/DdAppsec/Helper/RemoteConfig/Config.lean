import DdAppsec.Lib.Bytes

/-!
# RemoteConfig — configs, responses and config paths

The records that travel between the agent and the helper: a stored
`Config`, what the agent says about a path (`TargetPath`), the files it
sends and the response that carries them. `ConfigPath.fromPath` is the one
parser of the module: it accepts the language of

  `^(datadog/\d+|employee)/([^/]+)/([^/]+)/[^/]+$`

read as "split at every slash".
-/

namespace DdAppsec.Helper.RemoteConfig

open Lib

/-- `protocol::config_state::applied_state`. -/
inductive AppliedState where
  | unknown | unacknowledged | acknowledged | error
  deriving DecidableEq, Repr

structure Config where
  product : Bytes
  id : Bytes
  contents : Bytes
  path : Bytes
  hashes : StringMap Bytes
  version : Int
  length : Int
  applyState : AppliedState
  applyError : Bytes
  deriving DecidableEq

/-- `protocol::path`: what the targets say about one file. -/
structure TargetPath where
  customV : Int
  hashes : StringMap Bytes
  length : Int
  deriving DecidableEq

structure TargetFile where
  path : Bytes
  raw : Bytes
  deriving DecidableEq

structure Targets where
  version : Int
  opaqueBackendState : Bytes
  paths : StringMap TargetPath
  deriving DecidableEq

structure GetConfigsResponse where
  targetFiles : StringMap TargetFile
  clientConfigs : List Bytes
  targets : Option Targets
  deriving DecidableEq

/-! ## Config paths -/

structure ConfigPath where
  id : Bytes
  product : Bytes
  deriving DecidableEq

/-- `\d` of an ECMAScript regex in the C locale. -/
def isDigit (c : UInt8) : Bool := 48 ≤ c && c ≤ 57

/-- The parts of a path between its slashes; always at least one. -/
def splitSlash (path : Bytes) : List Bytes := path.splitOn 47

/-- `config_path::from_path`; `none` is the thrown `invalid_path`. -/
def ConfigPath.fromPath (path : Bytes) : Option ConfigPath :=
  match splitSlash path with
  | [source, org, product, id, name] =>
    if source = "datadog" ∧ (org ≠ [] ∧ org.all isDigit) ∧
        product ≠ [] ∧ id ≠ [] ∧ name ≠ [] then some ⟨id, product⟩ else none
  | [source, product, id, name] =>
    if source = "employee" ∧ product ≠ [] ∧ id ≠ [] ∧ name ≠ [] then some ⟨id, product⟩
    else none
  | _ => none

example : ConfigPath.fromPath "datadog/2/ASM_DD/rules/config" =
    some ⟨"rules", "ASM_DD"⟩ := by decide

example : ConfigPath.fromPath "datadog//ASM_DD/rules/config" = none := by decide

example : ConfigPath.fromPath "employee/ASM/custom/f" = some ⟨"custom", "ASM"⟩ := by decide

/-! ## Concrete configs -/

/-- A long text, in pieces. -/
def ofPieces (pieces : List String) : Bytes := pieces.flatMap Bytes.ofString

/-- A config with nothing but its product and its contents. -/
def bareConfig (product contents : Bytes) : Config where
  product := product
  id := []
  contents := contents
  path := []
  hashes := ∅
  version := 0
  length := 0
  applyState := .unknown
  applyError := []

end DdAppsec.Helper.RemoteConfig
