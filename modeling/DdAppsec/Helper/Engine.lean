import DdAppsec.Helper.JsonHelper
import DdAppsec.Lib.Runs

/-!
# Helper — rulesets and the engine's action map

`EngineRuleset` is a parsed rules document. `engine_ruleset` refuses a text
that is not a JSON object, and the listener only ever hands over an object,
so a ruleset IS its list of members.

`Engine` is the shared state behind `engine::common_`: the subscribers and
the action map. `parseActions` reads the `actions` member of a ruleset over
a map of defaults; `Engine.update` installs a new ruleset.
-/

namespace DdAppsec.Helper

open Lib

/-! ## engine_ruleset -/

/-- The document of an `engine_ruleset`: an object. -/
structure EngineRuleset where
  members : Members

/-- The files the helper can read: path to contents. -/
abbrev FileSystem := Bytes → Option Bytes

/-- `read_file`. -/
def readFile (files : FileSystem) (path : Bytes) : Except Exception Bytes :=
  match files path with
  | none => .error .systemError
  | some contents => .ok contents

/-- `engine_ruleset::engine_ruleset(std::string_view)`. -/
def EngineRuleset.ofText (deps : Deps) (ruleset : Bytes) : Except Exception EngineRuleset :=
  match deps.parseJson (cstr ruleset) with
  | some (.object ms) => .ok ⟨ms⟩
  | _ => .error (.parsingError "invalid json rule")

theorem EngineRuleset.ofText_object {deps : Deps} {ruleset : Bytes} {members : Members}
    (hcstr : cstr ruleset = ruleset) (hparse : deps.parseJson ruleset = some (.object members)) :
    EngineRuleset.ofText deps ruleset = .ok ⟨members⟩ := by
  simp only [EngineRuleset.ofText, hcstr, hparse]

/-- One `inputs`/`output` pair of the schema-extraction processor. -/
def schemaMapping (address output : String) : Json :=
  .object [("inputs", .array [.object [("address", .string address)]]),
    ("output", .string output)]

/-- A `match_regex` operator of a scanner. -/
def matchRegex (regex : String) (minLength : Int) : Json :=
  .object [("operator", .string "match_regex"),
    ("parameters", .object [("regex", .string regex),
      ("options", .object [("case_sensitive", .bool false),
        ("min_length", .number (.int minLength))])])]

/-- One scanner of personal data. -/
def piiScanner (id name : String) (key value : Json) (type : String) : Json :=
  .object [("id", .string id), ("name", .string name), ("key", key), ("value", value),
    ("tags", .object [("type", .string type), ("category", .string "pii")])]

def defaultProcessors : Json :=
  .array [.object [("id", .string "processor-001"), ("generator", .string "extract_schema"),
    ("conditions", .array [.object [("operator", .string "equals"),
      ("parameters", .object [
        ("inputs", .array [.object [("address", .string "waf.context.processor"),
          ("key_path", .array [.string "extract-schema"])]]),
        ("type", .string "boolean"), ("value", .bool true)])]]),
    ("parameters", .object [
      ("mappings", .array [
        schemaMapping "server.request.body" "_dd.appsec.s.req.body",
        schemaMapping "server.request.headers.no_cookies" "_dd.appsec.s.req.headers",
        schemaMapping "server.request.query" "_dd.appsec.s.req.query",
        schemaMapping "server.request.path_params" "_dd.appsec.s.req.params",
        schemaMapping "server.request.cookies" "_dd.appsec.s.req.cookies",
        schemaMapping "server.response.headers.no_cookies" "_dd.appsec.s.res.headers",
        schemaMapping "server.response.body" "_dd.appsec.s.res.body"]),
      ("scanners", .array [.object [("tags", .object [("category", .string "pii")])]])]),
    ("evaluate", .bool false), ("output", .bool true)]]

def defaultScanners : Json :=
  .array [
    piiScanner "d962f7ddb3f55041e39195a60ff79d4814a7c331" "US Passport Scanner"
      (matchRegex "passport" 8)
      (matchRegex "\\b[0-9A-Z]\x7b9\x7d\\b|\\b[0-9]\x7b6\x7d[A-Z][0-9]\x7b2\x7d\\b" 8)
      "passport_number",
    piiScanner "ac6d683cbac77f6e399a14990793dd8fd0fca333"
      "US Vehicle Identification Number Scanner"
      (matchRegex "vehicle[_\\s-]*identification[_\\s-]*number|vin" 3)
      (matchRegex "\\b[A-HJ-NPR-Z0-9]\x7b17\x7d\\b" 17) "vin",
    piiScanner "de0899e0cbaaa812bb624cf04c912071012f616d"
      "UK National Insurance Number Scanner"
      (matchRegex ("national[\\s_]?(?:insurance(?:\\s+number)?)?|NIN|NI[\\s_]?number" ++
        "|insurance[\\s_]?number") 3)
      (matchRegex "\\b[A-Z]\x7b2\x7d\\d\x7b6\x7d[A-Z]?\\b" 8) "uk_nin",
    piiScanner "450239afc250a19799b6c03dc0e16fd6a4b2a1af"
      "Canadian Social Insurance Number Scanner"
      (matchRegex ("social[\\s_]?(?:insurance(?:\\s+number)?)?|SIN|Canadian[\\s_]?" ++
        "(?:social[\\s_]?(?:insurance)?|insurance[\\s_]?number)?") 3)
      (matchRegex "\\b\\d\x7b3\x7d-\\d\x7b3\x7d-\\d\x7b3\x7d\\b" 11) "canadian_sin"]

/-- `engine_ruleset::add_default_processors_and_scanners`. `AddMember` only
appends: a member of the same name stays in front. -/
def EngineRuleset.addDefaultProcessorsAndScanners (r : EngineRuleset) : EngineRuleset :=
  let additions : Members := [("processors", defaultProcessors), ("scanners", defaultScanners)]
  ⟨r.members ++ additions⟩

/-- `engine_ruleset::from_path`. -/
def EngineRuleset.fromPath (deps : Deps) (files : FileSystem) (path : Bytes) :
    Except Exception EngineRuleset :=
  match readFile files path with
  | .error e => .error e
  | .ok contents =>
    match EngineRuleset.ofText deps contents with
    | .error e => .error e
    | .ok r => .ok r.addDefaultProcessorsAndScanners

/-- What `from_path` throws: the file cannot be read, or is not a JSON
object. -/
theorem EngineRuleset.fromPath_error {deps : Deps} {files : FileSystem} {path : Bytes}
    {e : Exception} (h : EngineRuleset.fromPath deps files path = .error e) :
    e = .systemError ∨ e = .parsingError "invalid json rule" := by
  unfold EngineRuleset.fromPath readFile EngineRuleset.ofText at h
  cases hf : files path with
  | none =>
    simp only [hf] at h
    cases h
    exact Or.inl rfl
  | some contents =>
    simp only [hf] at h
    split at h
    · rename_i e' he'
      split at he'
      · cases he'
      · cases he'
        cases h
        exact Or.inr rfl
    · cases h

/-! ## Actions -/

inductive ActionType where
  | record | redirect | block
  deriving DecidableEq, Repr

structure Action where
  type : ActionType
  parameters : StringMap Bytes
  deriving DecidableEq

abbrev ActionMap := StringMap Action

/-- `engine::default_actions`. -/
def defaultActions : ActionMap :=
  (∅ : ActionMap).insert "block"
    ⟨.block, ((∅ : StringMap Bytes).insert "status_code" "403").insert "type" "auto"⟩

/-- The text `parse_action` stores for a parameter; `none` for the kinds it
skips. -/
def parameterText : Json → Option Bytes
  | .string s => some (cstr s)
  | .number (.int n) => some (intToString n)
  | .number (.double d) => some (doubleToString d)
  | .bool true => some "true"
  | .bool false => some "false"
  | _ => none

/-- The loop over the `parameters` members; a later duplicate wins. -/
def parseParameters (ms : Members) : StringMap Bytes :=
  ms.foldl (fun acc m =>
    match parameterText m.2 with
    | some text => acc.insert (cstr m.1) text
    | none => acc) ∅

/-- The `action.type` of an action object. -/
def parseActionType (type : Bytes) : Except Exception ActionType :=
  if type = "block_request" then .ok .block
  else if type = "redirect_request" then .ok .redirect
  else .error (.parsingError
    (Bytes.ofString "unknown action.type " ++ type ++
      Bytes.ofString " only block_request supported"))

/-- `parse_action`. -/
def parseAction (action : Members) : Except Exception Action :=
  match action.find "type" with
  | some (.string type) =>
    match parseActionType (cstr type) with
    | .error e => .error e
    | .ok t =>
      match action.find "parameters" with
      | some (.object ps) => .ok ⟨t, parseParameters ps⟩
      | _ => .error (.parsingError "no action.parameters found or unexpected type")
  | _ => .error (.parsingError "no action.type found or unexpected type")

/-- The body of the loop of `parse_actions`: an entry that is not an object,
has no string `id` or does not parse is logged and skipped. -/
def addAction (actions : ActionMap) (entry : Json) : ActionMap :=
  match entry with
  | .object ms =>
    match Members.find ms "id" with
    | some (.string id) =>
      match parseAction ms with
      | .ok action => actions.insert (cstr id) action
      | .error _ => actions
    | _ => actions
  | _ => actions

/-- `engine::parse_actions`. -/
def parseActions (doc : EngineRuleset) (default : ActionMap) : ActionMap :=
  match doc.members.find "actions" with
  | some (.array entries) => entries.foldl addAction default
  | _ => default

/-- `engine::result`: what publishing data to a context yields. -/
structure EngineResult where
  type : ActionType
  parameters : StringMap Bytes
  events : List Bytes
  schemas : StringMap Bytes
  forceKeep : Bool

/-! ## The engine -/

/-- `enable_asm_status`, the flag of a `service_config`. -/
inductive EnableAsmStatus where
  | notSet | enabled | disabled
  deriving DecidableEq, Repr

/-- `engine::shared_state`, over any type of subscribers. -/
structure Engine (Sub : Type) where
  subscribers : List Sub
  actions : ActionMap

variable {Sub : Type}

/-- `engine::from_settings` up to its subscriber: the rules file is read and
its actions are parsed over the defaults. `load` is the WAF instance made
from the ruleset; what it throws is logged and thrown on. -/
def Engine.fromSettings (deps : Deps) (load : EngineRuleset → Except Exception Sub)
    (files : FileSystem) (rulesPath : Bytes) : Except Exception (Engine Sub) :=
  match EngineRuleset.fromPath deps files rulesPath with
  | .error e => .error e
  | .ok ruleset =>
    match load ruleset with
    | .error e => .error e
    | .ok waf => .ok ⟨[waf], parseActions ruleset defaultActions⟩

/-- `engine::update`. `updateSub` is `subscriber::update`, `none` where it
throws: the engine then keeps the old subscriber. -/
def Engine.update (updateSub : Sub → Parameter → Option Sub) (ruleset : EngineRuleset)
    (e : Engine Sub) : Engine Sub :=
  let newActions := parseActions ruleset defaultActions
  let newActions := if newActions.isEmpty then e.actions else newActions
  let param := jsonToParameter (.object ruleset.members)
  ⟨e.subscribers.map fun sub => (updateSub sub param).getD sub, newActions⟩

end DdAppsec.Helper
