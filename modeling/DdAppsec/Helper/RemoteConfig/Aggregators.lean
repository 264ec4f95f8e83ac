import DdAppsec.Helper.Engine
import DdAppsec.Helper.RemoteConfig.Config

/-!
# RemoteConfig — the config aggregators

An aggregator collects the configs of one product between two commits and
contributes a section to the ruleset the engine is given:

* ASM concatenates four arrays;
* ASM_DD keeps ONE ruleset, that of the last config added, and goes back to
  the fallback rules file when a config is removed;
* ASM_DATA merges lists of values with expirations, by id and by value.

Each `add` is a function from the aggregator's state to its new state or an
exception. An exception leaves the state as it was.
-/

namespace DdAppsec.Helper.RemoteConfig

open Lib

/-! ## ASM -/

/-- `expected_keys`. -/
def expectedKeys : List Bytes :=
  ["exclusions", "actions", "rules_override", "custom_rules"].map Bytes.ofString

/-- `asm_aggregator::init`: every expected key with an empty array. -/
def asmInit : Members := expectedKeys.map fun key => (key, .array [])

/-- The validation loop: the expected keys the document has, each an array. -/
def availableKeys (doc : Members) : List Bytes → Except Exception (List Bytes)
  | [] => .ok []
  | key :: rest =>
    match doc.find key with
    | none => availableKeys doc rest
    | some (.array _) =>
      match availableKeys doc rest with
      | .error e => .error e
      | .ok keys => .ok (key :: keys)
    | some _ => .error (.errorApplyingConfig (Bytes.ofString "Invalid type for " ++ key))

/-- The value of the first member called `key` becomes `v`. -/
def setMember (key : Bytes) (v : Json) : Members → Members
  | [] => []
  | (k, old) :: rest => if k = key then (k, v) :: rest else (k, old) :: setMember key v rest

/-- The merging loop. A key without a destination would dereference the end
iterator; `asmInit` rules that out. -/
def mergeKeys (doc : Members) : List Bytes → Members → Except Exception Members
  | [], ruleset => .ok ruleset
  | key :: rest, ruleset =>
    match ruleset.find key, doc.find key with
    | some dest, some source =>
      match mergeArrays dest source with
      | .error e => .error e
      | .ok merged => mergeKeys doc rest (setMember key merged ruleset)
    | _, _ => .error .assertion

/-- `asm_aggregator::add`. -/
def asmAdd (deps : Deps) (config : Config) (ruleset : Members) : Except Exception Members :=
  match getJsonBase64EncodedContent deps config.contents with
  | none => .error (.errorApplyingConfig "Invalid config contents")
  | some (.object doc) =>
    match availableKeys doc expectedKeys with
    | .error e => .error e
    | .ok keys => mergeKeys doc keys ruleset
  | some _ => .error (.errorApplyingConfig "Invalid type for config, expected object")

/-! ## ASM_DD -/

/-- `asm_dd_aggregator::add`: the new ruleset, whatever was there. -/
def asmDdAdd (deps : Deps) (config : Config) : Except Exception Members :=
  match getJsonBase64EncodedContent deps config.contents with
  | none => .error (.errorApplyingConfig "Invalid config contents")
  | some (.object doc) => .ok doc
  | some _ => .error (.errorApplyingConfig "Invalid type for config, expected object")

/-- `asm_dd_aggregator::remove`: back to the fallback rules file. Which
config is removed plays no part. -/
def asmDdRemove (deps : Deps) (files : FileSystem) (fallback : Bytes) (ruleset : Members) :
    Except Exception Members :=
  if fallback = [] then .ok ruleset
  else
    match EngineRuleset.fromPath deps files fallback with
    | .error e => .error e
    | .ok r => .ok r.members

/-! ## ASM_DATA -/

structure DataWithExpiration where
  value : Bytes
  expiration : Option Nat
  deriving DecidableEq

structure RuleData where
  id : Bytes
  type : Bytes
  data : StringMap DataWithExpiration

/-- `rule_data::emplace`. -/
def RuleData.emplace (rd : RuleData) (point : DataWithExpiration) : RuleData :=
  match rd.data[point.value]? with
  | none => { rd with data := rd.data.insert point.value point }
  | some old =>
    match point.expiration with
    | none => { rd with data := rd.data.insert point.value { old with expiration := none } }
    | some expiration =>
      match old.expiration with
      | none => rd
      | some current =>
        if expiration = 0 ∨ current < expiration then
          { rd with data := rd.data.insert point.value { old with expiration := some expiration } }
        else rd

/-- `rule_data::merge`; `other.data` is a `std::map`. -/
def RuleData.merge (rd other : RuleData) : RuleData :=
  (IterOrder.sorted.entries other.data).foldl (fun acc kv => acc.emplace kv.2) rd

/-- `GetUint64`: an assertion on a number that is not one. -/
def getUint64 : Number → Except Exception Nat
  | .int n => if 0 ≤ n ∧ n < 2 ^ 64 then .ok n.toNat else .error .assertion
  | .double _ => .error .assertion

/-- The `expiration` of a data entry. -/
def entryExpiration (entry : Members) : Except Exception (Option Nat) :=
  match entry.find "expiration" with
  | none => .ok none
  | some (.number n) =>
    match getUint64 n with
    | .error e => .error e
    | .ok expiration => .ok (some expiration)
  | some _ => .error (.errorApplyingConfig "Invalid type for expiration entry")

/-- One entry of a `data` array. -/
def dataPoint (entry : Json) : Except Exception DataWithExpiration :=
  match entry with
  | .object ms =>
    match Members.find ms "value" with
    | some (.string value) =>
      match entryExpiration ms with
      | .error e => .error e
      | .ok expiration => .ok ⟨cstr value, expiration⟩
    | _ => .error (.errorApplyingConfig "Invalid value of data entry")
  | _ => .error (.errorApplyingConfig
      "Invalid config json contents: Entry on data not a valid object")

/-- `extract_data`. -/
def extractData : List Json → RuleData → Except Exception RuleData
  | [], rd => .ok rd
  | entry :: rest, rd =>
    match dataPoint entry with
    | .error e => .error e
    | .ok point => extractData rest (rd.emplace point)

abbrev RulesData := StringMap RuleData

/-- A supported `rules_data` entry: into the rule of that id, or into a new
one that is only kept if it has data. -/
def addRuleData (id type : Bytes) (data : List Json) (rules : RulesData) :
    Except Exception RulesData :=
  match rules[id]? with
  | none =>
    match extractData data ⟨id, type, ∅⟩ with
    | .error e => .error e
    | .ok rd => .ok (if rd.data.isEmpty then rules else rules.insertIfNew id rd)
  | some rule =>
    match extractData data rule with
    | .error e => .error e
    | .ok rd => .ok (rules.insert id rd)

/-- The loop over `rules_data`. -/
def newRulesData : List Json → RulesData → Except Exception RulesData
  | [], rules => .ok rules
  | .object ms :: rest, rules =>
    match Members.find ms "id", Members.find ms "type", Members.find ms "data" with
    | some (.string id), some (.string type), some (.array data) =>
      if cstr type ≠ "data_with_expiration" ∧ cstr type ≠ "ip_with_expiration" then
        newRulesData rest rules
      else
        match addRuleData (cstr id) (cstr type) data rules with
        | .error e => .error e
        | .ok rules' => newRulesData rest rules'
    | _, _, _ => .error (.errorApplyingConfig
        "Invalid config json contents: rules_data missing a field or field is invalid")
  | _ :: _, _ => .error (.errorApplyingConfig
      "Invalid config json contents: rules_data entry invalid")

/-- The final merge of what a config brings into `rules_data_`. -/
def mergeRulesData (ord : IterOrder) (fresh rules : RulesData) : RulesData :=
  (ord.entries fresh).foldl (fun acc kv =>
    match acc[kv.1]? with
    | some rule => acc.insert kv.1 (rule.merge kv.2)
    | none => acc.insertIfNew kv.1 kv.2) rules

/-- `asm_data_aggregator::add`. -/
def asmDataAdd (deps : Deps) (ord : IterOrder) (config : Config) (rules : RulesData) :
    Except Exception RulesData :=
  match getJsonBase64EncodedContent deps config.contents with
  | none => .error (.errorApplyingConfig "Invalid config contents")
  | some doc =>
    match getFieldOfType doc "rules_data" .array with
    | .error e => .error e
    | .ok (some (.array entries)) =>
      match newRulesData entries ∅ with
      | .error e => .error e
      | .ok fresh => .ok (mergeRulesData ord fresh rules)
    | .ok _ => .error (.errorApplyingConfig
        "Invalid config json contents: rules_data key missing or invalid")

/-- One data point, as `aggregate` writes it. -/
def dataPointJson (value : Bytes) (point : DataWithExpiration) : Json :=
  match point.expiration with
  | some expiration =>
    .object [("expiration", .number (.int expiration)), ("value", .string value)]
  | none => .object [("value", .string value)]

/-- One rule, as `aggregate` writes it. -/
def ruleDataJson (rule : RuleData) : Json :=
  .object [("id", .string rule.id), ("type", .string rule.type),
    ("data", .array ((IterOrder.sorted.entries rule.data).map fun kv =>
      dataPointJson kv.1 kv.2))]

/-- The member `asm_data_aggregator::aggregate` adds. -/
def asmDataSection (ord : IterOrder) (rules : RulesData) : Members :=
  [("rules_data", .array ((ord.entries rules).map fun kv => ruleDataJson kv.2))]

end DdAppsec.Helper.RemoteConfig
