import DdAppsec.Lib.Json

/-!
# Helper — exceptions, third-party code and `json_helper`

`Exception` lists what the helper's remote-config code can throw, each
with the text its `what()` returns. `assertion` stands for a rapidjson
accessor applied to a value of the wrong kind (`RAPIDJSON_ASSERT`): no
handler of the source catches it.

`Deps` is the code that is not in this repository: the base64 decoder and
the JSON parser. Everything below holds for any such functions.
-/

namespace DdAppsec.Helper

open Lib

inductive Exception where
  | errorApplyingConfig (what : Bytes)
  | invalidType (what : Bytes)
  | parsingError (what : Bytes)
  | systemError
  | assertion
  deriving DecidableEq

/-- The third-party functions. `none` is a thrown `std::runtime_error` and a
parse error respectively; that the base64 decoder throws nothing else is an
assumption. The parser reads a NUL-terminated text. -/
structure Deps where
  base64Decode : Bytes → Option Bytes
  parseJson : Bytes → Option Json

/-- The decoder and parser given by finite tables, to run the model on
concrete inputs. -/
def Deps.ofTables (base64 : List (Bytes × Bytes)) (json : List (Bytes × Json)) : Deps where
  base64Decode := fun b => base64.lookup b
  parseJson := fun b => json.lookup b

/-! ## Accessors -/

/-- `FindMember`: an assertion on anything but an object. -/
def findMember (v : Json) (key : Bytes) : Except Exception (Option Json) :=
  match v with
  | .object ms => .ok (Members.find ms key)
  | _ => .error .assertion

/-- `json_helper::get_field_of_type`. -/
def getFieldOfType (parent : Json) (key : Bytes) (type : Kind) :
    Except Exception (Option Json) :=
  match findMember parent key with
  | .error e => .error e
  | .ok none => .ok none
  | .ok (some v) => .ok (if type = v.kind then some v else none)

/-- `json_helper::get_json_base64_encoded_content`: the document, or `none`
where the source returns `false`. `Parse` is given `c_str()`. -/
def getJsonBase64EncodedContent (deps : Deps) (content : Bytes) : Option Json :=
  (deps.base64Decode content).bind fun decoded => deps.parseJson (cstr decoded)

/-- `json_helper::merge_arrays`, as the new value of the destination. -/
def mergeArrays (destination source : Json) : Except Exception Json :=
  match destination, source with
  | .array d, .array s => .ok (.array (d ++ s))
  | .array _, _ => .error (.invalidType "source value not an array")
  | _, _ => .error (.invalidType "destination value not an array")

/-- `json_helper::merge_objects`, as the new value of the destination. -/
def mergeObjects (destination source : Json) : Except Exception Json :=
  match destination, source with
  | .object d, .object s => .ok (.object (d ++ s))
  | .object _, _ => .error (.invalidType "source value not an object")
  | _, _ => .error (.invalidType "destination value not an object")

/-! ## WAF parameters -/

/-- A `ddwaf_object`. `uninitialised` is an element whose address was taken
and that no `ddwaf_object_*` function has written. -/
inductive Parameter where
  | uninitialised
  | invalid
  | int64 (n : Int)
  | uint64 (n : Nat)
  | string (s : Bytes)
  | boolean (b : Bool)
  | float64 (f : Float)
  | null
  | map (entries : List (Bytes × Parameter))
  | array (elems : List Parameter)

/-- `parameter_base::is_map`. -/
def Parameter.isMap : Parameter → Bool
  | .map _ => true
  | _ => false

mutual

/-- `json_to_object`. Keys and strings go through a `string_view` built from
`GetString()`, so they stop at the first NUL; a number that is neither an
`Int64` nor a `Uint64` leaves the element as it was. -/
def jsonToObject : Json → Parameter
  | .bool false => .string "false"
  | .bool true => .string "true"
  | .object ms => .map (jsonToEntries ms)
  | .array vs => .array (jsonToElements vs)
  | .string s => .string (cstr s)
  | .number (.int n) => .string (intToString n)
  | .number (.double _) => .uninitialised
  | .null => .invalid

/-- The members of a map, in document order. -/
def jsonToEntries : List (Bytes × Json) → List (Bytes × Parameter)
  | [] => []
  | (k, v) :: rest => (cstr k, jsonToObject v) :: jsonToEntries rest

/-- The elements of an array, in document order. -/
def jsonToElements : List Json → List Parameter
  | [] => []
  | v :: rest => jsonToObject v :: jsonToElements rest

end

/-- `json_to_parameter` of a document: the root object starts as invalid. The add
functions of libddwaf are assumed to append whatever element they are given, an
invalid one too. -/
def jsonToParameter (doc : Json) : Parameter :=
  match jsonToObject doc with
  | .uninitialised => .invalid
  | p => p

end DdAppsec.Helper
