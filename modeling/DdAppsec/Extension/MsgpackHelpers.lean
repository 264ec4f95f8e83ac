import DdAppsec.Lib.Json
import DdAppsec.Lib.MsgPack

/-!
# Extension — writing PHP values

`writeZval` is `_mpack_write_zval`: the bytes that a value becomes, with a
`Codec` for the heads that mpack writes. Whether an array becomes an array or
a map depends on its keys (`determineArrayType`).

`zvalObj` is the MessagePack object that is written, and `writeZval_eq` says
that the bytes are its encoding. A boolean becomes a number
(`writeTrueFalse`). The counts are 32-bit numbers: a longer
string is cut, and a hash table cannot be larger (`Zval.Valid`).
-/

namespace DdAppsec.Extension

open Lib Lib.MsgPack

/-! ## Values -/

/-- A key of a hash table. -/
inductive Key where
  | str (s : Bytes)
  | int (i : Int64)
  deriving DecidableEq

/-- A `zval`. `other` is any type without a case of its own, such as an
object. Values are finite: nothing is referred to from within itself. -/
inductive Zval where
  | undef
  | null
  | boolean (b : Bool)
  | long (i : Int64)
  | double (bits : UInt64)
  | string (s : Bytes)
  | array (entries : List (Key × Zval))
  | reference (referent : Zval)
  | other

abbrev HashTable := List (Key × Zval)

/-- `zend_hash_str_find`. -/
def HashTable.find (table : HashTable) (name : Bytes) : Option Zval :=
  (table.find? fun e => e.1 = .str name).map Prod.snd

/-- `ZVAL_DEREF`. -/
def Zval.deref : Zval → Zval
  | .reference referent => referent
  | z => z

mutual

/-- `nNumOfElements` of every hash table is a `uint32_t`. -/
def Zval.Valid : Zval → Prop
  | .array entries => entries.length < 2 ^ 32 ∧ ValidTable entries
  | .reference referent => referent.Valid
  | .undef | .null | .boolean _ | .long _ | .double _ | .string _ | .other => True

def ValidTable : List (Key × Zval) → Prop
  | [] => True
  | (_, z) :: rest => z.Valid ∧ ValidTable rest

end

theorem validTable_iff (entries : List (Key × Zval)) :
    ValidTable entries ↔ ∀ e ∈ entries, e.2.Valid := by
  induction entries with
  | nil => simp [ValidTable]
  | cons e entries ih => simp [ValidTable, ih]

inductive ArrayType where
  | sequential | associative
  deriving DecidableEq, Repr

/-- The loop of `dd_php_determine_array_type`; the key of a sequential array
at place `i` is `i`. -/
def arrayTypeFrom (i : UInt64) : HashTable → ArrayType
  | [] => .sequential
  | (.str _, _) :: _ => .associative
  | (.int k, _) :: rest => if k.toUInt64 ≠ i then .associative else arrayTypeFrom (i + 1) rest

/-- `dd_php_determine_array_type`. A packed table without holes has the keys
that the loop looks for. -/
def determineArrayType (entries : HashTable) : ArrayType := arrayTypeFrom 0 entries

/-! ## Writing -/

section Write

variable (codec : Codec)

/-- `mpack_write_str`, whose count is a `uint32_t`. -/
def writeStr (s : Bytes) : Bytes :=
  codec.write (.str (s.length % 2 ^ 32)) ++ s.take (s.length % 2 ^ 32)

/-- `dd_mpack_write_nullable_zstr`. -/
def writeNullableZstr : Option Bytes → Bytes
  | some s => writeStr codec s
  | none => writeStr codec []

/-- `mpack_write(w, true)` and `mpack_write(w, false)`. The macro picks the
writer by the type of its argument, and in C11 `true` and `false` are the `int`s
1 and 0; `mpack_write_bool` is not what is called. -/
def writeTrueFalse (b : Bool) : Bytes := codec.write (.int (if b then 1 else 0))

/-- A key as text; `ZEND_LTOA` for a number. -/
def Key.text : Key → Bytes
  | .str s => s
  | .int i => intToString i.toInt

mutual

/-- `_mpack_write_zval`. -/
def writeZval : Zval → Bytes
  | .undef => codec.write .nil
  | .null => codec.write .nil
  | .boolean b => writeTrueFalse codec b
  | .long i => codec.write (.int i.toInt)
  | .double bits => codec.write (.double bits)
  | .string s => writeStr codec s
  | .array entries =>
    match determineArrayType entries with
    -- the empty table too
    | .sequential => codec.write (.array entries.length) ++ writeVals entries
    | .associative => codec.write (.map entries.length) ++ writeKeyVals entries
  | .reference referent => writeZval referent
  | .other => codec.write .nil

def writeVals : List (Key × Zval) → Bytes
  | [] => []
  | (_, z) :: rest => writeZval z ++ writeVals rest

def writeKeyVals : List (Key × Zval) → Bytes
  | [] => []
  | (k, z) :: rest => writeStr codec k.text ++ (writeZval z ++ writeKeyVals rest)

end

/-- `dd_mpack_write_zval` of an autoglobal. -/
def writeAutoglobal : Option HashTable → Bytes
  | none => codec.write .nil
  | some table => writeZval codec (.array table)

/-- `mpack_build_array` to `mpack_complete_array`: the items are counted. -/
def buildArray (items : List Bytes) : Bytes :=
  codec.write (.array (items.length % 2 ^ 32)) ++ items.flatten

/-- `mpack_build_map` to `mpack_complete_map`. -/
def buildMap (entries : List (Bytes × Bytes)) : Bytes :=
  codec.write (.map (entries.length % 2 ^ 32)) ++ (entries.map fun e => e.1 ++ e.2).flatten

end Write

/-! ## The object -/

def strObj (s : Bytes) : Obj := .str (s.take (s.length % 2 ^ 32))

def trueFalseObj (b : Bool) : Obj := .int (if b then 1 else 0)

mutual

def zvalObj : Zval → Obj
  | .undef | .null | .other => .nil
  | .boolean b => trueFalseObj b
  | .long i => .int i.toInt
  | .double bits => .double bits
  | .string s => strObj s
  | .array entries =>
    match determineArrayType entries with
    | .sequential => .array (valObjs entries)
    | .associative => .map (keyValObjs entries)
  | .reference referent => zvalObj referent

def valObjs : List (Key × Zval) → List Obj
  | [] => []
  | (_, z) :: rest => zvalObj z :: valObjs rest

def keyValObjs : List (Key × Zval) → List (Obj × Obj)
  | [] => []
  | (k, z) :: rest => (strObj k.text, zvalObj z) :: keyValObjs rest

end

def autoglobalObj : Option HashTable → Obj
  | none => .nil
  | some table => zvalObj (.array table)

@[simp] theorem length_valObjs (entries : List (Key × Zval)) :
    (valObjs entries).length = entries.length := by
  induction entries with
  | nil => rfl
  | cons e entries ih => simp [valObjs, ih]

@[simp] theorem length_keyValObjs (entries : List (Key × Zval)) :
    (keyValObjs entries).length = entries.length := by
  induction entries with
  | nil => rfl
  | cons e entries ih => simp [keyValObjs, ih]

theorem length_take_count (s : Bytes) :
    (s.take (s.length % 2 ^ 32)).length = s.length % 2 ^ 32 := by
  rw [List.length_take]
  exact Nat.min_eq_left (Nat.mod_le _ _)

theorem trueFalseObj_valid (b : Bool) : (trueFalseObj b).Valid := by
  cases b with
  | false => exact ⟨by decide, by decide⟩
  | true => exact ⟨by decide, by decide⟩

theorem strObj_valid (s : Bytes) : (strObj s).Valid := by
  show (s.take (s.length % 2 ^ 32)).length < 2 ^ 32
  rw [length_take_count]
  omega

mutual

theorem zvalObj_valid (z : Zval) (hz : z.Valid) : (zvalObj z).Valid := by
  match z with
  | .undef | .null | .other | .double _ => exact trivial
  | .boolean b => exact trueFalseObj_valid b
  | .long i =>
    have hlo := i.le_toInt
    have hhi := i.toInt_lt
    exact ⟨hlo, by omega⟩
  | .string s => exact strObj_valid s
  | .reference referent => exact zvalObj_valid referent hz
  | .array entries =>
    rw [zvalObj]
    cases determineArrayType entries with
    | sequential =>
      exact ⟨show (valObjs entries).length < _ by rw [length_valObjs]; exact hz.1,
        valObjs_valid entries hz.2⟩
    | associative =>
      exact ⟨show (keyValObjs entries).length < _ by rw [length_keyValObjs]; exact hz.1,
        keyValObjs_valid entries hz.2⟩

theorem valObjs_valid (entries : List (Key × Zval)) (h : ValidTable entries) :
    ValidItems (valObjs entries) := by
  match entries with
  | [] => exact trivial
  | (_, z) :: rest => exact ⟨zvalObj_valid z h.1, valObjs_valid rest h.2⟩

theorem keyValObjs_valid (entries : List (Key × Zval)) (h : ValidTable entries) :
    ValidEntries (keyValObjs entries) := by
  match entries with
  | [] => exact trivial
  | (k, z) :: rest =>
    exact ⟨strObj_valid k.text, zvalObj_valid z h.1, keyValObjs_valid rest h.2⟩

end

mutual

theorem zvalObj_stringKeys (z : Zval) : (zvalObj z).StringKeys := by
  match z with
  | .undef | .null | .other | .boolean _ | .double _ | .long _ | .string _ => exact trivial
  | .reference referent => exact zvalObj_stringKeys referent
  | .array entries =>
    rw [zvalObj]
    cases determineArrayType entries with
    | sequential => exact valObjs_stringKeys entries
    | associative => exact keyValObjs_stringKeys entries

theorem valObjs_stringKeys (entries : List (Key × Zval)) :
    StringKeysItems (valObjs entries) := by
  match entries with
  | [] => exact trivial
  | (_, z) :: rest => exact ⟨zvalObj_stringKeys z, valObjs_stringKeys rest⟩

theorem keyValObjs_stringKeys (entries : List (Key × Zval)) :
    StringKeysEntries (keyValObjs entries) := by
  match entries with
  | [] => exact trivial
  | (_, z) :: rest => exact ⟨⟨_, rfl⟩, zvalObj_stringKeys z, keyValObjs_stringKeys rest⟩

end

/-! ## The bytes are the encoding -/

variable {codec : Codec}

theorem writeStr_eq (hc : codec.Conforms) (s : Bytes) : writeStr codec s = (strObj s).encode := by
  have hvalid : (Head.str (s.length % 2 ^ 32)).Valid :=
    show s.length % 2 ^ 32 < 2 ^ 32 by omega
  rw [writeStr, strObj, Obj.encode, length_take_count, hc.write_eq _ hvalid]

mutual

/-- **A value is written as its object.** -/
theorem writeZval_eq (hc : codec.Conforms) (z : Zval) (hz : z.Valid) :
    writeZval codec z = (zvalObj z).encode := by
  match z with
  | .undef | .null | .other => exact hc.write_eq .nil trivial
  | .boolean b => exact hc.write_eq _ (trueFalseObj_valid b)
  | .double bits => exact hc.write_eq (.double bits) trivial
  | .long i => exact hc.write_eq (.int i.toInt) (zvalObj_valid (.long i) trivial)
  | .string s => exact writeStr_eq hc s
  | .reference referent => exact writeZval_eq hc referent hz
  | .array entries =>
    rw [writeZval, zvalObj]
    cases determineArrayType entries with
    | sequential =>
      dsimp only
      rw [hc.write_eq (.array entries.length) hz.1, writeVals_eq hc entries hz.2, Obj.encode,
        length_valObjs]
    | associative =>
      dsimp only
      rw [hc.write_eq (.map entries.length) hz.1, writeKeyVals_eq hc entries hz.2, Obj.encode,
        length_keyValObjs]

theorem writeVals_eq (hc : codec.Conforms) (entries : List (Key × Zval))
    (h : ValidTable entries) : writeVals codec entries = encodeItems (valObjs entries) := by
  match entries with
  | [] => rfl
  | (_, z) :: rest =>
    rw [writeVals, valObjs, encodeItems, writeZval_eq hc z h.1, writeVals_eq hc rest h.2]

theorem writeKeyVals_eq (hc : codec.Conforms) (entries : List (Key × Zval))
    (h : ValidTable entries) :
    writeKeyVals codec entries = encodeEntries (keyValObjs entries) := by
  match entries with
  | [] => rfl
  | (k, z) :: rest =>
    rw [writeKeyVals, keyValObjs, encodeEntries, writeStr_eq hc, writeZval_eq hc z h.1,
      writeKeyVals_eq hc rest h.2]

end

/-- An array or map that was built item by item. -/
theorem buildArray_eq (hc : codec.Conforms) {items : List Obj} (hlength : items.length < 2 ^ 32) :
    buildArray codec (items.map Obj.encode) = (Obj.array items).encode := by
  rw [buildArray, List.length_map, Nat.mod_eq_of_lt hlength,
    hc.write_eq (.array items.length) hlength, Obj.encode, encodeItems_eq]

theorem buildMap_eq (hc : codec.Conforms) {entries : List (Obj × Obj)}
    (hlength : entries.length < 2 ^ 32) :
    buildMap codec (entries.map fun e => (e.1.encode, e.2.encode)) = (Obj.map entries).encode := by
  rw [buildMap, List.length_map, Nat.mod_eq_of_lt hlength,
    hc.write_eq (.map entries.length) hlength, Obj.encode, encodeEntries_eq, List.map_map]
  rfl

end DdAppsec.Extension
