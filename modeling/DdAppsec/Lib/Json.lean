import DdAppsec.Lib.Bytes

/-!
# Lib — a JSON document object model

The tree a DOM parser keeps: object members stay in document order and
DUPLICATE names are kept, so a lookup means the first member of that name.
Numbers are integers where the literal is one and fits 64 bits, and IEEE
doubles (as their bit pattern) otherwise.
-/

namespace DdAppsec.Lib

inductive Number where
  | int (n : Int)
  | double (bits : UInt64)
  deriving DecidableEq, Repr

inductive Json where
  | null
  | bool (b : Bool)
  | number (n : Number)
  | string (s : Bytes)
  | array (elems : List Json)
  | object (members : List (Bytes × Json))

/-- The kinds a DOM value can have; the two Booleans are two kinds. -/
inductive Kind where
  | null | false | true | object | array | string | number
  deriving DecidableEq, Repr

/-- The members of an object, in document order. -/
abbrev Members := List (Bytes × Json)

def Json.kind : Json → Kind
  | .null => .null
  | .bool true => .true
  | .bool false => .false
  | .number _ => .number
  | .string _ => .string
  | .array _ => .array
  | .object _ => .object

/-- The value of the FIRST member called `key`. -/
def Members.find (ms : Members) (key : Bytes) : Option Json :=
  (List.find? (fun m => m.1 == key) ms).map Prod.snd

@[simp] theorem Members.find_nil (key : Bytes) : Members.find [] key = none := rfl

@[simp] theorem Members.find_cons (k key : Bytes) (v : Json) (ms : Members) :
    Members.find ((k, v) :: ms) key =
      if k = key then some v else Members.find ms key := by
  by_cases hk : k = key
  · simp [Members.find, hk]
  · have hb : (k == key) = false := by simpa using hk
    simp [Members.find, hk, hb]

/-- Appending members only supplies names that were absent. -/
theorem Members.find_append (ms ms' : Members) (key : Bytes) :
    Members.find (ms ++ ms') key = (Members.find ms key).or (Members.find ms' key) := by
  induction ms with
  | nil => simp
  | cons m ms ih =>
    obtain ⟨k, v⟩ := m
    rw [List.cons_append, Members.find_cons, Members.find_cons]
    by_cases hk : k = key
    · simp [hk]
    · simp [hk, ih]

/-! ## Decimal text of numbers -/

/-- `std::to_string` of an integer. -/
def intToString (n : Int) : Bytes := Bytes.ofString (toString n)

/-- Rounding to the nearest integer, ties to even. -/
def roundHalfEven (num den : Nat) : Nat :=
  let q := num / den
  let r := num % den
  if 2 * r < den then q
  else if den < 2 * r then q + 1
  else if q % 2 = 0 then q else q + 1

/-- `std::to_string` of a double, that is `%f`: six decimals, rounded from
the exact binary value. -/
def doubleToString (bits : UInt64) : Bytes :=
  let b := bits.toNat
  let sign : String := if 2 ^ 63 ≤ b then "-" else ""
  let exponent := b / 2 ^ 52 % 2 ^ 11
  let fraction := b % 2 ^ 52
  let significand := if exponent = 0 then fraction else 2 ^ 52 + fraction
  -- the value is `significand * 2 ^ (max exponent 1 - 1075)`
  let e := max exponent 1
  let micros :=
    if 1075 ≤ e then significand * 2 ^ (e - 1075) * 10 ^ 6
    else roundHalfEven (significand * 10 ^ 6) (2 ^ (1075 - e))
  let decimals := toString (micros % 10 ^ 6)
  let padding := String.ofList (List.replicate (6 - decimals.length) '0')
  if exponent = 2047 then
    Bytes.ofString (sign ++ if fraction = 0 then "inf" else "nan")
  else
    Bytes.ofString (sign ++ toString (micros / 10 ^ 6) ++ "." ++ padding ++ decimals)

/-- 0.5 has the bit pattern `0x3FE0000000000000`. -/
example : doubleToString 0x3FE0000000000000 = Bytes.ofString "0.500000" := by
  decide +kernel

end DdAppsec.Lib
