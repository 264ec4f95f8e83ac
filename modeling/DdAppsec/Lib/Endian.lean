import DdAppsec.Lib.Bytes

/-!
# Lib — fixed-width integers as bytes

`bytesLE k n` is `n` in `k` bytes, least significant first; a number that
does not fit loses its high part. `bytesBE` is the other order.
-/

namespace DdAppsec.Lib

def bytesLE : Nat → Nat → Bytes
  | 0, _ => []
  | k + 1, n => UInt8.ofNat n :: bytesLE k (n / 256)

def natLE : Bytes → Nat
  | [] => 0
  | b :: rest => b.toNat + 256 * natLE rest

@[simp] theorem length_bytesLE (k n : Nat) : (bytesLE k n).length = k := by
  induction k generalizing n with
  | zero => rfl
  | succ k ih => simp [bytesLE, ih]

theorem natLE_bytesLE (k n : Nat) : natLE (bytesLE k n) = n % 256 ^ k := by
  induction k generalizing n with
  | zero => simp [bytesLE, natLE, Nat.mod_one]
  | succ k ih =>
    rw [bytesLE, natLE, ih, Nat.pow_succ, Nat.mul_comm (256 ^ k) 256, Nat.mod_mul]
    simp

def bytesBE (k n : Nat) : Bytes := (bytesLE k n).reverse

def natBE (bytes : Bytes) : Nat := natLE bytes.reverse

@[simp] theorem length_bytesBE (k n : Nat) : (bytesBE k n).length = k := by
  simp [bytesBE]

theorem natBE_bytesBE (k n : Nat) : natBE (bytesBE k n) = n % 256 ^ k := by
  rw [natBE, bytesBE, List.reverse_reverse, natLE_bytesLE]

end DdAppsec.Lib
