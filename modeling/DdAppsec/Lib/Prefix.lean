import DdAppsec.Lib.Endian
import Mathlib.Data.Nat.Bitwise

/-!
# Lib — address prefixes

A range of addresses is given by the first bits of their bytes (`InPrefix`).
Programs compare them under a mask, as numbers in the byte order of the
machine. `masked_eq_iff` says that both are the same: a mask works on each
byte, and so in either order.
-/

namespace DdAppsec.Lib

/-- The first `bits` bits of the address are those of the base. -/
def InPrefix (base : Bytes) (bits : Nat) (addr : Bytes) : Prop :=
  natBE addr / 2 ^ (8 * addr.length - bits) = natBE base / 2 ^ (8 * addr.length - bits)

instance (base : Bytes) (bits : Nat) (addr : Bytes) : Decidable (InPrefix base bits addr) :=
  inferInstanceAs (Decidable (_ = _))

/-! ## Numbers and their bytes -/

theorem natLE_lt (bytes : Bytes) : natLE bytes < 2 ^ (8 * bytes.length) := by
  induction bytes with
  | nil => simp [natLE]
  | cons b rest ih =>
    have hb := b.toNat_lt
    rw [natLE, List.length_cons, Nat.mul_succ, Nat.pow_add]
    omega

theorem bytesLE_natLE (bytes : Bytes) : bytesLE bytes.length (natLE bytes) = bytes := by
  induction bytes with
  | nil => rfl
  | cons b rest ih =>
    have hb := b.toNat_lt
    have hlow : UInt8.ofNat (b.toNat + 256 * natLE rest) = b := by
      rw [← UInt8.toNat_inj, UInt8.toNat_ofNat']
      omega
    have hhigh : (b.toNat + 256 * natLE rest) / 256 = natLE rest := by omega
    rw [natLE, List.length_cons, bytesLE, hlow, hhigh, ih]

theorem natLE_inj {xs ys : Bytes} (hlength : xs.length = ys.length) :
    natLE xs = natLE ys ↔ xs = ys := by
  constructor
  · intro h
    rw [← bytesLE_natLE xs, ← bytesLE_natLE ys, hlength, h]
  · rintro rfl
    rfl

/-! ## Masks -/

theorem land_digits {b c : Nat} (hb : b < 256) (hc : c < 256) (m n : Nat) :
    (b + 256 * m) &&& (c + 256 * n) = (b &&& c) + 256 * (m &&& n) := by
  have hmod := @Nat.and_mod_two_pow (b + 256 * m) (c + 256 * n) 8
  have hdiv := @Nat.and_div_two_pow (b + 256 * m) (c + 256 * n) 8
  rw [show (2 : Nat) ^ 8 = 256 from rfl] at hmod hdiv
  rw [show (b + 256 * m) % 256 = b by omega, show (c + 256 * n) % 256 = c by omega] at hmod
  rw [show (b + 256 * m) / 256 = m by omega, show (c + 256 * n) / 256 = n by omega] at hdiv
  omega

/-- A mask works on each byte. -/
theorem natLE_land : ∀ {xs ys : Bytes}, xs.length = ys.length →
    natLE xs &&& natLE ys = natLE (List.zipWith (· &&& ·) xs ys)
  | [], [], _ => rfl
  | x :: xs, y :: ys, h => by
    rw [natLE, natLE, land_digits x.toNat_lt y.toNat_lt, natLE_land (Nat.succ.inj h),
      List.zipWith_cons_cons, natLE, UInt8.toNat_and]

/-- The byte order makes no difference under a mask. -/
theorem masked_LE_iff_BE {addr mask base : Bytes} (hmask : addr.length = mask.length)
    (hbase : addr.length = base.length) :
    natLE addr &&& natLE mask = natLE base ↔ natBE addr &&& natBE mask = natBE base := by
  have hlength : (List.zipWith (· &&& ·) addr mask).length = base.length := by
    rw [List.length_zipWith, ← hmask, Nat.min_self, hbase]
  have hreverse : (List.zipWith (· &&& ·) addr mask).reverse.length = base.reverse.length := by
    rw [List.length_reverse, List.length_reverse, hlength]
  have hmask' : addr.reverse.length = mask.reverse.length := by simpa using hmask
  rw [natBE, natBE, natBE, natLE_land hmask, natLE_land hmask', ← List.reverse_zipWith hmask,
    natLE_inj hlength, natLE_inj hreverse, List.reverse_inj]

/-- What is left under a mask of ones in front and zeros behind. -/
theorem land_prefix {x n k : Nat} (hx : x < 2 ^ n) (hk : k ≤ n) :
    x &&& (2 ^ n - 2 ^ k) = x / 2 ^ k * 2 ^ k := by
  have hones : 2 ^ n - 2 ^ k = 2 ^ k * (2 ^ (n - k) - 1) := by
    rw [Nat.mul_sub, ← Nat.pow_add, Nat.add_sub_cancel' hk, Nat.mul_one]
  have hmod := @Nat.and_mod_two_pow x (2 ^ n - 2 ^ k) k
  have hdiv := @Nat.and_div_two_pow x (2 ^ n - 2 ^ k) k
  have hquot : x / 2 ^ k < 2 ^ (n - k) := by
    rw [Nat.div_lt_iff_lt_mul (Nat.two_pow_pos k), ← Nat.pow_add, Nat.sub_add_cancel hk]
    exact hx
  rw [hones, Nat.mul_mod_right, Nat.and_zero] at hmod
  rw [hones, Nat.mul_div_cancel_left _ (Nat.two_pow_pos k), Nat.and_two_pow_sub_one_eq_mod,
    Nat.mod_eq_of_lt hquot] at hdiv
  rw [hones, ← Nat.div_add_mod (x &&& 2 ^ k * (2 ^ (n - k) - 1)) (2 ^ k), hmod, hdiv,
    Nat.add_zero, Nat.mul_comm]

/-- **The test under a mask**, in the byte order of the machine, finds the
addresses of the range. -/
theorem masked_eq_iff {addr mask base : Bytes} {n bits : Nat} (haddr : addr.length = n)
    (hmask : mask.length = n) (hbase : base.length = n)
    (hfirst : natBE mask = 2 ^ (8 * n) - 2 ^ (8 * n - bits))
    (hclear : natBE base % 2 ^ (8 * n - bits) = 0) :
    natLE addr &&& natLE mask = natLE base ↔ InPrefix base bits addr := by
  have hlt : natBE addr < 2 ^ (8 * n) := by
    have hlt := natLE_lt addr.reverse
    rwa [List.length_reverse, haddr] at hlt
  rw [masked_LE_iff_BE (haddr.trans hmask.symm) (haddr.trans hbase.symm), hfirst,
    land_prefix hlt (Nat.sub_le _ _), InPrefix, haddr]
  have hpos := Nat.two_pow_pos (8 * n - bits)
  have hwhole := Nat.div_mul_cancel (Nat.dvd_of_mod_eq_zero hclear)
  constructor
  · intro h
    rw [← h, Nat.mul_div_cancel _ hpos]
  · intro h
    rw [h, hwhole]

end DdAppsec.Lib
