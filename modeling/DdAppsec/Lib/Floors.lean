import Mathlib.Algebra.Order.Archimedean.Basic
import Mathlib.Algebra.Order.Floor.Ring
import Mathlib.Data.Rat.Floor
import Mathlib.Tactic.Linarith
import Mathlib.Tactic.Ring

/-!
# Lib — counting with floors

For a rate `r` between 0 and 1 the numbers `⌊k * r⌋`, for `k = 0, 1, 2, …`,
grow by at most one at each step, so the steps at which they grow are a share
`r` of all steps. `Near c x` is what a count `c` that should be `x` can be: `x`
rounded down or up.
-/

namespace DdAppsec.Lib

variable {r x : ℚ}

/-- The integer `c` is `x`, rounded down or up. -/
def Near (c : ℤ) (x : ℚ) : Prop := c = ⌊x⌋ ∨ c = ⌈x⌉

theorem near_iff {c : ℤ} : Near c x ↔ x - 1 < c ∧ (c : ℚ) < x + 1 := by
  constructor
  · rintro (rfl | rfl)
    · exact ⟨Int.sub_one_lt_floor x, (Int.floor_le x).trans_lt (lt_add_one x)⟩
    · exact ⟨(sub_one_lt x).trans_le (Int.le_ceil x), Int.ceil_lt_add_one x⟩
  · rintro ⟨hlow, hhigh⟩
    rcases le_or_gt (c : ℚ) x with hle | hgt
    · left
      exact (Int.floor_eq_iff.mpr ⟨hle, by linarith⟩).symm
    · right
      exact (Int.ceil_eq_iff.mpr ⟨by linarith, hgt.le⟩).symm

theorem near_intCast (c : ℤ) : Near c (c : ℚ) := Or.inl (Int.floor_intCast c).symm

/-- One step of `⌊k * r⌋`: by nothing or by one. -/
theorem floor_step (h0 : 0 ≤ r) (h1 : r ≤ 1) (k : ℕ) :
    ⌊((k + 1 : ℕ) : ℚ) * r⌋ =
      ⌊(k : ℚ) * r⌋ + if ⌊(k : ℚ) * r⌋ ≠ ⌊((k + 1 : ℕ) : ℚ) * r⌋ then 1 else 0 := by
  have hsum : ((k + 1 : ℕ) : ℚ) * r = (k : ℚ) * r + r := by
    rw [Nat.cast_succ]
    ring
  have hlow : ⌊(k : ℚ) * r⌋ ≤ ⌊((k + 1 : ℕ) : ℚ) * r⌋ := by
    apply Int.floor_mono
    linarith
  have hhigh : ⌊((k + 1 : ℕ) : ℚ) * r⌋ ≤ ⌊(k : ℚ) * r⌋ + 1 := by
    rw [← Int.floor_add_one]
    apply Int.floor_mono
    linarith
  split
  · omega
  · omega

/-- A rate below one has not reached 1 after one step. -/
theorem floor_eq_zero_of_lt_one (h0 : 0 ≤ r) (h1 : r < 1) : ⌊r⌋ = 0 :=
  Int.floor_eq_zero_iff.mpr ⟨h0, h1⟩

/-- An excess that comes again and again gets as large as one likes. -/
theorem exists_one_le_mul {d : ℚ} (h : 0 < d) : ∃ m : ℕ, 1 ≤ (m : ℚ) * d := by
  obtain ⟨m, hm⟩ := Archimedean.arch (1 : ℚ) h
  exact ⟨m, by rwa [nsmul_eq_mul] at hm⟩

end DdAppsec.Lib
