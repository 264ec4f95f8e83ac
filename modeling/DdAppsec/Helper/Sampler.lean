import DdAppsec.Lib.Floors
import Mathlib.Algebra.Order.Ring.Rat

/-!
# Helper — the sampler

`Sampler.get` decides whether the schema of a request is extracted. It numbers
its calls and picks those at which `⌊number * rate⌋` grows, so that any window
of calls has its share of them (`Near`).

The number is 32 bits wide. It goes back to 1 after its maximum, not to where
the fractions were, and at the maximum itself `request_ + 1` is 0, so that this
call is always picked. A window over the restart can have too many calls picked,
and the excess adds up over several restarts. `window_fair_iff` says exactly
which windows are fair.

The rate and its products are exact rationals. In the code they are doubles: the
rate is taken as the double it is, but a product is rounded, so that a product
next to an integer may fall on the other side of it.
-/

namespace DdAppsec.Helper

open Lib

/-- `std::numeric_limits<unsigned>::max()`. -/
def unsignedMax : ℕ := 2 ^ 32 - 1

def minRate : ℚ := 1 / 10000

/-- `sampler`; the rate is exact. -/
structure Sampler where
  request : ℕ
  sampleRate : ℚ
  concurrent : Bool

/-- `sampler::sampler`. -/
def Sampler.new (sampleRate : ℚ) : Sampler where
  request := 1
  sampleRate :=
    if sampleRate ≤ 0 then 0
    else if 1 < sampleRate then 1
    else if sampleRate < minRate then minRate
    else sampleRate
  concurrent := false

/-- `sampler::get`: whether it returns a scope. `request_ + 1` is computed in
32 bits. -/
def Sampler.get (s : Sampler) : Bool × Sampler :=
  let next : ℕ := (s.request + 1) % 2 ^ 32
  let picked := !s.concurrent &&
    decide (⌊(s.request : ℚ) * s.sampleRate⌋ ≠ ⌊(next : ℚ) * s.sampleRate⌋)
  (picked,
    { s with
      request := if s.request < unsignedMax then s.request + 1 else 1
      concurrent := s.concurrent || picked })

/-- The destructor of a scope. -/
def Sampler.release (s : Sampler) : Sampler := { s with concurrent := false }

/-- A call whose scope is released before the next one. -/
def Sampler.call (s : Sampler) : Bool × Sampler :=
  let (picked, s) := s.get
  (picked, if picked then s.release else s)

/-- The sampler after some calls. -/
def Sampler.after : ℕ → Sampler → Sampler
  | 0, s => s
  | n + 1, s => (s.after n).call.2

/-- How many of the next calls return a scope. -/
def Sampler.picked : ℕ → Sampler → ℕ
  | 0, _ => 0
  | n + 1, s => s.picked n + if (s.after n).call.1 then 1 else 0

/-! ## The number of a call -/

/-- The number of a call, by how many there were before it. -/
def counter (k : ℕ) : ℕ := k % unsignedMax + 1

/-- How often a window of `n` calls after the first `k` goes over the restart. -/
def restarts (k n : ℕ) : ℕ := (k + n) / unsignedMax - k / unsignedMax

/-- The next call has the next number and no restart before it, or it is the
first after a restart. -/
theorem counter_succ (k : ℕ) :
    (counter k < unsignedMax ∧ counter (k + 1) = counter k + 1 ∧
        (k + 1) / unsignedMax = k / unsignedMax) ∨
      (counter k = unsignedMax ∧ counter (k + 1) = 1 ∧
        (k + 1) / unsignedMax = k / unsignedMax + 1) := by
  unfold counter unsignedMax
  omega

namespace Sampler

variable {s : Sampler} {r : ℚ}

/-! ## One call -/

/-- What a call decides when no scope is held. -/
theorem call_picked (h : s.concurrent = false) :
    s.call.1 = decide (⌊(s.request : ℚ) * s.sampleRate⌋ ≠
      ⌊(((s.request + 1) % 2 ^ 32 : ℕ) : ℚ) * s.sampleRate⌋) := by
  simp [call, get, h]

/-- What a call leaves behind. -/
theorem call_next (h : s.concurrent = false) :
    s.call.2 = ⟨if s.request < unsignedMax then s.request + 1 else 1, s.sampleRate, false⟩ := by
  unfold call get
  dsimp only
  split
  · rfl
  · rename_i hpicked
    rw [Bool.not_eq_true] at hpicked
    rw [hpicked, h]
    rfl

/-- **The state after any number of calls**: only the number has changed. -/
theorem after_new (sampleRate : ℚ) (k : ℕ) :
    (new sampleRate).after k = ⟨counter k, (new sampleRate).sampleRate, false⟩ := by
  induction k with
  | zero => rfl
  | succ k ih =>
    rw [after, ih, call_next rfl]
    obtain ⟨hlt, hnext, _⟩ | ⟨heq, hnext, _⟩ := counter_succ k
    · rw [hnext, if_pos hlt]
    · rw [hnext, if_neg (by rw [heq]; exact Nat.lt_irrefl _)]

theorem after_add (k n : ℕ) : s.after (k + n) = (s.after k).after n := by
  induction n with
  | zero => rfl
  | succ n ih => rw [← Nat.add_assoc, after, after, ih]

theorem picked_add (k n : ℕ) : s.picked (k + n) = s.picked k + (s.after k).picked n := by
  induction n with
  | zero => rfl
  | succ n ih => rw [← Nat.add_assoc, picked, picked, ih, after_add, Nat.add_assoc]

/-- The rates that the constructor lets through. -/
theorem new_rate (sampleRate : ℚ) :
    (new sampleRate).sampleRate = 0 ∨
      (minRate ≤ (new sampleRate).sampleRate ∧ (new sampleRate).sampleRate ≤ 1) := by
  have hmin : minRate ≤ 1 := by
    unfold minRate
    norm_num
  simp only [new]
  split
  · exact Or.inl rfl
  · split
    · exact Or.inr ⟨hmin, le_rfl⟩
    · rename_i hle
      split
      · exact Or.inr ⟨le_rfl, hmin⟩
      · rename_i hge
        exact Or.inr ⟨not_lt.mp hge, not_lt.mp hle⟩

/-! ## All calls so far -/

section Rate

variable {sampleRate : ℚ} (hrate : (new sampleRate).sampleRate = r)

include hrate

/-- Whether call `k` is picked. -/
theorem picked_succ (k : ℕ) :
    (new sampleRate).picked (k + 1) = (new sampleRate).picked k +
      if ⌊(counter k : ℚ) * r⌋ ≠ ⌊(((counter k + 1) % 2 ^ 32 : ℕ) : ℚ) * r⌋ then 1 else 0 := by
  rw [picked, after_new, call_picked rfl, hrate]
  simp only [decide_eq_true_eq]

theorem picked_of_rate_zero (hzero : r = 0) (k : ℕ) : (new sampleRate).picked k = 0 := by
  induction k with
  | zero => rfl
  | succ k ih =>
    rw [picked_succ hrate, ih, hzero]
    simp

variable (hmin : minRate ≤ r) (hmax : r ≤ 1)

include hmin hmax

/-- **How many calls have been picked so far.** Every round of the counter adds
the same number; the call at the maximum is always one of them. -/
theorem picked_eq (k : ℕ) :
    ((new sampleRate).picked k : ℤ) =
      (k / unsignedMax : ℕ) * (⌊(unsignedMax : ℚ) * r⌋ + 1 - ⌊r⌋) +
        ⌊(counter k : ℚ) * r⌋ - ⌊r⌋ := by
  have hnonneg : 0 ≤ r := le_trans (by unfold minRate; norm_num) hmin
  induction k with
  | zero => simp [picked, counter]
  | succ k ih =>
    rw [picked_succ hrate, Nat.cast_add, ih]
    obtain ⟨hlt, hnext, hround⟩ | ⟨heq, hnext, hround⟩ := counter_succ k
    · have hmod : (counter k + 1) % 2 ^ 32 = counter k + 1 := by
        apply Nat.mod_eq_of_lt
        unfold unsignedMax at hlt
        omega
      have hstep := floor_step hnonneg hmax (counter k)
      rw [hmod, hnext, hround, Nat.cast_ite, Nat.cast_one, Nat.cast_zero]
      linarith
    · -- `request_ + 1` is 0, and the rate is large enough for the product not to be
      have hmod : (counter k + 1) % 2 ^ 32 = 0 := by
        rw [heq]
        rfl
      have hlarge : 1 ≤ ⌊(unsignedMax : ℚ) * r⌋ := by
        apply Int.le_floor.mpr
        calc ((1 : ℤ) : ℚ) ≤ (unsignedMax : ℚ) * minRate := by
              unfold unsignedMax minRate
              norm_num
          _ ≤ (unsignedMax : ℚ) * r := by
              apply mul_le_mul_of_nonneg_left hmin
              exact Nat.cast_nonneg _
      have hne : ⌊(unsignedMax : ℚ) * r⌋ ≠ ⌊((0 : ℕ) : ℚ) * r⌋ := by
        rw [Nat.cast_zero, zero_mul, Int.floor_zero]
        omega
      have hone : ((1 : ℕ) : ℚ) * r = r := by rw [Nat.cast_one, one_mul]
      rw [hmod, heq, if_pos hne, hnext, hround, hone, Nat.cast_one, Nat.cast_succ]
      ring

/-- How far the picked calls are ahead of their share. -/
theorem picked_ahead (k : ℕ) :
    ((new sampleRate).picked k : ℚ) =
      (k : ℚ) * r + (k / unsignedMax : ℕ) * (1 - ⌊r⌋ - Int.fract ((unsignedMax : ℚ) * r)) +
        Int.fract r - Int.fract ((counter k : ℚ) * r) := by
  have hpicked := congrArg (Int.cast : ℤ → ℚ) (picked_eq hrate hmin hmax k)
  have hk : (k : ℚ) = (k / unsignedMax : ℕ) * (unsignedMax : ℚ) + (counter k : ℚ) - 1 := by
    have hnat : k + 1 = k / unsignedMax * unsignedMax + counter k := by
      unfold counter
      have hdiv := Nat.div_add_mod k unsignedMax
      rw [Nat.mul_comm] at hdiv
      omega
    have hcast := congrArg (Nat.cast : ℕ → ℚ) hnat
    push_cast at hcast
    linarith
  have hfract : ∀ x : ℚ, (⌊x⌋ : ℚ) = x - Int.fract x := fun x => by
    rw [← Int.self_sub_fract]
  rw [Int.cast_natCast] at hpicked
  rw [hpicked, hk]
  simp only [Int.cast_sub, Int.cast_add, Int.cast_mul, Int.cast_natCast, Int.cast_one, hfract]
  ring

/-- **A window of calls**: what is ahead of the share at its end, less what was
at its beginning. -/
theorem window_picked (k n : ℕ) :
    (((new sampleRate).after k).picked n : ℚ) =
      (n : ℚ) * r + (restarts k n : ℚ) * (1 - ⌊r⌋ - Int.fract ((unsignedMax : ℚ) * r)) +
        Int.fract ((counter k : ℚ) * r) - Int.fract ((counter (k + n) : ℚ) * r) := by
  have hsum := congrArg (Nat.cast : ℕ → ℚ) (picked_add (s := new sampleRate) k n)
  rw [Nat.cast_add, picked_ahead hrate hmin hmax k, picked_ahead hrate hmin hmax (k + n)] at hsum
  have hrounds : ((restarts k n : ℕ) : ℚ) =
      ((k + n) / unsignedMax : ℕ) - (k / unsignedMax : ℕ) :=
    Nat.cast_sub (Nat.div_le_div_right (Nat.le_add_right k n))
  have hcast : ((k + n : ℕ) : ℚ) = (k : ℚ) + (n : ℚ) := Nat.cast_add k n
  rw [hcast] at hsum
  rw [hrounds]
  linarith

end Rate

/-! ## Fair windows -/

/-- What the restarts put a window ahead is made up for by the fractions at its
two ends. -/
def FairOver (r : ℚ) (k n : ℕ) : Prop :=
  (restarts k n : ℚ) * (1 - Int.fract ((unsignedMax : ℚ) * r)) +
    Int.fract ((counter k : ℚ) * r) < 1 + Int.fract ((counter (k + n) : ℚ) * r)

/-- A window without a restart is one. -/
theorem fairOver_of_no_restart {k n : ℕ} (h : restarts k n = 0) : FairOver r k n := by
  have hlow := Int.fract_nonneg ((counter (k + n) : ℚ) * r)
  have hhigh := Int.fract_lt_one ((counter k : ℚ) * r)
  rw [FairOver, h, Nat.cast_zero, zero_mul]
  linarith

/-- For a rate below one, enough rounds of the counter make a window that is
not. -/
theorem exists_not_fairOver (r : ℚ) : ∃ k n, ¬ FairOver r k n := by
  have hgain : 0 < 1 - Int.fract ((unsignedMax : ℚ) * r) := by
    have hlt := Int.fract_lt_one ((unsignedMax : ℚ) * r)
    linarith
  obtain ⟨m, hm⟩ := exists_one_le_mul hgain
  refine ⟨0, m * unsignedMax, ?_⟩
  have hrounds : restarts 0 (m * unsignedMax) = m := by
    rw [restarts, Nat.zero_add, Nat.mul_div_cancel m (by decide), Nat.zero_div, Nat.sub_zero]
  have hcounter : counter (0 + m * unsignedMax) = counter 0 := by
    rw [counter, Nat.zero_add, Nat.mul_mod_left]
    rfl
  rw [FairOver, hrounds, hcounter]
  linarith

theorem window_near_iff (sampleRate : ℚ) (k n : ℕ) :
    Near (((new sampleRate).after k).picked n : ℕ) ((n : ℚ) * (new sampleRate).sampleRate) ↔
      (new sampleRate).sampleRate = 0 ∨ (new sampleRate).sampleRate = 1 ∨
        FairOver (new sampleRate).sampleRate k n := by
  generalize hrate : (new sampleRate).sampleRate = r
  obtain hzero | ⟨hmin, hmax⟩ := new_rate sampleRate
  · rw [hrate] at hzero
    have hnone : ((new sampleRate).after k).picked n = 0 := by
      have hsum := picked_add (s := new sampleRate) k n
      rw [picked_of_rate_zero hrate hzero, picked_of_rate_zero hrate hzero] at hsum
      omega
    refine iff_of_true ?_ (Or.inl hzero)
    rw [hnone, hzero, mul_zero]
    exact near_intCast 0
  · rw [hrate] at hmin hmax
    have hwindow := window_picked hrate hmin hmax k n
    rcases eq_or_lt_of_le hmax with hone | hlt
    · -- every call is picked
      refine iff_of_true ?_ (Or.inr (Or.inl hone))
      have hall : (((new sampleRate).after k).picked n : ℚ) = n := by
        rw [hwindow, hone]
        simp
      rw [hone, mul_one, Nat.cast_inj.mp hall]
      exact near_intCast n
    · have hpos : r ≠ 0 := by
        rintro rfl
        exact absurd hmin (by unfold minRate; norm_num)
      rw [floor_eq_zero_of_lt_one (le_trans (by unfold minRate; norm_num) hmin) hlt] at hwindow
      have hlow := Int.fract_nonneg ((counter k : ℚ) * r)
      have hhigh := Int.fract_lt_one ((counter (k + n) : ℚ) * r)
      have hgain : 0 ≤ (restarts k n : ℚ) * (1 - Int.fract ((unsignedMax : ℚ) * r)) := by
        apply mul_nonneg (Nat.cast_nonneg _)
        have := Int.fract_lt_one ((unsignedMax : ℚ) * r)
        linarith
      rw [near_iff, Int.cast_natCast, hwindow, FairOver]
      push_cast
      constructor
      · rintro ⟨_, hless⟩
        right
        right
        linarith
      · rintro (hzero | hone | hfair)
        · exact absurd hzero hpos
        · exact absurd hone hlt.ne
        · constructor
          · linarith
          · linarith

/-- **Which windows are fair.** A window has its share of picked calls exactly
if the rate is 0 or 1 or the window meets `FairOver`, as all windows without a
restart do. Only for these two rates all windows are fair. -/
theorem window_fair_iff (sampleRate : ℚ) :
    (∀ k n, Near (((new sampleRate).after k).picked n : ℕ) ((n : ℚ) * (new sampleRate).sampleRate) ↔
      (new sampleRate).sampleRate = 0 ∨ (new sampleRate).sampleRate = 1 ∨
        FairOver (new sampleRate).sampleRate k n) ∧
    (∀ k n, restarts k n = 0 →
      Near (((new sampleRate).after k).picked n : ℕ) ((n : ℚ) * (new sampleRate).sampleRate)) ∧
    ((∀ k n, Near (((new sampleRate).after k).picked n : ℕ)
        ((n : ℚ) * (new sampleRate).sampleRate)) ↔
      (new sampleRate).sampleRate = 0 ∨ (new sampleRate).sampleRate = 1) := by
  refine ⟨window_near_iff sampleRate, fun k n h => ?_, ?_, fun h k n => ?_⟩
  · exact (window_near_iff sampleRate k n).mpr (Or.inr (Or.inr (fairOver_of_no_restart h)))
  · intro hall
    obtain ⟨k, n, hunfair⟩ := exists_not_fairOver (new sampleRate).sampleRate
    obtain hzero | hone | hfair := (window_near_iff sampleRate k n).mp (hall k n)
    · exact Or.inl hzero
    · exact Or.inr hone
    · exact absurd hfair hunfair
  · obtain hzero | hone := h
    · exact (window_near_iff sampleRate k n).mpr (Or.inl hzero)
    · exact (window_near_iff sampleRate k n).mpr (Or.inr (Or.inl hone))

/-- With a rate of one half the call at the maximum and the one after it are
both picked. -/
theorem two_calls_picked_at_restart :
    ((new (1 / 2)).after (unsignedMax - 1)).picked 2 = 2 ∧
      ¬ Near (((new (1 / 2)).after (unsignedMax - 1)).picked 2 : ℕ)
        (((2 : ℕ) : ℚ) * (new (1 / 2)).sampleRate) := by
  have hpicked : ((new (1 / 2)).after (unsignedMax - 1)).picked 2 = 2 := by
    rw [after_new]
    decide +kernel
  refine ⟨hpicked, ?_⟩
  rw [hpicked, near_iff]
  decide +kernel

end Sampler

end DdAppsec.Helper
