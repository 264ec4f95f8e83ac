import DdAppsec.Lib.Bytes
import DdAppsec.Lib.Runs

/-!
# Helper — the rate limiter of the engine

`rate_limiter` keeps two counters and the second they belong to: how many
calls were allowed in the second `index_`, and how many in the second
before. `RateLimiter.locked` is the section under the mutex; the clock has
been read BEFORE it.

The first half is about one caller at a time, or callers that happen to
enter in the order of their readings: `Tracks` relates the counters to the
history of calls, and what is allowed is exactly a two-bucket sliding
window over that history.

The second half lets any number of threads read the clock and enter in any
order. A reading that is older than `index_` empties both counters.
-/

namespace DdAppsec.Helper

open Lib

structure RateLimiter where
  index : UInt32
  counter : UInt32
  precounter : UInt32
  maxPerSecond : UInt32

/-- `rate_limiter::rate_limiter`. -/
def RateLimiter.new (maxPerSecond : UInt32) : RateLimiter := ⟨0, 0, 0, maxPerSecond⟩

/-! ## `allow` -/

/-- The second of a clock reading, in nanoseconds since the epoch. -/
def secondOf (now : Nat) : Nat := now / 1000000000

/-- `get_time`: the milliseconds and the seconds of one reading. -/
def getTime (now : Nat) : Nat × Nat := (now / 1000000, secondOf now)

/-- The millisecond within the second. -/
def millisecondOf (now : Nat) : Nat := (getTime now).1 % 1000

/-- The roll-over: the counters of another second are put aside or dropped.
`index_` is compared as a 64-bit number and stored as a 32-bit one. -/
def RateLimiter.rollOver (l : RateLimiter) (nowS : Nat) : RateLimiter :=
  if nowS = l.index.toNat then l
  else
    { l with
      precounter := if (l.index.toNat : Int) = nowS - 1 then l.counter else 0
      counter := 0
      index := UInt32.ofNat nowS }

/-- The 64-bit sum of the two buckets. -/
def RateLimiter.sum (l : RateLimiter) (nowMs : Nat) : Nat :=
  l.precounter.toNat * (1000 - nowMs % 1000) / 1000 + l.counter.toNat

/-- The section under `mtx_`. `count` is what 32 bits keep of the sum. -/
def RateLimiter.locked (now : Nat) (l : RateLimiter) : Bool × RateLimiter :=
  let (nowMs, nowS) := getTime now
  let l := l.rollOver nowS
  let count := UInt32.ofNat (l.sum nowMs)
  if l.maxPerSecond ≤ count then (false, l) else (true, { l with counter := l.counter + 1 })

/-- `rate_limiter::allow`, by a thread that nobody comes between. -/
def RateLimiter.allow (now : Nat) (l : RateLimiter) : Bool × RateLimiter :=
  if l.maxPerSecond = 0 then (true, l) else l.locked now

/-! ## Time -/

theorem secondOf_mono {a b : Nat} (h : a ≤ b) : secondOf a ≤ secondOf b := by
  unfold secondOf
  omega

/-- Within a second the millisecond does not decrease. -/
theorem millisecondOf_mono {a b : Nat} (h : a ≤ b) (hs : secondOf a = secondOf b) :
    millisecondOf a ≤ millisecondOf b := by
  unfold secondOf at hs
  unfold millisecondOf getTime
  dsimp only
  omega

/-! ## The history of calls -/

/-- A finished call: its clock reading and its answer. -/
structure Call where
  now : Nat
  allowed : Bool

/-- The number of allowed calls in the second `k`. -/
def allowedIn (calls : List Call) (k : Int) : Nat :=
  calls.countP fun c => c.allowed && decide ((secondOf c.now : Int) = k)

@[simp] theorem allowedIn_nil (k : Int) : allowedIn [] k = 0 := rfl

theorem allowedIn_cons (c : Call) (calls : List Call) (k : Int) :
    allowedIn (c :: calls) k =
      allowedIn calls k + if c.allowed = true ∧ (secondOf c.now : Int) = k then 1 else 0 := by
  simp only [allowedIn, List.countP_cons, Bool.and_eq_true, decide_eq_true_eq]

/-- A second nobody has called in. -/
theorem allowedIn_eq_zero {calls : List Call} {k : Int}
    (h : ∀ c ∈ calls, (secondOf c.now : Int) ≠ k) : allowedIn calls k = 0 := by
  rw [allowedIn, List.countP_eq_zero]
  intro c hc
  simp [h c hc]

/-- One call after the other, the latest first in the history. -/
def RateLimiter.call (s : List Call × RateLimiter) (now : Nat) : List Call × RateLimiter :=
  (⟨now, (s.2.allow now).1⟩ :: s.1, (s.2.allow now).2)

/-- A new limiter after calls at these readings. -/
def RateLimiter.session (maxPerSecond : UInt32) (readings : List Nat) :
    List Call × RateLimiter :=
  readings.foldl RateLimiter.call ([], RateLimiter.new maxPerSecond)

/-- **The counters tell the history**: `index` is the second of the latest
reading `t`, the counters are the allowed calls of that second and of the
one before, and the two buckets leave no more than the limit. -/
structure RateLimiter.Tracks (l : RateLimiter) (calls : List Call) (t : Nat) : Prop where
  index : l.index.toNat = secondOf t
  past : ∀ c ∈ calls, secondOf c.now ≤ secondOf t
  counter : l.counter.toNat = allowedIn calls (secondOf t)
  precounter : l.precounter.toNat = allowedIn calls ((secondOf t : Int) - 1)
  within : l.precounter.toNat ≤ l.maxPerSecond.toNat
  room : l.sum (getTime t).1 ≤ l.maxPerSecond.toNat

theorem RateLimiter.Tracks.new (maxPerSecond : UInt32) :
    (RateLimiter.new maxPerSecond).Tracks [] 0 where
  index := rfl
  past := by simp
  counter := rfl
  precounter := rfl
  within := Nat.zero_le _
  room := by simp [RateLimiter.sum, RateLimiter.new]

/-- A later millisecond of the same second only makes room. -/
theorem RateLimiter.sum_antitone (l : RateLimiter) {a b : Nat} (h : a % 1000 ≤ b % 1000) :
    l.sum b ≤ l.sum a := by
  unfold RateLimiter.sum
  have hmul : l.precounter.toNat * (1000 - b % 1000) ≤ l.precounter.toNat * (1000 - a % 1000) :=
    Nat.mul_le_mul_left _ (by omega)
  have hdiv := Nat.div_le_div_right (c := 1000) hmul
  omega

/-- A bucket counts for at most what is in it. -/
theorem RateLimiter.sum_le (l : RateLimiter) (nowMs : Nat) :
    l.sum nowMs ≤ l.precounter.toNat + l.counter.toNat := by
  unfold RateLimiter.sum
  have hmul : l.precounter.toNat * (1000 - nowMs % 1000) ≤ l.precounter.toNat * 1000 :=
    Nat.mul_le_mul_left _ (by omega)
  have hdiv := Nat.div_le_div_right (c := 1000) hmul
  rw [Nat.mul_div_cancel _ (by decide)] at hdiv
  omega

theorem RateLimiter.counter_le_sum (l : RateLimiter) (nowMs : Nat) :
    l.counter.toNat ≤ l.sum nowMs := Nat.le_add_left _ _

@[simp] theorem RateLimiter.rollOver_maxPerSecond (l : RateLimiter) (nowS : Nat) :
    (l.rollOver nowS).maxPerSecond = l.maxPerSecond := by
  unfold RateLimiter.rollOver
  split <;> rfl

/-- **Rolling over to a later reading keeps the history.** -/
theorem RateLimiter.Tracks.rollOver {l : RateLimiter} {calls : List Call} {t now : Nat}
    (h : l.Tracks calls t) (hle : t ≤ now) (hnow : secondOf now < 2 ^ 32) :
    (l.rollOver (secondOf now)).Tracks calls now := by
  have hsec : secondOf t ≤ secondOf now := secondOf_mono hle
  have hpast : ∀ c ∈ calls, secondOf c.now ≤ secondOf now :=
    fun c hc => Nat.le_trans (h.past c hc) hsec
  unfold RateLimiter.rollOver
  by_cases hsame : secondOf now = l.index.toNat
  · rw [if_pos hsame]
    have hst : secondOf t = secondOf now := by rw [hsame, h.index]
    refine ⟨hsame.symm, hpast, by rw [h.counter, hst], by rw [h.precounter, hst], h.within, ?_⟩
    exact Nat.le_trans (l.sum_antitone (millisecondOf_mono hle hst)) h.room
  · rw [if_neg hsame]
    have hlt : secondOf t < secondOf now := by
      have hindex := h.index
      omega
    -- nobody has called in the new second yet
    have hnone : allowedIn calls (secondOf now) = 0 :=
      allowedIn_eq_zero fun c hc => by have := h.past c hc; omega
    have hindex : (UInt32.ofNat (secondOf now)).toNat = secondOf now :=
      UInt32.toNat_ofNat_of_lt' hnow
    by_cases hnext : (l.index.toNat : Int) = secondOf now - 1
    · have hprev : (secondOf now : Int) - 1 = secondOf t := by
        have hindex := h.index
        omega
      have hcount : l.counter.toNat ≤ l.maxPerSecond.toNat :=
        Nat.le_trans (l.counter_le_sum _) h.room
      simp only [if_pos hnext]
      refine ⟨hindex, hpast, by simp [hnone], by simp only [hprev]; exact h.counter, hcount, ?_⟩
      exact Nat.le_trans (RateLimiter.sum_le _ _) (by simpa using hcount)
    · have hgap : allowedIn calls ((secondOf now : Int) - 1) = 0 := by
        apply allowedIn_eq_zero
        intro c hc
        have hc' := h.past c hc
        have hindex := h.index
        omega
      simp only [if_neg hnext]
      refine ⟨hindex, hpast, by simp [hnone], by simp [hgap], Nat.zero_le _, ?_⟩
      exact Nat.le_trans (RateLimiter.sum_le _ _) (by simp)

/-- The locked section when 32 bits hold the sum: a comparison with the limit. -/
theorem RateLimiter.locked_eq {l : RateLimiter} {now : Nat}
    (hfit : (l.rollOver (secondOf now)).sum (getTime now).1 < 2 ^ 32) :
    l.locked now =
      if (l.rollOver (secondOf now)).sum (getTime now).1 < l.maxPerSecond.toNat then
        (true, { l.rollOver (secondOf now) with
          counter := (l.rollOver (secondOf now)).counter + 1 })
      else (false, l.rollOver (secondOf now)) := by
  have hle : (l.rollOver (secondOf now)).maxPerSecond ≤
      UInt32.ofNat ((l.rollOver (secondOf now)).sum (getTime now).1) ↔
      l.maxPerSecond.toNat ≤ (l.rollOver (secondOf now)).sum (getTime now).1 := by
    rw [rollOver_maxPerSecond, UInt32.le_iff_toNat_le, UInt32.toNat_ofNat_of_lt' hfit]
  show (if (l.rollOver (secondOf now)).maxPerSecond ≤
      UInt32.ofNat ((l.rollOver (secondOf now)).sum (getTime now).1) then _ else _) = _
  by_cases h : (l.rollOver (secondOf now)).sum (getTime now).1 < l.maxPerSecond.toNat
  · rw [if_neg (fun hge => absurd (hle.mp hge) (Nat.not_le.mpr h)), if_pos h]
  · rw [if_pos (hle.mpr (Nat.not_lt.mp h)), if_neg h]

/-- A call below the limit is counted, without wrapping. -/
theorem RateLimiter.Tracks.granted {l : RateLimiter} {calls : List Call} {now : Nat}
    (h : l.Tracks calls now) (hlt : l.sum (getTime now).1 < l.maxPerSecond.toNat) :
    ({ l with counter := l.counter + 1 } : RateLimiter).Tracks (⟨now, true⟩ :: calls) now := by
  have hcounter := l.counter_le_sum (getTime now).1
  have hmax := l.maxPerSecond.toNat_lt
  have hsucc : (l.counter + 1).toNat = l.counter.toNat + 1 := by
    rw [UInt32.toNat_add, UInt32.toNat_one, Nat.mod_eq_of_lt (by omega)]
  refine ⟨h.index, ?_, ?_, ?_, h.within, ?_⟩
  · intro c hc
    rcases List.mem_cons.mp hc with rfl | hc
    · exact Nat.le_refl _
    · exact h.past c hc
  · rw [allowedIn_cons, if_pos ⟨rfl, rfl⟩, ← h.counter]
    exact hsucc
  · have hne : ¬ (secondOf now : Int) = (secondOf now : Int) - 1 := by omega
    rw [allowedIn_cons, if_neg (fun hc => hne hc.2), ← h.precounter, Nat.add_zero]
  · show l.precounter.toNat * (1000 - (getTime now).1 % 1000) / 1000 + (l.counter + 1).toNat ≤
      l.maxPerSecond.toNat
    unfold RateLimiter.sum at hlt
    omega

theorem RateLimiter.Tracks.refused {l : RateLimiter} {calls : List Call} {now : Nat}
    (h : l.Tracks calls now) : l.Tracks (⟨now, false⟩ :: calls) now := by
  refine ⟨h.index, ?_, ?_, ?_, h.within, h.room⟩
  · intro c hc
    rcases List.mem_cons.mp hc with rfl | hc
    · exact Nat.le_refl _
    · exact h.past c hc
  · rw [h.counter, allowedIn_cons, if_neg (by simp), Nat.add_zero]
  · rw [h.precounter, allowedIn_cons, if_neg (by simp), Nat.add_zero]

/-- 32 bits hold the sum of the two buckets, whatever the limit. -/
theorem RateLimiter.Tracks.sum_lt {l : RateLimiter} {calls : List Call} {now : Nat}
    (h : l.Tracks calls now) : l.sum (getTime now).1 < 2 ^ 32 := by
  have hmax : l.maxPerSecond.toNat < 2 ^ 32 := l.maxPerSecond.toNat_lt
  have hroom := h.room
  omega

/-- **One call**: the history after it. -/
theorem RateLimiter.Tracks.call {l : RateLimiter} {calls : List Call} {t now : Nat}
    (h : l.Tracks calls t) (hpos : l.maxPerSecond ≠ 0) (hle : t ≤ now)
    (hnow : secondOf now < 2 ^ 32) :
    (RateLimiter.call (calls, l) now).2.Tracks (RateLimiter.call (calls, l) now).1 now := by
  have hroll := h.rollOver hle hnow
  unfold RateLimiter.call RateLimiter.allow
  simp only [if_neg hpos]
  rw [RateLimiter.locked_eq hroll.sum_lt]
  by_cases hlt : (l.rollOver (secondOf now)).sum (getTime now).1 < l.maxPerSecond.toNat
  · rw [if_pos hlt]
    exact hroll.granted (by rw [rollOver_maxPerSecond]; exact hlt)
  · rw [if_neg hlt]
    exact hroll.refused

theorem RateLimiter.call_maxPerSecond (s : List Call × RateLimiter) (now : Nat) :
    (RateLimiter.call s now).2.maxPerSecond = s.2.maxPerSecond := by
  unfold RateLimiter.call RateLimiter.allow RateLimiter.locked
  dsimp only
  split
  · rfl
  · split
    · exact rollOver_maxPerSecond _ _
    · exact rollOver_maxPerSecond _ _

/-- **Any number of calls**: the history after them, at any reading that is
not before the latest. -/
theorem RateLimiter.calls_tracks {now : Nat} (hnow : secondOf now < 2 ^ 32) :
    ∀ (readings : List Nat) (s : List Call × RateLimiter) (t : Nat),
      s.2.maxPerSecond ≠ 0 → s.2.Tracks s.1 t → (t :: (readings ++ [now])).Pairwise (· ≤ ·) →
      (readings.foldl RateLimiter.call s).2.maxPerSecond = s.2.maxPerSecond ∧
        ∃ t' ≤ now, (readings.foldl RateLimiter.call s).2.Tracks
          (readings.foldl RateLimiter.call s).1 t' := by
  intro readings
  induction readings with
  | nil =>
    intro s t _ htracks hsorted
    exact ⟨rfl, t, (List.pairwise_cons.mp hsorted).1 now (by simp), htracks⟩
  | cons next readings ih =>
    intro s t hpos htracks hsorted
    obtain ⟨ht, hrest⟩ := List.pairwise_cons.mp hsorted
    have hnext : secondOf next < 2 ^ 32 :=
      Nat.lt_of_le_of_lt (secondOf_mono ((List.pairwise_cons.mp hrest).1 now (by simp))) hnow
    have hmax := call_maxPerSecond s next
    obtain ⟨hmax', htracks'⟩ := ih (RateLimiter.call s next) next (by rw [hmax]; exact hpos)
      (htracks.call hpos (ht next (by simp)) hnext) hrest
    exact ⟨hmax'.trans hmax, htracks'⟩

/-- **The two-bucket sliding window.** After any calls at readings that do
not decrease, the next call is allowed exactly if the allowed calls of its
second and what is left of those of the second before stay below the limit;
the three fields hold these numbers and the second, and 32 bits hold the
sum. -/
theorem allow_iff_window (maxPerSecond : UInt32) (hpos : 0 < maxPerSecond)
    (readings : List Nat) (now : Nat) (hsorted : (readings ++ [now]).Pairwise (· ≤ ·))
    (hnow : secondOf now < 2 ^ 32) :
    let (calls, l) := RateLimiter.session maxPerSecond readings
    ((l.allow now).1 = true ↔
      allowedIn calls ((secondOf now : Int) - 1) * (1000 - millisecondOf now) / 1000 +
        allowedIn calls (secondOf now) < maxPerSecond.toNat) ∧
    (l.rollOver (secondOf now)).index.toNat = secondOf now ∧
    (l.rollOver (secondOf now)).counter.toNat = allowedIn calls (secondOf now) ∧
    (l.rollOver (secondOf now)).precounter.toNat =
      allowedIn calls ((secondOf now : Int) - 1) ∧
    (l.rollOver (secondOf now)).sum (getTime now).1 < 2 ^ 32 := by
  have hne : maxPerSecond ≠ 0 := by
    rintro rfl
    exact absurd hpos (by decide)
  obtain ⟨hmax, t, ht, htracks⟩ := RateLimiter.calls_tracks hnow readings
    ([], RateLimiter.new maxPerSecond) 0 hne (RateLimiter.Tracks.new maxPerSecond)
    (List.pairwise_cons.mpr ⟨fun r _ => Nat.zero_le r, hsorted⟩)
  unfold RateLimiter.session
  generalize readings.foldl RateLimiter.call ([], RateLimiter.new maxPerSecond) = s
    at hmax htracks ⊢
  obtain ⟨calls, l⟩ := s
  have hroll := htracks.rollOver ht hnow
  refine ⟨?_, hroll.index, hroll.counter, hroll.precounter, hroll.sum_lt⟩
  have hsum : (l.rollOver (secondOf now)).sum (getTime now).1 =
      allowedIn calls ((secondOf now : Int) - 1) * (1000 - millisecondOf now) / 1000 +
        allowedIn calls (secondOf now) := by
    rw [← hroll.counter, ← hroll.precounter]
    rfl
  have hmax : l.maxPerSecond = maxPerSecond := hmax
  rw [← hsum, ← hmax]
  unfold RateLimiter.allow
  rw [if_neg (by rw [hmax]; exact hne), RateLimiter.locked_eq hroll.sum_lt]
  by_cases hlt : (l.rollOver (secondOf now)).sum (getTime now).1 < l.maxPerSecond.toNat
  · simp [hlt]
  · simp [hlt]

/-- Half a second into the second after two allowed calls, one of the two
still counts. -/
theorem allow_iff_window_half_second :
    ((RateLimiter.session 2 [1900000000, 1950000000]).2.allow 2500000000).1 = true :=
  (allow_iff_window 2 (by decide) [1900000000, 1950000000] 2500000000 (by decide)
    (by decide)).1.mpr (by decide)

/-! ## Threads -/

/-- A limiter and the threads that use it. `reading` is what a thread that
waits for the mutex has read from the clock; `calls` are the calls that have
left the locked section. -/
structure LimiterSystem where
  limiter : RateLimiter
  clock : Nat
  reading : Nat → Option Nat
  calls : List Call

inductive LimiterAction where
  | read (thread now : Nat)
  | enter (thread : Nat)

/-- One step of one thread. A clock reading is not before the last one. -/
def LimiterSystem.step (s : LimiterSystem) : LimiterAction → Option LimiterSystem
  | .read thread now =>
    -- without a limit `allow` returns before it reads the clock
    if s.limiter.maxPerSecond = 0 then some s
    else if s.reading thread = none ∧ s.clock ≤ now then
      some { s with clock := now, reading := Function.update s.reading thread (some now) }
    else none
  | .enter thread =>
    match s.reading thread with
    | none => none
    | some now =>
      some { s with
        limiter := (s.limiter.locked now).2
        reading := Function.update s.reading thread none
        calls := ⟨now, (s.limiter.locked now).1⟩ :: s.calls }

def LimiterSystem.start (maxPerSecond : UInt32) : LimiterSystem :=
  ⟨RateLimiter.new maxPerSecond, 0, fun _ => none, []⟩

/-- The threads enter in the order of their seconds: a reading is not older
than `index_`, and 32 bits hold its second and the sum of the buckets. -/
def LimiterSystem.InOrder (s : LimiterSystem) : LimiterAction → Prop
  | .read _ _ => True
  | .enter thread => ∀ now, s.reading thread = some now →
      s.limiter.index.toNat ≤ secondOf now ∧ secondOf now < 2 ^ 32 ∧
        (s.limiter.rollOver (secondOf now)).sum (getTime now).1 < 2 ^ 32

/-- What holds of the counters as long as threads enter in order. -/
structure LimiterSystem.Inv (maxPerSecond : UInt32) (s : LimiterSystem) : Prop where
  limit : s.limiter.maxPerSecond = maxPerSecond
  past : ∀ c ∈ s.calls, secondOf c.now ≤ s.limiter.index.toNat
  counter : s.limiter.counter.toNat = allowedIn s.calls s.limiter.index.toNat
  bound : ∀ k, allowedIn s.calls k ≤ maxPerSecond.toNat

theorem LimiterSystem.Inv.start (maxPerSecond : UInt32) :
    (LimiterSystem.start maxPerSecond).Inv maxPerSecond where
  limit := rfl
  past := by simp [LimiterSystem.start]
  counter := rfl
  bound := fun _ => Nat.zero_le _

/-- Rolling over to a second that is not older: the counter is that of the
second, and so is the index. -/
theorem LimiterSystem.Inv.rollOver {maxPerSecond : UInt32} {s : LimiterSystem}
    (h : s.Inv maxPerSecond) {nowS : Nat} (hle : s.limiter.index.toNat ≤ nowS)
    (hnow : nowS < 2 ^ 32) :
    (s.limiter.rollOver nowS).index.toNat = nowS ∧
      (s.limiter.rollOver nowS).counter.toNat = allowedIn s.calls nowS := by
  unfold RateLimiter.rollOver
  by_cases hsame : nowS = s.limiter.index.toNat
  · rw [if_pos hsame]
    exact ⟨hsame.symm, by rw [h.counter, ← hsame]⟩
  · rw [if_neg hsame]
    refine ⟨UInt32.toNat_ofNat_of_lt' hnow, ?_⟩
    have hnone : allowedIn s.calls nowS = 0 :=
      allowedIn_eq_zero fun c hc => by have := h.past c hc; omega
    simp [hnone]

/-- A step reads the clock, which touches no counter, or enters. -/
theorem LimiterSystem.step_cases {s s' : LimiterSystem} {action : LimiterAction}
    (h : s.step action = some s') :
    (s'.limiter = s.limiter ∧ s'.calls = s.calls) ∨
    ∃ thread now, action = .enter thread ∧ s.reading thread = some now ∧
      s'.limiter = (s.limiter.locked now).2 ∧
      s'.calls = ⟨now, (s.limiter.locked now).1⟩ :: s.calls := by
  cases action with
  | read thread now =>
    simp only [LimiterSystem.step] at h
    split at h
    · cases h
      exact Or.inl ⟨rfl, rfl⟩
    · split at h
      · cases h
        exact Or.inl ⟨rfl, rfl⟩
      · cases h
  | enter thread =>
    simp only [LimiterSystem.step] at h
    split at h
    · cases h
    · rename_i now hread
      cases h
      exact Or.inr ⟨thread, now, rfl, hread, rfl, rfl⟩

theorem LimiterSystem.Inv.step {maxPerSecond : UInt32} {s s' : LimiterSystem}
    {action : LimiterAction} (h : s.Inv maxPerSecond) (hord : s.InOrder action)
    (hstep : s.step action = some s') : s'.Inv maxPerSecond := by
  rcases LimiterSystem.step_cases hstep with ⟨hl, hc⟩ | ⟨thread, now, rfl, hread, hl, hc⟩
  · exact ⟨hl ▸ h.limit, by rw [hl, hc]; exact h.past, by rw [hl, hc]; exact h.counter,
      by rw [hc]; exact h.bound⟩
  · obtain ⟨hle, hnow, hfit⟩ := hord now hread
    obtain ⟨hindex, hcounter⟩ := h.rollOver hle hnow
    have hlimit := (s.limiter.rollOver_maxPerSecond (secondOf now)).trans h.limit
    have hsum := (s.limiter.rollOver (secondOf now)).counter_le_sum (getTime now).1
    have hpast : ∀ (ok : Bool), ∀ c ∈ (⟨now, ok⟩ : Call) :: s.calls,
        secondOf c.now ≤ secondOf now := by
      intro ok c hmem
      rcases List.mem_cons.mp hmem with rfl | hmem
      · exact Nat.le_refl _
      · exact Nat.le_trans (h.past c hmem) hle
    rw [RateLimiter.locked_eq hfit, h.limit] at hl hc
    generalize s.limiter.rollOver (secondOf now) = l at hindex hcounter hsum hlimit hl hc
    by_cases hlt : l.sum (getTime now).1 < maxPerSecond.toNat
    · rw [if_pos hlt] at hl hc
      have hmax := maxPerSecond.toNat_lt
      have hsucc : (l.counter + 1).toNat = l.counter.toNat + 1 := by
        rw [UInt32.toNat_add, UInt32.toNat_one, Nat.mod_eq_of_lt (by omega)]
      refine ⟨hl ▸ hlimit, ?_, ?_, ?_⟩
      · rw [hl, hc]
        exact fun c hmem => hindex ▸ hpast true c hmem
      · rw [hl, hc]
        show (l.counter + 1).toNat = allowedIn _ (l.index.toNat : Int)
        rw [hindex, allowedIn_cons, if_pos ⟨rfl, rfl⟩, hsucc, hcounter]
      · intro k
        rw [hc, allowedIn_cons]
        by_cases hk : (secondOf now : Int) = k
        · subst hk
          rw [if_pos ⟨rfl, rfl⟩, ← hcounter]
          omega
        · rw [if_neg (fun hcon => hk hcon.2)]
          exact h.bound k
    · rw [if_neg hlt] at hl hc
      refine ⟨hl ▸ hlimit, ?_, ?_, ?_⟩
      · rw [hl, hc]
        exact fun c hmem => hindex ▸ hpast false c hmem
      · rw [hl, hc, hindex, allowedIn_cons, if_neg (by simp), Nat.add_zero, hcounter]
      · intro k
        rw [hc, allowedIn_cons, if_neg (by simp)]
        exact h.bound k

/-- **The limit of every second**, in every run in which the threads enter
the locked section in the order of their seconds. -/
theorem allowed_le_of_inOrder (maxPerSecond : UInt32) (actions : List LimiterAction)
    (s : LimiterSystem)
    (hord : Along LimiterSystem.step LimiterSystem.InOrder (LimiterSystem.start maxPerSecond)
      actions)
    (hrun : run LimiterSystem.step (LimiterSystem.start maxPerSecond) actions = some s) (k : Int) :
    allowedIn s.calls k ≤ maxPerSecond.toNat := by
  have hinv : s.Inv maxPerSecond := by
    refine run_invariant (LimiterSystem.Inv maxPerSecond) ?_ (.start maxPerSecond) hord hrun
    intro s i s' h hord hstep
    exact h.step hord hstep
  exact hinv.bound k

/-- Two threads, one after the other, in the same second. -/
def orderlyReadings : List LimiterAction :=
  [.read 0 100500000000, .enter 0, .read 1 100600000000, .enter 1]

theorem orderly_readings_limited :
    ∃ s, run LimiterSystem.step (LimiterSystem.start 1) orderlyReadings = some s ∧
      s.calls.map Call.allowed = [false, true] ∧ ∀ k, allowedIn s.calls k ≤ 1 := by
  refine ⟨_, rfl, rfl, allowed_le_of_inOrder 1 orderlyReadings _ ⟨trivial, fun s h => ?_⟩ rfl⟩
  cases h
  refine ⟨?_, fun s h => ?_⟩
  · rintro now ⟨⟩
    decide
  cases h
  refine ⟨trivial, fun s h => ?_⟩
  cases h
  refine ⟨?_, fun _ _ => trivial⟩
  rintro now ⟨⟩
  decide

/-- Two threads whose readings and entries cross a second boundary in
opposite orders, and a third one after them. -/
def staleReading : List LimiterAction :=
  [.read 0 100500000000, .read 1 101000000000, .enter 1, .enter 0, .read 2 101500000000, .enter 2]

/-- **A stale reading makes the limiter forget**: with a limit of one, two
calls of the second 101 are allowed. -/
theorem stale_reading_exceeds : ¬ ∀ (maxPerSecond : UInt32) (actions : List LimiterAction)
    (s : LimiterSystem),
    run LimiterSystem.step (LimiterSystem.start maxPerSecond) actions = some s →
      ∀ k, allowedIn s.calls k ≤ maxPerSecond.toNat := by
  intro h
  have htwo := h 1 staleReading _ rfl 101
  revert htwo
  decide

end DdAppsec.Helper
