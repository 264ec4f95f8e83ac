import DdAppsec.Lib.Bytes
import DdAppsec.Lib.Runs

/-!
# Extension — when to connect again

`Mgr` is the part of `dd_helper_mgr` that decides whether a worker tries to
connect. A failed attempt sets the time of the next one, later and later with
every failure in a row. So does a connection that is closed on the request that
opened it, but by then the success of the connection has set the counter back:
the wait after it is always the first one.

`History` counts the failed requests in a row as the comments of the source
mean them. `backoff_grows_iff` says that counter and wait follow it exactly in
the runs in which no request both opens and closes its connection right after a
failed one.
-/

namespace DdAppsec.Extension

open Lib

/-! ## The manager -/

structure Timespec where
  sec : Nat
  nsec : Nat
  deriving DecidableEq, Repr

/-- The comparison of `_wait_for_next_retry`. -/
def Timespec.before (t u : Timespec) : Prop := t.sec < u.sec ∨ (t.sec = u.sec ∧ t.nsec < u.nsec)

instance (t u : Timespec) : Decidable (t.before u) := inferInstanceAs (Decidable (_ ∨ _))

def Timespec.add (t : Timespec) (seconds : Nat) : Timespec := ⟨t.sec + seconds, t.nsec⟩

/-- `dd_helper_mgr`. The launch of the helper, and the lock that prevents it,
only decide whether there is a second attempt. -/
structure Mgr where
  connected : Bool
  nextRetry : Timespec
  failedCount : UInt16
  connectedThisReq : Bool
  deriving DecidableEq

def Mgr.start : Mgr := ⟨false, ⟨0, 0⟩, 0, false⟩

/-- `_wait_for_next_retry`; `none` is a clock that fails. -/
def Mgr.waitForNextRetry (m : Mgr) (now : Option Timespec) : Bool :=
  if m.nextRetry.sec = 0 then false
  else
    match now with
    | none => false
    | some now => now.before m.nextRetry

/-- `_backoff_initial * pow(_backoff_base, MIN(failed_count - 1, …))`, which a
`double` holds exactly. -/
def backoffWait (failedCount : Nat) : Nat := 3 * 2 ^ min (failedCount - 1) 10

/-- `_inc_failed_counter`. -/
def Mgr.incFailedCounter (m : Mgr) (now : Option Timespec) : Mgr :=
  let failedCount := if m.failedCount ≠ 65535 then m.failedCount + 1 else m.failedCount
  match now with
  | none => { m with failedCount := failedCount, nextRetry := ⟨0, 0⟩ }
  | some now =>
    { m with failedCount := failedCount, nextRetry := now.add (backoffWait failedCount.toNat) }

/-- `_connection_succeeded`. -/
def Mgr.connectionSucceeded (m : Mgr) : Mgr :=
  { m with connectedThisReq := true, failedCount := 0, nextRetry := ⟨0, 0⟩ }

/-- `dd_helper_close_conn`. -/
def Mgr.closeConn (m : Mgr) (now : Option Timespec) : Mgr :=
  if !m.connected then m
  else
    let m := { m with connected := false }
    -- closing the connection on the request it was opened is a failure
    if m.connectedThisReq then m.incFailedCounter now else m

/-- `dd_helper_rshutdown`. -/
def Mgr.rshutdown (m : Mgr) : Mgr := { m with connectedThisReq := false }

/-- What a call of `dd_helper_mgr_acquire_conn` finds: the clock before the
attempt, the results of the two attempts, of the launch between them and of
`client_init`, and the clock after a failure. -/
structure Attempt where
  now : Option Timespec
  connects : Bool
  launches : Bool
  reconnects : Bool
  inits : Bool
  failedAt : Option Timespec

/-- `dd_helper_mgr_acquire_conn`. -/
def Mgr.acquireConn (m : Mgr) (a : Attempt) : Mgr :=
  if m.connected then m
  else if m.waitForNextRetry a.now then m
  else if a.connects then
    if a.inits then { m.connectionSucceeded with connected := true }
    else m.incFailedCounter a.failedAt
  else if a.launches then
    if a.reconnects then
      if a.inits then { m.connectionSucceeded with connected := true }
      else m.incFailedCounter a.failedAt
    else m.incFailedCounter a.failedAt
  else m.incFailedCounter a.failedAt

/-- A request: what it finds when it connects, and whether the exchange of
RINIT or that of RSHUTDOWN ends in `dd_network`, with the clock at the close. -/
structure ServedRequest where
  attempt : Attempt
  rinitCloses : Bool
  rinitClosedAt : Option Timespec
  rshutdownCloses : Bool
  rshutdownClosedAt : Option Timespec

/-- RINIT and RSHUTDOWN, as far as the manager goes. -/
def Mgr.serve (m : Mgr) (r : ServedRequest) : Mgr :=
  let m := m.acquireConn r.attempt
  let m := if m.connected && r.rinitCloses then m.closeConn r.rinitClosedAt else m
  let m := if m.connected && r.rshutdownCloses then m.closeConn r.rshutdownClosedAt else m
  m.rshutdown

/-! ## Failed requests -/

def Attempt.succeeds (a : Attempt) : Bool := (a.connects || (a.launches && a.reconnects)) && a.inits

/-- A connection is attempted: there is none, and nothing to wait for. -/
def Mgr.attempts (m : Mgr) (r : ServedRequest) : Bool :=
  !m.connected && !m.waitForNextRetry r.attempt.now

/-- The connection is closed on the request that opens it. -/
def Mgr.opensAndCloses (m : Mgr) (r : ServedRequest) : Bool :=
  m.attempts r && r.attempt.succeeds && (r.rinitCloses || r.rshutdownCloses)

inductive RequestOutcome where
  /-- with a connection at its end, or one that was lost later than it was opened -/
  | served
  /-- the next retry is not due yet -/
  | waited
  | failed (time : Option Timespec)

/-- A request fails if it gets no connection or loses the one it opened. -/
def Mgr.outcome (m : Mgr) (r : ServedRequest) : RequestOutcome :=
  if m.connected then .served
  else if m.waitForNextRetry r.attempt.now then .waited
  else if !r.attempt.succeeds then .failed r.attempt.failedAt
  else if r.rinitCloses then .failed r.rinitClosedAt
  else if r.rshutdownCloses then .failed r.rshutdownClosedAt
  else .served

/-- How many requests in a row have failed, waiting ones not counted, and when
the last of them did. -/
structure History where
  failures : Nat
  lastFailure : Option Timespec

def History.record (h : History) : RequestOutcome → History
  | .served => ⟨0, none⟩
  | .waited => h
  | .failed time => ⟨h.failures + 1, time⟩

/-- A worker and what has happened to it. -/
structure Attempts where
  mgr : Mgr
  history : History

def Attempts.start : Attempts := ⟨.start, ⟨0, none⟩⟩

def Attempts.step (s : Attempts) (r : ServedRequest) : Option Attempts :=
  some ⟨s.mgr.serve r, s.history.record (s.mgr.outcome r)⟩

/-! ## What a request does to the manager -/

section Serve

variable {m : Mgr} {a : Attempt} {r : ServedRequest} {now : Timespec}

theorem incFailedCounter_toNat (m : Mgr) (now : Option Timespec) :
    (m.incFailedCounter now).failedCount.toNat = min (m.failedCount.toNat + 1) 65535 := by
  have hcount : (if m.failedCount ≠ 65535 then m.failedCount + 1 else m.failedCount).toNat =
      min (m.failedCount.toNat + 1) 65535 := by
    have hlt := m.failedCount.toNat_lt
    split
    · rename_i hne
      have hsat : m.failedCount.toNat ≠ 65535 := fun h => hne (UInt16.toNat_inj.mp h)
      rw [UInt16.toNat_add]
      simp only [UInt16.reduceToNat]
      omega
    · rename_i heq
      rw [not_not.mp heq]
      decide
  cases now <;> exact hcount

theorem incFailedCounter_nextRetry (m : Mgr) (now : Timespec) :
    (m.incFailedCounter (some now)).nextRetry =
      now.add (backoffWait (m.incFailedCounter (some now)).failedCount.toNat) :=
  rfl

/-- Only the counter and the time of the next retry change. -/
theorem incFailedCounter_flags (m : Mgr) (now : Option Timespec) :
    (m.incFailedCounter now).connected = m.connected ∧
      (m.incFailedCounter now).connectedThisReq = m.connectedThisReq := by
  cases now <;> exact ⟨rfl, rfl⟩

/-- An attempt, with its two tries and the exchange after them, succeeds or is
one failure. -/
theorem acquireConn_of_attempts (h : m.attempts r = true) :
    m.acquireConn r.attempt =
      if r.attempt.succeeds then { m.connectionSucceeded with connected := true }
      else m.incFailedCounter r.attempt.failedAt := by
  simp only [Mgr.attempts, Bool.and_eq_true, Bool.not_eq_true'] at h
  simp only [Mgr.acquireConn, h.1, h.2, Bool.false_eq_true, if_false, Attempt.succeeds]
  generalize r.attempt = a
  obtain ⟨now, connects, launches, reconnects, inits, failedAt⟩ := a
  cases connects <;> cases launches <;> cases reconnects <;> cases inits <;> rfl

/-- A connection of an earlier request is lost without a failure. -/
theorem serve_of_connected (hopen : m.connected = true) (hreq : m.connectedThisReq = false) :
    m.serve r = { m with connected := !(r.rinitCloses || r.rshutdownCloses) } := by
  obtain ⟨connected, nextRetry, failedCount, connectedThisReq⟩ := m
  subst hopen hreq
  cases hrinit : r.rinitCloses <;> cases hrshutdown : r.rshutdownCloses <;>
    simp [Mgr.serve, Mgr.acquireConn, Mgr.closeConn, Mgr.rshutdown, hrinit, hrshutdown]

theorem serve_of_waits (hclosed : m.connected = false) (hreq : m.connectedThisReq = false)
    (hwait : m.waitForNextRetry r.attempt.now = true) : m.serve r = m := by
  obtain ⟨connected, nextRetry, failedCount, connectedThisReq⟩ := m
  subst hclosed hreq
  simp [Mgr.serve, Mgr.acquireConn, Mgr.rshutdown, hwait]

theorem serve_of_fails (h : m.attempts r = true) (hclosed : m.connected = false)
    (hreq : m.connectedThisReq = false) (hfails : r.attempt.succeeds = false) :
    m.serve r = m.incFailedCounter r.attempt.failedAt := by
  obtain ⟨hconn, hthis⟩ := incFailedCounter_flags m r.attempt.failedAt
  rw [hclosed] at hconn
  rw [hreq] at hthis
  simp only [Mgr.serve, acquireConn_of_attempts h, hfails, Bool.false_eq_true, if_false, hconn,
    Bool.false_and, Mgr.rshutdown]
  generalize m.incFailedCounter r.attempt.failedAt = m' at hconn hthis ⊢
  obtain ⟨connected, nextRetry, failedCount, connectedThisReq⟩ := m'
  subst hconn hthis
  rfl

/-- The success has set the counter back by the time of the close. -/
theorem serve_of_closes (h : m.attempts r = true) (hsucceeds : r.attempt.succeeds = true)
    (hcloses : (r.rinitCloses || r.rshutdownCloses) = true) :
    m.serve r = Mgr.start.incFailedCounter
      (if r.rinitCloses then r.rinitClosedAt else r.rshutdownClosedAt) := by
  simp only [Mgr.serve, acquireConn_of_attempts h, hsucceeds, if_true]
  cases hrinit : r.rinitCloses with
  | true => cases hat : r.rinitClosedAt <;> rfl
  | false =>
    have hrshutdown : r.rshutdownCloses = true := by simpa [hrinit] using hcloses
    simp only [hrshutdown]
    cases hat : r.rshutdownClosedAt <;> rfl

theorem serve_of_stays (h : m.attempts r = true) (hsucceeds : r.attempt.succeeds = true)
    (hcloses : (r.rinitCloses || r.rshutdownCloses) = false) :
    m.serve r = { Mgr.start with connected := true } := by
  obtain ⟨hrinit, hrshutdown⟩ := Bool.or_eq_false_iff.mp hcloses
  simp only [Mgr.serve, acquireConn_of_attempts h, hsucceeds, if_true, hrinit, hrshutdown,
    Bool.and_false, Bool.false_eq_true, if_false]
  rfl

/-- With a retry time to wait for, an attempt comes after it. -/
theorem not_before_of_attempts (h : m.attempts r = true) (hnow : r.attempt.now = some now)
    (hretry : m.nextRetry.sec = 0 → m.nextRetry = ⟨0, 0⟩) : ¬ now.before m.nextRetry := by
  simp only [Mgr.attempts, Mgr.waitForNextRetry, hnow, Bool.and_eq_true, Bool.not_eq_true'] at h
  by_cases hsec : m.nextRetry.sec = 0
  · rw [hretry hsec]
    simp [Timespec.before]
  · simpa [hsec] using h.2

end Serve

/-! ## Runs of requests -/

/-- Every look at the clock during the request succeeds. -/
structure ServedRequest.ClockWorks (r : ServedRequest) : Prop where
  now : r.attempt.now.isSome
  failedAt : r.attempt.failedAt.isSome
  rinitClosedAt : r.rinitClosedAt.isSome
  rshutdownClosedAt : r.rshutdownClosedAt.isSome

/-- What the backoff is meant to be: the counter counts the failures in a row
up to its greatest value, the next retry is `3 * 2 ^ min (k - 1) 10` seconds
after the `k`-th of them, and no request attempts to connect before it. -/
structure Attempts.BackedOff (s : Attempts) : Prop where
  counter : s.mgr.failedCount.toNat = min s.history.failures 65535
  retry : ∀ k, 1 ≤ k → s.history.failures = k →
    ∃ t, s.history.lastFailure = some t ∧ s.mgr.nextRetry = t.add (3 * 2 ^ min (k - 1) 10)
  attempt : ∀ r : ServedRequest, ∀ now, r.attempt.now = some now → s.mgr.attempts r = true →
    ¬ now.before s.mgr.nextRetry

/-- `BackedOff`, with what the steps need between two requests. -/
structure Attempts.Inv (s : Attempts) : Prop where
  request : s.mgr.connectedThisReq = false
  connected : s.mgr.connected = true → s.history.failures = 0
  counter : s.mgr.failedCount.toNat = min s.history.failures 65535
  noRetry : s.history.failures = 0 → s.mgr.nextRetry = ⟨0, 0⟩
  retry : ∀ k, 1 ≤ k → s.history.failures = k →
    ∃ t, s.history.lastFailure = some t ∧ s.mgr.nextRetry = t.add (3 * 2 ^ min (k - 1) 10)

theorem Attempts.Inv.backedOff {s : Attempts} (h : s.Inv) : s.BackedOff where
  counter := h.counter
  retry := h.retry
  attempt := by
    intro r now hnow hattempts
    refine not_before_of_attempts hattempts hnow fun hsec => ?_
    by_cases hzero : s.history.failures = 0
    · exact h.noRetry hzero
    · obtain ⟨t, -, hretry⟩ := h.retry _ (Nat.pos_of_ne_zero hzero) rfl
      -- a wait is at least three seconds
      have hpos := Nat.two_pow_pos (min (s.history.failures - 1) 10)
      simp only [hretry, Timespec.add] at hsec
      omega

theorem Attempts.start_inv : Attempts.start.Inv where
  request := rfl
  connected _ := rfl
  counter := rfl
  noRetry _ := rfl
  retry _ hk h := absurd h (Nat.ne_of_lt hk)

/-- The counter saturates, but long after the wait has stopped growing. -/
theorem backoffWait_min (k : Nat) : backoffWait (min k 65535) = 3 * 2 ^ min (k - 1) 10 := by
  have hexp : min (min k 65535 - 1) 10 = min (k - 1) 10 := by omega
  rw [backoffWait, hexp]

/-- A failure after `n` others that the counter has counted. -/
theorem inv_incFailedCounter {m : Mgr} {n : Nat} {time : Option Timespec}
    (htime : time.isSome) (hreq : m.connectedThisReq = false) (hclosed : m.connected = false)
    (hcount : m.failedCount.toNat = min n 65535) :
    (⟨m.incFailedCounter time, ⟨n + 1, time⟩⟩ : Attempts).Inv := by
  obtain ⟨t, rfl⟩ := Option.isSome_iff_exists.mp htime
  obtain ⟨hconn, hthis⟩ := incFailedCounter_flags m (some t)
  have hnext : (m.incFailedCounter (some t)).failedCount.toNat = min (n + 1) 65535 := by
    rw [incFailedCounter_toNat, hcount]
    omega
  exact {
    request := hthis.trans hreq
    connected := fun h => by simp [hconn, hclosed] at h
    counter := hnext
    noRetry := fun h => by simp at h
    retry := by
      rintro _ - rfl
      exact ⟨t, rfl, by rw [incFailedCounter_nextRetry, hnext, backoffWait_min]⟩ }

/-- No connection is closed on the request that opens it right after a failed
request, the waiting ones not counted. -/
def Attempts.KeepsCount (s : Attempts) (r : ServedRequest) : Prop :=
  s.history.failures = 0 ∨ s.mgr.opensAndCloses r = false

section Step

variable {s s' : Attempts} {r : ServedRequest}

/-- A connection that is closed on the request that opens it leaves the counter
at one, whatever came before. -/
theorem step_of_closes (h : s.mgr.opensAndCloses r = true) (hclock : r.ClockWorks) :
    ∃ t, s.step r =
      some ⟨Mgr.start.incFailedCounter (some t), ⟨s.history.failures + 1, some t⟩⟩ := by
  simp only [Mgr.opensAndCloses, Bool.and_eq_true] at h
  obtain ⟨⟨hattempts, hsucceeds⟩, hcloses⟩ := h
  have hgate := hattempts
  simp only [Mgr.attempts, Bool.and_eq_true, Bool.not_eq_true'] at hgate
  obtain ⟨t₁, hrinitAt⟩ := Option.isSome_iff_exists.mp hclock.rinitClosedAt
  obtain ⟨t₂, hrshutdownAt⟩ := Option.isSome_iff_exists.mp hclock.rshutdownClosedAt
  rw [Attempts.step, serve_of_closes hattempts hsucceeds hcloses, Mgr.outcome]
  cases hrinit : r.rinitCloses with
  | true => exact ⟨t₁, by simp [hgate, hsucceeds, hrinitAt, History.record]⟩
  | false =>
    have hrshutdown : r.rshutdownCloses = true := by simpa [hrinit] using hcloses
    exact ⟨t₂, by simp [hgate, hsucceeds, hrshutdown, hrshutdownAt, History.record]⟩

theorem step_inv (h : s.Inv) (hclock : r.ClockWorks) (hkeeps : s.KeepsCount r)
    (hstep : s.step r = some s') : s'.Inv := by
  by_cases hcloses : s.mgr.opensAndCloses r = true
  · -- counted from zero, which is right here
    have hzero : s.history.failures = 0 := hkeeps.resolve_right (by simp [hcloses])
    obtain ⟨t, heq⟩ := step_of_closes hcloses hclock
    cases heq.symm.trans hstep
    rw [hzero]
    exact inv_incFailedCounter rfl rfl rfl rfl
  cases hstep
  by_cases hopen : s.mgr.connected = true
  · have hzero := h.connected hopen
    have hcount := h.counter
    rw [hzero] at hcount
    rw [serve_of_connected hopen h.request, Mgr.outcome, if_pos hopen]
    exact {
      request := h.request
      connected := fun _ => rfl
      counter := hcount
      noRetry := fun _ => h.noRetry hzero
      retry := fun k hk hfail => absurd hfail (Nat.ne_of_lt hk) }
  have hclosed : s.mgr.connected = false := by simpa using hopen
  by_cases hwait : s.mgr.waitForNextRetry r.attempt.now = true
  · rw [serve_of_waits hclosed h.request hwait, Mgr.outcome, if_neg hopen, if_pos hwait]
    exact h
  have hattempts : s.mgr.attempts r = true := by simp [Mgr.attempts, hclosed, hwait]
  rw [Mgr.outcome, if_neg hopen, if_neg hwait]
  cases hsucceeds : r.attempt.succeeds with
  | false =>
    rw [serve_of_fails hattempts hclosed h.request hsucceeds]
    exact inv_incFailedCounter hclock.failedAt h.request hclosed h.counter
  | true =>
    have hstays : (r.rinitCloses || r.rshutdownCloses) = false := by
      simpa [Mgr.opensAndCloses, hattempts, hsucceeds] using hcloses
    obtain ⟨hrinit, hrshutdown⟩ := Bool.or_eq_false_iff.mp hstays
    rw [serve_of_stays hattempts hsucceeds hstays]
    simp only [Bool.not_true, hrinit, hrshutdown, Bool.false_eq_true, if_false, History.record]
    exact {
      request := rfl
      connected := fun _ => rfl
      counter := rfl
      noRetry := fun _ => rfl
      retry := fun k hk hfail => absurd hfail (Nat.ne_of_lt hk) }

/-- The wait starts again at three seconds where it should have been longer. -/
theorem not_backedOff_of_closes (hfail : s.history.failures ≠ 0)
    (hcloses : s.mgr.opensAndCloses r = true) (hclock : r.ClockWorks)
    (hstep : s.step r = some s') : ¬ s'.BackedOff := by
  intro hback
  obtain ⟨t, heq⟩ := step_of_closes hcloses hclock
  cases heq.symm.trans hstep
  obtain ⟨t', htime, hretry⟩ := hback.retry (s.history.failures + 1) (by omega) rfl
  cases htime
  rw [incFailedCounter_nextRetry, incFailedCounter_toNat] at hretry
  have hsec : 3 * 2 ^ 0 = 3 * 2 ^ min s.history.failures 10 := by
    have := congrArg Timespec.sec hretry
    simpa [Timespec.add, backoffWait, Mgr.start] using this
  have hexp : 0 = min s.history.failures 10 :=
    Nat.pow_right_injective (Nat.le_refl 2) (Nat.eq_of_mul_eq_mul_left (by decide) hsec)
  omega

end Step

/-- In a run with a working clock, the backoff is the one that is meant in every
state reached if and only if each request keeps the count. -/
theorem backoff_grows_iff {rs : List ServedRequest} (hclock : ∀ r ∈ rs, r.ClockWorks) :
    Throughout Attempts.step (fun _ _ s => s.BackedOff) .start rs ↔
      Along Attempts.step Attempts.KeepsCount .start rs := by
  refine throughout_iff_along Attempts.Inv ?_ ?_ Attempts.start_inv hclock
  · intro s r s' h hr hkeeps hstep
    have hinv := step_inv h hr hkeeps hstep
    exact ⟨hinv, hinv.backedOff⟩
  · intro s r _ hr hloses
    obtain ⟨hfail, hcloses⟩ := not_or.mp hloses
    rw [Bool.not_eq_false] at hcloses
    exact ⟨_, rfl, not_backedOff_of_closes hfail hcloses hr rfl⟩

/-- A request at a time at which the whole of it happens. -/
def requestAt (sec : Nat) (succeeds closes : Bool) : ServedRequest :=
  ⟨⟨some ⟨sec, 0⟩, succeeds, false, false, true, some ⟨sec, 0⟩⟩,
    closes, some ⟨sec, 0⟩, false, some ⟨sec, 0⟩⟩

theorem requestAt_clockWorks (sec : Nat) (succeeds closes : Bool) :
    (requestAt sec succeeds closes).ClockWorks :=
  ⟨rfl, rfl, rfl, rfl⟩

/-- Two failures, a request that waits, and a connection that stays. -/
theorem backoff_grows_over_two_failures :
    Throughout Attempts.step (fun _ _ s => s.BackedOff) .start
      [requestAt 10 false false, requestAt 13 false false, requestAt 14 true true,
        requestAt 19 true false] := by
  refine (backoff_grows_iff ?_).mpr ?_
  · intro r hr
    simp only [List.mem_cons, List.not_mem_nil, or_false] at hr
    obtain rfl | rfl | rfl | rfl := hr <;> exact requestAt_clockWorks _ _ _
  · refine ⟨.inl rfl, fun s h => ?_⟩
    cases h
    refine ⟨.inr (by decide), fun s h => ?_⟩
    cases h
    refine ⟨.inr (by decide), fun s h => ?_⟩
    cases h
    exact ⟨.inr (by decide), fun s _ => trivial⟩

/-- The second connection that is closed on its own request waits for three
seconds again, not for six. -/
theorem second_closed_request_waits_three_seconds :
    ∃ s, run Attempts.step .start [requestAt 10 true true, requestAt 20 true true] = some s ∧
      s.history = ⟨2, some ⟨20, 0⟩⟩ ∧ s.mgr.nextRetry = ⟨23, 0⟩ ∧ ¬ s.BackedOff := by
  refine ⟨_, rfl, rfl, rfl, fun h => ?_⟩
  obtain ⟨t, htime, hretry⟩ := h.retry 2 (by decide) rfl
  cases htime
  revert hretry
  decide

end DdAppsec.Extension
