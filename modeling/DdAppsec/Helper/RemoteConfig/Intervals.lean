import DdAppsec.Helper.RemoteConfig.ClientHandler

/-!
# RemoteConfig — the interval between ticks

After each failure the polling thread waits twice as long, up to a maximum.
`handle_error` computes the power of two before it is cut to the maximum,
and computes it no more once the interval has got there. `Watched` keeps,
beside the handler, what has happened to it: how many failures there have
been since a discovery succeeded, and whether one has and none followed.

`PacedAsMeant` says what the handler makes of it. An interval of zero never
gets to the maximum; with it, the 1024th failure asks for a power that no
double holds (`paced_iff`).
-/

namespace DdAppsec.Helper.RemoteConfig

open Lib

variable {σ : Type}

/-! ## What a tick meets -/

/-- A discovery that finds the endpoint; one that does not, or a poll that
ends in `network_exception`; any other poll. -/
inductive TickOutcome where
  | discovered | failed | polled
  deriving DecidableEq

/-- What the next tick meets, `none` where it lets an exception through. -/
def ClientHandler.tickOutcome (deps : Deps) (id : Bytes) (t : Tick) (h : ClientHandler σ)
    (w : σ) : Option TickOutcome :=
  match h.action with
  | .discover =>
    match isRemoteConfigAvailable deps t.info with
    | .returned true => some .discovered
    | .returned false | .network => some .failed
    | .escaped _ => none
  | .poll =>
    match (h.client.poll deps t.order id t.tracer t.configs w).1 with
    | .returned _ => some .polled
    | .network => some .failed
    | .escaped _ => none

/-- The thread and its history: the failures since the last discovery that
succeeded, and whether none has followed it. -/
structure Watched (σ : Type) where
  handler : ClientHandler σ
  world : σ
  failures : Nat
  available : Bool

def Watched.start (client : Client σ) (pollInterval : Nat) (w : σ) : Watched σ :=
  ⟨.new client pollInterval, w, 0, false⟩

/-- The history after an outcome. -/
def Watched.record (outcome : TickOutcome) (s : Watched σ) : Nat × Bool :=
  match outcome with
  | .discovered => (0, true)
  | .failed => (s.failures + 1, false)
  | .polled => (s.failures, s.available)

/-- One tick; `none` if an exception escapes and the thread ends. -/
def Watched.step (deps : Deps) (id : Bytes) (s : Watched σ) (t : Tick) : Option (Watched σ) :=
  match s.handler.tick deps id t s.world, s.handler.tickOutcome deps id t s.world with
  | (none, h, w), some outcome =>
    some ⟨h, w, (s.record outcome).1, (s.record outcome).2⟩
  | _, _ => none

/-! ## The property and the condition -/

/-- The interval after `failures` of them. -/
def pacedInterval (pollInterval maxInterval failures : Nat) : Nat :=
  if maxInterval ≤ pollInterval then pollInterval
  else min maxInterval (pollInterval * 2 ^ failures)

/-- **The pace follows the history**, and every power of two that has been
computed is a double. -/
structure PacedAsMeant (s : Watched σ) : Prop where
  errors : s.handler.errors = min s.failures 65534
  interval : s.handler.interval =
    pacedInterval s.handler.pollInterval s.handler.maxInterval s.failures
  action : s.handler.action = .poll ↔ s.available = true
  finite : s.handler.infinitePower = false

/-- The condition on a tick: with an interval of zero, it is not the 1024th
failure in a row. -/
def PowerFits (deps : Deps) (id : Bytes) (s : Watched σ) (t : Tick) : Prop :=
  s.handler.pollInterval = 0 → s.handler.tickOutcome deps id t s.world = some .failed →
    s.failures + 1 < 1024

/-! ## One tick -/

section Step

variable {deps : Deps} {id : Bytes} {s s' : Watched σ} {t : Tick}

/-- The handler in front of a discovery: what the tick does and meets. -/
theorem ClientHandler.tick_of_discover {h : ClientHandler σ} (haction : h.action = .discover)
    (w : σ) :
    h.tick deps id t w = ((h.discover deps t).1, (h.discover deps t).2, w) ∧
      h.tickOutcome deps id t w =
        match isRemoteConfigAvailable deps t.info with
        | .returned true => some .discovered
        | .returned false | .network => some .failed
        | .escaped _ => none := by
  unfold ClientHandler.tick ClientHandler.tickOutcome
  rw [haction]
  exact ⟨rfl, rfl⟩

/-- The same in front of a poll. -/
theorem ClientHandler.tick_of_poll {h : ClientHandler σ} (haction : h.action = .poll) (w : σ) :
    h.tick deps id t w = h.poll deps id t w ∧
      h.tickOutcome deps id t w =
        match (h.client.poll deps t.order id t.tracer t.configs w).1 with
        | .returned _ => some .polled
        | .network => some .failed
        | .escaped _ => none := by
  unfold ClientHandler.tick ClientHandler.tickOutcome
  rw [haction]
  exact ⟨rfl, rfl⟩

theorem Watched.step_discovered (h : s.handler.tickOutcome deps id t s.world = some .discovered) :
    s.step deps id t = some ⟨{ s.handler with
      action := .poll, errors := 0, interval := s.handler.pollInterval }, s.world, 0, true⟩ := by
  unfold Watched.step
  rw [h]
  cases haction : s.handler.action with
  | discover =>
    obtain ⟨htick, houtcome⟩ := ClientHandler.tick_of_discover haction s.world
    rw [houtcome] at h
    rw [htick, ClientHandler.discover]
    cases havailable : isRemoteConfigAvailable deps t.info with
    | returned found =>
      cases found with
      | true => rfl
      | false => simp [havailable] at h
    | network => simp [havailable] at h
    | escaped e => simp [havailable] at h
  | poll =>
    rw [(ClientHandler.tick_of_poll haction s.world).2] at h
    cases hpoll : (s.handler.client.poll deps t.order id t.tracer t.configs s.world).1 with
    | returned b => simp [hpoll] at h
    | network => simp [hpoll] at h
    | escaped e => simp [hpoll] at h

theorem Watched.step_failed (h : s.handler.tickOutcome deps id t s.world = some .failed) :
    ∃ c w, s.step deps id t =
      some ⟨{ s.handler with client := c }.handleError, w, s.failures + 1, false⟩ := by
  unfold Watched.step
  rw [h]
  cases haction : s.handler.action with
  | discover =>
    obtain ⟨htick, houtcome⟩ := ClientHandler.tick_of_discover haction s.world
    rw [houtcome] at h
    rw [htick, ClientHandler.discover]
    refine ⟨s.handler.client, s.world, ?_⟩
    cases havailable : isRemoteConfigAvailable deps t.info with
    | returned found =>
      cases found with
      | true => simp [havailable] at h
      | false => rfl
    | network => rfl
    | escaped e => simp [havailable] at h
  | poll =>
    obtain ⟨htick, houtcome⟩ := ClientHandler.tick_of_poll haction s.world
    rw [houtcome] at h
    rw [htick, ClientHandler.poll]
    cases hpoll : s.handler.client.poll deps t.order id t.tracer t.configs s.world with
    | mk outcome rest =>
      cases outcome with
      | network => exact ⟨rest.1, rest.2, rfl⟩
      | returned b => simp [hpoll] at h
      | escaped e => simp [hpoll] at h

theorem Watched.step_polled (h : s.handler.tickOutcome deps id t s.world = some .polled) :
    ∃ c w, s.step deps id t =
      some ⟨{ s.handler with client := c }, w, s.failures, s.available⟩ := by
  unfold Watched.step
  rw [h]
  cases haction : s.handler.action with
  | discover =>
    rw [(ClientHandler.tick_of_discover haction s.world).2] at h
    cases havailable : isRemoteConfigAvailable deps t.info with
    | returned found => cases found <;> simp [havailable] at h
    | network => simp [havailable] at h
    | escaped e => simp [havailable] at h
  | poll =>
    obtain ⟨htick, houtcome⟩ := ClientHandler.tick_of_poll haction s.world
    rw [houtcome] at h
    rw [htick, ClientHandler.poll]
    cases hpoll : s.handler.client.poll deps t.order id t.tracer t.configs s.world with
    | mk outcome rest =>
      cases outcome with
      | returned b => exact ⟨rest.1, rest.2, rfl⟩
      | network => simp [hpoll] at h
      | escaped e => simp [hpoll] at h

theorem Watched.step_escaped (h : s.handler.tickOutcome deps id t s.world = none) :
    s.step deps id t = none := by
  unfold Watched.step
  rw [h]
  split
  · rename_i hnone
    cases hnone
  · rfl

theorem pacedInterval_zero (pollInterval maxInterval : Nat) :
    pacedInterval pollInterval maxInterval 0 = pollInterval := by
  rw [pacedInterval, Nat.pow_zero, Nat.mul_one]
  split <;> omega

/-- Up to the maximum, the interval has been doubled a few times only,
unless it is zero. -/
theorem doublings_lt {poll failures : Nat} (hpoll : poll ≠ 0)
    (hlt : poll * 2 ^ failures < defaultMaxInterval) : failures + 1 < 1024 := by
  have hpow : 2 ^ failures ≤ poll * 2 ^ failures :=
    Nat.le_mul_of_pos_left _ (Nat.pos_of_ne_zero hpoll)
  have hbound : 2 ^ failures < 2 ^ 19 :=
    Nat.lt_of_le_of_lt hpow (Nat.lt_trans hlt (by decide))
  have hfew := (Nat.pow_lt_pow_iff_right (by decide)).mp hbound
  omega

/-- A tick keeps the two settings of the handler. -/
theorem ClientHandler.handleError_settings (h : ClientHandler σ) :
    h.handleError.pollInterval = h.pollInterval ∧ h.handleError.maxInterval = h.maxInterval ∧
      h.handleError.action = .discover := by
  unfold ClientHandler.handleError
  dsimp only
  split
  · split <;> exact ⟨rfl, rfl, rfl⟩
  · exact ⟨rfl, rfl, rfl⟩

/-- The counter counts up to its cap. -/
theorem ClientHandler.handleError_errors {h : ClientHandler σ} {failures : Nat}
    (herrors : h.errors = min failures 65534) :
    h.handleError.errors = min (failures + 1) 65534 := by
  have hnext : (if h.errors < 2 ^ 16 - 1 - 1 then h.errors + 1 else h.errors) =
      min (failures + 1) 65534 := by
    split <;> omega
  unfold ClientHandler.handleError
  dsimp only
  split
  · split
    · exact hnext
    · exact hnext
  · exact hnext

/-- **A failure stretches the interval once more**, while the power that it
takes is a double. -/
theorem ClientHandler.handleError_interval {h : ClientHandler σ} {failures : Nat}
    (hmax : h.maxInterval = defaultMaxInterval) (herrors : h.errors = min failures 65534)
    (hinterval : h.interval = pacedInterval h.pollInterval h.maxInterval failures)
    (hfinite : h.infinitePower = false) (hfits : h.pollInterval = 0 → failures + 1 < 1024) :
    h.handleError.interval = pacedInterval h.pollInterval h.maxInterval (failures + 1) ∧
      h.handleError.infinitePower = false := by
  have hdouble : h.pollInterval * 2 ^ (failures + 1) = 2 * (h.pollInterval * 2 ^ failures) := by
    rw [Nat.pow_succ, ← Nat.mul_assoc, Nat.mul_comm]
  unfold pacedInterval at hinterval ⊢
  by_cases hlarge : h.maxInterval ≤ h.pollInterval
  · -- never below the maximum
    rw [if_pos hlarge] at hinterval ⊢
    unfold ClientHandler.handleError
    dsimp only
    rw [if_neg (by omega)]
    exact ⟨hinterval, hfinite⟩
  · rw [if_neg hlarge] at hinterval ⊢
    by_cases hbelow : h.interval < h.maxInterval
    · have hlt : h.pollInterval * 2 ^ failures < defaultMaxInterval := by omega
      have hfew : failures + 1 < 1024 := by
        by_cases hzero : h.pollInterval = 0
        · exact hfits hzero
        · exact doublings_lt hzero hlt
      have hcount : (if h.errors < 2 ^ 16 - 1 - 1 then h.errors + 1 else h.errors) =
          failures + 1 := by
        rw [if_pos (by omega)]
        omega
      unfold ClientHandler.handleError
      dsimp only
      rw [if_pos hbelow, hcount, powerOfTwo, if_pos hfew]
      exact ⟨rfl, hfinite⟩
    · -- at the maximum, where it stays
      unfold ClientHandler.handleError
      dsimp only
      rw [if_neg hbelow]
      refine ⟨?_, hfinite⟩
      show h.interval = _
      rw [hdouble]
      omega

/-- With an interval of zero the 1024th failure asks for an infinite power. -/
theorem ClientHandler.handleError_infinite {h : ClientHandler σ} {failures : Nat}
    (hmax : h.maxInterval = defaultMaxInterval) (herrors : h.errors = min failures 65534)
    (hinterval : h.interval = pacedInterval h.pollInterval h.maxInterval failures)
    (hzero : h.pollInterval = 0) (hmany : 1023 ≤ failures) :
    h.handleError.infinitePower = true := by
  have hbelow : h.interval < h.maxInterval := by
    rw [hinterval, pacedInterval, hzero, hmax, Nat.zero_mul, if_neg (by decide)]
    decide
  have hcount : ¬ (if h.errors < 2 ^ 16 - 1 - 1 then h.errors + 1 else h.errors) < 1024 := by
    split <;> omega
  unfold ClientHandler.handleError
  dsimp only
  rw [if_pos hbelow, powerOfTwo, if_neg hcount]

/-! ## Every run -/

/-- What every tick keeps that meets the condition. -/
structure Watched.Inv (pollInterval : Nat) (s : Watched σ) : Prop where
  poll : s.handler.pollInterval = pollInterval
  max : s.handler.maxInterval = defaultMaxInterval
  paced : PacedAsMeant s

theorem Watched.start_inv (client : Client σ) (pollInterval : Nat) (w : σ) :
    (Watched.start client pollInterval w).Inv pollInterval where
  poll := rfl
  max := rfl
  paced := by
    refine ⟨rfl, ?_, by simp [Watched.start, ClientHandler.new], rfl⟩
    exact (pacedInterval_zero _ _).symm

/-- **Step lemma**, one case for each outcome. -/
theorem Watched.step_inv {pollInterval : Nat} (hinv : s.Inv pollInterval)
    (hfits : PowerFits deps id s t) (hstep : s.step deps id t = some s') :
    s'.Inv pollInterval := by
  obtain ⟨hpoll, hmax, herrors, hinterval, haction, hfinite⟩ := hinv
  cases houtcome : s.handler.tickOutcome deps id t s.world with
  | none =>
    rw [Watched.step_escaped houtcome] at hstep
    cases hstep
  | some outcome =>
    cases outcome with
    | discovered =>
      rw [Watched.step_discovered houtcome] at hstep
      cases hstep
      refine ⟨hpoll, hmax, rfl, ?_, by simp, hfinite⟩
      exact (pacedInterval_zero _ _).symm
    | failed =>
      obtain ⟨c, w, heq⟩ := Watched.step_failed houtcome
      rw [heq] at hstep
      cases hstep
      obtain ⟨hpoll', hmax', haction'⟩ :=
        ClientHandler.handleError_settings { s.handler with client := c }
      obtain ⟨hinterval', hfinite'⟩ :=
        ClientHandler.handleError_interval (h := { s.handler with client := c }) hmax herrors
          hinterval hfinite fun hzero => hfits hzero houtcome
      refine ⟨hpoll'.trans hpoll, hmax'.trans hmax, ClientHandler.handleError_errors herrors,
        ?_, by simp [haction'], hfinite'⟩
      show _ = pacedInterval _ _ _
      rw [hpoll', hmax']
      exact hinterval'
    | polled =>
      obtain ⟨c, w, heq⟩ := Watched.step_polled houtcome
      rw [heq] at hstep
      cases hstep
      exact ⟨hpoll, hmax, herrors, hinterval, haction, hfinite⟩

/-- The tick on which the condition fails. -/
theorem Watched.step_breaks {pollInterval : Nat} (hinv : s.Inv pollInterval)
    (hfails : ¬ PowerFits deps id s t) :
    ∃ s', s.step deps id t = some s' ∧ ¬ PacedAsMeant s' := by
  obtain ⟨hpoll, hmax, herrors, hinterval, _, _⟩ := hinv
  obtain ⟨hzero, hfails⟩ := Classical.not_imp.mp hfails
  obtain ⟨hfailed, hmany⟩ := Classical.not_imp.mp hfails
  obtain ⟨c, w, heq⟩ := Watched.step_failed hfailed
  have hinfinite : ({ s.handler with client := c } : ClientHandler σ).handleError.infinitePower =
      true :=
    ClientHandler.handleError_infinite hmax herrors hinterval hzero (by omega)
  refine ⟨_, heq, fun hpaced => ?_⟩
  have hfinite := hpaced.finite
  rw [hinfinite] at hfinite
  cases hfinite

theorem Watched.paced_along {pollInterval : Nat} {ticks : List Tick}
    (hinv : s.Inv pollInterval) :
    Throughout (Watched.step deps id) (fun _ _ s => PacedAsMeant s) s ticks ↔
      Along (Watched.step deps id) (PowerFits deps id) s ticks := by
  refine throughout_iff_along (P := fun _ => True) (Watched.Inv pollInterval) ?_ ?_ hinv
    fun _ _ => trivial
  · intro s t s' h _ hfits hstep
    have hinv' := Watched.step_inv h hfits hstep
    exact ⟨hinv', hinv'.paced⟩
  · intro s t h _ hfails
    exact Watched.step_breaks h hfails

end Step

/-- **The pace is the one that is meant**, in the first state and in every
state reached, if and only if no tick is the 1024th failure in a row with an
interval of zero. -/
theorem paced_iff (deps : Deps) (id : Bytes) (client : Client σ) (pollInterval : Nat) (w : σ)
    (ticks : List Tick) :
    PacedAsMeant (Watched.start client pollInterval w) ∧
    (Throughout (Watched.step deps id) (fun _ _ s => PacedAsMeant s)
        (.start client pollInterval w) ticks ↔
      Along (Watched.step deps id) (PowerFits deps id) (.start client pollInterval w) ticks) :=
  ⟨(Watched.start_inv client pollInterval w).paced,
    Watched.paced_along (Watched.start_inv client pollInterval w)⟩

/-! ## No interval at all -/

/-- The agent does not answer. -/
def Tick.unanswered : Tick := ⟨.sorted, none, none, fun _ => none⟩

/-- Without an interval, a run of unanswered ticks gets to the 1024th
failure. -/
theorem not_along_unanswered (deps : Deps) (id : Bytes) (n : Nat) :
    ∀ s : Watched σ, s.handler.action = .discover → s.handler.pollInterval = 0 →
      1024 ≤ s.failures + n → 0 < n →
      ¬ Along (Watched.step deps id) (PowerFits deps id) s (List.replicate n .unanswered) := by
  induction n with
  | zero => exact fun _ _ _ _ hpos => absurd hpos (Nat.lt_irrefl 0)
  | succ n ih =>
    intro s haction hzero hmany _ halong
    rw [List.replicate_succ] at halong
    obtain ⟨hfits, hrest⟩ := halong
    have hfailed : s.handler.tickOutcome deps id .unanswered s.world = some .failed := by
      rw [ClientHandler.tickOutcome, haction]
      rfl
    have hfew := hfits hzero hfailed
    obtain ⟨c, w, hstep⟩ := Watched.step_failed hfailed
    obtain ⟨hpoll, _, haction'⟩ :=
      ClientHandler.handleError_settings { s.handler with client := c }
    refine ih _ haction' (hpoll.trans hzero) ?_ ?_ (hrest _ hstep)
    · show 1024 ≤ s.failures + 1 + n
      omega
    · omega

/-- **Ticks without a pause**: at the 1024th failure the power of two is
infinite. -/
theorem power_infinite_without_interval :
    ¬ Throughout (Watched.step tickDeps "me") (fun _ _ s => PacedAsMeant s)
      (.start tickStart.1.client 0 tickStart.2) (List.replicate 1024 .unanswered) := by
  intro hpaced
  have hinv := Watched.start_inv tickStart.1.client 0 tickStart.2
  exact not_along_unanswered tickDeps "me" 1024 _ rfl rfl (Nat.le_add_left _ _) (by decide)
    ((Watched.paced_along hinv).mp hpaced)

end DdAppsec.Helper.RemoteConfig
