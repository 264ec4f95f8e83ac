import DdAppsec.Lib.Bytes
import DdAppsec.Lib.Runs

/-!
# Helper — the worker pool

Each accepted connection is a RUNNABLE: it goes to the queue if some worker
is pending in `pop`, and to a thread of its own otherwise. A worker that is
done with its runnable pops the next one, waits for one if there is none,
and leaves when the wait brings none either.

A step of `Pool.step` is one critical section, or one passage between two.
A waiting consumer may wake at any time: notified, timed out or spuriously,
it does the same.

The counter `pending` says how many consumers wait, and a push looks at
nothing else: not at how many runnables are queued for them already.
-/

namespace DdAppsec.Helper

open Lib

/-- Runnables are told apart by the call of `launch` they come from. -/
abbrev Runnable := Nat

/-- Where a worker thread is in `work_handler`. -/
inductive Worker where
  /-- at the head of the loop, with a runnable -/
  | ready (r : Runnable)
  | running (r : Runnable)
  /-- before the mutex of `pop` -/
  | popping
  /-- in `wait_for`, or woken and before the mutex -/
  | waiting
  /-- behind the loop, before the destructor of its `queue_consumer` -/
  | leaving
  | gone
  deriving DecidableEq, Repr

/-- `pool` with its `queue_producer`, the threads, the calls of `launch` in
progress and a history of what was accepted and started. -/
structure Pool where
  running : Bool
  refs : Nat
  pending : Nat
  data : List Runnable
  launching : List Runnable
  spawning : List Runnable
  workers : List Worker
  accepted : List Runnable
  started : List Runnable

inductive PoolAction where
  | launch (r : Runnable)
  | push (r : Runnable)
  | spawn (r : Runnable)
  | begin (w : Nat)
  | finish (w : Nat)
  | pop (w : Nat)
  | wake (w : Nat)
  | exit (w : Nat)
  | stop

def Pool.start : Pool := ⟨true, 0, 0, [], [], [], [], [], []⟩

/-! ## The critical sections -/

/-- `launch` up to `push`: a runnable of its own, while the pool runs. -/
def Pool.launch (r : Runnable) (s : Pool) : Option Pool :=
  if r ∈ s.accepted then none
  else if s.running then
    some { s with launching := r :: s.launching, accepted := r :: s.accepted }
  else some s

/-- `queue_producer::push`; the runnable it refuses gets a thread. -/
def Pool.push (r : Runnable) (s : Pool) : Option Pool :=
  if r ∈ s.launching then
    let s := { s with launching := s.launching.erase r }
    some (if 0 < s.pending then { s with data := s.data ++ [r] }
      else { s with spawning := r :: s.spawning })
  else none

/-- A `queue_consumer` and its thread. -/
def Pool.spawn (r : Runnable) (s : Pool) : Option Pool :=
  if r ∈ s.spawning then
    some { s with
      spawning := s.spawning.erase r
      refs := s.refs + 1
      workers := s.workers ++ [.ready r] }
  else none

/-- The head of the loop of `work_handler`. -/
def Pool.begin (w : Nat) (s : Pool) : Option Pool :=
  match s.workers[w]? with
  | some (.ready r) =>
    some (if s.running then
      { s with workers := s.workers.set w (.running r), started := r :: s.started }
    else { s with workers := s.workers.set w .leaving })
  | _ => none

def Pool.finish (w : Nat) (s : Pool) : Option Pool :=
  match s.workers[w]? with
  | some (.running _) => some { s with workers := s.workers.set w .popping }
  | _ => none

/-- `queue_consumer::pop` up to the wait. -/
def Pool.pop (w : Nat) (s : Pool) : Option Pool :=
  match s.workers[w]? with
  | some .popping =>
    match s.data with
    | [] => some { s with pending := s.pending + 1, workers := s.workers.set w .waiting }
    | r :: data => some { s with data := data, workers := s.workers.set w (.ready r) }
  | _ => none

/-- `queue_consumer::pop` behind the wait. -/
def Pool.wake (w : Nat) (s : Pool) : Option Pool :=
  match s.workers[w]? with
  | some .waiting =>
    let s := { s with pending := s.pending - 1 }
    match s.data with
    | [] => some { s with workers := s.workers.set w .leaving }
    | r :: data => some { s with data := data, workers := s.workers.set w (.ready r) }
  | _ => none

/-- The destructor of `queue_consumer`. -/
def Pool.exit (w : Nat) (s : Pool) : Option Pool :=
  match s.workers[w]? with
  | some .leaving => some { s with refs := s.refs - 1, workers := s.workers.set w .gone }
  | _ => none

def Pool.step (s : Pool) : PoolAction → Option Pool
  | .launch r => s.launch r
  | .push r => s.push r
  | .spawn r => s.spawn r
  | .begin w => s.begin w
  | .finish w => s.finish w
  | .pop w => s.pop w
  | .wake w => s.wake w
  | .exit w => s.exit w
  | .stop => some { s with running := false }

/-! ## What every interleaving keeps -/

def Worker.isWaiting : Worker → Bool
  | .waiting => true
  | _ => false

def Worker.isHere : Worker → Bool
  | .gone => false
  | _ => true

/-- The worker has the runnable in its hands and has not started it. -/
def Worker.holds (r : Runnable) : Worker → Bool
  | .ready r' => r' == r
  | _ => false

/-- How often a runnable is somewhere on its way, or was started. -/
def Pool.copies (s : Pool) (r : Runnable) : Nat :=
  s.launching.count r + s.spawning.count r + s.data.count r +
    s.workers.countP (Worker.holds r) + s.started.count r

/-- The counters count the threads, and a runnable is never duplicated. -/
structure Pool.Inv (s : Pool) : Prop where
  pending : s.pending = s.workers.countP Worker.isWaiting
  refs : s.refs = s.workers.countP Worker.isHere
  once : ∀ r, s.copies r ≤ 1
  fresh : ∀ r, r ∉ s.accepted → s.copies r = 0

theorem Pool.Inv.start : Pool.start.Inv where
  pending := rfl
  refs := rfl
  once := fun _ => Nat.zero_le _
  fresh := fun _ _ => rfl

/-- One worker changes: its share of a count is exchanged. -/
theorem countP_set_worker (p : Worker → Bool) {workers : List Worker} {w : Nat} {old : Worker}
    (h : workers[w]? = some old) (new : Worker) :
    (workers.set w new).countP p + (if p old then 1 else 0) =
      workers.countP p + (if p new then 1 else 0) := by
  induction workers generalizing w with
  | nil => simp at h
  | cons x workers ih =>
    cases w with
    | zero =>
      simp only [List.getElem?_cons_zero, Option.some.injEq] at h
      subst h
      rw [List.set_cons_zero, List.countP_cons, List.countP_cons]
      omega
    | succ w =>
      rw [List.getElem?_cons_succ] at h
      have hih := ih h
      rw [List.set_cons_succ, List.countP_cons, List.countP_cons]
      omega

/-- A runnable that leaves a list of distinct places. -/
theorem count_erase_runnable {l : List Runnable} {r : Runnable} (h : r ∈ l) (r' : Runnable) :
    (l.erase r).count r' + (if r = r' then 1 else 0) = l.count r' := by
  have hpos : 0 < l.count r := List.count_pos_iff.mpr h
  by_cases hr : r = r'
  · subst hr
    rw [List.count_erase_self, if_pos rfl]
    omega
  · rw [List.count_erase_of_ne (Ne.symm hr), if_neg hr, Nat.add_zero]

/-- A step that moves runnables without making any. -/
theorem Pool.Inv.moved {s s' : Pool} (h : s.Inv)
    (hpending : s'.pending = s'.workers.countP Worker.isWaiting)
    (hrefs : s'.refs = s'.workers.countP Worker.isHere)
    (haccepted : s'.accepted = s.accepted) (hcopies : ∀ r, s'.copies r ≤ s.copies r) :
    s'.Inv where
  pending := hpending
  refs := hrefs
  once := fun r => Nat.le_trans (hcopies r) (h.once r)
  fresh := by
    intro r hr
    have hzero := h.fresh r (haccepted ▸ hr)
    have hle := hcopies r
    omega

theorem Pool.Inv.launch {s s' : Pool} {r : Runnable} (h : s.Inv) (hstep : s.launch r = some s') :
    s'.Inv := by
  unfold Pool.launch at hstep
  split at hstep
  · cases hstep
  · rename_i hnew
    split at hstep
    · cases hstep
      have hzero := h.fresh r hnew
      refine ⟨h.pending, h.refs, ?_, ?_⟩
      · intro r'
        have honce := h.once r'
        unfold Pool.copies at hzero honce ⊢
        simp only [List.count_cons, beq_iff_eq]
        split
        · rename_i heq
          subst heq
          omega
        · omega
      · intro r' hr'
        rw [List.mem_cons, not_or] at hr'
        have hzero' := h.fresh r' hr'.2
        unfold Pool.copies at hzero' ⊢
        rw [List.count_cons_of_ne (Ne.symm hr'.1)]
        exact hzero'
    · cases hstep
      exact h

theorem Pool.Inv.push {s s' : Pool} {r : Runnable} (h : s.Inv) (hstep : s.push r = some s') :
    s'.Inv := by
  unfold Pool.push at hstep
  split at hstep
  · rename_i hmem
    have hcount := count_erase_runnable hmem
    dsimp only at hstep
    split at hstep
    · cases hstep
      refine h.moved h.pending h.refs rfl fun r' => ?_
      have hr' := hcount r'
      simp only [Pool.copies, List.count_append, List.count_cons, List.count_nil, beq_iff_eq]
      omega
    · cases hstep
      refine h.moved h.pending h.refs rfl fun r' => ?_
      have hr' := hcount r'
      simp only [Pool.copies, List.count_cons, beq_iff_eq]
      omega
  · cases hstep

theorem Pool.Inv.spawn {s s' : Pool} {r : Runnable} (h : s.Inv) (hstep : s.spawn r = some s') :
    s'.Inv := by
  unfold Pool.spawn at hstep
  split at hstep
  · rename_i hmem
    cases hstep
    have hpending := h.pending
    have hrefs := h.refs
    refine h.moved ?_ ?_ rfl fun r' => ?_
    · simpa [Worker.isWaiting] using hpending
    · simpa [Worker.isHere] using hrefs
    · have hr' := count_erase_runnable hmem r'
      simp only [Pool.copies, List.countP_append, List.countP_singleton, Worker.holds, beq_iff_eq]
      omega
  · cases hstep

/-- What a worker holds besides what is on its way elsewhere. -/
def Pool.elsewhere (s : Pool) (r : Runnable) : Nat :=
  s.launching.count r + s.spawning.count r + s.data.count r + s.started.count r

/-- **One worker goes from `old` to `new`**, and the counters and the other
places of runnables change by the difference. -/
theorem Pool.Inv.exchange {s s' : Pool} (h : s.Inv) {w : Nat} {old new : Worker}
    (hw : s.workers[w]? = some old) (hworkers : s'.workers = s.workers.set w new)
    (hpending : s'.pending + (if old.isWaiting then 1 else 0) =
      s.pending + (if new.isWaiting then 1 else 0))
    (hrefs : s'.refs + (if old.isHere then 1 else 0) = s.refs + (if new.isHere then 1 else 0))
    (haccepted : s'.accepted = s.accepted)
    (helsewhere : ∀ r, s'.elsewhere r + (if new.holds r then 1 else 0) ≤
      s.elsewhere r + (if old.holds r then 1 else 0)) : s'.Inv := by
  refine h.moved ?_ ?_ haccepted fun r => ?_
  · have hwaiting := countP_set_worker Worker.isWaiting hw new
    have hbefore := h.pending
    rw [hworkers]
    omega
  · have hhere := countP_set_worker Worker.isHere hw new
    have hbefore := h.refs
    rw [hworkers]
    omega
  · have hholds := countP_set_worker (Worker.holds r) hw new
    have hrest := helsewhere r
    unfold Pool.elsewhere at hrest
    unfold Pool.copies
    rw [hworkers]
    omega

/-- A waiting worker is counted. -/
theorem Pool.Inv.pending_pos {s : Pool} (h : s.Inv) {w : Nat}
    (hw : s.workers[w]? = some .waiting) : 0 < s.pending := by
  rw [h.pending, List.countP_pos_iff]
  exact ⟨.waiting, List.mem_of_getElem? hw, rfl⟩

theorem Pool.Inv.refs_pos {s : Pool} (h : s.Inv) {w : Nat}
    (hw : s.workers[w]? = some .leaving) : 0 < s.refs := by
  rw [h.refs, List.countP_pos_iff]
  exact ⟨.leaving, List.mem_of_getElem? hw, rfl⟩

theorem Pool.Inv.begin {s s' : Pool} {w : Nat} (h : s.Inv) (hstep : s.begin w = some s') :
    s'.Inv := by
  unfold Pool.begin at hstep
  split at hstep
  · rename_i r hw
    split at hstep
    · cases hstep
      refine h.exchange hw rfl rfl rfl rfl fun r' => ?_
      simp only [Pool.elsewhere, Worker.holds, List.count_cons, beq_iff_eq, Bool.false_eq_true,
        if_false]
      omega
    · cases hstep
      refine h.exchange hw rfl rfl rfl rfl fun r' => ?_
      exact Nat.le_add_right _ _
  · cases hstep

theorem Pool.Inv.finish {s s' : Pool} {w : Nat} (h : s.Inv) (hstep : s.finish w = some s') :
    s'.Inv := by
  unfold Pool.finish at hstep
  split at hstep
  · rename_i r hw
    cases hstep
    exact h.exchange hw rfl rfl rfl rfl fun r' => Nat.le_refl _
  · cases hstep

/-- The front of the queue goes to the worker. -/
theorem count_front (r : Runnable) (data : List Runnable) (r' : Runnable) :
    (r :: data).count r' = data.count r' + (if (Worker.ready r).holds r' then 1 else 0) := by
  simp only [Worker.holds, List.count_cons, beq_iff_eq]

theorem Pool.Inv.pop {s s' : Pool} {w : Nat} (h : s.Inv) (hstep : s.pop w = some s') :
    s'.Inv := by
  unfold Pool.pop at hstep
  split at hstep
  · rename_i hw
    split at hstep
    · cases hstep
      exact h.exchange hw rfl rfl rfl rfl fun r' => Nat.le_refl _
    · rename_i r data hdata
      cases hstep
      refine h.exchange hw rfl rfl rfl rfl fun r' => ?_
      simp only [Pool.elsewhere, hdata, count_front]
      omega
  · cases hstep

theorem Pool.Inv.wake {s s' : Pool} {w : Nat} (h : s.Inv) (hstep : s.wake w = some s') :
    s'.Inv := by
  unfold Pool.wake at hstep
  split at hstep
  · rename_i hw
    have hpending : s.pending - 1 + 1 = s.pending + 0 := Nat.sub_add_cancel (h.pending_pos hw)
    dsimp only at hstep
    split at hstep
    · cases hstep
      exact h.exchange hw rfl hpending rfl rfl fun r' => Nat.le_refl _
    · rename_i r data hdata
      cases hstep
      refine h.exchange hw rfl hpending rfl rfl fun r' => ?_
      simp only [Pool.elsewhere, hdata, count_front]
      omega
  · cases hstep

theorem Pool.Inv.exit {s s' : Pool} {w : Nat} (h : s.Inv) (hstep : s.exit w = some s') :
    s'.Inv := by
  unfold Pool.exit at hstep
  split at hstep
  · rename_i hw
    cases hstep
    have hrefs : s.refs - 1 + 1 = s.refs + 0 := Nat.sub_add_cancel (h.refs_pos hw)
    exact h.exchange hw rfl rfl hrefs rfl fun r' => Nat.le_refl _
  · cases hstep

theorem Pool.Inv.step {s s' : Pool} {action : PoolAction} (h : s.Inv)
    (hstep : s.step action = some s') : s'.Inv := by
  cases action with
  | launch r => exact h.launch hstep
  | push r => exact h.push hstep
  | spawn r => exact h.spawn hstep
  | begin w => exact h.begin hstep
  | finish w => exact h.finish hstep
  | pop w => exact h.pop hstep
  | wake w => exact h.wake hstep
  | exit w => exact h.exit hstep
  | stop =>
    cases hstep
    exact ⟨h.pending, h.refs, h.once, h.fresh⟩

/-! ## The queue and the consumers -/

/-- A runnable is only queued for a consumer that has none queued for it:
push finds no consumer pending, or fewer runnables than consumers. -/
def Pool.HasRoom (s : Pool) : PoolAction → Prop
  | .push _ => s.pending = 0 ∨ s.data.length < s.pending
  | _ => True

/-- **Nobody queues behind a busy worker**: there are at most as many queued
runnables as pending consumers, which are all waiting, and no runnable has
been started twice. -/
structure Pool.Served (s : Pool) : Prop where
  queued : s.data.length ≤ s.pending
  waiting : s.pending = s.workers.countP Worker.isWaiting
  once : s.started.Nodup

theorem Pool.Inv.started_nodup {s : Pool} (h : s.Inv) : s.started.Nodup := by
  rw [List.nodup_iff_count_le_one]
  intro r
  have honce := h.once r
  unfold Pool.copies at honce
  omega

/-- A push that has room keeps the queue within the pending consumers. -/
theorem Pool.push_queued {s s' : Pool} {r : Runnable}
    (hroom : s.pending = 0 ∨ s.data.length < s.pending) (hqueue : s.data.length ≤ s.pending)
    (hstep : s.push r = some s') : s'.data.length ≤ s'.pending := by
  unfold Pool.push at hstep
  split at hstep
  · dsimp only at hstep
    split at hstep
    · cases hstep
      simp only [List.length_append, List.length_singleton]
      omega
    · cases hstep
      exact hqueue
  · cases hstep

/-- Taking an item, with or without having waited, only shortens the queue. -/
theorem Pool.wake_queued {s s' : Pool} {w : Nat} (hqueue : s.data.length ≤ s.pending)
    (hstep : s.wake w = some s') : s'.data.length ≤ s'.pending := by
  unfold Pool.wake at hstep
  split at hstep
  · dsimp only at hstep
    split at hstep
    · rename_i hdata
      cases hstep
      simp [hdata]
    · rename_i r data hdata
      cases hstep
      rw [hdata, List.length_cons] at hqueue
      show data.length ≤ s.pending - 1
      omega
  · cases hstep

theorem Pool.pop_queued {s s' : Pool} {w : Nat} (hqueue : s.data.length ≤ s.pending)
    (hstep : s.pop w = some s') : s'.data.length ≤ s'.pending := by
  unfold Pool.pop at hstep
  split at hstep
  · split at hstep
    · cases hstep
      exact Nat.le_succ_of_le hqueue
    · rename_i r data hdata
      cases hstep
      rw [hdata, List.length_cons] at hqueue
      show data.length ≤ s.pending
      omega
  · cases hstep

/-- The other steps touch neither the queue nor the counter. -/
theorem Pool.step_queue {s s' : Pool} {action : PoolAction} (hstep : s.step action = some s') :
    (∃ r, action = .push r) ∨ (∃ w, action = .pop w) ∨ (∃ w, action = .wake w) ∨
      (s'.data = s.data ∧ s'.pending = s.pending) := by
  cases action with
  | push r => exact Or.inl ⟨r, rfl⟩
  | pop w => exact Or.inr (Or.inl ⟨w, rfl⟩)
  | wake w => exact Or.inr (Or.inr (Or.inl ⟨w, rfl⟩))
  | launch r =>
    refine Or.inr (Or.inr (Or.inr ?_))
    simp only [Pool.step, Pool.launch] at hstep
    split at hstep
    · cases hstep
    · split at hstep <;> cases hstep <;> exact ⟨rfl, rfl⟩
  | spawn r =>
    refine Or.inr (Or.inr (Or.inr ?_))
    simp only [Pool.step, Pool.spawn] at hstep
    split at hstep <;> cases hstep
    exact ⟨rfl, rfl⟩
  | begin w =>
    refine Or.inr (Or.inr (Or.inr ?_))
    simp only [Pool.step, Pool.begin] at hstep
    split at hstep
    · split at hstep <;> cases hstep <;> exact ⟨rfl, rfl⟩
    · cases hstep
  | finish w =>
    refine Or.inr (Or.inr (Or.inr ?_))
    simp only [Pool.step, Pool.finish] at hstep
    split at hstep <;> cases hstep
    exact ⟨rfl, rfl⟩
  | exit w =>
    refine Or.inr (Or.inr (Or.inr ?_))
    simp only [Pool.step, Pool.exit] at hstep
    split at hstep <;> cases hstep
    exact ⟨rfl, rfl⟩
  | stop =>
    refine Or.inr (Or.inr (Or.inr ?_))
    cases hstep
    exact ⟨rfl, rfl⟩

theorem Pool.step_queued {s s' : Pool} {action : PoolAction} (hroom : s.HasRoom action)
    (hqueue : s.data.length ≤ s.pending) (hstep : s.step action = some s') :
    s'.data.length ≤ s'.pending := by
  rcases Pool.step_queue hstep with ⟨r, rfl⟩ | ⟨w, rfl⟩ | ⟨w, rfl⟩ | ⟨hdata, hpending⟩
  · exact Pool.push_queued hroom hqueue hstep
  · exact Pool.pop_queued hqueue hstep
  · exact Pool.wake_queued hqueue hstep
  · rw [hdata, hpending]
    exact hqueue

/-- **Every interleaving in which each push has room.** -/
theorem pool_served (actions : List PoolAction) (s : Pool)
    (hroom : Along Pool.step Pool.HasRoom Pool.start actions)
    (hrun : run Pool.step Pool.start actions = some s) : s.Served := by
  have hinv : s.Inv ∧ s.data.length ≤ s.pending := by
    refine run_invariant (fun s => s.Inv ∧ s.data.length ≤ s.pending) ?_
      ⟨Pool.Inv.start, Nat.le_refl _⟩ hroom hrun
    rintro s action s' ⟨hinv, hqueue⟩ hroom hstep
    exact ⟨hinv.step hstep, Pool.step_queued hroom hqueue hstep⟩
  exact ⟨hinv.2, hinv.1.pending, hinv.1.started_nodup⟩

/-- A first connection is served and its worker waits for another one. -/
def oneWaiting : List PoolAction := [.launch 0, .push 0, .spawn 0, .begin 0, .finish 0, .pop 0]

/-- The second connection goes to the waiting worker. -/
def handedOver : List PoolAction := oneWaiting ++ [.launch 1, .push 1, .wake 0, .begin 0]

theorem handed_over_served :
    ∃ s, run Pool.step Pool.start handedOver = some s ∧ s.started = [1, 0] ∧
      s.workers = [.running 1] ∧ s.Served := by
  have hroom : Along Pool.step Pool.HasRoom Pool.start handedOver := by
    refine ⟨trivial, fun s h => ?_⟩
    cases h
    refine ⟨Or.inl rfl, fun s h => ?_⟩
    cases h
    refine ⟨trivial, fun s h => ⟨trivial, fun s h' => ⟨trivial, fun s h'' => ⟨trivial, ?_⟩⟩⟩⟩
    cases h
    cases h'
    cases h''
    intro s h
    cases h
    refine ⟨trivial, fun s h => ?_⟩
    cases h
    exact ⟨Or.inr (by decide), fun s h => ⟨trivial, fun s h' => ⟨trivial, fun s h'' => trivial⟩⟩⟩
  exact ⟨_, rfl, rfl, rfl, pool_served handedOver _ hroom rfl⟩

/-- **Two connections in a row for one waiting worker**: both are queued for
it, and the second one stays queued behind the first. -/
theorem burst_queues_behind_busy_worker :
    ¬ ∀ (actions : List PoolAction) (s : Pool),
      run Pool.step Pool.start actions = some s → s.Served := by
  intro h
  have hserved := h (oneWaiting ++ [.launch 1, .push 1, .launch 2, .push 2]) _ rfl
  exact absurd hserved.queued (by decide)

end DdAppsec.Helper
