import DdAppsec.Extension.Launch.Invariant

/-!
# Extension — one helper for a path

What the invariant of `Extension.Launch.Invariant` says about helpers: there is
at most one for each path, the path leads to it, and nobody launches another
while it runs or while somebody keeps the lock after a failure. All of it is for
processes that have descriptor 2 open when they begin; `lock_survives_iff` says
what happens to the lock otherwise.
-/

namespace DdAppsec.Extension.Launch

open Lib

variable {P : Type} [DecidableEq P] {C : Proc P → Prop} {s : System P} {pr : Proc P}
  {pid t : Nat} {l l' : LockFile P}

/-! ## Runs from one PHP process -/

/-- A process with its standard streams, and one thread. -/
def php : Proc Unit where
  fds := [some .file, some .file, some .file]
  launch_failure_fd_lock := none
  threads := fun t => if t = 0 then .idle else .absent

def quiet : System Unit where
  locks := []
  names := fun _ => none
  sockets := 0
  listening := fun _ => false
  procs := fun pid => if pid = 0 then .running php else .unused

def StderrOpen (pr : Proc Unit) : Prop := (pr.fds.get 2).isSome

theorem quiet_initial : quiet.Initial := by
  refine ⟨rfl, fun pid pr hpid => ?_⟩
  simp only [quiet] at hpid
  split at hpid
  · cases hpid
    refine ⟨rfl, fun t => ?_, fun n d hn => ?_⟩
    · by_cases ht : t = 0 <;> simp [php, Phase.Resting, ht]
    · rcases n with _ | _ | _ | n <;> cases hn
  · cases hpid

theorem quiet_free (d : Nat) : (quiet.locks.opened ())[d]? ≠ some ((), true) := by
  intro hd
  cases Locks.of_getElem?_opened (x := ((), true)) hd

/-- The lock is there for the asking. -/
theorem obtained (goal : Goal) : ∃ s pr, Reachable StderrOpen s ∧ s.procs 0 = .running pr ∧
    pr.threads 0 = goal.next ⟨(), 3, 0⟩ := by
  have h : Reachable StderrOpen quiet := .initial quiet_initial
  have h := h.step (@Step.acquireLock Unit _ _ _ 0 0 php () goal rfl rfl rfl)
  have h := h.step (@Step.flock Unit _ _ _ 0 0 _ _ _ rfl rfl fun d _ => quiet_free d)
  exact ⟨_, _, h, rfl, rfl⟩

/-- A launch, up to the helper: process 1 is the intermediate one, process 2 the
helper. -/
theorem launched : ∃ s pr, Reachable StderrOpen s ∧ s.procs 2 = .running pr ∧
    pr.threads 0 = .helper ⟨(), 3, 0⟩ (some ⟨5, 0⟩) := by
  have h : Reachable StderrOpen quiet := .initial quiet_initial
  have h := h.step (@Step.acquireLock Unit _ _ _ 0 0 php () .launch rfl rfl rfl)
  have h := h.step (@Step.flock Unit _ _ _ 0 0 _ _ _ rfl rfl fun d _ => quiet_free d)
  have h := h.step (@Step.openLog Unit _ _ _ 0 0 _ _ rfl rfl)
  have h := h.step (@Step.unlink Unit _ _ _ 0 0 _ _ _ rfl rfl)
  have h := h.step (@Step.socket Unit _ _ _ 0 0 _ _ _ rfl rfl rfl)
  have h := h.step (@Step.bind Unit _ _ _ 0 0 _ _ _ _ rfl rfl rfl)
  have h := h.step (@Step.listen Unit _ _ _ 0 0 _ _ _ _ rfl rfl)
  have h := h.step (@Step.fork Unit _ _ _ 0 0 1 _ _ _ _ rfl rfl rfl)
  have h := h.step (@Step.prepare Unit _ _ _ 1 0 _ _ _ _ (fun _ => true) _ rfl rfl rfl)
  have h := h.step (@Step.secondFork Unit _ _ _ 1 0 2 _ _ _ rfl rfl rfl)
  have h := h.step (@Step.execHelper Unit _ _ _ 2 0 _ _ _ rfl rfl)
  exact ⟨_, _, h, rfl, rfl⟩

/-! ## Results -/

/-- **One helper for a path**: whatever the processes do and whichever of them
are killed, two helpers of one path are one process. A helper that has closed its
socket and waits for its workers is one, too. -/
theorem helpers_of_path_eq (hC : ∀ pr, C pr → (pr.fds.get 2).isSome) (h : Reachable C s)
    {q u q' u' : Nat} {sock sock' : Option Listener} (hq : s.phase q u = .helper l sock)
    (hq' : s.phase q' u' = .helper l' sock') (hpath : l.path = l'.path) : q = q' := by
  have hl : (s.phase q u).lock = some l := by rw [hq]; rfl
  have hl' : (s.phase q' u').lock = some l' := by rw [hq']; rfl
  have hd := (h.inv hC).same_description hl hl' (by rw [hq]; rfl) (by rw [hq']; rfl) hpath
  exact ((h.inv hC).book.token q u q' u' l l' hl hl' hd (by rw [hq]; rfl) (by rw [hq']; rfl)).1

theorem launched_helper_alone : ∃ s pr, Reachable StderrOpen s ∧ s.procs 2 = .running pr ∧
    pr.threads 0 = .helper ⟨(), 3, 0⟩ (some ⟨5, 0⟩) ∧
    ∀ q u l sock, s.phase q u = .helper l sock → q = 2 := by
  obtain ⟨s, pr, h, hpid, ht⟩ := launched
  refine ⟨s, pr, h, hpid, ht, fun q u l sock hq => ?_⟩
  exact helpers_of_path_eq (fun _ => id) h hq ((System.phase_of_running hpid 0).trans ht) rfl

/-- **The name is the helper's**: until a helper closes its socket, the path it
was launched for leads to that socket, and it listens. For the launching process
the path leads to the socket it has made from `waitpid`, which tells it of the
success, until it lets go of the lock. -/
theorem path_leads_to_helper (hC : ∀ pr, C pr → (pr.fds.get 2).isSome) (h : Reachable C s) :
    (∀ pid pr t l sock, s.procs pid = .running pr → pr.threads t = .helper l (some sock) →
      s.names l.path = some sock.socket ∧ s.Listens sock.socket ∧
        pr.fds.get sock.fd = some (.sock sock.socket)) ∧
      ∀ pid t l n, s.phase pid t = .releasing l n → s.names l.path = some n := by
  have hinv := h.inv hC
  constructor
  · intro pid pr t l sock hpid ht
    have hphase := (System.phase_of_running hpid t).trans ht
    have hopen : pr.fds.get sock.fd = some (.sock sock.socket) :=
      (hinv.wf pid pr hpid).refers (some t) sock.ref (by simp [Proc.refs, ht, Phase.refs])
    refine ⟨?_, ⟨?_, pid, pr, sock.fd, hpid, hopen⟩, hopen⟩
    · exact hinv.book.name pid t l _ (by rw [hphase]; rfl) (by rw [hphase]; rfl)
    · exact hinv.book.listens pid t _ (by rw [hphase]; rfl)
  · intro pid t l n ht
    exact hinv.book.name pid t l n (by rw [ht]; rfl) (by rw [ht]; rfl)

theorem launched_helper_named : ∃ s pr, Reachable StderrOpen s ∧ s.procs 2 = .running pr ∧
    s.names () = some 0 ∧ s.Listens 0 ∧ pr.fds.get 5 = some (.sock 0) := by
  obtain ⟨s, pr, h, hpid, ht⟩ := launched
  exact ⟨s, pr, h, hpid, (path_leads_to_helper (fun _ => id) h).1 2 pr 0 _ _ hpid ht⟩

/-- **Launches exclude each other**: while a thread is in
`_launch_helper_daemon`, up to its `fork`, nobody else is there for the same
path, no helper of the path runs, and no process keeps the path's lock after a
failure. -/
theorem launch_excludes (hC : ∀ pr, C pr → (pr.fds.get 2).isSome) (h : Reachable C s)
    {stage : Stage} (ht : s.phase pid t = .launching l stage) :
    (∀ q u l' stage', s.phase q u = .launching l' stage' → l'.path = l.path →
        q = pid ∧ u = t) ∧
      (∀ q u l' sock, s.phase q u = .helper l' sock → l'.path ≠ l.path) ∧
      ∀ q l', s.failure q = some l' → l'.path ≠ l.path := by
  have hinv := h.inv hC
  have hl : (s.phase pid t).lock = some l := by rw [ht]; rfl
  have hlocked : (s.phase pid t).locked = true := by rw [ht]; rfl
  refine ⟨?_, ?_, ?_⟩
  · intro q u l' stage' hq hpath
    have hl' : (s.phase q u).lock = some l' := by rw [hq]; rfl
    have hd := hinv.same_description hl' hl (by rw [hq]; rfl) hlocked hpath
    exact hinv.book.token q u pid t l' l hl' hl hd (by rw [hq]; rfl) (by rw [ht]; rfl)
  · intro q u l' sock hq hpath
    have hl' : (s.phase q u).lock = some l' := by rw [hq]; rfl
    have hd := hinv.same_description hl' hl (by rw [hq]; rfl) hlocked hpath
    obtain ⟨rfl, rfl⟩ :=
      hinv.book.token q u pid t l' l hl' hl hd (by rw [hq]; rfl) (by rw [ht]; rfl)
    rw [ht] at hq
    cases hq
  · exact fun q l' hkept => hinv.path_not_kept hl (by rw [ht]; rfl) hlocked hkept

theorem obtained_excludes : ∃ s, Reachable StderrOpen s ∧
    s.phase 0 0 = .launching ⟨(), 3, 0⟩ .locked ∧
    (∀ q u l sock, s.phase q u ≠ .helper l sock) ∧ ∀ q l, s.failure q ≠ some l := by
  obtain ⟨s, pr, h, hpid, ht⟩ := obtained .launch
  have hphase := (System.phase_of_running hpid 0).trans ht
  obtain ⟨-, hhelper, hkept⟩ := launch_excludes (fun _ => id) h hphase
  exact ⟨s, h, hphase, fun q u l sock hq => hhelper q u l sock hq rfl,
    fun q l hq => hkept q l hq rfl⟩

/-- **A failed launch is remembered**: `_prevent_launch_attempts` leaves the
process with the lock it was given, unless the process keeps the lock of another
path already. Its "Bug" message means nothing else. -/
theorem lock_kept_unless_other_path (hC : ∀ pr, C pr → (pr.fds.get 2).isSome)
    (h : Reachable C s) (hpid : s.procs pid = .running pr) (ht : pr.threads t = .preventing l) :
    ((pr.preventLaunchAttempts t l).launch_failure_fd_lock = some l ∧
        (pr.preventLaunchAttempts t l).fds.get l.fd = some (.lock l.description)) ∨
      ∃ l', l'.path ≠ l.path ∧
        (pr.preventLaunchAttempts t l).launch_failure_fd_lock = some l' := by
  have hphase := (System.phase_of_running hpid t).trans ht
  cases hkept : pr.launch_failure_fd_lock with
  | none =>
    left
    rw [Proc.preventLaunchAttempts, hkept]
    exact ⟨rfl, ((h.inv hC).wf pid pr hpid).refers (some t) l.ref
      (by simp [Proc.refs, ht, Phase.refs])⟩
  | some l' =>
    right
    refine ⟨l', ?_, ?_⟩
    · have hfail : s.failure pid = some l' := by rw [System.failure, hpid]; exact hkept
      exact (h.inv hC).path_not_kept (by rw [hphase]; rfl) (by rw [hphase]; rfl)
        (by rw [hphase]; rfl) hfail
    · rw [Proc.preventLaunchAttempts, hkept]
      exact hkept

theorem obtained_kept : ∃ s pr, Reachable StderrOpen s ∧ s.procs 0 = .running pr ∧
    pr.threads 0 = .preventing ⟨(), 3, 0⟩ ∧
    (pr.preventLaunchAttempts 0 ⟨(), 3, 0⟩).launch_failure_fd_lock = some ⟨(), 3, 0⟩ := by
  obtain ⟨s, pr, h, hpid, ht⟩ := obtained .prevent
  refine ⟨s, pr, h, hpid, ht, ?_⟩
  rcases lock_kept_unless_other_path (fun _ => id) h hpid ht with ⟨hkept, -⟩ | ⟨l, hne, -⟩
  · exact hkept
  · exact absurd rfl hne

/-- **The lock is lost on descriptor 2**: `_continue_in_intermediate_process`
hands the lock on exactly where its descriptor is not the one that the log file
gets. -/
theorem lock_survives_iff {listed : Nat → Bool} {log_fd lock_fd sock_fd d : Nat}
    {fds fds' : Descriptors Fd} (hlock : fds.get lock_fd = some (.lock d))
    (hlog : fds.get log_fd = some .file)
    (h : continueInIntermediateProcess listed log_fd lock_fd sock_fd fds = .ok fds') :
    fds'.get lock_fd = some (.lock d) ↔ lock_fd ≠ 2 := by
  have hne : lock_fd ≠ log_fd := by
    rintro rfl
    rw [hlock] at hlog
    cases hlog
  rw [continueInIntermediateProcess_keeps h (.inl rfl) hne]
  split
  · next htwo => simp [htwo, hlog]
  · next htwo => simp [htwo, hlock]

theorem lock_on_two_lost : ∃ fds', continueInIntermediateProcess (fun _ => true) 3 2 4
      [some .file, some .file, some (.lock 0), some .file, some (.sock 0)] = .ok fds' ∧
    fds'.get 2 ≠ some (.lock 0) := by
  have h : continueInIntermediateProcess (fun _ => true) 3 2 4
      [some .file, some .file, some (.lock 0), some .file, some (.sock 0)] =
        .ok [some .file, some .file, some .file, none, some (.sock 0)] := rfl
  exact ⟨_, h, fun hlock => (lock_survives_iff rfl rfl h).mp hlock rfl⟩

end DdAppsec.Extension.Launch
