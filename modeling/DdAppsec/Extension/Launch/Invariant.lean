import DdAppsec.Extension.Launch.Claims
import DdAppsec.Extension.Launch.Descriptors

/-!
# Extension — the invariant of the launch

The descriptors of every process, the claims of all of them and the exclusion
that `flock` gives, kept by every step of `Extension.Launch`.
-/

namespace DdAppsec.Extension.Launch

open Lib

variable {P : Type}

variable {pr : Proc P} {t u pid : Nat} {φ : Phase P} {fds : Descriptors Fd} {l l' : LockFile P}

/-! ## The invariant -/

structure System.Inv (s : System P) : Prop where
  wf : ∀ pid pr, s.procs pid = .running pr → pr.WellFormed
  single : ∀ pid pr, s.procs pid = .running pr → pr.Single
  book : Book s.phase s.failure s.locks s.names s.listening
  exclusive : s.locks.Exclusive s.held

variable {s m : System P} {pr' : Proc P}

theorem System.procs_store_self : (s.store pid pr).procs pid = .running pr :=
  Function.update_self ..

theorem System.procs_store_ne {q : Nat} (hq : q ≠ pid) :
    (s.store pid pr).procs q = s.procs q :=
  Function.update_of_ne hq ..

theorem System.phase_of_running (hpid : s.procs pid = .running pr) (u : Nat) :
    s.phase pid u = pr.threads u := by
  rw [phase, hpid]

theorem System.failure_eq_some {q : Nat} (h : s.failure q = some l) :
    ∃ pr, s.procs q = .running pr ∧ pr.launch_failure_fd_lock = some l := by
  rw [failure] at h
  cases hq : s.procs q with
  | unused => simp [hq] at h
  | exited code => simp [hq] at h
  | running pr => exact ⟨pr, rfl, by simpa [hq] using h⟩

theorem System.phase_store (q u : Nat) :
    (s.store pid pr).phase q u = if q = pid then pr.threads u else s.phase q u := by
  by_cases hq : q = pid <;> simp [phase, store, Function.update, hq]

theorem System.failure_store (q : Nat) :
    (s.store pid pr).failure q =
      if q = pid then pr.launch_failure_fd_lock else s.failure q := by
  by_cases hq : q = pid <;> simp [failure, store, Function.update, hq]

theorem System.phase_store_enter (hpid : s.procs pid = .running pr)
    (hthreads : pr'.threads = Function.update pr.threads t φ) :
    (s.store pid pr').phase = moved s.phase pid t φ := by
  funext q u
  rw [phase_store, moved]
  by_cases hq : q = pid
  · subst hq
    by_cases hu : u = t <;> simp [Function.update, hu, hthreads, phase_of_running hpid]
  · simp [hq]

theorem System.failure_store_same (hpid : s.procs pid = .running pr)
    (hfail : pr'.launch_failure_fd_lock = pr.launch_failure_fd_lock) :
    (s.store pid pr').failure = s.failure := by
  funext q
  rw [failure_store]
  split
  · next hq => rw [hq, failure, hpid, hfail]
  · rfl

/-- A property of every process, when one of them changes. -/
theorem System.forall_store {Q : Proc P → Prop}
    (h : ∀ q pr, s.procs q = .running pr → Q pr) (hpr : Q pr') :
    ∀ q pr, (s.store pid pr').procs q = .running pr → Q pr := by
  intro q pr hq
  by_cases hqp : q = pid
  · subst hqp
    rw [procs_store_self] at hq
    cases hq
    exact hpr
  · rw [procs_store_ne hqp] at hq
    exact h q pr hq

/-- Who holds what, when one process changes. -/
theorem System.held_store {d : Nat} (h : (s.store pid pr').held d) :
    s.held d ∨ ∃ n, pr'.fds.get n = some (.lock d) := by
  obtain ⟨q, pr, n, hq, hn⟩ := h
  by_cases hqp : q = pid
  · subst hqp
    rw [procs_store_self] at hq
    cases hq
    exact .inr ⟨n, hn⟩
  · rw [procs_store_ne hqp] at hq
    exact .inl ⟨q, pr, n, hq, hn⟩

theorem System.held_store_le {q : Nat} (hpid : s.procs q = .running pr)
    (hfds : ∀ n d, pr'.fds.get n = some (.lock d) → ∃ m, pr.fds.get m = some (.lock d))
    {d : Nat} (h : (s.store pid pr').held d) : s.held d := by
  rcases held_store h with hold | ⟨n, hn⟩
  · exact hold
  · obtain ⟨m, hm⟩ := hfds n d hn
    exact ⟨q, pr, m, hpid, hm⟩

/-- The descriptors of a lock file at work hold its description. -/
theorem System.Inv.held (h : s.Inv) {q u : Nat} (hl : (s.phase q u).lock = some l) :
    s.held l.description := by
  cases hq : s.procs q with
  | unused => simp [phase, hq, Phase.lock] at hl
  | exited code => simp [phase, hq, Phase.lock] at hl
  | running pr =>
    rw [phase_of_running hq] at hl
    exact ⟨q, pr, l.fd, hq, (h.wf q pr hq).refers (some u) l.ref (Phase.ref_mem_refs hl)⟩

/-- Two threads that have the lock on a path have the same description. -/
theorem System.Inv.same_description (h : s.Inv) {q u q' u' : Nat}
    (hl : (s.phase q u).lock = some l) (hl' : (s.phase q' u').lock = some l')
    (hlocked : (s.phase q u).locked = true) (hlocked' : (s.phase q' u').locked = true)
    (hpath : l.path = l'.path) : l.description = l'.description := by
  have hd := h.book.lock q u l hl
  have hd' := h.book.lock q' u' l' hl'
  rw [hlocked] at hd
  rw [hlocked', ← hpath] at hd'
  exact h.exclusive l.path _ _ (h.held hl) (h.held hl') hd hd'

/-- One thread of one process moves on; `m` is the system with what it changes
in the kernel. -/
theorem System.Inv.enter (h : s.Inv) (hprocs : m.procs = s.procs)
    (hpid : s.procs pid = .running pr) (ht : pr.threads t ≠ .absent)
    (hφ : ∀ l log_fd sock, φ ≠ .intermediate l log_fd sock)
    (hwf : ({ pr with fds := fds }.enter t φ).WellFormed)
    (hbook : Book (moved s.phase pid t φ) s.failure m.locks m.names m.listening)
    (hexcl : m.locks.Exclusive (m.store pid ({ pr with fds := fds }.enter t φ)).held) :
    (m.store pid ({ pr with fds := fds }.enter t φ)).Inv := by
  have hpid' : m.procs pid = .running pr := hprocs ▸ hpid
  have hphase : m.phase = s.phase := by funext q u; rw [phase, phase, hprocs]
  have hfailure : m.failure = s.failure := by funext q; rw [failure, failure, hprocs]
  have hmoved : (m.store pid ({ pr with fds := fds }.enter t φ)).phase =
      moved s.phase pid t φ := hphase ▸ phase_store_enter hpid' rfl
  have hkept : (m.store pid ({ pr with fds := fds }.enter t φ)).failure = s.failure :=
    hfailure ▸ failure_store_same hpid' rfl
  constructor
  · exact forall_store (hprocs ▸ h.wf) hwf
  · exact forall_store (hprocs ▸ h.single) ((h.single pid pr hpid).enter ht hφ)
  · rw [hmoved, hkept]
    exact hbook
  · exact hexcl

/-- The same when no description is made or locked. -/
theorem System.Inv.quiet (h : s.Inv) (hprocs : m.procs = s.procs) (hlocks : m.locks = s.locks)
    (hpid : s.procs pid = .running pr) (ht : pr.threads t ≠ .absent)
    (hφ : ∀ l log_fd sock, φ ≠ .intermediate l log_fd sock)
    (hwf : ({ pr with fds := fds }.enter t φ).WellFormed)
    (hbook : Book (moved s.phase pid t φ) s.failure s.locks m.names m.listening)
    (hfds : ∀ n d, fds.get n = some (.lock d) → ∃ m, pr.fds.get m = some (.lock d)) :
    (m.store pid ({ pr with fds := fds }.enter t φ)).Inv := by
  have hheld : ∀ d, (m.store pid ({ pr with fds := fds }.enter t φ)).held d → s.held d := by
    intro d hd
    obtain ⟨q, pr₁, n, hq, hn⟩ := held_store_le (hprocs ▸ hpid) hfds hd
    exact ⟨q, pr₁, n, hprocs ▸ hq, hn⟩
  refine h.enter hprocs hpid ht hφ hwf (hlocks ▸ hbook) ?_
  exact hlocks ▸ h.exclusive.mono hheld

/-- A lock that was kept is one that is held. -/
theorem System.Inv.held_kept (h : s.Inv) {q : Nat} (hl : s.failure q = some l) :
    s.held l.description := by
  obtain ⟨pr, hq, hpr⟩ := failure_eq_some hl
  have hmem : l.ref ∈ pr.refs none := by simp [Proc.refs, hpr]
  exact ⟨q, pr, l.fd, hq, (h.wf q pr hq).refers none l.ref hmem⟩

/-- Who works with a lock that was obtained works on a path whose lock nobody
keeps. -/
theorem System.Inv.path_not_kept (h : s.Inv) {q : Nat} (hl : (s.phase pid t).lock = some l)
    (hclient : (s.phase pid t).client = true) (hlocked : (s.phase pid t).locked = true)
    (hkept : s.failure q = some l') : l'.path ≠ l.path := by
  intro hpath
  have hentry := h.book.lock pid t l hl
  have hentry' := h.book.kept q l' hkept
  rw [hlocked] at hentry
  rw [hpath] at hentry'
  refine h.book.apart pid t q l l' hl hclient hkept ?_
  exact h.exclusive l.path _ _ (h.held hl) (h.held_kept hkept) hentry hentry'

/-! ## The path of a launch -/

/-- While a thread launches, the path is nobody else's. -/
theorem System.Inv.alone_at_path (h : s.Inv) {stage : Stage} {q u n : Nat}
    (ht : s.phase pid t = .launching l stage) (hl' : (s.phase q u).lock = some l')
    (hn : (s.phase q u).socket = some n) (hpath : l'.path = l.path) : q = pid ∧ u = t := by
  obtain ⟨hlocked, hclaim⟩ := Phase.claims_of_socket hn
  have hl : (s.phase pid t).lock = some l := by rw [ht]; rfl
  have hd := h.same_description hl' hl hlocked (by rw [ht]; rfl) hpath
  rcases hclaim with hclient | htoken
  · exact h.book.client q u pid t l' l hl' hl hd hclient (by rw [ht]; rfl)
  · exact h.book.token q u pid t l' l hl' hl hd htoken (by rw [ht]; rfl)

theorem System.Inv.moved_unlink [DecidableEq P] (h : s.Inv) {stage : Stage} {log_fd : Nat}
    (ht : s.phase pid t = .launching l stage) (x : Option Nat) :
    Book (moved s.phase pid t (.launching l (.unlinked log_fd))) s.failure s.locks
      (Function.update s.names l.path x) s.listening := by
  have hmove : Book (moved s.phase pid t (.launching l (.unlinked log_fd))) s.failure s.locks
      s.names s.listening := by
    refine h.book.move ?_
    rw [ht]
    constructor <;> simp
  refine hmove.rename fun q u l' n hl' hn hpath => ?_
  unfold moved at hl' hn
  split at hn
  · cases hn
  · next hne =>
    rw [if_neg hne] at hl'
    exact hne (h.alone_at_path ht hl' hn hpath)

theorem System.Inv.moved_bind [DecidableEq P] (h : s.Inv) {stage : Stage} {log_fd : Nat}
    {sock : Listener} (ht : s.phase pid t = .launching l stage) :
    Book (moved s.phase pid t (.launching l (.bound log_fd sock))) s.failure s.locks
      (Function.update s.names l.path (some sock.socket)) s.listening := by
  have hl : (s.phase pid t).lock = some l := by rw [ht]; rfl
  have hmove : Book (moved s.phase pid t (.launching l (.unlinked log_fd))) s.failure s.locks
      (Function.update s.names l.path (some sock.socket)) s.listening := h.moved_unlink ht _
  rw [← moved_moved]
  refine hmove.set (l := l) ?_ (.inr rfl) ?_ ?_ ?_ ?_ (fun n hn => by cases hn)
  · exact fun _ => by simpa [ht, Phase.locked] using h.book.lock pid t l hl
  · intro _ q u l' hne hl' hclient hd
    rw [moved, if_neg hne] at hl' hclient
    exact hne (h.book.client q u pid t l' l hl' hl hd hclient (by rw [ht]; rfl))
  · intro _ q u l' hne hl' htoken hd
    rw [moved, if_neg hne] at hl' htoken
    exact hne (h.book.token q u pid t l' l hl' hl hd htoken (by rw [ht]; rfl))
  · exact fun _ q l' hl' => h.book.apart pid t q l l' hl (by rw [ht]; rfl) hl'
  · intro n hn
    cases hn
    exact Function.update_self ..

/-! ## Every step keeps the invariant -/

theorem System.Inv.acquireLock (h : s.Inv) (path : P) (goal : Goal)
    (hpid : s.procs pid = .running pr) (ht : pr.threads t = .idle)
    (hlog : (pr.fds.get 2).isSome) :
    ({ s with locks := s.locks.opened path }.store pid
      ({ pr with fds := pr.fds.allocate (.lock s.locks.length) }.enter t
        (.opened ⟨path, pr.fds.lowest, s.locks.length⟩ goal))).Inv := by
  have hfresh : pr.fds.lowest ≠ 2 := by
    intro heq
    rw [← heq, Descriptors.get_lowest] at hlog
    cases hlog
  refine h.enter rfl hpid (by simp [ht]) (by simp) ?_ ?_ ?_
  · exact (h.wf pid pr hpid).gain (by rw [ht]; rfl) fun _ => hfresh
  · exact h.book.acquire path _ goal
  · refine h.exclusive.opened fun d hd => ?_
    rcases held_store hd with hold | ⟨n, hn⟩
    · exact .inl hold
    · simp only [Proc.enter, Descriptors.get_allocate] at hn
      split at hn
      · cases hn
        exact .inr rfl
      · exact .inl ⟨pid, pr, n, hpid, hn⟩

theorem System.Inv.flock (h : s.Inv) {goal : Goal} (hpid : s.procs pid = .running pr)
    (ht : pr.threads t = .opened l goal) (hfree : s.locks.Free s.held l.path) :
    ({ s with locks := s.locks.lock l.description l.path }.store pid
      (pr.enter t (goal.next l))).Inv := by
  have hphase : s.phase pid t = .opened l goal := (phase_of_running hpid t).trans ht
  have hrefs : (goal.next l).refs = (pr.threads t).refs := by rw [ht]; cases goal <;> rfl
  have hwf : ({ pr with fds := pr.fds }.enter t (goal.next l)).WellFormed :=
    (h.wf pid pr hpid).stay hrefs
  refine h.enter rfl hpid (by simp [ht]) (by cases goal <;> simp [Goal.next]) hwf
    (h.book.flock hphase) ?_
  · have hentry : s.locks[l.description]? = some (l.path, false) := by
      have hlock := h.book.lock pid t l (by rw [hphase]; rfl)
      rwa [hphase] at hlock
    refine (h.exclusive.lock hfree hentry).mono fun d hd => ?_
    have hd' : (s.store pid (pr.enter t (goal.next l))).held d := hd
    refine held_store_le hpid ?_ hd'
    exact fun n _ hn => ⟨n, hn⟩

/-- A thread closes descriptors of its own, or none, and claims no more. -/
theorem System.Inv.retreat (h : s.Inv) (refs : List Ref) (hpid : s.procs pid = .running pr)
    (ht : pr.threads t ≠ .absent) (hφ : ∀ l log_fd sock, φ ≠ .intermediate l log_fd sock)
    (hle : φ.Le (pr.threads t)) (hrefs : (pr.threads t).refs = φ.refs ++ refs) :
    (s.store pid ({ pr with fds := closeRefs refs pr.fds }.enter t φ)).Inv := by
  have hnodup := (h.wf pid pr hpid).nodup (some t)
  have hmine : pr.refs (some t) = φ.refs ++ refs := hrefs
  rw [hmine, List.map_append, List.nodup_append] at hnodup
  refine h.quiet rfl rfl hpid ht hφ ?_ ?_ ?_
  · refine (h.wf pid pr hpid).drop ?_ ?_ ?_
    · rw [hrefs]
      exact List.sublist_append_left _ _
    · intro r hr
      rw [get_closeRefs, if_neg]
      exact fun hmem => hnodup.2.2 r.1 (List.mem_map_of_mem hr) r.1 hmem rfl
    · intro n
      rw [get_closeRefs, hrefs, List.map_append]
      split
      · next hmem => exact .inr (List.mem_append_right _ hmem)
      · exact .inl rfl
  · exact h.book.move ((phase_of_running hpid t).symm ▸ hle)
  · exact fun _ _ hn => locks_closeRefs hn

/-- A thread gets a descriptor that is not for a lock, and claims no more. -/
theorem System.Inv.advance (h : s.Inv) {e : Fd} (hprocs : m.procs = s.procs)
    (hlocks : m.locks = s.locks) (hnames : m.names = s.names)
    (hlistening : m.listening = s.listening)
    (hpid : s.procs pid = .running pr) (ht : pr.threads t ≠ .absent)
    (hφ : ∀ l log_fd sock, φ ≠ .intermediate l log_fd sock) (hle : φ.Le (pr.threads t))
    (hrefs : φ.refs = (pr.threads t).refs ++ [(pr.fds.lowest, e)])
    (hoff : e ≠ .file → pr.fds.lowest ≠ 2) (he : ∀ d, e ≠ .lock d) :
    (m.store pid ({ pr with fds := pr.fds.allocate e }.enter t φ)).Inv := by
  refine h.quiet hprocs hlocks hpid ht hφ ((h.wf pid pr hpid).gain hrefs hoff) ?_ ?_
  · rw [hnames, hlistening]
    exact h.book.move ((phase_of_running hpid t).symm ▸ hle)
  · intro n d hn
    rw [Descriptors.get_allocate] at hn
    split at hn
    · exact absurd (Option.some.inj hn) (he d)
    · exact ⟨n, hn⟩

/-- A thread moves on with the descriptors it has. -/
theorem System.Inv.stay (h : s.Inv) (hprocs : m.procs = s.procs) (hlocks : m.locks = s.locks)
    (hpid : s.procs pid = .running pr) (ht : pr.threads t ≠ .absent)
    (hφ : ∀ l log_fd sock, φ ≠ .intermediate l log_fd sock)
    (hrefs : φ.refs = (pr.threads t).refs)
    (hbook : Book (moved s.phase pid t φ) s.failure s.locks m.names m.listening) :
    (m.store pid (pr.enter t φ)).Inv := by
  have hquiet : (m.store pid ({ pr with fds := pr.fds }.enter t φ)).Inv :=
    h.quiet hprocs hlocks hpid ht hφ ((h.wf pid pr hpid).stay hrefs) hbook fun n _ hn => ⟨n, hn⟩
  exact hquiet

/-- A process changes in what is not the launch's. -/
theorem System.Inv.aside (h : s.Inv) {q : Nat} (hpid : s.procs q = .running pr)
    (hwf : pr'.WellFormed) (hsingle : pr'.Single)
    (hphase : ∀ u, (pr'.threads u).Le (s.phase pid u))
    (hfail : ∀ l, pr'.launch_failure_fd_lock = some l → ∃ q', s.failure q' = some l)
    (hfds : ∀ n d, pr'.fds.get n = some (.lock d) → ∃ m, pr.fds.get m = some (.lock d)) :
    (s.store pid pr').Inv := by
  constructor
  · exact forall_store h.wf hwf
  · exact forall_store h.single hsingle
  · refine h.book.mono (fun q u => ?_) fun q l hl => ?_
    · rw [phase_store]
      split
      · next hq => exact hq ▸ hphase u
      · exact Phase.Le.refl _
    · rw [failure_store] at hl
      split at hl
      · exact hfail l hl
      · exact ⟨q, hl⟩
  · exact h.exclusive.mono fun d hd => held_store_le hpid hfds hd

/-- `fork` on the way to the helper: what the parent does in the same step, and
the child. -/
theorem System.Inv.fork (h : s.Inv) {child : Nat} {χ : Phase P}
    (hparent : (s.store pid ({ pr with fds := fds }.enter t φ)).Inv)
    (hpid : s.procs pid = .running pr) (hchild : s.procs child = .unused)
    (hle : φ.Le (pr.threads t)) (hχ : χ.Le (pr.threads t)) (htoken : φ.token = false)
    (hclient : χ.client = false) (hχrefs : χ.refs.Sublist (pr.threads t).refs)
    (hfds : ∀ n d, fds.get n = some (.lock d) → ∃ m, pr.fds.get m = some (.lock d)) :
    ((s.store child (pr.forked χ)).store pid ({ pr with fds := fds }.enter t φ)).Inv := by
  have hne : child ≠ pid := by
    rintro rfl
    rw [hchild] at hpid
    cases hpid
  have hψ := phase_of_running hpid t
  constructor
  · refine forall_store (forall_store h.wf ((h.wf pid pr hpid).forked hχrefs)) ?_
    exact hparent.wf pid _ procs_store_self
  · refine forall_store (forall_store h.single (Proc.Single.forked χ)) ?_
    exact hparent.single pid _ procs_store_self
  · refine h.book.handOver hne (hψ ▸ hle) (hψ ▸ hχ) htoken hclient ?_ ?_ ?_ ?_
    · rw [phase_store, if_pos rfl]
      simp [Proc.enter]
    · rw [phase_store, if_neg hne, phase_store, if_pos rfl]
      rfl
    · intro q u hself hother
      rw [phase_store, phase_store]
      by_cases hq : q = pid
      · have hu : u ≠ t := fun hu => hself ⟨hq, hu⟩
        simp [hq, Proc.enter, Function.update, hu, phase_of_running hpid]
      · by_cases hqc : q = child
        · have hu : u ≠ 0 := fun hu => hother ⟨hqc, hu⟩
          simp [hqc, hne, Proc.forked, hu]
        · simp [hq, hqc]
    · intro q l hl
      rw [failure_store, failure_store] at hl
      split at hl
      · exact ⟨pid, by rw [failure, hpid]; exact hl⟩
      · split at hl
        · cases hl
        · exact ⟨q, hl⟩
  · refine h.exclusive.mono fun d hd => ?_
    rcases held_store hd with hold | ⟨n, hn⟩
    · refine held_store_le hpid ?_ hold
      exact fun n _ hn => ⟨n, hn⟩
    · obtain ⟨m, hm⟩ := hfds n d hn
      exact ⟨pid, pr, m, hpid, hm⟩

theorem System.Inv.preventLaunchAttempts (h : s.Inv) (hpid : s.procs pid = .running pr)
    (ht : pr.threads t = .preventing l) :
    (s.store pid (pr.preventLaunchAttempts t l)).Inv := by
  have hphase : s.phase pid t = .preventing l := (phase_of_running hpid t).trans ht
  rw [Proc.preventLaunchAttempts]
  cases hkept : pr.launch_failure_fd_lock with
  | some l' =>
    have hback : (s.store pid
        ({ pr with fds := closeRefs [l.ref] pr.fds }.enter t .idle)).Inv :=
      h.retreat [l.ref] hpid (by simp [ht]) (by simp) (Phase.Resting.le (.inr rfl) _)
        (by rw [ht]; rfl)
    rw [closeRefs_singleton] at hback
    exact hback
  | none =>
    have hclient : (s.phase pid t).client = true := by rw [hphase]; rfl
    have hmoved : (s.store pid { pr.enter t .idle with launch_failure_fd_lock := some l }).phase =
        moved s.phase pid t .idle := phase_store_enter hpid rfl
    have hfail : (s.store pid { pr.enter t .idle with launch_failure_fd_lock := some l }).failure =
        fun q => if q = pid then some l else s.failure q := funext fun q => failure_store q
    constructor
    · exact forall_store h.wf ((h.wf pid pr hpid).keep ht)
    · refine forall_store h.single fun u l₁ log_fd sock hu => ?_
      have hu' : (pr.enter t .idle).threads u = .intermediate l₁ log_fd sock := hu
      by_cases hut : u = t
      · simp [Proc.enter, hut] at hu'
      · have hold : pr.threads u = .intermediate l₁ log_fd sock := by
          simpa [Proc.enter, Function.update, hut] using hu'
        have habsent := (h.single pid pr hpid u l₁ log_fd sock hold).2 t (Ne.symm hut)
        rw [ht] at habsent
        cases habsent
    · rw [hmoved, hfail]
      exact h.book.keep (by rw [hphase]; rfl) hclient (by rw [hphase]; rfl)
    · refine h.exclusive.mono fun d hd => held_store_le hpid ?_ hd
      exact fun n _ hn => ⟨n, hn⟩

theorem System.Inv.secondFork (h : s.Inv) {child : Nat} {sock : Listener}
    (hpid : s.procs pid = .running pr) (ht : pr.threads t = .prepared l sock)
    (hchild : s.procs child = .unused) :
    ((s.store child (pr.forked (.daemon l sock))).store pid (pr.enter t .exiting)).Inv := by
  have hphase := phase_of_running hpid t
  have hwf : ({ pr with fds := pr.fds }.enter t .exiting).WellFormed :=
    (h.wf pid pr hpid).drop (List.nil_sublist _) (fun _ _ => rfl) fun _ => .inl rfl
  have hparent : (s.store pid ({ pr with fds := pr.fds }.enter t .exiting)).Inv :=
    h.quiet rfl rfl hpid (by simp [ht]) (by simp) hwf (h.book.move (Phase.exiting_le _))
      fun n _ hn => ⟨n, hn⟩
  refine h.fork hparent hpid hchild (Phase.exiting_le _) ?_ rfl rfl ?_ fun n _ hn => ⟨n, hn⟩
  · rw [ht]
    constructor <;> simp
  · rw [ht]
    exact List.Sublist.refl _

theorem System.Inv.exit (h : s.Inv) (code : Option Nat) :
    ({ s with procs := Function.update s.procs pid (.exited code) } : System P).Inv := by
  let s' : System P := { s with procs := Function.update s.procs pid (.exited code) }
  have hold : ∀ {q pr'}, s'.procs q = .running pr' → s.procs q = .running pr' := by
    intro q pr' hq
    by_cases hqp : q = pid
    · simp [s', hqp] at hq
    · simpa [s', Function.update, hqp] using hq
  have hphase : ∀ q u, s'.phase q u = if q = pid then .absent else s.phase q u := by
    intro q u
    by_cases hqp : q = pid <;> simp [s', System.phase, Function.update, hqp]
  constructor
  · exact fun q pr' hq => h.wf q pr' (hold hq)
  · exact fun q pr' hq => h.single q pr' (hold hq)
  · refine h.book.mono (fun q u => ?_) fun q l hl => ⟨q, ?_⟩
    · rw [show System.phase _ q u = _ from hphase q u]
      split
      · exact Phase.Resting.le (.inl rfl) _
      · exact Phase.Le.refl _
    · obtain ⟨pr', hq, hpr'⟩ := failure_eq_some (s := s') hl
      rw [failure, hold hq]
      exact hpr'
  · refine h.exclusive.mono fun d hd => ?_
    obtain ⟨q, pr', n, hq, hn⟩ := hd
    exact ⟨q, pr', n, hold hq, hn⟩

theorem System.Inv.helperShutdown (h : s.Inv) (hpid : s.procs pid = .running pr)
    (hrest : ∀ t, (pr.threads t).Resting) : (s.store pid pr.helperShutdown).Inv := by
  rw [Proc.helperShutdown]
  cases hkept : pr.launch_failure_fd_lock with
  | none =>
    refine h.aside hpid (h.wf pid pr hpid) (h.single pid pr hpid) (fun u => ?_) ?_
      fun n _ hn => ⟨n, hn⟩
    · exact (hrest u).le _
    · exact fun l hl => by rw [hkept] at hl; cases hl
  | some l =>
    have hnone : ∀ u, (pr.threads u).refs = [] := by
      intro u
      rcases hrest u with hu | hu <;> rw [hu] <;> rfl
    let pr' : Proc P := { pr with launch_failure_fd_lock := none, fds := pr.fds.close l.fd }
    have hrefs : ∀ a, pr'.refs a = [] := by
      intro a
      cases a with
      | none => rfl
      | some u => exact hnone u
    refine h.aside hpid ((h.wf pid pr hpid).shrink ?_ ?_) ?_ (fun u => (hrest u).le _) ?_ ?_
    · exact fun a => by rw [hrefs]; exact List.nil_sublist _
    · exact fun a r hr => by rw [hrefs] at hr; cases hr
    · intro t l' log_fd sock ht
      rcases hrest t with hu | hu <;> rw [hu] at ht <;> cases ht
    · exact fun l' hl' => by cases hl'
    · intro n d hn
      rw [Descriptors.get_close] at hn
      split at hn
      · cases hn
      · exact ⟨n, hn⟩

/-- User code opens and closes only what the extension does not rely on. -/
theorem System.Inv.userFds (h : s.Inv) (hpid : s.procs pid = .running pr)
    (hfds : ∀ a, ∀ r ∈ pr.refs a, fds.get r.1 = pr.fds.get r.1)
    (hlocks : ∀ n d, fds.get n = some (.lock d) → ∃ m, pr.fds.get m = some (.lock d)) :
    (s.store pid { pr with fds := fds }).Inv := by
  refine h.aside hpid ((h.wf pid pr hpid).shrink (fun a => List.Sublist.refl _) hfds)
    (h.single pid pr hpid) (fun u => ?_) ?_ hlocks
  · rw [phase_of_running hpid]
    exact Phase.Le.refl _
  · exact fun l hl => ⟨pid, by rw [failure, hpid]; exact hl⟩

theorem System.Inv.userThread (h : s.Inv) (hpid : s.procs pid = .running pr)
    (ht : pr.threads t = .idle) : (s.store pid (pr.enter u .idle)).Inv := by
  refine h.aside hpid ((h.wf pid pr hpid).shrink ?_ fun _ _ _ => rfl) ?_ ?_ ?_
    fun n _ hn => ⟨n, hn⟩
  · intro a
    rw [Proc.refs_enter]
    split
    · exact List.nil_sublist _
    · exact List.Sublist.refl _
  · intro v l log_fd sock hv
    by_cases hvu : v = u
    · simp [Proc.enter, hvu] at hv
    · have hold : pr.threads v = .intermediate l log_fd sock := by
        simpa [Proc.enter, Function.update, hvu] using hv
      exact absurd ht ((h.single pid pr hpid).not_idle hold t)
  · intro v
    by_cases hvu : v = u
    · simpa [Proc.enter, hvu] using Phase.Resting.le (.inr rfl) _
    · simpa [Proc.enter, Function.update, hvu, phase_of_running hpid] using Phase.Le.refl _
  · exact fun l hl => ⟨pid, by rw [failure, hpid]; exact hl⟩

theorem System.Inv.userFork (h : s.Inv) {child : Nat} (hpid : s.procs pid = .running pr) :
    (s.store child { pr with threads := fun u => if u = t then .idle else .absent }).Inv := by
  have hrest : ∀ u, (if u = t then Phase.idle else .absent : Phase P).Resting := by
    intro u
    split
    · exact .inr rfl
    · exact .inl rfl
  have hrefs : ∀ u, (if u = t then Phase.idle else .absent : Phase P).refs = [] := by
    intro u
    split <;> rfl
  refine h.aside hpid ((h.wf pid pr hpid).shrink ?_ fun _ _ _ => rfl) ?_
    (fun u => (hrest u).le _) ?_ fun n _ hn => ⟨n, hn⟩
  · intro a
    cases a with
    | none => exact List.Sublist.refl _
    | some u =>
      show (if u = t then Phase.idle else .absent : Phase P).refs.Sublist _
      rw [hrefs]
      exact List.nil_sublist _
  · intro u l log_fd sock hu
    rcases hrest u with heq | heq <;> rw [show (if u = t then _ else _) = _ from hu] at heq <;>
      cases heq
  · exact fun l hl => ⟨pid, by rw [failure, hpid]; exact hl⟩

theorem System.Inv.userExec (h : s.Inv) {cloexec : Nat → Bool}
    (hpid : s.procs pid = .running pr) :
    (s.store pid ({ pr with fds := pr.fds.closeAll cloexec }.forked .idle)).Inv := by
  have hrest : ∀ u, (({ pr with fds := pr.fds.closeAll cloexec } : Proc P).forked .idle).threads u
      |>.Resting := by
    intro u
    by_cases hu : u = 0 <;> simp [Proc.forked, Phase.Resting, hu]
  have hrefs : ∀ a, (({ pr with fds := pr.fds.closeAll cloexec } : Proc P).forked .idle).refs a =
      [] := by
    intro a
    cases a with
    | none => rfl
    | some u =>
      by_cases hu : u = 0 <;> simp [Proc.refs, Proc.forked, Phase.refs, hu]
  refine h.aside hpid ((h.wf pid pr hpid).shrink ?_ ?_) (Proc.Single.forked _)
    (fun u => (hrest u).le _) ?_ ?_
  · exact fun a => by rw [hrefs]; exact List.nil_sublist _
  · exact fun a r hr => by rw [hrefs] at hr; cases hr
  · exact fun l hl => by cases hl
  · intro n d hn
    simp only [Proc.forked, Descriptors.get_closeAll] at hn
    split at hn
    · cases hn
    · exact ⟨n, hn⟩

theorem System.Inv.step [DecidableEq P] {C : Proc P → Prop} {s' : System P}
    (hC : ∀ pr, C pr → (pr.fds.get 2).isSome) (h : s.Inv) (hs : Step C s s') : s'.Inv := by
  have hrest : ∀ ψ : Phase P, Phase.idle.Le ψ := Phase.Resting.le (.inr rfl)
  have hnot2 : ∀ {pr : Proc P}, C pr → pr.fds.lowest ≠ 2 := by
    intro pr hpr heq
    have hopen := hC pr hpr
    rw [← heq, Descriptors.get_lowest] at hopen
    cases hopen
  cases hs with
  | acquireLock path goal hpid ht hpr => exact h.acquireLock path goal hpid ht (hC _ hpr)
  | flock hpid ht hfree => exact h.flock hpid ht hfree
  | @flockFails pid t pr l goal hpid ht =>
    have hback := h.retreat (t := t) [l.ref] hpid (by simp [ht]) (by simp) (hrest _)
      (by rw [ht]; rfl)
    rwa [closeRefs_singleton] at hback
  | openLog hpid ht =>
    refine h.advance rfl rfl rfl rfl hpid (by simp [ht]) (by simp) ?_ ?_ (by simp) (by simp)
    · rw [ht]
      constructor <;> simp
    · rw [ht]
      rfl
  | unlink hpid ht =>
    refine h.stay rfl rfl hpid (by simp [ht]) (by simp) (by rw [ht]; rfl) ?_
    exact h.moved_unlink ((phase_of_running hpid _).trans ht) none
  | socket hpid ht hpr =>
    refine h.advance rfl rfl rfl rfl hpid (by simp [ht]) (by simp) ?_ ?_ (fun _ => hnot2 hpr)
      (by simp)
    · rw [ht]
      constructor <;> simp
    · rw [ht]
      rfl
  | bind hpid ht _ =>
    refine h.stay rfl rfl hpid (by simp [ht]) (by simp) (by rw [ht]; rfl) ?_
    exact h.moved_bind ((phase_of_running hpid _).trans ht)
  | listen hpid ht =>
    refine h.stay rfl rfl hpid (by simp [ht]) (by simp) (by rw [ht]; rfl) ?_
    exact h.book.listen ((phase_of_running hpid _).trans ht)
  | launchFails hpid ht =>
    refine h.retreat _ hpid (by simp [ht]) (by simp) ?_ (by rw [ht]; rfl)
    rw [ht]
    constructor <;> simp
  | fork hpid ht hchild =>
    have hle : ∀ {l : LockFile P} {log_fd : Nat} {sock : Listener} (child : Nat),
        (Phase.waiting l sock.socket child).Le (.launching l (.listening log_fd sock)) := by
      intro l log_fd sock child
      constructor <;> simp
    refine h.fork (h.retreat _ hpid (by simp [ht]) (by simp) (ht ▸ hle _) (by rw [ht]; rfl)) hpid
      hchild (ht ▸ hle _) ?_ rfl rfl (by rw [ht]; exact List.Sublist.refl _)
      fun _ _ hn => locks_closeRefs hn
    rw [ht]
    constructor <;> simp
  | waited hpid ht _ =>
    refine h.stay rfl rfl hpid (by simp [ht]) (by simp) (by rw [ht]; rfl) (h.book.move ?_)
    rw [phase_of_running hpid, ht]
    constructor <;> simp
  | waitFails hpid ht =>
    refine h.stay rfl rfl hpid (by simp [ht]) (by simp) (by rw [ht]; rfl) (h.book.move ?_)
    rw [phase_of_running hpid, ht]
    constructor <;> simp
  | @release pid t socket pr l hpid ht =>
    have hback := h.retreat (t := t) [l.ref] hpid (by simp [ht]) (by simp) (hrest _)
      (by rw [ht]; rfl)
    rwa [closeRefs_singleton] at hback
  | preventLaunchAttempts hpid ht => exact h.preventLaunchAttempts hpid ht
  | helperShutdown hpid hresting => exact h.helperShutdown hpid hresting
  | prepare hpid ht hfds =>
    refine h.quiet rfl rfl hpid (by simp [ht]) (by simp)
      ((h.wf _ _ hpid).prepare (h.single _ _ hpid) ht hfds) (h.book.move ?_)
      fun _ _ hn => continueInIntermediateProcess_locks hfds hn
    rw [phase_of_running hpid, ht]
    constructor <;> simp
  | secondFork hpid ht hchild => exact h.secondFork hpid ht hchild
  | execHelper hpid ht =>
    refine h.stay rfl rfl hpid (by simp [ht]) (by simp) (by rw [ht]; rfl) (h.book.move ?_)
    rw [phase_of_running hpid, ht]
    constructor <;> simp
  | @closeAcceptor pid t pr l sock hpid ht =>
    have hback := h.retreat (t := t) [sock.ref] hpid (by simp [ht]) (by simp)
      (ht ▸ Phase.helper_le l (some sock)) (by rw [ht]; rfl)
    rwa [closeRefs_singleton] at hback
  | exit code _ _ => exact h.exit code
  | @userOpen pid pr hpid =>
    refine h.userFds hpid (fun a r hr => ?_) fun n d hn => ?_
    · rw [Descriptors.get_allocate, if_neg ((h.wf _ _ hpid).ne_lowest hr)]
    · rw [Descriptors.get_allocate] at hn
      split at hn
      · cases hn
      · exact ⟨n, hn⟩
  | @userClose pid n pr hpid hn =>
    refine h.userFds hpid (fun a r hr => ?_) fun m d hm => ?_
    · rw [Descriptors.get_close, if_neg]
      exact fun heq => hn a (heq ▸ List.mem_map_of_mem hr)
    · exact ⟨m, Descriptors.get_of_get_close hm⟩
  | userThread hpid ht _ => exact h.userThread hpid ht
  | userFork hpid _ _ => exact h.userFork hpid
  | userExec cloexec hpid _ => exact h.userExec hpid

theorem System.Initial.inv (h : s.Initial) : s.Inv := by
  obtain ⟨hlocks, hprocs⟩ := h
  have hrest : ∀ q u, (s.phase q u).Resting := by
    intro q u
    cases hq : s.procs q with
    | unused => exact .inl (by rw [phase, hq])
    | exited code => exact .inl (by rw [phase, hq])
    | running pr =>
      rw [phase_of_running hq]
      exact (hprocs q pr hq).2.1 u
  have hle : ∀ q u, (s.phase q u).Le .absent := fun q u => (hrest q u).le _
  have hfail : ∀ q l, s.failure q ≠ some l := by
    intro q l hl
    obtain ⟨pr, hq, hpr⟩ := failure_eq_some hl
    rw [(hprocs q pr hq).1] at hpr
    cases hpr
  have hnone : ∀ q u l, (s.phase q u).lock ≠ some l := by
    intro q u l hl
    cases ((hle q u).lock l hl).1
  constructor
  · intro q pr hq
    have hrefs : ∀ a, pr.refs a = [] := by
      intro a
      cases a with
      | none => rw [Proc.refs, (hprocs q pr hq).1]; rfl
      | some u => rcases (hprocs q pr hq).2.1 u with hu | hu <;> rw [Proc.refs, hu] <;> rfl
    constructor <;> simp [hrefs]
  · intro q pr hq t l log_fd sock ht
    rcases (hprocs q pr hq).2.1 t with hu | hu <;> rw [hu] at ht <;> cases ht
  · constructor
    · exact fun q u l hl => absurd hl (hnone q u l)
    · exact fun q l hl => absurd hl (hfail q l)
    · exact fun q u q' u' l l' hl => absurd hl (hnone q u l)
    · exact fun q u q' u' l l' hl => absurd hl (hnone q u l)
    · exact fun q u q' l l' hl => absurd hl (hnone q u l)
    · exact fun q u l n hl => absurd hl (hnone q u l)
    · exact fun q u n hn => by cases (hle q u).heard n hn
  · intro f d d' hd
    obtain ⟨q, pr, n, hq, hn⟩ := hd
    exact absurd hn ((hprocs q pr hq).2.2 n d)

theorem Reachable.inv [DecidableEq P] {C : Proc P → Prop}
    (hC : ∀ pr, C pr → (pr.fds.get 2).isSome) (h : Reachable C s) : s.Inv := by
  induction h with
  | initial h => exact h.inv
  | step _ hs ih => exact ih.step hC hs

end DdAppsec.Extension.Launch
