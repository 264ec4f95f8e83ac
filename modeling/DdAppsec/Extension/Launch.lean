import DdAppsec.Lib.FileLocks
import Mathlib.Logic.Function.Basic

/-!
# Extension — who may launch the helper

Any number of PHP processes, with any number of threads, may find that nobody
answers on their socket path at the same time. Which of them launches a helper
is settled by `flock` on the LOCK FILE that belongs to the path. Who has the
lock takes the socket's name, binds it anew and forks; the helper inherits the
descriptor, so that the lock lasts as long as the helper does. A process whose
launch failed keeps the lock instead, and nobody else tries.

A step of `Step` is one system call on something shared, with the thread's own
work up to the next one; any process may be killed between two of them. What is
outside the extension is there too: user code that opens and closes files, forks
and executes other programs, which inherit every descriptor.

One thing goes wrong on the way: the intermediate process puts the log file on
descriptor 2 without a look at what is there. `Step` has a parameter for what is
assumed of a process that opens descriptors for the launch.
-/

namespace DdAppsec.Extension.Launch

open Lib

/-! ## The parties -/

/-- What a descriptor refers to: the open file description of a lock file, a
socket for the helper, or anything else. -/
inductive Fd where
  | lock (description : Nat)
  | sock (socket : Nat)
  | file
  deriving DecidableEq, Repr

/-- A lock file that was opened: its path, the descriptor, and what that refers
to. -/
structure LockFile (P : Type) where
  path : P
  fd : Nat
  description : Nat
  deriving DecidableEq, Repr

/-- The descriptor of a socket, and which socket it is. -/
structure Listener where
  fd : Nat
  socket : Nat
  deriving DecidableEq, Repr

/-- What the lock is for. -/
inductive Goal where
  | launch
  | prevent
  deriving DecidableEq, Repr

/-- How far `_launch_helper_daemon` has come with `_open_socket_for_helper`. -/
inductive Stage where
  | locked
  | logged (log_fd : Nat)
  | unlinked (log_fd : Nat)
  | created (log_fd : Nat) (sock : Listener)
  | bound (log_fd : Nat) (sock : Listener)
  | listening (log_fd : Nat) (sock : Listener)
  deriving DecidableEq, Repr

/-- Where a thread is. A process that was forked for the launch has one thread,
number 0. -/
inductive Phase (P : Type) where
  /-- the process has no such thread -/
  | absent
  /-- not in `helper_process.c`; user code may run -/
  | idle
  /-- `_acquire_lock`, before `flock` -/
  | opened (l : LockFile P) (goal : Goal)
  | launching (l : LockFile P) (stage : Stage)
  /-- `_wait_for_intermediate_process` -/
  | waiting (l : LockFile P) (socket : Nat) (pid : Nat)
  /-- `_prevent_launch_attempts` with the lock -/
  | preventing (l : LockFile P)
  /-- `_maybe_launch_helper` behind a launch that succeeded -/
  | releasing (l : LockFile P) (socket : Nat)
  /-- `_continue_in_intermediate_process` -/
  | intermediate (l : LockFile P) (log_fd : Nat) (sock : Listener)
  /-- the same, before the second `fork` -/
  | prepared (l : LockFile P) (sock : Listener)
  /-- the same, before `_Exit(0)` -/
  | exiting
  /-- the child of the second `fork`, before `execv` -/
  | daemon (l : LockFile P) (sock : Listener)
  /-- the helper; `none` once it has closed its socket -/
  | helper (l : LockFile P) (sock : Option Listener)
  deriving DecidableEq, Repr

/-- A process: its descriptors, `_launch_failure_fd_lock` (`none` is -1) and its
threads. -/
structure Proc (P : Type) where
  fds : Descriptors Fd
  launch_failure_fd_lock : Option (LockFile P)
  threads : Nat → Phase P

inductive Slot (P : Type) where
  | unused
  | running (pr : Proc P)
  /-- the exit code; `none` if a signal ended the process -/
  | exited (code : Option Nat)

/-- The kernel's shared state and the processes by their pid. `names` says which
socket a path is bound to, `listening` on which sockets `listen` was called;
`sockets` counts them. -/
structure System (P : Type) where
  locks : Locks P
  names : P → Option Nat
  sockets : Nat
  listening : Nat → Bool
  procs : Nat → Slot P

variable {P : Type}

/-- No code of `helper_process.c` is at work. -/
def Phase.Resting (φ : Phase P) : Prop := φ = .absent ∨ φ = .idle

def Proc.enter (pr : Proc P) (t : Nat) (φ : Phase P) : Proc P :=
  { pr with threads := Function.update pr.threads t φ }

def System.store (s : System P) (pid : Nat) (pr : Proc P) : System P :=
  { s with procs := Function.update s.procs pid (.running pr) }

/-- Some process has a descriptor for the description. -/
def System.held (s : System P) (d : Nat) : Prop :=
  ∃ pid pr n, s.procs pid = .running pr ∧ pr.fds.get n = some (.lock d)

/-- A socket listens as long as some process has a descriptor for it: with the
last of them it is gone. -/
def System.Listens (s : System P) (n : Nat) : Prop :=
  s.listening n = true ∧ ∃ pid pr fd, s.procs pid = .running pr ∧ pr.fds.get fd = some (.sock n)

/-! ## What a thread relies on -/

/-- A descriptor with what it is taken to refer to. -/
abbrev Ref := Nat × Fd

def LockFile.ref (l : LockFile P) : Ref := (l.fd, .lock l.description)

def Listener.ref (sock : Listener) : Ref := (sock.fd, .sock sock.socket)

/-- What a launch that fails at this stage closes, and what the parent closes
after the `fork`. -/
def Stage.refs : Stage → List Ref
  | .locked => []
  | .logged log_fd | .unlinked log_fd => [(log_fd, .file)]
  | .created log_fd sock | .bound log_fd sock | .listening log_fd sock =>
    [(log_fd, .file), sock.ref]

def Phase.refs : Phase P → List Ref
  | .absent | .idle | .exiting => []
  | .opened l _ | .waiting l _ _ | .preventing l | .releasing l _ => [l.ref]
  | .launching l stage => l.ref :: stage.refs
  | .intermediate l log_fd sock => [l.ref, (log_fd, .file), sock.ref]
  | .prepared l sock | .daemon l sock => [l.ref, sock.ref]
  | .helper l sock => l.ref :: sock.toList.map Listener.ref

/-- The descriptors of the thread `some t`, or of `_launch_failure_fd_lock`. -/
def Proc.refs (pr : Proc P) : Option Nat → List Ref
  | none => pr.launch_failure_fd_lock.toList.map LockFile.ref
  | some t => (pr.threads t).refs

/-- Close all of them. -/
def closeRefs (refs : List Ref) (fds : Descriptors Fd) : Descriptors Fd :=
  fds.closeAll fun n => n ∈ refs.map Prod.fst

/-! ## The code -/

def Goal.next (l : LockFile P) : Goal → Phase P
  | .launch => .launching l .locked
  | .prevent => .preventing l

def EXIT_GETFD : Nat := 2
def EXIT_UNEXPECTED_FD : Nat := 4

/-- `_close_file_descriptors`: `listed` are the numbers it comes upon, in
`/proc/self/fd/` or below the limit. -/
def closeFileDescriptors (listed : Nat → Bool) (log_fd lock_fd sock_fd : Nat)
    (fds : Descriptors Fd) : Descriptors Fd :=
  fds.closeAll fun n => listed n && n != log_fd && n != lock_fd && n != sock_fd

/-- `/dev/null` for descriptors 0 and 1, the log file for 2. Descriptor 0 is
open when it is duplicated: `open` has just given the lowest number. -/
def openStandardStreams (log_fd : Nat) (fds : Descriptors Fd) :
    Except Nat (Descriptors Fd) :=
  let fd0 := fds.lowest
  let fds := fds.allocate .file
  let fd1 := fds.lowest
  let fds := fds.allocate ((fds.get 0).getD .file)
  let fds := fds.put 2 (fds.get log_fd)
  let fds := fds.close log_fd
  if fd0 = 0 ∧ fd1 = 1 then .ok fds else .error EXIT_UNEXPECTED_FD

/-- `_continue_in_intermediate_process` up to the second `fork`, as far as it
changes the descriptors. The error is the exit code. -/
def continueInIntermediateProcess (listed : Nat → Bool) (log_fd lock_fd sock_fd : Nat)
    (fds : Descriptors Fd) : Except Nat (Descriptors Fd) :=
  let fds := closeFileDescriptors listed log_fd lock_fd sock_fd fds
  if [log_fd, lock_fd, sock_fd].any fun n => (fds.get n).isNone then .error EXIT_GETFD
  else openStandardStreams log_fd fds

/-- `_prevent_launch_attempts` with the lock, by thread `t`. The comparison
fails where the process keeps another lock already. -/
def Proc.preventLaunchAttempts (pr : Proc P) (t : Nat) (l : LockFile P) : Proc P :=
  match pr.launch_failure_fd_lock with
  | none => { pr.enter t .idle with launch_failure_fd_lock := some l }
  | some _ => { pr.enter t .idle with fds := pr.fds.close l.fd }

/-- `dd_helper_shutdown`. -/
def Proc.helperShutdown (pr : Proc P) : Proc P :=
  match pr.launch_failure_fd_lock with
  | none => pr
  | some l => { pr with launch_failure_fd_lock := none, fds := pr.fds.close l.fd }

/-- A process with the same descriptors, one thread and a memory that nothing of
`helper_process.c` will look at again. -/
def Proc.forked (pr : Proc P) (φ : Phase P) : Proc P :=
  { fds := pr.fds
    launch_failure_fd_lock := none
    threads := fun u => if u = 0 then φ else .absent }

/-! ## The steps -/

/-- One step of the system. `C` is assumed of a process when it opens a
descriptor for the launch; the rest of a call's outcomes is left free, but for
`flock` and `bind`, which succeed where the kernel lets them. -/
inductive Step [DecidableEq P] (C : Proc P → Prop) (s : System P) : System P → Prop where
  /-- `_acquire_lock`: `open` -/
  | acquireLock {pid t : Nat} {pr : Proc P} (path : P) (goal : Goal)
      (hpid : s.procs pid = .running pr) (ht : pr.threads t = .idle) (hC : C pr) :
      Step C s ({ s with locks := s.locks.opened path }.store pid
        ({ pr with fds := pr.fds.allocate (.lock s.locks.length) }.enter t
          (.opened ⟨path, pr.fds.lowest, s.locks.length⟩ goal)))
  /-- `_acquire_lock`: `flock`, and there is no lock -/
  | flock {pid t : Nat} {pr : Proc P} {l : LockFile P} {goal : Goal}
      (hpid : s.procs pid = .running pr) (ht : pr.threads t = .opened l goal)
      (hfree : s.locks.Free s.held l.path) :
      Step C s ({ s with locks := s.locks.lock l.description l.path }.store pid
        (pr.enter t (goal.next l)))
  /-- `_acquire_lock`: `flock` fails -/
  | flockFails {pid t : Nat} {pr : Proc P} {l : LockFile P} {goal : Goal}
      (hpid : s.procs pid = .running pr) (ht : pr.threads t = .opened l goal) :
      Step C s (s.store pid ({ pr with fds := pr.fds.close l.fd }.enter t .idle))
  | openLog {pid t : Nat} {pr : Proc P} {l : LockFile P}
      (hpid : s.procs pid = .running pr) (ht : pr.threads t = .launching l .locked) :
      Step C s (s.store pid ({ pr with fds := pr.fds.allocate .file }.enter t
        (.launching l (.logged pr.fds.lowest))))
  | unlink {pid t : Nat} {pr : Proc P} {l : LockFile P} {log_fd : Nat}
      (hpid : s.procs pid = .running pr) (ht : pr.threads t = .launching l (.logged log_fd)) :
      Step C s ({ s with names := Function.update s.names l.path none }.store pid
        (pr.enter t (.launching l (.unlinked log_fd))))
  | socket {pid t : Nat} {pr : Proc P} {l : LockFile P} {log_fd : Nat}
      (hpid : s.procs pid = .running pr) (ht : pr.threads t = .launching l (.unlinked log_fd))
      (hC : C pr) :
      Step C s ({ s with sockets := s.sockets + 1 }.store pid
        ({ pr with fds := pr.fds.allocate (.sock s.sockets) }.enter t
          (.launching l (.created log_fd ⟨pr.fds.lowest, s.sockets⟩))))
  | bind {pid t : Nat} {pr : Proc P} {l : LockFile P} {log_fd : Nat} {sock : Listener}
      (hpid : s.procs pid = .running pr)
      (ht : pr.threads t = .launching l (.created log_fd sock)) (hname : s.names l.path = none) :
      Step C s ({ s with names := Function.update s.names l.path (some sock.socket) }.store pid
        (pr.enter t (.launching l (.bound log_fd sock))))
  | listen {pid t : Nat} {pr : Proc P} {l : LockFile P} {log_fd : Nat} {sock : Listener}
      (hpid : s.procs pid = .running pr) (ht : pr.threads t = .launching l (.bound log_fd sock)) :
      Step C s ({ s with listening := Function.update s.listening sock.socket true }.store pid
        (pr.enter t (.launching l (.listening log_fd sock))))
  /-- Any call of `_launch_helper_daemon` fails, `_split_params` and `fork`
  included. -/
  | launchFails {pid t : Nat} {pr : Proc P} {l : LockFile P} {stage : Stage}
      (hpid : s.procs pid = .running pr) (ht : pr.threads t = .launching l stage) :
      Step C s (s.store pid
        ({ pr with fds := closeRefs stage.refs pr.fds }.enter t (.preventing l)))
  | fork {pid t child : Nat} {pr : Proc P} {l : LockFile P} {log_fd : Nat} {sock : Listener}
      (hpid : s.procs pid = .running pr)
      (ht : pr.threads t = .launching l (.listening log_fd sock))
      (hchild : s.procs child = .unused) :
      Step C s ((s.store child (pr.forked (.intermediate l log_fd sock))).store pid
        ({ pr with fds := closeRefs [(log_fd, .file), sock.ref] pr.fds }.enter t
          (.waiting l sock.socket child)))
  /-- `_wait_for_intermediate_process`: it exited with 0 -/
  | waited {pid t child socket : Nat} {pr : Proc P} {l : LockFile P}
      (hpid : s.procs pid = .running pr) (ht : pr.threads t = .waiting l socket child)
      (hchild : s.procs child = .exited (some 0)) :
      Step C s (s.store pid (pr.enter t (.releasing l socket)))
  /-- `_wait_for_intermediate_process`: it ended otherwise, or `waitpid` failed -/
  | waitFails {pid t child socket : Nat} {pr : Proc P} {l : LockFile P}
      (hpid : s.procs pid = .running pr) (ht : pr.threads t = .waiting l socket child) :
      Step C s (s.store pid (pr.enter t (.preventing l)))
  | release {pid t socket : Nat} {pr : Proc P} {l : LockFile P}
      (hpid : s.procs pid = .running pr) (ht : pr.threads t = .releasing l socket) :
      Step C s (s.store pid ({ pr with fds := pr.fds.close l.fd }.enter t .idle))
  | preventLaunchAttempts {pid t : Nat} {pr : Proc P} {l : LockFile P}
      (hpid : s.procs pid = .running pr) (ht : pr.threads t = .preventing l) :
      Step C s (s.store pid (pr.preventLaunchAttempts t l))
  /-- `dd_helper_shutdown`, when no request is being processed -/
  | helperShutdown {pid : Nat} {pr : Proc P} (hpid : s.procs pid = .running pr)
      (hrest : ∀ t, (pr.threads t).Resting) :
      Step C s (s.store pid pr.helperShutdown)
  /-- `_continue_in_intermediate_process` up to the second `fork` -/
  | prepare {pid t : Nat} {pr : Proc P} {l : LockFile P} {log_fd : Nat} {sock : Listener}
      {listed : Nat → Bool} {fds : Descriptors Fd} (hpid : s.procs pid = .running pr)
      (ht : pr.threads t = .intermediate l log_fd sock)
      (hfds : continueInIntermediateProcess listed log_fd l.fd sock.fd pr.fds = .ok fds) :
      Step C s (s.store pid ({ pr with fds := fds }.enter t (.prepared l sock)))
  | secondFork {pid t child : Nat} {pr : Proc P} {l : LockFile P} {sock : Listener}
      (hpid : s.procs pid = .running pr) (ht : pr.threads t = .prepared l sock)
      (hchild : s.procs child = .unused) :
      Step C s ((s.store child (pr.forked (.daemon l sock))).store pid (pr.enter t .exiting))
  | execHelper {pid t : Nat} {pr : Proc P} {l : LockFile P} {sock : Listener}
      (hpid : s.procs pid = .running pr) (ht : pr.threads t = .daemon l sock) :
      Step C s (s.store pid (pr.enter t (.helper l (some sock))))
  /-- `~runner` closes the socket before it waits for the workers. -/
  | closeAcceptor {pid t : Nat} {pr : Proc P} {l : LockFile P} {sock : Listener}
      (hpid : s.procs pid = .running pr) (ht : pr.threads t = .helper l (some sock)) :
      Step C s (s.store pid
        ({ pr with fds := pr.fds.close sock.fd }.enter t (.helper l none)))
  /-- A process ends: by a signal, or with an exit code. The intermediate
  process does not exit with 0 before the second `fork`. -/
  | exit {pid : Nat} {pr : Proc P} (code : Option Nat) (hpid : s.procs pid = .running pr)
      (hcode : code = some 0 → ∀ t l log_fd sock, pr.threads t ≠ .intermediate l log_fd sock ∧
        pr.threads t ≠ .prepared l sock) :
      Step C s { s with procs := Function.update s.procs pid (.exited code) }
  /-- Some code opens a file of its own. -/
  | userOpen {pid : Nat} {pr : Proc P} (hpid : s.procs pid = .running pr) :
      Step C s (s.store pid { pr with fds := pr.fds.allocate .file })
  /-- Some code closes what is not the extension's. -/
  | userClose {pid n : Nat} {pr : Proc P} (hpid : s.procs pid = .running pr)
      (hn : ∀ a, n ∉ (pr.refs a).map Prod.fst) :
      Step C s (s.store pid { pr with fds := pr.fds.close n })
  /-- PHP starts another thread. -/
  | userThread {pid t u : Nat} {pr : Proc P} (hpid : s.procs pid = .running pr)
      (ht : pr.threads t = .idle) (hu : pr.threads u = .absent) :
      Step C s (s.store pid (pr.enter u .idle))
  /-- User code forks: the memory is copied, and the thread. -/
  | userFork {pid t child : Nat} {pr : Proc P} (hpid : s.procs pid = .running pr)
      (ht : pr.threads t = .idle) (hchild : s.procs child = .unused) :
      Step C s (s.store child
        { pr with threads := fun u => if u = t then .idle else .absent })
  /-- User code executes another program, which may be PHP again. `cloexec` are
  the descriptors that do not outlive it. -/
  | userExec {pid t : Nat} {pr : Proc P} (cloexec : Nat → Bool)
      (hpid : s.procs pid = .running pr) (ht : pr.threads t = .idle) :
      Step C s (s.store pid ({ pr with fds := pr.fds.closeAll cloexec }.forked .idle))

/-- No lock file is open yet. -/
def System.Initial (s : System P) : Prop :=
  s.locks = [] ∧ ∀ pid pr, s.procs pid = .running pr →
    pr.launch_failure_fd_lock = none ∧ (∀ t, (pr.threads t).Resting) ∧
      ∀ n d, pr.fds.get n ≠ some (.lock d)

/-- The states that a system of PHP processes can come to. -/
inductive Reachable [DecidableEq P] (C : Proc P → Prop) : System P → Prop where
  | initial {s : System P} (h : s.Initial) : Reachable C s
  | step {s s' : System P} (h : Reachable C s) (hs : Step C s s') : Reachable C s'

end DdAppsec.Extension.Launch
