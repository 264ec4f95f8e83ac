import DdAppsec.Extension.Launch

/-!
# Extension — claims to a lock

A thread or process CLAIMS the description of its lock file in one of two ways:
as a CLIENT, the PHP thread that opened it and will close or keep it, or as the
TOKEN, what is or will be the helper. A launching thread is both, until `fork`
hands the token to the child.

`Book` is the invariant of all claims: a description has at most one client and
at most one token. Most steps only give claims up (`Book.mono`); the others have
a lemma of their own.
-/

namespace DdAppsec.Extension.Launch

open Lib

variable {P : Type}

/-! ## What a phase claims -/

/-- The lock file at work. -/
def Phase.lock : Phase P → Option (LockFile P)
  | .absent | .idle | .exiting => none
  | .opened l _ | .launching l _ | .waiting l _ _ | .preventing l | .releasing l _
  | .intermediate l _ _ | .prepared l _ | .daemon l _ | .helper l _ => some l

/-- `flock` has put the lock on it. -/
def Phase.locked : Phase P → Bool
  | .opened _ _ => false
  | _ => true

/-- A thread of PHP that will close the descriptor or keep it. -/
def Phase.client : Phase P → Bool
  | .opened _ _ | .launching _ _ | .waiting _ _ _ | .preventing _ | .releasing _ _ => true
  | _ => false

/-- What becomes the helper if nothing fails. -/
def Phase.token : Phase P → Bool
  | .launching _ _ | .intermediate _ _ _ | .prepared _ _ | .daemon _ _ | .helper _ _ => true
  | _ => false

/-- The socket that the path was bound to. -/
def Phase.socket : Phase P → Option Nat
  | .launching _ (.bound _ sock) | .launching _ (.listening _ sock)
  | .intermediate _ _ sock | .prepared _ sock | .daemon _ sock | .helper _ (some sock) =>
    some sock.socket
  | .waiting _ socket _ | .releasing _ socket => some socket
  | _ => none

/-- The same, once it listens. -/
def Phase.heard : Phase P → Option Nat
  | .launching _ (.bound _ _) => none
  | φ => φ.socket

attribute [simp] Phase.lock Phase.locked Phase.client Phase.token Phase.socket Phase.heard

theorem Phase.ref_mem_refs {φ : Phase P} {l : LockFile P} (h : φ.lock = some l) :
    l.ref ∈ φ.refs := by
  cases φ <;> simp_all [Phase.lock, Phase.refs]

/-- What `φ` claims, `ψ` does. -/
structure Phase.Le (φ ψ : Phase P) : Prop where
  lock : ∀ l, φ.lock = some l → ψ.lock = some l ∧ φ.locked = ψ.locked
  client : φ.client → ψ.client
  token : φ.token → ψ.token
  socket : ∀ n, φ.socket = some n → ψ.socket = some n
  heard : ∀ n, φ.heard = some n → ψ.heard = some n

theorem Phase.Le.refl (φ : Phase P) : φ.Le φ :=
  ⟨fun _ h => ⟨h, rfl⟩, id, id, fun _ => id, fun _ => id⟩

theorem Phase.Resting.le {φ : Phase P} (h : φ.Resting) (ψ : Phase P) : φ.Le ψ := by
  rcases h with rfl | rfl <;> constructor <;> simp

theorem Phase.exiting_le (ψ : Phase P) : Phase.exiting.Le ψ := by
  constructor <;> simp

/-- A helper that has closed its socket has the lock as before. -/
theorem Phase.helper_le (l : LockFile P) (sock : Option Listener) :
    (Phase.helper l none).Le (.helper l sock) := by
  cases sock <;> constructor <;> simp

variable {t u : Nat} {φ : Phase P}

/-! ## All processes

The claims of all threads are one function of pid and thread; a process that
does not run claims nothing. -/

def System.phase (s : System P) (pid t : Nat) : Phase P :=
  match s.procs pid with
  | .running pr => pr.threads t
  | _ => .absent

def System.failure (s : System P) (pid : Nat) : Option (LockFile P) :=
  match s.procs pid with
  | .running pr => pr.launch_failure_fd_lock
  | _ => none

/-- How the claims of the threads, the locks that were kept after a failure,
the descriptions and the socket names agree. A description has at most one
client and at most one token, and one that was kept has no client. -/
structure Book (phase : Nat → Nat → Phase P) (failure : Nat → Option (LockFile P))
    (locks : Locks P) (names : P → Option Nat) (listening : Nat → Bool) : Prop where
  lock : ∀ q u l, (phase q u).lock = some l →
    locks[l.description]? = some (l.path, (phase q u).locked)
  kept : ∀ q l, failure q = some l → locks[l.description]? = some (l.path, true)
  client : ∀ q u q' u' l l', (phase q u).lock = some l → (phase q' u').lock = some l' →
    l.description = l'.description → (phase q u).client → (phase q' u').client →
      q = q' ∧ u = u'
  token : ∀ q u q' u' l l', (phase q u).lock = some l → (phase q' u').lock = some l' →
    l.description = l'.description → (phase q u).token → (phase q' u').token →
      q = q' ∧ u = u'
  apart : ∀ q u q' l l', (phase q u).lock = some l → (phase q u).client →
    failure q' = some l' → l.description ≠ l'.description
  name : ∀ q u l n, (phase q u).lock = some l → (phase q u).socket = some n →
    names l.path = some n
  listens : ∀ q u n, (phase q u).heard = some n → listening n = true

variable {phase phase' : Nat → Nat → Phase P} {failure failure' : Nat → Option (LockFile P)}
  {locks locks' : Locks P} {names : P → Option Nat} {listening : Nat → Bool} {pid : Nat}
  {l l' : LockFile P}

/-- Every claim there is comes from a claim there was, its ORIGIN, and no two
claims of a kind come from the same. -/
theorem Book.of_origin (h : Book phase failure locks names listening) (o : Nat → Nat → Nat × Nat)
    (hle : ∀ q u, (phase' q u).Le (phase (o q u).1 (o q u).2))
    (hclient : ∀ q u q' u', (phase' q u).client → (phase' q' u').client →
      o q u = o q' u' → q = q' ∧ u = u')
    (htoken : ∀ q u q' u', (phase' q u).token → (phase' q' u').token →
      o q u = o q' u' → q = q' ∧ u = u')
    (hfail : ∀ q l, failure' q = some l → ∃ q', failure q' = some l) :
    Book phase' failure' locks names listening := by
  constructor
  · intro q u l hl
    obtain ⟨hl', hlocked⟩ := (hle q u).lock l hl
    rw [hlocked]
    exact h.lock _ _ l hl'
  · intro q l hl
    obtain ⟨q', hq'⟩ := hfail q l hl
    exact h.kept q' l hq'
  · intro q u q' u' l l' hl hl' hd hc hc'
    have heq := h.client _ _ _ _ l l' ((hle q u).lock l hl).1 ((hle q' u').lock l' hl').1 hd
      ((hle q u).client hc) ((hle q' u').client hc')
    exact hclient q u q' u' hc hc' (Prod.ext heq.1 heq.2)
  · intro q u q' u' l l' hl hl' hd hc hc'
    have heq := h.token _ _ _ _ l l' ((hle q u).lock l hl).1 ((hle q' u').lock l' hl').1 hd
      ((hle q u).token hc) ((hle q' u').token hc')
    exact htoken q u q' u' hc hc' (Prod.ext heq.1 heq.2)
  · intro q u q' l l' hl hc hf
    obtain ⟨q₁, hq₁⟩ := hfail q' l' hf
    exact h.apart _ _ q₁ l l' ((hle q u).lock l hl).1 ((hle q u).client hc) hq₁
  · intro q u l n hl hn
    exact h.name _ _ l n ((hle q u).lock l hl).1 ((hle q u).socket n hn)
  · exact fun q u n hn => h.listens _ _ n ((hle q u).heard n hn)

/-- Nobody claims more than before. -/
theorem Book.mono (h : Book phase failure locks names listening)
    (hle : ∀ q u, (phase' q u).Le (phase q u))
    (hfail : ∀ q l, failure' q = some l → ∃ q', failure q' = some l) :
    Book phase' failure' locks names listening :=
  h.of_origin (fun q u => (q, u)) hle (fun _ _ _ _ _ _ heq => Prod.ext_iff.mp heq)
    (fun _ _ _ _ _ _ heq => Prod.ext_iff.mp heq) hfail

/-- Thread `t` of process `pid` is in phase `φ`, the others where they were. -/
def moved (phase : Nat → Nat → Phase P) (pid t : Nat) (φ : Phase P) (q u : Nat) : Phase P :=
  if q = pid ∧ u = t then φ else phase q u

theorem Book.move (h : Book phase failure locks names listening) (hle : φ.Le (phase pid t)) :
    Book (moved phase pid t φ) failure locks names listening := by
  refine h.mono (fun q u => ?_) fun q l hl => ⟨q, hl⟩
  unfold moved
  split
  · next heq => exact heq.1 ▸ heq.2 ▸ hle
  · exact Phase.Le.refl _

/-- What a thread claims alone may be replaced: the claims of the others stand,
and it is enough to look at the new one. -/
theorem Book.set (h : Book phase failure locks names listening)
    (hlock : φ.lock = some l → locks[l.description]? = some (l.path, φ.locked))
    (hl : φ.lock = none ∨ φ.lock = some l)
    (hclient : φ.client → ∀ q u l', ¬ (q = pid ∧ u = t) → (phase q u).lock = some l' →
      (phase q u).client → l'.description ≠ l.description)
    (htoken : φ.token → ∀ q u l', ¬ (q = pid ∧ u = t) → (phase q u).lock = some l' →
      (phase q u).token → l'.description ≠ l.description)
    (hapart : φ.client → ∀ q l', failure q = some l' → l.description ≠ l'.description)
    (hname : ∀ n, φ.socket = some n → names l.path = some n)
    (hlistens : ∀ n, φ.heard = some n → listening n = true) :
    Book (moved phase pid t φ) failure locks names listening := by
  have hval : ∀ l₁, φ.lock = some l₁ → l₁ = l := by
    intro l₁ h₁
    rcases hl with hnone | hsome
    · rw [hnone] at h₁
      cases h₁
    · exact Option.some.inj (h₁.symm.trans hsome)
  have hcases : ∀ q u, (q = pid ∧ u = t ∧ moved phase pid t φ q u = φ) ∨
      (¬ (q = pid ∧ u = t) ∧ moved phase pid t φ q u = phase q u) := by
    intro q u
    by_cases heq : q = pid ∧ u = t
    · exact .inl ⟨heq.1, heq.2, if_pos heq⟩
    · exact .inr ⟨heq, if_neg heq⟩
  constructor
  · intro q u l₁ h₁
    rcases hcases q u with ⟨-, -, heq⟩ | ⟨-, heq⟩ <;> rw [heq] at h₁ ⊢
    · cases hval l₁ h₁
      exact hlock h₁
    · exact h.lock q u l₁ h₁
  · exact h.kept
  · intro q u q' u' l₁ l₂ h₁ h₂ hd hc hc'
    rcases hcases q u with ⟨hq, hu, heq⟩ | ⟨hne, heq⟩ <;>
      rcases hcases q' u' with ⟨hq', hu', heq'⟩ | ⟨hne', heq'⟩ <;>
      rw [heq] at h₁ hc <;> rw [heq'] at h₂ hc'
    · exact ⟨hq.trans hq'.symm, hu.trans hu'.symm⟩
    · exact absurd (hval l₁ h₁ ▸ hd.symm) (hclient hc q' u' l₂ hne' h₂ hc')
    · exact absurd (hval l₂ h₂ ▸ hd) (hclient hc' q u l₁ hne h₁ hc)
    · exact h.client q u q' u' l₁ l₂ h₁ h₂ hd hc hc'
  · intro q u q' u' l₁ l₂ h₁ h₂ hd hc hc'
    rcases hcases q u with ⟨hq, hu, heq⟩ | ⟨hne, heq⟩ <;>
      rcases hcases q' u' with ⟨hq', hu', heq'⟩ | ⟨hne', heq'⟩ <;>
      rw [heq] at h₁ hc <;> rw [heq'] at h₂ hc'
    · exact ⟨hq.trans hq'.symm, hu.trans hu'.symm⟩
    · exact absurd (hval l₁ h₁ ▸ hd.symm) (htoken hc q' u' l₂ hne' h₂ hc')
    · exact absurd (hval l₂ h₂ ▸ hd) (htoken hc' q u l₁ hne h₁ hc)
    · exact h.token q u q' u' l₁ l₂ h₁ h₂ hd hc hc'
  · intro q u q' l₁ l₂ h₁ hc hf
    rcases hcases q u with ⟨-, -, heq⟩ | ⟨-, heq⟩ <;> rw [heq] at h₁ hc
    · cases hval l₁ h₁
      exact hapart hc q' l₂ hf
    · exact h.apart q u q' l₁ l₂ h₁ hc hf
  · intro q u l₁ n h₁ hn
    rcases hcases q u with ⟨-, -, heq⟩ | ⟨-, heq⟩ <;> rw [heq] at h₁ hn
    · cases hval l₁ h₁
      exact hname n hn
    · exact h.name q u l₁ n h₁ hn
  · intro q u n hn
    rcases hcases q u with ⟨-, -, heq⟩ | ⟨-, heq⟩ <;> rw [heq] at hn
    · exact hlistens n hn
    · exact h.listens q u n hn

/-! ## Taking the lock -/

theorem moved_moved {ψ : Phase P} :
    moved (moved phase pid t ψ) pid t φ = moved phase pid t φ := by
  funext q u
  unfold moved
  split <;> rfl

theorem Book.opened (h : Book phase failure locks names listening) (path : P) :
    Book phase failure (locks.opened path) names listening :=
  { h with
    lock := fun q u l hl => Locks.getElem?_opened (h.lock q u l hl)
    kept := fun q l hl => Locks.getElem?_opened (h.kept q l hl) }

/-- A new description, with a claim to it. -/
theorem Book.acquire (h : Book phase failure locks names listening) (path : P) (fd : Nat)
    (goal : Goal) :
    Book (moved phase pid t (.opened ⟨path, fd, locks.length⟩ goal)) failure
      (locks.opened path) names listening := by
  have hold : ∀ {d x}, locks[d]? = some x → d ≠ locks.length := by
    intro d x hd heq
    have hlt := (List.getElem?_eq_some_iff.mp hd).1
    omega
  refine (h.opened path).set (l := ⟨path, fd, locks.length⟩) ?_ (.inr rfl) ?_ ?_ ?_ ?_ ?_
  · exact fun _ => Locks.getElem?_opened_self
  · exact fun _ q u l' _ hl' _ => hold (h.lock q u l' hl')
  · exact fun htoken => absurd htoken Bool.false_ne_true
  · exact fun _ q l' hl' => (hold (h.kept q l' hl')).symm
  · exact fun n hn => by cases hn
  · exact fun n hn => by cases hn

/-- `flock` on a description nobody refers to. -/
theorem Book.relock (h : Book phase failure locks names listening) {d : Nat} {path : P}
    (hphase : ∀ q u l, (phase q u).lock = some l → d ≠ l.description)
    (hfail : ∀ q l, failure q = some l → d ≠ l.description) :
    Book phase failure (locks.lock d path) names listening :=
  { h with
    lock := fun q u l hl => by
      rw [Locks.getElem?_lock_ne (hphase q u l hl)]
      exact h.lock q u l hl
    kept := fun q l hl => by
      rw [Locks.getElem?_lock_ne (hfail q l hl)]
      exact h.kept q l hl }

theorem Phase.opened_of_not_locked {φ : Phase P} (h : φ.locked = false) :
    ∃ l goal, φ = .opened l goal := by
  cases φ with
  | opened l goal => exact ⟨l, goal, rfl⟩
  | _ => exact absurd h (by simp [locked])

/-- A description without the lock has nobody but the thread that opened it. -/
theorem Book.alone (h : Book phase failure locks names listening) {goal : Goal}
    (ht : phase pid t = .opened l goal) :
    (∀ q u l', ¬ (q = pid ∧ u = t) → (phase q u).lock = some l' →
        l'.description ≠ l.description) ∧
      ∀ q l', failure q = some l' → l'.description ≠ l.description := by
  have hl : (phase pid t).lock = some l := by rw [ht]; rfl
  have hentry : locks[l.description]? = some (l.path, false) := by
    have hentry := h.lock pid t l hl
    rwa [ht] at hentry
  constructor
  · intro q u l' hne hl' heq
    have hentry' := h.lock q u l' hl'
    rw [heq, hentry] at hentry'
    obtain ⟨l₁, goal', hopened⟩ := Phase.opened_of_not_locked
      (congrArg Prod.snd (Option.some.inj hentry')).symm
    refine hne (h.client q u pid t l' l hl' hl heq ?_ ?_)
    · rw [hopened]; rfl
    · rw [ht]; rfl
  · intro q l' hl' heq
    have hentry' := h.kept q l' hl'
    rw [heq, hentry] at hentry'
    exact absurd (congrArg Prod.snd (Option.some.inj hentry')) Bool.false_ne_true

theorem Book.flock (h : Book phase failure locks names listening) {goal : Goal}
    (ht : phase pid t = .opened l goal) :
    Book (moved phase pid t (goal.next l)) failure (locks.lock l.description l.path) names
      listening := by
  have hl : (phase pid t).lock = some l := by rw [ht]; rfl
  have hlocked : (goal.next l).locked = true := by cases goal <;> rfl
  obtain ⟨hothers, hkept⟩ := h.alone ht
  have hidle : Book (moved phase pid t .idle) failure locks names listening :=
    h.move (Phase.Resting.le (.inr rfl) _)
  have hne : ∀ q u l', (moved phase pid t .idle q u).lock = some l' →
      l.description ≠ l'.description := by
    intro q u l' hl'
    unfold moved at hl'
    split at hl'
    · cases hl'
    · next heq => exact (hothers q u l' heq hl').symm
  have hrelock : Book (moved phase pid t .idle) failure (locks.lock l.description l.path) names
      listening :=
    hidle.relock hne fun q l' hl' => (hkept q l' hl').symm
  rw [← moved_moved]
  refine hrelock.set (l := l) ?_ ?_ ?_ ?_ ?_ ?_ ?_
  · exact fun _ => hlocked ▸ Locks.getElem?_lock_self (h.lock pid t l hl)
  · cases goal <;> exact .inr rfl
  · exact fun _ q u l' _ hl' _ => (hne q u l' hl').symm
  · exact fun _ q u l' _ hl' _ => (hne q u l' hl').symm
  · exact fun _ q l' hl' => (hkept q l' hl').symm
  · cases goal <;> exact fun n hn => by cases hn
  · cases goal <;> exact fun n hn => by cases hn

/-! ## The name of the socket -/

/-- A name that nobody's socket has may change. -/
theorem Book.rename [DecidableEq P] (h : Book phase failure locks names listening) {path : P}
    {x : Option Nat}
    (hothers : ∀ q u l n, (phase q u).lock = some l → (phase q u).socket = some n →
      l.path ≠ path) :
    Book phase failure locks (Function.update names path x) listening :=
  { h with
    name := fun q u l n hl hn => by
      rw [Function.update_of_ne (hothers q u l n hl hn)]
      exact h.name q u l n hl hn }

theorem Phase.claims_of_socket {φ : Phase P} {n : Nat} (h : φ.socket = some n) :
    φ.locked = true ∧ (φ.client = true ∨ φ.token = true) := by
  cases φ with
  | absent | idle | opened | preventing | exiting => simp [socket] at h
  | launching l stage => exact ⟨rfl, .inl rfl⟩
  | waiting l socket pid => exact ⟨rfl, .inl rfl⟩
  | releasing l socket => exact ⟨rfl, .inl rfl⟩
  | intermediate l log_fd sock => exact ⟨rfl, .inr rfl⟩
  | prepared l sock => exact ⟨rfl, .inr rfl⟩
  | daemon l sock => exact ⟨rfl, .inr rfl⟩
  | helper l sock => exact ⟨rfl, .inr rfl⟩

theorem Book.listen (h : Book phase failure locks names listening) {log_fd : Nat}
    {sock : Listener} (ht : phase pid t = .launching l (.bound log_fd sock)) :
    Book (moved phase pid t (.launching l (.listening log_fd sock))) failure locks names
      (Function.update listening sock.socket true) := by
  have hl : (phase pid t).lock = some l := by rw [ht]; rfl
  have hlater : Book phase failure locks names (Function.update listening sock.socket true) :=
    { h with
      listens := fun q u n hn => by
        rw [Function.update_apply]
        split
        · rfl
        · exact h.listens q u n hn }
  refine hlater.set (l := l) ?_ (.inr rfl) ?_ ?_ ?_ ?_ ?_
  · exact fun _ => by simpa [ht] using h.lock pid t l hl
  · exact fun _ q u l' hne hl' hclient hd =>
      hne (h.client q u pid t l' l hl' hl hd hclient (by rw [ht]; rfl))
  · exact fun _ q u l' hne hl' htoken hd =>
      hne (h.token q u pid t l' l hl' hl hd htoken (by rw [ht]; rfl))
  · exact fun _ q l' hl' => h.apart pid t q l l' hl (by rw [ht]; rfl) hl'
  · intro n hn
    exact h.name pid t l n hl (by rw [ht]; exact hn)
  · intro n hn
    cases hn
    exact Function.update_self ..

/-! ## Handing it on -/

/-- A `fork` may leave the client's claim with the parent and give the token's
to the one thread of the child. -/
theorem Book.handOver (h : Book phase failure locks names listening) {child : Nat} {χ : Phase P}
    (hne : child ≠ pid) (hφ : φ.Le (phase pid t)) (hχ : χ.Le (phase pid t))
    (hφtoken : φ.token = false) (hχclient : χ.client = false)
    (hself : phase' pid t = φ) (hchild : phase' child 0 = χ)
    (hothers : ∀ q u, ¬ (q = pid ∧ u = t) → ¬ (q = child ∧ u = 0) →
      phase' q u = .absent ∨ phase' q u = phase q u)
    (hfail : ∀ q l, failure' q = some l → ∃ q', failure q' = some l) :
    Book phase' failure' locks names listening := by
  let o : Nat → Nat → Nat × Nat := fun q u => if q = child ∧ u = 0 then (pid, t) else (q, u)
  have hchild_o : o child 0 = (pid, t) := if_pos ⟨rfl, rfl⟩
  have hother_o : ∀ q u, ¬ (q = child ∧ u = 0) → o q u = (q, u) := fun q u hqu => if_neg hqu
  -- two claims of one origin are the parent's and the child's
  have hsame : ∀ q u q' u', o q u = o q' u' →
      (q = q' ∧ u = u') ∨ (phase' q u = φ ∧ phase' q' u' = χ) ∨
        (phase' q u = χ ∧ phase' q' u' = φ) := by
    intro q u q' u' heq
    by_cases hc : q = child ∧ u = 0 <;> by_cases hc' : q' = child ∧ u' = 0
    · exact .inl ⟨hc.1.trans hc'.1.symm, hc.2.trans hc'.2.symm⟩
    · obtain ⟨rfl, rfl⟩ := hc
      rw [hchild_o, hother_o q' u' hc'] at heq
      cases heq
      exact .inr (.inr ⟨hchild, hself⟩)
    · obtain ⟨rfl, rfl⟩ := hc'
      rw [hchild_o, hother_o q u hc] at heq
      cases heq
      exact .inr (.inl ⟨hself, hchild⟩)
    · rw [hother_o q u hc, hother_o q' u' hc'] at heq
      exact .inl (Prod.ext_iff.mp heq)
  refine h.of_origin o ?_ ?_ ?_ hfail
  · intro q u
    by_cases hc : q = child ∧ u = 0
    · obtain ⟨rfl, rfl⟩ := hc
      rw [hchild_o, hchild]
      exact hχ
    · rw [hother_o q u hc]
      by_cases ha : q = pid ∧ u = t
      · obtain ⟨rfl, rfl⟩ := ha
        rw [hself]
        exact hφ
      · rcases hothers q u ha hc with heq | heq <;> rw [heq]
        · exact Phase.Resting.le (.inl rfl) _
        · exact Phase.Le.refl _
  · intro q u q' u' hcl hcl' heq
    rcases hsame q u q' u' heq with hboth | ⟨-, hx⟩ | ⟨hx, -⟩
    · exact hboth
    · rw [hx, hχclient] at hcl'
      cases hcl'
    · rw [hx, hχclient] at hcl
      cases hcl
  · intro q u q' u' htok htok' heq
    rcases hsame q u q' u' heq with hboth | ⟨hx, -⟩ | ⟨-, hx⟩
    · exact hboth
    · rw [hx, hφtoken] at htok
      cases htok
    · rw [hx, hφtoken] at htok'
      cases htok'

/-- A client that keeps the lock is a client no longer. -/
theorem Book.keep (h : Book phase failure locks names listening) (hl : (phase pid t).lock = some l)
    (hclient : (phase pid t).client = true) (hlocked : (phase pid t).locked = true) :
    Book (moved phase pid t .idle) (fun q => if q = pid then some l else failure q) locks
      names listening := by
  have hidle : Book (moved phase pid t .idle) failure locks names listening :=
    h.move (Phase.Resting.le (.inr rfl) _)
  refine { hidle with kept := ?_, apart := ?_ }
  · intro q l' hl'
    split at hl'
    · cases hl'
      exact hlocked ▸ h.lock pid t l hl
    · exact h.kept q l' hl'
  · intro q u q' l₁ l₂ h₁ hc hf
    split at hf
    · cases hf
      intro heq
      unfold moved at h₁ hc
      split at h₁
      · cases h₁
      · next hne =>
        rw [if_neg hne] at hc
        exact hne (h.client q u pid t l₁ l h₁ hl heq hc hclient)
    · exact hidle.apart q u q' l₁ l₂ h₁ hc hf

end DdAppsec.Extension.Launch
