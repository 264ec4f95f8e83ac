import DdAppsec.Extension.Launch

/-!
# Extension — the descriptors of a launch

`Proc.WellFormed`: in every process the descriptors are what its threads take
them for, and no two threads rely on the same one. A thread's step keeps it by
one of `enter`, `drop`, `stay` and `gain`; the intermediate process, which closes
what it finds and puts its standard streams in place, keeps it by `prepare`.
-/

namespace DdAppsec.Extension.Launch

open Lib

variable {P : Type}

/-! ## One process -/

/-- The descriptors are what the threads take them for, no two threads rely on
the same one, and neither locks nor sockets are where the log will be. -/
structure Proc.WellFormed (pr : Proc P) : Prop where
  refers : ∀ a, ∀ r ∈ pr.refs a, pr.fds.get r.1 = some r.2
  apart : ∀ a b, ∀ r ∈ pr.refs a, ∀ r' ∈ pr.refs b, r.1 = r'.1 → a = b
  nodup : ∀ a, ((pr.refs a).map Prod.fst).Nodup
  off : ∀ a, ∀ r ∈ pr.refs a, r.2 ≠ .file → r.1 ≠ 2

/-- An intermediate process has the one thread. -/
def Proc.Single (pr : Proc P) : Prop :=
  ∀ t l log_fd sock, pr.threads t = .intermediate l log_fd sock →
    pr.launch_failure_fd_lock = none ∧ ∀ u, u ≠ t → pr.threads u = .absent

variable {pr : Proc P} {t u : Nat} {φ : Phase P} {fds : Descriptors Fd}

variable {pr' : Proc P} {l : LockFile P}

theorem Proc.refs_enter (a : Option Nat) :
    (pr.enter t φ).refs a = if a = some t then φ.refs else pr.refs a := by
  cases a with
  | none => rfl
  | some u => by_cases hu : u = t <;> simp [refs, enter, Function.update, hu]

/-- A thread moves on, touching no descriptor in use but its own. -/
theorem Proc.WellFormed.enter (h : pr.WellFormed)
    (hrefers : ∀ r ∈ φ.refs, fds.get r.1 = some r.2) (hnodup : (φ.refs.map Prod.fst).Nodup)
    (hoff : ∀ r ∈ φ.refs, r.2 ≠ .file → r.1 ≠ 2)
    (hnew : ∀ r ∈ φ.refs, r ∈ (pr.threads t).refs ∨ pr.fds.get r.1 = none)
    (hfds : ∀ n, fds.get n = pr.fds.get n ∨ pr.fds.get n = none ∨
      n ∈ (pr.threads t).refs.map Prod.fst) :
    ({ pr with fds := fds }.enter t φ).WellFormed := by
  have hrefs : ∀ a, ({ pr with fds := fds }.enter t φ).refs a =
      if a = some t then φ.refs else pr.refs a := fun a => refs_enter a
  -- what another thread relies on is open and not this thread's
  have hother : ∀ a, a ≠ some t → ∀ r ∈ pr.refs a, fds.get r.1 = some r.2 := by
    intro a ha r hr
    have hopen := h.refers a r hr
    rcases hfds r.1 with hsame | hnone | hmine
    · rw [hsame, hopen]
    · rw [hnone] at hopen
      cases hopen
    · obtain ⟨r', hr', hnum⟩ := List.mem_map.mp hmine
      exact absurd (h.apart a (some t) r hr r' hr' hnum.symm) ha
  have hapart : ∀ a, a ≠ some t → ∀ r ∈ pr.refs a, ∀ r' ∈ φ.refs, r.1 ≠ r'.1 := by
    intro a ha r hr r' hr' hnum
    rcases hnew r' hr' with hold | hfree
    · exact ha (h.apart a (some t) r hr r' hold hnum)
    · have hopen := h.refers a r hr
      rw [hnum, hfree] at hopen
      cases hopen
  constructor
  · intro a r hr
    rw [hrefs] at hr
    split at hr
    · exact hrefers r hr
    · next ha => exact hother a ha r hr
  · intro a b r hr r' hr' hnum
    rw [hrefs] at hr hr'
    split at hr <;> split at hr'
    · next ha hb => exact ha.trans hb.symm
    · next _ hb => exact absurd hnum.symm (hapart b hb r' hr' r hr)
    · next ha _ => exact absurd hnum (hapart a ha r hr r' hr')
    · exact h.apart a b r hr r' hr' hnum
  · intro a
    rw [hrefs]
    split
    · exact hnodup
    · exact h.nodup a
  · intro a r hr
    rw [hrefs] at hr
    split at hr
    · exact hoff r hr
    · exact h.off a r hr

/-- A thread moves on and gives up descriptors. -/
theorem Proc.WellFormed.drop (h : pr.WellFormed) (hsub : φ.refs.Sublist (pr.threads t).refs)
    (hkeep : ∀ r ∈ φ.refs, fds.get r.1 = pr.fds.get r.1)
    (hfds : ∀ n, fds.get n = pr.fds.get n ∨ n ∈ (pr.threads t).refs.map Prod.fst) :
    ({ pr with fds := fds }.enter t φ).WellFormed := by
  refine h.enter ?_ ((h.nodup (some t)).sublist (hsub.map _)) ?_ ?_ ?_
  · intro r hr
    rw [hkeep r hr]
    exact h.refers (some t) r (hsub.subset hr)
  · exact fun r hr => h.off (some t) r (hsub.subset hr)
  · exact fun r hr => .inl (hsub.subset hr)
  · exact fun n => (hfds n).imp_right .inr

/-- A thread moves on with the same descriptors. -/
theorem Proc.WellFormed.stay (h : pr.WellFormed) (hrefs : φ.refs = (pr.threads t).refs) :
    (pr.enter t φ).WellFormed := by
  have hstay : ({ pr with fds := pr.fds }.enter t φ).WellFormed :=
    h.drop (hrefs ▸ List.Sublist.refl _) (fun _ _ => rfl) fun _ => .inl rfl
  exact hstay

/-- A thread moves on with a new descriptor. -/
theorem Proc.WellFormed.gain {e : Fd} (h : pr.WellFormed)
    (hrefs : φ.refs = (pr.threads t).refs ++ [(pr.fds.lowest, e)])
    (hoff : e ≠ .file → pr.fds.lowest ≠ 2) :
    ({ pr with fds := pr.fds.allocate e }.enter t φ).WellFormed := by
  have hmem : ∀ r, r ∈ φ.refs ↔ r ∈ (pr.threads t).refs ∨ r = (pr.fds.lowest, e) := by
    intro r
    rw [hrefs]
    simp
  have hne : ∀ r ∈ (pr.threads t).refs, r.1 ≠ pr.fds.lowest := by
    intro r hr hnum
    have hopen := h.refers (some t) r hr
    rw [hnum, Descriptors.get_lowest] at hopen
    cases hopen
  refine h.enter ?_ ?_ ?_ ?_ ?_
  · intro r hr
    rcases (hmem r).mp hr with hold | rfl
    · rw [Descriptors.get_allocate, if_neg (hne r hold)]
      exact h.refers (some t) r hold
    · simp
  · rw [hrefs, List.map_append, List.nodup_append]
    refine ⟨h.nodup (some t), by simp, ?_⟩
    intro n hn m hm
    obtain ⟨r, hr, rfl⟩ := List.mem_map.mp hn
    rw [List.map_singleton, List.mem_singleton] at hm
    rw [hm]
    exact hne r hr
  · intro r hr
    rcases (hmem r).mp hr with hold | rfl
    · exact h.off (some t) r hold
    · exact hoff
  · intro r hr
    rcases (hmem r).mp hr with hold | rfl
    · exact .inl hold
    · exact .inr (Descriptors.get_lowest _)
  · intro n
    rw [Descriptors.get_allocate]
    split
    · next hn => exact .inr (.inl (hn ▸ Descriptors.get_lowest _))
    · exact .inl rfl

/-- What is open is not free. -/
theorem Proc.WellFormed.ne_lowest (h : pr.WellFormed) {a : Option Nat} {r : Ref}
    (hr : r ∈ pr.refs a) : r.1 ≠ pr.fds.lowest := by
  intro hnum
  have hopen := h.refers a r hr
  rw [hnum, Descriptors.get_lowest] at hopen
  cases hopen

/-- Nothing new is relied on, and what still is, stays open. -/
theorem Proc.WellFormed.shrink (h : pr.WellFormed)
    (hsub : ∀ a, (pr'.refs a).Sublist (pr.refs a))
    (hfds : ∀ a, ∀ r ∈ pr'.refs a, pr'.fds.get r.1 = pr.fds.get r.1) : pr'.WellFormed := by
  constructor
  · intro a r hr
    rw [hfds a r hr]
    exact h.refers a r ((hsub a).subset hr)
  · exact fun a b r hr r' hr' => h.apart a b r ((hsub a).subset hr) r' ((hsub b).subset hr')
  · exact fun a => (h.nodup a).sublist ((hsub a).map _)
  · exact fun a r hr => h.off a r ((hsub a).subset hr)

/-- The one thread of a forked process relies on what the parent's did. -/
theorem Proc.WellFormed.forked (h : pr.WellFormed) (hsub : φ.refs.Sublist (pr.threads t).refs) :
    (pr.forked φ).WellFormed := by
  have hrefs : ∀ a, (pr.forked φ).refs a = if a = some 0 then φ.refs else [] := by
    intro a
    cases a with
    | none => rfl
    | some u => by_cases hu : u = 0 <;> simp [refs, Proc.forked, hu, Phase.refs]
  have hold : ∀ a, ∀ r ∈ (pr.forked φ).refs a, a = some 0 ∧ r ∈ (pr.threads t).refs := by
    intro a r hr
    rw [hrefs] at hr
    split at hr
    · next ha => exact ⟨ha, hsub.subset hr⟩
    · cases hr
  constructor
  · exact fun a r hr => h.refers (some t) r (hold a r hr).2
  · exact fun a b r hr r' hr' _ => (hold a r hr).1.trans (hold b r' hr').1.symm
  · intro a
    rw [hrefs]
    split
    · exact (h.nodup (some t)).sublist (hsub.map _)
    · exact List.nodup_nil
  · exact fun a r hr => h.off (some t) r (hold a r hr).2

/-! ## One thread -/

theorem Proc.Single.enter (h : pr.Single) (ht : pr.threads t ≠ .absent)
    (hφ : ∀ l log_fd sock, φ ≠ .intermediate l log_fd sock) :
    ({ pr with fds := fds }.enter t φ).Single := by
  intro u l log_fd sock hu
  by_cases hut : u = t
  · subst hut
    exact absurd (by simpa [Proc.enter] using hu) (hφ l log_fd sock)
  · have hold : pr.threads u = .intermediate l log_fd sock := by
      simpa [Proc.enter, Function.update, hut] using hu
    exact absurd ((h u l log_fd sock hold).2 t (Ne.symm hut)) ht

theorem Proc.Single.not_idle (h : pr.Single) {log_fd : Nat} {sock : Listener}
    (ht : pr.threads t = .intermediate l log_fd sock) (u : Nat) : pr.threads u ≠ .idle := by
  by_cases hu : u = t
  · simp [hu, ht]
  · simp [(h t l log_fd sock ht).2 u hu]

theorem Proc.Single.forked (φ : Phase P) : (pr.forked φ).Single := by
  intro u l log_fd sock hu
  by_cases hu0 : u = 0
  · exact ⟨rfl, fun v hv => by simp [Proc.forked, hu0 ▸ hv]⟩
  · simp [Proc.forked, hu0] at hu

/-! ## The intermediate process -/

@[simp] theorem get_closeRefs (refs : List Ref) (n : Nat) :
    (closeRefs refs fds).get n = if n ∈ refs.map Prod.fst then none else fds.get n := by
  rw [closeRefs, Descriptors.get_closeAll]
  simp only [decide_eq_true_eq]

theorem locks_closeRefs {refs : List Ref} {n d : Nat}
    (h : (closeRefs refs fds).get n = some (.lock d)) : ∃ m, fds.get m = some (.lock d) := by
  rw [get_closeRefs] at h
  split at h
  · cases h
  · exact ⟨n, h⟩

theorem closeRefs_singleton (r : Ref) : closeRefs [r] fds = fds.close r.1 := by
  simp only [closeRefs, Descriptors.close, List.map_cons, List.map_nil, List.mem_singleton]
  rfl

section
variable {listed : Nat → Bool} {log_fd lock_fd sock_fd : Nat} {fds' : Descriptors Fd}

theorem openStandardStreams_ok (h : openStandardStreams log_fd fds = .ok fds') :
    fds.get 0 = none ∧ fds.get 1 = none ∧ ∀ n, fds'.get n =
      if n = log_fd then none
      else if n = 2 then (if log_fd = 0 ∨ log_fd = 1 then some .file else fds.get log_fd)
      else if n = 0 ∨ n = 1 then some .file else fds.get n := by
  simp only [openStandardStreams] at h
  split at h
  · next hlow =>
    obtain ⟨h0, h1⟩ := hlow
    have hget0 : fds.get 0 = none := h0 ▸ Descriptors.get_lowest fds
    have hget1 : (fds.allocate .file).get 1 = none := h1 ▸ Descriptors.get_lowest _
    refine ⟨hget0, by simpa [h0] using hget1, fun n => ?_⟩
    cases h
    by_cases hn : n = log_fd
    · simp [hn]
    · simp only [Descriptors.get_close, Descriptors.get_put, Descriptors.get_allocate, h0, h1,
        if_neg hn, if_true, Option.getD_some]
      by_cases hl0 : log_fd = 0 <;> by_cases hl1 : log_fd = 1 <;> by_cases hn0 : n = 0 <;>
        by_cases hn1 : n = 1 <;> simp_all
  · cases h

/-- What becomes of the lock and of the socket: they stay, unless they are where
the log goes. -/
theorem continueInIntermediateProcess_keeps {n : Nat}
    (h : continueInIntermediateProcess listed log_fd lock_fd sock_fd fds = .ok fds')
    (hn : n = lock_fd ∨ n = sock_fd) (hlog : n ≠ log_fd) :
    fds'.get n = if n = 2 then fds.get log_fd else fds.get n := by
  simp only [continueInIntermediateProcess] at h
  split at h
  · cases h
  · next hopen =>
    obtain ⟨h0, h1, hget⟩ := openStandardStreams_ok h
    have hkept : ∀ m, m = log_fd ∨ m = lock_fd ∨ m = sock_fd →
        (closeFileDescriptors listed log_fd lock_fd sock_fd fds).get m = fds.get m := by
      rintro m (rfl | rfl | rfl) <;> simp [closeFileDescriptors]
    simp only [List.any_cons, List.any_nil, Bool.or_false, Bool.or_eq_true, not_or,
      Bool.not_eq_true, Option.isNone_eq_false_iff] at hopen
    have hne : ∀ m, m = log_fd ∨ m = lock_fd ∨ m = sock_fd → m ≠ 0 ∧ m ≠ 1 := by
      intro m hm
      have hsome : ((closeFileDescriptors listed log_fd lock_fd sock_fd fds).get m).isSome := by
        rcases hm with rfl | rfl | rfl
        · exact hopen.1
        · exact hopen.2.1
        · exact hopen.2.2
      constructor <;> rintro rfl
      · rw [h0] at hsome
        cases hsome
      · rw [h1] at hsome
        cases hsome
    have hn01 := hne n (.inr hn)
    have hlog01 := hne log_fd (.inl rfl)
    rw [hget, if_neg hlog, hkept log_fd (.inl rfl), hkept n (.inr hn),
      if_neg (not_or.mpr hlog01), if_neg (not_or.mpr hn01)]

/-- The intermediate process opens no lock file. -/
theorem continueInIntermediateProcess_locks {n d : Nat}
    (h : continueInIntermediateProcess listed log_fd lock_fd sock_fd fds = .ok fds')
    (hn : fds'.get n = some (.lock d)) : ∃ m, fds.get m = some (.lock d) := by
  simp only [continueInIntermediateProcess] at h
  split at h
  · cases h
  · obtain ⟨-, -, hget⟩ := openStandardStreams_ok h
    have hold : ∀ m, (closeFileDescriptors listed log_fd lock_fd sock_fd fds).get m =
        some (.lock d) → fds.get m = some (.lock d) := by
      intro m hm
      rw [closeFileDescriptors, Descriptors.get_closeAll] at hm
      split at hm
      · cases hm
      · exact hm
    rw [hget] at hn
    split at hn
    · cases hn
    · split at hn
      · split at hn
        · cases hn
        · exact ⟨log_fd, hold log_fd hn⟩
      · split at hn
        · cases hn
        · exact ⟨n, hold n hn⟩

end

/-- `_continue_in_intermediate_process` loses neither the lock nor the socket. -/
theorem Proc.WellFormed.prepare (h : pr.WellFormed) (hsingle : pr.Single) {log_fd : Nat}
    {sock : Listener} {listed : Nat → Bool} (ht : pr.threads t = .intermediate l log_fd sock)
    (hfds : continueInIntermediateProcess listed log_fd l.fd sock.fd pr.fds = .ok fds) :
    ({ pr with fds := fds }.enter t (.prepared l sock)).WellFormed := by
  obtain ⟨hfail, habsent⟩ := hsingle t l log_fd sock ht
  have hnodup := h.nodup (some t)
  have hrefs : pr.refs (some t) = [l.ref, (log_fd, .file), sock.ref] := by
    simp [refs, ht, Phase.refs]
  rw [hrefs] at hnodup
  simp only [List.map_cons, List.map_nil, List.nodup_cons, List.mem_cons, List.not_mem_nil,
    or_false, not_or, LockFile.ref, Listener.ref] at hnodup
  have hkept : ∀ r ∈ (Phase.prepared l sock).refs, r ∈ pr.refs (some t) ∧ r.2 ≠ .file ∧
      r.1 ≠ log_fd ∧ (r.1 = l.fd ∨ r.1 = sock.fd) := by
    intro r hr
    rw [hrefs]
    simp only [Phase.refs, List.mem_cons, List.not_mem_nil, or_false] at hr
    rcases hr with rfl | rfl
    · exact ⟨by simp, by simp [LockFile.ref], hnodup.1.1, .inl rfl⟩
    · exact ⟨by simp, by simp [Listener.ref], Ne.symm hnodup.2.1, .inr rfl⟩
  have hpref : ∀ a, ({ pr with fds := fds }.enter t (.prepared l sock)).refs a =
      if a = some t then (Phase.prepared l sock).refs else [] := by
    intro a
    rw [refs_enter]
    split
    · rfl
    · next ha =>
      cases a with
      | none => simp [refs, hfail]
      | some u => simp [refs, habsent u (fun heq => ha (congrArg some heq)), Phase.refs]
  have hmem : ∀ a, ∀ r ∈ ({ pr with fds := fds }.enter t (.prepared l sock)).refs a,
      a = some t ∧ r ∈ (Phase.prepared l sock).refs := by
    intro a r hr
    rw [hpref] at hr
    split at hr
    · next ha => exact ⟨ha, hr⟩
    · cases hr
  constructor
  · intro a r hr
    obtain ⟨-, hr'⟩ := hmem a r hr
    obtain ⟨hold, hfile, hlog, hwhich⟩ := hkept r hr'
    show fds.get r.1 = some r.2
    rw [continueInIntermediateProcess_keeps hfds hwhich hlog, if_neg (h.off _ r hold hfile)]
    exact h.refers _ r hold
  · exact fun a b r hr r' hr' _ => (hmem a r hr).1.trans (hmem b r' hr').1.symm
  · intro a
    rw [hpref]
    split
    · simpa [Phase.refs, LockFile.ref, Listener.ref] using hnodup.1.2
    · exact List.nodup_nil
  · intro a r hr
    obtain ⟨-, hr'⟩ := hmem a r hr
    obtain ⟨hold, hfile, -⟩ := hkept r hr'
    exact fun _ => h.off _ r hold hfile

/-! ## Keeping the lock -/

/-- The lock moves from the thread to `_launch_failure_fd_lock`. -/
theorem Proc.WellFormed.keep (h : pr.WellFormed) (ht : pr.threads t = .preventing l) :
    ({ pr.enter t .idle with launch_failure_fd_lock := some l } : Proc P).WellFormed := by
  have hmine : l.ref ∈ pr.refs (some t) := by simp [refs, ht, Phase.refs]
  let pr' : Proc P := { pr.enter t .idle with launch_failure_fd_lock := some l }
  have hmem : ∀ a, ∀ r ∈ pr'.refs a,
      (a = none ∧ r = l.ref) ∨ (a ≠ none ∧ a ≠ some t ∧ r ∈ pr.refs a) := by
    intro a r hr
    cases a with
    | none => exact .inl ⟨rfl, List.mem_singleton.mp hr⟩
    | some u =>
      have hr' : r ∈ (pr.enter t .idle).refs (some u) := hr
      rw [refs_enter] at hr'
      split at hr'
      · cases hr'
      · next hu => exact .inr ⟨Option.some_ne_none u, hu, hr'⟩
  constructor
  · intro a r hr
    rcases hmem a r hr with ⟨-, rfl⟩ | ⟨-, -, hold⟩
    · exact h.refers (some t) _ hmine
    · exact h.refers a r hold
  · intro a b r hr r' hr' hnum
    rcases hmem a r hr with ⟨rfl, rfl⟩ | ⟨-, hat, hold⟩ <;>
      rcases hmem b r' hr' with ⟨rfl, rfl⟩ | ⟨-, hbt, hold'⟩
    · rfl
    · exact absurd (h.apart _ _ _ hmine r' hold' hnum).symm hbt
    · exact absurd (h.apart _ _ r hold _ hmine hnum) hat
    · exact h.apart a b r hold r' hold' hnum
  · intro a
    cases a with
    | none =>
      show [l.fd].Nodup
      simp
    | some u =>
      show (((pr.enter t .idle).refs (some u)).map Prod.fst).Nodup
      rw [refs_enter]
      split
      · exact List.nodup_nil
      · exact h.nodup (some u)
  · intro a r hr
    rcases hmem a r hr with ⟨-, rfl⟩ | ⟨-, -, hold⟩
    · exact h.off (some t) _ hmine
    · exact h.off a r hold

end DdAppsec.Extension.Launch
