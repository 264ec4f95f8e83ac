import DdAppsec.Helper.RemoteConfig.Service
import DdAppsec.Lib.Runs
import DdAppsec.Lib.WeakCache

/-!
# Helper — the service manager

`service_manager` shares one service among the clients with the same
(service, env). Its cache holds weak pointers, `last_service_` keeps the
last service it made, and clients keep theirs. A `Process` is the manager
with all the services ever made, numbered, and the strong references of
clients; `Process.alive` is `!expired()`.

The purpose is `OnePerIdentity`. What breaks it is `emplace` on a key whose
entry has expired: it leaves the old entry, which the sweep then removes, so
the new service lives without an entry. `NoExpired` excludes that;
`one_service_per_identity` is the run theorem.
-/

namespace DdAppsec.Helper

open Lib

/-! ## Settings and services -/

structure ServiceIdentifier where
  service : Bytes
  extraServices : List Bytes
  env : Bytes
  tracerVersion : Bytes
  appVersion : Bytes
  runtimeId : Bytes
  deriving DecidableEq

/-- What `operator==` and `hash` look at. -/
def ServiceIdentifier.key (id : ServiceIdentifier) : Bytes × Bytes := (id.service, id.env)

/-- `schema_extraction_settings`; the rate is a double, given by its bits. -/
structure SchemaExtractionSettings where
  enabled : Bool
  sampleRate : UInt64

structure EngineSettings where
  rulesFile : Bytes
  wafTimeoutUs : UInt64
  traceRateLimit : UInt32
  obfuscatorKeyRegex : Bytes
  obfuscatorValueRegex : Bytes
  schemaExtraction : SchemaExtractionSettings

/-- `remote_config::settings`. -/
structure RcSettings where
  enabled : Bool
  host : Bytes
  port : UInt32
  pollInterval : UInt32

/-- What is outside the manager: third-party functions, the WAF, and
`default_rules_file()`. -/
structure Platform (Sub : Type) where
  deps : Deps
  load : EngineSettings → EngineRuleset → Except Exception Sub
  updateSub : Sub → Parameter → Option Sub
  defaultRulesFile : Bytes

variable {Sub : Type}

def EngineSettings.rulesFileOrDefault (p : Platform Sub) (settings : EngineSettings) : Bytes :=
  if settings.rulesFile.isEmpty then p.defaultRulesFile else settings.rulesFile

/-- `dds::service`. Its `engine_` and `service_config_` are in `world`; `id`
is the identifier it was made for, which its remote config client keeps. -/
structure Service (Sub : Type) where
  id : ServiceIdentifier
  world : RemoteConfig.World Sub
  clientHandler : Option (RemoteConfig.Client (RemoteConfig.World Sub))
  sampleRate : UInt64

/-- `client_handler::from_settings`. -/
def clientHandlerFromSettings (p : Platform Sub) (settings : EngineSettings) (rc : RcSettings)
    (dynamicEnablement : Bool) : Option (RemoteConfig.Client (RemoteConfig.World Sub)) :=
  if !rc.enabled then none
  else
    let listeners := RemoteConfig.serviceListeners p.deps p.updateSub
      (settings.rulesFileOrDefault p) dynamicEnablement settings.rulesFile.isEmpty
    if listeners.isEmpty then none else some (RemoteConfig.Client.new listeners)

/-- `service::from_settings`, with the constructor. -/
def Service.fromSettings (p : Platform Sub) (files : FileSystem) (id : ServiceIdentifier)
    (settings : EngineSettings) (rc : RcSettings) (dynamicEnablement : Bool) :
    Except Exception (Service Sub) :=
  match Engine.fromSettings p.deps (p.load settings) files (settings.rulesFileOrDefault p) with
  | .error e => .error e
  | .ok engine => .ok {
      id := id
      world := RemoteConfig.World.start engine
      clientHandler := clientHandlerFromSettings p settings rc dynamicEnablement
      sampleRate :=
        if settings.schemaExtraction.enabled then settings.schemaExtraction.sampleRate else 0 }

/-! ## The manager -/

structure ServiceManager where
  lastService : Option Nat
  cache : WeakCache (Bytes × Bytes)

/-- The manager, every service it made, and one number in `held` for each
strong reference of a client. -/
structure Process (Sub : Type) where
  manager : ServiceManager
  services : List (Service Sub)
  held : List Nat

def Process.start : Process Sub := ⟨⟨none, .empty⟩, [], []⟩

/-- Somebody holds a strong reference. -/
def Process.alive (st : Process Sub) (s : Nat) : Bool :=
  decide (s ∈ st.held) || decide (st.manager.lastService = some s)

/-- What `create_service` is given. -/
structure CreateArgs where
  files : FileSystem
  id : ServiceIdentifier
  settings : EngineSettings
  rc : RcSettings
  dynamicEnablement : Bool

def CreateArgs.build (p : Platform Sub) (a : CreateArgs) : Except Exception (Service Sub) :=
  Service.fromSettings p a.files a.id a.settings a.rc a.dynamicEnablement

/-- The new service goes into the cache and into `last_service_`, and
`cleanup_cache` follows. -/
def Process.adopt (st : Process Sub) (service : Service Sub) : Process Sub :=
  let s := st.services.length
  let cache := st.manager.cache.emplace service.id.key s
  -- the previous `last_service_` is let go before the sweep
  let st := { st with
    services := st.services ++ [service]
    manager := ⟨some s, cache⟩ }
  { st with manager := ⟨some s, cache.sweep st.alive⟩ }

/-- `service_manager::create_service`. -/
def Process.createService (p : Platform Sub) (a : CreateArgs) (st : Process Sub) :
    Except Exception Nat × Process Sub :=
  match st.manager.cache.find a.id.key with
  | some s =>
    if st.alive s then (.ok s, st)
    -- an expired entry is not erased here, and `emplace` will not replace it
    else create
  | none => create
where
  create : Except Exception Nat × Process Sub :=
    match a.build p with
    | .error e => (.error e, st)
    | .ok service => (.ok st.services.length, st.adopt service)

/-! ## Runs -/

inductive ManagerStep where
  /-- a client asks for a service and keeps what it is given -/
  | create (a : CreateArgs)
  /-- a client gives a reference up -/
  | release (s : Nat)

def Process.step (p : Platform Sub) (st : Process Sub) : ManagerStep → Option (Process Sub)
  | .create a =>
    match st.createService p a with
    | (.ok s, st') => some { st' with held := s :: st'.held }
    | (.error _, st') => some st'
  | .release s => if s ∈ st.held then some { st with held := st.held.erase s } else none

/-- At most one live service per identity, found in the cache and returned
by `create_service`. -/
structure OnePerIdentity (p : Platform Sub) (st : Process Sub) : Prop where
  cached : ∀ (s : Nat) service, st.services[s]? = some service → st.alive s = true →
    st.manager.cache.find service.id.key = some s
  unique : ∀ (s s' : Nat) service service', st.services[s]? = some service →
    st.services[s']? = some service' → st.alive s = true → st.alive s' = true →
    service.id.key = service'.id.key → s = s'
  returned : ∀ (s : Nat) service (a : CreateArgs), st.services[s]? = some service →
    st.alive s = true → a.id.key = service.id.key → (st.createService p a).1 = .ok s

/-- The condition on a step: `create_service` meets no expired entry for its
identity, unless making the service throws. -/
def NoExpired (p : Platform Sub) (st : Process Sub) : ManagerStep → Prop
  | .create a => (∃ e, a.build p = .error e) ∨
      ∀ s, st.manager.cache.find a.id.key = some s → st.alive s = true
  | .release _ => True

/-! ## The invariant -/

variable {p : Platform Sub} {st st' : Process Sub}

/-- What every reachable state has: live services exist and are cached. -/
structure Process.Inv (st : Process Sub) : Prop where
  allocated : ∀ s, st.alive s = true → s < st.services.length
  cached : ∀ (s : Nat) service, st.services[s]? = some service → st.alive s = true →
    st.manager.cache.find service.id.key = some s

theorem Process.alive_iff (st : Process Sub) (s : Nat) :
    st.alive s = true ↔ s ∈ st.held ∨ st.manager.lastService = some s := by
  simp [Process.alive]

theorem Process.Inv.start : (Process.start : Process Sub).Inv where
  allocated := by simp [Process.alive, Process.start]
  cached := by simp [Process.start]

/-- The invariant only looks at services that are alive. -/
theorem Process.Inv.of_held (h : st.Inv) {held : List Nat}
    (hheld : ∀ s ∈ held, st.alive s = true) : ({ st with held := held } : Process Sub).Inv := by
  have hless : ∀ s, ({ st with held := held } : Process Sub).alive s = true →
      st.alive s = true := by
    intro s hs
    rw [Process.alive_iff] at hs
    rcases hs with hs | hs
    · exact hheld s hs
    · rw [Process.alive_iff]
      exact Or.inr hs
  exact ⟨fun s hs => h.allocated s (hless s hs),
    fun s service hservice hs => h.cached s service hservice (hless s hs)⟩

theorem Process.adopt_alive (st : Process Sub) (service : Service Sub) (s : Nat) :
    (st.adopt service).alive s = true ↔ s ∈ st.held ∨ s = st.services.length := by
  rw [Process.alive_iff]
  simp [Process.adopt, eq_comm]

/-- **Step lemma**: a service made for an identity without an entry gets
one, and the sweep leaves the entries of the others that are alive. -/
theorem Process.Inv.adopt (h : st.Inv) {service : Service Sub}
    (hnone : st.manager.cache.find service.id.key = none) : (st.adopt service).Inv := by
  have halive := st.adopt_alive service
  constructor
  · intro s hs
    show s < (st.services ++ [service]).length
    rw [List.length_append, List.length_singleton]
    rcases (halive s).mp hs with hs | rfl
    · have hlt := h.allocated s ((st.alive_iff s).mpr (Or.inl hs))
      omega
    · omega
  · intro s service' hservice hs
    have hservice : (st.services ++ [service])[s]? = some service' := hservice
    -- the entry is there before the sweep
    refine WeakCache.find_sweep ?_ hs
    rcases (halive s).mp hs with hheld | rfl
    · have hold : st.alive s = true := (st.alive_iff s).mpr (Or.inl hheld)
      have hlt := h.allocated s hold
      rw [List.getElem?_append_left hlt] at hservice
      exact WeakCache.find_emplace_of_some (h.cached s service' hservice hold)
    · rw [List.getElem?_concat_length] at hservice
      cases hservice
      exact WeakCache.find_emplace_self hnone

/-- **`create_service`, inverted**: it returns the live service of the entry;
without one it throws, or makes a service. -/
theorem Process.createService_cases (p : Platform Sub) (a : CreateArgs) (st : Process Sub) :
    (∃ s, st.manager.cache.find a.id.key = some s ∧ st.alive s = true ∧
      st.createService p a = (.ok s, st)) ∨
    ((∀ s, st.manager.cache.find a.id.key = some s → st.alive s = false) ∧
      ((∃ e, a.build p = .error e ∧ st.createService p a = (.error e, st)) ∨
        ∃ service, a.build p = .ok service ∧
          st.createService p a = (.ok st.services.length, st.adopt service))) := by
  have hcreate : st.createService p a = Process.createService.create p a st →
      (∃ e, a.build p = .error e ∧ st.createService p a = (.error e, st)) ∨
        ∃ service, a.build p = .ok service ∧
          st.createService p a = (.ok st.services.length, st.adopt service) := by
    intro heq
    rw [heq, Process.createService.create]
    cases a.build p with
    | error e => exact Or.inl ⟨e, rfl, rfl⟩
    | ok service => exact Or.inr ⟨service, rfl, rfl⟩
  cases hfind : st.manager.cache.find a.id.key with
  | none =>
    refine Or.inr ⟨by simp, hcreate ?_⟩
    rw [Process.createService, hfind]
  | some s =>
    cases halive : st.alive s with
    | true =>
      refine Or.inl ⟨s, rfl, halive, ?_⟩
      simp only [Process.createService, hfind, halive, if_true]
    | false =>
      refine Or.inr ⟨by simp [halive], hcreate ?_⟩
      simp only [Process.createService, hfind, halive, Bool.false_eq_true, if_false]

theorem CreateArgs.build_id {a : CreateArgs} {service : Service Sub}
    (h : a.build p = .ok service) : service.id = a.id := by
  unfold CreateArgs.build Service.fromSettings at h
  split at h
  · cases h
  · cases h
    rfl

/-- **Step lemma** for the whole step. -/
theorem Process.Inv.step (h : st.Inv) {i : ManagerStep} (hi : NoExpired p st i)
    (hstep : st.step p i = some st') : st'.Inv := by
  cases i with
  | create a =>
    rcases st.createService_cases p a with
      ⟨s, _, halive, heq⟩ | ⟨hdead, ⟨e, _, heq⟩ | ⟨service, hbuild, heq⟩⟩
    · simp only [Process.step, heq, Option.some.injEq] at hstep
      subst hstep
      refine h.of_held fun s' hs' => ?_
      rcases List.mem_cons.mp hs' with rfl | hs'
      · exact halive
      · exact (st.alive_iff s').mpr (Or.inl hs')
    · simp only [Process.step, heq, Option.some.injEq] at hstep
      exact hstep ▸ h
    · simp only [Process.step, heq, Option.some.injEq] at hstep
      subst hstep
      -- a dead entry would be an expired one
      have hnone : st.manager.cache.find a.id.key = none := by
        rcases hi with ⟨e, he⟩ | hlive
        · rw [hbuild] at he
          cases he
        · cases hfind : st.manager.cache.find a.id.key with
          | none => rfl
          | some s =>
            have := hlive s hfind
            simp [hdead s hfind] at this
      rw [← CreateArgs.build_id hbuild] at hnone
      refine (h.adopt hnone).of_held fun s' hs' => ?_
      rw [st.adopt_alive service]
      exact (List.mem_cons.mp hs').symm
  | release s =>
    simp only [Process.step] at hstep
    split at hstep
    · cases hstep
      exact h.of_held fun s' hs' => (st.alive_iff s').mpr (Or.inl (List.mem_of_mem_erase hs'))
    · cases hstep

theorem Process.Inv.onePerIdentity (h : st.Inv) : OnePerIdentity p st where
  cached := h.cached
  unique := by
    intro s s' service service' hs hs' ha ha' hkey
    have h1 := h.cached s service hs ha
    have h2 := h.cached s' service' hs' ha'
    rw [hkey, h2] at h1
    exact (Option.some.inj h1).symm
  returned := by
    intro s service a hs ha hkey
    have hfind := h.cached s service hs ha
    rw [← hkey] at hfind
    simp only [Process.createService, hfind, ha, if_true]

/-- **One service per identity** in every state that creations and releases
lead to, when no creation meets an expired entry for its identity. -/
theorem one_service_per_identity (p : Platform Sub) (steps : List ManagerStep)
    (h : Along (Process.step p) (NoExpired p) Process.start steps) :
    Throughout (Process.step p) (fun _ _ st => OnePerIdentity p st) Process.start steps := by
  refine throughout_of_invariant (C := NoExpired p) Process.Inv ?_ Process.Inv.start h
  intro st i st' hinv hi hstep
  have hinv' := hinv.step hi hstep
  exact ⟨hinv', hinv'.onePerIdentity⟩

/-- A platform whose rules file is an empty object. -/
def Platform.plain : Platform Unit where
  deps := .ofTables [] [("\x7b\x7d", .object [])]
  load := fun _ _ => .ok ()
  updateSub := fun _ _ => none
  defaultRulesFile := "recommended.json"

def EngineSettings.plain : EngineSettings :=
  ⟨[], 10000, 100, [], [], ⟨false, 0⟩⟩

/-- A client of the service `name` with remote config disabled. -/
def CreateArgs.plain (name : Bytes) : CreateArgs where
  files := fun _ => some "\x7b\x7d"
  id := ⟨name, [], [], [], [], []⟩
  settings := .plain
  rc := ⟨false, [], 8126, 1000⟩
  dynamicEnablement := true

/-- Two identities: a second client of each shares the service of the first,
also after a release. -/
def sharedRun : List ManagerStep :=
  [.create (.plain "a"), .create (.plain "a"), .create (.plain "b"), .release 0,
    .create (.plain "a"), .create (.plain "b")]

theorem later_clients_share :
    (run (Process.step .plain) .start sharedRun).map Process.held = some [1, 0, 1, 0] ∧
    Throughout (Process.step .plain) (fun _ _ st => OnePerIdentity .plain st) .start sharedRun := by
  refine ⟨rfl, one_service_per_identity _ _ ?_⟩
  -- an entry that a creation meets is that of a service with a client
  refine ⟨.inr fun s hs => ?_, fun st h => ?_⟩
  · cases hs
  cases h
  refine ⟨.inr fun s hs => ?_, fun st h => ?_⟩
  · cases hs
    rfl
  cases h
  refine ⟨.inr fun s hs => ?_, fun st h => ?_⟩
  · cases hs
  cases h
  refine ⟨trivial, fun st h => ?_⟩
  cases h
  refine ⟨.inr fun s hs => ?_, fun st h => ?_⟩
  · cases hs
    rfl
  cases h
  refine ⟨.inr fun s hs => ?_, fun _ _ => trivial⟩
  cases hs
  rfl

/-- Service `a` is made and released while `b` is the last service, so its
entry has expired when `a` is asked for again: the new service stays out of
the cache. -/
theorem expired_entry_hides_service :
    ¬ Throughout (Process.step .plain) (fun _ _ st => OnePerIdentity .plain st) .start
      [.create (.plain "a"), .create (.plain "b"), .release 0, .create (.plain "a")] := by
  intro h
  obtain ⟨_, h⟩ := h _ rfl
  obtain ⟨_, h⟩ := h _ rfl
  obtain ⟨_, h⟩ := h _ rfl
  obtain ⟨hone, _⟩ := h _ rfl
  have hcached := hone.cached 2 _ rfl rfl
  exact absurd hcached (by decide +kernel)

end DdAppsec.Helper
