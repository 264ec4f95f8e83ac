import DdAppsec.Helper.Client
import DdAppsec.Helper.RemoteConfig.AsmFeatures
import DdAppsec.Helper.ServiceManager

/-!
# Helper — client_init, and the order in which clients connect

A client without an `enabled` setting of its own follows the ASM status of
its service, and that status moves only in the listener of ASM_FEATURES.
Whether a service has the listener is fixed by the client that CREATES it,
while `service_manager` hands the service to every later client of the same
(service, env).

`OrderFree` says that the order of connecting makes no difference;
`order_free_iff` says for which sets of clients that is so.
-/

namespace DdAppsec.Helper

open Lib

variable {Sub : Type}

/-! ## client_init -/

/-- The fields of `client_init::request` that its handler uses. -/
structure ClientInitRequest where
  service : ServiceIdentifier
  enabledConfiguration : Option Bool
  engineSettings : EngineSettings
  rcSettings : RcSettings

/-- A client about to send `client_init`: the request, and what it finds
(the file system, the next random uuid, whether the response is sent). -/
structure Newcomer where
  request : ClientInitRequest
  files : FileSystem
  uuid : Bytes
  send : SendOutcome

/-- What `create_service` is called with. -/
def Newcomer.args (n : Newcomer) : CreateArgs where
  files := n.files
  id := { n.request.service with
    runtimeId :=
      if n.request.service.runtimeId.isEmpty then n.uuid else n.request.service.runtimeId }
  settings := n.request.engineSettings
  rc := n.request.rcSettings
  dynamicEnablement := !n.request.enabledConfiguration.isSome

/-- `client_init::response`: the status, and what was thrown. -/
structure ClientInitResponse where
  ok : Bool
  errors : List Exception

structure ClientInitOutcome (Sub : Type) where
  client : Client
  keep : Bool
  response : ClientInitResponse
  process : Process Sub

/-- `handle_command(client_init)` of a new client. -/
def clientInit (p : Platform Sub) (n : Newcomer) (st : Process Sub) : ClientInitOutcome Sub :=
  let client : Client := ⟨none, n.request.enabledConfiguration, false, none, 0⟩
  match st.createService p n.args with
  | (.ok s, st) =>
    ⟨{ client with service := some s }, decide (n.send = .sent), ⟨true, []⟩,
      { st with held := s :: st.held }⟩
  | (.error e, st) => ⟨client, false, ⟨false, [e]⟩, st⟩

/-- `run` up to the first request: a client that is not kept is destroyed,
and its reference with it. -/
def connect (p : Platform Sub) (n : Newcomer) (st : Process Sub) :
    Option Client × Process Sub :=
  let out := clientInit p n st
  if out.keep then (some out.client, out.process)
  else
    match out.client.service with
    | some s => (none, { out.process with held := out.process.held.erase s })
    | none => (none, out.process)

/-- Clients connecting one after the other, and those that stay connected. -/
def connectAll (p : Platform Sub) : List Newcomer → Process Sub →
    List (Newcomer × Client) × Process Sub
  | [], st => ([], st)
  | n :: rest, st =>
    let (client, st) := connect p n st
    let (clients, st) := connectAll p rest st
    ((client.map fun c => (n, c)).toList ++ clients, st)

/-! ## The status of a client -/

/-- The service's remote config client asks for ASM_FEATURES. -/
def Service.subscribes (service : Service Sub) : Bool :=
  match service.clientHandler with
  | some handler => (handler.products[RemoteConfig.asmFeaturesProduct]?).isSome
  | none => false

/-- The status of a service's configuration when the agent's ASM_FEATURES
say `remote`: the listener stores it, and without the listener the status
stays (`Service.status_unsubscribed`). -/
def Service.statusUnder (service : Service Sub) (remote : EnableAsmStatus) : EnableAsmStatus :=
  if service.subscribes then remote else service.world.status

/-- The service a client is attached to. -/
def Process.serviceOf (st : Process Sub) (client : Client) : Option (Service Sub) :=
  client.service.bind fun s => st.services[s]?

/-- What `compute_client_status` returns to an attached client. -/
def enabledUnder (remote : EnableAsmStatus) (st : Process Sub) (client : Client) : Option Bool :=
  (st.serviceOf client).map fun service =>
    (client.computeClientStatus (service.statusUnder remote)).requestEnabled

/-- **The order of connecting makes no difference**: whatever it is, a client
without a setting is attached to a service that subscribes to ASM_FEATURES
and follows the remote status, and a client has the same status in any two
orders. -/
structure OrderFree (p : Platform Sub) (st : Process Sub) (clients : List Newcomer) : Prop where
  subscribed : ∀ order : List Newcomer, order.Perm clients →
    ∀ n client, (n, client) ∈ (connectAll p order st).1 →
      n.request.enabledConfiguration = none →
      ((connectAll p order st).2.serviceOf client).map Service.subscribes = some true
  follows : ∀ order : List Newcomer, order.Perm clients →
    ∀ n client, (n, client) ∈ (connectAll p order st).1 →
      n.request.enabledConfiguration = none → ∀ remote,
      enabledUnder remote (connectAll p order st).2 client = some (decide (remote = .enabled))
  same : ∀ order order' : List Newcomer, order.Perm clients → order'.Perm clients →
    ∀ n client client', (n, client) ∈ (connectAll p order st).1 →
      (n, client') ∈ (connectAll p order' st).1 → ∀ remote,
      enabledUnder remote (connectAll p order st).2 client =
        enabledUnder remote (connectAll p order' st).2 client'

/-- Making a service for this client does not throw. -/
def Newcomer.Creates (p : Platform Sub) (n : Newcomer) : Prop :=
  ∃ service, n.args.build p = .ok service

/-! ## Subscriptions -/

variable {p : Platform Sub} {st : Process Sub}

/-- A service made with remote config enabled subscribes to ASM_FEATURES
exactly when its creator asked for dynamic enablement. -/
theorem build_subscribes {a : CreateArgs} {service : Service Sub}
    (h : a.build p = .ok service) (hrc : a.rc.enabled = true) :
    service.subscribes = a.dynamicEnablement := by
  unfold CreateArgs.build Service.fromSettings at h
  split at h
  · cases h
  · cases h
    rw [Bool.eq_iff_iff]
    simp only [Service.subscribes, clientHandlerFromSettings, hrc, Bool.not_true,
      Bool.false_eq_true, if_false]
    cases hdyn : a.dynamicEnablement with
    | true =>
      -- the features listener comes first
      have hmem : RemoteConfig.asmFeaturesListener p.deps ∈
          RemoteConfig.serviceListeners p.deps p.updateSub (a.settings.rulesFileOrDefault p)
            true a.settings.rulesFile.isEmpty := by
        simp [RemoteConfig.serviceListeners]
      rw [if_neg (by simpa using List.ne_nil_of_mem hmem)]
      simp only [RemoteConfig.Client.new_isSome, iff_true]
      exact ⟨_, hmem, List.mem_cons_self ..⟩
    | false =>
      refine iff_of_false ?_ Bool.false_ne_true
      split
      · rename_i handler heq
        split at heq
        · cases heq
        · cases heq
          rw [RemoteConfig.Client.new_isSome]
          rintro ⟨l, hl, hname⟩
          have hl : l = RemoteConfig.engineListener p.deps p.updateSub
              (a.settings.rulesFileOrDefault p) := by
            simp only [RemoteConfig.serviceListeners, Bool.false_eq_true, if_false,
              List.nil_append] at hl
            split at hl
            · exact List.mem_singleton.mp hl
            · cases hl
          subst hl
          have hno : RemoteConfig.asmFeaturesProduct ∉ [RemoteConfig.asmProduct,
            RemoteConfig.asmDdProduct, RemoteConfig.asmDataProduct] := by decide
          exact hno hname
      · exact Bool.false_ne_true

/-- The state of a remote config client without ASM_FEATURES. -/
structure Unsubscribed (p : Platform Sub) (a : CreateArgs) (status : EnableAsmStatus)
    (s : RemoteConfig.Service Sub) : Prop where
  inv : s.Inv p.deps p.updateSub (a.settings.rulesFileOrDefault p) a.dynamicEnablement
    a.settings.rulesFile.isEmpty
  absent : s.1.products[RemoteConfig.asmFeaturesProduct]? = none
  status : s.2.status = status

theorem Unsubscribed.step {a : CreateArgs} {status : EnableAsmStatus}
    {s s' : RemoteConfig.Service Sub} {poll : RemoteConfig.Poll}
    (h : Unsubscribed p a status s) (hpoll : RemoteConfig.processPoll s poll = some s') :
    Unsubscribed p a status s' := by
  have hkept : s'.1.products[RemoteConfig.asmFeaturesProduct]? = none ∧
      s'.2.status = s.2.status := by
    cases ht : poll.response.targets with
    | none =>
      rw [RemoteConfig.processPoll_no_targets hpoll ht]
      exact ⟨h.absent, rfl⟩
    | some targets =>
      obtain ⟨_, _, ⟨_, habsent, hsame⟩ | ⟨p, _, _, _, hp, _⟩⟩ :=
        RemoteConfig.processPoll_features h.inv hpoll ht
      · exact ⟨habsent, hsame⟩
      · rw [h.absent] at hp
        cases hp
  exact ⟨h.inv.step hpoll, hkept.1, hkept.2.trans h.status⟩

/-- **Without the listener the status stays as it was made**, whatever the
agent answers. -/
theorem Service.status_unsubscribed {a : CreateArgs} {service : Service Sub}
    (h : a.build p = .ok service) (hsub : service.subscribes = false)
    {handler : RemoteConfig.Client (RemoteConfig.World Sub)}
    (hhandler : service.clientHandler = some handler) {polls : List RemoteConfig.Poll}
    {s' : RemoteConfig.Service Sub}
    (hrun : run RemoteConfig.processPoll (handler, service.world) polls = some s') :
    s'.2.status = service.world.status := by
  have hstart : Unsubscribed p a service.world.status (handler, service.world) := by
    simp only [Service.subscribes, hhandler] at hsub
    refine ⟨?_, Option.not_isSome_iff_eq_none.mp (by rw [hsub]; exact Bool.false_ne_true), rfl⟩
    unfold CreateArgs.build Service.fromSettings at h
    split at h
    · cases h
    · cases h
      simp only [clientHandlerFromSettings] at hhandler
      split at hhandler
      · cases hhandler
      · split at hhandler
        · cases hhandler
        · cases hhandler
          exact RemoteConfig.Service.Inv.start _
  exact (run_preserves (Unsubscribed p a service.world.status)
    (fun _ _ _ hinv hpoll => hinv.step hpoll) hstart hrun).status

/-! ## Connecting -/

/-- The client that `client_init` leaves, attached to service `s`. -/
def Newcomer.attached (n : Newcomer) (s : Nat) : Client :=
  ⟨some s, n.request.enabledConfiguration, false, none, 0⟩

/-- **`connect`, inverted**: the client is attached to the live service of
the entry; without one it is refused and nothing changes, or a service is
made. It stays connected if its response is sent. -/
theorem connect_cases (p : Platform Sub) (n : Newcomer) (st : Process Sub) :
    (∃ s held, st.manager.cache.find n.args.id.key = some s ∧ st.alive s = true ∧
      connect p n st = (if n.send = .sent then some (n.attached s) else none,
        { st with held := held })) ∨
    ((∀ s, st.manager.cache.find n.args.id.key = some s → st.alive s = false) ∧
      ((∃ e, n.args.build p = .error e ∧ connect p n st = (none, st)) ∨
        ∃ service held, n.args.build p = .ok service ∧
          connect p n st = (if n.send = .sent then some (n.attached st.services.length) else none,
            { st.adopt service with held := held }))) := by
  rcases st.createService_cases p n.args with
    ⟨s, hfind, halive, heq⟩ | ⟨hdead, ⟨e, hbuild, heq⟩ | ⟨service, hbuild, heq⟩⟩
  · refine Or.inl ⟨s, if n.send = .sent then s :: st.held else st.held, hfind, halive, ?_⟩
    by_cases hsend : n.send = .sent <;>
      simp [connect, clientInit, heq, hsend, Newcomer.attached]
  · refine Or.inr ⟨hdead, Or.inl ⟨e, hbuild, ?_⟩⟩
    simp only [connect, clientInit, heq]
    rfl
  · refine Or.inr ⟨hdead, Or.inr ⟨service,
      if n.send = .sent then st.services.length :: st.held else st.held, hbuild, ?_⟩⟩
    by_cases hsend : n.send = .sent <;>
      simp [connect, clientInit, heq, hsend, Process.adopt, Newcomer.attached]

/-- The manager has a service for `key` and keeps it alive itself. -/
def Serves (st : Process Sub) (key : Bytes × Bytes) (s : Nat) : Prop :=
  st.manager.cache.find key = some s ∧ st.manager.lastService = some s

/-- **Run lemma** once the service exists: everybody is attached to it. -/
theorem connectAll_serves {key : Bytes × Bytes} {s : Nat} (order : List Newcomer) :
    ∀ {st : Process Sub}, Serves st key s → (∀ n ∈ order, n.args.id.key = key) →
      (connectAll p order st).2.services = st.services ∧
      ∀ n client, (n, client) ∈ (connectAll p order st).1 ↔
        n ∈ order ∧ n.send = .sent ∧ client = n.attached s := by
  induction order with
  | nil =>
    intro st _ _
    simp [connectAll]
  | cons n order ih =>
    intro st hserves hkey
    have hn : n.args.id.key = key := hkey n (List.mem_cons_self ..)
    have halive : st.alive s = true := (st.alive_iff s).mpr (Or.inr hserves.2)
    -- the entry is alive through `last_service_`, so nobody makes another service
    rcases connect_cases p n st with ⟨s', held, hfind, _, heq⟩ | ⟨hdead, _⟩
    · rw [hn, hserves.1] at hfind
      cases hfind
      obtain ⟨hservices, hclients⟩ := @ih { st with held := held } hserves
        (fun n' hn' => hkey n' (List.mem_cons_of_mem _ hn'))
      simp only [connectAll, heq]
      refine ⟨hservices, fun n' client => ?_⟩
      rw [List.mem_append, hclients, List.mem_cons]
      by_cases hsend : n.send = .sent
      · simp only [if_pos hsend, Option.map_some, Option.toList_some, List.mem_singleton,
          Prod.mk.injEq]
        grind
      · simp only [if_neg hsend, Option.map_none, Option.toList_none, List.not_mem_nil]
        grind
    · rw [hdead s (hn ▸ hserves.1)] at halive
      cases halive

/-- A service made for an identity without an entry is then served. -/
theorem Process.adopt_serves (service : Service Sub) (held : List Nat)
    (hnone : st.manager.cache.find service.id.key = none) :
    Serves { st.adopt service with held := held } service.id.key st.services.length :=
  ⟨WeakCache.find_sweep (WeakCache.find_emplace_self hnone)
    ((st.adopt_alive service _).mpr (Or.inr rfl)), rfl⟩

/-- **Run lemma** from a process without a service for `key`: everybody who
stays connected is attached to the service of one creator among them. -/
theorem connectAll_creator {key : Bytes × Bytes} (order : List Newcomer)
    (hnone : st.manager.cache.find key = none) (hkey : ∀ n ∈ order, n.args.id.key = key)
    {n : Newcomer} {client : Client} (h : (n, client) ∈ (connectAll p order st).1) :
    n ∈ order ∧ n.send = .sent ∧
    ∃ s creator service, creator ∈ order ∧ creator.args.build p = .ok service ∧
      client = n.attached s ∧ (connectAll p order st).2.services[s]? = some service := by
  induction order with
  | nil => simp [connectAll] at h
  | cons n' order ih =>
    have hn' : n'.args.id.key = key := hkey n' (List.mem_cons_self ..)
    have hrest : ∀ n ∈ order, n.args.id.key = key :=
      fun n hn => hkey n (List.mem_cons_of_mem _ hn)
    rcases connect_cases p n' st with
      ⟨s, _, hfind, _⟩ | ⟨_, ⟨e, _, heq⟩ | ⟨service, held, hbuild, heq⟩⟩
    · rw [hn', hnone] at hfind
      cases hfind
    · -- making the service failed: the next one in line starts afresh
      simp only [connectAll, heq, Option.map_none, Option.toList_none, List.nil_append] at h ⊢
      obtain ⟨hmem, hsend, s, creator, service, hcreator, hfacts⟩ := ih hrest h
      exact ⟨List.mem_cons_of_mem _ hmem, hsend, s, creator, service,
        List.mem_cons_of_mem _ hcreator, hfacts⟩
    · have hid := CreateArgs.build_id hbuild
      have hserves := Process.adopt_serves service held (by rw [hid, hn', hnone])
      rw [hid, hn'] at hserves
      obtain ⟨hservices, hclients⟩ := connectAll_serves (p := p) order hserves hrest
      simp only [connectAll, heq] at h ⊢
      have hclient : n ∈ n' :: order ∧ n.send = .sent ∧
          client = n.attached st.services.length := by
        rw [List.mem_append, hclients] at h
        by_cases hsend : n'.send = .sent
        · simp only [if_pos hsend, Option.map_some, Option.toList_some, List.mem_singleton,
            Prod.mk.injEq] at h
          grind
        · simp only [if_neg hsend, Option.map_none, Option.toList_none, List.not_mem_nil] at h
          grind
      refine ⟨hclient.1, hclient.2.1, _, n', service, List.mem_cons_self .., hbuild,
        hclient.2.2, ?_⟩
      rw [hservices]
      exact List.getElem?_concat_length ..

/-! ## Every order -/

theorem serviceOf_attached {n : Newcomer} {s : Nat} {service : Service Sub}
    (h : st.services[s]? = some service) : st.serviceOf (n.attached s) = some service := by
  simp [Process.serviceOf, Newcomer.attached, h]

/-- The status of an attached client: its own setting, or its service's. -/
theorem enabledUnder_attached {n : Newcomer} {s : Nat} {service : Service Sub}
    (h : st.services[s]? = some service) (remote : EnableAsmStatus) :
    enabledUnder remote st (n.attached s) =
      some (n.request.enabledConfiguration.getD
        (decide (service.statusUnder remote = .enabled))) := by
  rw [enabledUnder, serviceOf_attached h]
  cases hconf : n.request.enabledConfiguration <;>
    simp [Client.computeClientStatus, Newcomer.attached, hconf]

/-- What the creator decides for everybody. -/
theorem subscribes_of_creator {creator : Newcomer} {service : Service Sub}
    (hbuild : creator.args.build p = .ok service)
    (hrc : creator.request.rcSettings.enabled = true) :
    service.subscribes = true ↔ creator.request.enabledConfiguration = none := by
  rw [build_subscribes hbuild hrc]
  show (!creator.request.enabledConfiguration.isSome) = true ↔ _
  cases creator.request.enabledConfiguration <;> simp

section Order

variable {key : Bytes × Bytes} {clients : List Newcomer}

/-- If creators have no setting, every service subscribes. -/
theorem orderFree_of_creators (hfresh : st.manager.cache.find key = none)
    (hkey : ∀ n ∈ clients, n.request.service.key = key)
    (hrc : ∀ n ∈ clients, n.request.rcSettings.enabled = true)
    (hcreators : ∀ n ∈ clients, n.send = .sent → n.request.enabledConfiguration = none →
      ∀ creator ∈ clients, creator.Creates p → creator.request.enabledConfiguration = none) :
    OrderFree p st clients := by
  -- where a connected client ends up, for any order
  have hends : ∀ order : List Newcomer, order.Perm clients →
      ∀ n client, (n, client) ∈ (connectAll p order st).1 → ∃ s service,
        client = n.attached s ∧ (connectAll p order st).2.services[s]? = some service ∧
        (n.request.enabledConfiguration = none → service.subscribes = true) := by
    intro order hperm n client h
    have hmem : ∀ m, m ∈ order → m ∈ clients := fun m => hperm.mem_iff.mp
    obtain ⟨hn, hsend, s, creator, service, hcreator, hbuild, hclient, hservice⟩ :=
      connectAll_creator order hfresh (fun m hm => hkey m (hmem m hm)) h
    refine ⟨s, service, hclient, hservice, fun hconf => ?_⟩
    rw [subscribes_of_creator hbuild (hrc _ (hmem _ hcreator))]
    exact hcreators n (hmem _ hn) hsend hconf creator (hmem _ hcreator) ⟨service, hbuild⟩
  have hfollows : ∀ order : List Newcomer, order.Perm clients →
      ∀ n client, (n, client) ∈ (connectAll p order st).1 → ∀ remote,
        enabledUnder remote (connectAll p order st).2 client =
          some (n.request.enabledConfiguration.getD (decide (remote = .enabled))) := by
    intro order hperm n client h remote
    obtain ⟨s, service, rfl, hservice, hsub⟩ := hends order hperm n client h
    rw [enabledUnder_attached hservice]
    cases hconf : n.request.enabledConfiguration with
    | some enabled => rfl
    | none => simp [Service.statusUnder, hsub hconf]
  constructor
  · intro order hperm n client h hconf
    obtain ⟨s, service, rfl, hservice, hsub⟩ := hends order hperm n client h
    rw [serviceOf_attached hservice, Option.map_some, hsub hconf]
  · intro order hperm n client h hconf remote
    rw [hfollows order hperm n client h, hconf]
    rfl
  · intro order order' hperm hperm' n client client' h h' remote
    rw [hfollows order hperm n client h, hfollows order' hperm' n client' h']

/-- Two different members can be put first. -/
theorem exists_perm_cons_cons {α : Type} {a b : α} {l : List α} (ha : a ∈ l) (hb : b ∈ l)
    (hne : b ≠ a) : ∃ rest, (a :: b :: rest).Perm l := by
  obtain ⟨s, t, rfl⟩ := List.append_of_mem ha
  have hb' : b ∈ s ++ t := by
    rcases List.mem_append.mp hb with h | h
    · exact List.mem_append_left _ h
    · rcases List.mem_cons.mp h with h | h
      · exact absurd h hne
      · exact List.mem_append_right _ h
  obtain ⟨s', t', hst⟩ := List.append_of_mem hb'
  refine ⟨s' ++ t', ?_⟩
  calc (a :: b :: (s' ++ t')).Perm (a :: (s' ++ b :: t')) := (List.perm_middle.symm).cons a
    _ = (a :: (s ++ t)) := by rw [hst]
    List.Perm _ (s ++ a :: t) := List.perm_middle.symm

/-- A creator with a setting, connecting first, leaves a client without one
on a service that does not subscribe. -/
theorem not_orderFree (hfresh : st.manager.cache.find key = none)
    (hkey : ∀ n ∈ clients, n.request.service.key = key)
    (hrc : ∀ n ∈ clients, n.request.rcSettings.enabled = true)
    {n creator : Newcomer} (hn : n ∈ clients) (hsend : n.send = .sent)
    (hconf : n.request.enabledConfiguration = none) (hcreator : creator ∈ clients)
    (hcreates : creator.Creates p) (hset : creator.request.enabledConfiguration ≠ none) :
    ¬ OrderFree p st clients := by
  intro hfree
  have hne : n ≠ creator := fun h => hset (h ▸ hconf)
  obtain ⟨rest, hperm⟩ := exists_perm_cons_cons hcreator hn hne
  obtain ⟨service, hbuild⟩ := hcreates
  have hkeys : ∀ m ∈ creator :: n :: rest, m.args.id.key = key :=
    fun m hm => hkey m (hperm.mem_iff.mp hm)
  rcases connect_cases p creator st with
    ⟨s, _, hfind, _⟩ | ⟨_, ⟨e, herr, _⟩ | ⟨service', held, hbuild', heq⟩⟩
  · rw [hkeys creator (List.mem_cons_self ..), hfresh] at hfind
    cases hfind
  · rw [hbuild] at herr
    cases herr
  · rw [hbuild] at hbuild'
    cases hbuild'
    have hid : service.id.key = key := by
      rw [CreateArgs.build_id hbuild]
      exact hkeys creator (List.mem_cons_self ..)
    have hserves := Process.adopt_serves service held (by rw [hid, hfresh])
    rw [hid] at hserves
    obtain ⟨hservices, hclients⟩ := connectAll_serves (p := p) (n :: rest) hserves
      (fun m hm => hkeys m (List.mem_cons_of_mem _ hm))
    have hmem : (n, n.attached st.services.length) ∈
        (connectAll p (creator :: n :: rest) st).1 := by
      rw [connectAll, heq]
      refine List.mem_append_right _ ?_
      exact (hclients _ _).mpr ⟨List.mem_cons_self .., hsend, rfl⟩
    have hservice : (connectAll p (creator :: n :: rest) st).2.services[st.services.length]? =
        some service := by
      rw [connectAll, heq]
      show (connectAll p (n :: rest) _).2.services[_]? = _
      rw [hservices]
      exact List.getElem?_concat_length ..
    have hsub := hfree.subscribed _ hperm n _ hmem hconf
    rw [serviceOf_attached hservice, Option.map_some, Option.some.injEq,
      subscribes_of_creator hbuild (hrc _ hcreator)] at hsub
    exact hset hsub

end Order

/-- **When the order makes no difference**: exactly when every client that
stays connected has a setting of its own, or no client with a setting can
create the service. -/
theorem order_free_iff (p : Platform Sub) (st : Process Sub) (key : Bytes × Bytes)
    (rc : RcSettings) (clients : List Newcomer) (hfresh : st.manager.cache.find key = none)
    (hkey : ∀ n ∈ clients, n.request.service.key = key)
    (hrc : ∀ n ∈ clients, n.request.rcSettings = rc) (henabled : rc.enabled = true) :
    OrderFree p st clients ↔
      (∀ n ∈ clients, n.send = .sent → n.request.enabledConfiguration ≠ none) ∨
        ∀ n ∈ clients, n.request.enabledConfiguration ≠ none → ¬ n.Creates p := by
  have hrc' : ∀ n ∈ clients, n.request.rcSettings.enabled = true :=
    fun n hn => (hrc n hn).symm ▸ henabled
  constructor
  · intro hfree
    by_contra hcon
    push Not at hcon
    obtain ⟨⟨n, hn, hsend, hconf⟩, creator, hcreator, hset, hcreates⟩ := hcon
    exact not_orderFree hfresh hkey hrc' hn hsend hconf hcreator hcreates hset hfree
  · intro hcond
    refine orderFree_of_creators hfresh hkey hrc' ?_
    intro n hn hsend hconf creator hcreator hcreates
    rcases hcond with h | h
    · exact absurd hconf (h n hn hsend)
    · exact not_not.mp fun hset => h creator hcreator hset hcreates

/-- A client of the service `a` with remote config enabled. -/
def Newcomer.plain (enabledConfiguration : Option Bool) : Newcomer where
  request := ⟨⟨"a", [], [], [], [], []⟩, enabledConfiguration, .plain, ⟨true, [], 8126, 1000⟩⟩
  files := fun _ => some "\x7b\x7d"
  uuid := "1b4e28ba"
  send := .sent

/-- One that is explicitly enabled and whose rules file is missing. -/
def Newcomer.withoutRules : Newcomer := { Newcomer.plain (some true) with files := fun _ => none }

theorem Newcomer.withoutRules_not_creates : ¬ Newcomer.withoutRules.Creates Platform.plain := by
  rintro ⟨service, hbuild⟩
  have herror : Newcomer.withoutRules.args.build Platform.plain = .error .systemError := rfl
  rw [herror] at hbuild
  cases hbuild

/-- Whatever the order, it is a client without a setting that makes the service. -/
theorem client_without_rules_order_free :
    OrderFree Platform.plain .start [.plain none, .withoutRules, .plain none] := by
  have hmem {P : Newcomer → Prop} (hplain : P (.plain none)) (hwithout : P .withoutRules) :
      ∀ n ∈ [Newcomer.plain none, .withoutRules, .plain none], P n := by
    simp [hplain, hwithout]
  refine (order_free_iff .plain .start ("a", []) ⟨true, [], 8126, 1000⟩ _ rfl ?_ ?_ rfl).mpr
    (Or.inr ?_)
  · exact hmem rfl rfl
  · exact hmem rfl rfl
  · exact hmem (fun h => absurd rfl h) fun _ => Newcomer.withoutRules_not_creates

/-- A client that is explicitly enabled connects first: the second one never
sees the remote status. -/
theorem explicit_client_first_pins_status :
    ¬ OrderFree Platform.plain .start [.plain none, .plain (some true)] := by
  intro h
  have hsub := h.subscribed [.plain (some true), .plain none] (List.Perm.swap ..) _ _
    (List.mem_cons_of_mem _ (List.mem_cons_self ..)) rfl
  exact absurd hsub (by decide +kernel)

end DdAppsec.Helper
