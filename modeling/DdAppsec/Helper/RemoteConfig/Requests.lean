import DdAppsec.Helper.RemoteConfig.Client
import Mathlib.Data.List.Dedup

/-!
# RemoteConfig — what a client tells the agent

`Client.generateRequest` is `client::generate_request`: everything the
client stores, as `config_states` and `cached_target_files`, and how its
last poll went.

The agent knows a file by its PATH and the client stores it by PRODUCT AND
ID. `Config.StoredAt` ties the two together for every client a run can
reach, also one that an exception left half done. Two results rest on it:

* `cached_may_be_omitted` — a file the client lists may be left out;
* `reports_iff_stablePaths` — when the client lists what it was sent.
-/

namespace DdAppsec.Helper.RemoteConfig

open Lib

/-! ## The request -/

structure ConfigState where
  id : Bytes
  version : Int
  product : Bytes
  applyState : AppliedState
  applyError : Bytes
  deriving DecidableEq

structure CachedTargetFilesHash where
  algorithm : Bytes
  hash : Bytes
  deriving DecidableEq

structure CachedTargetFiles where
  path : Bytes
  length : Int
  hashes : List CachedTargetFilesHash
  deriving DecidableEq

structure ClientTracer where
  runtimeId : Bytes
  tracerVersion : Bytes
  service : Bytes
  extraServices : List Bytes
  env : Bytes
  appVersion : Bytes
  deriving DecidableEq

structure ClientState where
  targetsVersion : Int
  configStates : List ConfigState
  hasError : Bool
  error : Bytes
  backendClientState : Bytes
  deriving DecidableEq

/-- `protocol::client`. -/
structure ProtocolClient where
  id : Bytes
  products : List Bytes
  clientTracer : ClientTracer
  clientState : ClientState
  capabilities : BitVec 16
  deriving DecidableEq

structure GetConfigsRequest where
  client : ProtocolClient
  cachedTargetFiles : List CachedTargetFiles
  deriving DecidableEq

variable {σ : Type}

/-- The stored configs in the order of the two nested loops. -/
def Client.storedConfigs (ord : IterOrder) (c : Client σ) : List Config :=
  (ord.entries c.products).flatMap fun kv => (ord.entries kv.2.configs).map Prod.snd

def Config.state (config : Config) : ConfigState :=
  ⟨config.id, config.version, config.product, config.applyState, config.applyError⟩

/-- The hashes of a file as a list. -/
def hashList (ord : IterOrder) (hashes : StringMap Bytes) : List CachedTargetFilesHash :=
  (ord.entries hashes).map fun kv => ⟨kv.1, kv.2⟩

def Config.cachedFile (ord : IterOrder) (config : Config) : CachedTargetFiles :=
  ⟨config.path, config.length, hashList ord config.hashes⟩

/-- `client::generate_request`. `id` is `id_`; `tracer` holds what
`ids_.get()` returns and the fields of `sid_`. -/
def Client.generateRequest (ord : IterOrder) (id : Bytes) (tracer : ClientTracer)
    (c : Client σ) : GetConfigsRequest where
  client :=
    { id := id
      products := (ord.entries c.products).map Prod.fst
      clientTracer := tracer
      clientState :=
        { targetsVersion := c.targetsVersion
          configStates := (c.storedConfigs ord).map Config.state
          hasError := !c.lastPollError.isEmpty
          error := c.lastPollError
          backendClientState := c.opaqueBackendState }
      capabilities := c.capabilities }
  cachedTargetFiles := (c.storedConfigs ord).map (Config.cachedFile ord)

/-! ## Reachable clients -/

/-- The clients that any sequence of responses leads to, whatever the
listeners and their world do meanwhile. `cleared` is what `client::poll`
does before it processes a response. -/
inductive Client.Reachable (listeners : List (Listener σ)) : Client σ → Prop where
  | new : Client.Reachable listeners (Client.new listeners)
  | cleared {c : Client σ} (hc : Client.Reachable listeners c) :
      Client.Reachable listeners { c with lastPollError := [] }
  | responded {c c' : Client σ} {ord : IterOrder} {response : GetConfigsResponse} {w w' : σ}
      {r : Except Exception Bool} (hc : Client.Reachable listeners c)
      (h : processResponse ord response c w = (r, c', w')) : Client.Reachable listeners c'

theorem Client.Reachable.after {listeners : List (Listener σ)} {c : Client σ} {ord : IterOrder}
    {response : GetConfigsResponse} {w : σ} (hc : Client.Reachable listeners c) :
    Client.Reachable listeners (processResponse ord response c w).2.1 :=
  .responded hc rfl

/-- A config that is stored where its path says. -/
structure Config.StoredAt (product id : Bytes) (config : Config) : Prop where
  path : ConfigPath.fromPath config.path = some ⟨id, product⟩
  product : config.product = product
  id : config.id = id

/-- Every config of a client is. -/
def Client.WellFiled (c : Client σ) : Prop :=
  ∀ (name : Bytes) (p : Product σ), c.products[name]? = some p →
    ∀ (id : Bytes) (config : Config), p.configs[id]? = some config → config.StoredAt name id

theorem Client.WellFiled.filed {c : Client σ} (h : c.WellFiled) : c.Filed :=
  fun name p hp id config hc =>
    ⟨(h name p hp id config hc).path, (h name p hp id config hc).product⟩

variable {ord : IterOrder} {response : GetConfigsResponse} {c c' : Client σ} {w w' : σ}

/-- Whatever becomes of a response, the products change in the apply phase
or not at all. -/
theorem processResponse_products {r : Except Exception Bool}
    (h : processResponse ord response c w = (r, c', w')) :
    c'.products = c.products ∨
      ∃ targets configs w₁ r₁ w₂, response.targets = some targets ∧
        buildConfigs ord c.products targets response.targetFiles response.clientConfigs ∅ =
          .ok configs ∧
        assignAll ord configs c.products w₁ = (r₁, c'.products, w₂) := by
  rw [processResponse] at h
  split at h
  · cases h
    exact Or.inl rfl
  · rename_i targets ht
    split at h
    · cases h
      exact Or.inl rfl
    · rename_i configs hb
      split at h
      · cases h
        exact Or.inl rfl
      · rename_i w₁ hi
        refine Or.inr ⟨targets, configs, w₁, ?_⟩
        split at h
        · rename_i ha
          cases h
          exact ⟨_, _, ht, hb, ha⟩
        · rename_i ha
          split at h
          · cases h
            exact ⟨_, _, ht, hb, ha⟩
          · cases h
            exact ⟨_, _, ht, hb, ha⟩

theorem processResponse_wellFiled {r : Except Exception Bool}
    (h : processResponse ord response c w = (r, c', w')) (hc : c.WellFiled) : c'.WellFiled := by
  rcases processResponse_products h with hsame | ⟨targets, configs, w₁, r₁, w₂, _, hb, ha⟩
  · intro name p hp
    rw [hsame] at hp
    exact hc name p hp
  · -- the diff of each product keeps or files, the exceptional ways out included
    refine forEach_values ?_ hc ha
    intro name p w r p' w' hp hassign
    refine Product.assignConfigs_all (fun id config state text hs => ?_) hassign hp ?_
    · exact ⟨hs.path, hs.product, hs.id⟩
    · intro id config hnew
      obtain ⟨path, _, hbuilt⟩ := configsFor_built hb hnew
      exact ⟨by rw [hbuilt.hasPath]; exact hbuilt.parsed, hbuilt.hasProduct, hbuilt.hasId⟩

/-- **Every reachable client stores its configs where their paths say.** -/
theorem Client.Reachable.wellFiled {listeners : List (Listener σ)}
    (h : Client.Reachable listeners c) : c.WellFiled := by
  induction h with
  | new =>
    intro name p hp id config hconfig
    rw [(Client.new_fresh listeners name p hp).1] at hconfig
    simp at hconfig
  | cleared _ ih => exact ih
  | responded _ h ih => exact processResponse_wellFiled h ih

/-! ## What a request lists -/

@[simp] theorem mem_hashList (ord : IterOrder) {hashes : StringMap Bytes} {algorithm hash : Bytes} :
    ⟨algorithm, hash⟩ ∈ hashList ord hashes ↔ hashes[algorithm]? = some hash := by
  simp [hashList]

/-- A list of hashes determines them, in whatever order. -/
theorem hashList_perm_iff {ord' : IterOrder} {hashes hashes' : StringMap Bytes} :
    (hashList ord hashes).Perm (hashList ord' hashes') ↔ hashes = hashes' := by
  constructor
  · intro h
    apply StringMap.ext
    intro algorithm
    apply Option.ext
    intro hash
    rw [← mem_hashList ord, ← mem_hashList ord']
    exact h.mem_iff
  · rintro rfl
    exact (IterOrder.entries_perm ord ord' hashes).map _

@[simp] theorem mem_storedConfigs {config : Config} :
    config ∈ c.storedConfigs ord ↔
      ∃ (name : Bytes) (p : Product σ) (id : Bytes), c.products[name]? = some p ∧
        p.configs[id]? = some config := by
  simp [Client.storedConfigs]

/-! ## Cached files -/

/-- **The cache lookup finds what was listed.** -/
theorem buildConfig_cached {targets : Targets} {targetFiles : StringMap TargetFile}
    (hc : c.WellFiled) {name id : Bytes} {p : Product σ} {stored : Config} {target : TargetPath}
    (hp : c.products[name]? = some p) (hs : p.configs[id]? = some stored)
    (ht : targets.paths[stored.path]? = some target) (hh : stored.hashes = target.hashes)
    (hf : targetFiles[stored.path]? = none) :
    buildConfig ord c.products targets targetFiles stored.path =
      .ok (⟨id, name⟩, ⟨name, id, stored.contents, stored.path, target.hashes, stored.version,
        stored.length, .unknown, []⟩) := by
  have hpath := (hc name p hp id stored hs).path
  simp only [buildConfig, hpath, ht, hp, hf]
  split
  · rename_i hfind
    rw [List.find?_eq_none] at hfind
    exact absurd (hfind (id, stored) ((ord.mem_entries _).mpr hs)) (by simp [hh])
  · rename_i id' cached hfind
    -- a second config of this path would have the same id
    have hs' := (ord.mem_entries _).mp (List.mem_of_find?_eq_some hfind)
    have hpred := List.find?_some hfind
    simp only [decide_eq_true_eq] at hpred
    have hpath' := (hc name p hp id' cached hs').path
    rw [hpred.1, hpath] at hpath'
    cases hpath'
    rw [hs] at hs'
    cases hs'
    rfl

/-- **Cached files may be left out.** In every reachable client each config
is filed under what its path says, and for each file a request lists there
is the stored config it stands for: a response that lists the path with the
same hashes and without the file gets a config with the stored contents,
length and version, and is rejected only because of another path. -/
theorem cached_may_be_omitted {listeners : List (Listener σ)} {c : Client σ}
    (hc : Client.Reachable listeners c) :
    c.Filed ∧
    ∀ (ord : IterOrder) (id : Bytes) (tracer : ClientTracer) (file : CachedTargetFiles),
      file ∈ (c.generateRequest ord id tracer).cachedTargetFiles →
      ∃ (cp : ConfigPath) (p : Product σ) (stored : Config),
        c.products[cp.product]? = some p ∧ p.configs[cp.id]? = some stored ∧
        stored.path = file.path ∧
        ∀ (ord' : IterOrder) (response : GetConfigsResponse) (targets : Targets)
          (target : TargetPath) (w : σ),
          response.targets = some targets → file.path ∈ response.clientConfigs →
          targets.paths[file.path]? = some target →
          (hashList ord' target.hashes).Perm file.hashes →
          response.targetFiles[file.path]? = none →
          buildConfig ord' c.products targets response.targetFiles file.path =
            .ok (cp, ⟨cp.product, cp.id, stored.contents, file.path, target.hashes,
              stored.version, stored.length, .unknown, []⟩) ∧
          ((processResponse ord' response c w).1 = .ok false ↔
            ∃ path ∈ response.clientConfigs, path ≠ file.path ∧
              Unacceptable c.products targets response.targetFiles path) := by
  have hfiled := hc.wellFiled
  refine ⟨hfiled.filed, fun ord id tracer file hfile => ?_⟩
  obtain ⟨stored, hstored, rfl⟩ := List.mem_map.mp hfile
  obtain ⟨name, p, sid, hp, hs⟩ := mem_storedConfigs.mp hstored
  refine ⟨⟨sid, name⟩, p, stored, hp, hs, rfl, ?_⟩
  intro ord' response targets target w htargets _ ht hhashes hf
  have hb : buildConfig ord' c.products targets response.targetFiles stored.path = _ :=
    buildConfig_cached hfiled hp hs ht (hashList_perm_iff.mp hhashes).symm hf
  refine ⟨hb, ?_⟩
  rw [(processResponse_rejects ord' response c w).2]
  constructor
  · rintro ⟨targets', htargets', path, hpath, hbad⟩
    rw [htargets] at htargets'
    cases htargets'
    refine ⟨path, hpath, ?_, hbad⟩
    rintro rfl
    exact (buildConfig_ok hb).not_unacceptable hbad
  · rintro ⟨path, hpath, _, hbad⟩
    exact ⟨targets, htargets, path, hpath, hbad⟩

/-- A listener of one product that does nothing. -/
def quietListener : Listener Unit where
  supportedProducts := [(Bytes.ofString "ASM", 0)]
  init := fun _ => (.ok (), ())
  onUpdate := fun _ _ => (.ok (), ())
  onUnapply := fun _ _ => (.ok (), ())
  commit := fun _ => (.ok (), ())

def plainTarget : TargetPath :=
  ⟨7, (∅ : StringMap Bytes).insert (Bytes.ofString "sha256") (Bytes.ofString "5af3"), 2⟩

def plainTargets (path : Bytes) : Targets :=
  ⟨1, Bytes.ofString "state", (∅ : StringMap TargetPath).insert path plainTarget⟩

/-- A response that lists one path and carries its file, or leaves it out. -/
def plainResponse (path : Bytes) (sent : Bool) : GetConfigsResponse :=
  ⟨if sent then (∅ : StringMap TargetFile).insert path ⟨path, Bytes.ofString "[]"⟩ else ∅,
    [path], some (plainTargets path)⟩

def freshClient : Client Unit := Client.new [quietListener]

/-- The client after a response that carries the file of a path. -/
def plainClient (path : Bytes) : Client Unit :=
  (processResponse IterOrder.sorted (plainResponse path true) freshClient ()).2.1

theorem plainClient_reachable (path : Bytes) :
    Client.Reachable [quietListener] (plainClient path) :=
  Client.Reachable.after .new

def plainTracer : ClientTracer :=
  ⟨Bytes.ofString "runtime", Bytes.ofString "1.0", Bytes.ofString "shop", [],
    Bytes.ofString "prod", Bytes.ofString "2.1"⟩

/-- The file as the request lists it. -/
def plainFile : CachedTargetFiles := ⟨"employee/ASM/a/one", 2, [⟨"sha256", "5af3"⟩]⟩

theorem plainFile_hashes : hashList IterOrder.sorted plainTarget.hashes = plainFile.hashes := by
  decide +kernel

/-- The file of the first response is left out of the second one, which is
accepted. -/
theorem plain_file_omitted :
    plainFile ∈ ((plainClient "employee/ASM/a/one").generateRequest IterOrder.sorted "me"
      plainTracer).cachedTargetFiles ∧
    (processResponse IterOrder.sorted (plainResponse "employee/ASM/a/one" false)
      (plainClient "employee/ASM/a/one") ()).1 ≠ .ok false := by
  have hlisted : plainFile ∈ ((plainClient "employee/ASM/a/one").generateRequest
      IterOrder.sorted "me" plainTracer).cachedTargetFiles := by decide +kernel
  refine ⟨hlisted, ?_⟩
  obtain ⟨cp, p, stored, _, _, _, hcached⟩ :=
    (cached_may_be_omitted (plainClient_reachable "employee/ASM/a/one")).2 IterOrder.sorted "me"
      plainTracer plainFile hlisted
  obtain ⟨_, hrejected⟩ := hcached IterOrder.sorted (plainResponse "employee/ASM/a/one" false)
    (plainTargets "employee/ASM/a/one") plainTarget () rfl (List.mem_singleton.mpr rfl)
    (by simp [plainTargets, plainFile]) (List.Perm.of_eq plainFile_hashes)
    (by simp [plainResponse])
  rw [ne_eq, hrejected]
  rintro ⟨path, hpath, hne, _⟩
  exact hne (List.mem_singleton.mp hpath)

/-! ## The configuration reported back -/

/-- **The request reports what was sent**: one cached file for each listed
path, with the hashes of the targets, and one config state for each. A
state has no path; it is the product and id its path stands for. -/
structure Reports (targets : Targets) (paths : List Bytes) (request : GetConfigsRequest) :
    Prop where
  files : (request.cachedTargetFiles.map CachedTargetFiles.path).Perm paths.dedup
  hashes : ∀ file ∈ request.cachedTargetFiles, ∃ target,
    targets.paths[file.path]? = some target ∧
      file.hashes.Perm (hashList IterOrder.sorted target.hashes)
  states : (request.client.clientState.configStates.map fun state =>
    some (ConfigPath.mk state.id state.product)).Perm (paths.dedup.map ConfigPath.fromPath)

/-- No two listed paths stand for the same product and id, and a config
that is stored with the hashes of its new path is stored under that path. -/
structure StablePaths (products : StringMap (Product σ)) (targets : Targets)
    (paths : List Bytes) : Prop where
  distinct : ∀ a ∈ paths, ∀ b ∈ paths, ConfigPath.fromPath a = ConfigPath.fromPath b → a = b
  unmoved : ∀ path ∈ paths, ∀ (cp : ConfigPath) (target : TargetPath) (p : Product σ)
    (stored : Config), ConfigPath.fromPath path = some cp →
    targets.paths[path]? = some target → products[cp.product]? = some p →
    p.configs[cp.id]? = some stored → stored.hashes = target.hashes → stored.path = path

/-- Where each stored config is filed. -/
theorem storedConfigs_key (hc : c.WellFiled) {config : Config}
    (h : config ∈ c.storedConfigs ord) :
    ConfigPath.fromPath config.path = some ⟨config.id, config.product⟩ := by
  obtain ⟨name, p, id, hp, hs⟩ := mem_storedConfigs.mp h
  have hat := hc name p hp id config hs
  rw [hat.path, hat.id, hat.product]

theorem storedConfigs_paths (hc : c.WellFiled) :
    ((c.storedConfigs ord).map Config.path).map ConfigPath.fromPath =
      (c.storedConfigs ord).map fun config => some ⟨config.id, config.product⟩ := by
  rw [List.map_map]
  exact List.map_congr_left fun config h => storedConfigs_key hc h

/-- No product and id is stored twice. -/
theorem storedConfigs_nodup (hc : c.WellFiled) :
    ((c.storedConfigs ord).map fun config =>
      some (ConfigPath.mk config.id config.product)).Nodup := by
  have hkeys := ord.nodup_keys c.products
  have hmem : ∀ kv ∈ ord.entries c.products, c.products[kv.1]? = some kv.2 :=
    fun kv hkv => (ord.mem_entries _).mp hkv
  unfold Client.storedConfigs
  generalize ord.entries c.products = entries at hkeys hmem ⊢
  induction entries with
  | nil => simp
  | cons kv rest ih =>
    obtain ⟨name, p⟩ := kv
    have hp : c.products[name]? = some p := hmem (name, p) (by simp)
    rw [List.map_cons, List.nodup_cons] at hkeys
    rw [List.flatMap_cons, List.map_append, List.nodup_append']
    refine ⟨?_, ih hkeys.2 fun kv hkv => hmem kv (List.mem_cons_of_mem _ hkv), ?_⟩
    · -- within a product the ids differ
      have hids : ((ord.entries p.configs).map Prod.snd).map
          (fun config => some (ConfigPath.mk config.id config.product)) =
          ((ord.entries p.configs).map Prod.fst).map fun id => some (ConfigPath.mk id name) := by
        rw [List.map_map, List.map_map]
        apply List.map_congr_left
        rintro ⟨id, config⟩ hconfig
        have hat := hc name p hp id config ((ord.mem_entries _).mp hconfig)
        simp [hat.id, hat.product]
      rw [hids]
      refine (ord.nodup_keys p.configs).map ?_
      intro a b hab
      cases hab
      rfl
    · -- and the products differ by name
      intro key hhere hrest
      obtain ⟨config, hconfig, rfl⟩ := List.mem_map.mp hhere
      obtain ⟨⟨id, _⟩, hentry, rfl⟩ := List.mem_map.mp hconfig
      obtain ⟨other, hother, hsame⟩ := List.mem_map.mp hrest
      obtain ⟨⟨name', p'⟩, hkv, hother⟩ := List.mem_flatMap.mp hother
      obtain ⟨⟨id', _⟩, hentry', rfl⟩ := List.mem_map.mp hother
      have hat := hc name p hp id _ ((ord.mem_entries _).mp hentry)
      have hat' := hc name' p' (hmem _ (List.mem_cons_of_mem _ hkv)) id' _
        ((ord.mem_entries _).mp hentry')
      have hname : name' = name := by
        have hproduct := congrArg ConfigPath.product (Option.some.inj hsame)
        rw [← hat'.product, ← hat.product]
        exact hproduct
      exact hkeys.1 (List.mem_map.mpr ⟨(name', p'), hkv, hname⟩)

/-- **What an accepted response leaves in the store**: under a product and
id the config of the first path listed for them, or the one that was there
when it has the same hashes. -/
theorem processResponse_stored {targets : Targets} (ht : response.targets = some targets)
    (h : processResponse ord response c w = (.ok true, c', w')) {name id : Bytes}
    {p' : Product σ} {config : Config} (hp' : c'.products[name]? = some p')
    (hs' : p'.configs[id]? = some config) :
    ∃ path target p, firstListed response.clientConfigs name id = some path ∧
      targets.paths[path]? = some target ∧ c.products[name]? = some p ∧
      config.hashes = target.hashes ∧
      (∀ stored, p.configs[id]? = some stored → stored.hashes = target.hashes →
        config.path = stored.path) ∧
      ((∀ stored, p.configs[id]? = some stored → stored.hashes ≠ target.hashes) →
        config.path = path) := by
  rcases processResponse_ok_true h with
    ⟨hn, _, _⟩ | ⟨targets', configs, w₁, products, w₂, ht', hb, _, ha, _, rfl⟩
  · rw [ht] at hn
    cases hn
  · rw [ht] at ht'
    cases ht'
    obtain ⟨p, wa, wb, hp, hassign⟩ := assignAll_visited ha hp'
    obtain ⟨hgone, hkept⟩ := Product.assignConfigs_configs hassign id
    cases hnew : (configsFor configs name)[id]? with
    | none =>
      rw [hgone hnew] at hs'
      cases hs'
    | some new =>
      obtain ⟨path, hfirst, hbuilt⟩ := configsFor_built hb hnew
      obtain ⟨target, _, htarget, _, hhashes, _⟩ := hbuilt.file
      obtain ⟨state, text, hconfig⟩ := hkept new hnew
      rw [hs'] at hconfig
      cases hconfig
      refine ⟨path, target, p, hfirst, htarget, hp, ?_⟩
      cases p.configs[id]? with
      | none => exact ⟨hhashes, fun _ hn => (nomatch hn), fun _ => hbuilt.hasPath⟩
      | some stored =>
        by_cases hsame : new.hashes = stored.hashes
        · simp only [reconcile, if_pos hsame]
          have hhashes : stored.hashes = target.hashes := hsame ▸ hhashes
          refine ⟨hhashes, ?_, fun hchanged => absurd hhashes (hchanged stored rfl)⟩
          intro previous hprevious _
          cases hprevious
          rfl
        · simp only [reconcile, if_neg hsame]
          refine ⟨hhashes, ?_, fun _ => hbuilt.hasPath⟩
          intro previous hprevious hunchanged
          cases hprevious
          exact absurd (hhashes.trans hunchanged.symm) hsame

/-- Every listed path has its place in the store. -/
theorem processResponse_stores {targets : Targets} (ht : response.targets = some targets)
    (h : processResponse ord response c w = (.ok true, c', w')) {path : Bytes}
    (hpath : path ∈ response.clientConfigs) :
    ∃ cp p' config, ConfigPath.fromPath path = some cp ∧ c'.products[cp.product]? = some p' ∧
      p'.configs[cp.id]? = some config := by
  rcases processResponse_ok_true h with
    ⟨hn, _, _⟩ | ⟨targets', configs, w₁, products, w₂, ht', hb, _, ha, _, rfl⟩
  · rw [ht] at hn
    cases hn
  · cases hcp : ConfigPath.fromPath path with
    | none =>
      have hbad : Unacceptable c.products targets' response.targetFiles path := .malformed hcp
      obtain ⟨text, hrejected⟩ := (buildConfigs_error_iff response.clientConfigs ∅).mpr
        ⟨path, hpath, hbad⟩
      rw [hb] at hrejected
      cases hrejected
    | some cp =>
      have hlisted : (configsFor configs cp.product)[cp.id]? ≠ none := by
        rw [ne_eq, configsFor_none_iff hb, firstListed_none_iff]
        exact fun hall => hall path hpath hcp
      obtain ⟨new, hnew⟩ := Option.ne_none_iff_exists'.mp hlisted
      obtain ⟨_, _, hbuilt⟩ := configsFor_built hb hnew
      obtain ⟨_, p, _, hp, _⟩ := hbuilt.file
      obtain ⟨p', hp'⟩ := Option.ne_none_iff_exists'.mp
        (forEntries_keeps_key _ ha (by rw [hp]; exact Option.some_ne_none p))
      obtain ⟨p₀, wa, wb, hp₀, hassign⟩ := assignAll_visited ha hp'
      obtain ⟨_, hkept⟩ := Product.assignConfigs_configs hassign cp.id
      obtain ⟨state, text, hconfig⟩ := hkept new hnew
      exact ⟨cp, p', _, rfl, hp', hconfig⟩

section Reports

variable {targets : Targets}

/-- With stable paths a stored config has the path it was listed under. -/
theorem StablePaths.stored (hstable : StablePaths c.products targets response.clientConfigs)
    (ht : response.targets = some targets)
    (h : processResponse ord response c w = (.ok true, c', w')) {name id : Bytes}
    {p' : Product σ} {config : Config} (hp' : c'.products[name]? = some p')
    (hs' : p'.configs[id]? = some config) :
    firstListed response.clientConfigs name id = some config.path ∧
      ∃ target, targets.paths[config.path]? = some target ∧ config.hashes = target.hashes := by
  obtain ⟨path, target, p, hfirst, htarget, hp, hhashes, hkept, hnew⟩ :=
    processResponse_stored ht h hp' hs'
  have hpath : config.path = path := by
    by_cases hchanged : ∀ stored, p.configs[id]? = some stored → stored.hashes ≠ target.hashes
    · exact hnew hchanged
    · simp only [not_forall, not_not] at hchanged
      obtain ⟨stored, hs, hsame⟩ := hchanged
      obtain ⟨hmem, hcp⟩ := firstListed_some hfirst
      rw [hkept stored hs hsame]
      exact hstable.unmoved path hmem ⟨id, name⟩ target p stored hcp htarget hp hs hsame
  rw [hpath]
  exact ⟨hfirst, target, htarget, hhashes⟩

/-- With stable paths the stored paths are the listed ones. -/
theorem StablePaths.mem_iff (hstable : StablePaths c.products targets response.clientConfigs)
    (ht : response.targets = some targets)
    (h : processResponse ord response c w = (.ok true, c', w')) (ord' : IterOrder)
    (path : Bytes) :
    path ∈ (c'.storedConfigs ord').map Config.path ↔ path ∈ response.clientConfigs := by
  constructor
  · intro hpath
    obtain ⟨config, hconfig, rfl⟩ := List.mem_map.mp hpath
    obtain ⟨name, p', id, hp', hs'⟩ := mem_storedConfigs.mp hconfig
    exact (firstListed_some (hstable.stored ht h hp' hs').1).1
  · intro hpath
    obtain ⟨cp, p', config, hcp, hp', hs'⟩ := processResponse_stores ht h hpath
    obtain ⟨hmem, hcp'⟩ := firstListed_some (hstable.stored ht h hp' hs').1
    have hsame : config.path = path := hstable.distinct _ hmem _ hpath (hcp'.trans hcp.symm)
    exact List.mem_map.mpr ⟨config, mem_storedConfigs.mpr ⟨_, p', _, hp', hs'⟩, hsame⟩

theorem StablePaths.reports (hstable : StablePaths c.products targets response.clientConfigs)
    (hfiled : c'.WellFiled) (ht : response.targets = some targets)
    (h : processResponse ord response c w = (.ok true, c', w')) (ord' : IterOrder) (id : Bytes)
    (tracer : ClientTracer) :
    Reports targets response.clientConfigs (c'.generateRequest ord' id tracer) := by
  have hpaths : ((c'.storedConfigs ord').map Config.path).Perm response.clientConfigs.dedup := by
    have hnodup : (((c'.storedConfigs ord').map Config.path).map ConfigPath.fromPath).Nodup := by
      rw [storedConfigs_paths hfiled]
      exact storedConfigs_nodup hfiled
    rw [List.perm_ext_iff_of_nodup hnodup.of_map (List.nodup_dedup _)]
    intro path
    rw [List.mem_dedup]
    exact hstable.mem_iff ht h ord' path
  refine ⟨?_, ?_, ?_⟩
  · show (((c'.storedConfigs ord').map (Config.cachedFile ord')).map _).Perm _
    rw [List.map_map]
    exact hpaths
  · intro file hfile
    obtain ⟨config, hconfig, rfl⟩ := List.mem_map.mp hfile
    obtain ⟨name, p', sid, hp', hs'⟩ := mem_storedConfigs.mp hconfig
    obtain ⟨_, target, htarget, hhashes⟩ := hstable.stored ht h hp' hs'
    exact ⟨target, htarget, hashList_perm_iff.mpr hhashes⟩
  · show (((c'.storedConfigs ord').map Config.state).map _).Perm _
    have hstates := hpaths.map ConfigPath.fromPath
    rw [storedConfigs_paths hfiled] at hstates
    rw [List.map_map]
    exact hstates

/-- A request that reports what was sent shows that no path was dropped or
kept from before. -/
theorem Reports.stable (hfiled' : c'.WellFiled)
    (ht : response.targets = some targets)
    (h : processResponse ord response c w = (.ok true, c', w')) {ord' : IterOrder} {id : Bytes}
    {tracer : ClientTracer}
    (hreports : Reports targets response.clientConfigs (c'.generateRequest ord' id tracer)) :
    StablePaths c.products targets response.clientConfigs := by
  have hdistinct : ∀ a ∈ response.clientConfigs, ∀ b ∈ response.clientConfigs,
      ConfigPath.fromPath a = ConfigPath.fromPath b → a = b := by
    -- one state for each product and id, so one path
    have hstates := hreports.states
    simp only [Client.generateRequest, List.map_map] at hstates
    have hnodup := hstates.nodup_iff.mp (storedConfigs_nodup hfiled')
    intro a ha b hb hab
    exact List.inj_on_of_nodup_map hnodup (List.mem_dedup.mpr ha) (List.mem_dedup.mpr hb) hab
  refine ⟨hdistinct, ?_⟩
  intro path hpath cp target p stored hcp htarget hp hs hsame
  obtain ⟨cp', p', config, hcp', hp', hs'⟩ := processResponse_stores ht h hpath
  rw [hcp] at hcp'
  cases hcp'
  -- the config under this product and id is in the request, so its path is listed
  have hlisted : config.path ∈ response.clientConfigs := by
    have hfiles := hreports.files
    simp only [Client.generateRequest, List.map_map] at hfiles
    rw [← List.mem_dedup, ← hfiles.mem_iff]
    exact List.mem_map.mpr ⟨config, mem_storedConfigs.mpr ⟨_, p', _, hp', hs'⟩, rfl⟩
  have hat := (hfiled' _ p' hp' _ config hs').path
  have hconfig : config.path = path :=
    hdistinct _ hlisted _ hpath (hat.trans hcp.symm)
  obtain ⟨first, target', p₀, hfirst, htarget', hp₀, _, hkept, _⟩ :=
    processResponse_stored ht h hp' hs'
  obtain ⟨hmem, hcp₁⟩ := firstListed_some hfirst
  have hfirst : first = path := hdistinct _ hmem _ hpath (hcp₁.trans hcp.symm)
  rw [hfirst, htarget] at htarget'
  cases htarget'
  rw [hp] at hp₀
  cases hp₀
  rw [← hkept stored hs hsame]
  exact hconfig

/-- **A request reports what was sent exactly when the paths are stable.**
For every reachable client and every accepted response with targets. -/
theorem reports_iff_stablePaths {listeners : List (Listener σ)}
    (hc : Client.Reachable listeners c) (ht : response.targets = some targets)
    (h : processResponse ord response c w = (.ok true, c', w')) (ord' : IterOrder) (id : Bytes)
    (tracer : ClientTracer) :
    Reports targets response.clientConfigs (c'.generateRequest ord' id tracer) ↔
      StablePaths c.products targets response.clientConfigs := by
  have hfiled' := processResponse_wellFiled h hc.wellFiled
  exact ⟨Reports.stable hfiled' ht h,
    fun hstable => hstable.reports hfiled' ht h ord' id tracer⟩

end Reports

/-- In a world that holds nothing, the verdict is all there is to check. -/
theorem accepted_of_verdict {response : GetConfigsResponse} {c : Client Unit}
    (h : (processResponse IterOrder.sorted response c ()).1 = .ok true) :
    processResponse IterOrder.sorted response c () =
      (.ok true, (processResponse IterOrder.sorted response c ()).2.1, ()) :=
  Prod.ext h (Prod.ext rfl rfl)

theorem plainClient_accepted :
    processResponse IterOrder.sorted (plainResponse "employee/ASM/a/one" true) freshClient () =
      (.ok true, plainClient "employee/ASM/a/one", ()) :=
  accepted_of_verdict (by decide +kernel)

/-- After its first response a client reports the one file. -/
theorem plain_file_reported :
    Reports (plainTargets "employee/ASM/a/one") ["employee/ASM/a/one"]
      ((plainClient "employee/ASM/a/one").generateRequest IterOrder.sorted "me" plainTracer) := by
  have hnew : Client.Reachable [quietListener] freshClient := .new
  refine (reports_iff_stablePaths hnew rfl plainClient_accepted
    IterOrder.sorted "me" plainTracer).mpr ⟨?_, ?_⟩
  · intro a ha b hb _
    exact (List.mem_singleton.mp ha).trans (List.mem_singleton.mp hb).symm
  · intro path _ cp target p stored _ _ hp hs
    rw [(Client.new_fresh [quietListener] _ p hp).1] at hs
    simp at hs

/-- **A config that moves is reported where it was**: the second response
lists the file of the first under another path and with the same hashes,
and the request after it still lists the old path. -/
theorem moved_path_not_reported :
    ∃ (c c' : Client Unit) (response : GetConfigsResponse) (targets : Targets),
      Client.Reachable [quietListener] c ∧ response.targets = some targets ∧
      processResponse IterOrder.sorted response c () = (.ok true, c', ()) ∧
      ¬ Reports targets response.clientConfigs
        (c'.generateRequest IterOrder.sorted "me" plainTracer) := by
  have haccepted : (processResponse IterOrder.sorted (plainResponse "employee/ASM/a/two" true)
      (plainClient "employee/ASM/a/one") ()).1 = .ok true := by decide +kernel
  refine ⟨plainClient "employee/ASM/a/one", _, plainResponse "employee/ASM/a/two" true,
    plainTargets "employee/ASM/a/two", plainClient_reachable _, rfl,
    accepted_of_verdict haccepted, fun hreports => ?_⟩
  have hpaths : ((((processResponse IterOrder.sorted (plainResponse "employee/ASM/a/two" true)
      (plainClient "employee/ASM/a/one") ()).2.1.generateRequest IterOrder.sorted "me"
      plainTracer).cachedTargetFiles.map CachedTargetFiles.path)) =
      [Bytes.ofString "employee/ASM/a/one"] := by decide +kernel
  have hfiles := hreports.files
  rw [hpaths] at hfiles
  have hmoved : Bytes.ofString "employee/ASM/a/one" ∈ [Bytes.ofString "employee/ASM/a/two"] :=
    hfiles.mem_iff.mp (List.mem_singleton.mpr rfl)
  revert hmoved
  decide

end DdAppsec.Helper.RemoteConfig
