import DdAppsec.Helper.RemoteConfig.Product
import DdAppsec.Lib.Runs

/-!
# RemoteConfig — the client and `process_response`

`processResponse` works in two phases. The BUILD phase checks every path of
the response and collects the configs it asks for; it reads the client and
changes nothing but a text. The APPLY phase initialises the listeners, lets
every product assign its configs and commits.

Everything here is over an arbitrary world `σ` and arbitrary listeners. A
statement that the world is as before therefore says that no listener was
called: a listener is free to record its calls in `σ`.
-/

namespace DdAppsec.Helper.RemoteConfig

open Lib

structure Client (σ : Type) where
  listeners : List (Listener σ)
  products : StringMap (Product σ)
  capabilities : BitVec 16
  lastPollError : Bytes
  opaqueBackendState : Bytes
  targetsVersion : Int

variable {σ : Type}

/-! ## Construction -/

/-- One supported product of a listener. `insert` keeps a product that an
earlier listener already registered. -/
def Client.register (l : Listener σ) (c : Client σ) (supported : Bytes × BitVec 16) :
    Client σ :=
  { c with
    products := c.products.insertIfNew supported.1 ⟨supported.1, l, ∅⟩
    capabilities := c.capabilities ||| supported.2 }

/-- `client::client`. -/
def Client.new (listeners : List (Listener σ)) : Client σ :=
  listeners.foldl (fun c l => l.supportedProducts.foldl (Client.register l) c)
    ⟨listeners, ∅, 0, [], [], 0⟩

/-! ## The build phase -/

/-- What the loop of `process_response` makes of one path: a config, or the
text for `last_poll_error_`. -/
def buildConfig (ord : IterOrder) (products : StringMap (Product σ)) (targets : Targets)
    (targetFiles : StringMap TargetFile) (path : Bytes) :
    Except Bytes (ConfigPath × Config) :=
  match ConfigPath.fromPath path with
  | none => .error (Bytes.ofString "error parsing path " ++ path)
  | some cp =>
    match targets.paths[path]? with
    | none =>
      .error (Bytes.ofString "missing config " ++ path ++ Bytes.ofString " in targets")
    | some target =>
      match products[cp.product]? with
      | none =>
        .error (Bytes.ofString "received config " ++ path ++
          Bytes.ofString " for a product that was not requested")
      | some product =>
        match targetFiles[path]? with
        | some file =>
          .ok (cp, ⟨cp.product, cp.id, file.raw, path, target.hashes, target.customV,
            target.length, .unknown, []⟩)
        | none =>
          -- the file was left out: it must be one the product already holds
          match (ord.entries product.configs).find? fun kv =>
              kv.2.path = path ∧ kv.2.hashes = target.hashes with
          | none =>
            .error (Bytes.ofString "missing config " ++ path ++
              Bytes.ofString " in target files and in cache files")
          | some (_, cached) =>
            .ok (cp, ⟨cp.product, cp.id, cached.contents, path, target.hashes,
              cached.version, cached.length, .unknown, []⟩)

/-- `configs`, by product and id. `emplace` keeps the first config of an id. -/
def addConfig (configs : StringMap (StringMap Config)) (cp : ConfigPath) (config : Config) :
    StringMap (StringMap Config) :=
  match configs[cp.product]? with
  | none => configs.insert cp.product ((∅ : StringMap Config).insertIfNew cp.id config)
  | some onProduct => configs.insert cp.product (onProduct.insertIfNew cp.id config)

/-- The loop over `client_configs`; it stops at the first path it rejects. -/
def buildConfigs (ord : IterOrder) (products : StringMap (Product σ)) (targets : Targets)
    (targetFiles : StringMap TargetFile) :
    List Bytes → StringMap (StringMap Config) → Except Bytes (StringMap (StringMap Config))
  | [], configs => .ok configs
  | path :: rest, configs =>
    match buildConfig ord products targets targetFiles path with
    | .error text => .error text
    | .ok (cp, config) =>
      buildConfigs ord products targets targetFiles rest (addConfig configs cp config)

/-- The configs of one product, or none. -/
def configsFor (configs : StringMap (StringMap Config)) (product : Bytes) : StringMap Config :=
  configs[product]?.getD ∅

/-! ## The apply phase -/

/-- `for (auto &listener : listeners_) { listener->init(); }`, and the same
with `commit`. -/
def forListeners (call : Listener σ → σ → Except Exception Unit × σ) :
    List (Listener σ) → σ → Except Exception Unit × σ
  | [], w => (.ok (), w)
  | l :: rest, w =>
    match call l w with
    | (.ok (), w') => forListeners call rest w'
    | (.error e, w') => (.error e, w')

/-- Every product assigns the configs the response has for it. -/
def assignAll (ord : IterOrder) (configs : StringMap (StringMap Config)) :
    StringMap (Product σ) → σ → Except Exception Unit × StringMap (Product σ) × σ :=
  forEach ord fun name product => product.assignConfigs ord (configsFor configs name)

/-- `client::process_response`. -/
def processResponse (ord : IterOrder) (response : GetConfigsResponse) (c : Client σ) (w : σ) :
    Except Exception Bool × Client σ × σ :=
  match response.targets with
  | none => (.ok true, c, w)
  | some targets =>
    match buildConfigs ord c.products targets response.targetFiles
        response.clientConfigs ∅ with
    | .error text => (.ok false, { c with lastPollError := text }, w)
    | .ok configs =>
      -- no listener has been called so far; from here on a throw leaves things half done
      match forListeners Listener.init c.listeners w with
      | (.error e, w₁) => (.error e, c, w₁)
      | (.ok (), w₁) =>
        match assignAll ord configs c.products w₁ with
        | (.error e, products, w₂) => (.error e, { c with products := products }, w₂)
        | (.ok (), products, w₂) =>
          match forListeners Listener.commit c.listeners w₂ with
          | (.error e, w₃) => (.error e, { c with products := products }, w₃)
          | (.ok (), w₃) =>
            (.ok true,
              { c with
                products := products
                targetsVersion := targets.version
                opaqueBackendState := targets.opaqueBackendState }, w₃)

/-! ## What the build phase accepts -/

/-- The file of an accepted path: the one the response carries, or one the
product holds under the same path and hashes. -/
inductive FileOf (product : Product σ) (targetFiles : StringMap TargetFile) (path : Bytes)
    (target : TargetPath) (c : Config) : Prop where
  | sent (file : TargetFile) (hf : targetFiles[path]? = some file)
      (hc : c.contents = file.raw) (hv : c.version = target.customV)
      (hl : c.length = target.length)
  | cached (id : Bytes) (stored : Config) (hf : targetFiles[path]? = none)
      (hs : product.configs[id]? = some stored) (hpath : stored.path = path)
      (hhash : stored.hashes = target.hashes) (hc : c.contents = stored.contents)
      (hv : c.version = stored.version) (hl : c.length = stored.length)

/-- `c` is the config an accepted path stands for. -/
structure Built (products : StringMap (Product σ)) (targets : Targets)
    (targetFiles : StringMap TargetFile) (path : Bytes) (cp : ConfigPath) (c : Config) :
    Prop where
  parsed : ConfigPath.fromPath path = some cp
  hasProduct : c.product = cp.product
  hasId : c.id = cp.id
  hasPath : c.path = path
  fresh : c.applyState = .unknown
  file : ∃ target product, targets.paths[path]? = some target ∧
    products[cp.product]? = some product ∧ c.hashes = target.hashes ∧
    FileOf product targetFiles path target c

variable {ord : IterOrder} {products : StringMap (Product σ)} {targets : Targets}
  {targetFiles : StringMap TargetFile}

theorem buildConfig_ok {path : Bytes} {cp : ConfigPath} {c : Config}
    (h : buildConfig ord products targets targetFiles path = .ok (cp, c)) :
    Built products targets targetFiles path cp c := by
  rw [buildConfig] at h
  split at h
  · cases h
  · rename_i cp' hcp
    split at h
    · cases h
    · rename_i target ht
      split at h
      · cases h
      · rename_i product hp
        split at h
        · rename_i file hf
          cases h
          exact ⟨hcp, rfl, rfl, rfl, rfl, target, product, ht, hp, rfl,
            .sent file hf rfl rfl rfl⟩
        · rename_i hf
          split at h
          · cases h
          · rename_i id cached hfind
            cases h
            have hmem := (ord.mem_entries _).mp (List.mem_of_find?_eq_some hfind)
            have hpred := List.find?_some hfind
            simp only [decide_eq_true_eq] at hpred
            exact ⟨hcp, rfl, rfl, rfl, rfl, target, product, ht, hp, rfl,
              .cached id cached hf hmem hpred.1 hpred.2 rfl rfl rfl⟩

/-! ## Which responses are rejected -/

/-- The four reasons to reject a path. -/
inductive Unacceptable (products : StringMap (Product σ)) (targets : Targets)
    (targetFiles : StringMap TargetFile) (path : Bytes) : Prop where
  | malformed (h : ConfigPath.fromPath path = none)
  | notInTargets (h : targets.paths[path]? = none)
  | notRequested (cp : ConfigPath) (h : ConfigPath.fromPath path = some cp)
      (hp : products[cp.product]? = none)
  | noFile (cp : ConfigPath) (target : TargetPath) (product : Product σ)
      (h : ConfigPath.fromPath path = some cp) (ht : targets.paths[path]? = some target)
      (hp : products[cp.product]? = some product) (hf : targetFiles[path]? = none)
      (hc : ∀ (id : Bytes) (c : Config), product.configs[id]? = some c →
        ¬ (c.path = path ∧ c.hashes = target.hashes))

/-- An accepted path has none of the four reasons against it. -/
theorem Built.not_unacceptable {path : Bytes} {cp : ConfigPath} {c : Config}
    (h : Built products targets targetFiles path cp c) :
    ¬ Unacceptable products targets targetFiles path := by
  obtain ⟨target, product, ht, hp, hhash, hfile⟩ := h.file
  rintro (hn | hn | ⟨cp', hcp, hn⟩ | ⟨cp', target', product', hcp, ht', hp', hf, hn⟩)
  · rw [h.parsed] at hn
    cases hn
  · rw [ht] at hn
    cases hn
  · rw [h.parsed] at hcp
    cases hcp
    rw [hp] at hn
    cases hn
  · rw [h.parsed] at hcp
    cases hcp
    rw [hp] at hp'
    cases hp'
    rw [ht] at ht'
    cases ht'
    rcases hfile with ⟨file, hf', _, _, _⟩ | ⟨id, stored, _, hs, hpath, hh, _, _, _⟩
    · rw [hf'] at hf
      cases hf
    · exact hn id stored hs ⟨hpath, hh⟩

theorem buildConfig_error {path text : Bytes}
    (h : buildConfig ord products targets targetFiles path = .error text) :
    Unacceptable products targets targetFiles path := by
  rw [buildConfig] at h
  split at h
  · rename_i hcp
    exact .malformed hcp
  · rename_i cp hcp
    split at h
    · rename_i ht
      exact .notInTargets ht
    · rename_i target ht
      split at h
      · rename_i hp
        exact .notRequested cp hcp hp
      · rename_i product hp
        split at h
        · cases h
        · rename_i hf
          split at h
          · rename_i hfind
            rw [List.find?_eq_none] at hfind
            refine .noFile cp target product hcp ht hp hf ?_
            intro id c hc hsame
            exact hfind (id, c) ((ord.mem_entries _).mpr hc) (by simpa using hsame)
          · cases h

/-- **The build phase fails exactly on an unacceptable path**, wherever in
the list it stands. -/
theorem buildConfigs_error_iff (paths : List Bytes) (configs : StringMap (StringMap Config)) :
    (∃ text, buildConfigs ord products targets targetFiles paths configs = .error text) ↔
      ∃ path ∈ paths, Unacceptable products targets targetFiles path := by
  induction paths generalizing configs with
  | nil => simp [buildConfigs]
  | cons path rest ih =>
    cases hb : buildConfig ord products targets targetFiles path with
    | error text =>
      simp only [buildConfigs, hb]
      exact ⟨fun _ => ⟨path, by simp, buildConfig_error hb⟩, fun _ => ⟨text, rfl⟩⟩
    | ok pair =>
      obtain ⟨cp, config⟩ := pair
      simp only [buildConfigs, hb]
      rw [ih]
      constructor
      · rintro ⟨p, hp, hu⟩
        exact ⟨p, List.mem_cons_of_mem _ hp, hu⟩
      · rintro ⟨p, hp, hu⟩
        rcases List.mem_cons.mp hp with rfl | hp
        · exact absurd hu (buildConfig_ok hb).not_unacceptable
        · exact ⟨p, hp, hu⟩

/-- A response is rejected in the build phase or not at all. -/
theorem processResponse_eq_false_iff (response : GetConfigsResponse) (c : Client σ) (w : σ) :
    (processResponse ord response c w).1 = .ok false ↔
      ∃ targets, response.targets = some targets ∧
        ∃ text, buildConfigs ord c.products targets response.targetFiles
          response.clientConfigs ∅ = .error text := by
  rw [processResponse]
  cases ht : response.targets with
  | none => simp
  | some targets =>
    cases hb : buildConfigs ord c.products targets response.targetFiles
        response.clientConfigs ∅ with
    | error text => simp [hb]
    | ok configs =>
      simp only [hb, Option.some.injEq, exists_eq_left', reduceCtorEq, exists_false,
        iff_false]
      split
      · simp
      · split
        · simp
        · split <;> simp

theorem processResponse_frame_of_false {response : GetConfigsResponse} {c : Client σ} {w : σ}
    (h : (processResponse ord response c w).1 = .ok false) :
    ∃ text, (processResponse ord response c w).2 = ({ c with lastPollError := text }, w) := by
  obtain ⟨targets, ht, text, hb⟩ := (processResponse_eq_false_iff response c w).mp h
  refine ⟨text, ?_⟩
  simp only [processResponse, ht, hb]

/-- **A rejected response changes nothing but `last_poll_error_`**, and the
rejected responses are exactly those with targets and an unacceptable path
somewhere in `client_configs`. For any listeners over any world, so in
particular for listeners that count their calls. -/
theorem processResponse_rejects (ord : IterOrder) (response : GetConfigsResponse)
    (c : Client σ) (w : σ) :
    ((processResponse ord response c w).1 = .ok false →
      ∃ text, (processResponse ord response c w).2 =
        ({ c with lastPollError := text }, w)) ∧
    ((processResponse ord response c w).1 = .ok false ↔
      ∃ targets, response.targets = some targets ∧ ∃ path ∈ response.clientConfigs,
        Unacceptable c.products targets response.targetFiles path) := by
  refine ⟨processResponse_frame_of_false, ?_⟩
  rw [processResponse_eq_false_iff]
  refine exists_congr fun targets => and_congr_right fun _ => ?_
  exact buildConfigs_error_iff response.clientConfigs ∅

/-! ## What an accepted response does -/

/-- **The apply phase**, step by step. -/
theorem processResponse_ok_true {response : GetConfigsResponse} {c c' : Client σ} {w w' : σ}
    (h : processResponse ord response c w = (.ok true, c', w')) :
    (response.targets = none ∧ c' = c ∧ w' = w) ∨
    ∃ targets configs w₁ products w₂,
      response.targets = some targets ∧
      buildConfigs ord c.products targets response.targetFiles
        response.clientConfigs ∅ = .ok configs ∧
      forListeners Listener.init c.listeners w = (.ok (), w₁) ∧
      assignAll ord configs c.products w₁ = (.ok (), products, w₂) ∧
      forListeners Listener.commit c.listeners w₂ = (.ok (), w') ∧
      c' = { c with
        products := products
        targetsVersion := targets.version
        opaqueBackendState := targets.opaqueBackendState } := by
  rw [processResponse] at h
  split at h
  · rename_i ht
    cases h
    exact Or.inl ⟨ht, rfl, rfl⟩
  · rename_i targets ht
    refine Or.inr ?_
    split at h
    · cases h
    · rename_i configs hb
      split at h
      · cases h
      · rename_i w₁ hi
        split at h
        · cases h
        · rename_i products w₂ ha
          split at h
          · cases h
          · rename_i w₃ hc
            cases h
            exact ⟨targets, configs, w₁, products, w₂, ht, hb, hi, ha, hc, rfl⟩

/-! ## The configs a response asks for -/

/-- The first path listed for a product and id; later ones are ignored. -/
def firstListed (paths : List Bytes) (product id : Bytes) : Option Bytes :=
  paths.find? fun path => ConfigPath.fromPath path = some ⟨id, product⟩

theorem firstListed_some {paths : List Bytes} {product id path : Bytes}
    (h : firstListed paths product id = some path) :
    path ∈ paths ∧ ConfigPath.fromPath path = some ⟨id, product⟩ :=
  ⟨List.mem_of_find?_eq_some h, by simpa using List.find?_some h⟩

theorem firstListed_none_iff {paths : List Bytes} {product id : Bytes} :
    firstListed paths product id = none ↔
      ∀ path ∈ paths, ConfigPath.fromPath path ≠ some ⟨id, product⟩ := by
  simp [firstListed, List.find?_eq_none]

theorem configsFor_addConfig_self (configs : StringMap (StringMap Config))
    (cp : ConfigPath) (config : Config) :
    configsFor (addConfig configs cp config) cp.product =
      (configsFor configs cp.product).insertIfNew cp.id config := by
  cases hc : configs[cp.product]? with
  | none => simp [addConfig, configsFor, hc]
  | some onProduct => simp [addConfig, configsFor, hc]

theorem configsFor_addConfig_other {configs : StringMap (StringMap Config)}
    {cp : ConfigPath} {config : Config} {product : Bytes} (h : cp.product ≠ product) :
    configsFor (addConfig configs cp config) product = configsFor configs product := by
  cases hc : configs[cp.product]? with
  | none => simp [addConfig, configsFor, hc, h]
  | some onProduct => simp [addConfig, configsFor, hc, h]

theorem configsFor_addConfig (configs : StringMap (StringMap Config)) (cp : ConfigPath)
    (config : Config) (product id : Bytes) :
    (configsFor (addConfig configs cp config) product)[id]? =
      if cp = ⟨id, product⟩ ∧ (configsFor configs product)[id]? = none then some config
      else (configsFor configs product)[id]? := by
  by_cases hp : cp.product = product
  · subst hp
    rw [configsFor_addConfig_self, StringMap.getElem?_insertIfNew]
    by_cases hi : cp.id = id
    · subst hi
      simp only [true_and]
    · rw [if_neg (fun h => hi h.1), if_neg (fun h => hi (congrArg ConfigPath.id h.1))]
  · rw [configsFor_addConfig_other hp,
      if_neg (fun h => hp (congrArg ConfigPath.product h.1))]

/-- **The build phase, config by config**: what it collects for a product and
id is what was there, or else the config of the first path listed for them. -/
theorem buildConfigs_ok {product id : Bytes} :
    ∀ {paths : List Bytes} {acc configs : StringMap (StringMap Config)},
      buildConfigs ord products targets targetFiles paths acc = .ok configs →
      ((configsFor acc product)[id]? = none →
        match firstListed paths product id with
        | none => (configsFor configs product)[id]? = none
        | some path => ∃ c, (configsFor configs product)[id]? = some c ∧
            Built products targets targetFiles path ⟨id, product⟩ c) ∧
      (∀ c, (configsFor acc product)[id]? = some c →
        (configsFor configs product)[id]? = some c) := by
  intro paths
  induction paths with
  | nil =>
    intro acc configs h
    cases h
    exact ⟨fun hn => hn, fun c hc => hc⟩
  | cons path rest ih =>
    intro acc configs h
    rw [buildConfigs] at h
    split at h
    · cases h
    · rename_i cp config hb
      have hbuilt := buildConfig_ok hb
      have hadd := configsFor_addConfig acc cp config product id
      obtain ⟨ih1, ih2⟩ := ih h
      constructor
      · intro hnone
        by_cases hcp : cp = ⟨id, product⟩
        · -- this path is the first listed
          have hfirst : firstListed (path :: rest) product id = some path := by
            simp [firstListed, hbuilt.parsed, hcp]
          rw [hfirst]
          refine ⟨config, ih2 config ?_, hcp ▸ hbuilt⟩
          rw [hadd, if_pos ⟨hcp, hnone⟩]
        · have hfirst : firstListed (path :: rest) product id =
              firstListed rest product id := by
            simp [firstListed, hbuilt.parsed, hcp]
          rw [hfirst]
          apply ih1
          rw [hadd, if_neg (fun hh => hcp hh.1), hnone]
      · intro c hc
        apply ih2
        rw [hadd, if_neg (fun hh => by rw [hc] at hh; cases hh.2), hc]

theorem configsFor_built {paths : List Bytes} {configs : StringMap (StringMap Config)}
    (h : buildConfigs ord products targets targetFiles paths ∅ = .ok configs)
    {product id : Bytes} {c : Config} (hc : (configsFor configs product)[id]? = some c) :
    ∃ path, firstListed paths product id = some path ∧
      Built products targets targetFiles path ⟨id, product⟩ c := by
  have hempty : (configsFor (∅ : StringMap (StringMap Config)) product)[id]? = none := by
    simp [configsFor]
  have hspec := (buildConfigs_ok h).1 hempty
  cases hf : firstListed paths product id with
  | none =>
    rw [hf] at hspec
    rw [hspec] at hc
    cases hc
  | some path =>
    rw [hf] at hspec
    obtain ⟨c', hc', hb⟩ := hspec
    rw [hc] at hc'
    cases hc'
    exact ⟨path, rfl, hb⟩

theorem configsFor_product {paths : List Bytes} {configs : StringMap (StringMap Config)}
    (h : buildConfigs ord products targets targetFiles paths ∅ = .ok configs)
    {product id : Bytes} {c : Config} (hc : (configsFor configs product)[id]? = some c) :
    c.product = product := by
  obtain ⟨_, _, hbuilt⟩ := configsFor_built h hc
  exact hbuilt.hasProduct

theorem configsFor_none_iff {paths : List Bytes} {configs : StringMap (StringMap Config)}
    (h : buildConfigs ord products targets targetFiles paths ∅ = .ok configs)
    {product id : Bytes} :
    (configsFor configs product)[id]? = none ↔ firstListed paths product id = none := by
  have hempty : (configsFor (∅ : StringMap (StringMap Config)) product)[id]? = none := by
    simp [configsFor]
  have hspec := (buildConfigs_ok h).1 hempty
  cases hf : firstListed paths product id with
  | none =>
    rw [hf] at hspec
    simp [hspec]
  | some path =>
    rw [hf] at hspec
    obtain ⟨c', hc', _⟩ := hspec
    simp [hc']

/-! ## What every reachable client keeps -/

/-- Each config is stored where its path says. -/
def Client.Filed (c : Client σ) : Prop :=
  ∀ (name : Bytes) (p : Product σ), c.products[name]? = some p →
    ∀ (id : Bytes) (config : Config), p.configs[id]? = some config →
      ConfigPath.fromPath config.path = some ⟨id, name⟩ ∧ config.product = name

theorem assignAll_visited {configs : StringMap (StringMap Config)}
    {products' : StringMap (Product σ)} {w w' : σ}
    (h : assignAll ord configs products w = (.ok (), products', w')) {name : Bytes}
    {p' : Product σ} (hp' : products'[name]? = some p') :
    ∃ p w₁ w₂, products[name]? = some p ∧
      p.assignConfigs ord (configsFor configs name) w₁ = (.ok (), p', w₂) :=
  forEach_visited h hp'

theorem processResponse_filed {response : GetConfigsResponse} {c c' : Client σ} {w w' : σ}
    (h : processResponse ord response c w = (.ok true, c', w')) (hc : c.Filed) :
    c'.Filed := by
  rcases processResponse_ok_true h with
    ⟨_, rfl, _⟩ | ⟨targets, configs, w₁, products, w₂, _, hb, _, ha, _, rfl⟩
  · exact hc
  · intro name p' hp' id config hconf
    obtain ⟨p, wa, wb, hp, hassign⟩ := assignAll_visited ha hp'
    refine Product.assignConfigs_of (k := id) (f := fun config =>
      ConfigPath.fromPath config.path = some ⟨id, name⟩ ∧ config.product = name)
      (fun _ _ _ hx => hx) hassign ?_ ?_ hconf
    · exact fun stored hs => hc name p hp id stored hs
    · intro new hnew
      obtain ⟨path, _, hbuilt⟩ := configsFor_built hb hnew
      exact ⟨by rw [hbuilt.hasPath]; exact hbuilt.parsed, hbuilt.hasProduct⟩

/-- The products of a client keep their names and listeners, and none is
added or dropped. -/
theorem processResponse_static {response : GetConfigsResponse} {c c' : Client σ} {w w' : σ}
    (h : processResponse ord response c w = (.ok true, c', w')) :
    c'.listeners = c.listeners ∧ ∀ name : Bytes,
      (c.products[name]? ≠ none → c'.products[name]? ≠ none) ∧
      ∀ p', c'.products[name]? = some p' → ∃ p, c.products[name]? = some p ∧
        p'.listener = p.listener := by
  rcases processResponse_ok_true h with
    ⟨_, rfl, _⟩ | ⟨targets, configs, w₁, products, w₂, _, _, _, ha, _, rfl⟩
  · exact ⟨rfl, fun name => ⟨fun hn => hn, fun p' hp' => ⟨p', hp', rfl⟩⟩⟩
  · refine ⟨rfl, fun name => ⟨forEntries_keeps_key _ ha, fun p' hp' => ?_⟩⟩
    obtain ⟨p, wa, wb, hp, hassign⟩ := assignAll_visited ha hp'
    exact ⟨p, hp, (Product.assignConfigs_static hassign).2⟩

/-! ## The apply phase, seen from one product -/

section Frame

variable (Rel : σ → σ → Prop) {configs : StringMap (StringMap Config)}
  {response : GetConfigsResponse} {c : Client σ} {products' : StringMap (Product σ)}
  {w w' : σ}

/-- Each product stays within what its listener's calls respect. -/
theorem assignConfigs_rel_of_filed (hfiled : c.Filed)
    (hb : buildConfigs ord c.products targets response.targetFiles
      response.clientConfigs ∅ = .ok configs)
    {name : Bytes} {p p' : Product σ} {w w' : σ} {r : Except Exception Unit}
    (hp : c.products[name]? = some p) (hl : p.listener.Respects name Rel)
    (h : p.assignConfigs ord (configsFor configs name) w = (r, p', w')) : Rel w w' := by
  refine Product.assignConfigs_rel hl ?_ ?_ h
  · exact fun id config hc => (hfiled name p hp id config hc).2
  · exact fun id config hc => configsFor_product hb hc

/-- **The apply phase from one product**: what the others do before and
after it stays within a relation their listeners respect. -/
theorem assignAll_isolate (hrefl : ∀ w, Rel w w)
    (htrans : ∀ a b c, Rel a b → Rel b c → Rel a c) (hfiled : c.Filed)
    (hb : buildConfigs ord c.products targets response.targetFiles
      response.clientConfigs ∅ = .ok configs)
    {name₀ : Bytes} {p₀ : Product σ}
    (hother : ∀ (name : Bytes) p, name ≠ name₀ → c.products[name]? = some p →
      p.listener.Respects name Rel)
    (ha : assignAll ord configs c.products w = (.ok (), products', w'))
    (hp₀ : c.products[name₀]? = some p₀) :
    ∃ w₁ p' w₂, Rel w w₁ ∧
      p₀.assignConfigs ord (configsFor configs name₀) w₁ = (.ok (), p', w₂) ∧
      Rel w₂ w' ∧ products'[name₀]? = some p' := by
  refine forEach_isolate Rel hrefl htrans ?_ ha hp₀
  intro name p w r p' w' hne hp h
  exact assignConfigs_rel_of_filed Rel hfiled hb hp (hother name p hne hp) h

theorem assignAll_rel (hrefl : ∀ w, Rel w w)
    (htrans : ∀ a b c, Rel a b → Rel b c → Rel a c) (hfiled : c.Filed)
    (hb : buildConfigs ord c.products targets response.targetFiles
      response.clientConfigs ∅ = .ok configs)
    (hall : ∀ (name : Bytes) p, c.products[name]? = some p →
      p.listener.Respects name Rel)
    (ha : assignAll ord configs c.products w = (.ok (), products', w')) : Rel w w' := by
  refine forEach_rel Rel hrefl htrans ?_ ha
  intro name p w r p' w' hp h
  exact assignConfigs_rel_of_filed Rel hfiled hb hp (hall name p hp) h

end Frame

/-! ## The products of a fresh client -/

/-- Every product has no config and one of the listeners that support it. -/
def Client.Fresh (listeners : List (Listener σ)) (c : Client σ) : Prop :=
  ∀ (name : Bytes) (p : Product σ), c.products[name]? = some p → p.configs = ∅ ∧
    ∃ l ∈ listeners, p.listener = l ∧ name ∈ l.supportedProducts.map Prod.fst

theorem Client.register_fresh {listeners : List (Listener σ)} {l : Listener σ}
    (hl : l ∈ listeners) {c : Client σ} {supported : Bytes × BitVec 16}
    (hs : supported ∈ l.supportedProducts) (h : c.Fresh listeners) :
    (Client.register l c supported).Fresh listeners := by
  intro name p hp
  rw [Client.register, StringMap.getElem?_insertIfNew] at hp
  split at hp
  · rename_i hk
    cases hp
    exact ⟨rfl, l, hl, rfl, hk.1 ▸ List.mem_map_of_mem hs⟩
  · exact h name p hp

theorem Client.new_fresh (listeners : List (Listener σ)) :
    (Client.new listeners).Fresh listeners := by
  have houter : ∀ (ls : List (Listener σ)) (c : Client σ), (∀ l ∈ ls, l ∈ listeners) →
      c.Fresh listeners →
      (ls.foldl (fun c l => l.supportedProducts.foldl (Client.register l) c) c).Fresh
        listeners := by
    intro ls
    induction ls with
    | nil => exact fun c _ hc => hc
    | cons l ls ih =>
      intro c hls hc
      refine ih _ (fun l' hl' => hls l' (List.mem_cons_of_mem _ hl')) ?_
      have hinner : ∀ (sp : List (Bytes × BitVec 16)) (c : Client σ),
          (∀ s ∈ sp, s ∈ l.supportedProducts) → c.Fresh listeners →
          (sp.foldl (Client.register l) c).Fresh listeners := by
        intro sp
        induction sp with
        | nil => exact fun c _ hc => hc
        | cons s sp ih =>
          intro c hsp hc
          refine ih _ (fun s' hs' => hsp s' (List.mem_cons_of_mem _ hs')) ?_
          exact Client.register_fresh (hls l (by simp)) (hsp s (by simp)) hc
      exact hinner _ c (fun _ hs => hs) hc
  refine houter listeners _ (fun _ hl => hl) ?_
  intro name p hp
  simp at hp

theorem Client.register_isSome (l : Listener σ) (c : Client σ)
    (supported : Bytes × BitVec 16) (name : Bytes) :
    ((Client.register l c supported).products[name]?).isSome = true ↔
      name = supported.1 ∨ (c.products[name]?).isSome = true := by
  show ((c.products.insertIfNew supported.1 _)[name]?).isSome = true ↔ _
  rw [StringMap.getElem?_insertIfNew]
  by_cases hname : supported.1 = name
  · subst hname
    cases h : c.products[supported.1]? <;> simp
  · rw [if_neg (fun h => hname h.1)]
    have hne : name ≠ supported.1 := fun h => hname h.symm
    simp [hne]

/-- A client has exactly the products its listeners support. -/
theorem Client.new_isSome (listeners : List (Listener σ)) (name : Bytes) :
    ((Client.new listeners).products[name]?).isSome = true ↔
      ∃ l ∈ listeners, name ∈ l.supportedProducts.map Prod.fst := by
  have hinner : ∀ (l : Listener σ) (sp : List (Bytes × BitVec 16)) (c : Client σ),
      ((sp.foldl (Client.register l) c).products[name]?).isSome = true ↔
        name ∈ sp.map Prod.fst ∨ (c.products[name]?).isSome = true := by
    intro l sp
    induction sp with
    | nil => simp
    | cons s sp ih =>
      intro c
      rw [List.foldl_cons, ih, Client.register_isSome, List.map_cons, List.mem_cons]
      tauto
  have houter : ∀ (ls : List (Listener σ)) (c : Client σ),
      ((ls.foldl (fun c l => l.supportedProducts.foldl (Client.register l) c)
        c).products[name]?).isSome = true ↔
        (∃ l ∈ ls, name ∈ l.supportedProducts.map Prod.fst) ∨
          (c.products[name]?).isSome = true := by
    intro ls
    induction ls with
    | nil => simp
    | cons l ls ih =>
      intro c
      rw [List.foldl_cons, ih, hinner]
      simp only [List.mem_cons, exists_eq_or_imp]
      rw [or_left_comm, or_assoc]
  rw [Client.new, houter]
  simp
/-- The listeners of a client, visited in order, stay within a relation that
each of their calls respects. -/
theorem forListeners_rel {call : Listener σ → σ → Except Exception Unit × σ}
    (Rel : σ → σ → Prop) (hrefl : ∀ w, Rel w w)
    (htrans : ∀ a b c, Rel a b → Rel b c → Rel a c) :
    ∀ {ls : List (Listener σ)} {w w' : σ} {r : Except Exception Unit},
      (∀ l ∈ ls, ∀ w r w', call l w = (r, w') → Rel w w') →
      forListeners call ls w = (r, w') → Rel w w' := by
  intro ls
  induction ls with
  | nil =>
    intro w w' r _ h
    cases h
    exact hrefl w
  | cons l ls ih =>
    intro w w' r hl h
    rw [forListeners] at h
    split at h
    · rename_i w₁ hc
      exact htrans _ _ _ (hl l (by simp) _ _ _ hc)
        (ih (fun l' hl' => hl l' (List.mem_cons_of_mem _ hl')) h)
    · rename_i w₁ hc
      cases h
      exact hl l (by simp) _ _ _ hc

end DdAppsec.Helper.RemoteConfig
