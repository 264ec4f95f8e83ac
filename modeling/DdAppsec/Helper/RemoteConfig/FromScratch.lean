import DdAppsec.Helper.RemoteConfig.Effective
import DdAppsec.Helper.RemoteConfig.Requests
import DdAppsec.Helper.RemoteConfig.Survival

/-!
# RemoteConfig — incremental updates against a fresh start

A client applies what changed since the last response. `Tracks` is the
invariant that makes this as good as starting over: the stored configs have
the contents their hashes stand for, and the engine's values are those that
the stored configs stand for. A poll keeps it whether it touches a product
or not, and whether or not a config could be applied.

`incremental_eq_fromScratch` compares with a fresh client that is given the
last response, with the files the response could leave out because the
client had them.
-/

namespace DdAppsec.Helper.RemoteConfig

open Lib

variable {Sub : Type}

/-! ## The conditions -/

/-- Nothing under the keys of ASM and ASM_DATA. -/
def LacksKeys (ms : Members) : Prop := ∀ key ∈ effectiveKeys, Members.find ms key = none

/-- What is assumed of the contents of a config: data of one type for each
id and without expirations of 0, and rules without the keys of others. -/
structure Lawful (deps : Deps) (typeOf : Bytes → Bytes) (product contents : Bytes) : Prop where
  data : product = asmDataProduct → UniformData deps typeOf contents
  rules : product = asmDdProduct → ∀ doc,
    getJsonBase64EncodedContent deps contents = some (.object doc) → LacksKeys doc

/-- **The conditions on a poll**: the hashes of a config determine its
contents, the contents are lawful, and so is the fallback file. -/
structure LawfulPoll (deps : Deps) (contentOf : StringMap Bytes → Bytes)
    (typeOf : Bytes → Bytes) (fallback : Bytes) (poll : Poll) : Prop where
  contents : ∀ path ∈ poll.response.clientConfigs, ∀ targets target file,
    poll.response.targets = some targets → targets.paths[path]? = some target →
    poll.response.targetFiles[path]? = some file → file.raw = contentOf target.hashes
  lawful : ∀ path ∈ poll.response.clientConfigs, ∀ cp file,
    ConfigPath.fromPath path = some cp → poll.response.targetFiles[path]? = some file →
    Lawful deps typeOf cp.product file.raw
  fallback : ∀ ruleset, EngineRuleset.fromPath deps poll.files fallback = .ok ruleset →
    LacksKeys ruleset.members

/-- The same for what a poll makes of the client's state. -/
structure LawfulStep (deps : Deps) (contentOf : StringMap Bytes → Bytes)
    (typeOf : Bytes → Bytes) (fallback : Bytes) (s : Service Sub) (poll : Poll)
    (targets : Targets) : Prop where
  contents : ∀ product id path target contents,
    firstListed poll.response.clientConfigs product id = some path →
    targets.paths[path]? = some target →
    effectiveContents (s.configsOf product) targets poll.response.targetFiles id path =
      some contents →
    contents = contentOf target.hashes ∧ Lawful deps typeOf product contents
  fallback : ∀ (id : Bytes) (c : Config), (s.configsOf asmDdProduct)[id]? = some c →
    ∀ ruleset, EngineRuleset.fromPath deps poll.files fallback = .ok ruleset →
    LacksKeys ruleset.members

/-! ## One poll -/

section Poll

variable {deps : Deps} {updateSub : Sub → Parameter → Option Sub} {fallback : Bytes}
  {dynamicEnablement : Bool} {contentOf : StringMap Bytes → Bytes} {typeOf : Bytes → Bytes}
  {s s' : Service Sub} {poll : Poll} {targets : Targets}

/-- Two products do not share an aggregator. -/
theorem ofProduct_inj {a b : Bytes} {id : AggregatorId} (ha : AggregatorId.ofProduct a = some id)
    (hb : AggregatorId.ofProduct b = some id) : a = b := by
  rcases ofProduct_eq_some ha with ⟨rfl, rfl⟩ | ⟨rfl, rfl⟩ | ⟨rfl, rfl⟩ <;>
    rcases ofProduct_eq_some hb with ⟨hid, rfl⟩ | ⟨hid, rfl⟩ | ⟨hid, rfl⟩ <;>
    first | rfl | cases hid

theorem others_respect_aggregator (hinv : s.Inv deps updateSub fallback dynamicEnablement true)
    {id : AggregatorId} {product name : Bytes} (hid : AggregatorId.ofProduct product = some id)
    {p : Product (World Sub)} (hne : name ≠ product) (hp : s.1.products[name]? = some p) :
    p.listener.Respects name (SameAggregator id : World Sub → World Sub → Prop) := by
  by_cases hf : name = asmFeaturesProduct
  · subst hf
    rw [hinv.features hp]
    exact asmFeaturesListener_respects_aggregator id _
  · rw [hinv.engine hp hf]
    exact engineListener_respects_aggregator fun hn => hne (ofProduct_inj hn hid)

/-- The products of a service after a poll are those it had. -/
theorem processPoll_products (h : processPoll s poll = some s') (name : Bytes) :
    s'.1.products[name]? = none ↔ s.1.products[name]? = none := by
  obtain ⟨_, hprod⟩ := processResponse_static (processPoll_some h)
  obtain ⟨hkept, hold⟩ := hprod name
  constructor
  · intro hnone
    cases hp : s.1.products[name]? with
    | none => rfl
    | some p => exact absurd hnone (hkept (by rw [hp]; exact Option.some_ne_none p))
  · intro hnone
    cases hp' : s'.1.products[name]? with
    | none => rfl
    | some p' =>
      obtain ⟨p, hp, _⟩ := hold p' hp'
      rw [hnone] at hp
      cases hp

/-- **A poll, seen from an aggregator.** -/
theorem poll_aggregator (hinv : s.Inv deps updateSub fallback dynamicEnablement true)
    (h : processPoll s poll = some s') {configs : StringMap (StringMap Config)}
    {wc : World Sub}
    (hb : buildConfigs poll.order s.1.products targets poll.response.targetFiles
      poll.response.clientConfigs ∅ = .ok configs)
    (ha : assignAll poll.order configs s.1.products (engineInit (s.2.during poll)) =
      (.ok (), s'.1.products, wc))
    {id : AggregatorId} {product : Bytes} (hid : AggregatorId.ofProduct product = some id)
    (R : StringMap Bytes → World Sub → Prop)
    (hsame : ∀ m a b, SameAggregator id a b → R m a → R m b)
    (hempty : ∀ w : World Sub, id ∉ w.listener.toCommit → R ∅ w)
    (hupdate : ∀ p m (k : Bytes) c w r w', s.1.products[product]? = some p →
      (classify poll.order p.configs (configsFor configs product)).toUpdate[k]? = some c →
      m[k]? = none → c.product = product → R m w → engineOnUpdate deps c w = (r, w') →
      R (m.insert k c.contents) w')
    (hunapply : ∀ m c w r w', c.product = product → R m w →
      engineOnUnapply deps fallback c w = (r, w') → R m w') :
    (id ∉ wc.listener.toCommit ∧
        contentsOf (s'.configsOf product) = contentsOf (s.configsOf product)) ∨
      (id ∈ wc.listener.toCommit ∧ R (contentsOf (s'.configsOf product)) wc) := by
  have hnot : id ∉ (engineInit (s.2.during poll)).listener.toCommit := by
    simp [engineInit]
  cases hp : s.1.products[product]? with
  | none =>
    -- nobody supports the product, so nobody touched its aggregator
    have hframe := assignAll_rel (SameAggregator id) (SameAggregator.refl id)
      (SameAggregator.trans id) hinv.filed hb
      (fun name q hq => others_respect_aggregator hinv hid
        (by rintro rfl; rw [hp] at hq; cases hq) hq) ha
    refine Or.inl ⟨fun hmem => hnot (hframe.touched.mp hmem), ?_⟩
    rw [Service.configsOf_of_none hp,
      Service.configsOf_of_none ((processPoll_products h product).mpr hp)]
  | some p =>
    obtain ⟨w₁, p', w₂, hbefore, hassign, hafter, hp'⟩ :=
      assignAll_isolate (SameAggregator id) (SameAggregator.refl id) (SameAggregator.trans id)
        hinv.filed hb (fun name q hne hq => others_respect_aggregator hinv hid hne hq) ha hp
    have hnot₁ : id ∉ w₁.listener.toCommit := fun hmem => hnot (hbefore.touched.mp hmem)
    have hfeatures : product ≠ asmFeaturesProduct := by
      rintro rfl
      rw [show AggregatorId.ofProduct asmFeaturesProduct = none by decide] at hid
      cases hid
    rw [Service.configsOf_of_some hp, Service.configsOf_of_some hp']
    rcases assign_aggregator R hid (hinv.engine hp hfeatures)
      (fun k c hc => (hinv.filed _ p hp k c hc).2)
      (fun k c hc => configsFor_product hb hc)
      (fun m k c w r w' => hupdate p m k c w r w' hp) hunapply (hempty w₁ hnot₁) hassign with
      ⟨rfl, hcontents⟩ | ⟨htouched, hR⟩
    · exact Or.inl ⟨fun hmem => hnot₁ (hafter.touched.mp hmem), hcontents⟩
    · exact Or.inr ⟨hafter.touched.mpr htouched, hsame _ _ _ hafter hR⟩

/-- **What a poll leaves in the store**: the first path listed for an id,
with the contents the poll makes of it. -/
theorem processPoll_stored (hfiled : s.1.Filed) (h : processPoll s poll = some s')
    (ht : poll.response.targets = some targets) {product id : Bytes} {c : Config}
    (hc : (s'.configsOf product)[id]? = some c) :
    ∃ path target, firstListed poll.response.clientConfigs product id = some path ∧
      targets.paths[path]? = some target ∧ c.hashes = target.hashes ∧
      effectiveContents (s.configsOf product) targets poll.response.targetFiles id path =
        some c.contents := by
  cases hp' : s'.1.products[product]? with
  | none =>
    rw [Service.configsOf_of_none hp'] at hc
    simp at hc
  | some p' =>
    rw [Service.configsOf_of_some hp'] at hc
    have hprocess := processPoll_some h
    obtain ⟨path, target, p, hfirst, htarget, hp, hhashes, _⟩ :=
      processResponse_stored ht hprocess hp' hc
    refine ⟨path, target, hfirst, htarget, hhashes, ?_⟩
    rcases processResponse_ok_true hprocess with
      ⟨hn, _, _⟩ | ⟨targets', configs, _, products, _, ht', hb, _, ha, _, heq⟩
    · rw [ht] at hn
      cases hn
    · rw [ht] at ht'
      cases ht'
      rw [heq] at hp'
      obtain ⟨p₀, _, _, hp₀, hassign⟩ := assignAll_visited ha hp'
      obtain ⟨hgone, hkept⟩ := Product.assignConfigs_configs hassign id
      rw [Service.configsOf_of_some hp₀]
      cases hnew : (configsFor configs product)[id]? with
      | none =>
        rw [hgone hnew] at hc
        cases hc
      | some new =>
        obtain ⟨path', hfirst', hbuilt⟩ := configsFor_built hb hnew
        rw [hfirst] at hfirst'
        cases hfirst'
        obtain ⟨_, _, hconfig⟩ := hkept new hnew
        rw [hconfig] at hc
        cases hc
        exact hbuilt.effectiveContents_eq hfiled hp₀

/-- The status of a config depends on its contents. -/
theorem asmFeaturesStatus_congr {a b : Config} (h : a.contents = b.contents) :
    asmFeaturesStatus deps a = asmFeaturesStatus deps b := by
  unfold asmFeaturesStatus
  rw [h]

/-- **What is stored has been read**: a call that applied the config came
back, so no accessor was misused on its contents. -/
theorem processPoll_readable (hinv : s.Inv deps updateSub fallback dynamicEnablement true)
    (hread : ∀ (product id : Bytes) (c : Config), (s.configsOf product)[id]? = some c →
      Readable deps product c.contents)
    (h : processPoll s poll = some s') (ht : poll.response.targets = some targets)
    {product id : Bytes} {c : Config} (hc : (s'.configsOf product)[id]? = some c) :
    Readable deps product c.contents := by
  cases hp' : s'.1.products[product]? with
  | none =>
    rw [Service.configsOf_of_none hp'] at hc
    simp at hc
  | some p' =>
    rw [Service.configsOf_of_some hp'] at hc
    obtain ⟨configs, wc, hb, ha, _, _⟩ := processPoll_engine hinv h ht
    obtain ⟨p, w₁, w₂, hp, hassign⟩ := assignAll_visited ha hp'
    rcases Product.assignConfigs_ok hassign with
      ⟨_, rfl, _⟩ | ⟨_, updated, w₃, _, hu, _, rfl⟩
    · exact hread product id c (by rw [Service.configsOf_of_some hp]; exact hc)
    · obtain ⟨c₀, wa, wb, hc₀, hvisit⟩ := forEach_visited hu hc
      have hcall : ∃ r, p.listener.onUpdate c₀ wa = (r, wb) ∧ r ≠ .error .assertion ∧
          c.contents = c₀.contents := by
        rcases applyConfig_ok hvisit with ⟨hcall, rfl⟩ | ⟨what, hcall, rfl⟩
        · exact ⟨_, hcall, (fun hbad => nomatch hbad), rfl⟩
        · exact ⟨_, hcall, (fun hbad => nomatch hbad), rfl⟩
      obtain ⟨r, hcall, hr, hcontents⟩ := hcall
      rw [hcontents]
      have hproduct : c₀.product = product :=
        classify_toUpdate_of (f := fun c => c.product = product) (fun _ _ _ hx => hx)
          (fun k c hk => (hinv.filed _ p hp k c hk).2)
          (fun k c hk => configsFor_product hb hk) hc₀
      constructor
      · intro hfeatures config hconfig hbad
        subst hfeatures
        rw [hinv.features hp] at hcall
        rw [asmFeaturesStatus_congr hconfig] at hbad
        simp only [asmFeaturesListener, hbad] at hcall
        cases hcall
        exact hr rfl
      · intro hdata hbad
        subst hdata
        rw [hinv.engine hp (by decide)] at hcall
        obtain ⟨_, _, _, ⟨fresh, hfresh, _⟩ | ⟨e, he, hre, _⟩⟩ :=
          onUpdate_asmData hproduct hcall
        · rw [hbad] at hfresh
          cases hfresh
        · rw [hbad] at he
          cases he
          exact hr hre

/-- The section of ASM_DD has none of the keys. -/
theorem poll_asmDd_lacks (hinv : s.Inv deps updateSub fallback dynamicEnablement true)
    {configs : StringMap (StringMap Config)} {wc : World Sub}
    (hb : buildConfigs poll.order s.1.products targets poll.response.targetFiles
      poll.response.clientConfigs ∅ = .ok configs)
    (ha : assignAll poll.order configs s.1.products (engineInit (s.2.during poll)) =
      (.ok (), s'.1.products, wc))
    (hrules : ∀ (id : Bytes) (c : Config), (s'.configsOf asmDdProduct)[id]? = some c →
      ∀ doc, getJsonBase64EncodedContent deps c.contents = some (.object doc) → LacksKeys doc)
    (hfallback : ∀ (id : Bytes) (c : Config), (s.configsOf asmDdProduct)[id]? = some c →
      ∀ ruleset, EngineRuleset.fromPath deps poll.files fallback = .ok ruleset →
      LacksKeys ruleset.members)
    (htouched : AggregatorId.asmDd ∈ wc.listener.toCommit) : LacksKeys wc.listener.asmDd := by
  have hnot : AggregatorId.asmDd ∉ (engineInit (s.2.during poll)).listener.toCommit := by
    simp [engineInit]
  cases hp : s.1.products[asmDdProduct]? with
  | none =>
    have hframe := assignAll_rel SameAsmDd SameAsmDd.refl SameAsmDd.trans hinv.filed hb
      (fun name q hq => others_respect_asmDd hinv (by rintro rfl; rw [hp] at hq; cases hq) hq)
      ha
    exact absurd (hframe.toCommit.mp htouched) hnot
  | some p =>
    obtain ⟨w₁, p', w₂, hbefore, hassign, hafter, hp'⟩ :=
      assignAll_isolate SameAsmDd SameAsmDd.refl SameAsmDd.trans hinv.filed hb
        (fun name q hne hq => others_respect_asmDd hinv hne hq) ha hp
    have hnot₁ : AggregatorId.asmDd ∉ w₁.listener.toCommit := fun hmem =>
      hnot (hbefore.toCommit.mp hmem)
    have hmem₂ : AggregatorId.asmDd ∈ w₂.listener.toCommit := hafter.toCommit.mp htouched
    rw [hafter.asmDd, ← asmDdRules_of_touched hmem₂]
    rw [Service.configsOf_of_some hp'] at hrules
    rw [Service.configsOf_of_some hp] at hfallback
    rcases assign_asmDd (hinv.engine hp (by decide))
      (fun k c hc => (hinv.filed _ p hp k c hc).2)
      (fun k c hc => configsFor_product hb hc) hnot₁ hassign with
      rfl | (⟨id, c, hc, _, hdoc⟩ | ⟨_, hnil⟩) | ⟨_, ⟨k, c, hc, _⟩, hpath, _⟩
    · exact absurd hmem₂ hnot₁
    · exact hrules id c hc _ hdoc
    · intro key _
      rw [hnil]
      rfl
    · exact hfallback k c hc ⟨asmDdRules w₂⟩ (by rw [← hpath, hbefore.files]; rfl)

/-- What the engine has for a key is what the stored configs stand for. -/
def Service.UpToDate (deps : Deps) (s : Service Sub) : Prop :=
  ∀ key ∈ effectiveKeys, SameUpToOrder (effective s.2.commits key)
    (.array (configured deps (contentsOf (s.configsOf asmProduct))
      (contentsOf (s.configsOf asmDataProduct)) key))

/-- **A poll keeps the engine up to date.** -/
theorem processPoll_upToDate (hinv : s.Inv deps updateSub fallback dynamicEnablement true)
    (hs : s.UpToDate deps) (h : processPoll s poll = some s')
    (ht : poll.response.targets = some targets)
    (hstep : LawfulStep deps contentOf typeOf fallback s poll targets) : s'.UpToDate deps := by
  obtain ⟨configs, wc, hb, ha, hsame, hs'⟩ := processPoll_engine hinv h ht
  have hcommits : wc.commits = s.2.commits := hsame.commits
  have hdd : AggregatorId.asmDd ∈ wc.listener.toCommit → LacksKeys wc.listener.asmDd := by
    refine poll_asmDd_lacks hinv hb ha ?_ hstep.fallback
    intro id c hc
    obtain ⟨path, target, hfirst, htarget, _, hcontents⟩ :=
      processPoll_stored hinv.filed h ht hc
    exact (hstep.contents _ _ _ _ _ hfirst htarget hcontents).2.rules rfl
  have hasm := poll_aggregator hinv h hb ha ofProduct_asm (HoldsAsm deps)
    (fun m a b hab hR => by
      obtain ⟨arrays, harrays, hperm⟩ := hR
      exact ⟨arrays, hab.asmRules_eq.trans harrays, hperm⟩)
    (fun w hw => HoldsAsm.empty hw)
    (fun p m k c w r w' _ _ hm hc hR hcall => hR.update hm hc hcall)
    (fun m c w r w' hc hR hcall => hR.unapply hc hcall)
  have hdata := poll_aggregator hinv h hb ha ofProduct_asmData (HoldsData deps typeOf)
    (fun m a b hab hR => ⟨hR.uniform, hab.dataRules_eq.trans hR.rules⟩)
    (fun w hw => HoldsData.empty hw)
    (fun p m k c w r w' hp hk hm hc hR hcall => by
      refine hR.update hm hc ?_ hcall
      obtain ⟨path, target, hfirst, htarget, hcontents⟩ :=
        toUpdate_effective hinv.filed hb hp hk
      rw [← Service.configsOf_of_some hp] at hcontents
      exact (hstep.contents _ _ _ _ _ hfirst htarget hcontents).2.data rfl)
    (fun m c w r w' hc hR hcall => hR.unapply hc hcall)
  intro key hkey
  have hold := hs key hkey
  rw [← hcommits] at hold
  rw [hs']
  unfold configured at hold ⊢
  by_cases hkeyData : key = Bytes.ofString "rules_data"
  · rw [if_pos hkeyData] at hold ⊢
    subst hkeyData
    refine commit_data (fun htouched => hdd htouched _ hkey) ?_ hdata hold
    intro htouched
    rcases hasm with ⟨hnot, _⟩ | ⟨_, hR⟩
    · exact absurd htouched hnot
    · exact ⟨_, hR⟩
  · rw [if_neg hkeyData] at hold ⊢
    exact commit_asm (asmKey_of_ne hkey hkeyData) hkeyData (fun htouched => hdd htouched _ hkey)
      hasm hold

theorem processPoll_stores (h : processPoll s poll = some s')
    (ht : poll.response.targets = some targets) {product id path : Bytes}
    (hfirst : firstListed poll.response.clientConfigs product id = some path) :
    ∃ c, (s'.configsOf product)[id]? = some c := by
  obtain ⟨hmem, hpath⟩ := firstListed_some hfirst
  obtain ⟨cp, p', c, hcp, hp', hc⟩ := processResponse_stores ht (processPoll_some h) hmem
  rw [hpath] at hcp
  cases hcp
  exact ⟨c, by rw [Service.configsOf_of_some hp']; exact hc⟩

/-- **The contents after a poll** are a function of what the response lists. -/
theorem processPoll_contents (hfiled : s.1.Filed) (h : processPoll s poll = some s')
    (ht : poll.response.targets = some targets)
    (hstep : LawfulStep deps contentOf typeOf fallback s poll targets) (product id : Bytes) :
    (contentsOf (s'.configsOf product))[id]? =
      (firstListed poll.response.clientConfigs product id).bind fun path =>
        targets.paths[path]?.map fun target => contentOf target.hashes := by
  rw [contentsOf_getElem?]
  cases hc : (s'.configsOf product)[id]? with
  | some c =>
    obtain ⟨path, target, hfirst, htarget, _, hcontents⟩ := processPoll_stored hfiled h ht hc
    obtain ⟨hdetermined, _⟩ := hstep.contents _ _ _ _ _ hfirst htarget hcontents
    rw [hfirst, Option.bind_some, htarget, Option.map_some, Option.map_some, hdetermined]
  | none =>
    cases hfirst : firstListed poll.response.clientConfigs product id with
    | none => rfl
    | some path =>
      obtain ⟨c, hsome⟩ := processPoll_stores h ht hfirst
      rw [hc] at hsome
      cases hsome

end Poll

/-! ## The invariant -/

section Run

variable (deps : Deps) (updateSub : Sub → Parameter → Option Sub) (fallback : Bytes)
  (dynamicEnablement : Bool) (contentOf : StringMap Bytes → Bytes) (typeOf : Bytes → Bytes)

/-- **What every run of lawful polls keeps.** -/
structure Tracks (s : Service Sub) : Prop where
  service : s.Inv deps updateSub fallback dynamicEnablement true
  supported : ∀ name : Bytes, s.1.products[name]? = none ↔
    (Client.new (serviceListeners deps updateSub fallback dynamicEnablement true)).products[name]? =
      none
  determined : ∀ (product id : Bytes) (c : Config), (s.configsOf product)[id]? = some c →
    c.contents = contentOf c.hashes
  lawful : ∀ (product id : Bytes) (c : Config), (s.configsOf product)[id]? = some c →
    Lawful deps typeOf product c.contents
  readable : ∀ (product id : Bytes) (c : Config), (s.configsOf product)[id]? = some c →
    Readable deps product c.contents
  upToDate : s.UpToDate deps

variable {deps updateSub fallback dynamicEnablement contentOf typeOf}

theorem Tracks.start (engine : Engine Sub) :
    Tracks deps updateSub fallback dynamicEnablement contentOf typeOf
      (Service.start deps updateSub fallback dynamicEnablement true engine) := by
  have hnothing : ∀ (product id : Bytes) (c : Config),
      ((Service.start deps updateSub fallback dynamicEnablement true engine).configsOf
        product)[id]? ≠ some c := by
    intro product id c hc
    rw [Service.start_configsOf] at hc
    cases hc
  have hempty : ∀ product : Bytes,
      contentsOf ((Service.start deps updateSub fallback dynamicEnablement true
        engine).configsOf product) = ∅ := by
    intro product
    apply StringMap.ext
    intro id
    rw [contentsOf_getElem?, Service.start_configsOf]
    simp
  refine ⟨Service.Inv.start engine, fun name => Iff.rfl,
    fun product id c hc => absurd hc (hnothing product id c),
    fun product id c hc => absurd hc (hnothing product id c),
    fun product id c hc => absurd hc (hnothing product id c), ?_⟩
  intro key _
  rw [hempty, hempty]
  refine ⟨[], [], rfl, ?_, List.Perm.refl _⟩
  unfold configured
  split
  · rfl
  · rfl

variable {s s' : Service Sub} {poll : Poll} {targets : Targets}

theorem Tracks.step
    (hs : Tracks deps updateSub fallback dynamicEnablement contentOf typeOf s)
    (h : processPoll s poll = some s') (ht : poll.response.targets = some targets)
    (hstep : LawfulStep deps contentOf typeOf fallback s poll targets) :
    Tracks deps updateSub fallback dynamicEnablement contentOf typeOf s' := by
  refine ⟨hs.service.step h, fun name => (processPoll_products h name).trans (hs.supported name),
    ?_, ?_, ?_, processPoll_upToDate hs.service hs.upToDate h ht hstep⟩
  · intro product id c hc
    obtain ⟨path, target, hfirst, htarget, hhashes, hcontents⟩ :=
      processPoll_stored hs.service.filed h ht hc
    rw [hhashes]
    exact (hstep.contents _ _ _ _ _ hfirst htarget hcontents).1
  · intro product id c hc
    obtain ⟨path, target, hfirst, htarget, _, hcontents⟩ :=
      processPoll_stored hs.service.filed h ht hc
    exact (hstep.contents _ _ _ _ _ hfirst htarget hcontents).2
  · intro product id c hc
    exact processPoll_readable hs.service hs.readable h ht hc

/-- Lawful polls are lawful for a client that has kept the invariant. -/
theorem LawfulPoll.lawfulStep (hpoll : LawfulPoll deps contentOf typeOf fallback poll)
    (hs : Tracks deps updateSub fallback dynamicEnablement contentOf typeOf s)
    (ht : poll.response.targets = some targets) :
    LawfulStep deps contentOf typeOf fallback s poll targets := by
  refine ⟨?_, fun _ _ _ => hpoll.fallback⟩
  intro product id path target contents hfirst htarget hcontents
  obtain ⟨hmem, hpath⟩ := firstListed_some hfirst
  have hsent : poll.response.targetFiles[path]?.map TargetFile.raw = some contents →
      contents = contentOf target.hashes ∧ Lawful deps typeOf product contents := by
    intro hraw
    obtain ⟨file, hfile, rfl⟩ := Option.map_eq_some_iff.mp hraw
    exact ⟨hpoll.contents path hmem targets target file ht htarget hfile,
      hpoll.lawful path hmem ⟨id, product⟩ file hpath hfile⟩
  unfold effectiveContents at hcontents
  split at hcontents
  · rename_i c target' hc htarget'
    rw [htarget] at htarget'
    cases htarget'
    split at hcontents
    · rename_i hhashes
      cases hcontents
      rw [hhashes]
      exact ⟨hs.determined product id c hc, hs.lawful product id c hc⟩
    · exact hsent hcontents
  · exact hsent hcontents

theorem Tracks.processed (hs : Tracks deps updateSub fallback dynamicEnablement contentOf typeOf s)
    (hpoll : LawfulPoll deps contentOf typeOf fallback poll) (h : processPoll s poll = some s') :
    Tracks deps updateSub fallback dynamicEnablement contentOf typeOf s' := by
  cases ht : poll.response.targets with
  | none =>
    rw [processPoll_no_targets h ht]
    exact ⟨⟨hs.service.listeners, hs.service.served, hs.service.filed⟩, hs.supported,
      hs.determined, hs.lawful, hs.readable, hs.upToDate⟩
  | some targets => exact hs.step h ht (hpoll.lawfulStep hs ht)

/-! ## A fresh client -/

/-- A response that lists the same and carries every file it lists. -/
structure Completes (contentOf : StringMap Bytes → Bytes)
    (response full : GetConfigsResponse) : Prop where
  targets : full.targets = response.targets
  clientConfigs : full.clientConfigs = response.clientConfigs
  files : ∀ path ∈ response.clientConfigs, ∀ targets target,
    response.targets = some targets → targets.paths[path]? = some target →
    ∃ file, full.targetFiles[path]? = some file ∧ file.raw = contentOf target.hashes

theorem effectiveContents_of_none {stored : StringMap Config} {targetFiles : StringMap TargetFile}
    {id path : Bytes} (h : stored[id]? = none) :
    effectiveContents stored targets targetFiles id path =
      targetFiles[path]?.map TargetFile.raw := by
  simp only [effectiveContents, h]

section Fresh

variable {full : Poll}

/-- For a fresh client the contents are those of the files, and the client
that processed the response holds the same. -/
theorem fresh_contents (hs : Tracks deps updateSub fallback dynamicEnablement contentOf typeOf s')
    (h : processPoll s poll = some s') (hfiled : s.1.Filed)
    (ht : poll.response.targets = some targets)
    (hfull : Completes contentOf poll.response full.response) (engine : Engine Sub)
    {product id path : Bytes} {target : TargetPath} {contents : Bytes}
    (hfirst : firstListed poll.response.clientConfigs product id = some path)
    (htarget : targets.paths[path]? = some target)
    (hcontents : effectiveContents
      ((Service.start deps updateSub fallback dynamicEnablement true engine).configsOf product)
      targets full.response.targetFiles id path = some contents) :
    contents = contentOf target.hashes ∧ ∃ c, (s'.configsOf product)[id]? = some c ∧
      c.contents = contents := by
  obtain ⟨hmem, _⟩ := firstListed_some hfirst
  obtain ⟨file, hfile, hraw⟩ := hfull.files path hmem targets target ht htarget
  rw [effectiveContents_of_none (Service.start_configsOf engine product id), hfile,
    Option.map_some] at hcontents
  cases hcontents
  refine ⟨hraw, ?_⟩
  obtain ⟨c, hc⟩ := processPoll_stores h ht hfirst
  obtain ⟨path', target', hfirst', htarget', hhashes, _⟩ := processPoll_stored hfiled h ht hc
  rw [hfirst] at hfirst'
  cases hfirst'
  rw [htarget] at htarget'
  cases htarget'
  exact ⟨c, hc, by rw [hs.determined product id c hc, hhashes, hraw]⟩

theorem fresh_lawfulStep
    (hs : Tracks deps updateSub fallback dynamicEnablement contentOf typeOf s')
    (h : processPoll s poll = some s') (hfiled : s.1.Filed)
    (ht : poll.response.targets = some targets)
    (hfull : Completes contentOf poll.response full.response) (engine : Engine Sub) :
    LawfulStep deps contentOf typeOf fallback
      (Service.start deps updateSub fallback dynamicEnablement true engine) full targets := by
  refine ⟨?_, ?_⟩
  · intro product id path target contents hfirst htarget hcontents
    rw [hfull.clientConfigs] at hfirst
    obtain ⟨hdetermined, c, hc, hsame⟩ :=
      fresh_contents hs h hfiled ht hfull engine hfirst htarget hcontents
    exact ⟨hdetermined, hsame ▸ hs.lawful product id c hc⟩
  · intro id c hc
    rw [Service.start_configsOf] at hc
    cases hc

/-- A fresh client accepts the completed response. -/
theorem fresh_processes
    (hs₀ : Tracks deps updateSub fallback dynamicEnablement contentOf typeOf s)
    (hs : Tracks deps updateSub fallback dynamicEnablement contentOf typeOf s')
    (h : processPoll s poll = some s') (ht : poll.response.targets = some targets)
    (hfull : Completes contentOf poll.response full.response) (engine : Engine Sub) :
    ∃ fresh, processPoll
      (Service.start deps updateSub fallback dynamicEnablement true engine) full = some fresh := by
  have hservice : Service.Inv deps updateSub fallback dynamicEnablement true
      (Client.new (serviceListeners deps updateSub fallback dynamicEnablement true),
        (World.start engine).during full) :=
    (Service.Inv.start engine).of_products rfl rfl
  -- the path was acceptable to a client with the same products
  have hacceptable : ∀ path ∈ poll.response.clientConfigs,
      ¬ Unacceptable s.1.products targets poll.response.targetFiles path := by
    intro path hpath hbad
    obtain ⟨configs, _, hb, _⟩ := processPoll_engine hs₀.service h ht
    obtain ⟨text, hrejected⟩ := (buildConfigs_error_iff _ ∅).mpr ⟨path, hpath, hbad⟩
    rw [hb] at hrejected
    cases hrejected
  have htargets : ∀ path ∈ poll.response.clientConfigs,
      ∃ target, targets.paths[path]? = some target := by
    intro path hpath
    cases htarget : targets.paths[path]? with
    | some target => exact ⟨target, rfl⟩
    | none => exact absurd (.notInTargets htarget) (hacceptable path hpath)
  have haccepted : ∀ path ∈ full.response.clientConfigs, ¬ Unacceptable
      (Client.new (serviceListeners deps updateSub fallback dynamicEnablement true)).products
      targets full.response.targetFiles path := by
    intro path hpath hbad
    rw [hfull.clientConfigs] at hpath
    cases hbad with
    | malformed hmalformed => exact hacceptable path hpath (.malformed hmalformed)
    | notInTargets hmissing => exact hacceptable path hpath (.notInTargets hmissing)
    | notRequested cp hcp hp =>
      exact hacceptable path hpath (.notRequested cp hcp ((hs₀.supported cp.product).mpr hp))
    | noFile cp target product hcp htarget hp hf hc =>
      obtain ⟨file, hfile, _⟩ := hfull.files path hpath targets target ht htarget
      rw [hf] at hfile
      cases hfile
  have hstored : ∀ {name : Bytes} {p : Product (World Sub)},
      (Client.new (serviceListeners deps updateSub fallback dynamicEnablement true)).products[
        name]? = some p → p.configs = (Service.start deps updateSub fallback dynamicEnablement
        true engine).configsOf name :=
    fun hp => (Service.configsOf_of_some hp).symm
  obtain ⟨c', w', hprocess, _⟩ : ∃ c' w', processResponse full.order full.response
      (Client.new (serviceListeners deps updateSub fallback dynamicEnablement true))
      ((World.start engine).during full) = (.ok true, c', w') ∧ Sound full.files w' := by
    refine processResponse_survives hservice (hfull.targets.trans ht) haccepted ?_ ?_
      ⟨rfl, fun _ => [], by rw [asmRules_eq]; rfl⟩
    · intro name p hp cid path contents hfirst hcontents
      rw [hfull.clientConfigs] at hfirst
      obtain ⟨target, htarget⟩ := htargets path (firstListed_some hfirst).1
      rw [hstored hp] at hcontents
      obtain ⟨_, c, hc, hsame⟩ :=
        fresh_contents hs h hs₀.service.filed ht hfull engine hfirst htarget hcontents
      exact hsame ▸ hs.readable name cid c hc
    · intro p hp cid c hc
      rw [hstored hp, Service.start_configsOf] at hc
      cases hc
  exact ⟨(c', w'), by simp only [processPoll, Service.start, hprocess]⟩

end Fresh

/-- Responses without targets change nothing but what the next one finds. -/
theorem run_no_targets {polls : List Poll} (hnone : ∀ poll ∈ polls, poll.response.targets = none)
    (hrun : run processPoll s polls = some s') :
    s'.1 = s.1 ∧ s'.2.commits = s.2.commits := by
  induction polls generalizing s with
  | nil =>
    cases hrun
    exact ⟨rfl, rfl⟩
  | cons poll polls ih =>
    obtain ⟨s₁, hstep, hrest⟩ := run_cons.mp hrun
    rw [processPoll_no_targets hstep (hnone poll (by simp))] at hrest
    obtain ⟨hclient, hcommits⟩ := ih (fun p hp => hnone p (List.mem_cons_of_mem _ hp)) hrest
    exact ⟨hclient, hcommits⟩

end Run

/-- **The incremental path agrees with starting from scratch.** After any run
of lawful polls the engine has, key by key and up to the order of arrays,
what a fresh client gives it that processes the last response with targets,
completed with the files it left out. -/
theorem incremental_eq_fromScratch (deps : Deps) (updateSub : Sub → Parameter → Option Sub)
    (fallback : Bytes) (dynamicEnablement : Bool) (engine engine' : Engine Sub)
    (contentOf : StringMap Bytes → Bytes) (typeOf : Bytes → Bytes)
    (before after : List Poll) (last full : Poll)
    (hlawful : ∀ poll ∈ before ++ last :: after,
      LawfulPoll deps contentOf typeOf fallback poll)
    (hlast : last.response.targets ≠ none)
    (hafter : ∀ poll ∈ after, poll.response.targets = none)
    (hfull : Completes contentOf last.response full.response) (s : Service Sub)
    (hrun : run processPoll (Service.start deps updateSub fallback dynamicEnablement true engine)
      (before ++ last :: after) = some s) :
    ∃ fresh, processPoll
        (Service.start deps updateSub fallback dynamicEnablement true engine') full =
          some fresh ∧
      ∀ key ∈ effectiveKeys,
        SameUpToOrder (effective s.2.commits key) (effective fresh.2.commits key) := by
  obtain ⟨targets, ht⟩ := Option.ne_none_iff_exists'.mp hlast
  rw [run_append] at hrun
  obtain ⟨s₀, hbefore, hrest⟩ := Option.bind_eq_some_iff.mp hrun
  obtain ⟨s₁, hpoll, hidle⟩ := run_cons.mp hrest
  have hlawful₀ : Along processPoll (fun _ poll => LawfulPoll deps contentOf typeOf fallback poll)
      (Service.start deps updateSub fallback dynamicEnablement true engine) before :=
    along_of_forall (fun poll hpoll => hlawful poll (List.mem_append_left _ hpoll)) _
  have hs₀ : Tracks deps updateSub fallback dynamicEnablement contentOf typeOf s₀ :=
    run_invariant (Tracks deps updateSub fallback dynamicEnablement contentOf typeOf)
      (fun _ _ _ hs hp h => hs.processed hp h) (Tracks.start engine) hlawful₀ hbefore
  have hstep := (hlawful last (by simp)).lawfulStep hs₀ ht
  have hs₁ := hs₀.step hpoll ht hstep
  obtain ⟨fresh, hfresh⟩ := fresh_processes hs₀ hs₁ hpoll ht hfull engine'
  refine ⟨fresh, hfresh, ?_⟩
  have hfreshStep := fresh_lawfulStep hs₁ hpoll hs₀.service.filed ht hfull engine'
  have hstart : Tracks deps updateSub fallback dynamicEnablement contentOf typeOf
      (Service.start deps updateSub fallback dynamicEnablement true engine') := Tracks.start engine'
  have hsf := hstart.step hfresh (hfull.targets.trans ht) hfreshStep
  -- both clients hold the same contents
  have hcontents : ∀ product,
      contentsOf (s₁.configsOf product) = contentsOf (fresh.configsOf product) := by
    intro product
    apply StringMap.ext
    intro id
    rw [processPoll_contents hs₀.service.filed hpoll ht hstep,
      processPoll_contents hstart.service.filed hfresh (hfull.targets.trans ht) hfreshStep,
      hfull.clientConfigs]
  obtain ⟨_, hcommits⟩ := run_no_targets hafter hidle
  intro key hkey
  rw [hcommits]
  refine (hs₁.upToDate key hkey).trans ?_
  rw [hcontents, hcontents]
  exact (hsf.upToDate key hkey).symm

/-! ## A file the response leaves out -/

/-- The base64 of a document with one exclusion. -/
def exclusionContents : Bytes := "eyJleGNsdXNpb25zIjpbeyJpZCI6IjEifV19"

def exclusionText : Bytes := "\x7b\"exclusions\":[\x7b\"id\":\"1\"\x7d]\x7d"

def exclusionDeps : Deps :=
  Deps.ofTables [(exclusionContents, exclusionText)]
    [(exclusionText, .object [("exclusions", .array [.object [("id", .string "1")]])])]

/-- The response with the file of the config. -/
def carried : Poll := Poll.ofFile "employee/ASM/a/c" "07" exclusionContents fun _ => none

/-- The same response without it, as the client has it already. -/
def omitted : Poll := { carried with response := { carried.response with targetFiles := ∅ } }

def exclusionStart : Service Unit :=
  Service.start exclusionDeps (fun sub _ => some sub) [] false true ⟨[()], defaultActions⟩

/-- How many exclusions the engine has. -/
def exclusionCount (commits : List Commit) : Nat :=
  match effective commits "exclusions" with
  | .array elems => elems.length
  | _ => 0

theorem carried_lawful {targetFiles : StringMap TargetFile}
    (hfiles : ∀ (path : Bytes) (file : TargetFile), targetFiles[path]? = some file →
      file.raw = exclusionContents) :
    LawfulPoll exclusionDeps (fun _ => exclusionContents) (fun _ => []) []
      { carried with response := { carried.response with targetFiles := targetFiles } } := by
  refine ⟨?_, ?_, ?_⟩
  · intro path _ targets target file _ _ hfile
    exact hfiles path file hfile
  · intro path hpath cp file hcp _
    have hasm : (ConfigPath.fromPath path).map ConfigPath.product = some asmProduct := by
      rw [List.mem_singleton.mp hpath]
      decide +kernel
    rw [hcp] at hasm
    rw [Option.some.inj hasm]
    exact ⟨fun h => absurd h (by decide), fun h => absurd h (by decide)⟩
  · intro ruleset hruleset
    cases hruleset

/-- The run of the two responses. -/
theorem carried_omitted_run :
    (run processPoll exclusionStart [carried, omitted]).map
      (fun s => exclusionCount s.2.commits) = some 1 := by
  decide +kernel

theorem carried_files (path : Bytes) (file : TargetFile)
    (h : carried.response.targetFiles[path]? = some file) : file.raw = exclusionContents := by
  rw [carried, Poll.ofFile, StringMap.getElem?_insert] at h
  split at h
  · cases h
    rfl
  · simp at h

theorem carried_omitted_lawful :
    ∀ poll ∈ [carried, omitted],
      LawfulPoll exclusionDeps (fun _ => exclusionContents) (fun _ => []) [] poll := by
  intro poll hpoll
  rcases List.mem_cons.mp hpoll with rfl | hpoll
  · exact carried_lawful carried_files
  · rw [List.mem_singleton.mp hpoll]
    refine carried_lawful fun path file h => ?_
    simp at h

/-- The file left out is in the client's store, and a fresh client that is
given the file has the same exclusion. -/
theorem omitted_file_completed :
    ∃ s, run processPoll exclusionStart [carried, omitted] = some s ∧
      exclusionCount s.2.commits = 1 ∧
      ∃ fresh, processPoll exclusionStart carried = some fresh ∧
        ∀ key ∈ effectiveKeys,
          SameUpToOrder (effective s.2.commits key) (effective fresh.2.commits key) := by
  obtain ⟨s, hs, hcount⟩ := Option.map_eq_some_iff.mp carried_omitted_run
  refine ⟨s, hs, hcount, ?_⟩
  refine incremental_eq_fromScratch exclusionDeps (fun sub _ => some sub) [] false
    ⟨[()], defaultActions⟩ ⟨[()], defaultActions⟩ (fun _ => exclusionContents) (fun _ => [])
    [carried] [] omitted carried carried_omitted_lawful (fun h => nomatch h)
    (fun _ h => nomatch h) ⟨rfl, rfl, ?_⟩ s hs
  intro path hpath targets target _ _
  refine ⟨⟨path, exclusionContents⟩, ?_, rfl⟩
  rw [List.mem_singleton.mp hpath, carried, Poll.ofFile, StringMap.getElem?_insert, if_pos rfl]

/-- **The last response alone is not enough.** It leaves out a file the
client has; a fresh client has not, rejects the response and commits
nothing. -/
theorem omitted_file_not_fromScratch :
    ∃ s, run processPoll exclusionStart [carried, omitted] = some s ∧
      (∀ poll ∈ [carried, omitted],
        LawfulPoll exclusionDeps (fun _ => exclusionContents) (fun _ => []) [] poll) ∧
      ¬ SameUpToOrder (effective s.2.commits "exclusions")
        (effective (processResponse omitted.order omitted.response exclusionStart.1
          (exclusionStart.2.during omitted)).2.2.commits "exclusions") := by
  obtain ⟨s, hs, hcount⟩ := Option.map_eq_some_iff.mp carried_omitted_run
  refine ⟨s, hs, carried_omitted_lawful, ?_⟩
  have hfresh : exclusionCount (processResponse omitted.order omitted.response exclusionStart.1
      (exclusionStart.2.during omitted)).2.2.commits = 0 := by
    decide +kernel
  rintro ⟨xs, ys, hxs, hys, hperm⟩
  simp only [exclusionCount, hxs] at hcount
  simp only [exclusionCount, hys] at hfresh
  have hlength := hperm.length_eq
  omega

end DdAppsec.Helper.RemoteConfig
