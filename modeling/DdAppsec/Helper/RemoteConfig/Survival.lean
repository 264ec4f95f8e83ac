import DdAppsec.Helper.RemoteConfig.AsmDd
import DdAppsec.Helper.RemoteConfig.Frames
import DdAppsec.Helper.RemoteConfig.Reading

/-!
# RemoteConfig — responses no exception gets out of

`assign_configs` catches `error_applying_config` and nothing else. The other
exceptions a listener's call can end in are a rapidjson accessor applied to a
value of the wrong kind, and what `engine_ruleset::from_path` throws about
the fallback rules file when an ASM_DD config is removed.

`Survives` is a call that comes back or throws what the product catches.
From the calls of the two listeners up to `processResponse_survives`, each
level completes where the calls below it survive.
-/

namespace DdAppsec.Helper.RemoteConfig

open Lib

variable {σ Sub : Type}

/-! ## What is read -/

/-- Reading these contents for this product applies no accessor to a value
of the wrong kind. -/
structure Readable (deps : Deps) (product contents : Bytes) : Prop where
  features : product = asmFeaturesProduct →
    ∀ config : Config, config.contents = contents →
      asmFeaturesStatus deps config ≠ .error .assertion
  data : product = asmDataProduct → asmDataContribution deps contents ≠ .error .assertion

theorem Readable.of_not_misreads {deps : Deps} {product contents : Bytes}
    (h : misreads deps product contents = false) : Readable deps product contents where
  features := by
    rintro rfl config rfl hassertion
    obtain ⟨_, hreads⟩ := asmFeaturesStatus_reads deps config
    rw [hreads.assertion_iff.mp hassertion] at h
    cases h
  data := by
    rintro rfl hassertion
    obtain ⟨_, hreads⟩ := asmDataContribution_reads deps contents
    rw [hreads.assertion_iff.mp hassertion] at h
    cases h

/-! ## Calls that survive -/

/-- A call that returns, or throws what a product catches, and keeps `P`. -/
def Survives (P : σ → Prop) (call : Config → σ → Except Exception Unit × σ) (c : Config)
    (w : σ) : Prop :=
  ∃ r w', call c w = (r, w') ∧
    (r = .ok () ∨ ∃ what, r = .error (.errorApplyingConfig what)) ∧ P w'

theorem Survives.applyConfig {P : σ → Prop} {call : Config → σ → Except Exception Unit × σ}
    {c : Config} {w : σ} (h : Survives P call c w) :
    ∃ c' w', RemoteConfig.applyConfig call c w = (.ok (), c', w') ∧ P w' := by
  obtain ⟨r, w', hcall, hr, hP⟩ := h
  rcases hr with rfl | ⟨what, rfl⟩
  · exact ⟨_, w', by rw [RemoteConfig.applyConfig, hcall], hP⟩
  · exact ⟨_, w', by rw [RemoteConfig.applyConfig, hcall], hP⟩

/-- **A product whose calls survive** assigns its configs. -/
theorem Product.assignConfigs_completes {P : σ → Prop} {ord : IterOrder}
    {configs : StringMap Config} {p : Product σ} {w : σ}
    (hup : ∀ (k : Bytes) c w, (classify ord p.configs configs).toUpdate[k]? = some c → P w →
      Survives P p.listener.onUpdate c w)
    (hun : ∀ (k : Bytes) c w, (classify ord p.configs configs).stored[k]? = some c → P w →
      Survives P p.listener.onUnapply c w) (h0 : P w) :
    ∃ p' w', p.assignConfigs ord configs w = (.ok (), p', w') ∧ P w' := by
  rw [Product.assignConfigs]
  split
  · obtain ⟨updated, w₁, hu, h1⟩ : ∃ updated w₁,
        updateConfigs ord p.listener (classify ord p.configs configs).toUpdate w =
          (.ok (), updated, w₁) ∧ P w₁ :=
      forEach_completes P (fun k c w hk hP => (hup k c w hk hP).applyConfig) h0
    obtain ⟨unapplied, w₂, hun, h2⟩ : ∃ unapplied w₂,
        unapplyConfigs ord p.listener (classify ord p.configs configs).stored w₁ =
          (.ok (), unapplied, w₂) ∧ P w₂ :=
      forEach_completes P (fun k c w hk hP => (hun k c w hk hP).applyConfig) h1
    refine ⟨{ p with configs := updated }, w₂, ?_, h2⟩
    rw [hu]
    dsimp only
    rw [hun]
  · exact ⟨_, w, rfl, h0⟩

theorem forListeners_completes {call : Listener σ → σ → Except Exception Unit × σ} (P : σ → Prop)
    {ls : List (Listener σ)} {w : σ}
    (hcall : ∀ l ∈ ls, ∀ w, P w → ∃ w', call l w = (.ok (), w') ∧ P w') (h0 : P w) :
    ∃ w', forListeners call ls w = (.ok (), w') ∧ P w' := by
  induction ls generalizing w with
  | nil => exact ⟨w, rfl, h0⟩
  | cons l ls ih =>
    obtain ⟨w₁, h1, hP⟩ := hcall l (by simp) w h0
    rw [forListeners, h1]
    exact ih (fun l' hl' => hcall l' (List.mem_cons_of_mem _ hl')) hP

/-! ## The listeners of a service -/

/-- What every call of the two listeners keeps during a tick: the files are
those of the tick, and the ASM aggregator has its four arrays. -/
structure Sound (files : FileSystem) (w : World Sub) : Prop where
  files : w.files = files
  arrays : ∃ arrays, asmRules w = asmRuleset arrays

section Listeners

variable {deps : Deps} {updateSub : Sub → Parameter → Option Sub} {fallback : Bytes}
  {files : FileSystem} {c : Config} {w w' : World Sub}

theorem Sound.of_same (h : Sound files w) (hsame : SameAggregator .asm w w') : Sound files w' :=
  ⟨hsame.files.trans h.files, by rw [hsame.asmRules_eq]; exact h.arrays⟩

theorem engineOnUpdate_survives (hread : Readable deps c.product c.contents) (h : Sound files w) :
    Survives (Sound files) (engineOnUpdate deps) c w := by
  cases hcall : engineOnUpdate deps c w with
  | mk r w' =>
    refine ⟨r, w', hcall, ?_⟩
    by_cases hasm : c.product = asmProduct
    · obtain ⟨arrays, harrays⟩ := h.arrays
      obtain ⟨_, hfiles, ⟨added, _, hr, hrules⟩ | ⟨_, hr, hrules⟩⟩ :=
        onUpdate_asm hasm harrays hcall
      · exact ⟨Or.inl hr, hfiles.trans h.files, _, hrules⟩
      · exact ⟨Or.inr hr, hfiles.trans h.files, _, hrules⟩
    · refine ⟨?_, h.of_same (onUpdate_other (ofProduct_ne_asm hasm) hcall)⟩
      by_cases hdd : c.product = asmDdProduct
      · obtain ⟨_, ⟨hr, _⟩ | ⟨hr, _⟩⟩ := onUpdate_asmDd hdd hcall
        · exact Or.inl hr
        · exact Or.inr hr
      · by_cases hdata : c.product = asmDataProduct
        · obtain ⟨_, _, _, ⟨_, _, hr, _⟩ | ⟨e, he, hr, _⟩⟩ := onUpdate_asmData hdata hcall
          · exact Or.inl hr
          · obtain ⟨_, hreads⟩ := asmDataContribution_reads deps c.contents
            rcases (he ▸ hreads).error_cases with rfl | ⟨what, rfl⟩
            · exact absurd he (hread.data hdata)
            · exact Or.inr ⟨what, hr⟩
        · simp only [engineOnUpdate, AggregatorId.ofProduct, if_neg hasm, if_neg hdd,
            if_neg hdata] at hcall
          cases hcall
          exact Or.inr ⟨_, rfl⟩

theorem engineOnUnapply_survives
    (hfallback : c.product = asmDdProduct →
      fallback = [] ∨ ∃ ruleset, EngineRuleset.fromPath deps files fallback = .ok ruleset)
    (h : Sound files w) : Survives (Sound files) (engineOnUnapply deps fallback) c w := by
  cases hcall : engineOnUnapply deps fallback c w with
  | mk r w' =>
    refine ⟨r, w', hcall, ?_⟩
    by_cases hasm : c.product = asmProduct
    · obtain ⟨hr, _, hfiles, hrules⟩ := onUnapply_asm hasm hcall
      refine ⟨Or.inl hr, hfiles.trans h.files, ?_⟩
      rw [hrules]
      exact h.arrays
    · refine ⟨?_, h.of_same (onUnapply_other (ofProduct_ne_asm hasm) hcall)⟩
      by_cases hdd : c.product = asmDdProduct
      · rcases hfallback hdd with hempty | ⟨ruleset, hruleset⟩
        · simp only [engineOnUnapply, hdd, ofProduct_asmDd, EngineListener.remove, asmDdRemove,
            hempty, if_true] at hcall
          cases hcall
          exact Or.inl rfl
        · obtain ⟨_, ⟨hr, _⟩ | ⟨hr, _⟩ | ⟨e, he, _⟩⟩ := onUnapply_asmDd hdd hcall
          · exact Or.inl hr
          · exact Or.inl hr
          · rw [h.files, hruleset] at he
            cases he
      · by_cases hdata : c.product = asmDataProduct
        · exact Or.inl (onUnapply_asmData hdata hcall).1
        · simp only [engineOnUnapply, AggregatorId.ofProduct, if_neg hasm, if_neg hdd,
            if_neg hdata] at hcall
          cases hcall
          exact Or.inr ⟨_, rfl⟩

theorem asmFeaturesOnUpdate_survives (hread : Readable deps asmFeaturesProduct c.contents)
    (h : Sound files w) : Survives (Sound files) (asmFeaturesListener deps).onUpdate c w := by
  cases hcall : (asmFeaturesListener deps).onUpdate c w with
  | mk r w' =>
    have hsame : SameAggregator .asm w w' :=
      (asmFeaturesListener_respects_aggregator .asm c.product).onUpdate c w r w' rfl hcall
    refine ⟨r, w', hcall, ?_, h.of_same hsame⟩
    simp only [asmFeaturesListener] at hcall
    split at hcall
    · cases hcall
      exact Or.inl rfl
    · rename_i e he
      cases hcall
      obtain ⟨_, hreads⟩ := asmFeaturesStatus_reads deps c
      rcases (he ▸ hreads).error_cases with rfl | ⟨what, rfl⟩
      · exact absurd he (hread.features rfl c rfl)
      · exact Or.inr ⟨what, rfl⟩

theorem asmFeaturesOnUnapply_survives (h : Sound files w) :
    Survives (Sound files) (asmFeaturesListener deps).onUnapply c w :=
  ⟨.ok (), { w with status := .notSet }, rfl, Or.inl rfl, h.files, h.arrays⟩

/-- A call that returns or throws what a product catches. -/
def Caught (r : Except Exception Unit) : Prop :=
  r = .ok () ∨ ∃ what, r = .error (.errorApplyingConfig what)

theorem not_caught_assertion : ¬ Caught (.error .assertion) := by
  rintro (h | ⟨what, h⟩)
  · cases h
  · cases h

theorem asmFeaturesOnUpdate_not_caught (h : misreads deps asmFeaturesProduct c.contents = true) :
    ¬ Caught ((asmFeaturesListener deps).onUpdate c w).1 := by
  intro hcaught
  obtain ⟨_, hreads⟩ := asmFeaturesStatus_reads deps c
  simp only [asmFeaturesListener, hreads.assertion_iff.mpr h] at hcaught
  exact not_caught_assertion hcaught

theorem engineOnUpdate_not_caught (hdata : c.product = asmDataProduct)
    (h : misreads deps asmDataProduct c.contents = true) :
    ¬ Caught (engineOnUpdate deps c w).1 := by
  intro hcaught
  obtain ⟨_, hreads⟩ := asmDataContribution_reads deps c.contents
  have hassertion := hreads.assertion_iff.mpr h
  cases hcall : engineOnUpdate deps c w with
  | mk r w' =>
    obtain ⟨_, _, _, ⟨_, hok, _⟩ | ⟨e, he, hr, _⟩⟩ := onUpdate_asmData hdata hcall
    · rw [hassertion] at hok
      cases hok
    · rw [hassertion] at he
      cases he
      rw [hcall, hr] at hcaught
      exact not_caught_assertion hcaught

/-- **Which updates are caught.** A config of a product of either listener is
applied or refused with `error_applying_config`, if and only if its contents are
not misread. -/
theorem onUpdate_caught_iff {l : Listener (World Sub)}
    (hl : l = asmFeaturesListener deps ∨ l = engineListener deps updateSub fallback)
    (hproduct : ∃ capabilities, (c.product, capabilities) ∈ l.supportedProducts)
    (harrays : ∃ arrays, asmRules w = asmRuleset arrays) :
    Caught (l.onUpdate c w).1 ↔ misreads deps c.product c.contents = false := by
  obtain ⟨capabilities, hproduct⟩ := hproduct
  constructor
  · intro hcaught
    by_contra hmisread
    rw [Bool.not_eq_false] at hmisread
    obtain rfl | rfl := hl
    · simp only [asmFeaturesListener, List.mem_singleton, Prod.mk.injEq] at hproduct
      rw [hproduct.1] at hmisread
      exact asmFeaturesOnUpdate_not_caught hmisread hcaught
    · have hdata : c.product = asmDataProduct := by
        refine (misreads_product hmisread).resolve_left fun hfeatures => ?_
        rw [hfeatures] at hproduct
        simp only [engineListener, List.mem_cons, Prod.mk.injEq, List.not_mem_nil] at hproduct
        obtain ⟨h, -⟩ | ⟨h, -⟩ | ⟨h, -⟩ | h := hproduct
        · exact absurd h (by decide)
        · exact absurd h (by decide)
        · exact absurd h (by decide)
        · exact h
      rw [hdata] at hmisread
      exact engineOnUpdate_not_caught hdata hmisread hcaught
  · intro hread
    have hread := Readable.of_not_misreads hread
    have hsound : Sound w.files w := ⟨rfl, harrays⟩
    obtain rfl | rfl := hl
    · simp only [asmFeaturesListener, List.mem_singleton, Prod.mk.injEq] at hproduct
      rw [hproduct.1] at hread
      obtain ⟨r, w', hcall, hr, _⟩ := asmFeaturesOnUpdate_survives hread hsound
      rw [hcall]
      exact hr
    · obtain ⟨r, w', hcall, hr, _⟩ := engineOnUpdate_survives hread hsound
      rw [show (engineListener deps updateSub fallback).onUpdate c w = (r, w') from hcall]
      exact hr

/-- Rule data with an entry that expires and one that does not. -/
def blockedIpsContents : Bytes :=
  ofPieces ["eyJydWxlc19kYXRh", "IjpbeyJpZCI6ImJs", "b2NrZWRfaXBzIiwi", "dHlwZSI6ImlwX3dp",
    "dGhfZXhwaXJhdGlv", "biIsImRhdGEiOlt7", "InZhbHVlIjoiMTky", "LjAuMi4xIiwiZXhw",
    "aXJhdGlvbiI6MTcw", "MDAwMDAwMH0seyJ2", "YWx1ZSI6IjE5Mi4w", "LjIuMiJ9XX1dfQ=="]

def blockedIpsText : Bytes :=
  ofPieces ["\x7b\"rules_data\":[", "\x7b\"id\":\"blocked_ips\",", "\"type\":",
    "\"ip_with_expiration\"", ",\"data\":[\x7b\"value\":", "\"192.0.2.1\",", "\"expiration\":",
    "1700000000\x7d,", "\x7b\"value\":", "\"192.0.2.2\"\x7d]\x7d]\x7d"]

def blockedIpsData : Json :=
  .object [("rules_data", .array [.object [("id", .string "blocked_ips"),
    ("type", .string "ip_with_expiration"),
    ("data", .array [.object [("value", .string "192.0.2.1"),
        ("expiration", .number (.int 1700000000))],
      .object [("value", .string "192.0.2.2")]])]])]

def blockedIpsDeps : Deps :=
  .ofTables [(blockedIpsContents, blockedIpsText)] [(blockedIpsText, blockedIpsData)]

theorem blocked_ips_caught :
    (getJsonBase64EncodedContent blockedIpsDeps blockedIpsContents).isSome ∧
    Caught ((engineListener blockedIpsDeps (fun sub _ => some sub) []).onUpdate
      (bareConfig asmDataProduct blockedIpsContents)
      (World.start (⟨[()], defaultActions⟩ : Engine Unit))).1 := by
  refine ⟨by decide +kernel, (onUpdate_caught_iff (.inr rfl) ?_ ⟨fun _ => [], rfl⟩).mpr ?_⟩
  · exact ⟨1 <<< 2 ||| 1 <<< 7, by simp [engineListener, bareConfig]⟩
  · decide +kernel

/-- Contents that are an empty array. -/
def emptyDeps : Deps := .ofTables [("W10=", "[]")] [("[]", .array [])]

/-- A member is looked up in a document that is an array. -/
theorem array_document_not_caught :
    ¬ Caught ((asmFeaturesListener emptyDeps).onUpdate (bareConfig asmFeaturesProduct "W10=")
      (World.start (⟨[()], defaultActions⟩ : Engine Unit))).1 := by
  have hread : asmFeaturesStatus emptyDeps (bareConfig asmFeaturesProduct "W10=") =
      .error .assertion := by
    decide +kernel
  simp only [asmFeaturesListener, hread]
  exact not_caught_assertion

variable {dynamicEnablement rulesFileEmpty : Bool}

theorem service_init_completes (h : Sound files w) :
    ∃ w', forListeners Listener.init
      (serviceListeners deps updateSub fallback dynamicEnablement rulesFileEmpty) w =
        (.ok (), w') ∧ Sound files w' := by
  refine forListeners_completes (Sound files) ?_ h
  intro l hl w hw
  rcases mem_serviceListeners hl with rfl | rfl
  · exact ⟨w, rfl, hw⟩
  · refine ⟨engineInit w, rfl, hw.files, fun _ => [], ?_⟩
    rw [asmRules_eq, if_neg (by simp [engineInit]), asmInit_eq]

theorem service_commit_completes (h : Sound files w) :
    ∃ w', forListeners Listener.commit
      (serviceListeners deps updateSub fallback dynamicEnablement rulesFileEmpty) w =
        (.ok (), w') ∧ Sound files w' := by
  refine forListeners_completes (Sound files) ?_ h
  intro l hl w hw
  rcases mem_serviceListeners hl with rfl | rfl
  · exact ⟨w, rfl, hw⟩
  · refine ⟨engineCommit updateSub w, rfl, ?_⟩
    unfold engineCommit
    split
    · exact hw
    · have harrays := hw.arrays
      rw [asmRules_eq] at harrays
      exact ⟨hw.files, by rw [asmRules_eq]; exact harrays⟩

/-! ## A response that is processed -/

variable {ord : IterOrder} {client : Client (World Sub)} {response : GetConfigsResponse}
  {targets : Targets}

/-- What the diff of a product applies is readable. -/
theorem toUpdate_readable (hfiled : client.Filed) {configs : StringMap (StringMap Config)}
    (hb : buildConfigs ord client.products targets response.targetFiles
      response.clientConfigs ∅ = .ok configs) {name : Bytes} {p : Product (World Sub)}
    (hp : client.products[name]? = some p)
    (hcontents : ∀ cid path contents,
      firstListed response.clientConfigs name cid = some path →
      effectiveContents p.configs targets response.targetFiles cid path = some contents →
      Readable deps name contents) {cid : Bytes}
    (hc : (classify ord p.configs (configsFor configs name)).toUpdate[cid]? = some c) :
    Readable deps name c.contents := by
  obtain ⟨path, _, hfirst, _, heffective⟩ := toUpdate_effective hfiled hb hp hc
  exact hcontents cid path _ hfirst heffective

/-- **Every product gets through** its part of the apply phase. -/
theorem assign_survives
    (hinv : Service.Inv deps updateSub fallback dynamicEnablement rulesFileEmpty (client, w))
    {configs : StringMap (StringMap Config)}
    (hb : buildConfigs ord client.products targets response.targetFiles
      response.clientConfigs ∅ = .ok configs) {name : Bytes} {p : Product (World Sub)}
    (hp : client.products[name]? = some p)
    (hcontents : ∀ cid path contents,
      firstListed response.clientConfigs name cid = some path →
      effectiveContents p.configs targets response.targetFiles cid path = some contents →
      Readable deps name contents)
    (hfallback : name = asmDdProduct → ∀ (cid : Bytes) (c : Config),
      p.configs[cid]? = some c → firstListed response.clientConfigs name cid = none →
      fallback = [] ∨ ∃ ruleset, EngineRuleset.fromPath deps files fallback = .ok ruleset)
    {w₁ : World Sub} (h : Sound files w₁) :
    ∃ p' w', p.assignConfigs ord (configsFor configs name) w₁ = (.ok (), p', w') ∧
      Sound files w' := by
  have hproduct : IgnoresState fun config => config.product = name := fun _ _ _ hc => hc
  have hstored : ∀ (k : Bytes) (c : Config), p.configs[k]? = some c → c.product = name :=
    fun k c hc => (hinv.filed name p hp k c hc).2
  have hnew : ∀ (k : Bytes) (c : Config), (configsFor configs name)[k]? = some c →
      c.product = name :=
    fun k c hc => configsFor_product hb hc
  by_cases hname : name = asmFeaturesProduct
  · subst hname
    have hl : p.listener = asmFeaturesListener deps := hinv.features hp
    refine Product.assignConfigs_completes ?_ ?_ h
    · intro k c w hk hw
      rw [hl]
      exact asmFeaturesOnUpdate_survives (toUpdate_readable hinv.filed hb hp hcontents hk) hw
    · intro k c w _ hw
      rw [hl]
      exact asmFeaturesOnUnapply_survives hw
  · have hl : p.listener = engineListener deps updateSub fallback := hinv.engine hp hname
    refine Product.assignConfigs_completes ?_ ?_ h
    · intro k c w hk hw
      rw [hl]
      have hread := toUpdate_readable hinv.filed hb hp hcontents hk
      rw [← classify_toUpdate_of hproduct hstored hnew hk] at hread
      exact engineOnUpdate_survives hread hw
    · intro k c w hk hw
      rw [hl]
      refine engineOnUnapply_survives (fun hdd => ?_) hw
      have hin := hk
      rw [(classify_spec ord p.configs (configsFor configs name)).stored] at hin
      split at hin
      · rename_i hgone
        have hc := hstored k c hin
        exact hfallback (hc.symm.trans hdd) k c hin ((configsFor_none_iff hb).mp hgone)
      · cases hin

theorem processResponse_survives
    (hinv : Service.Inv deps updateSub fallback dynamicEnablement rulesFileEmpty (client, w))
    (ht : response.targets = some targets)
    (haccepted : ∀ path ∈ response.clientConfigs,
      ¬ Unacceptable client.products targets response.targetFiles path)
    (hcontents : ∀ (name : Bytes) (p : Product (World Sub)), client.products[name]? = some p →
      ∀ cid path contents, firstListed response.clientConfigs name cid = some path →
        effectiveContents p.configs targets response.targetFiles cid path = some contents →
        Readable deps name contents)
    (hfallback : ∀ (p : Product (World Sub)), client.products[asmDdProduct]? = some p →
      ∀ (cid : Bytes) (c : Config), p.configs[cid]? = some c →
        firstListed response.clientConfigs asmDdProduct cid = none →
        fallback = [] ∨ ∃ ruleset, EngineRuleset.fromPath deps files fallback = .ok ruleset)
    (h : Sound files w) :
    ∃ c' w', processResponse ord response client w = (.ok true, c', w') ∧ Sound files w' := by
  cases hb : buildConfigs ord client.products targets response.targetFiles
      response.clientConfigs ∅ with
  | error text =>
    obtain ⟨path, hpath, hbad⟩ := (buildConfigs_error_iff _ _).mp ⟨text, hb⟩
    exact absurd hbad (haccepted path hpath)
  | ok configs =>
    have hls : client.listeners =
        serviceListeners deps updateSub fallback dynamicEnablement rulesFileEmpty :=
      hinv.listeners
    obtain ⟨w₁, hinit, h1⟩ : ∃ w₁, forListeners Listener.init client.listeners w =
        (.ok (), w₁) ∧ Sound files w₁ := hls ▸ service_init_completes h
    obtain ⟨products, w₂, hassign, h2⟩ : ∃ products w₂,
        assignAll ord configs client.products w₁ = (.ok (), products, w₂) ∧ Sound files w₂ := by
      refine forEach_completes (Sound files) (fun name p w hp hw => ?_) h1
      refine assign_survives hinv hb hp (hcontents name p hp) ?_ hw
      rintro rfl
      exact hfallback p hp
    obtain ⟨w₃, hcommit, h3⟩ : ∃ w₃, forListeners Listener.commit client.listeners w₂ =
        (.ok (), w₃) ∧ Sound files w₃ := hls ▸ service_commit_completes h2
    refine ⟨{ client with
      products := products
      targetsVersion := targets.version
      opaqueBackendState := targets.opaqueBackendState }, w₃, ?_, h3⟩
    simp only [processResponse, ht, hb, hinit, hassign, hcommit]

end Listeners

end DdAppsec.Helper.RemoteConfig
