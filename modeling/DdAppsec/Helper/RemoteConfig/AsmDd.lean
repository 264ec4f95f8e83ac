import DdAppsec.Helper.RemoteConfig.Service

/-!
# RemoteConfig — which rules the ASM_DD aggregator contributes

The aggregator keeps ONE ruleset between commits: that of the last config
added, or the fallback rules file once a config has been removed. The
product is for more than one config, so this is what a commit should say
(`AsmDdFollows`): while an acknowledged config remains, the rules are those
of an acknowledged config; the fallback file is for when none remains.

`assign_configs` adds first and removes afterwards, so a response that drops
one config while another one is valid ends on the fallback file.
`NoReplacement` is the condition on a poll that leaves this out, and
`asmDd_follows` the run theorem.
-/

namespace DdAppsec.Helper.RemoteConfig

open Lib

variable {Sub : Type}

/-! ## The property and the condition -/

/-- **What a commit of ASM_DD contributes** after a poll: the rules of an
acknowledged config, or, without one, nothing or the fallback file. -/
def AsmDdFollows (deps : Deps) (fallback : Bytes) (s : Service Sub) (poll : Poll)
    (s' : Service Sub) : Prop :=
  ∀ commit rules, s'.2.commits = s.2.commits ++ [commit] →
    (AggregatorId.asmDd, rules) ∈ commit.sections →
    (∃ (id : Bytes) (c : Config), (s'.configsOf asmDdProduct)[id]? = some c ∧
      c.applyState = .acknowledged ∧
      getJsonBase64EncodedContent deps c.contents = some (.object rules)) ∨
    ((∀ (id : Bytes) (c : Config), (s'.configsOf asmDdProduct)[id]? = some c →
        c.applyState ≠ .acknowledged) ∧
      (rules = [] ∨ EngineRuleset.fromPath deps poll.files fallback = .ok ⟨rules⟩))

/-- The contents a listed config will have: those stored under its id while
the hashes are the same, and otherwise the file the response carries. -/
def effectiveContents (stored : StringMap Config) (targets : Targets)
    (targetFiles : StringMap TargetFile) (id path : Bytes) : Option Bytes :=
  match stored[id]?, targets.paths[path]? with
  | some c, some target =>
    if target.hashes = c.hashes then some c.contents
    else targetFiles[path]?.map TargetFile.raw
  | _, _ => targetFiles[path]?.map TargetFile.raw

/-- The condition on one poll: there is no fallback file, or no stored
ASM_DD config is dropped, or no listed one decodes to an object. -/
def NoReplacement (deps : Deps) (fallback : Bytes) (s : Service Sub) (poll : Poll) : Prop :=
  ∀ targets, poll.response.targets = some targets →
    fallback = [] ∨
    (∀ (id : Bytes) (c : Config), (s.configsOf asmDdProduct)[id]? = some c →
      firstListed poll.response.clientConfigs asmDdProduct id ≠ none) ∨
    (∀ id path contents,
      firstListed poll.response.clientConfigs asmDdProduct id = some path →
      effectiveContents (s.configsOf asmDdProduct) targets poll.response.targetFiles
        id path = some contents →
      ∀ ms, getJsonBase64EncodedContent deps contents ≠ some (.object ms))

/-! ## The aggregator under the two calls -/

/-- The ruleset the aggregator will contribute: a first touch resets it. -/
def asmDdRules (w : World Sub) : Members := (w.listener.touch .asmDd).asmDd

theorem asmDdRules_of_touched {w : World Sub} (h : AggregatorId.asmDd ∈ w.listener.toCommit) :
    asmDdRules w = w.listener.asmDd := by
  unfold asmDdRules EngineListener.touch
  rw [if_pos h]

theorem asmDdRules_of_untouched {w : World Sub}
    (h : AggregatorId.asmDd ∉ w.listener.toCommit) : asmDdRules w = [] := by
  unfold asmDdRules EngineListener.touch
  rw [if_neg h]

section Calls

variable {deps : Deps} {updateSub : Sub → Parameter → Option Sub} {fallback : Bytes}
  {c : Config} {w w' : World Sub} {r : Except Exception Unit}

theorem ofProduct_asmDd : AggregatorId.ofProduct asmDdProduct = some .asmDd := by decide

/-- `on_update` of an ASM_DD config: its object becomes the ruleset, or the
ruleset stays. -/
theorem onUpdate_asmDd (hc : c.product = asmDdProduct)
    (h : engineOnUpdate deps c w = (r, w')) :
    w'.files = w.files ∧
    ((r = .ok () ∧ getJsonBase64EncodedContent deps c.contents =
        some (.object (asmDdRules w'))) ∨
      ((∃ what, r = .error (.errorApplyingConfig what)) ∧ asmDdRules w' = asmDdRules w)) := by
  have hin : AggregatorId.asmDd ∈ (w.listener.touch .asmDd).toCommit :=
    (EngineListener.touch_toCommit _ _ _).mpr (Or.inl rfl)
  simp only [engineOnUpdate, hc, ofProduct_asmDd, EngineListener.add, asmDdAdd] at h
  cases hdoc : getJsonBase64EncodedContent deps c.contents with
  | none =>
    simp only [hdoc] at h
    cases h
    exact ⟨rfl, Or.inr ⟨⟨_, rfl⟩, asmDdRules_of_touched hin⟩⟩
  | some doc =>
    cases doc with
    | object ms =>
      simp only [hdoc] at h
      cases h
      refine ⟨rfl, Or.inl ⟨rfl, ?_⟩⟩
      rw [asmDdRules_of_touched hin]
    | null | bool | number | string | array =>
      simp only [hdoc] at h
      cases h
      exact ⟨rfl, Or.inr ⟨⟨_, rfl⟩, asmDdRules_of_touched hin⟩⟩

/-- `on_unapply` of an ASM_DD config: the fallback file becomes the ruleset,
if there is one, and its absence or a bad one is thrown on. -/
theorem onUnapply_asmDd (hc : c.product = asmDdProduct)
    (h : engineOnUnapply deps fallback c w = (r, w')) :
    w'.files = w.files ∧
    ((r = .ok () ∧ fallback = [] ∧ asmDdRules w' = asmDdRules w) ∨
      (r = .ok () ∧ fallback ≠ [] ∧
        EngineRuleset.fromPath deps w.files fallback = .ok ⟨asmDdRules w'⟩) ∨
      (∃ e, EngineRuleset.fromPath deps w.files fallback = .error e ∧ r = .error e)) := by
  have hin : AggregatorId.asmDd ∈ (w.listener.touch .asmDd).toCommit :=
    (EngineListener.touch_toCommit _ _ _).mpr (Or.inl rfl)
  simp only [engineOnUnapply, hc, ofProduct_asmDd, EngineListener.remove, asmDdRemove] at h
  by_cases hf : fallback = []
  · simp only [hf, if_true] at h
    cases h
    exact ⟨rfl, Or.inl ⟨rfl, hf, asmDdRules_of_touched hin⟩⟩
  · simp only [hf, if_false] at h
    cases hpath : EngineRuleset.fromPath deps w.files fallback with
    | error e =>
      simp only [hpath] at h
      cases h
      exact ⟨rfl, Or.inr (Or.inr ⟨e, rfl, rfl⟩)⟩
    | ok rs =>
      simp only [hpath] at h
      cases h
      refine ⟨rfl, Or.inr (Or.inl ⟨rfl, hf, ?_⟩)⟩
      rw [asmDdRules_of_touched hin]

end Calls

/-! ## The two loops -/

/-- The ruleset of a world against a map of configs with their verdicts:
it is that of an acknowledged one, or none is acknowledged and it is empty. -/
def RulesOf (deps : Deps) (m : StringMap Config) (rules : Members) : Prop :=
  (∃ (id : Bytes) (c : Config), m[id]? = some c ∧ c.applyState = .acknowledged ∧
    getJsonBase64EncodedContent deps c.contents = some (.object rules)) ∨
  ((∀ (id : Bytes) (c : Config), m[id]? = some c → c.applyState ≠ .acknowledged) ∧ rules = [])

section Loops

variable {deps : Deps} {updateSub : Sub → Parameter → Option Sub} {fallback : Bytes}
  {ord : IterOrder} {m m' : StringMap Config} {w w' : World Sub}

theorem RulesOf.insert_acknowledged {rules : Members} {k : Bytes} {c : Config}
    (hc : c.applyState = .acknowledged)
    (hdoc : getJsonBase64EncodedContent deps c.contents = some (.object rules)) :
    RulesOf deps (m.insert k c) rules :=
  Or.inl ⟨k, c, by simp, hc, hdoc⟩

theorem RulesOf.insert_failed {rules : Members} {k : Bytes} {c : Config}
    (h : RulesOf deps m rules) (hnew : m[k]? = none) (hc : c.applyState ≠ .acknowledged) :
    RulesOf deps (m.insert k c) rules := by
  rcases h with ⟨id, c₁, hid, hack, hdoc⟩ | ⟨hnone, hrules⟩
  · have hne : k ≠ id := by
      rintro rfl
      rw [hnew] at hid
      cases hid
    exact Or.inl ⟨id, c₁, by simp [hne, hid], hack, hdoc⟩
  · refine Or.inr ⟨fun id c₁ hid => ?_, hrules⟩
    by_cases hk : k = id
    · simp only [StringMap.getElem?_insert, if_pos hk, Option.some.injEq] at hid
      exact hid ▸ hc
    · simp only [StringMap.getElem?_insert, if_neg hk] at hid
      exact hnone id c₁ hid

/-- `update_configs` from an untouched aggregator. -/
theorem update_asmDd
    (h : updateConfigs ord (engineListener deps updateSub fallback) m w = (.ok (), m', w'))
    (hprod : ∀ (k : Bytes) (c : Config), m[k]? = some c → c.product = asmDdProduct)
    (h0 : asmDdRules w = []) :
    w'.files = w.files ∧ RulesOf deps m' (asmDdRules w') := by
  refine forEach_invariant
    (fun done wc => wc.files = w.files ∧ RulesOf deps done (asmDdRules wc)) ?_ ?_ h
  · exact ⟨rfl, Or.inr ⟨by simp, h0⟩⟩
  · rintro done k c wa c' wb hk hd ⟨hfiles, hrules⟩ hb
    rcases applyConfig_ok hb with ⟨hcall, rfl⟩ | ⟨what, hcall, rfl⟩
    · obtain ⟨hf, ⟨_, hdoc⟩ | ⟨⟨_, hbad⟩, _⟩⟩ := onUpdate_asmDd (hprod k c hk) hcall
      · exact ⟨hf.trans hfiles, RulesOf.insert_acknowledged rfl hdoc⟩
      · cases hbad
    · obtain ⟨hf, ⟨hbad, _⟩ | ⟨_, hsame⟩⟩ := onUpdate_asmDd (hprod k c hk) hcall
      · cases hbad
      · refine ⟨hf.trans hfiles, ?_⟩
        rw [hsame]
        exact hrules.insert_failed hd (by simp)

/-- `unapply_configs`: the ruleset stays, or something was unapplied and it
is the fallback file. -/
theorem unapply_asmDd
    (h : unapplyConfigs ord (engineListener deps updateSub fallback) m w = (.ok (), m', w'))
    (hprod : ∀ (k : Bytes) (c : Config), m[k]? = some c → c.product = asmDdProduct) :
    asmDdRules w' = asmDdRules w ∨
    (fallback ≠ [] ∧ (∃ (k : Bytes) (c : Config), m[k]? = some c) ∧
      EngineRuleset.fromPath deps w.files fallback = .ok ⟨asmDdRules w'⟩) := by
  have hend : w'.files = w.files ∧ (asmDdRules w' = asmDdRules w ∨
      (fallback ≠ [] ∧ (∃ (k : Bytes) (c : Config), m[k]? = some c) ∧
        EngineRuleset.fromPath deps w.files fallback = .ok ⟨asmDdRules w'⟩)) := by
    refine forEach_invariant (fun _ wc => wc.files = w.files ∧
      (asmDdRules wc = asmDdRules w ∨
        (fallback ≠ [] ∧ (∃ (k : Bytes) (c : Config), m[k]? = some c) ∧
          EngineRuleset.fromPath deps w.files fallback = .ok ⟨asmDdRules wc⟩)))
      ⟨rfl, Or.inl rfl⟩ ?_ h
    rintro done k c wa c' wb hk _ ⟨hfiles, hP⟩ hb
    rcases applyConfig_ok hb with ⟨hcall, _⟩ | ⟨what, hcall, _⟩
    · obtain ⟨hf, ⟨_, hempty, hsame⟩ | ⟨_, hne, hpath⟩ | ⟨e, _, hbad⟩⟩ :=
        onUnapply_asmDd (hprod k c hk) hcall
      · refine ⟨hf.trans hfiles, ?_⟩
        rcases hP with hP | ⟨hne, _, _⟩
        · exact Or.inl (hsame.trans hP)
        · exact absurd hempty hne
      · rw [hfiles] at hpath
        exact ⟨hf.trans hfiles, Or.inr ⟨hne, ⟨k, c, hk⟩, hpath⟩⟩
      · cases hbad
    · -- what `from_path` throws is not an `error_applying_config`
      obtain ⟨_, ⟨hbad, _⟩ | ⟨hbad, _⟩ | ⟨e, he, hr⟩⟩ := onUnapply_asmDd (hprod k c hk) hcall
      · cases hbad
      · cases hbad
      · cases hr
        rcases EngineRuleset.fromPath_error he with hx | hx
        · cases hx
        · cases hx
  exact hend.2

/-- **`assign_configs` of the ASM_DD product**, from an aggregator the poll
has not touched: nothing happens; or the ruleset is as the new configs have
it; or a stored config was dropped and the ruleset is the fallback file. -/
theorem assign_asmDd {p p' : Product (World Sub)} {configs : StringMap Config}
    (hl : p.listener = engineListener deps updateSub fallback)
    (hs : ∀ (k : Bytes) (c : Config), p.configs[k]? = some c → c.product = asmDdProduct)
    (hn : ∀ (k : Bytes) (c : Config), configs[k]? = some c → c.product = asmDdProduct)
    (h0 : AggregatorId.asmDd ∉ w.listener.toCommit)
    (h : p.assignConfigs ord configs w = (.ok (), p', w')) :
    w' = w ∨ RulesOf deps p'.configs (asmDdRules w') ∨
    (fallback ≠ [] ∧
      (∃ (k : Bytes) (c : Config), p.configs[k]? = some c ∧ configs[k]? = none) ∧
      EngineRuleset.fromPath deps w.files fallback = .ok ⟨asmDdRules w'⟩ ∧
      ∃ rules, RulesOf deps p'.configs rules) := by
  rcases Product.assignConfigs_ok h with ⟨_, _, rfl⟩ | ⟨_, updated, w₁, _, hu, hun, rfl⟩
  · exact Or.inl rfl
  · have hf : IgnoresState fun c => c.product = asmDdProduct := fun _ _ _ hc => hc
    rw [hl] at hu hun
    obtain ⟨hfiles, hrules⟩ := update_asmDd hu
      (fun k c hk => classify_toUpdate_of hf hs hn hk) (asmDdRules_of_untouched h0)
    rcases unapply_asmDd hun (fun k c hk => classify_stored_of hs hk) with
      hsame | ⟨hfb, ⟨k, c, hk⟩, hpath⟩
    · refine Or.inr (Or.inl ?_)
      rw [hsame]
      exact hrules
    · rw [hfiles] at hpath
      refine Or.inr (Or.inr ⟨hfb, ⟨k, c, ?_⟩, hpath, _, hrules⟩)
      rw [(classify_spec ord p.configs configs).stored] at hk
      split at hk
      · rename_i hnone
        exact ⟨hk, hnone⟩
      · cases hk

end Loops

/-! ## The frame of the aggregator -/

/-- What only ASM_DD configs change. -/
structure SameAsmDd (a b : World Sub) : Prop where
  asmDd : b.listener.asmDd = a.listener.asmDd
  toCommit : AggregatorId.asmDd ∈ b.listener.toCommit ↔ AggregatorId.asmDd ∈ a.listener.toCommit
  files : b.files = a.files

theorem SameAsmDd.refl (w : World Sub) : SameAsmDd w w := ⟨rfl, Iff.rfl, rfl⟩

theorem SameAsmDd.trans (a b c : World Sub) (hab : SameAsmDd a b) (hbc : SameAsmDd b c) :
    SameAsmDd a c :=
  ⟨hbc.asmDd.trans hab.asmDd, hbc.toCommit.trans hab.toCommit, hbc.files.trans hab.files⟩

section Frame

variable {deps : Deps} {updateSub : Sub → Parameter → Option Sub} {fallback : Bytes}

theorem EngineListener.touch_asmDd {id : AggregatorId} (l : EngineListener)
    (hid : id ≠ .asmDd) : (l.touch id).asmDd = l.asmDd := by
  unfold EngineListener.touch
  split
  · rfl
  · cases id with
    | asm => rfl
    | asmDd => exact absurd rfl hid
    | asmData => rfl

theorem EngineListener.add_asmDd {ord : IterOrder} {id : AggregatorId} {config : Config}
    {l l' : EngineListener} {r : Except Exception Unit} (hid : id ≠ .asmDd)
    (h : l.add deps ord id config = (r, l')) : l'.asmDd = l.asmDd := by
  cases id with
  | asmDd => exact absurd rfl hid
  | asm =>
    simp only [EngineListener.add] at h
    split at h <;> cases h <;> rfl
  | asmData =>
    simp only [EngineListener.add] at h
    split at h <;> cases h <;> rfl

theorem EngineListener.remove_asmDd {files : FileSystem} {id : AggregatorId}
    {l l' : EngineListener} {r : Except Exception Unit} (hid : id ≠ .asmDd)
    (h : l.remove deps files fallback id = (r, l')) : l'.asmDd = l.asmDd := by
  cases id with
  | asmDd => exact absurd rfl hid
  | asm => cases h; rfl
  | asmData => cases h; rfl

theorem ofProduct_ne_asmDd {name : Bytes} {id : AggregatorId} (hname : name ≠ asmDdProduct)
    (h : AggregatorId.ofProduct name = some id) : id ≠ .asmDd := by
  rintro rfl
  unfold AggregatorId.ofProduct at h
  rw [if_neg hname] at h
  split at h
  · cases h
  · split at h <;> cases h

/-- The engine listener's calls for another product. -/
theorem engineListener_respects_asmDd {name : Bytes} (hname : name ≠ asmDdProduct) :
    (engineListener deps updateSub fallback).Respects name (@SameAsmDd Sub) where
  refl := SameAsmDd.refl
  trans := SameAsmDd.trans
  onUpdate := by
    intro c w r w' hc h
    rcases engineOnUpdate_cases h with ⟨_, rfl⟩ | ⟨id, l, hid, hadd, rfl⟩
    · exact SameAsmDd.refl w'
    · have hne := ofProduct_ne_asmDd hname (hc ▸ hid)
      refine ⟨?_, ?_, rfl⟩
      · exact (EngineListener.add_asmDd hne hadd).trans (EngineListener.touch_asmDd _ hne)
      · show AggregatorId.asmDd ∈ l.toCommit ↔ _
        rw [(EngineListener.add_static hadd).1, EngineListener.touch_toCommit]
        simp [Ne.symm hne]
  onUnapply := by
    intro c w r w' hc h
    rcases engineOnUnapply_cases h with ⟨_, rfl⟩ | ⟨id, l, hid, hrem, rfl⟩
    · exact SameAsmDd.refl w'
    · have hne := ofProduct_ne_asmDd hname (hc ▸ hid)
      refine ⟨?_, ?_, rfl⟩
      · exact (EngineListener.remove_asmDd hne hrem).trans (EngineListener.touch_asmDd _ hne)
      · show AggregatorId.asmDd ∈ l.toCommit ↔ _
        rw [(EngineListener.remove_static hrem).1, EngineListener.touch_toCommit]
        simp [Ne.symm hne]

theorem asmFeaturesListener_respects_asmDd (name : Bytes) :
    (asmFeaturesListener deps).Respects name (@SameAsmDd Sub) where
  refl := SameAsmDd.refl
  trans := SameAsmDd.trans
  onUpdate := by
    intro c w r w' _ h
    obtain ⟨status, rfl⟩ := asmFeatures_onUpdate_world h
    exact ⟨rfl, Iff.rfl, rfl⟩
  onUnapply := by
    intro c w r w' _ h
    cases h
    exact ⟨rfl, Iff.rfl, rfl⟩

end Frame

/-! ## One poll -/

section Poll

variable {deps : Deps} {updateSub : Sub → Parameter → Option Sub} {fallback : Bytes}
  {dynamicEnablement : Bool} {s s' : Service Sub} {poll : Poll} {targets : Targets}

/-- A section of a commit belongs to an aggregator the poll touched. -/
theorem mem_sections {ord : IterOrder} {l : EngineListener} {id : AggregatorId}
    {rules : Members} (h : (id, rules) ∈ l.sections ord) :
    id ∈ l.toCommit ∧ rules = l.section ord id := by
  rw [EngineListener.sections, List.mem_filterMap] at h
  obtain ⟨id', _, hid'⟩ := h
  split at hid'
  · rename_i hmem
    cases hid'
    exact ⟨hmem, rfl⟩
  · cases hid'

/-- The rules ASM_DD contributes are those of the world the commit sees. -/
theorem commit_asmDd {w : World Sub} {commit : Commit} {rules : Members}
    (hcommits : (engineCommit updateSub w).commits = w.commits ++ [commit])
    (hrules : (AggregatorId.asmDd, rules) ∈ commit.sections) :
    AggregatorId.asmDd ∈ w.listener.toCommit ∧ rules = w.listener.asmDd := by
  unfold engineCommit at hcommits
  split at hcommits
  · have hlen := congrArg List.length hcommits
    simp at hlen
  · simp only [List.append_cancel_left_eq, List.cons.injEq, and_true] at hcommits
    subst hcommits
    exact mem_sections hrules

/-- The contents an accepted config ends up with. -/
theorem Built.effectiveContents_eq {σ : Type} {client : Client σ} (hfiled : client.Filed)
    {targetFiles : StringMap TargetFile} {product : Bytes} {p : Product σ}
    (hp : client.products[product]? = some p) {path id : Bytes} {c : Config}
    (hb : Built client.products targets targetFiles path ⟨id, product⟩ c) :
    effectiveContents p.configs targets targetFiles id path =
      some (reconcile p.configs[id]? c).contents := by
  obtain ⟨target, p₁, htarget, hp₁, hhash, hfile⟩ := hb.file
  rw [hp] at hp₁
  cases hp₁
  -- a copy in the store sits under this very id
  have hcached : ∀ (id' : Bytes) (stored : Config), p.configs[id']? = some stored →
      stored.path = path → id' = id := by
    intro id' stored hs hpath
    have hid := (hfiled _ p hp id' stored hs).1
    rw [hpath, hb.parsed] at hid
    cases hid
    rfl
  cases hprev : p.configs[id]? with
  | none =>
    rcases hfile with ⟨file, hf, hc, _, _⟩ | ⟨id', stored, _, hs, hpath, _, _, _, _⟩
    · simp [effectiveContents, hprev, hf, reconcile, hc]
    · rw [hcached id' stored hs hpath, hprev] at hs
      cases hs
  | some previous =>
    by_cases hh : target.hashes = previous.hashes
    · have hh' : c.hashes = previous.hashes := hhash.trans hh
      simp [effectiveContents, hprev, htarget, hh, reconcile, hh']
    · have hh' : c.hashes ≠ previous.hashes := fun he => hh (hhash ▸ he)
      rcases hfile with ⟨file, hf, hc, _, _⟩ | ⟨id', stored, _, hs, hpath, hsh, _, _, _⟩
      · simp [effectiveContents, hprev, htarget, hh, reconcile, hh', hf, hc]
      · rw [hcached id' stored hs hpath, hprev] at hs
        cases hs
        exact absurd hsh.symm hh

/-- What the diff of a product is about to apply. -/
theorem toUpdate_effective {σ : Type} {client : Client σ} (hfiled : client.Filed)
    {ord : IterOrder} {targetFiles : StringMap TargetFile} {paths : List Bytes}
    {configs : StringMap (StringMap Config)}
    (hb : buildConfigs ord client.products targets targetFiles paths ∅ = .ok configs)
    {product : Bytes} {p : Product σ} (hp : client.products[product]? = some p) {id : Bytes}
    {c : Config}
    (hc : (classify ord p.configs (configsFor configs product)).toUpdate[id]? = some c) :
    ∃ path target, firstListed paths product id = some path ∧
      targets.paths[path]? = some target ∧
      effectiveContents p.configs targets targetFiles id path = some c.contents := by
  rw [(classify_spec ord p.configs (configsFor configs product)).toUpdate] at hc
  obtain ⟨new, hnew, rfl⟩ := Option.map_eq_some_iff.mp hc
  obtain ⟨path, hfirst, hbuilt⟩ := configsFor_built hb hnew
  obtain ⟨target, _, htarget, _⟩ := hbuilt.file
  exact ⟨path, target, hfirst, htarget, hbuilt.effectiveContents_eq hfiled hp⟩

/-- Every other product leaves the aggregator alone. -/
theorem others_respect_asmDd (hinv : s.Inv deps updateSub fallback dynamicEnablement true)
    {name : Bytes} {p : Product (World Sub)} (hne : name ≠ asmDdProduct)
    (hp : s.1.products[name]? = some p) : p.listener.Respects name (@SameAsmDd Sub) := by
  by_cases hf : name = asmFeaturesProduct
  · subst hf
    rw [hinv.features hp]
    exact asmFeaturesListener_respects_asmDd _
  · rw [hinv.engine hp hf]
    exact engineListener_respects_asmDd hne

/-- Under the condition, no config that decodes to an object is stored by a
poll that drops another one. -/
theorem NoReplacement.not_object (hcond : NoReplacement deps fallback s poll)
    (ht : poll.response.targets = some targets) (hfiled : s.1.Filed)
    {configs : StringMap (StringMap Config)}
    (hb : buildConfigs poll.order s.1.products targets poll.response.targetFiles
      poll.response.clientConfigs ∅ = .ok configs)
    {p p' : Product (World Sub)} (hp : s.1.products[asmDdProduct]? = some p)
    {w w' : World Sub}
    (hassign : p.assignConfigs poll.order (configsFor configs asmDdProduct) w =
      (.ok (), p', w')) (hfb : fallback ≠ []) {k : Bytes} {c : Config}
    (hk : p.configs[k]? = some c) (hdropped : (configsFor configs asmDdProduct)[k]? = none)
    {id : Bytes} {c' : Config} (hc' : p'.configs[id]? = some c') (ms : Members) :
    getJsonBase64EncodedContent deps c'.contents ≠ some (.object ms) := by
  have hold : s.configsOf asmDdProduct = p.configs := Service.configsOf_of_some hp
  rcases hcond targets ht with hempty | hlisted | hinvalid
  · exact absurd hempty hfb
  · rw [hold] at hlisted
    exact absurd ((configsFor_none_iff hb).mp hdropped) (hlisted k c hk)
  · cases hconf : (configsFor configs asmDdProduct)[id]? with
    | none =>
      rw [(Product.assignConfigs_configs hassign id).1 hconf] at hc'
      cases hc'
    | some config =>
      obtain ⟨path, hfirst, hbuilt⟩ := configsFor_built hb hconf
      obtain ⟨state, text, heq⟩ := (Product.assignConfigs_configs hassign id).2 config hconf
      rw [heq] at hc'
      cases hc'
      rw [hold] at hinvalid
      exact hinvalid id path _ hfirst (hbuilt.effectiveContents_eq hfiled hp) ms

/-- **One poll** that meets the condition. -/
theorem asmDd_step (hinv : s.Inv deps updateSub fallback dynamicEnablement true)
    (h : processPoll s poll = some s') (hcond : NoReplacement deps fallback s poll) :
    AsmDdFollows deps fallback s poll s' := by
  intro commit rules hcommits hsection
  cases ht : poll.response.targets with
  | none =>
    rw [processPoll_no_targets h ht] at hcommits
    have hlen := congrArg List.length hcommits
    simp [World.during] at hlen
  | some targets =>
    obtain ⟨configs, wc, hb, ha, hsame, hs'⟩ := processPoll_engine hinv h ht
    have hwc : wc.commits = s.2.commits := hsame.commits
    rw [hs', ← hwc] at hcommits
    obtain ⟨htouched, hrules⟩ := commit_asmDd hcommits hsection
    cases hp : s.1.products[asmDdProduct]? with
    | none =>
      -- nobody supports ASM_DD, so nobody touched its aggregator
      have hframe := assignAll_rel SameAsmDd SameAsmDd.refl SameAsmDd.trans hinv.filed hb
        (fun name q hq => others_respect_asmDd hinv (by rintro rfl; rw [hp] at hq; cases hq) hq)
        ha
      exact absurd (hframe.toCommit.mp htouched) (by simp [engineInit])
    | some p =>
      obtain ⟨w₁, p', w₂, hbefore, hassign, hafter, hp'⟩ :=
        assignAll_isolate SameAsmDd SameAsmDd.refl SameAsmDd.trans hinv.filed hb
          (fun name q hne hq => others_respect_asmDd hinv hne hq) ha hp
      have h0 : AggregatorId.asmDd ∉ w₁.listener.toCommit := fun hmem =>
        absurd (hbefore.toCommit.mp hmem) (by simp [engineInit])
      have hfiles : w₁.files = poll.files := hbefore.files
      have hmem₂ : AggregatorId.asmDd ∈ w₂.listener.toCommit := hafter.toCommit.mp htouched
      have hrules₂ : asmDdRules w₂ = rules := by
        rw [asmDdRules_of_touched hmem₂, hrules, hafter.asmDd]
      have hnew : s'.configsOf asmDdProduct = p'.configs := Service.configsOf_of_some hp'
      rw [hnew]
      have hcases := assign_asmDd (hinv.engine hp (by decide))
        (fun id c hc => (hinv.filed _ p hp id c hc).2)
        (fun id c hc => configsFor_product hb hc) h0 hassign
      rw [hrules₂, hfiles] at hcases
      rcases hcases with heq | hfollow | ⟨hfb, ⟨k, c, hk, hdropped⟩, hpath, rules', hupdated⟩
      · rw [heq] at hmem₂
        exact absurd hmem₂ h0
      · rcases hfollow with hack | ⟨hnone, hempty⟩
        · exact Or.inl hack
        · exact Or.inr ⟨hnone, Or.inl hempty⟩
      · -- a config was dropped: by the condition none of the others is valid
        refine Or.inr ⟨?_, Or.inr hpath⟩
        rcases hupdated with ⟨id, c', hc', _, hdoc⟩ | ⟨hnone, _⟩
        · exact absurd hdoc
            (hcond.not_object ht hinv.filed hb hp hassign hfb hk hdropped hc' _)
        · exact hnone

end Poll

/-! ## Runs -/

/-- **The ASM_DD rules follow the acknowledged configs** over any run of
successful polls from a fresh client with the engine listener attached, as
long as every poll meets the condition. -/
theorem asmDd_follows (deps : Deps) (updateSub : Sub → Parameter → Option Sub)
    (fallback : Bytes) (dynamicEnablement : Bool) (engine : Engine Sub) (polls : List Poll)
    (h : Along processPoll (NoReplacement deps fallback)
      (Service.start deps updateSub fallback dynamicEnablement true engine) polls) :
    Throughout processPoll (AsmDdFollows deps fallback)
      (Service.start deps updateSub fallback dynamicEnablement true engine) polls := by
  refine throughout_of_invariant (fun s : Service Sub =>
    s.Inv deps updateSub fallback dynamicEnablement true) ?_ (Service.Inv.start engine) h
  intro s poll s' hinv hcond hstep
  exact ⟨hinv.step hstep, asmDd_step hinv hstep hcond⟩

/-! ## Two concrete runs -/

/-- The base64 of a ruleset without rules, and the fallback rules file. -/
def emptyRulesContents : Bytes := "eyJydWxlcyI6W119"

def emptyRulesText : Bytes := "\x7b\"rules\":[]\x7d"

def fallbackText : Bytes := "\x7b\"version\":\"2.2\"\x7d"

def rulesDeps : Deps :=
  Deps.ofTables [(emptyRulesContents, emptyRulesText)]
    [(emptyRulesText, .object [("rules", .array [])]),
      (fallbackText, .object [("version", .string "2.2")])]

/-- A response with the empty ruleset under some path. -/
def rulesPoll (path : Bytes) : Poll :=
  Poll.ofFile path path emptyRulesContents fun file =>
    if file = "rules.json" then some fallbackText else none

def rulesStart : Service Unit :=
  Service.start rulesDeps (fun sub _ => some sub) "rules.json" false true
    ⟨[()], defaultActions⟩

/-- The base64 of a ruleset with a version, and that ruleset. -/
def versionedContents : Bytes := "eyJydWxlcyI6W10sInZlcnNpb24iOiIxLjMifQ=="

def versionedText : Bytes := "\x7b\"rules\":[],\"version\":\"1.3\"\x7d"

def versionedDeps : Deps :=
  Deps.ofTables [(emptyRulesContents, emptyRulesText), (versionedContents, versionedText)]
    [(emptyRulesText, .object [("rules", .array [])]),
      (versionedText, .object [("rules", .array []), ("version", .string "1.3")]),
      (fallbackText, .object [("version", .string "2.2")])]

def versionedStart : Service Unit :=
  Service.start versionedDeps (fun sub _ => some sub) "rules.json" false true
    ⟨[()], defaultActions⟩

/-- One config, and then a second one beside it, with the fallback file there
all the time. -/
def growingPolls : List Poll :=
  let files : FileSystem := fun file => if file = "rules.json" then some fallbackText else none
  [Poll.ofFiles [("employee/ASM_DD/A/c", "a", emptyRulesContents)] files,
    Poll.ofFiles [("employee/ASM_DD/A/c", "a", emptyRulesContents),
      ("employee/ASM_DD/B/c", "b", versionedContents)] files]

/-- The first config contributes its rules, then the one that is added does. -/
theorem asmDd_follows_growing :
    (run processPoll versionedStart growingPolls).map
      (fun s => s.2.commits.map fun c => c.sections.map fun x => (x.1, x.2.length)) =
      some [[(.asmDd, 1)], [(.asmDd, 2)]] ∧
    Throughout processPoll (AsmDdFollows versionedDeps "rules.json") versionedStart
      growingPolls := by
  refine ⟨by decide +kernel, asmDd_follows _ _ _ _ _ _
    ⟨fun _ _ => Or.inr (Or.inl ?_), fun s₁ h₁ => ⟨fun _ _ => Or.inr (Or.inl ?_),
      fun _ _ => trivial⟩⟩⟩
  · intro id c hc
    rw [Service.start_configsOf] at hc
    cases hc
  · -- what the first poll has left is listed again
    intro id c hc
    have hstored : (processPoll versionedStart
        (Poll.ofFiles [("employee/ASM_DD/A/c", "a", emptyRulesContents)]
          fun file => if file = "rules.json" then some fallbackText else none)).map
        (fun s => (s.configsOf asmDdProduct).keys) = some [Bytes.ofString "A"] := by
      decide +kernel
    have hkeys : (s₁.configsOf asmDdProduct).keys = [Bytes.ofString "A"] :=
      Option.some.inj ((congrArg _ h₁).symm.trans hstored)
    have hid := StringMap.mem_keys_of_getElem? hc
    rw [hkeys, List.mem_singleton] at hid
    subst hid
    decide +kernel

/-- The only object `rulesDeps` decodes a config to has one member. -/
theorem rulesDeps_object {contents : Bytes} {ms : Members}
    (h : getJsonBase64EncodedContent rulesDeps contents = some (.object ms)) :
    ms.length = 1 := by
  obtain ⟨decoded, hdec, hdoc⟩ := Option.bind_eq_some_iff.mp h
  have htext : decoded = emptyRulesText := by
    simp only [rulesDeps, Deps.ofTables, List.lookup_cons, List.lookup_nil] at hdec
    split at hdec
    · cases hdec
      rfl
    · cases hdec
  have hparse : rulesDeps.parseJson (cstr emptyRulesText) =
      some (.object [("rules", .array [])]) := rfl
  rw [htext, hparse] at hdoc
  cases hdoc
  rfl

/-- **Replacing the config by another id contributes the fallback file**: the
second response lists one valid config, which is acknowledged, and the rules
committed with it are those of `rules.json`. -/
theorem replaced_rules_fall_back :
    ¬ Throughout processPoll (AsmDdFollows rulesDeps "rules.json") rulesStart
      [rulesPoll "employee/ASM_DD/A/c", rulesPoll "employee/ASM_DD/B/c"] := by
  intro hall
  have hfirst : (processPoll rulesStart (rulesPoll "employee/ASM_DD/A/c")).map
      (fun s => s.2.commits.length) = some 1 := by
    decide +kernel
  have hsecond : (run processPoll rulesStart
      [rulesPoll "employee/ASM_DD/A/c", rulesPoll "employee/ASM_DD/B/c"]).map (fun s =>
        (s.2.commits.map fun c => c.sections.map fun x => (x.1, x.2.length),
          (s.configsOf asmDdProduct)[Bytes.ofString "B"]?.map Config.applyState)) =
      some ([[(.asmDd, 1)], [(.asmDd, 3)]], some .acknowledged) := by
    decide +kernel
  obtain ⟨s₂, hs₂, hfacts⟩ := Option.map_eq_some_iff.mp hsecond
  obtain ⟨s₁, h₁, hrest⟩ := run_cons.mp hs₂
  obtain ⟨s₂', h₂, hnil⟩ := run_cons.mp hrest
  cases hnil
  obtain ⟨hcommits, hstate⟩ := Prod.mk.inj hfacts
  obtain ⟨c, hc, hack⟩ := Option.map_eq_some_iff.mp hstate
  rw [h₁, Option.map_some, Option.some.injEq] at hfirst
  have hlen : s₂.2.commits.length = 2 := by
    have h := congrArg List.length hcommits
    rwa [List.length_map] at h
  have hinv := (Service.Inv.start (⟨[()], defaultActions⟩ : Engine Unit)).step h₁
  rcases processPoll_commits hinv h₂ with ⟨hsame, _⟩ | ⟨commit, happend, _⟩
  · rw [hsame, hfirst] at hlen
    cases hlen
  · -- the second commit has one section, of three members
    have hsections : commit.sections.map (fun x => (x.1, x.2.length)) = [(.asmDd, 3)] := by
      have hlast := congrArg List.getLast? hcommits
      rw [happend, List.map_append] at hlast
      simpa using hlast
    obtain ⟨⟨id, rules⟩, hmem, hrules⟩ :=
      List.mem_map.mp (hsections ▸ List.mem_singleton.mpr rfl :
        (AggregatorId.asmDd, 3) ∈ commit.sections.map fun x => (x.1, x.2.length))
    obtain ⟨hid, hthree⟩ := Prod.mk.inj hrules
    subst hid
    rcases ((hall s₁ h₁).2 s₂ h₂).1 commit rules happend hmem with
      ⟨_, _, _, _, hdoc⟩ | ⟨hnone, _⟩
    · rw [rulesDeps_object hdoc] at hthree
      cases hthree
    · exact hnone _ c hc hack

end DdAppsec.Helper.RemoteConfig
