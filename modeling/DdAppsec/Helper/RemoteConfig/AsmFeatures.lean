import DdAppsec.Helper.RemoteConfig.Service

/-!
# RemoteConfig — the ASM status over a run of polls

The status of `service_config` is one flag, set by `on_update` of an
ASM_FEATURES config and cleared by EVERY `on_unapply`. What it is for is
simple to say: after a response that carries targets it is what the one
ASM_FEATURES config of that response declares, and not set without one
(`StatusFollows`).

`assign_configs` runs all updates before all removals, so a response that
replaces one config id by another ends with the flag cleared. `Steady` is
the condition on a poll that leaves this out, together with the two other
ways in which the flag and the response can come apart: contents that
change under unchanged hashes, and an `enabled` text cut at a NUL byte.
`status_follows_response` is the run theorem.
-/

namespace DdAppsec.Helper.RemoteConfig

open Lib

variable {Sub : Type}

/-! ## What a config declares -/

/-- ASCII lower case. -/
def asciiLower (s : Bytes) : Bytes :=
  s.map fun c => if 65 ≤ c ∧ c ≤ 90 then c + 32 else c

/-- The value at `asm.enabled` of a config's document. -/
def enabledValue (deps : Deps) (contents : Bytes) : Option Json :=
  match getJsonBase64EncodedContent deps contents with
  | some (.object doc) =>
    match Members.find doc "asm" with
    | some (.object asm) => Members.find asm "enabled"
    | _ => none
  | _ => none

/-- The status a config declares; `none` if the config is not valid. -/
def declaredStatus (deps : Deps) (contents : Bytes) : Option EnableAsmStatus :=
  match enabledValue deps contents with
  | some (.bool b) => some (if b then .enabled else .disabled)
  | some (.string s) => some (if asciiLower s = "true" then .enabled else .disabled)
  | _ => none

/-- The `enabled` text does not hide a tail behind a NUL: `GetString()` is
read as a C string. -/
def NoHiddenTail (deps : Deps) (contents : Bytes) : Prop :=
  ∀ s, enabledValue deps contents = some (.string s) →
    asciiLower (cstr s) = "true" → asciiLower s = "true"

theorem map_eq_congr {f g : UInt8 → UInt8} :
    ∀ {target s : Bytes}, (∀ x ∈ target, ∀ c, f c = x ↔ g c = x) →
      (s.map f = target ↔ s.map g = target) := by
  intro target s
  induction s generalizing target with
  | nil => exact fun _ => Iff.rfl
  | cons c s ih =>
    intro h
    cases target with
    | nil => simp
    | cons x target =>
      have hc := h x (by simp) c
      have hs := ih fun y hy => h y (List.mem_cons_of_mem _ hy)
      simp only [List.map_cons, List.cons.injEq, hc, hs]

/-- The two letters `dd_tolower` misses are not in "true". -/
theorem ddTolower_eq_true_iff (s : Bytes) :
    ddTolower s = Bytes.ofString "true" ↔ asciiLower s = Bytes.ofString "true" := by
  apply map_eq_congr
  intro x hx c
  have hletter : x = 116 ∨ x = 114 ∨ x = 117 ∨ x = 101 := by
    simpa [Bytes.ofString] using hx
  by_cases h65 : c = 65
  · subst h65
    rcases hletter with rfl | rfl | rfl | rfl <;> decide
  · by_cases h90 : c = 90
    · subst h90
      rcases hletter with rfl | rfl | rfl | rfl <;> decide
    · have hrange : (65 < c ∧ c < 90) ↔ (65 ≤ c ∧ c ≤ 90) := by
        rw [← UInt8.toNat_inj] at h65 h90
        simp only [UInt8.lt_iff_toNat_lt, UInt8.le_iff_toNat_le, UInt8.reduceToNat] at *
        omega
      simp only [hrange]

/-- A text that reads "true" has no NUL. -/
theorem cstr_of_lower_true {s : Bytes} (h : asciiLower s = Bytes.ofString "true") :
    cstr s = s := by
  apply List.takeWhile_eq_self_iff.mpr
  intro c hc
  have hmem : (if 65 ≤ c ∧ c ≤ 90 then c + 32 else c) ∈ Bytes.ofString "true" := by
    rw [← h]
    exact List.mem_map_of_mem hc
  have hne : c ≠ 0 := by
    rintro rfl
    revert hmem
    decide
  simpa using hne

/-- On a valid config without a hidden tail, the listener sets what the
config declares. -/
theorem asmFeaturesStatus_of_declared {deps : Deps} {c : Config} {status : EnableAsmStatus}
    (h : declaredStatus deps c.contents = some status) (hn : NoHiddenTail deps c.contents) :
    asmFeaturesStatus deps c = .ok status := by
  unfold declaredStatus at h
  unfold NoHiddenTail at hn
  unfold enabledValue at h hn
  unfold asmFeaturesStatus
  cases hdoc : getJsonBase64EncodedContent deps c.contents with
  | none => simp [hdoc] at h
  | some doc =>
    cases doc with
    | object members =>
      simp only [hdoc] at h hn
      cases hasm : Members.find members "asm" with
      | none => simp [hasm] at h
      | some asm =>
        cases asm with
        | object fields =>
          simp only [hasm] at h hn
          simp only [getFieldOfType, findMember, hasm, Json.kind, if_true]
          cases hen : Members.find fields "enabled" with
          | none => simp [hen] at h
          | some enabled =>
            simp only [hen] at h hn
            cases enabled with
            | bool b =>
              cases b <;> simpa using h
            | string s =>
              have hs := hn s rfl
              have hiff : ddTolower (cstr s) = Bytes.ofString "true" ↔
                  asciiLower s = Bytes.ofString "true" := by
                rw [ddTolower_eq_true_iff]
                constructor
                · exact hs
                · intro ht
                  rw [cstr_of_lower_true ht]
                  exact ht
              simp only [Option.some.injEq] at h
              rw [← h]
              simp only [hiff]
            | null => simp at h
            | number n => simp at h
            | array xs => simp at h
            | object ms => simp at h
        | null => simp [hasm] at h
        | bool b => simp [hasm] at h
        | number n => simp [hasm] at h
        | string s => simp [hasm] at h
        | array xs => simp [hasm] at h
    | null => simp [hdoc] at h
    | bool b => simp [hdoc] at h
    | number n => simp [hdoc] at h
    | string s => simp [hdoc] at h
    | array xs => simp [hdoc] at h

/-! ## What a response says -/

/-- The ASM_FEATURES configs the client holds. -/
abbrev Service.features (s : Service Sub) : StringMap Config := s.configsOf asmFeaturesProduct

/-- The contents a response gives a path: the file it carries, or the copy
held under the same path and hashes. -/
def listedContents (stored : StringMap Config) (targets : Targets)
    (targetFiles : StringMap TargetFile) (id path : Bytes) : Option Bytes :=
  match targetFiles[path]? with
  | some file => some file.raw
  | none =>
    match stored[id]?, targets.paths[path]? with
    | some c, some target =>
      if c.path = path ∧ c.hashes = target.hashes then some c.contents else none
    | _, _ => none

/-- `path` is listed as the ASM_FEATURES config `id`. -/
def ListsFeature (response : GetConfigsResponse) (path id : Bytes) : Prop :=
  path ∈ response.clientConfigs ∧
    ConfigPath.fromPath path = some ⟨id, asmFeaturesProduct⟩

/-- At most one ASM_FEATURES config is listed, and it is valid. -/
structure OneValidFeature (deps : Deps) (s : Service Sub) (poll : Poll) (targets : Targets) :
    Prop where
  one : ∀ path id path' id', ListsFeature poll.response path id →
    ListsFeature poll.response path' id' → path = path'
  valid : ∀ path id contents, ListsFeature poll.response path id →
    listedContents s.features targets poll.response.targetFiles id path = some contents →
    declaredStatus deps contents ≠ none

/-- **The status follows the response**: it is what the listed config
declares, and not set without one. A response without targets changes
nothing. -/
def StatusFollows (deps : Deps) (s : Service Sub) (poll : Poll) (s' : Service Sub) : Prop :=
  match poll.response.targets with
  | none => s'.2.status = s.2.status
  | some targets =>
    ((∀ path id, ¬ ListsFeature poll.response path id) → s'.2.status = .notSet) ∧
    ∀ path id, ListsFeature poll.response path id → ∃ contents,
      listedContents s.features targets poll.response.targetFiles id path = some contents ∧
      declaredStatus deps contents = some s'.2.status

/-- The condition on one poll: the listed config keeps the id of whatever is
stored, contents held under unchanged hashes declare the same, and the
`enabled` text has no hidden tail. -/
structure Steady (deps : Deps) (s : Service Sub) (poll : Poll) (targets : Targets) : Prop where
  sameId : ∀ path id, ListsFeature poll.response path id →
    ∀ (id' : Bytes) (c : Config), s.features[id']? = some c → id' = id
  sameContents : ∀ path id target contents, ListsFeature poll.response path id →
    targets.paths[path]? = some target →
    listedContents s.features targets poll.response.targetFiles id path = some contents →
    ∀ c, s.features[id]? = some c → c.hashes = target.hashes →
      declaredStatus deps c.contents = declaredStatus deps contents
  noHiddenTail : ∀ path id contents, ListsFeature poll.response path id →
    listedContents s.features targets poll.response.targetFiles id path = some contents →
    NoHiddenTail deps contents

/-! ## The listener over a product -/

section Loops

variable {deps : Deps} {ord : IterOrder} {m m' : StringMap Config} {w w' : World Sub}

/-- Updating a single valid config sets its status. -/
theorem features_update_single
    (h : updateConfigs ord (asmFeaturesListener deps) m w = (.ok (), m', w')) {id : Bytes}
    {c : Config} {status : EnableAsmStatus} (hc : m[id]? = some c)
    (honly : ∀ k, k ≠ id → m[k]? = none) (hst : asmFeaturesStatus deps c = .ok status) :
    w'.status = status := by
  have hP : m'[id]? ≠ none → w'.status = status := by
    refine forEach_invariant (fun done w => done[id]? ≠ none → w.status = status)
      (by simp) ?_ h
    intro done k v wa v' wb hk _ _ hb _
    have hkid : k = id := by
      by_contra hne
      rw [honly k hne] at hk
      cases hk
    subst hkid
    rw [hc] at hk
    cases hk
    rcases applyConfig_ok hb with ⟨hcall, _⟩ | ⟨what, hcall, _⟩
    · simp only [asmFeaturesListener, hst] at hcall
      cases hcall
      rfl
    · simp only [asmFeaturesListener, hst] at hcall
      cases hcall
  exact hP (forEntries_keeps_key _ h (by simp [hc]))

/-- Updating nothing changes nothing. -/
theorem update_nothing {l : Listener (World Sub)}
    (h : updateConfigs ord l m w = (.ok (), m', w')) (hm : ∀ k : Bytes, m[k]? = none) :
    w' = w := by
  rw [updateConfigs, forEach, ord.entries_eq_nil hm] at h
  cases h
  rfl

theorem unapply_nothing {l : Listener (World Sub)}
    (h : unapplyConfigs ord l m w = (.ok (), m', w')) (hm : ∀ k : Bytes, m[k]? = none) :
    w' = w := by
  rw [unapplyConfigs, forEach, ord.entries_eq_nil hm] at h
  cases h
  rfl

/-- Unapplying any config clears the status. -/
theorem features_unapply
    (h : unapplyConfigs ord (asmFeaturesListener deps) m w = (.ok (), m', w')) {k : Bytes}
    (hk : m[k]? ≠ none) : w'.status = .notSet := by
  have hP : ∀ k : Bytes, m'[k]? ≠ none → w'.status = .notSet := by
    refine forEach_invariant (fun done w => ∀ k : Bytes, done[k]? ≠ none →
      w.status = .notSet) (by simp) ?_ h
    intro done k v wa v' wb _ _ _ hb _ _
    rcases applyConfig_ok hb with ⟨hcall, _⟩ | ⟨what, hcall, _⟩
    · cases hcall
      rfl
    · cases hcall
  exact hP k (forEntries_keeps_key _ h hk)

variable {p p' : Product (World Sub)} {configs : StringMap Config}

/-- A response without an ASM_FEATURES config. -/
theorem features_assign_none (hl : p.listener = asmFeaturesListener deps)
    (h : p.assignConfigs ord configs w = (.ok (), p', w'))
    (hnone : ∀ k : Bytes, configs[k]? = none)
    (hunset : (∀ k : Bytes, p.configs[k]? = none) → w.status = .notSet) :
    w'.status = .notSet ∧ ∀ k : Bytes, p'.configs[k]? = none := by
  refine ⟨?_, fun k => (Product.assignConfigs_configs h k).1 (hnone k)⟩
  rcases Product.assignConfigs_ok h with ⟨hs, rfl, rfl⟩ | ⟨hs, updated, w₁, _, hu, hun, _⟩
  · exact hunset fun k => hs.2 k (hnone k)
  · have hspec := classify_spec ord p.configs configs
    have hw₁ : w₁ = w := by
      refine update_nothing hu fun k => ?_
      rw [hspec.toUpdate, hnone k]
      rfl
    subst hw₁
    -- something is stored, or nothing would have changed
    by_cases hempty : ∀ k : Bytes, p.configs[k]? = none
    · refine absurd ⟨fun k c hc => ?_, fun k _ => hempty k⟩ hs
      rw [hnone k] at hc
      cases hc
    · obtain ⟨k, hk⟩ := Classical.not_forall.mp hempty
      rw [hl] at hun
      refine features_unapply hun (k := k) ?_
      rw [hspec.stored, if_pos (hnone k)]
      exact hk

section One

variable (h : p.assignConfigs ord configs w = (.ok (), p', w')) {id : Bytes} {c : Config}
  (hc : configs[id]? = some c) (honly : ∀ k, k ≠ id → configs[k]? = none)
  (hstored : ∀ (k : Bytes) (c' : Config), p.configs[k]? = some c' → k = id)

include hc honly hstored in
/-- What is left to unapply is stored under another id: nothing. -/
theorem nothing_left (k : Bytes) : (classify ord p.configs configs).stored[k]? = none := by
  rw [(classify_spec ord p.configs configs).stored]
  by_cases hk : k = id
  · rw [hk, hc]
    rfl
  · rw [if_pos (honly k hk)]
    cases hp : p.configs[k]? with
    | none => rfl
    | some c' => exact absurd (hstored k c' hp) hk

include h hc honly hstored in
/-- One config under one id: if its hashes are those of the stored config
nothing is called, and otherwise it is updated and nothing else is. -/
theorem assign_one_cases :
    (∃ previous, p.configs[id]? = some previous ∧ c.hashes = previous.hashes ∧ w' = w) ∨
      ∃ m m', updateConfigs ord p.listener m w = (.ok (), m', w') ∧
        m[id]? = some { c with applyState := .unacknowledged } ∧
        ∀ k, k ≠ id → m[k]? = none := by
  have hspec := classify_spec ord p.configs configs
  rcases Product.assignConfigs_ok h with ⟨hs, _, rfl⟩ | ⟨hs, updated, w₁, _, hu, hun, _⟩
  · have hch := hs.1 id c hc
    cases hp : p.configs[id]? with
    | none => simp [hp, isChange] at hch
    | some previous => exact Or.inl ⟨previous, rfl, by simpa [hp, isChange] using hch, rfl⟩
  · have hw' : w' = w₁ := unapply_nothing hun (nothing_left hc honly hstored)
    subst hw'
    refine Or.inr ⟨_, _, hu, ?_, ?_⟩
    · have hrec : reconcile p.configs[id]? c = { c with applyState := .unacknowledged } := by
        cases hp : p.configs[id]? with
        | none => rfl
        | some previous =>
          rw [reconcile, if_neg]
          -- an unchanged config would have been no reason to call anything
          intro hh
          refine hs ⟨fun k c' hk => ?_, fun k hk => ?_⟩
          · have hkid : k = id := by
              by_contra hne
              rw [honly k hne] at hk
              cases hk
            subst hkid
            rw [hc] at hk
            cases hk
            simp [hp, isChange, hh]
          · cases hp' : p.configs[k]? with
            | none => rfl
            | some c' =>
              rw [hstored k c' hp', hc] at hk
              cases hk
      rw [hspec.toUpdate, hc, Option.map_some, hrec]
    · intro k hk
      rw [hspec.toUpdate, honly k hk]
      rfl

include h hc honly hstored in
/-- A response with one ASM_FEATURES config, under the id of whatever is
stored. -/
theorem features_assign_one (hl : p.listener = asmFeaturesListener deps)
    {status : EnableAsmStatus} (hdecl : declaredStatus deps c.contents = some status)
    (htail : NoHiddenTail deps c.contents)
    (hsame : ∀ c', p.configs[id]? = some c' → c'.hashes = c.hashes →
      w.status = status ∧ declaredStatus deps c'.contents = some status) :
    w'.status = status ∧ ∀ (k : Bytes) (c' : Config), p'.configs[k]? = some c' →
      declaredStatus deps c'.contents = some status := by
  constructor
  · rcases assign_one_cases h hc honly hstored with
      ⟨previous, hp, hh, rfl⟩ | ⟨m, m', hu, hm, hothers⟩
    · exact (hsame previous hp hh.symm).1
    · rw [hl] at hu
      exact features_update_single hu hm hothers (asmFeaturesStatus_of_declared hdecl htail)
  · have hdecl' : declaredStatus deps (reconcile p.configs[id]? c).contents = some status := by
      cases hp : p.configs[id]? with
      | none => exact hdecl
      | some previous =>
        rw [reconcile]
        split
        · rename_i hh
          exact (hsame previous hp hh.symm).2
        · exact hdecl
    intro k c' hc'
    obtain ⟨h1, h2⟩ := Product.assignConfigs_configs h k
    by_cases hk : k = id
    · subst hk
      obtain ⟨state, text, heq⟩ := h2 c hc
      rw [heq] at hc'
      cases hc'
      exact hdecl'
    · rw [h1 (honly k hk)] at hc'
      cases hc'

end One

end Loops

/-! ## One poll -/

section Poll

variable {deps : Deps} {updateSub : Sub → Parameter → Option Sub} {fallback : Bytes}
  {dynamicEnablement rulesFileEmpty : Bool} {s s' : Service Sub} {poll : Poll}
  {targets : Targets}

/-- The frame of the status. -/
def SameStatus (a b : World Sub) : Prop := b.status = a.status

theorem SameStatus.refl (w : World Sub) : SameStatus w w := rfl

theorem SameStatus.trans (a b c : World Sub) (hab : SameStatus a b) (hbc : SameStatus b c) :
    SameStatus a c := Eq.trans hbc hab

theorem engineListener_respects_status (name : Bytes) :
    (engineListener deps updateSub fallback).Respects name (@SameStatus Sub) where
  refl := SameStatus.refl
  trans := SameStatus.trans
  onUpdate := by
    intro c w r w' _ h
    rcases engineOnUpdate_cases h with ⟨_, rfl⟩ | ⟨id, l, _, _, rfl⟩
    · rfl
    · rfl
  onUnapply := by
    intro c w r w' _ h
    rcases engineOnUnapply_cases h with ⟨_, rfl⟩ | ⟨id, l, _, _, rfl⟩
    · rfl
    · rfl

theorem init_keeps_status {l : Listener (World Sub)}
    (hl : l ∈ serviceListeners deps updateSub fallback dynamicEnablement rulesFileEmpty)
    {w w' : World Sub} {r : Except Exception Unit} (h : l.init w = (r, w')) :
    SameStatus w w' := by
  rcases mem_serviceListeners hl with rfl | rfl
  · cases h
    rfl
  · cases h
    rfl

theorem commit_keeps_status {l : Listener (World Sub)}
    (hl : l ∈ serviceListeners deps updateSub fallback dynamicEnablement rulesFileEmpty)
    {w w' : World Sub} {r : Except Exception Unit} (h : l.commit w = (r, w')) :
    SameStatus w w' := by
  rcases mem_serviceListeners hl with rfl | rfl
  · cases h
    rfl
  · cases h
    exact engineCommit_status w

/-- **A poll, seen from the ASM_FEATURES product**: the status moves in that
product's `assign_configs` and nowhere else. -/
theorem processPoll_features
    (hinv : s.Inv deps updateSub fallback dynamicEnablement rulesFileEmpty)
    (h : processPoll s poll = some s') (ht : poll.response.targets = some targets) :
    ∃ configs, buildConfigs poll.order s.1.products targets poll.response.targetFiles
        poll.response.clientConfigs ∅ = .ok configs ∧
      ((s.1.products[asmFeaturesProduct]? = none ∧
          s'.1.products[asmFeaturesProduct]? = none ∧ s'.2.status = s.2.status) ∨
        ∃ p p' w₁ w₂, s.1.products[asmFeaturesProduct]? = some p ∧
          s'.1.products[asmFeaturesProduct]? = some p' ∧
          p.assignConfigs poll.order (configsFor configs asmFeaturesProduct) w₁ =
            (.ok (), p', w₂) ∧
          w₁.status = s.2.status ∧ s'.2.status = w₂.status) := by
  have hpoll := processPoll_some h
  rcases processResponse_ok_true hpoll with
    ⟨hn, _, _⟩ | ⟨t, configs, wi, products, wc, ht', hb, hi, ha, hc, hs'⟩
  · rw [ht] at hn
    cases hn
  rw [ht] at ht'
  cases ht'
  refine ⟨configs, hb, ?_⟩
  have hinit : SameStatus (s.2.during poll) wi := by
    refine forListeners_rel SameStatus SameStatus.refl SameStatus.trans ?_ hi
    intro l hl w r w' hcall
    exact init_keeps_status (hinv.listeners ▸ hl) hcall
  have hcommit : SameStatus wc s'.2 := by
    refine forListeners_rel SameStatus SameStatus.refl SameStatus.trans ?_ hc
    intro l hl w r w' hcall
    exact commit_keeps_status (hinv.listeners ▸ hl) hcall
  cases hp : s.1.products[asmFeaturesProduct]? with
  | none =>
    refine Or.inl ⟨rfl, ?_, ?_⟩
    · cases hp' : s'.1.products[asmFeaturesProduct]? with
      | none => rfl
      | some p' =>
        obtain ⟨p, hp₁, _⟩ := ((processResponse_static hpoll).2 asmFeaturesProduct).2 p' hp'
        rw [hp] at hp₁
        cases hp₁
    · have hall : SameStatus wi wc := by
        refine assignAll_rel SameStatus SameStatus.refl SameStatus.trans hinv.filed hb ?_ ha
        intro name p hp₁
        have hne : name ≠ asmFeaturesProduct := by
          rintro rfl
          rw [hp] at hp₁
          cases hp₁
        rw [hinv.engine hp₁ hne]
        exact engineListener_respects_status name
      exact SameStatus.trans _ _ _ hinit (SameStatus.trans _ _ _ hall hcommit)
  | some p =>
    obtain ⟨w₁, p', w₂, hbefore, hassign, hafter, hp'⟩ :=
      assignAll_isolate SameStatus SameStatus.refl SameStatus.trans hinv.filed hb
        (fun name q hne hq => by
          rw [hinv.engine hq hne]
          exact engineListener_respects_status name) ha hp
    refine Or.inr ⟨p, p', w₁, w₂, rfl, ?_, hassign, ?_, ?_⟩
    · rw [hs']
      exact hp'
    · exact SameStatus.trans _ _ _ hinit hbefore
    · exact SameStatus.trans _ _ _ hafter hcommit

/-- The config built for a listed path has the contents the response gives
that path. -/
theorem Built.listedContents_eq (hfiled : s.1.Filed) {p : Product (World Sub)}
    (hp : s.1.products[asmFeaturesProduct]? = some p) {path id : Bytes} {c : Config}
    (hb : Built s.1.products targets poll.response.targetFiles path
      ⟨id, asmFeaturesProduct⟩ c) :
    listedContents s.features targets poll.response.targetFiles id path =
      some c.contents := by
  have hfeat : s.features = p.configs := Service.configsOf_of_some hp
  obtain ⟨target, p₁, htarget, hp₁, _, hfile⟩ := hb.file
  rw [hp] at hp₁
  cases hp₁
  rcases hfile with ⟨file, hf, hc, _, _⟩ | ⟨id', stored, hf, hs, hpath, hhash, hc, _, _⟩
  · rw [listedContents, hf, hc]
  · -- the copy is stored under the id its path says, which is this one
    have hid := (hfiled _ p hp id' stored hs).1
    rw [hpath, hb.parsed] at hid
    cases hid
    rw [listedContents, hf, hfeat, hs, htarget]
    simp only [hpath, hhash, and_self, if_true, hc]

/-- What the features product keeps between polls: without a config the
status is not set, and otherwise every stored config declares it. -/
structure FeaturesInv (deps : Deps) (s : Service Sub) : Prop where
  unset : (∀ k : Bytes, s.features[k]? = none) → s.2.status = .notSet
  declared : ∀ (id : Bytes) (c : Config), s.features[id]? = some c →
    declaredStatus deps c.contents = some s.2.status

/-- A product without configs that ends with the status cleared. -/
theorem FeaturesInv.of_none (hs : s.2.status = .notSet)
    (hn : ∀ k : Bytes, s.features[k]? = none) : FeaturesInv deps s where
  unset := fun _ => hs
  declared := by
    intro id c hc
    rw [hn id] at hc
    cases hc

/-- The listed path is the one that is filed. -/
theorem OneValidFeature.firstListed_eq (hone : OneValidFeature deps s poll targets)
    {path id : Bytes} (hl : ListsFeature poll.response path id) :
    firstListed poll.response.clientConfigs asmFeaturesProduct id = some path := by
  cases hf : firstListed poll.response.clientConfigs asmFeaturesProduct id with
  | none => exact absurd hl.2 (firstListed_none_iff.mp hf path hl.1)
  | some path' => rw [hone.one path id path' id hl (firstListed_some hf)]

/-- There is one id. -/
theorem OneValidFeature.id_eq (hone : OneValidFeature deps s poll targets)
    {path id path' id' : Bytes} (hl : ListsFeature poll.response path id)
    (hl' : ListsFeature poll.response path' id') : id' = id := by
  have hparsed := hl'.2
  rw [← hone.one path id path' id' hl hl', hl.2] at hparsed
  cases hparsed
  rfl

/-- One poll that lists a config. -/
theorem features_step_listed
    (hinv : s.Inv deps updateSub fallback dynamicEnablement rulesFileEmpty)
    (hfi : FeaturesInv deps s) (h : processPoll s poll = some s')
    (ht : poll.response.targets = some targets) (hone : OneValidFeature deps s poll targets)
    (hsteady : Steady deps s poll targets) {path id : Bytes}
    (hl : ListsFeature poll.response path id) :
    FeaturesInv deps s' ∧ ∃ contents,
      listedContents s.features targets poll.response.targetFiles id path = some contents ∧
      declaredStatus deps contents = some s'.2.status := by
  obtain ⟨configs, hb, hprod⟩ := processPoll_features hinv h ht
  have hfirst := hone.firstListed_eq hl
  have honly : ∀ k, k ≠ id → (configsFor configs asmFeaturesProduct)[k]? = none := by
    intro k hk
    rw [configsFor_none_iff hb, firstListed_none_iff]
    intro path' hmem hparsed
    exact hk (hone.id_eq hl ⟨hmem, hparsed⟩)
  cases hc : (configsFor configs asmFeaturesProduct)[id]? with
  | none =>
    rw [configsFor_none_iff hb, hfirst] at hc
    cases hc
  | some c =>
    obtain ⟨path', hf', hbuilt⟩ := configsFor_built hb hc
    rw [hfirst] at hf'
    cases hf'
    obtain ⟨target, q, htarget, hq, hhash, _⟩ := hbuilt.file
    rcases hprod with ⟨hnone, _, _⟩ | ⟨p, p', w₁, w₂, hp, hp', hassign, hw₁, hw₂⟩
    · rw [hnone] at hq
      cases hq
    have hfeat : s.features = p.configs := Service.configsOf_of_some hp
    have hfeat' : s'.features = p'.configs := Service.configsOf_of_some hp'
    have hlc := hbuilt.listedContents_eq hinv.filed hp
    obtain ⟨status, hdecl⟩ := Option.ne_none_iff_exists'.mp (hone.valid path id _ hl hlc)
    -- contents that are kept under unchanged hashes declare the status in force
    have hkept : ∀ c', p.configs[id]? = some c' → c'.hashes = c.hashes →
        w₁.status = status ∧ declaredStatus deps c'.contents = some status := by
      intro c' hc' hh
      rw [← hfeat] at hc'
      have hsame := hsteady.sameContents path id target _ hl htarget hlc c' hc' (hh.trans hhash)
      have hst := hfi.declared id c' hc'
      rw [hsame, hdecl, Option.some.injEq] at hst
      exact ⟨by rw [hw₁, ← hst], hsame.trans hdecl⟩
    obtain ⟨hstatus₂, hdeclared⟩ := features_assign_one hassign hc honly
      (fun k c' hk => hsteady.sameId path id hl k c' (hfeat ▸ hk)) (hinv.features hp) hdecl
      (hsteady.noHiddenTail path id _ hl hlc) hkept
    have hstatus : s'.2.status = status := hw₂.trans hstatus₂
    refine ⟨⟨?_, ?_⟩, c.contents, hlc, by rw [hstatus]; exact hdecl⟩
    · intro hempty
      obtain ⟨state, text, heq⟩ := (Product.assignConfigs_configs hassign id).2 c hc
      rw [← hfeat', hempty id] at heq
      cases heq
    · intro k c' hk
      rw [hstatus]
      exact hdeclared k c' (hfeat' ▸ hk)

/-- One poll that lists none. -/
theorem features_step_unlisted
    (hinv : s.Inv deps updateSub fallback dynamicEnablement rulesFileEmpty)
    (hfi : FeaturesInv deps s) (h : processPoll s poll = some s')
    (ht : poll.response.targets = some targets)
    (hno : ∀ path id, ¬ ListsFeature poll.response path id) :
    s'.2.status = .notSet ∧ ∀ k : Bytes, s'.features[k]? = none := by
  obtain ⟨configs, hb, hprod⟩ := processPoll_features hinv h ht
  have hnone : ∀ k : Bytes, (configsFor configs asmFeaturesProduct)[k]? = none := by
    intro k
    rw [configsFor_none_iff hb, firstListed_none_iff]
    intro path hmem hparsed
    exact hno path k ⟨hmem, hparsed⟩
  rcases hprod with ⟨hp, hp', hst⟩ | ⟨p, p', w₁, w₂, hp, hp', hassign, hw₁, hw₂⟩
  · have hfeat : s.features = ∅ := Service.configsOf_of_none hp
    have hfeat' : s'.features = ∅ := Service.configsOf_of_none hp'
    exact ⟨hst.trans (hfi.unset (by simp [hfeat])), by simp [hfeat']⟩
  · have hfeat : s.features = p.configs := Service.configsOf_of_some hp
    have hfeat' : s'.features = p'.configs := Service.configsOf_of_some hp'
    obtain ⟨hstatus, hempty⟩ := features_assign_none (hinv.features hp) hassign hnone
      (fun hempty => by rw [hw₁]; exact hfi.unset (hfeat ▸ hempty))
    exact ⟨hw₂.trans hstatus, hfeat' ▸ hempty⟩

/-- One poll with targets. -/
theorem features_step
    (hinv : s.Inv deps updateSub fallback dynamicEnablement rulesFileEmpty)
    (hfi : FeaturesInv deps s) (h : processPoll s poll = some s')
    (ht : poll.response.targets = some targets) (hone : OneValidFeature deps s poll targets)
    (hsteady : Steady deps s poll targets) :
    FeaturesInv deps s' ∧ StatusFollows deps s poll s' := by
  rw [StatusFollows, ht]
  by_cases hlists : ∃ path id, ListsFeature poll.response path id
  · obtain ⟨path, id, hl⟩ := hlists
    refine ⟨(features_step_listed hinv hfi h ht hone hsteady hl).1,
      fun hno => absurd hl (hno path id), ?_⟩
    intro path' id' hl'
    exact (features_step_listed hinv hfi h ht hone hsteady hl').2
  · have hno : ∀ path id, ¬ ListsFeature poll.response path id :=
      fun path id hl => hlists ⟨path, id, hl⟩
    obtain ⟨hstatus, hempty⟩ := features_step_unlisted hinv hfi h ht hno
    exact ⟨FeaturesInv.of_none hstatus hempty, fun _ => hstatus,
      fun path id hl => absurd hl (hno path id)⟩

end Poll

/-! ## Runs -/

/-- The condition on every poll of a run. -/
def FeaturesCondition (deps : Deps) (s : Service Sub) (poll : Poll) : Prop :=
  ∀ targets, poll.response.targets = some targets →
    OneValidFeature deps s poll targets ∧ Steady deps s poll targets

theorem features_poll {deps : Deps} {updateSub : Sub → Parameter → Option Sub}
    {fallback : Bytes} {dynamicEnablement rulesFileEmpty : Bool} {s s' : Service Sub}
    {poll : Poll} (hinv : s.Inv deps updateSub fallback dynamicEnablement rulesFileEmpty)
    (hfi : FeaturesInv deps s) (hcond : FeaturesCondition deps s poll)
    (h : processPoll s poll = some s') :
    FeaturesInv deps s' ∧ StatusFollows deps s poll s' := by
  cases ht : poll.response.targets with
  | none =>
    have hs' := processPoll_no_targets h ht
    subst hs'
    refine ⟨⟨hfi.unset, hfi.declared⟩, ?_⟩
    rw [StatusFollows, ht]
    rfl
  | some targets =>
    obtain ⟨hone, hsteady⟩ := hcond targets ht
    exact features_step hinv hfi h ht hone hsteady

theorem FeaturesInv.start {deps : Deps} {updateSub : Sub → Parameter → Option Sub}
    {fallback : Bytes} {dynamicEnablement rulesFileEmpty : Bool} (engine : Engine Sub) :
    FeaturesInv deps
      (Service.start deps updateSub fallback dynamicEnablement rulesFileEmpty engine) :=
  FeaturesInv.of_none rfl (Service.start_configsOf engine asmFeaturesProduct)

/-- **The status follows the responses over any run** of successful polls
from a fresh client, as long as every poll meets the condition. -/
theorem status_follows_response (deps : Deps) (updateSub : Sub → Parameter → Option Sub)
    (fallback : Bytes) (dynamicEnablement rulesFileEmpty : Bool) (engine : Engine Sub)
    (polls : List Poll)
    (h : Along processPoll (FeaturesCondition deps)
      (Service.start deps updateSub fallback dynamicEnablement rulesFileEmpty engine) polls) :
    Throughout processPoll (StatusFollows deps)
      (Service.start deps updateSub fallback dynamicEnablement rulesFileEmpty engine)
      polls := by
  refine throughout_of_invariant (fun s : Service Sub =>
    s.Inv deps updateSub fallback dynamicEnablement rulesFileEmpty ∧ FeaturesInv deps s)
    ?_ ⟨Service.Inv.start engine, FeaturesInv.start engine⟩ h
  rintro s poll s' ⟨hinv, hfi⟩ hcond hstep
  obtain ⟨hfi', hfollows⟩ := features_poll hinv hfi hcond hstep
  exact ⟨⟨hinv.step hstep, hfi'⟩, hfollows⟩

/-! ## Two concrete runs -/

/-- The base64 of a config that enables ASM, and that config. -/
def enablingContents : Bytes := "eyJhc20iOnsiZW5hYmxlZCI6dHJ1ZX19"

def enablingText : Bytes := "\x7b\"asm\":\x7b\"enabled\":true\x7d\x7d"

def enablingDeps : Deps :=
  Deps.ofTables [(enablingContents, enablingText)]
    [(enablingText, .object [("asm", .object [("enabled", .bool true)])])]

/-- A response with the enabling config under some path. -/
def enablingPoll (path : Bytes) : Poll :=
  Poll.ofFile path path enablingContents fun _ => none

def enablingStart : Service Unit :=
  Service.start enablingDeps (fun sub _ => some sub) "rules.json" true true
    ⟨[()], defaultActions⟩

theorem enabling_declared : declaredStatus enablingDeps enablingContents = some .enabled := by
  decide

/-- The contents of a carried file do not depend on the client. -/
theorem enabling_listed {stored : StringMap Config} {targets : Targets} {id path : Bytes} :
    listedContents stored targets (enablingPoll path).response.targetFiles id path =
      some enablingContents := by
  simp [listedContents, enablingPoll, Poll.ofFile]

theorem enabling_oneValid (s : Service Unit) (path : Bytes) (targets : Targets) :
    OneValidFeature enablingDeps s (enablingPoll path) targets where
  one := by
    intro p₁ id₁ p₂ id₂ h₁ h₂
    exact (List.mem_singleton.mp h₁.1).trans (List.mem_singleton.mp h₂.1).symm
  valid := by
    intro p id contents hl hc
    rw [List.mem_singleton.mp hl.1, enabling_listed] at hc
    cases hc
    rw [enabling_declared]
    exact Option.some_ne_none _

/-- The base64 of a config that disables ASM, and that config. -/
def disablingContents : Bytes := "eyJhc20iOnsiZW5hYmxlZCI6ZmFsc2V9fQ=="

def disablingText : Bytes := "\x7b\"asm\":\x7b\"enabled\":false\x7d\x7d"

def switchingDeps : Deps :=
  Deps.ofTables [(enablingContents, enablingText), (disablingContents, disablingText)]
    [(enablingText, .object [("asm", .object [("enabled", .bool true)])]),
      (disablingText, .object [("asm", .object [("enabled", .bool false)])])]

def switchingStart : Service Unit :=
  Service.start switchingDeps (fun sub _ => some sub) "rules.json" true true
    ⟨[()], defaultActions⟩

/-- One config with some hash and contents. -/
def switchingPoll (hash contents : Bytes) : Poll :=
  Poll.ofFile "employee/ASM_FEATURES/A/c" hash contents fun _ => none

theorem switching_listed {hash raw : Bytes} {path id : Bytes}
    (hl : ListsFeature (switchingPoll hash raw).response path id) :
    path = "employee/ASM_FEATURES/A/c" ∧ id = "A" := by
  have hpath : path = "employee/ASM_FEATURES/A/c" := List.mem_singleton.mp hl.1
  have hparsed : ConfigPath.fromPath "employee/ASM_FEATURES/A/c" =
      some ⟨"A", asmFeaturesProduct⟩ := by decide
  have hid := hl.2
  rw [hpath, hparsed] at hid
  cases hid
  exact ⟨hpath, rfl⟩

/-- The condition on a poll, as long as what is stored is of the same id and has
another hash. -/
theorem switching_condition {s : Service Unit} {hash raw : Bytes} {b : Bool}
    (hvalue : enabledValue switchingDeps raw = some (.bool b))
    (hstored : ∀ (id : Bytes) (c : Config), s.features[id]? = some c →
      id = "A" ∧ c.hashes[Bytes.ofString "sha256"]? ≠ some hash) :
    FeaturesCondition switchingDeps s (switchingPoll hash raw) := by
  intro targets htargets
  have hlisted {path id contents : Bytes}
      (hl : ListsFeature (switchingPoll hash raw).response path id)
      (hc : listedContents s.features targets (switchingPoll hash raw).response.targetFiles id
        path = some contents) : contents = raw := by
    rw [(switching_listed hl).1] at hc
    simpa [listedContents, switchingPoll, Poll.ofFile] using hc.symm
  refine ⟨⟨?_, ?_⟩, ⟨?_, ?_, ?_⟩⟩
  · exact fun p₁ id₁ p₂ id₂ h₁ h₂ => (switching_listed h₁).1.trans (switching_listed h₂).1.symm
  · intro path id contents hl hc
    rw [hlisted hl hc, declaredStatus, hvalue]
    cases b <;> exact Option.some_ne_none _
  · exact fun path id hl id' c hc => (hstored id' c hc).1.trans (switching_listed hl).2.symm
  · intro path id target contents hl ht _ c hc hsame
    refine absurd ?_ (hstored id c hc).2
    cases htargets
    rw [(switching_listed hl).1, StringMap.getElem?_insert, if_pos rfl, Option.some.injEq] at ht
    rw [hsame, ← ht, StringMap.getElem?_insert, if_pos rfl]
  · intro path id contents hl hc text htext
    rw [hlisted hl hc, hvalue] at htext
    cases htext

/-- The config is edited under its id: ASM is enabled, and then disabled. -/
theorem status_follows_edit :
    (run processPoll switchingStart [switchingPoll "1" enablingContents,
      switchingPoll "2" disablingContents]).map (fun s => s.2.status) = some .disabled ∧
    Throughout processPoll (StatusFollows switchingDeps) switchingStart
      [switchingPoll "1" enablingContents, switchingPoll "2" disablingContents] := by
  refine ⟨by decide +kernel, status_follows_response _ _ _ _ _ _ _
    ⟨switching_condition rfl ?_, fun s₁ h₁ => ⟨switching_condition rfl ?_, fun _ _ => trivial⟩⟩⟩
  · intro id c hc
    rw [Service.features, Service.start_configsOf] at hc
    cases hc
  · -- the first poll has left the config, with the first hash
    intro id c hc
    have hfirst : (processPoll switchingStart (switchingPoll "1" enablingContents)).map
        (fun s => (s.features.keys,
          s.features[Bytes.ofString "A"]?.map fun c => c.hashes[Bytes.ofString "sha256"]?)) =
        some ([Bytes.ofString "A"], some (some (Bytes.ofString "1"))) := by
      decide +kernel
    obtain ⟨hkeys, hhash⟩ := Prod.mk.inj (Option.some.inj ((congrArg _ h₁).symm.trans hfirst))
    have hid := StringMap.mem_keys_of_getElem? hc
    rw [hkeys, List.mem_singleton] at hid
    subst hid
    rw [hc, Option.map_some, Option.some.injEq] at hhash
    exact ⟨rfl, by rw [hhash]; decide⟩

/-- **Replacing the config by another id clears the status**: both responses
list one valid config that enables ASM, and after the second one ASM is not
set. -/
theorem replaced_feature_clears_status :
    Along processPoll (fun s poll => ∀ targets, poll.response.targets = some targets →
      OneValidFeature enablingDeps s poll targets) enablingStart
      [enablingPoll "employee/ASM_FEATURES/A/c", enablingPoll "employee/ASM_FEATURES/B/c"] ∧
    ¬ Throughout processPoll (StatusFollows enablingDeps) enablingStart
      [enablingPoll "employee/ASM_FEATURES/A/c",
        enablingPoll "employee/ASM_FEATURES/B/c"] := by
  refine ⟨⟨fun _ _ => enabling_oneValid _ _ _, fun s₁ _ =>
    ⟨fun _ _ => enabling_oneValid _ _ _, fun _ _ => trivial⟩⟩, ?_⟩
  intro hall
  have hrun : (run processPoll enablingStart
      [enablingPoll "employee/ASM_FEATURES/A/c",
        enablingPoll "employee/ASM_FEATURES/B/c"]).map (fun s => s.2.status) =
      some .notSet := by
    decide +kernel
  obtain ⟨s₂, hs₂, hstatus⟩ := Option.map_eq_some_iff.mp hrun
  obtain ⟨s₁, h₁, hrest⟩ := run_cons.mp hs₂
  obtain ⟨s₂', h₂, hnil⟩ := run_cons.mp hrest
  cases hnil
  have hfollows := ((hall s₁ h₁).2 s₂ h₂).1
  have hlists : ListsFeature (enablingPoll "employee/ASM_FEATURES/B/c").response
      (Bytes.ofString "employee/ASM_FEATURES/B/c") "B" :=
    ⟨List.mem_singleton.mpr rfl, by decide⟩
  obtain ⟨contents, hc, hd⟩ := hfollows.2 _ _ hlists
  rw [enabling_listed] at hc
  cases hc
  rw [enabling_declared, hstatus] at hd
  cases hd

end DdAppsec.Helper.RemoteConfig
