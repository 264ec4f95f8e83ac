import DdAppsec.Helper.RemoteConfig.Actions
import DdAppsec.Helper.RemoteConfig.AsmDd
import DdAppsec.Helper.RemoteConfig.Frames
import Mathlib.Data.List.Induction

/-!
# RemoteConfig — the names of the sections

`from_path` and the aggregators append members to a document without
looking for one of the same name, and who reads it finds the first. A
document is to have DISTINCT names. `Listener.round` is what one response
makes of the engine listener: `init`, calls in any order and with any
results, `commit`.

`distinct_names_iff` says when the documents that reach the WAF have
distinct names: a rules file must not bring the two sections that are added
to it, and the rules of ASM_DD none that ASM or ASM_DATA contribute.
-/

namespace DdAppsec.Helper.RemoteConfig

open Lib

/-! ## Names -/

/-- The member names of an object. -/
def names (ms : Members) : List Bytes := ms.map Prod.fst

def DistinctNames (ms : Members) : Prop := (names ms).Nodup

instance (ms : Members) : Decidable (DistinctNames ms) := inferInstanceAs (Decidable (List.Nodup _))

@[simp] theorem names_nil : names [] = [] := rfl

@[simp] theorem names_append (ms ms' : Members) : names (ms ++ ms') = names ms ++ names ms' :=
  List.map_append

@[simp] theorem names_asmRuleset (arrays : Bytes → List Json) :
    names (asmRuleset arrays) = expectedKeys := by
  unfold names asmRuleset
  rw [List.map_map]
  exact List.map_id _

/-- The two sections that `from_path` adds. -/
def addedNames : List Bytes := ["processors", "scanners"].map Bytes.ofString

/-- The members of a rules file that `from_path` accepts. -/
def fileMembers (deps : Deps) (files : FileSystem) (path : Bytes) : Option Members :=
  match readFile files path with
  | .error _ => none
  | .ok contents =>
    match EngineRuleset.ofText deps contents with
    | .error _ => none
    | .ok r => some r.members

theorem fromPath_eq_ok {deps : Deps} {files : FileSystem} {path : Bytes} {r : EngineRuleset} :
    EngineRuleset.fromPath deps files path = .ok r ↔
      ∃ file, fileMembers deps files path = some file ∧
        r = (EngineRuleset.mk file).addDefaultProcessorsAndScanners := by
  unfold EngineRuleset.fromPath fileMembers
  cases readFile files path with
  | error e => simp
  | ok contents =>
    dsimp only
    cases EngineRuleset.ofText deps contents with
    | error e => simp
    | ok r₀ =>
      constructor
      · intro h
        cases h
        exact ⟨_, rfl, rfl⟩
      · rintro ⟨file, hfile, rfl⟩
        cases hfile
        rfl

@[simp] theorem names_addDefaults (file : Members) :
    names (EngineRuleset.mk file).addDefaultProcessorsAndScanners.members =
      names file ++ addedNames := by
  show names (file ++ _) = _
  rw [names_append]
  rfl

/-- **`from_path` keeps names distinct exactly if** the file brings neither of
the sections that are added. -/
theorem distinct_addDefaults_iff {file : Members} (hfile : DistinctNames file) :
    DistinctNames (EngineRuleset.mk file).addDefaultProcessorsAndScanners.members ↔
      ∀ name ∈ addedNames, name ∉ names file := by
  unfold DistinctNames at hfile ⊢
  rw [names_addDefaults, List.nodup_append]
  constructor
  · rintro ⟨_, _, hdisjoint⟩ name hadded hin
    exact hdisjoint name hin name hadded rfl
  · intro hnot
    refine ⟨hfile, by decide, ?_⟩
    rintro name hin _ hadded rfl
    exact hnot name hadded hin

/-! ## A round of the listener -/

/-- A call for one config. -/
inductive ListenerCall where
  | update (config : Config)
  | unapply (config : Config)

def ListenerCall.config : ListenerCall → Config
  | .update c => c
  | .unapply c => c

section Listener

variable {σ : Type}

/-- The world after a call, whatever the call returns. -/
def Listener.call (l : Listener σ) (w : σ) : ListenerCall → σ
  | .update c => (l.onUpdate c w).2
  | .unapply c => (l.onUnapply c w).2

/-- `init`, the calls, `commit`. -/
def Listener.round (l : Listener σ) (calls : List ListenerCall) (w : σ) : σ :=
  (l.commit (calls.foldl l.call (l.init w).2)).2

end Listener

variable {Sub : Type}

/-- The documents handed to the engine between two worlds. -/
def handed (before after : World Sub) : List EngineRuleset :=
  (after.commits.drop before.commits.length).map Commit.document

/-! ## What the calls leave for the commit -/

/-- Where the rules of ASM_DD come from: there are none, the last config, or
the fallback file. -/
inductive DdRules where
  | none
  | config (doc : Members)
  | file (doc : Members)

def DdRules.members : DdRules → Members
  | .none => []
  | .config doc => doc
  | .file doc => (EngineRuleset.mk doc).addDefaultProcessorsAndScanners.members

/-- What a call makes of them. -/
def DdRules.after (deps : Deps) (files : FileSystem) (fallback : Bytes) (rules : DdRules)
    (call : ListenerCall) : DdRules :=
  if call.config.product = asmDdProduct then
    match call with
    | .update c =>
      match getJsonBase64EncodedContent deps c.contents with
      | some (.object doc) => .config doc
      | _ => rules
    | .unapply _ =>
      if fallback = [] then rules
      else
        match fileMembers deps files fallback with
        | some doc => .file doc
        | .none => rules
  else rules

/-- The rules of ASM_DD after the calls of a round. -/
def ddRules (deps : Deps) (files : FileSystem) (fallback : Bytes) (calls : List ListenerCall) :
    DdRules :=
  calls.foldl (DdRules.after deps files fallback) .none

theorem ddRules_append (deps : Deps) (files : FileSystem) (fallback : Bytes)
    (calls : List ListenerCall) (call : ListenerCall) :
    ddRules deps files fallback (calls ++ [call]) =
      (ddRules deps files fallback calls).after deps files fallback call := by
  simp [ddRules]

/-- Some call is for a config of the product. -/
def Touches (calls : List ListenerCall) (product : Bytes) : Prop :=
  ∃ call ∈ calls, call.config.product = product

/-- **The condition on a round.** The fallback file, where the rules of
ASM_DD come from it, brings neither of the added sections; and the rules
bring no section of an aggregator that is touched. -/
structure Apart (deps : Deps) (files : FileSystem) (fallback : Bytes)
    (calls : List ListenerCall) : Prop where
  file : ∀ doc, ddRules deps files fallback calls = .file doc →
    ∀ name ∈ addedNames, name ∉ names doc
  asm : Touches calls asmProduct →
    ∀ name ∈ expectedKeys, name ∉ names (ddRules deps files fallback calls).members
  asmData : Touches calls asmDataProduct →
    Bytes.ofString "rules_data" ∉ names (ddRules deps files fallback calls).members

/-- The decoded configs and the fallback file have distinct names. -/
structure SourcesDistinct (deps : Deps) (files : FileSystem) (fallback : Bytes)
    (calls : List ListenerCall) : Prop where
  configs : ∀ call ∈ calls, ∀ doc,
    getJsonBase64EncodedContent deps call.config.contents = some (.object doc) →
    DistinctNames doc
  file : ∀ doc, fileMembers deps files fallback = some doc → DistinctNames doc

/-! ## One call -/

section Calls

variable {deps : Deps} {updateSub : Sub → Parameter → Option Sub} {fallback : Bytes}
  {call : ListenerCall} {w : World Sub}

/-- What a round keeps up to its commit: `start` is the world that it
begins with. -/
structure RoundInv (deps : Deps) (fallback : Bytes) (start : World Sub)
    (calls : List ListenerCall) (w : World Sub) : Prop where
  files : w.files = start.files
  commits : w.commits = start.commits
  engine : w.engine = start.engine
  ruleset : w.listener.ruleset = []
  touched : ∀ id, id ∈ w.listener.toCommit ↔
    ∃ call ∈ calls, AggregatorId.ofProduct call.config.product = some id
  asm : ∃ arrays, asmRules w = asmRuleset arrays
  asmDd : asmDdRules w = (ddRules deps start.files fallback calls).members

theorem SameAsmDd.asmDdRules_eq {a b : World Sub} (h : SameAsmDd a b) :
    asmDdRules b = asmDdRules a := by
  by_cases htouched : AggregatorId.asmDd ∈ a.listener.toCommit
  · rw [asmDdRules_of_touched htouched, asmDdRules_of_touched (h.toCommit.mpr htouched), h.asmDd]
  · rw [asmDdRules_of_untouched htouched,
      asmDdRules_of_untouched fun hin => htouched (h.toCommit.mp hin)]

section Call

variable (deps updateSub fallback)

/-- **A call, inverted**: it is for no aggregator, or touches one and changes
the listener only. -/
theorem call_cases (call : ListenerCall) (w : World Sub) :
    (AggregatorId.ofProduct call.config.product = none ∧
      (engineListener deps updateSub fallback).call w call = w) ∨
    ∃ id l, AggregatorId.ofProduct call.config.product = some id ∧
      l.toCommit = (w.listener.touch id).toCommit ∧ l.ruleset = w.listener.ruleset ∧
      (engineListener deps updateSub fallback).call w call = { w with listener := l } := by
  cases call with
  | update c =>
    cases h : engineOnUpdate deps c w with
    | mk r w' =>
      have hcall : (engineListener deps updateSub fallback).call w (.update c) = w' :=
        congrArg Prod.snd h
      rw [hcall]
      rcases engineOnUpdate_cases h with ⟨hid, rfl⟩ | ⟨id, l, hid, hadd, rfl⟩
      · exact Or.inl ⟨hid, rfl⟩
      · obtain ⟨htoCommit, hruleset⟩ := EngineListener.add_static hadd
        exact Or.inr ⟨id, l, hid, htoCommit,
          hruleset.trans (EngineListener.touch_ruleset _ _), rfl⟩
  | unapply c =>
    cases h : engineOnUnapply deps fallback c w with
    | mk r w' =>
      have hcall : (engineListener deps updateSub fallback).call w (.unapply c) = w' :=
        congrArg Prod.snd h
      rw [hcall]
      rcases engineOnUnapply_cases h with ⟨hid, rfl⟩ | ⟨id, l, hid, hrem, rfl⟩
      · exact Or.inl ⟨hid, rfl⟩
      · obtain ⟨htoCommit, hruleset⟩ := EngineListener.remove_static hrem
        exact Or.inr ⟨id, l, hid, htoCommit,
          hruleset.trans (EngineListener.touch_ruleset _ _), rfl⟩

/-- The ASM aggregator keeps its shape under every call. -/
theorem call_asm (call : ListenerCall) {w : World Sub}
    (hrules : ∃ arrays, asmRules w = asmRuleset arrays) :
    ∃ arrays, asmRules ((engineListener deps updateSub fallback).call w call) =
      asmRuleset arrays := by
  obtain ⟨arrays, hrules⟩ := hrules
  by_cases hproduct : call.config.product = asmProduct
  · cases call with
    | update c =>
      obtain ⟨_, _, hcases⟩ :=
        onUpdate_asm hproduct hrules (show engineOnUpdate deps c w = (_, _) from rfl)
      obtain ⟨added, _, _, hadded⟩ | ⟨_, _, hkept⟩ := hcases
      · exact ⟨_, hadded⟩
      · exact ⟨arrays, hkept⟩
    | unapply c =>
      obtain ⟨_, _, _, hkept⟩ :=
        onUnapply_asm hproduct (show engineOnUnapply deps fallback c w = (_, _) from rfl)
      exact ⟨arrays, hkept.trans hrules⟩
  · have hrespects : (engineListener deps updateSub fallback).Respects call.config.product
        (SameAggregator .asm) := engineListener_respects_aggregator (ofProduct_ne_asm hproduct)
    cases call with
    | update c => exact ⟨arrays, (hrespects.onUpdate c w _ _ rfl rfl).asmRules_eq.trans hrules⟩
    | unapply c => exact ⟨arrays, (hrespects.onUnapply c w _ _ rfl rfl).asmRules_eq.trans hrules⟩

/-- The rules of ASM_DD after a call for another product. -/
theorem call_asmDd_other {call : ListenerCall} (hproduct : call.config.product ≠ asmDdProduct)
    (w : World Sub) :
    asmDdRules ((engineListener deps updateSub fallback).call w call) = asmDdRules w := by
  have hrespects : (engineListener deps updateSub fallback).Respects call.config.product
      SameAsmDd := engineListener_respects_asmDd hproduct
  cases call with
  | update c => exact (hrespects.onUpdate c w _ _ rfl rfl).asmDdRules_eq
  | unapply c => exact (hrespects.onUnapply c w _ _ rfl rfl).asmDdRules_eq

/-- And after one for ASM_DD: the config's object, the fallback file, or what
was there. -/
theorem call_asmDd (call : ListenerCall) {w : World Sub} {rules : DdRules}
    (hrules : asmDdRules w = rules.members) :
    asmDdRules ((engineListener deps updateSub fallback).call w call) =
      (rules.after deps w.files fallback call).members := by
  by_cases hproduct : call.config.product = asmDdProduct
  · unfold DdRules.after
    rw [if_pos hproduct]
    have hin : AggregatorId.asmDd ∈ (w.listener.touch .asmDd).toCommit :=
      (EngineListener.touch_toCommit _ _ _).mpr (Or.inl rfl)
    cases call with
    | update c =>
      change c.product = asmDdProduct at hproduct
      show asmDdRules (engineOnUpdate deps c w).2 = _
      simp only [engineOnUpdate, hproduct, ofProduct_asmDd, EngineListener.add, asmDdAdd]
      cases hdoc : getJsonBase64EncodedContent deps c.contents with
      | none => exact (asmDdRules_of_touched hin).trans hrules
      | some doc =>
        cases doc with
        | object doc => exact asmDdRules_of_touched hin
        | null | bool | number | string | array =>
          exact (asmDdRules_of_touched hin).trans hrules
    | unapply c =>
      change c.product = asmDdProduct at hproduct
      show asmDdRules (engineOnUnapply deps fallback c w).2 = _
      simp only [engineOnUnapply, hproduct, ofProduct_asmDd, EngineListener.remove, asmDdRemove]
      by_cases hfallback : fallback = []
      · rw [if_pos hfallback, if_pos hfallback]
        exact (asmDdRules_of_touched hin).trans hrules
      · rw [if_neg hfallback, if_neg hfallback]
        cases hfile : fileMembers deps w.files fallback with
        | none =>
          cases hpath : EngineRuleset.fromPath deps w.files fallback with
          | error e => exact (asmDdRules_of_touched hin).trans hrules
          | ok r =>
            obtain ⟨file, hsome, _⟩ := fromPath_eq_ok.mp hpath
            rw [hfile] at hsome
            cases hsome
        | some file =>
          rw [fromPath_eq_ok.mpr ⟨file, hfile, rfl⟩]
          exact asmDdRules_of_touched hin
  · unfold DdRules.after
    rw [call_asmDd_other deps updateSub fallback hproduct, if_neg hproduct, hrules]

end Call

/-- **Step lemma**: a round goes on. -/
theorem RoundInv.next {start : World Sub} {calls : List ListenerCall}
    (h : RoundInv deps fallback start calls w) (call : ListenerCall) :
    RoundInv deps fallback start (calls ++ [call])
      ((engineListener deps updateSub fallback).call w call) := by
  have hasm := call_asm deps updateSub fallback call h.asm
  have hasmDd := call_asmDd deps updateSub fallback call h.asmDd
  rw [h.files, ← ddRules_append] at hasmDd
  have htouched (id : AggregatorId) :
      (∃ c ∈ calls ++ [call], AggregatorId.ofProduct c.config.product = some id) ↔
        AggregatorId.ofProduct call.config.product = some id ∨
          id ∈ w.listener.toCommit := by
    rw [h.touched]
    simp only [List.mem_append, List.mem_singleton, or_and_right, exists_or, exists_eq_left]
    exact or_comm
  rcases call_cases deps updateSub fallback call w with
    ⟨hid, heq⟩ | ⟨id, l, hid, htoCommit, hruleset, heq⟩
  · rw [heq] at hasm hasmDd ⊢
    refine ⟨h.files, h.commits, h.engine, h.ruleset, fun id => ?_, hasm, hasmDd⟩
    rw [htouched, hid]
    simp
  · rw [heq] at hasm hasmDd ⊢
    refine ⟨h.files, h.commits, h.engine, hruleset.trans h.ruleset, fun id' => ?_, hasm, hasmDd⟩
    show id' ∈ l.toCommit ↔ _
    rw [htouched, htoCommit, EngineListener.touch_toCommit, hid, Option.some.injEq, eq_comm]

/-- **Round lemma**, up to the commit. -/
theorem round_inv (deps : Deps) (updateSub : Sub → Parameter → Option Sub) (fallback : Bytes)
    (w : World Sub) (calls : List ListenerCall) :
    RoundInv deps fallback w calls
      (calls.foldl (engineListener deps updateSub fallback).call (engineInit w)) := by
  induction calls using List.reverseRecOn with
  | nil =>
    refine ⟨rfl, rfl, rfl, rfl, by simp [engineInit], ⟨fun _ => [], ?_⟩, ?_⟩
    · rw [asmRules_eq]
      rfl
    · exact asmDdRules_of_untouched (by simp [engineInit])
  | append_singleton calls call ih =>
    rw [List.foldl_append, List.foldl_cons, List.foldl_nil]
    exact ih.next call

end Calls

/-! ## The document of a round -/

/-- The loop of `commit`: a document merged with the sections one after the
other is the document with their members behind it. -/
theorem mergeObjects_sections (sections : List (AggregatorId × Members)) (doc : Members) :
    sections.foldlM (fun doc s => mergeObjects doc (.object s.2)) (.object doc) =
      .ok (.object (doc ++ sections.flatMap Prod.snd)) := by
  induction sections generalizing doc with
  | nil => simp [pure, Except.pure]
  | cons s sections ih =>
    rw [List.foldlM_cons, List.flatMap_cons, ← List.append_assoc]
    exact ih (doc ++ s.2)

/-- What each aggregator brings, in some order of the aggregators. -/
theorem names_sections_perm (ord : IterOrder) (l : EngineListener) :
    (names ((l.sections ord).flatMap Prod.snd)).Perm
      ((if AggregatorId.asm ∈ l.toCommit then names l.asm else []) ++
        ((if AggregatorId.asmData ∈ l.toCommit then [Bytes.ofString "rules_data"] else []) ++
          (if AggregatorId.asmDd ∈ l.toCommit then names l.asmDd else []))) := by
  have horder : (l.sections ord).Perm
      (([asmProduct, asmDataProduct, asmDdProduct].filterMap AggregatorId.ofProduct).filterMap
        fun id => if id ∈ l.toCommit then some (id, l.section ord id) else none) :=
    ((ord.perm _).filterMap _).filterMap _
  have hids : [asmProduct, asmDataProduct, asmDdProduct].filterMap AggregatorId.ofProduct =
      [.asm, .asmData, .asmDd] := by decide
  rw [hids] at horder
  refine ((horder.flatMap_right _).map Prod.fst).trans (List.Perm.of_eq ?_)
  by_cases hasm : AggregatorId.asm ∈ l.toCommit <;>
    by_cases hdata : AggregatorId.asmData ∈ l.toCommit <;>
      by_cases hdd : AggregatorId.asmDd ∈ l.toCommit <;>
        simp [hasm, hdata, hdd, names, EngineListener.section, asmDataSection]

/-- Names in front of others, if there are any. -/
theorem nodup_ite_append_iff {p : Prop} [Decidable p] {front : List Bytes} (hfront : front.Nodup)
    (rest : List Bytes) :
    ((if p then front else []) ++ rest).Nodup ↔
      rest.Nodup ∧ (p → ∀ name ∈ front, name ∉ rest) := by
  by_cases hp : p
  · rw [if_pos hp, List.nodup_append]
    constructor
    · rintro ⟨_, hrest, hdisjoint⟩
      exact ⟨hrest, fun _ name hname hin => hdisjoint name hname name hin rfl⟩
    · rintro ⟨hrest, hdisjoint⟩
      refine ⟨hfront, hrest, ?_⟩
      rintro a ha b hb rfl
      exact hdisjoint hp a ha hb
  · simp [hp]

/-- Four sections of ASM, one of ASM_DATA, and the rules of ASM_DD. -/
theorem nodup_sections_iff {asm data : Prop} [Decidable asm] [Decidable data]
    (rules : List Bytes) :
    ((if asm then expectedKeys else []) ++
        ((if data then [Bytes.ofString "rules_data"] else []) ++ rules)).Nodup ↔
      rules.Nodup ∧ (asm → ∀ name ∈ expectedKeys, name ∉ rules) ∧
        (data → Bytes.ofString "rules_data" ∉ rules) := by
  have hdata : Bytes.ofString "rules_data" ∉ expectedKeys := by decide
  have hkeys : ∀ name ∈ expectedKeys,
      name ∉ (if data then [Bytes.ofString "rules_data"] else []) ++ rules ↔ name ∉ rules := by
    intro name hname
    have hne : name ∉ if data then [Bytes.ofString "rules_data"] else [] := by
      split
      · rw [List.mem_singleton]
        rintro rfl
        exact hdata hname
      · exact List.not_mem_nil
    simp [hne]
  rw [nodup_ite_append_iff (by decide), nodup_ite_append_iff (List.nodup_singleton _),
    forall₂_congr hkeys]
  simp only [List.mem_singleton, forall_eq]
  exact and_right_comm.trans and_assoc

/-- A product is touched if its aggregator is to be committed. -/
theorem touches_iff {calls : List ListenerCall} {product : Bytes} {id : AggregatorId}
    (hid : ∀ name, AggregatorId.ofProduct name = some id ↔ name = product) :
    Touches calls product ↔
      ∃ call ∈ calls, AggregatorId.ofProduct call.config.product = some id := by
  simp only [Touches, hid]

theorem ofProduct_asm_iff (name : Bytes) :
    AggregatorId.ofProduct name = some .asm ↔ name = asmProduct := by
  constructor
  · intro h
    by_contra hne
    exact ofProduct_ne_asm hne h
  · rintro rfl
    exact ofProduct_asm

theorem ofProduct_asmData_iff (name : Bytes) :
    AggregatorId.ofProduct name = some .asmData ↔ name = asmDataProduct := by
  constructor
  · intro h
    rcases ofProduct_eq_some h with ⟨hid, _⟩ | ⟨hid, _⟩ | ⟨_, hname⟩
    · cases hid
    · cases hid
    · exact hname
  · rintro rfl
    exact ofProduct_asmData

section Round

variable {deps : Deps} {updateSub : Sub → Parameter → Option Sub} {files : FileSystem}
  {fallback : Bytes} {calls : List ListenerCall} {start w : World Sub}

/-- Where the rules of ASM_DD can come from. -/
theorem ddRules_source (deps : Deps) (files : FileSystem) (fallback : Bytes)
    (calls : List ListenerCall) :
    (∀ doc, ddRules deps files fallback calls = .config doc → ∃ call ∈ calls,
      getJsonBase64EncodedContent deps call.config.contents = some (.object doc)) ∧
    ∀ doc, ddRules deps files fallback calls = .file doc →
      fileMembers deps files fallback = some doc := by
  induction calls using List.reverseRecOn with
  | nil =>
    constructor
    · intro doc h
      cases h
    · intro doc h
      cases h
  | append_singleton calls call ih =>
    have hkept : (∀ doc, ddRules deps files fallback calls = .config doc →
          ∃ call' ∈ calls ++ [call],
            getJsonBase64EncodedContent deps call'.config.contents = some (.object doc)) ∧
        ∀ doc, ddRules deps files fallback calls = .file doc →
          fileMembers deps files fallback = some doc := by
      refine ⟨fun doc hdoc => ?_, ih.2⟩
      obtain ⟨call', hmem, hobject⟩ := ih.1 doc hdoc
      exact ⟨call', List.mem_append_left _ hmem, hobject⟩
    rw [ddRules_append]
    unfold DdRules.after
    split
    · cases call with
      | update c =>
        dsimp only
        split
        · rename_i doc hobject
          constructor
          · intro doc' h
            cases h
            exact ⟨.update c, List.mem_append_right _ (List.mem_singleton_self _), hobject⟩
          · intro doc' h
            cases h
        · exact hkept
      | unapply c =>
        dsimp only
        split
        · exact hkept
        · split
          · rename_i doc hfile
            constructor
            · intro doc' h
              cases h
            · intro doc' h
              cases h
              exact hfile
          · exact hkept
    · exact hkept

/-- The rules have distinct names, unless the fallback file brings an added
section. -/
theorem distinct_ddRules_iff (h : SourcesDistinct deps files fallback calls) :
    DistinctNames (ddRules deps files fallback calls).members ↔
      ∀ doc, ddRules deps files fallback calls = .file doc →
        ∀ name ∈ addedNames, name ∉ names doc := by
  obtain ⟨hconfig, hfile⟩ := ddRules_source deps files fallback calls
  cases hrules : ddRules deps files fallback calls with
  | none => exact iff_of_true List.nodup_nil fun doc hdoc => by cases hdoc
  | config doc =>
    obtain ⟨call, hmem, hobject⟩ := hconfig doc hrules
    exact iff_of_true (h.configs call hmem doc hobject) fun doc hdoc => by cases hdoc
  | file doc =>
    rw [DdRules.members, distinct_addDefaults_iff (h.file doc (hfile doc hrules))]
    constructor
    · intro hnot doc' hdoc
      cases hdoc
      exact hnot
    · exact fun hnot => hnot doc rfl

/-- **The commit of a round**: the names of its document, and the
condition. -/
theorem sections_distinct_iff (hinv : RoundInv deps fallback start calls w)
    (h : SourcesDistinct deps start.files fallback calls) :
    DistinctNames ((w.listener.sections w.order).flatMap Prod.snd) ↔
      Apart deps start.files fallback calls := by
  obtain ⟨arrays, harrays⟩ := hinv.asm
  have hasm : (if AggregatorId.asm ∈ w.listener.toCommit then names w.listener.asm else []) =
      if AggregatorId.asm ∈ w.listener.toCommit then expectedKeys else [] := by
    split
    · rename_i hin
      rw [asmRules_eq, if_pos hin] at harrays
      rw [harrays, names_asmRuleset]
    · rfl
  have hdd : (if AggregatorId.asmDd ∈ w.listener.toCommit then names w.listener.asmDd else []) =
      names (ddRules deps start.files fallback calls).members := by
    rw [← hinv.asmDd]
    split
    · rename_i hin
      rw [asmDdRules_of_touched hin]
    · rename_i hout
      rw [asmDdRules_of_untouched hout, names_nil]
  unfold DistinctNames
  rw [(names_sections_perm w.order w.listener).nodup_iff, hasm, hdd, nodup_sections_iff,
    hinv.touched, hinv.touched, ← touches_iff ofProduct_asm_iff,
    ← touches_iff ofProduct_asmData_iff]
  constructor
  · rintro ⟨hnodup, hasmApart, hdataApart⟩
    exact ⟨(distinct_ddRules_iff h).mp hnodup, hasmApart, hdataApart⟩
  · rintro ⟨hfile, hasmApart, hdataApart⟩
    exact ⟨(distinct_ddRules_iff h).mpr hfile, hasmApart, hdataApart⟩

/-- **A round**: the engine is updated with what is handed to it, and that
has distinct names exactly under the condition. -/
theorem round_distinct_iff (updateSub : Sub → Parameter → Option Sub)
    (h : SourcesDistinct deps start.files fallback calls) :
    let after := (engineListener deps updateSub fallback).round calls start
    after.engine = (handed start after).foldl (fun e r => e.update updateSub r) start.engine ∧
    ((∀ r ∈ handed start after, DistinctNames r.members) ↔
      Apart deps start.files fallback calls) := by
  have hinv := round_inv deps updateSub fallback start calls
  have hsections := sections_distinct_iff hinv h
  intro after
  have hafter : after = engineCommit updateSub
      (calls.foldl (engineListener deps updateSub fallback).call (engineInit start)) := rfl
  rw [hafter]
  generalize calls.foldl (engineListener deps updateSub fallback).call (engineInit start) = w
    at hinv hsections
  unfold engineCommit handed
  by_cases hnone : w.listener.toCommit = []
  · -- nothing is touched and nothing handed over
    rw [if_pos hnone, hinv.commits, List.drop_length]
    have hempty : w.listener.sections w.order = [] := by
      simp [EngineListener.sections, hnone]
    rw [hempty] at hsections
    exact ⟨hinv.engine, iff_of_true (by simp) (hsections.mp List.nodup_nil)⟩
  · rw [if_neg hnone]
    dsimp only
    rw [hinv.commits, List.drop_left, hinv.ruleset, List.nil_append, hinv.engine]
    refine ⟨rfl, ?_⟩
    rw [← hsections]
    simp [Commit.document]

end Round

/-- **Distinct names**: of a rules file that is read, exactly if it brings
neither of the added sections; of the document of a round, exactly if its
sources stay apart. -/
theorem distinct_names_iff (deps : Deps) (updateSub : Sub → Parameter → Option Sub) :
    (∀ files path file r, fileMembers deps files path = some file → DistinctNames file →
      EngineRuleset.fromPath deps files path = .ok r →
      (DistinctNames r.members ↔ ∀ name ∈ addedNames, name ∉ names file)) ∧
    ∀ (fallback : Bytes) (calls : List ListenerCall) (start : World Sub),
      SourcesDistinct deps start.files fallback calls →
      let after := (engineListener deps updateSub fallback).round calls start
      after.engine = (handed start after).foldl (fun e r => e.update updateSub r) start.engine ∧
      ((∀ r ∈ handed start after, DistinctNames r.members) ↔
        Apart deps start.files fallback calls) := by
  refine ⟨?_, fun fallback calls start h => round_distinct_iff updateSub h⟩
  intro files path file r hfile hdistinct hpath
  obtain ⟨file', hfile', rfl⟩ := fromPath_eq_ok.mp hpath
  rw [hfile] at hfile'
  cases hfile'
  exact distinct_addDefaults_iff hdistinct

/-! ## An ASM config beside a fallback file -/

/-- A config with no section of ASM in it. -/
def noDataConfig (product : Bytes) : Config :=
  ⟨product, "c", noDataContents, "employee/ASM/a/c", ∅, 1, 0, .unacknowledged, []⟩

/-- An ASM config comes and the ASM_DD config goes. -/
def fallbackCalls : List ListenerCall :=
  [.update (noDataConfig asmProduct), .unapply (noDataConfig asmDdProduct)]

def sectionsStart : World Unit := { World.start ⟨[()], defaultActions⟩ with files := actionsFiles }

theorem noDataContents_object {doc : Members}
    (h : getJsonBase64EncodedContent actionsDeps noDataContents = some (.object doc)) :
    DistinctNames doc := by
  have hobject : getJsonBase64EncodedContent actionsDeps noDataContents =
      some (.object [("rules_data", .array [])]) := by rfl
  rw [hobject] at h
  cases h
  decide

theorem fallbackCalls_distinct {fallback : Bytes} {file : Members}
    (hfile : fileMembers actionsDeps actionsFiles fallback = some file)
    (hdistinct : DistinctNames file) :
    SourcesDistinct actionsDeps actionsFiles fallback fallbackCalls where
  configs := by
    intro call hcall doc hdoc
    have hcontents : call.config.contents = noDataContents := by
      simp only [fallbackCalls, List.mem_cons, List.not_mem_nil, or_false] at hcall
      obtain rfl | rfl := hcall <;> rfl
    rw [hcontents] at hdoc
    exact noDataContents_object hdoc
  file := by
    intro doc hdoc
    rw [hfile] at hdoc
    cases hdoc
    exact hdistinct

theorem plain_fallback_distinct :
    DistinctNames plainRules.members ∧
    ∀ r ∈ handed sectionsStart ((engineListener actionsDeps (fun sub _ => some sub)
      "plain.json").round fallbackCalls sectionsStart), DistinctNames r.members := by
  have hfile : fileMembers actionsDeps actionsFiles "plain.json" = some plainMembers := by
    simp only [fileMembers, readFile_plain, ofText_plain]
  have hdistinct : DistinctNames plainMembers := by decide
  obtain ⟨hfiles, hrounds⟩ := distinct_names_iff actionsDeps fun (sub : Unit) _ => some sub
  refine ⟨(hfiles actionsFiles "plain.json" _ plainRules hfile hdistinct fromPath_plain).mpr
      (by decide),
    (hrounds "plain.json" fallbackCalls sectionsStart
      (fallbackCalls_distinct hfile hdistinct)).2.mpr ?_⟩
  refine ⟨fun doc hdoc => ?_, fun _ => by decide +kernel, ?_⟩
  · have hsource := (ddRules_source actionsDeps actionsFiles "plain.json" fallbackCalls).2 doc hdoc
    rw [hfile] at hsource
    cases hsource
    decide
  · rintro ⟨call, hcall, hproduct⟩
    simp only [fallbackCalls, List.mem_cons, List.not_mem_nil, or_false] at hcall
    obtain rfl | rfl := hcall <;> exact absurd hproduct (by decide)

/-- **The actions of a fallback file are shadowed** by the empty section that
ASM brings with any config. -/
theorem fallback_actions_shadowed :
    SourcesDistinct actionsDeps actionsFiles "custom.json" fallbackCalls ∧
    (handed sectionsStart ((engineListener actionsDeps (fun sub _ => some sub)
      "custom.json").round fallbackCalls sectionsStart)).map (fun r => names r.members) =
        [expectedKeys ++ [Bytes.ofString "version", Bytes.ofString "rules",
          Bytes.ofString "actions", Bytes.ofString "processors", Bytes.ofString "scanners"]] ∧
    ¬ ∀ r ∈ handed sectionsStart ((engineListener actionsDeps (fun sub _ => some sub)
      "custom.json").round fallbackCalls sectionsStart), DistinctNames r.members := by
  have hfile : fileMembers actionsDeps actionsFiles "custom.json" = some customMembers := by
    simp only [fileMembers, readFile_custom, ofText_custom]
  exact ⟨fallbackCalls_distinct hfile (by decide), by decide +kernel, by decide +kernel⟩

end DdAppsec.Helper.RemoteConfig
