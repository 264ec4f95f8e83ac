import DdAppsec.Helper.RemoteConfig.Service

/-!
# RemoteConfig — the engine's action map over a run of polls

A commit carries only the sections of the products that changed, so a
document without an `actions` member should leave the action map alone: the
map in force is that of the LAST document that had one (`expectedActions`),
the rules file the engine was created from counting as the first document.

`engine::update` tries to say so with `if (new_actions.empty())`, but the
parsed map starts from the default actions and is never empty
(`parseActions_ne_empty`). A document without the member therefore resets
the map to the defaults, which is harmless exactly when it already was that.
-/

namespace DdAppsec.Helper.RemoteConfig

open Lib

variable {Sub : Type}

/-! ## The emptiness test -/

/-- Adding an action never removes one. -/
theorem addAction_keeps {actions : ActionMap} {id : Bytes} (h : actions[id]? ≠ none)
    (entry : Json) : (addAction actions entry)[id]? ≠ none := by
  unfold addAction
  split
  · split
    · split
      · rename_i action _
        rw [StringMap.getElem?_insert]
        split
        · exact Option.some_ne_none action
        · exact h
      · exact h
    · exact h
  · exact h

theorem foldl_addAction_keeps {id : Bytes} (entries : List Json) {actions : ActionMap}
    (h : actions[id]? ≠ none) : (entries.foldl addAction actions)[id]? ≠ none := by
  induction entries generalizing actions with
  | nil => exact h
  | cons entry entries ih => exact ih (addAction_keeps h entry)

/-- **The parsed map is never empty**: it always has the default action. -/
theorem parseActions_ne_empty (doc : EngineRuleset) :
    (parseActions doc defaultActions).isEmpty = false := by
  have hblock : defaultActions[Bytes.ofString "block"]? ≠ none := by
    simp [defaultActions]
  have hparsed : (parseActions doc defaultActions)[Bytes.ofString "block"]? ≠ none := by
    unfold parseActions
    split
    · rename_i entries _
      exact foldl_addAction_keeps entries hblock
    · exact hblock
  rw [Bool.eq_false_iff]
  intro hempty
  exact hparsed (StringMap.isEmpty_iff.mp hempty _)

/-- So the update always installs the parsed map. -/
theorem update_actions (updateSub : Sub → Parameter → Option Sub) (doc : EngineRuleset)
    (e : Engine Sub) : (e.update updateSub doc).actions = parseActions doc defaultActions := by
  simp only [Engine.update, parseActions_ne_empty doc, Bool.false_eq_true, if_false]

/-! ## What the action map should be -/

/-- The document has an `actions` member. -/
def hasActions (doc : EngineRuleset) : Bool := (doc.members.find "actions").isSome

/-- The default actions overridden by those of the last document that has
the member. -/
def expectedActions (docs : List EngineRuleset) : ActionMap :=
  match (docs.filter hasActions).getLast? with
  | some doc => parseActions doc defaultActions
  | none => defaultActions

theorem parseActions_of_not {doc : EngineRuleset} (h : hasActions doc = false) :
    parseActions doc defaultActions = defaultActions := by
  have hnone : doc.members.find "actions" = none := by
    rw [hasActions, Option.isSome_eq_false_iff, Option.isNone_iff_eq_none] at h
    exact h
  rw [parseActions, hnone]

theorem expectedActions_single (doc : EngineRuleset) :
    expectedActions [doc] = parseActions doc defaultActions := by
  cases h : hasActions doc with
  | true => simp [expectedActions, h]
  | false => simp [expectedActions, h, parseActions_of_not h]

theorem expectedActions_append (docs : List EngineRuleset) (doc : EngineRuleset) :
    expectedActions (docs ++ [doc]) =
      if hasActions doc then parseActions doc defaultActions else expectedActions docs := by
  cases h : hasActions doc with
  | true => simp [expectedActions, List.filter_append, h]
  | false => simp [expectedActions, List.filter_append, h]

/-! ## Runs of updates -/

/-- One update; it always succeeds. -/
def updateStep (updateSub : Sub → Parameter → Option Sub) (e : Engine Sub)
    (doc : EngineRuleset) : Option (Engine Sub) :=
  some (e.update updateSub doc)

/-- The condition on one update: the document has the member, or there is
nothing but the defaults to lose. -/
def KeepsActions (e : Engine Sub) (doc : EngineRuleset) : Prop :=
  hasActions doc = true ∨ e.actions = defaultActions

/-- A document without the member leaves the map alone exactly when it is
the default one. -/
theorem update_unchanged_iff (updateSub : Sub → Parameter → Option Sub) (e : Engine Sub)
    {doc : EngineRuleset} (h : hasActions doc = false) :
    (e.update updateSub doc).actions = e.actions ↔ e.actions = defaultActions := by
  rw [update_actions, parseActions_of_not h]
  exact eq_comm

/-- The invariant of a run of updates that all meet the condition. -/
theorem actions_of_updates {updateSub : Sub → Parameter → Option Sub} :
    ∀ (docs seen : List EngineRuleset) (e : Engine Sub), e.actions = expectedActions seen →
      Along (updateStep updateSub) KeepsActions e docs →
      (docs.foldl (fun e doc => e.update updateSub doc) e).actions =
        expectedActions (seen ++ docs) := by
  intro docs
  -- `seen` grows by the document of each step, and the map stays what it asks for
  induction docs with
  | nil =>
    intro seen e he _
    rw [List.append_nil]
    exact he
  | cons doc docs ih =>
    intro seen e he hal
    have hstep : (e.update updateSub doc).actions = expectedActions (seen ++ [doc]) := by
      rw [expectedActions_append]
      cases hd : hasActions doc with
      | true => rw [if_pos rfl, update_actions]
      | false =>
        rw [if_neg Bool.false_ne_true, ← he, update_unchanged_iff updateSub e hd]
        rcases hal.1 with hhas | hdef
        · rw [hd] at hhas
          cases hhas
        · exact hdef
    have hrest := ih (seen ++ [doc]) _ hstep (hal.2 _ rfl)
    rwa [List.append_assoc] at hrest

/-! ## Runs of polls -/

/-- After any run of polls the engine has been updated with the logged
documents, in order, and with nothing else. -/
theorem engine_of_polls {deps : Deps} {updateSub : Sub → Parameter → Option Sub}
    {fallback : Bytes} {dynamicEnablement : Bool} (engine : Engine Sub) {polls : List Poll}
    {s' : Service Sub}
    (h : run processPoll
      (Service.start deps updateSub fallback dynamicEnablement true engine) polls = some s') :
    s'.2.engine = (s'.2.commits.map Commit.document).foldl
      (fun e doc => e.update updateSub doc) engine := by
  have hend := run_preserves (fun s : Service Sub =>
    s.Inv deps updateSub fallback dynamicEnablement true ∧
      s.2.engine = (s.2.commits.map Commit.document).foldl
        (fun e doc => e.update updateSub doc) engine) ?_
    ⟨Service.Inv.start engine, rfl⟩ h
  · exact hend.2
  · rintro s poll s' ⟨hinv, heng⟩ hstep
    refine ⟨hinv.step hstep, ?_⟩
    rcases processPoll_commits hinv hstep with ⟨hc, he⟩ | ⟨commit, hc, he⟩
    · rw [hc, he]
      exact heng
    · rw [hc, he, heng]
      simp

/-- The engine a service starts with has the actions of its rules file. -/
theorem fromSettings_actions {deps : Deps} {load : EngineRuleset → Except Exception Sub}
    {files : FileSystem} {rulesPath : Bytes} {doc : EngineRuleset} {engine : Engine Sub}
    (hdoc : EngineRuleset.fromPath deps files rulesPath = .ok doc)
    (h : Engine.fromSettings deps load files rulesPath = .ok engine) :
    engine.actions = expectedActions [doc] := by
  rw [expectedActions_single]
  simp only [Engine.fromSettings, hdoc] at h
  split at h
  · cases h
  · cases h
    rfl

/-- **When the action map survives.** A ruleset without the `actions` member
leaves the map unchanged exactly when the map is the default one; and after
any run of successful polls the map is that of the last document that had
the member, as long as every document without it found the default map. -/
theorem actions_follow_documents (deps : Deps) (updateSub : Sub → Parameter → Option Sub)
    (load : EngineRuleset → Except Exception Sub) (files : FileSystem)
    (fallback rulesPath : Bytes) (dynamicEnablement : Bool) :
    (∀ (e : Engine Sub) (doc : EngineRuleset), hasActions doc = false →
      ((e.update updateSub doc).actions = e.actions ↔ e.actions = defaultActions)) ∧
    ∀ (doc : EngineRuleset) (engine : Engine Sub) (polls : List Poll) (s' : Service Sub),
      EngineRuleset.fromPath deps files rulesPath = .ok doc →
      Engine.fromSettings deps load files rulesPath = .ok engine →
      run processPoll
        (Service.start deps updateSub fallback dynamicEnablement true engine) polls = some s' →
      Along (updateStep updateSub) KeepsActions engine (s'.2.commits.map Commit.document) →
      s'.2.engine.actions = expectedActions (doc :: s'.2.commits.map Commit.document) := by
  refine ⟨fun e doc hdoc => update_unchanged_iff updateSub e hdoc, ?_⟩
  intro doc engine polls s' hdoc hengine hrun hkeep
  rw [engine_of_polls engine hrun]
  exact actions_of_updates _ [doc] engine (fromSettings_actions hdoc hengine) hkeep

/-! ## Two concrete runs -/

/-- The base64 of rule data without entries, and two rules files with one rule:
one with a custom action for it and one without actions. -/
def noDataContents : Bytes := "eyJydWxlc19kYXRhIjpbXX0="

def noDataText : Bytes := "\x7b\"rules_data\":[]\x7d"

def customText : Bytes :=
  ofPieces ["\x7b\"version\":\"2.2\",", "\"rules\":[\x7b\"id\":", "\"blk-1\",",
    "\"conditions\":[", "\x7b\"operator\":", "\"ip_match\",", "\"parameters\":",
    "\x7b\"inputs\":[", "\x7b\"address\":", "\"http.client_ip\"\x7d],", "\"data\":",
    "\"blocked_ips\"\x7d\x7d],", "\"on_match\":[", "\"custom\"]\x7d],",
    "\"actions\":[\x7b\"id\":", "\"custom\",\"type\":", "\"block_request\",",
    "\"parameters\":\x7b\x7d\x7d]\x7d"]

def plainText : Bytes :=
  ofPieces ["\x7b\"version\":\"2.2\",", "\"rules\":[\x7b\"id\":", "\"blk-1\",",
    "\"conditions\":[", "\x7b\"operator\":", "\"ip_match\",", "\"parameters\":",
    "\x7b\"inputs\":[", "\x7b\"address\":", "\"http.client_ip\"\x7d],", "\"data\":",
    "\"blocked_ips\"\x7d\x7d],", "\"on_match\":[", "\"block\"]\x7d]\x7d"]

/-- The rule of the files, with its action. -/
def blockedIpsRule (action : Bytes) : Json :=
  .object [("id", .string "blk-1"),
    ("conditions", .array [.object [("operator", .string "ip_match"),
      ("parameters", .object [("inputs", .array [.object [("address", .string "http.client_ip")]]),
        ("data", .string "blocked_ips")])]]),
    ("on_match", .array [.string action])]

def plainMembers : Members :=
  [("version", .string "2.2"), ("rules", .array [blockedIpsRule "block"])]

def customMembers : Members :=
  [("version", .string "2.2"), ("rules", .array [blockedIpsRule "custom"]),
    ("actions", .array [.object [("id", .string "custom"), ("type", .string "block_request"),
      ("parameters", .object [])]])]

def actionsDeps : Deps :=
  Deps.ofTables [(noDataContents, noDataText)]
    [(noDataText, .object [("rules_data", .array [])]), (customText, .object customMembers),
      (plainText, .object plainMembers)]

def actionsFiles : FileSystem := fun file =>
  if file = "custom.json" then some customText
  else if file = "plain.json" then some plainText
  else none

def customRules : EngineRuleset :=
  EngineRuleset.addDefaultProcessorsAndScanners ⟨customMembers⟩

def plainRules : EngineRuleset :=
  EngineRuleset.addDefaultProcessorsAndScanners ⟨plainMembers⟩

/-- A response with rule data only. -/
def dataPoll : Poll :=
  Poll.ofFile "employee/ASM_DATA/A/c" "h" noDataContents actionsFiles

/-- A service with a rules file: the engine is created from the ruleset in it,
and the listener falls back to it. -/
def actionsStart (rulesPath : Bytes) (rules : EngineRuleset) : Service Unit :=
  Service.start actionsDeps (fun sub _ => some sub) rulesPath false true
    ⟨[()], parseActions rules defaultActions⟩

theorem ofText_custom : EngineRuleset.ofText actionsDeps customText = .ok ⟨customMembers⟩ := by
  have hother : (customText == noDataText) = false := by decide +kernel
  refine EngineRuleset.ofText_object (by decide +kernel) ?_
  simp only [actionsDeps, Deps.ofTables, List.lookup_cons, hother, beq_self_eq_true]

theorem ofText_plain : EngineRuleset.ofText actionsDeps plainText = .ok ⟨plainMembers⟩ := by
  have hother : (plainText == noDataText) = false := by decide +kernel
  have hcustom : (plainText == customText) = false := by decide +kernel
  refine EngineRuleset.ofText_object (by decide +kernel) ?_
  simp only [actionsDeps, Deps.ofTables, List.lookup_cons, hother, hcustom, beq_self_eq_true]

theorem readFile_custom : readFile actionsFiles "custom.json" = .ok customText := rfl

theorem readFile_plain : readFile actionsFiles "plain.json" = .ok plainText := rfl

theorem fromPath_custom :
    EngineRuleset.fromPath actionsDeps actionsFiles "custom.json" = .ok customRules := by
  simp only [EngineRuleset.fromPath, readFile_custom, ofText_custom, customRules]

theorem fromPath_plain :
    EngineRuleset.fromPath actionsDeps actionsFiles "plain.json" = .ok plainRules := by
  simp only [EngineRuleset.fromPath, readFile_plain, ofText_plain, plainRules]

/-- With the default map in force, rule data leaves the actions alone. -/
theorem actions_follow_plain_rules :
    (∀ doc : EngineRuleset, hasActions doc = false →
      ((⟨[()], defaultActions⟩ : Engine Unit).update (fun sub _ => some sub) doc).actions =
        defaultActions) ∧
    ∃ s', run processPoll (actionsStart "plain.json" plainRules) [dataPoll] = some s' ∧
      s'.2.commits.length = 1 ∧
      s'.2.engine.actions =
        expectedActions (plainRules :: s'.2.commits.map Commit.document) := by
  obtain ⟨hupdate, hruns⟩ := actions_follow_documents actionsDeps
    (fun (sub : Unit) _ => some sub) (fun _ => .ok ()) actionsFiles "plain.json" "plain.json"
    false
  refine ⟨fun doc hdoc => (hupdate ⟨[()], defaultActions⟩ doc hdoc).mpr rfl, ?_⟩
  have hrun : (run processPoll (actionsStart "plain.json" plainRules) [dataPoll]).map
      (fun s => s.2.commits.length) = some 1 := by
    decide +kernel
  obtain ⟨s', hs', hlen⟩ := Option.map_eq_some_iff.mp hrun
  obtain ⟨commit, hcommit⟩ := List.length_eq_one_iff.mp hlen
  refine ⟨s', hs', hlen, hruns plainRules _ [dataPoll] s' fromPath_plain ?_ hs' ?_⟩
  · simp only [Engine.fromSettings, fromPath_plain]
  · rw [hcommit]
    refine ⟨Or.inr ?_, fun _ _ => trivial⟩
    show parseActions plainRules defaultActions = defaultActions
    exact parseActions_of_not (by decide)

/-- **Rule data drops custom actions**: the engine starts with the rule and the
action "custom" of its rules file, a poll commits ASM_DATA only, a document
without `actions`, and the map is neither what it was nor what the last
document with the member says. -/
theorem data_poll_drops_custom_action :
    EngineRuleset.fromPath actionsDeps actionsFiles "custom.json" = .ok customRules ∧
    ∃ s', run processPoll (actionsStart "custom.json" customRules) [dataPoll] = some s' ∧
      s'.2.commits.map (fun c => (c.sections.map Prod.fst, hasActions c.document)) =
        [([.asmData], false)] ∧
      s'.2.engine.actions ≠ (actionsStart "custom.json" customRules).2.engine.actions ∧
      s'.2.engine.actions ≠
        expectedActions (customRules :: s'.2.commits.map Commit.document) := by
  have hrun : (run processPoll (actionsStart "custom.json" customRules) [dataPoll]).map (fun s =>
      (s.2.commits.map fun c => (c.sections.map Prod.fst, hasActions c.document),
        decide (s.2.engine.actions = (actionsStart "custom.json" customRules).2.engine.actions),
        decide (s.2.engine.actions =
          expectedActions (customRules :: s.2.commits.map Commit.document)))) =
      some ([([.asmData], false)], false, false) := by
    decide +kernel
  obtain ⟨s', hs', hfacts⟩ := Option.map_eq_some_iff.mp hrun
  simp only [Prod.mk.injEq, decide_eq_false_iff_not] at hfacts
  exact ⟨fromPath_custom, s', hs', hfacts⟩

/-! ## Subscribers that reject a ruleset -/

/-- What becomes of one subscriber: it is replaced, or kept if its update
fails. -/
def UpdatedOrKept (updateSub : Sub → Parameter → Option Sub) (param : Parameter)
    (old new : Sub) : Prop :=
  updateSub old param = some new ∨ updateSub old param = none ∧ new = old

theorem map_updatedOrKept (updateSub : Sub → Parameter → Option Sub) (param : Parameter)
    (subs : List Sub) :
    List.Forall₂ (UpdatedOrKept updateSub param) subs
      (subs.map fun sub => (updateSub sub param).getD sub) := by
  induction subs with
  | nil => exact .nil
  | cons sub subs ih =>
    refine .cons ?_ ih
    show UpdatedOrKept updateSub param sub ((updateSub sub param).getD sub)
    cases hupdate : updateSub sub param with
    | none => exact Or.inr ⟨hupdate, rfl⟩
    | some new => exact Or.inl hupdate

/-- **What an update installs**, whichever subscribers reject the ruleset: one
subscriber for each old one, in the same order, updated or kept; and the actions
of the ruleset, if it has any. -/
theorem update_installs (updateSub : Sub → Parameter → Option Sub) (doc : EngineRuleset)
    (e : Engine Sub) :
    List.Forall₂ (UpdatedOrKept updateSub (jsonToParameter (.object doc.members)))
        e.subscribers (e.update updateSub doc).subscribers ∧
      (hasActions doc = true →
        (e.update updateSub doc).actions = parseActions doc defaultActions) := by
  refine ⟨?_, fun _ => update_actions updateSub doc e⟩
  rw [Engine.update]
  exact map_updatedOrKept updateSub _ e.subscribers

/-- A ruleset that the only subscriber rejects still brings its actions. -/
theorem rejected_ruleset_brings_actions :
    ((⟨[()], defaultActions⟩ : Engine Unit).update (fun _ _ => none)
        ⟨customMembers⟩).subscribers = [()] ∧
      ((⟨[()], defaultActions⟩ : Engine Unit).update (fun _ _ => none)
        ⟨customMembers⟩).actions ≠ defaultActions := by
  refine ⟨rfl, ?_⟩
  decide +kernel

end DdAppsec.Helper.RemoteConfig
