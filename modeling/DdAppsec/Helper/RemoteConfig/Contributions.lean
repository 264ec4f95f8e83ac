import DdAppsec.Helper.RemoteConfig.Aggregators

/-!
# RemoteConfig — what one config brings to its aggregator

`add` reads a config and changes the aggregator. What it reads does not
depend on the aggregator and what it changes does not depend on how the
config was written, so each `add` splits in two: a CONTRIBUTION, which is a
function of the contents alone, and the way contributions are put together.

* ASM: an array for each expected key, appended to what is there;
* ASM_DATA: a map of rules, merged into the one that is there.
-/

namespace DdAppsec.Helper.RemoteConfig

open Lib

/-! ## ASM -/

/-- The ruleset of the aggregator with the array `arrays key` for each key. -/
def asmRuleset (arrays : Bytes → List Json) : Members :=
  expectedKeys.map fun key => (key, .array (arrays key))

/-- The array a document has for a key. -/
def arrayOf (doc : Members) (key : Bytes) : List Json :=
  match doc.find key with
  | some (.array elems) => elems
  | _ => []

/-- The arrays a config brings; `none` where `add` refuses it. -/
def asmContribution (deps : Deps) (contents : Bytes) : Option (Bytes → List Json) :=
  match getJsonBase64EncodedContent deps contents with
  | some (.object doc) =>
    match availableKeys doc expectedKeys with
    | .ok _ => some (arrayOf doc)
    | .error _ => none
  | _ => none

theorem asmInit_eq : asmInit = asmRuleset fun _ => [] := rfl

theorem find_map_array {keys : List Bytes} {key : Bytes} (hkey : key ∈ keys)
    (arrays : Bytes → List Json) :
    Members.find (keys.map fun key => (key, Json.array (arrays key))) key =
      some (.array (arrays key)) := by
  induction keys with
  | nil => cases hkey
  | cons k keys ih =>
    rw [List.map_cons, Members.find_cons]
    by_cases hk : k = key
    · rw [if_pos hk, hk]
    · rw [if_neg hk]
      exact ih ((List.mem_cons.mp hkey).resolve_left (Ne.symm hk))

theorem find_asmRuleset {key : Bytes} (hkey : key ∈ expectedKeys) (arrays : Bytes → List Json) :
    (asmRuleset arrays).find key = some (.array (arrays key)) :=
  find_map_array hkey arrays

theorem find_asmRuleset_none {key : Bytes} (hkey : key ∉ expectedKeys)
    (arrays : Bytes → List Json) : (asmRuleset arrays).find key = none := by
  have hall : ∀ keys : List Bytes, key ∉ keys →
      Members.find (keys.map fun key => (key, Json.array (arrays key))) key = none := by
    intro keys hnot
    induction keys with
    | nil => rfl
    | cons k keys ih =>
      rw [List.map_cons, Members.find_cons, if_neg fun hk => hnot (by simp [hk])]
      exact ih fun hin => hnot (List.mem_cons_of_mem _ hin)
  exact hall expectedKeys hkey

/-- Replacing one array. -/
theorem setMember_map {keys : List Bytes} (hnodup : keys.Nodup) {key : Bytes}
    (arrays : Bytes → List Json) (elems : List Json) :
    setMember key (.array elems) (keys.map fun key => (key, Json.array (arrays key))) =
      keys.map fun k => (k, Json.array (if k = key then elems else arrays k)) := by
  induction keys with
  | nil => rfl
  | cons k keys ih =>
    obtain ⟨hk, hnodup⟩ := List.nodup_cons.mp hnodup
    rw [List.map_cons, List.map_cons, setMember]
    by_cases hkey : k = key
    · subst hkey
      rw [if_pos rfl, if_pos rfl]
      congr 1
      apply List.map_congr_left
      intro a ha
      rw [if_neg]
      rintro rfl
      exact hk ha
    · rw [if_neg hkey, if_neg hkey, ih hnodup]

/-- What the validation loop returns: the keys that are there, and they are
arrays. -/
theorem availableKeys_ok {doc : Members} {keys available : List Bytes}
    (h : availableKeys doc keys = .ok available) (hnodup : keys.Nodup) :
    available.Nodup ∧ (∀ key ∈ available, key ∈ keys) ∧
      (∀ key ∈ available, ∃ elems, doc.find key = some (.array elems)) ∧
      ∀ key ∈ keys, key ∉ available → doc.find key = none := by
  induction keys generalizing available with
  | nil =>
    cases h
    simp
  | cons key keys ih =>
    obtain ⟨hkey, hnodup⟩ := List.nodup_cons.mp hnodup
    rw [availableKeys] at h
    split at h
    · rename_i hfind
      obtain ⟨h1, h2, h3, h4⟩ := ih h hnodup
      refine ⟨h1, fun k hk => List.mem_cons_of_mem _ (h2 k hk), h3, ?_⟩
      intro k hk hnot
      rcases List.mem_cons.mp hk with rfl | hk
      · exact hfind
      · exact h4 k hk hnot
    · rename_i elems hfind
      split at h
      · cases h
      · rename_i rest hrest
        cases h
        obtain ⟨h1, h2, h3, h4⟩ := ih hrest hnodup
        refine ⟨List.nodup_cons.mpr ⟨fun hin => hkey (h2 key hin), h1⟩, ?_, ?_, ?_⟩
        · intro k hk
          rcases List.mem_cons.mp hk with rfl | hk
          · simp
          · exact List.mem_cons_of_mem _ (h2 k hk)
        · intro k hk
          rcases List.mem_cons.mp hk with rfl | hk
          · exact ⟨elems, hfind⟩
          · exact h3 k hk
        · intro k hk hnot
          have hne : k ≠ key := fun heq => hnot (by simp [heq])
          exact h4 k ((List.mem_cons.mp hk).resolve_left hne)
            fun hin => hnot (List.mem_cons_of_mem _ hin)
    · cases h

theorem availableKeys_error {doc : Members} {keys : List Bytes} {e : Exception}
    (h : availableKeys doc keys = .error e) : ∃ what, e = .errorApplyingConfig what := by
  induction keys with
  | nil => cases h
  | cons key keys ih =>
    rw [availableKeys] at h
    split at h
    · exact ih h
    · split at h
      · rename_i hrest
        cases h
        exact ih hrest
      · cases h
    · cases h
      exact ⟨_, rfl⟩

/-- The merging loop appends the document's arrays. -/
theorem mergeKeys_asmRuleset {doc : Members} {keys : List Bytes} (hnodup : keys.Nodup)
    (hexpected : ∀ key ∈ keys, key ∈ expectedKeys)
    (harrays : ∀ key ∈ keys, ∃ elems, doc.find key = some (.array elems))
    (arrays : Bytes → List Json) :
    mergeKeys doc keys (asmRuleset arrays) =
      .ok (asmRuleset fun key =>
        if key ∈ keys then arrays key ++ arrayOf doc key else arrays key) := by
  induction keys generalizing arrays with
  | nil => simp [mergeKeys]
  | cons key keys ih =>
    obtain ⟨hkey, hnodup⟩ := List.nodup_cons.mp hnodup
    obtain ⟨elems, helems⟩ := harrays key (by simp)
    have hset : setMember key (.array (arrays key ++ elems)) (asmRuleset arrays) =
        asmRuleset fun k => if k = key then arrays key ++ elems else arrays k :=
      setMember_map (by decide) arrays _
    simp only [mergeKeys, find_asmRuleset (hexpected key (by simp)), helems, mergeArrays, hset]
    rw [ih hnodup (fun k hk => hexpected k (List.mem_cons_of_mem _ hk))
      (fun k hk => harrays k (List.mem_cons_of_mem _ hk))]
    congr 2
    funext k
    by_cases hk : k = key
    · subst hk
      simp [hkey, arrayOf, helems]
    · simp [hk]

/-- **`asm_aggregator::add` of a config it accepts.** -/
theorem asmAdd_of_some {deps : Deps} {config : Config} {added : Bytes → List Json}
    (h : asmContribution deps config.contents = some added) (arrays : Bytes → List Json) :
    asmAdd deps config (asmRuleset arrays) =
      .ok (asmRuleset fun key => arrays key ++ added key) := by
  unfold asmContribution at h
  split at h
  · rename_i doc hdoc
    split at h
    · rename_i keys hkeys
      cases h
      obtain ⟨hnodup, hin, harrays, hmissing⟩ := availableKeys_ok hkeys (by decide)
      simp only [asmAdd, hdoc, hkeys]
      rw [mergeKeys_asmRuleset hnodup hin harrays]
      refine congrArg Except.ok (List.map_congr_left fun key hkey => ?_)
      by_cases hk : key ∈ keys
      · simp [hk]
      · simp [hk, arrayOf, hmissing key hkey hk]
    · cases h
  · cases h

/-- And of one it does not, whatever the aggregator holds. -/
theorem asmAdd_of_none {deps : Deps} {config : Config}
    (h : asmContribution deps config.contents = none) (ruleset : Members) :
    ∃ what, asmAdd deps config ruleset = .error (.errorApplyingConfig what) := by
  unfold asmAdd
  split
  · exact ⟨_, rfl⟩
  · rename_i doc hdoc
    split
    · rename_i e hkeys
      obtain ⟨what, rfl⟩ := availableKeys_error hkeys
      exact ⟨what, rfl⟩
    · rename_i keys hkeys
      simp only [asmContribution, hdoc, hkeys] at h
      cases h
  · exact ⟨_, rfl⟩

/-! ## ASM_DATA -/

/-- The rules a config brings, or what `add` throws. -/
def asmDataContribution (deps : Deps) (contents : Bytes) : Except Exception RulesData :=
  match getJsonBase64EncodedContent deps contents with
  | none => .error (.errorApplyingConfig "Invalid config contents")
  | some doc =>
    match getFieldOfType doc "rules_data" .array with
    | .error e => .error e
    | .ok (some (.array entries)) => newRulesData entries ∅
    | .ok _ => .error (.errorApplyingConfig
        "Invalid config json contents: rules_data key missing or invalid")

/-- **`asm_data_aggregator::add`**: the contribution, merged. -/
theorem asmDataAdd_eq (deps : Deps) (ord : IterOrder) (config : Config) (rules : RulesData) :
    asmDataAdd deps ord config rules =
      match asmDataContribution deps config.contents with
      | .error e => .error e
      | .ok fresh => .ok (mergeRulesData ord fresh rules) := by
  unfold asmDataAdd asmDataContribution
  cases getJsonBase64EncodedContent deps config.contents with
  | none => rfl
  | some doc =>
    dsimp only
    cases getFieldOfType doc "rules_data" .array with
    | error e => rfl
    | ok field =>
      rcases field with _ | (_ | _ | _ | _ | _ | _) <;> rfl

end DdAppsec.Helper.RemoteConfig
