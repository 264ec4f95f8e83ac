import DdAppsec.Lib.Bytes

/-!
# Lib — `for (auto &[key, value] : map)` with a body that may throw

The loop visits the entries of a map in the container's own order, lets
the body change the visited value IN PLACE, and threads a world `σ`. A
body that throws ends the loop: the values changed so far stay changed.

Six rules speak about a whole loop:

* `forEach_invariant` — a property of (entries done so far, world) that
  every completed visit keeps, holds of the final map and world;
* `entries_foldl_invariant` — the same rule for a loop that only reads;
* `forEach_values` — a fact about single values, also when the loop throws;
* `forEach_completes` — visits that complete make a loop that completes;
* `forEach_rel` — a reflexive and transitive relation on worlds that every
  visit respects, relates the first world to the last;
* `forEach_isolate` — seen from ONE key, the loop is: the other visits
  before, the visit of that key, the other visits after.
-/

namespace DdAppsec.Lib

variable {α σ ε : Type}

/-- The loop over a given list of entries of `m`. -/
def forEntries (body : Bytes → α → σ → Except ε Unit × α × σ) :
    List (Bytes × α) → StringMap α → σ → Except ε Unit × StringMap α × σ
  | [], m, w => (.ok (), m, w)
  | (k, v) :: rest, m, w =>
    match body k v w with
    | (.ok (), v', w') => forEntries body rest (m.insert k v') w'
    | (.error e, v', w') => (.error e, m.insert k v', w')

/-- The loop over all entries of `m`, in the order of the container. -/
def forEach (ord : IterOrder) (body : Bytes → α → σ → Except ε Unit × α × σ)
    (m : StringMap α) (w : σ) : Except ε Unit × StringMap α × σ :=
  forEntries body (ord.entries m) m w

variable {body : Bytes → α → σ → Except ε Unit × α × σ}

/-- One completed visit, then the rest of the loop. -/
theorem forEntries_cons_ok {k : Bytes} {v v' : α} {rest : List (Bytes × α)}
    {m : StringMap α} {w w' : σ} (h : body k v w = (.ok (), v', w')) :
    forEntries body ((k, v) :: rest) m w =
      forEntries body rest (m.insert k v') w' := by
  simp only [forEntries, h]

/-- A visit that throws ends the loop. -/
theorem forEntries_cons_error {k : Bytes} {v v' : α} {rest : List (Bytes × α)}
    {m : StringMap α} {w w' : σ} {e : ε} (h : body k v w = (.error e, v', w')) :
    forEntries body ((k, v) :: rest) m w = (.error e, m.insert k v', w') := by
  simp only [forEntries, h]

/-! ## The invariant rule -/

/-- `m` is the map in the middle of a loop over `orig`: what is still to
visit is as in `orig`, everything else as in `done`. -/
structure Midway (orig done m : StringMap α) (rest : List (Bytes × α)) : Prop where
  nodup : (rest.map Prod.fst).Nodup
  ahead : ∀ kv ∈ rest, orig[kv.1]? = some kv.2
  fresh : ∀ kv ∈ rest, done[kv.1]? = none
  behind : ∀ k, k ∉ rest.map Prod.fst → m[k]? = done[k]?

theorem Midway.start (ord : IterOrder) (m : StringMap α) :
    Midway m ∅ m (ord.entries m) where
  nodup := ord.nodup_keys m
  ahead := fun kv h => (ord.mem_entries m).mp h
  fresh := fun kv _ => by simp
  behind := by
    intro k hk
    have hnone : m[k]? = none := by
      cases hm : m[k]? with
      | none => rfl
      | some v =>
        exact absurd (List.mem_map_of_mem ((ord.mem_entries m).mpr hm)) hk
    simp [hnone]

theorem Midway.step {orig done m : StringMap α} {k : Bytes} {v v' : α}
    {rest : List (Bytes × α)} (h : Midway orig done m ((k, v) :: rest)) :
    Midway orig (done.insert k v') (m.insert k v') rest where
  nodup := (List.nodup_cons.mp h.nodup).2
  ahead := fun kv hkv => h.ahead kv (List.mem_cons_of_mem _ hkv)
  fresh := by
    intro kv hkv
    have hne : k ≠ kv.1 := by
      intro heq
      have hmem : kv.1 ∈ rest.map Prod.fst := List.mem_map_of_mem hkv
      rw [← heq] at hmem
      exact (List.nodup_cons.mp h.nodup).1 hmem
    rw [StringMap.getElem?_insert, if_neg hne]
    exact h.fresh kv (List.mem_cons_of_mem _ hkv)
  behind := by
    intro k' hk'
    rw [StringMap.getElem?_insert, StringMap.getElem?_insert]
    by_cases hkk : k = k'
    · rw [if_pos hkk, if_pos hkk]
    · rw [if_neg hkk, if_neg hkk]
      exact h.behind k' (by simp [Ne.symm hkk, hk'])

theorem Midway.finish {orig done m : StringMap α} (h : Midway orig done m []) :
    m = done :=
  StringMap.ext fun k => h.behind k (by simp)

theorem forEntries_invariant (P : StringMap α → σ → Prop) {orig : StringMap α}
    (hstep : ∀ done k v w v' w', orig[k]? = some v → done[k]? = none → P done w →
      body k v w = (.ok (), v', w') → P (done.insert k v') w') :
    ∀ (rest : List (Bytes × α)) {done m m' : StringMap α} {w w' : σ},
      Midway orig done m rest → P done w →
      forEntries body rest m w = (.ok (), m', w') → P m' w' := by
  intro rest
  induction rest with
  | nil =>
    intro done m m' w w' hmid h0 h
    cases h
    exact hmid.finish ▸ h0
  | cons kv rest ih =>
    obtain ⟨k, v⟩ := kv
    intro done m m' w w' hmid h0 h
    cases hb : body k v w with
    | mk r vw =>
      obtain ⟨v', w₁⟩ := vw
      cases r with
      | error e =>
        rw [forEntries_cons_error hb] at h
        cases h
      | ok u =>
        rw [forEntries_cons_ok hb] at h
        have hk : orig[k]? = some v := hmid.ahead (k, v) (by simp)
        have hd : done[k]? = none := hmid.fresh (k, v) (by simp)
        exact ih hmid.step (hstep done k v w v' w₁ hk hd h0 hb) h

/-- **Invariant rule**: `P done w` is kept by every completed visit, where
`done` holds the entries visited so far with their NEW values. -/
theorem forEach_invariant {ord : IterOrder} (P : StringMap α → σ → Prop)
    {m m' : StringMap α} {w w' : σ} (h0 : P ∅ w)
    (hstep : ∀ done k v w v' w', m[k]? = some v → done[k]? = none → P done w →
      body k v w = (.ok (), v', w') → P (done.insert k v') w')
    (h : forEach ord body m w = (.ok (), m', w')) : P m' w' :=
  forEntries_invariant P hstep _ (Midway.start ord m) h0 h

/-- **Fold rule**: the same for a loop that only reads the entries and
accumulates. -/
theorem entries_foldl_invariant {β : Type} (ord : IterOrder) (P : StringMap α → β → Prop)
    {f : β → Bytes × α → β} {m : StringMap α} {b : β} (h0 : P ∅ b)
    (hstep : ∀ done k v b, m[k]? = some v → done[k]? = none → P done b →
      P (done.insert k v) (f b (k, v))) :
    P m ((ord.entries m).foldl f b) := by
  suffices ∀ (rest : List (Bytes × α)) (done cur : StringMap α) (b : β),
      Midway m done cur rest → cur = m → P done b → P m (rest.foldl f b) from
    this _ ∅ m b (Midway.start ord m) rfl h0
  intro rest
  induction rest with
  | nil =>
    intro done cur b hmid hcur hP
    rw [← hcur, hmid.finish]
    exact hP
  | cons kv rest ih =>
    obtain ⟨k, v⟩ := kv
    intro done cur b hmid hcur hP
    have hk : m[k]? = some v := hmid.ahead (k, v) (by simp)
    have hd : done[k]? = none := hmid.fresh (k, v) (by simp)
    refine ih (done.insert k v) (cur.insert k v) _ hmid.step ?_ (hstep done k v b hk hd hP)
    apply StringMap.ext
    intro k'
    rw [hcur, StringMap.getElem?_insert]
    by_cases hkk : k = k'
    · rw [if_pos hkk, ← hkk, hk]
    · rw [if_neg hkk]

/-- The loop never drops a key. -/
theorem forEntries_keeps_key {k : Bytes} {r : Except ε Unit} :
    ∀ (rest : List (Bytes × α)) {m m' : StringMap α} {w w' : σ},
      forEntries body rest m w = (r, m', w') → m[k]? ≠ none → m'[k]? ≠ none := by
  intro rest
  induction rest with
  | nil =>
    intro m m' w w' h hk
    cases h
    exact hk
  | cons kv rest ih =>
    obtain ⟨k₁, v⟩ := kv
    intro m m' w w' h hk
    have hins : ∀ u : α, (m.insert k₁ u)[k]? ≠ none := by
      intro u
      rw [StringMap.getElem?_insert]
      split
      · exact Option.some_ne_none u
      · exact hk
    cases hb : body k₁ v w with
    | mk r₁ vw =>
      obtain ⟨v', w₁⟩ := vw
      cases r₁ with
      | error e =>
        rw [forEntries_cons_error hb] at h
        cases h
        exact hins v'
      | ok u =>
        rw [forEntries_cons_ok hb] at h
        exact ih h (hins v')

/-- Every value of the final map comes from one visit. -/
theorem forEach_visited {ord : IterOrder} {m m' : StringMap α} {w w' : σ}
    (h : forEach ord body m w = (.ok (), m', w')) {k : Bytes} {v' : α}
    (hk : m'[k]? = some v') :
    ∃ v w₁ w₂, m[k]? = some v ∧ body k v w₁ = (.ok (), v', w₂) := by
  refine forEach_invariant (fun done _ => ∀ (k : Bytes) (v' : α), done[k]? = some v' →
    ∃ v w₁ w₂, m[k]? = some v ∧ body k v w₁ = (.ok (), v', w₂)) (by simp) ?_ h k v' hk
  intro done k₁ v wa u wb hm _ hP hb k₂ u' hu'
  by_cases hkk : k₁ = k₂
  · subst hkk
    simp only [StringMap.getElem?_insert, if_true, Option.some.injEq] at hu'
    subst hu'
    exact ⟨v, wa, wb, hm, hb⟩
  · simp only [StringMap.getElem?_insert, if_neg hkk] at hu'
    exact hP k₂ u' hu'

/-- A fact about every value that each visit keeps, completed or not, holds
of every value afterwards, however the loop ends. -/
theorem forEach_values {ord : IterOrder} {P : Bytes → α → Prop}
    (hbody : ∀ (k : Bytes) v w r v' w', P k v → body k v w = (r, v', w') → P k v')
    {m m' : StringMap α} {w w' : σ} {r : Except ε Unit}
    (hm : ∀ (k : Bytes) v, m[k]? = some v → P k v)
    (h : forEach ord body m w = (r, m', w')) :
    ∀ (k : Bytes) v, m'[k]? = some v → P k v := by
  have hrest : ∀ kv ∈ ord.entries m, P kv.1 kv.2 :=
    fun kv hkv => hm kv.1 kv.2 ((ord.mem_entries m).mp hkv)
  rw [forEach] at h
  generalize ord.entries m = rest at h hrest
  induction rest generalizing m w with
  | nil =>
    cases h
    exact hm
  | cons kv rest ih =>
    obtain ⟨k, v⟩ := kv
    have hinsert {v' : α} (hv' : P k v') : ∀ (a : Bytes) u, (m.insert k v')[a]? = some u →
        P a u := by
      intro a u hu
      rw [StringMap.getElem?_insert] at hu
      split at hu
      · rename_i hka
        cases hu
        exact hka ▸ hv'
      · exact hm a u hu
    cases hb : body k v w with
    | mk r₁ vw =>
      obtain ⟨v', w₁⟩ := vw
      have hv' : P k v' := hbody k v w r₁ v' w₁ (hrest (k, v) (by simp)) hb
      cases r₁ with
      | error e =>
        rw [forEntries_cons_error hb] at h
        cases h
        exact hinsert hv'
      | ok u =>
        rw [forEntries_cons_ok hb] at h
        exact ih (hinsert hv') h fun kv hkv => hrest kv (List.mem_cons_of_mem _ hkv)

/-- A loop completes if each of its visits does, from worlds that keep `P`. -/
theorem forEach_completes {ord : IterOrder} (P : σ → Prop) {m : StringMap α} {w : σ}
    (hbody : ∀ (k : Bytes) v w, m[k]? = some v → P w →
      ∃ v' w', body k v w = (.ok (), v', w') ∧ P w') (h0 : P w) :
    ∃ m' w', forEach ord body m w = (.ok (), m', w') ∧ P w' := by
  have hmem : ∀ kv ∈ ord.entries m, m[kv.1]? = some kv.2 :=
    fun kv hkv => (ord.mem_entries m).mp hkv
  unfold forEach
  generalize ord.entries m = rest at hmem
  suffices ∀ cur : StringMap α, ∃ m' w', forEntries body rest cur w = (.ok (), m', w') ∧ P w' from
    this m
  induction rest generalizing w with
  | nil => exact fun cur => ⟨cur, w, rfl, h0⟩
  | cons kv rest ih =>
    obtain ⟨k, v⟩ := kv
    intro cur
    obtain ⟨v', w', hb, hP⟩ := hbody k v w (hmem (k, v) (by simp)) h0
    rw [forEntries_cons_ok hb]
    exact ih hP (fun kv hkv => hmem kv (List.mem_cons_of_mem _ hkv)) _

/-! ## Worlds along the loop -/

/-- **Frame rule**: the loop, completed or not, stays within a reflexive
and transitive relation that every visit respects. -/
theorem forEach_rel {ord : IterOrder} (Rel : σ → σ → Prop)
    (hrefl : ∀ w, Rel w w) (htrans : ∀ a b c, Rel a b → Rel b c → Rel a c)
    {m m' : StringMap α} {w w' : σ} {r : Except ε Unit}
    (hbody : ∀ (k : Bytes) v w r v' w', m[k]? = some v → body k v w = (r, v', w') → Rel w w')
    (h : forEach ord body m w = (r, m', w')) : Rel w w' := by
  -- the list of entries still to visit shrinks; the map plays no part
  have hmem : ∀ kv ∈ ord.entries m, m[kv.1]? = some kv.2 :=
    fun kv hkv => (ord.mem_entries m).mp hkv
  rw [forEach] at h
  generalize ord.entries m = rest at h hmem
  suffices ∀ (cur : StringMap α), forEntries body rest cur w = (r, m', w') → Rel w w' from
    this m h
  clear h
  induction rest generalizing w with
  | nil =>
    intro cur h
    cases h
    exact hrefl _
  | cons kv rest ih =>
    obtain ⟨k, v⟩ := kv
    intro cur h
    have hk : m[k]? = some v := hmem (k, v) (by simp)
    cases hb : body k v w with
    | mk r₁ vw =>
      obtain ⟨v', w₁⟩ := vw
      have h1 : Rel w w₁ := hbody k v w r₁ v' w₁ hk hb
      cases r₁ with
      | error e =>
        rw [forEntries_cons_error hb] at h
        cases h
        exact h1
      | ok u =>
        rw [forEntries_cons_ok hb] at h
        exact htrans w w₁ w' h1 (ih (fun kv hkv => hmem kv (by simp [hkv])) _ h)

/-- The visits of keys other than `k₀`, as one relation on worlds. -/
theorem forEach_isolate {ord : IterOrder} (Rel : σ → σ → Prop)
    (hrefl : ∀ w, Rel w w) (htrans : ∀ a b c, Rel a b → Rel b c → Rel a c)
    {m m' : StringMap α} {w w' : σ} {k₀ : Bytes} {v₀ : α}
    (hother : ∀ (k : Bytes) v w r v' w', k ≠ k₀ → m[k]? = some v →
      body k v w = (r, v', w') → Rel w w')
    (h : forEach ord body m w = (.ok (), m', w')) (hk₀ : m[k₀]? = some v₀) :
    ∃ w₁ v' w₂, Rel w w₁ ∧ body k₀ v₀ w₁ = (.ok (), v', w₂) ∧ Rel w₂ w' ∧
      m'[k₀]? = some v' := by
  -- before the visit of `k₀` the worlds are related; after it the visit is recorded
  let P : StringMap α → σ → Prop := fun done w' =>
    (done[k₀]? = none ∧ Rel w w') ∨
      ∃ w₁ v' w₂, Rel w w₁ ∧ body k₀ v₀ w₁ = (.ok (), v', w₂) ∧ Rel w₂ w' ∧
        done[k₀]? = some v'
  have h0 : P ∅ w := Or.inl ⟨by simp, hrefl w⟩
  have hend : P m' w' := by
    refine forEach_invariant P h0 ?_ h
    intro done k v wa v' wb hk hd hP hb
    by_cases hkk : k = k₀
    · subst hkk
      rcases hP with ⟨_, hrel⟩ | ⟨_, _, _, _, _, _, hsome⟩
      · rw [hk₀] at hk
        cases hk
        exact Or.inr ⟨wa, v', wb, hrel, hb, hrefl wb, by simp⟩
      · rw [hd] at hsome
        cases hsome
    · have hrel' : Rel wa wb := hother k v wa _ v' wb hkk hk hb
      have hget : (done.insert k v')[k₀]? = done[k₀]? := by
        rw [StringMap.getElem?_insert, if_neg hkk]
      rcases hP with ⟨hnone, hrel⟩ | ⟨w₁, u, w₂, h1, h2, h3, h4⟩
      · exact Or.inl ⟨hget.trans hnone, htrans _ _ _ hrel hrel'⟩
      · exact Or.inr ⟨w₁, u, w₂, h1, h2, htrans _ _ _ h3 hrel', hget.trans h4⟩
  rcases hend with ⟨hnone, _⟩ | hdone
  · exact absurd hnone (forEntries_keeps_key (ord.entries m) h (by simp [hk₀]))
  · exact hdone

end DdAppsec.Lib
