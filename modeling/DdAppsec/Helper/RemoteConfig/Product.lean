import DdAppsec.Helper.JsonHelper
import DdAppsec.Helper.RemoteConfig.Config
import DdAppsec.Lib.ForEach

/-!
# RemoteConfig — listeners and products

A `Listener σ` is `listener_base`: four calls that may throw and that act
on a world `σ` (the service configuration, the engine, the files). A
`Product` owns the configs of one product name and its listener.

`Product.assignConfigs` is the three-way diff of `product::assign_configs`:
each config of the response is new, changed or unchanged; what the response
does not mention is unapplied. The diff itself is `classify`, and
`classify_spec` says what it computes key by key, whatever the order of the
hash containers.
-/

namespace DdAppsec.Helper.RemoteConfig

open Lib

/-- `listener_base`. The supported products come with their capability bits. -/
structure Listener (σ : Type) where
  supportedProducts : List (Bytes × BitVec 16)
  init : σ → Except Exception Unit × σ
  onUpdate : Config → σ → Except Exception Unit × σ
  onUnapply : Config → σ → Except Exception Unit × σ
  commit : σ → Except Exception Unit × σ

structure Product (σ : Type) where
  name : Bytes
  listener : Listener σ
  configs : StringMap Config

variable {σ : Type}

/-! ## Applying a map of configs -/

/-- The body shared by `update_configs` and `unapply_configs`: call the
listener and record its verdict on the config. Only `error_applying_config`
is caught, and its text is read through `what()`. -/
def applyConfig (call : Config → σ → Except Exception Unit × σ) (c : Config) (w : σ) :
    Except Exception Unit × Config × σ :=
  match call c w with
  | (.ok (), w') => (.ok (), { c with applyState := .acknowledged, applyError := [] }, w')
  | (.error (.errorApplyingConfig what), w') =>
    (.ok (), { c with applyState := .error, applyError := cstr what }, w')
  | (.error e, w') => (.error e, c, w')

/-- `product::update_configs`. -/
def updateConfigs (ord : IterOrder) (listener : Listener σ) :
    StringMap Config → σ → Except Exception Unit × StringMap Config × σ :=
  forEach ord fun _ => applyConfig listener.onUpdate

/-- `product::unapply_configs`. -/
def unapplyConfigs (ord : IterOrder) (listener : Listener σ) :
    StringMap Config → σ → Except Exception Unit × StringMap Config × σ :=
  forEach ord fun _ => applyConfig listener.onUnapply

/-! ## The diff -/

/-- The locals of `assign_configs`; `stored` is `configs_`, from which every
config of the response is erased. -/
structure Diff where
  toUpdate : StringMap Config
  changes : Bool
  stored : StringMap Config

/-- One config of the response. -/
def Diff.add (d : Diff) (name : Bytes) (config : Config) : Diff :=
  match d.stored[name]? with
  | none =>
    { d with
      changes := true
      toUpdate := d.toUpdate.insertIfNew name { config with applyState := .unacknowledged } }
  | some previous =>
    if config.hashes = previous.hashes then
      -- the stored config stays, with its contents and its state
      { d with
        toUpdate := d.toUpdate.insertIfNew name previous
        stored := d.stored.erase name }
    else
      { changes := true
        toUpdate := d.toUpdate.insertIfNew name { config with applyState := .unacknowledged }
        stored := d.stored.erase name }

/-- The loop over the configs of the response. -/
def classify (ord : IterOrder) (stored configs : StringMap Config) : Diff :=
  (ord.entries configs).foldl (fun d kv => d.add kv.1 kv.2) ⟨∅, false, stored⟩

/-- `product::assign_configs`. A listener call that throws past the product
leaves in `configs_` what the diff had left there. -/
def Product.assignConfigs (ord : IterOrder) (configs : StringMap Config) (p : Product σ)
    (w : σ) : Except Exception Unit × Product σ × σ :=
  let d := classify ord p.configs configs
  if d.changes || !d.stored.isEmpty then
    -- everything listed is applied, changed or not, and only then the rest unapplied
    match updateConfigs ord p.listener d.toUpdate w with
    | (.error e, _, w₁) => (.error e, { p with configs := d.stored }, w₁)
    | (.ok (), updated, w₁) =>
      match unapplyConfigs ord p.listener d.stored w₁ with
      | (.error e, unapplied, w₂) => (.error e, { p with configs := unapplied }, w₂)
      | (.ok (), _, w₂) => (.ok (), { p with configs := updated }, w₂)
  else
    (.ok (), { p with configs := d.toUpdate }, w)

/-! ## What the diff computes -/

/-- What becomes of one config of the response, given what is stored. -/
def reconcile (stored : Option Config) (config : Config) : Config :=
  match stored with
  | some previous =>
    if config.hashes = previous.hashes then previous
    else { config with applyState := .unacknowledged }
  | none => { config with applyState := .unacknowledged }

/-- Whether one config of the response counts as a change. -/
def isChange (stored : Option Config) (config : Config) : Bool :=
  match stored with
  | some previous => decide (config.hashes ≠ previous.hashes)
  | none => true

/-- A diff that has seen the part `seen` of the response. -/
structure Diff.Spec (stored seen : StringMap Config) (d : Diff) : Prop where
  toUpdate : ∀ k : Bytes, d.toUpdate[k]? = seen[k]?.map (reconcile stored[k]?)
  changes : d.changes = true ↔
    ∃ (k : Bytes) (c : Config), seen[k]? = some c ∧ isChange stored[k]? c = true
  stored : ∀ k : Bytes, d.stored[k]? = if seen[k]? = none then stored[k]? else none

theorem Diff.Spec.start (stored : StringMap Config) :
    Diff.Spec stored ∅ ⟨∅, false, stored⟩ where
  toUpdate := by simp
  changes := by simp
  stored := by simp

/-- The loop body in closed form: the three branches differ only in what
`reconcile` and `isChange` say. -/
theorem Diff.add_eq {stored seen : StringMap Config} {d : Diff} (h : Diff.Spec stored seen d)
    {name : Bytes} (hnew : seen[name]? = none) (config : Config) :
    d.add name config =
      ⟨d.toUpdate.insert name (reconcile stored[name]? config),
        d.changes || isChange stored[name]? config, d.stored.erase name⟩ := by
  have hst : d.stored[name]? = stored[name]? := by rw [h.stored, if_pos hnew]
  have hto : d.toUpdate[name]? = none := by rw [h.toUpdate, hnew]; rfl
  cases hs : stored[name]? with
  | none =>
    -- this branch of the source erases nothing, and there is nothing to erase
    have herase : d.stored.erase name = d.stored := by
      apply StringMap.ext
      intro k
      rw [StringMap.getElem?_erase]
      split
      · rename_i heq
        rw [← heq, hst, hs]
      · rfl
    simp [Diff.add, hst, hs, reconcile, isChange, StringMap.insertIfNew_of_none hto, herase]
  | some previous =>
    by_cases hh : config.hashes = previous.hashes
    · simp [Diff.add, hst, hs, reconcile, isChange, hh, StringMap.insertIfNew_of_none hto]
    · simp [Diff.add, hst, hs, reconcile, isChange, hh, StringMap.insertIfNew_of_none hto]

theorem Diff.Spec.add {stored seen : StringMap Config} {d : Diff} (h : Diff.Spec stored seen d)
    {name : Bytes} (hnew : seen[name]? = none) (config : Config) :
    Diff.Spec stored (seen.insert name config) (d.add name config) := by
  rw [Diff.add_eq h hnew]
  constructor
  · intro k
    by_cases hk : name = k
    · subst hk
      simp
    · simp [hk, h.toUpdate]
  · rw [Bool.or_eq_true, h.changes]
    constructor
    · rintro (⟨k, c, hk, hc⟩ | hc)
      · have hne : name ≠ k := by
          rintro rfl
          rw [hnew] at hk
          cases hk
        exact ⟨k, c, by simp [hne, hk], hc⟩
      · exact ⟨name, config, by simp, hc⟩
    · rintro ⟨k, c, hk, hc⟩
      by_cases hne : name = k
      · subst hne
        simp only [StringMap.getElem?_insert, if_true, Option.some.injEq] at hk
        exact Or.inr (hk ▸ hc)
      · exact Or.inl ⟨k, c, by simpa [hne] using hk, hc⟩
  · intro k
    by_cases hk : name = k
    · simp [hk]
    · simp [hk, h.stored]

/-- **The diff, key by key.** The iteration order of the response plays no
part. -/
theorem classify_spec (ord : IterOrder) (stored configs : StringMap Config) :
    Diff.Spec stored configs (classify ord stored configs) :=
  entries_foldl_invariant ord (Diff.Spec stored) (Diff.Spec.start stored)
    fun _ _ v _ _ hd h => h.add hd v

/-! ## What `assign_configs` does -/

/-- The response brings nothing: every stored config is in it, unchanged. -/
def SameConfigs (stored configs : StringMap Config) : Prop :=
  (∀ (k : Bytes) (c : Config), configs[k]? = some c → isChange stored[k]? c = false) ∧
    ∀ k : Bytes, configs[k]? = none → stored[k]? = none

theorem classify_same {ord : IterOrder} {stored configs : StringMap Config} :
    ((classify ord stored configs).changes ||
      !(classify ord stored configs).stored.isEmpty) = false ↔
      SameConfigs stored configs := by
  have h := classify_spec ord stored configs
  rw [Bool.or_eq_false_iff, Bool.not_eq_false', StringMap.isEmpty_iff, SameConfigs,
    Bool.eq_false_iff, ne_eq, h.changes]
  refine and_congr ?_ ?_
  · constructor
    · intro hno k c hk
      rw [Bool.eq_false_iff]
      exact fun hc => hno ⟨k, c, hk, hc⟩
    · rintro hall ⟨k, c, hk, hc⟩
      rw [hall k c hk] at hc
      cases hc
  · refine forall_congr' fun k => ?_
    rw [h.stored]
    split
    · rename_i hn
      simp [hn]
    · rename_i hn
      simp [hn]

/-- With nothing new, the diff gives back the stored configs. -/
theorem classify_toUpdate_of_same {ord : IterOrder} {stored configs : StringMap Config}
    (hs : SameConfigs stored configs) : (classify ord stored configs).toUpdate = stored := by
  apply StringMap.ext
  intro k
  rw [(classify_spec ord stored configs).toUpdate]
  cases hk : configs[k]? with
  | none => rw [hs.2 k hk]; rfl
  | some c =>
    have hc := hs.1 k c hk
    cases hp : stored[k]? with
    | none => simp [hp, isChange] at hc
    | some previous =>
      rw [hp] at hc
      have hh : c.hashes = previous.hashes := by simpa [isChange] using hc
      simp [reconcile, hh]

/-- **What `assign_configs` does when it completes**: nothing at all, or
every config of the response is applied and then every other stored config
is unapplied. -/
theorem Product.assignConfigs_ok {ord : IterOrder} {configs : StringMap Config}
    {p p' : Product σ} {w w' : σ}
    (h : p.assignConfigs ord configs w = (.ok (), p', w')) :
    (SameConfigs p.configs configs ∧ p' = p ∧ w' = w) ∨
    (¬ SameConfigs p.configs configs ∧ ∃ updated w₁ unapplied,
      updateConfigs ord p.listener (classify ord p.configs configs).toUpdate w =
        (.ok (), updated, w₁) ∧
      unapplyConfigs ord p.listener (classify ord p.configs configs).stored w₁ =
        (.ok (), unapplied, w') ∧
      p' = { p with configs := updated }) := by
  by_cases hs : SameConfigs p.configs configs
  · rw [Product.assignConfigs, if_neg (by rw [classify_same.mpr hs]; exact Bool.false_ne_true),
      classify_toUpdate_of_same hs] at h
    cases h
    exact Or.inl ⟨hs, rfl, rfl⟩
  · refine Or.inr ⟨hs, ?_⟩
    have hc : ((classify ord p.configs configs).changes ||
        !(classify ord p.configs configs).stored.isEmpty) = true := by
      rw [← Bool.not_eq_false]
      exact fun hf => hs (classify_same.mp hf)
    rw [Product.assignConfigs, if_pos hc] at h
    split at h
    · cases h
    · rename_i updated w₁ hu
      split at h
      · cases h
      · rename_i unapplied w₂ hun
        cases h
        exact ⟨updated, w₁, unapplied, hu, hun, rfl⟩

/-- Only the configs of a product ever change. -/
theorem Product.assignConfigs_static {ord : IterOrder} {configs : StringMap Config}
    {p p' : Product σ} {w w' : σ} {r : Except Exception Unit}
    (h : p.assignConfigs ord configs w = (r, p', w')) :
    p'.name = p.name ∧ p'.listener = p.listener := by
  rw [Product.assignConfigs] at h
  split at h
  · split at h
    · cases h
      exact ⟨rfl, rfl⟩
    · split at h
      · cases h
        exact ⟨rfl, rfl⟩
      · cases h
        exact ⟨rfl, rfl⟩
  · cases h
    exact ⟨rfl, rfl⟩

/-! ## Facts about every stored config -/

/-- `f` does not look at the verdict recorded on a config. -/
def IgnoresState (f : Config → Prop) : Prop :=
  ∀ c state text, f c → f { c with applyState := state, applyError := text }

theorem reconcile_of {f : Config → Prop} (hf : IgnoresState f) {stored : Option Config}
    {config : Config} (hs : ∀ previous, stored = some previous → f previous) (hc : f config) :
    f (reconcile stored config) := by
  cases stored with
  | none => exact hf config .unacknowledged config.applyError hc
  | some previous =>
    by_cases hh : config.hashes = previous.hashes
    · rw [reconcile, if_pos hh]
      exact hs previous rfl
    · rw [reconcile, if_neg hh]
      exact hf config .unacknowledged config.applyError hc

/-- What the diff hands to `update_configs` comes from the response or from
the store. -/
theorem classify_toUpdate_of {f : Config → Prop} (hf : IgnoresState f) {ord : IterOrder}
    {stored configs : StringMap Config}
    (hs : ∀ (k : Bytes) (c : Config), stored[k]? = some c → f c)
    (hn : ∀ (k : Bytes) (c : Config), configs[k]? = some c → f c) {k : Bytes} {c : Config}
    (hk : (classify ord stored configs).toUpdate[k]? = some c) : f c := by
  rw [(classify_spec ord stored configs).toUpdate] at hk
  obtain ⟨config, hconf, rfl⟩ := Option.map_eq_some_iff.mp hk
  exact reconcile_of hf (fun previous hp => hs k previous hp) (hn k config hconf)

theorem classify_stored_of {f : Config → Prop} {ord : IterOrder}
    {stored configs : StringMap Config}
    (hs : ∀ (k : Bytes) (c : Config), stored[k]? = some c → f c) {k : Bytes} {c : Config}
    (hk : (classify ord stored configs).stored[k]? = some c) : f c := by
  rw [(classify_spec ord stored configs).stored] at hk
  split at hk
  · exact hs k c hk
  · cases hk

/-- What a completed visit leaves on the config: the same data with a new
verdict. -/
theorem applyConfig_ok {call : Config → σ → Except Exception Unit × σ} {c c' : Config}
    {w w' : σ} (h : applyConfig call c w = (.ok (), c', w')) :
    (call c w = (.ok (), w') ∧
      c' = { c with applyState := .acknowledged, applyError := [] }) ∨
    (∃ what, call c w = (.error (.errorApplyingConfig what), w') ∧
      c' = { c with applyState := .error, applyError := cstr what }) := by
  rw [applyConfig] at h
  split at h
  · rename_i hcall
    cases h
    exact Or.inl ⟨hcall, rfl⟩
  · rename_i hcall
    cases h
    exact Or.inr ⟨_, hcall, rfl⟩
  · cases h

/-- `update_configs` keeps the keys and, up to the verdicts, the configs. -/
theorem updateConfigs_ok {ord : IterOrder} {l : Listener σ} {m m' : StringMap Config}
    {w w' : σ} (h : updateConfigs ord l m w = (.ok (), m', w')) (k : Bytes) :
    (m[k]? = none → m'[k]? = none) ∧
    ∀ c, m[k]? = some c → ∃ state text,
      m'[k]? = some { c with applyState := state, applyError := text } := by
  have hinv : ∀ (k : Bytes) (c' : Config), m'[k]? = some c' → ∃ c state text,
      m[k]? = some c ∧ c' = { c with applyState := state, applyError := text } := by
    refine forEach_invariant (fun done _ => ∀ (k : Bytes) (c' : Config), done[k]? = some c' →
      ∃ c state text, m[k]? = some c ∧ c' = { c with applyState := state, applyError := text })
      (by simp) ?_ h
    intro done k v w v' w' hk _ hP hb k₁ c' hc'
    by_cases hkk : k = k₁
    · subst hkk
      simp only [StringMap.getElem?_insert, if_true, Option.some.injEq] at hc'
      subst hc'
      rcases applyConfig_ok hb with ⟨_, rfl⟩ | ⟨what, _, rfl⟩
      · exact ⟨v, _, _, hk, rfl⟩
      · exact ⟨v, _, _, hk, rfl⟩
    · simp only [StringMap.getElem?_insert, if_neg hkk] at hc'
      exact hP k₁ c' hc'
  constructor
  · intro hnone
    cases hm : m'[k]? with
    | none => rfl
    | some c' =>
      obtain ⟨c, _, _, hc, _⟩ := hinv k c' hm
      rw [hnone] at hc
      cases hc
  · intro c hc
    cases hm : m'[k]? with
    | none => exact absurd hm (forEntries_keeps_key _ h (by simp [hc]))
    | some c' =>
      obtain ⟨c₁, state, text, hc₁, heq⟩ := hinv k c' hm
      rw [hc] at hc₁
      cases hc₁
      exact ⟨state, text, by rw [heq]⟩

/-- **What a product holds afterwards**: the configs of the response, each
reconciled with the stored one, up to the verdicts. -/
theorem Product.assignConfigs_configs {ord : IterOrder} {configs : StringMap Config}
    {p p' : Product σ} {w w' : σ}
    (h : p.assignConfigs ord configs w = (.ok (), p', w')) (k : Bytes) :
    (configs[k]? = none → p'.configs[k]? = none) ∧
    ∀ c, configs[k]? = some c → ∃ state text, p'.configs[k]? =
      some { reconcile p.configs[k]? c with applyState := state, applyError := text } := by
  have hto := (classify_spec ord p.configs configs).toUpdate k
  rcases Product.assignConfigs_ok h with ⟨hs, rfl, _⟩ | ⟨_, updated, w₁, _, hu, _, rfl⟩
  · rw [classify_toUpdate_of_same hs] at hto
    constructor
    · intro hnone
      rw [hto, hnone]
      rfl
    · intro c hc
      rw [hc] at hto
      exact ⟨_, _, hto⟩
  · obtain ⟨h1, h2⟩ := updateConfigs_ok hu k
    constructor
    · intro hnone
      apply h1
      rw [hto, hnone]
      rfl
    · intro c hc
      rw [hc] at hto
      exact h2 _ hto

/-- A fact about configs, kept by a product: the response and the store have
it, so the store has it afterwards. -/
theorem Product.assignConfigs_of {f : Config → Prop} (hf : IgnoresState f) {ord : IterOrder}
    {configs : StringMap Config} {p p' : Product σ} {w w' : σ}
    (h : p.assignConfigs ord configs w = (.ok (), p', w')) {k : Bytes}
    (hs : ∀ c, p.configs[k]? = some c → f c) (hn : ∀ c, configs[k]? = some c → f c)
    {c' : Config} (hc' : p'.configs[k]? = some c') : f c' := by
  obtain ⟨h1, h2⟩ := Product.assignConfigs_configs h k
  cases hc : configs[k]? with
  | none =>
    rw [h1 hc] at hc'
    cases hc'
  | some c =>
    obtain ⟨state, text, heq⟩ := h2 c hc
    rw [heq] at hc'
    cases hc'
    exact hf _ _ _ (reconcile_of hf hs (hn c hc))

/-- The verdict is all that a visit changes on a config, completed or not. -/
theorem applyConfig_keeps {f : Config → Prop} (hf : IgnoresState f)
    {call : Config → σ → Except Exception Unit × σ} {c c' : Config} {w w' : σ}
    {r : Except Exception Unit} (h : applyConfig call c w = (r, c', w')) (hc : f c) : f c' := by
  rw [applyConfig] at h
  split at h
  · cases h
    exact hf c _ _ hc
  · cases h
    exact hf c _ _ hc
  · cases h
    exact hc

/-- The same when a listener's exception leaves the product half done: what
is left are configs that were stored before. -/
theorem Product.assignConfigs_all {f : Bytes → Config → Prop} (hf : ∀ k, IgnoresState (f k))
    {ord : IterOrder} {configs : StringMap Config} {p p' : Product σ} {w w' : σ}
    {r : Except Exception Unit} (h : p.assignConfigs ord configs w = (r, p', w'))
    (hs : ∀ (k : Bytes) c, p.configs[k]? = some c → f k c)
    (hn : ∀ (k : Bytes) c, configs[k]? = some c → f k c) :
    ∀ (k : Bytes) c, p'.configs[k]? = some c → f k c := by
  have hleft : ∀ (k : Bytes) c, (classify ord p.configs configs).stored[k]? = some c → f k c := by
    intro k c hk
    rw [(classify_spec ord p.configs configs).stored] at hk
    split at hk
    · exact hs k c hk
    · cases hk
  cases r with
  | ok u => exact fun k c hc => Product.assignConfigs_of (hf k) h (hs k) (hn k) hc
  | error e =>
    rw [Product.assignConfigs] at h
    split at h
    · split at h
      · cases h
        exact hleft
      · split at h
        · rename_i hun
          cases h
          exact forEach_values (fun k c w r c' w' hc hb => applyConfig_keeps (hf k) hb hc)
            hleft hun
        · cases h
    · cases h

/-! ## The frame of a product -/

/-- A relation on worlds that the listener's calls for one product respect. -/
structure Listener.Respects (l : Listener σ) (product : Bytes) (Rel : σ → σ → Prop) :
    Prop where
  refl : ∀ w, Rel w w
  trans : ∀ a b c, Rel a b → Rel b c → Rel a c
  onUpdate : ∀ c w r w', c.product = product → l.onUpdate c w = (r, w') → Rel w w'
  onUnapply : ∀ c w r w', c.product = product → l.onUnapply c w = (r, w') → Rel w w'

theorem applyConfig_world {call : Config → σ → Except Exception Unit × σ} {c c' : Config}
    {w w' : σ} {r : Except Exception Unit} (h : applyConfig call c w = (r, c', w')) :
    ∃ r₀, call c w = (r₀, w') := by
  rw [applyConfig] at h
  split at h <;> cases h <;> exact ⟨_, by assumption⟩

/-- **Frame rule of a product**: `assign_configs`, completed or not, stays
within what its listener's calls for this product respect. -/
theorem Product.assignConfigs_rel {ord : IterOrder} {configs : StringMap Config}
    {p p' : Product σ} {w w' : σ} {r : Except Exception Unit} {product : Bytes}
    {Rel : σ → σ → Prop} (hl : p.listener.Respects product Rel)
    (hs : ∀ (k : Bytes) (c : Config), p.configs[k]? = some c → c.product = product)
    (hn : ∀ (k : Bytes) (c : Config), configs[k]? = some c → c.product = product)
    (h : p.assignConfigs ord configs w = (r, p', w')) : Rel w w' := by
  have hf : IgnoresState fun c => c.product = product := fun _ _ _ hc => hc
  have hup : ∀ {m' : StringMap Config} {w w' : σ} {r},
      updateConfigs ord p.listener (classify ord p.configs configs).toUpdate w =
        (r, m', w') → Rel w w' := by
    intro m' w w' r hu
    refine forEach_rel Rel hl.refl hl.trans ?_ hu
    intro k c w r c' w' hk hc
    obtain ⟨r₀, h₀⟩ := applyConfig_world hc
    exact hl.onUpdate c w r₀ w' (classify_toUpdate_of hf hs hn hk) h₀
  have hun : ∀ {m' : StringMap Config} {w w' : σ} {r},
      unapplyConfigs ord p.listener (classify ord p.configs configs).stored w =
        (r, m', w') → Rel w w' := by
    intro m' w w' r hu
    refine forEach_rel Rel hl.refl hl.trans ?_ hu
    intro k c w r c' w' hk hc
    obtain ⟨r₀, h₀⟩ := applyConfig_world hc
    exact hl.onUnapply c w r₀ w' (classify_stored_of hs hk) h₀
  rw [Product.assignConfigs] at h
  split at h
  · split at h
    · rename_i hu
      cases h
      exact hup hu
    · rename_i hu
      split at h
      · rename_i hu'
        cases h
        exact hl.trans _ _ _ (hup hu) (hun hu')
      · rename_i hu'
        cases h
        exact hl.trans _ _ _ (hup hu) (hun hu')
  · cases h
    exact hl.refl w

end DdAppsec.Helper.RemoteConfig
