import DdAppsec.Helper.RemoteConfig.Listeners

/-!
# RemoteConfig — a service's client over whole runs of polls

`serviceListeners` is the choice `client_handler::from_settings` makes, and
`Service.Inv` what every state reachable from a fresh client with those
listeners keeps: the listeners stay the same, each product is served by the
listener that supports it, and configs are filed where their paths say.

The second half is the FRAME of the two listeners: which parts of the world
their calls leave alone. The engine listener never touches the ASM status;
the features listener touches nothing else; and of the engine listener's
calls only those for an ASM_DD config touch the ASM_DD aggregator.
-/

namespace DdAppsec.Helper.RemoteConfig

open Lib

variable {Sub : Type}

/-- The listeners `client_handler::from_settings` creates. `fallback` is
`rules_file_or_default()`. -/
def serviceListeners (deps : Deps) (updateSub : Sub → Parameter → Option Sub)
    (fallback : Bytes) (dynamicEnablement rulesFileEmpty : Bool) :
    List (Listener (World Sub)) :=
  (if dynamicEnablement then [asmFeaturesListener deps] else []) ++
    (if rulesFileEmpty then [engineListener deps updateSub fallback] else [])

/-- A world before the first poll: `service_config` and the aggregators as
their constructors leave them, and an engine. -/
def World.start (engine : Engine Sub) : World Sub where
  status := .notSet
  engine := engine
  listener := ⟨[], [], ∅, [], []⟩
  files := fun _ => none
  order := IterOrder.sorted
  commits := []

/-- The configs the client holds for a product; none if nobody supports it. -/
def Service.configsOf (s : Service Sub) (product : Bytes) : StringMap Config :=
  match s.1.products[product]? with
  | some p => p.configs
  | none => ∅

theorem Service.configsOf_of_some {s : Service Sub} {product : Bytes}
    {p : Product (World Sub)} (hp : s.1.products[product]? = some p) :
    s.configsOf product = p.configs := by
  rw [Service.configsOf, hp]

theorem Service.configsOf_of_none {s : Service Sub} {product : Bytes}
    (hp : s.1.products[product]? = none) : s.configsOf product = ∅ := by
  rw [Service.configsOf, hp]

section Run

variable (deps : Deps) (updateSub : Sub → Parameter → Option Sub) (fallback : Bytes)
  (dynamicEnablement rulesFileEmpty : Bool)

/-- A fresh client on a fresh world. -/
def Service.start (engine : Engine Sub) : Service Sub :=
  (Client.new (serviceListeners deps updateSub fallback dynamicEnablement rulesFileEmpty),
    World.start engine)

structure Service.Inv (s : Service Sub) : Prop where
  listeners : s.1.listeners =
    serviceListeners deps updateSub fallback dynamicEnablement rulesFileEmpty
  served : ∀ (name : Bytes) p, s.1.products[name]? = some p →
    ∃ l ∈ serviceListeners deps updateSub fallback dynamicEnablement rulesFileEmpty,
      p.listener = l ∧ name ∈ l.supportedProducts.map Prod.fst
  filed : s.1.Filed

variable {deps updateSub fallback dynamicEnablement rulesFileEmpty}

theorem Client.register_listeners {σ : Type} (l : Listener σ) (c : Client σ)
    (sp : List (Bytes × BitVec 16)) :
    (sp.foldl (Client.register l) c).listeners = c.listeners := by
  induction sp generalizing c with
  | nil => rfl
  | cons s sp ih => exact ih (Client.register l c s)

theorem Client.new_listeners {σ : Type} (listeners : List (Listener σ)) :
    (Client.new listeners).listeners = listeners := by
  have houter : ∀ (ls : List (Listener σ)) (c : Client σ),
      (ls.foldl (fun c l => l.supportedProducts.foldl (Client.register l) c) c).listeners =
        c.listeners := by
    intro ls
    induction ls with
    | nil => exact fun c => rfl
    | cons l ls ih =>
      intro c
      exact (ih _).trans (Client.register_listeners l c l.supportedProducts)
  exact houter listeners _

theorem Service.Inv.start (engine : Engine Sub) :
    (Service.start deps updateSub fallback dynamicEnablement rulesFileEmpty engine).Inv
      deps updateSub fallback dynamicEnablement rulesFileEmpty where
  listeners := Client.new_listeners _
  served := fun name p hp => (Client.new_fresh _ name p hp).2
  filed := by
    intro name p hp id config hc
    rw [(Client.new_fresh _ name p hp).1] at hc
    simp at hc

/-- Nothing is stored before the first poll. -/
theorem Service.start_configsOf (engine : Engine Sub) (product k : Bytes) :
    ((Service.start deps updateSub fallback dynamicEnablement rulesFileEmpty
      engine).configsOf product)[k]? = none := by
  rw [Service.configsOf]
  split
  · rename_i p hp
    rw [(Client.new_fresh _ _ p hp).1]
    simp
  · simp

/-- A successful poll is a response that `process_response` accepted. -/
theorem processPoll_some {s s' : Service Sub} {poll : Poll} (h : processPoll s poll = some s') :
    processResponse poll.order poll.response s.1 (s.2.during poll) = (.ok true, s'.1, s'.2) := by
  rw [processPoll] at h
  split at h
  · rename_i c w hp
    cases h
    exact hp
  · cases h

/-- The service's invariant is about the listeners and the products. -/
theorem Service.Inv.of_products {s s' : Service Sub}
    (h : s.Inv deps updateSub fallback dynamicEnablement rulesFileEmpty)
    (hlisteners : s'.1.listeners = s.1.listeners) (hproducts : s'.1.products = s.1.products) :
    s'.Inv deps updateSub fallback dynamicEnablement rulesFileEmpty where
  listeners := hlisteners.trans h.listeners
  served := by
    rw [hproducts]
    exact h.served
  filed := by
    intro name p hp
    rw [hproducts] at hp
    exact h.filed name p hp

theorem Service.Inv.processed {c c' : Client (World Sub)} {w w' : World Sub} {ord : IterOrder}
    {response : GetConfigsResponse}
    (h : Service.Inv deps updateSub fallback dynamicEnablement rulesFileEmpty (c, w))
    (hp : processResponse ord response c w = (.ok true, c', w')) :
    Service.Inv deps updateSub fallback dynamicEnablement rulesFileEmpty (c', w') := by
  obtain ⟨hls, hprod⟩ := processResponse_static hp
  refine ⟨hls.trans h.listeners, ?_, processResponse_filed hp h.filed⟩
  intro name p' hp'
  obtain ⟨p, hpp, hl⟩ := (hprod name).2 p' hp'
  rw [hl]
  exact h.served name p hpp

theorem Service.Inv.step {s s' : Service Sub} {poll : Poll}
    (hinv : s.Inv deps updateSub fallback dynamicEnablement rulesFileEmpty)
    (h : processPoll s poll = some s') :
    s'.Inv deps updateSub fallback dynamicEnablement rulesFileEmpty := by
  have hduring : Service.Inv deps updateSub fallback dynamicEnablement rulesFileEmpty
      (s.1, s.2.during poll) := hinv.of_products rfl rfl
  exact hduring.processed (processPoll_some h)

/-! ## Which listener serves which product -/

theorem mem_serviceListeners {l : Listener (World Sub)}
    (h : l ∈ serviceListeners deps updateSub fallback dynamicEnablement rulesFileEmpty) :
    l = asmFeaturesListener deps ∨ l = engineListener deps updateSub fallback := by
  rw [serviceListeners, List.mem_append] at h
  rcases h with h | h
  · split at h
    · exact Or.inl (List.mem_singleton.mp h)
    · cases h
  · split at h
    · exact Or.inr (List.mem_singleton.mp h)
    · cases h

/-- ASM_FEATURES belongs to the features listener. -/
theorem Service.Inv.features {s : Service Sub}
    (hinv : s.Inv deps updateSub fallback dynamicEnablement rulesFileEmpty)
    {p : Product (World Sub)} (hp : s.1.products[asmFeaturesProduct]? = some p) :
    p.listener = asmFeaturesListener deps := by
  obtain ⟨l, hl, heq, hname⟩ := hinv.served _ p hp
  rcases mem_serviceListeners hl with rfl | rfl
  · exact heq
  · have hno : asmFeaturesProduct ∉ [asmProduct, asmDdProduct, asmDataProduct] := by decide
    exact absurd hname hno

/-- Every other product belongs to the engine listener. -/
theorem Service.Inv.engine {s : Service Sub}
    (hinv : s.Inv deps updateSub fallback dynamicEnablement rulesFileEmpty) {name : Bytes}
    {p : Product (World Sub)} (hp : s.1.products[name]? = some p)
    (hname : name ≠ asmFeaturesProduct) :
    p.listener = engineListener deps updateSub fallback := by
  obtain ⟨l, hl, heq, hmem⟩ := hinv.served _ p hp
  rcases mem_serviceListeners hl with rfl | rfl
  · exact absurd (List.mem_singleton.mp hmem) hname
  · exact heq

/-! ## What the calls leave alone -/

theorem EngineListener.touch_toCommit (l : EngineListener) (id id' : AggregatorId) :
    id' ∈ (l.touch id).toCommit ↔ id' = id ∨ id' ∈ l.toCommit := by
  unfold EngineListener.touch
  split
  · rename_i hmem
    constructor
    · exact Or.inr
    · rintro (rfl | h)
      · exact hmem
      · exact h
  · cases id <;> simp

theorem EngineListener.touch_ruleset (l : EngineListener) (id : AggregatorId) :
    (l.touch id).ruleset = l.ruleset := by
  unfold EngineListener.touch
  split
  · rfl
  · cases id <;> rfl

/-- `add` and `remove` never change `to_commit_` or `ruleset_`. -/
theorem EngineListener.add_static {ord : IterOrder} {id : AggregatorId} {config : Config}
    {l l' : EngineListener} {r : Except Exception Unit} (h : l.add deps ord id config = (r, l')) :
    l'.toCommit = l.toCommit ∧ l'.ruleset = l.ruleset := by
  cases id <;> simp only [EngineListener.add] at h <;> split at h <;> cases h <;>
    exact ⟨rfl, rfl⟩

theorem EngineListener.remove_static {files : FileSystem} {id : AggregatorId}
    {l l' : EngineListener} {r : Except Exception Unit}
    (h : l.remove deps files fallback id = (r, l')) :
    l'.toCommit = l.toCommit ∧ l'.ruleset = l.ruleset := by
  cases id with
  | asm => cases h; exact ⟨rfl, rfl⟩
  | asmData => cases h; exact ⟨rfl, rfl⟩
  | asmDd =>
    simp only [EngineListener.remove] at h
    split at h <;> cases h <;> exact ⟨rfl, rfl⟩

/-- **The engine listener's calls, inverted**: an unknown product is refused;
otherwise the aggregator is touched and its `add` or `remove` decides. -/
theorem engineOnUpdate_cases {config : Config} {w w' : World Sub}
    {r : Except Exception Unit} (h : engineOnUpdate deps config w = (r, w')) :
    (AggregatorId.ofProduct config.product = none ∧ w' = w) ∨
    ∃ id l, AggregatorId.ofProduct config.product = some id ∧
      (w.listener.touch id).add deps w.order id config = (r, l) ∧
      w' = { w with listener := l } := by
  rw [engineOnUpdate] at h
  split at h
  · rename_i hid
    cases h
    exact Or.inl ⟨hid, rfl⟩
  · rename_i id hid
    cases h
    exact Or.inr ⟨id, _, hid, rfl, rfl⟩

theorem engineOnUnapply_cases {config : Config} {w w' : World Sub}
    {r : Except Exception Unit} (h : engineOnUnapply deps fallback config w = (r, w')) :
    (AggregatorId.ofProduct config.product = none ∧ w' = w) ∨
    ∃ id l, AggregatorId.ofProduct config.product = some id ∧
      (w.listener.touch id).remove deps w.files fallback id = (r, l) ∧
      w' = { w with listener := l } := by
  rw [engineOnUnapply] at h
  split at h
  · rename_i hid
    cases h
    exact Or.inl ⟨hid, rfl⟩
  · rename_i id hid
    cases h
    exact Or.inr ⟨id, _, hid, rfl, rfl⟩

/-- The features listener's calls act on the status only. -/
theorem asmFeatures_onUpdate_world {config : Config} {w w' : World Sub}
    {r : Except Exception Unit} (h : (asmFeaturesListener deps).onUpdate config w = (r, w')) :
    ∃ status, w' = { w with status := status } := by
  simp only [asmFeaturesListener] at h
  split at h
  · cases h
    exact ⟨_, rfl⟩
  · cases h
    exact ⟨w.status, rfl⟩

/-- What only `init` and `commit` change: the engine, the log, and the
document under construction. -/
structure SameEngine (a b : World Sub) : Prop where
  engine : b.engine = a.engine
  commits : b.commits = a.commits
  ruleset : b.listener.ruleset = a.listener.ruleset

theorem SameEngine.refl (w : World Sub) : SameEngine w w := ⟨rfl, rfl, rfl⟩

theorem SameEngine.trans (a b c : World Sub) (hab : SameEngine a b) (hbc : SameEngine b c) :
    SameEngine a c :=
  ⟨hbc.engine.trans hab.engine, hbc.commits.trans hab.commits, hbc.ruleset.trans hab.ruleset⟩

theorem engineListener_respects_engine (name : Bytes) :
    (engineListener deps updateSub fallback).Respects name (@SameEngine Sub) where
  refl := SameEngine.refl
  trans := SameEngine.trans
  onUpdate := by
    intro c w r w' _ h
    rcases engineOnUpdate_cases h with ⟨_, rfl⟩ | ⟨id, l, _, hadd, rfl⟩
    · exact SameEngine.refl w'
    · exact ⟨rfl, rfl, (EngineListener.add_static hadd).2.trans
        (EngineListener.touch_ruleset _ id)⟩
  onUnapply := by
    intro c w r w' _ h
    rcases engineOnUnapply_cases h with ⟨_, rfl⟩ | ⟨id, l, _, hrem, rfl⟩
    · exact SameEngine.refl w'
    · exact ⟨rfl, rfl, (EngineListener.remove_static hrem).2.trans
        (EngineListener.touch_ruleset _ id)⟩

theorem asmFeaturesListener_respects_engine (name : Bytes) :
    (asmFeaturesListener deps).Respects name (@SameEngine Sub) where
  refl := SameEngine.refl
  trans := SameEngine.trans
  onUpdate := by
    intro c w r w' _ h
    obtain ⟨status, rfl⟩ := asmFeatures_onUpdate_world h
    exact ⟨rfl, rfl, rfl⟩
  onUnapply := by
    intro c w r w' _ h
    cases h
    exact ⟨rfl, rfl, rfl⟩

/-- With the engine listener attached, the only effect of `init` is its. -/
theorem service_init (w : World Sub) :
    forListeners Listener.init
      (serviceListeners deps updateSub fallback dynamicEnablement true) w =
      (.ok (), engineInit w) := by
  cases dynamicEnablement <;> rfl

theorem service_commit (w : World Sub) :
    forListeners Listener.commit
      (serviceListeners deps updateSub fallback dynamicEnablement true) w =
      (.ok (), engineCommit updateSub w) := by
  cases dynamicEnablement <;> rfl

/-- **A poll, seen from the engine**: up to the commit nothing reaches it. -/
theorem processPoll_engine {s s' : Service Sub} {poll : Poll} {targets : Targets}
    (hinv : s.Inv deps updateSub fallback dynamicEnablement true)
    (h : processPoll s poll = some s') (ht : poll.response.targets = some targets) :
    ∃ configs wc, buildConfigs poll.order s.1.products targets poll.response.targetFiles
        poll.response.clientConfigs ∅ = .ok configs ∧
      assignAll poll.order configs s.1.products (engineInit (s.2.during poll)) =
        (.ok (), s'.1.products, wc) ∧
      SameEngine (engineInit (s.2.during poll)) wc ∧ s'.2 = engineCommit updateSub wc := by
  rcases processResponse_ok_true (processPoll_some h) with
    ⟨hn, _, _⟩ | ⟨targets', configs, wi, products, wc, ht', hb, hi, ha, hc, hs'⟩
  · rw [ht] at hn
    cases hn
  · rw [ht] at ht'
    cases ht'
    rw [hinv.listeners, service_init] at hi
    cases hi
    rw [hinv.listeners, service_commit] at hc
    refine ⟨configs, wc, hb, by rw [hs']; exact ha, ?_, (congrArg Prod.snd hc).symm⟩
    refine assignAll_rel SameEngine SameEngine.refl SameEngine.trans hinv.filed hb ?_ ha
    intro name p hp
    by_cases hf : name = asmFeaturesProduct
    · subst hf
      rw [hinv.features hp]
      exact asmFeaturesListener_respects_engine _
    · rw [hinv.engine hp hf]
      exact engineListener_respects_engine name

/-- A response without targets is accepted and changes nothing. -/
theorem processPoll_no_targets {s s' : Service Sub} {poll : Poll}
    (h : processPoll s poll = some s') (ht : poll.response.targets = none) :
    s' = (s.1, s.2.during poll) := by
  have hp := processPoll_some h
  rw [processResponse, ht] at hp
  simp only [Prod.mk.injEq, true_and] at hp
  exact Prod.ext hp.1.symm hp.2.symm

/-- **What a poll means to the engine**: nothing, or one update with the
document it logs. -/
theorem processPoll_commits {s s' : Service Sub} {poll : Poll}
    (hinv : s.Inv deps updateSub fallback dynamicEnablement true)
    (h : processPoll s poll = some s') :
    (s'.2.commits = s.2.commits ∧ s'.2.engine = s.2.engine) ∨
    ∃ commit, s'.2.commits = s.2.commits ++ [commit] ∧
      s'.2.engine = s.2.engine.update updateSub commit.document := by
  cases ht : poll.response.targets with
  | none =>
    rw [processPoll_no_targets h ht]
    exact Or.inl ⟨rfl, rfl⟩
  | some targets =>
    obtain ⟨configs, wc, _, _, hsame, hs'⟩ := processPoll_engine hinv h ht
    rw [hs', engineCommit]
    split
    · exact Or.inl ⟨hsame.commits, hsame.engine⟩
    · have hdoc : wc.listener.ruleset = [] := hsame.ruleset
      refine Or.inr ⟨⟨wc.listener.sections wc.order⟩, ?_, ?_⟩
      · show wc.commits ++ _ = _
        rw [hsame.commits]
        rfl
      · show wc.engine.update updateSub _ = _
        rw [hsame.engine, hdoc]
        rfl

theorem engineCommit_status (w : World Sub) : (engineCommit updateSub w).status = w.status := by
  rw [engineCommit]
  split
  · rfl
  · rfl

end Run

end DdAppsec.Helper.RemoteConfig
