import DdAppsec.Helper.Engine
import DdAppsec.Helper.RateLimit
import DdAppsec.Lib.Join
import Mathlib.Logic.Function.Basic

/-!
# Helper — publishing data to the subscribers

`EngineContext.publish` hands the data of a request to the listener of every
subscriber and puts together what they find: event data, ids of actions, and
schemas. A subscriber is only known by its virtual functions (`Subscribers`);
what it finds is data of this model (`CallResult`).

The loop is taken apart into the calls (`results`) and what is gathered from
them (`gather`). `Lossless` says what a result owes to the findings.
`publish_lossless_iff` says when it does: the test for an empty result does not
look at the schemas, and only exceptions of the standard library are caught.
-/

namespace DdAppsec.Helper

open Lib

/-! ## Subscribers -/

/-- `std::unordered_set<std::string>`. -/
abbrev StringSet := StringMap Unit

/-- `subscriber::event`. -/
structure SubscriberEvent where
  data : List Bytes
  actions : StringSet
  schemas : StringMap Bytes

/-- What a call of a listener ends in; `standard` is an exception derived from
`std::exception`. -/
inductive CallResult where
  | returned (event : Option SubscriberEvent)
  | threw (standard : Bool)

/-- The virtual functions of `subscriber` and `subscriber::listener`; a listener
has a state. -/
structure Subscribers (Sub L : Type) where
  getListener : Sub → L
  call : Parameter → L → CallResult × L

variable {Sub L : Type} [DecidableEq Sub]

/-- The listener of a subscriber is made when it is first called. -/
def Subscribers.callListener (v : Subscribers Sub L) (data : Parameter) (sub : Sub)
    (listeners : Sub → Option L) : CallResult × (Sub → Option L) :=
  let (result, l) := v.call data ((listeners sub).getD (v.getListener sub))
  (result, Function.update listeners sub (some l))

/-! ## `engine::context::publish` -/

/-- `event_data`, `event_actions` and `schemas`. -/
structure Findings where
  data : List Bytes
  actions : StringSet
  schemas : StringMap Bytes

def Findings.empty : Findings := ⟨[], ∅, ∅⟩

def Findings.add (f : Findings) (e : SubscriberEvent) : Findings :=
  ⟨f.data ++ e.data, f.actions.merge e.actions, f.schemas.merge e.schemas⟩

/-- The loop over the subscribers; `none` if an exception gets out of it. -/
def publishLoop (v : Subscribers Sub L) (data : Parameter) :
    List Sub → (Sub → Option L) → Findings → Option Findings × (Sub → Option L)
  | [], listeners, f => (some f, listeners)
  | sub :: rest, listeners, f =>
    match v.callListener data sub listeners with
    | (.returned (some e), listeners) => publishLoop v data rest listeners (f.add e)
    | (.returned none, listeners) => publishLoop v data rest listeners f
    -- logged
    | (.threw true, listeners) => publishLoop v data rest listeners f
    | (.threw false, listeners) => (none, listeners)

/-- The first action in the set that is defined. -/
def chooseAction (ord : IterOrder) (actions : ActionMap) (ids : StringSet) : Option Action :=
  (ord.arrange ids.keys).findSome? fun id => actions[id]?

/-- `engine::context`. -/
structure EngineContext (Sub L : Type) where
  prevPublishedParams : List Parameter
  listeners : Sub → Option L
  common : Engine Sub

/-- What `publish` returns or throws. -/
inductive Published where
  | returned (result : Option EngineResult)
  | invalidObject
  | escaped

/-- `engine::context::publish`. -/
def EngineContext.publish (v : Subscribers Sub L) (ord : IterOrder) (now : Nat)
    (param : Parameter) (limiter : RateLimiter) (c : EngineContext Sub L) :
    Published × EngineContext Sub L × RateLimiter :=
  let c := { c with prevPublishedParams := c.prevPublishedParams ++ [param] }
  if !param.isMap then (.invalidObject, c, limiter)
  else
    match publishLoop v param c.common.subscribers c.listeners .empty with
    | (none, listeners) => (.escaped, { c with listeners := listeners }, limiter)
    | (some f, listeners) =>
      let c := { c with listeners := listeners }
      if f.actions.isEmpty && f.data.isEmpty then (.returned none, c, limiter)
      else
        let action := (chooseAction ord c.common.actions f.actions).getD ⟨.record, ∅⟩
        let (forceKeep, limiter) := limiter.allow now
        (.returned (some ⟨action.type, action.parameters, f.data, f.schemas, forceKeep⟩), c,
          limiter)

/-! ## What is found -/

/-- What the calls end in, subscriber by subscriber. -/
def Subscribers.results (v : Subscribers Sub L) (data : Parameter) :
    List Sub → (Sub → Option L) → List CallResult
  | [], _ => []
  | sub :: rest, listeners =>
    (v.callListener data sub listeners).1 ::
      v.results data rest (v.callListener data sub listeners).2

/-- The event of a call that did not fail and found something. -/
def CallResult.event : CallResult → Option SubscriberEvent
  | .returned event => event
  | .threw _ => none

/-- An exception that is not caught. -/
def CallResult.escapes : CallResult → Bool
  | .threw standard => !standard
  | .returned _ => false

/-- What the subscribers that did not fail contribute, in their order. -/
def contributions (results : List CallResult) : List SubscriberEvent :=
  results.filterMap CallResult.event

def Findings.gather (events : List SubscriberEvent) : Findings := events.foldl Findings.add .empty

/-- **The loop**: it gathers what the calls contribute, unless an exception gets
out of one. -/
theorem publishLoop_eq (v : Subscribers Sub L) (data : Parameter) (subs : List Sub) :
    ∀ (listeners : Sub → Option L) (f : Findings),
      (publishLoop v data subs listeners f).1 =
        if (v.results data subs listeners).any CallResult.escapes then none
        else some ((contributions (v.results data subs listeners)).foldl Findings.add f) := by
  induction subs with
  | nil => exact fun listeners f => rfl
  | cons sub rest ih =>
    intro listeners f
    rw [publishLoop, Subscribers.results]
    cases v.callListener data sub listeners with
    | mk result listeners' =>
      cases result with
      | returned event =>
        cases event with
        | none => exact ih listeners' f
        | some e => exact ih listeners' (f.add e)
      | threw standard =>
        cases standard with
        | true => exact ih listeners' f
        | false => rfl

/-- Maps merged one after the other: the first that has the key. -/
theorem getElem?_foldl_merge {α : Type} (g : SubscriberEvent → StringMap α)
    (events : List SubscriberEvent) (m : StringMap α) (k : Bytes) :
    (events.foldl (fun m e => m.merge (g e)) m)[k]? =
      m[k]?.or (events.findSome? fun e => (g e)[k]?) := by
  induction events generalizing m with
  | nil => simp
  | cons e events ih =>
    rw [List.foldl_cons, ih, StringMap.getElem?_merge, List.findSome?_cons]
    cases m[k]? with
    | some v => rfl
    | none => cases (g e)[k]? <;> rfl

/-- The three parts of the findings are gathered apart. -/
theorem foldl_add (events : List SubscriberEvent) (f : Findings) :
    events.foldl Findings.add f =
      ⟨f.data ++ events.flatMap (·.data), events.foldl (fun m e => m.merge e.actions) f.actions,
        events.foldl (fun m e => m.merge e.schemas) f.schemas⟩ := by
  induction events generalizing f with
  | nil => simp
  | cons e events ih =>
    rw [List.foldl_cons, ih]
    simp [Findings.add]

theorem gather_data (events : List SubscriberEvent) :
    (Findings.gather events).data = events.flatMap (·.data) := by
  rw [Findings.gather, foldl_add]
  rfl

theorem gather_actions (events : List SubscriberEvent) (k : Bytes) :
    (Findings.gather events).actions[k]? = events.findSome? fun e => e.actions[k]? := by
  rw [Findings.gather, foldl_add]
  refine (getElem?_foldl_merge (·.actions) events ∅ k).trans ?_
  simp

theorem gather_schemas (events : List SubscriberEvent) (k : Bytes) :
    (Findings.gather events).schemas[k]? = events.findSome? fun e => e.schemas[k]? := by
  rw [Findings.gather, foldl_add]
  refine (getElem?_foldl_merge (·.schemas) events ∅ k).trans ?_
  simp

/-! ## The action -/

section Action

variable {ord : IterOrder} {actions : ActionMap} {ids : StringSet}

theorem mem_arrange_keys {id : Bytes} : id ∈ ord.arrange ids.keys ↔ ids[id]?.isSome := by
  rw [(ord.perm ids.keys).mem_iff, Std.ExtTreeMap.mem_keys,
    Std.ExtTreeMap.mem_iff_isSome_getElem?]

/-- The action that is chosen is one of the set. -/
theorem chooseAction_some {action : Action} (h : chooseAction ord actions ids = some action) :
    ∃ id : Bytes, ids[id]?.isSome ∧ actions[id]? = some action := by
  obtain ⟨id, hmem, hid⟩ := List.exists_of_findSome?_eq_some h
  exact ⟨id, mem_arrange_keys.mp hmem, hid⟩

/-- If one of the set is defined, an action is chosen. -/
theorem chooseAction_isSome {id : Bytes} (hmem : ids[id]?.isSome) (hid : actions[id]?.isSome) :
    (chooseAction ord actions ids).isSome := by
  rw [chooseAction, List.findSome?_isSome_iff]
  exact ⟨id, mem_arrange_keys.mpr hmem, hid⟩

end Action

/-! ## Nothing is lost -/

/-- What a result owes to the findings of the subscribers. -/
structure Lossless (actions : ActionMap) (events : List SubscriberEvent)
    (result : Option EngineResult) : Prop where
  data : (result.map EngineResult.events).getD [] = events.flatMap (·.data)
  action : (∃ e ∈ events, ∃ id : Bytes, e.actions[id]?.isSome ∧ actions[id]?.isSome) →
    ∃ r, result = some r ∧ ∃ e ∈ events, ∃ id : Bytes,
      e.actions[id]?.isSome ∧ actions[id]? = some ⟨r.type, r.parameters⟩
  schemas : ∀ e ∈ events, ∀ key : Bytes, e.schemas[key]?.isSome →
    ∃ r, result = some r ∧ ∃ e' ∈ events, ∃ value,
      e'.schemas[key]? = some value ∧ r.schemas[key]? = some value

/-- There is something besides schemas. -/
def HasFindings (events : List SubscriberEvent) : Prop :=
  ∃ e ∈ events, e.data ≠ [] ∨ ∃ id : Bytes, e.actions[id]?.isSome

def HasSchemas (events : List SubscriberEvent) : Prop :=
  ∃ e ∈ events, ∃ key : Bytes, e.schemas[key]?.isSome

section Lossless

variable {actions : ActionMap} {events : List SubscriberEvent}

/-- A set in one of the events, seen in what is gathered. -/
theorem findSome?_isSome_of_mem {α : Type} {g : SubscriberEvent → Option α}
    {e : SubscriberEvent} (he : e ∈ events) (hg : (g e).isSome) :
    (events.findSome? g).isSome := by
  rw [List.findSome?_isSome_iff]
  exact ⟨e, he, hg⟩

/-- The early exit is taken if there is nothing but schemas. -/
theorem gather_isEmpty_iff :
    ((Findings.gather events).actions.isEmpty && (Findings.gather events).data.isEmpty) = true ↔
      ¬ HasFindings events := by
  rw [Bool.and_eq_true, StringMap.isEmpty_iff, List.isEmpty_iff, gather_data,
    List.flatMap_eq_nil_iff]
  constructor
  · rintro ⟨hactions, hdata⟩ ⟨e, he, hne | ⟨id, hid⟩⟩
    · exact hne (hdata e he)
    · have hsome := findSome?_isSome_of_mem (g := fun e => e.actions[id]?) he hid
      rw [← gather_actions, hactions id] at hsome
      cases hsome
  · intro h
    constructor
    · intro id
      rw [gather_actions, List.findSome?_eq_none_iff]
      intro e he
      by_contra hne
      exact h ⟨e, he, Or.inr ⟨id, Option.isSome_iff_ne_none.mpr hne⟩⟩
    · intro e he
      by_contra hne
      exact h ⟨e, he, Or.inl hne⟩

/-- Returning nothing loses the schemas, and nothing else. -/
theorem lossless_none_iff (h : ¬ HasFindings events) :
    Lossless actions events none ↔ ¬ HasSchemas events := by
  constructor
  · rintro hlossless ⟨e, he, key, hkey⟩
    obtain ⟨r, hr, _⟩ := hlossless.schemas e he key hkey
    cases hr
  · intro hschemas
    refine ⟨?_, ?_, ?_⟩
    · symm
      rw [Option.map_none, Option.getD_none, List.flatMap_eq_nil_iff]
      intro e he
      by_contra hne
      exact h ⟨e, he, Or.inl hne⟩
    · rintro ⟨e, he, id, hid, _⟩
      exact absurd ⟨e, he, Or.inr ⟨id, hid⟩⟩ h
    · intro e he key hkey
      exact absurd ⟨e, he, key, hkey⟩ hschemas

/-- The result that is put together loses nothing. -/
theorem lossless_gather (ord : IterOrder) (forceKeep : Bool) :
    Lossless actions events
      (some ⟨((chooseAction ord actions (Findings.gather events).actions).getD ⟨.record, ∅⟩).type,
        ((chooseAction ord actions (Findings.gather events).actions).getD ⟨.record, ∅⟩).parameters,
        (Findings.gather events).data, (Findings.gather events).schemas, forceKeep⟩) := by
  refine ⟨gather_data events, ?_, ?_⟩
  · rintro ⟨e, he, id, hid, hdefined⟩
    have hmem : (Findings.gather events).actions[id]?.isSome := by
      rw [gather_actions]
      exact findSome?_isSome_of_mem he hid
    have hchoice : (chooseAction ord actions (Findings.gather events).actions).isSome :=
      chooseAction_isSome hmem hdefined
    obtain ⟨action, haction⟩ := Option.isSome_iff_exists.mp hchoice
    obtain ⟨id', hid', hchosen⟩ := chooseAction_some haction
    rw [gather_actions, List.findSome?_isSome_iff] at hid'
    obtain ⟨e', he', hid'⟩ := hid'
    refine ⟨_, rfl, e', he', id', hid', ?_⟩
    rw [haction]
    exact hchosen
  · intro e he key hkey
    have hsome : (Findings.gather events).schemas[key]?.isSome := by
      rw [gather_schemas]
      exact findSome?_isSome_of_mem he hkey
    obtain ⟨value, hvalue⟩ := Option.isSome_iff_exists.mp hsome
    have hfound := hvalue
    rw [gather_schemas] at hfound
    obtain ⟨e', he', hvalue'⟩ := List.exists_of_findSome?_eq_some hfound
    exact ⟨_, rfl, e', he', value, hvalue', hvalue⟩

end Lossless

/-- **When `publish` loses nothing.** It returns, and what it returns carries all
that the subscribers which did not fail have found, exactly if every exception
is one of the standard library, and there are event data or actions or no
schemas. -/
theorem publish_lossless_iff (v : Subscribers Sub L) (ord : IterOrder) (now : Nat)
    {param : Parameter} (hmap : param.isMap = true) (limiter : RateLimiter)
    (c : EngineContext Sub L) :
    (∃ result, (c.publish v ord now param limiter).1 = .returned result ∧
      Lossless c.common.actions
        (contributions (v.results param c.common.subscribers c.listeners)) result) ↔
      (∀ r ∈ v.results param c.common.subscribers c.listeners, r.escapes = false) ∧
        (HasFindings (contributions (v.results param c.common.subscribers c.listeners)) ∨
          ¬ HasSchemas (contributions (v.results param c.common.subscribers c.listeners))) := by
  have hloop := publishLoop_eq v param c.common.subscribers c.listeners .empty
  generalize v.results param c.common.subscribers c.listeners = results at *
  cases hrun : publishLoop v param c.common.subscribers c.listeners .empty with
  | mk found listeners =>
    rw [hrun] at hloop
    by_cases hescapes : results.any CallResult.escapes = true
    · -- an exception gets out
      rw [if_pos hescapes] at hloop
      obtain rfl : found = none := hloop
      refine iff_of_false ?_ ?_
      · rintro ⟨result, hresult, _⟩
        simp [EngineContext.publish, hmap, hrun] at hresult
      · rintro ⟨hcaught, _⟩
        obtain ⟨r, hr, hthrown⟩ := List.any_eq_true.mp hescapes
        rw [hcaught r hr] at hthrown
        cases hthrown
    · rw [if_neg hescapes] at hloop
      obtain rfl : found = some (Findings.gather (contributions results)) := hloop
      have hcaught : ∀ r ∈ results, r.escapes = false := by
        intro r hr
        by_contra hthrown
        exact hescapes (List.any_eq_true.mpr ⟨r, hr, by simpa using hthrown⟩)
      rw [and_iff_right hcaught]
      by_cases hfindings : HasFindings (contributions results)
      · have hnonempty := mt gather_isEmpty_iff.mp (not_not_intro hfindings)
        refine iff_of_true ?_ (Or.inl hfindings)
        refine ⟨_, ?_, lossless_gather ord (limiter.allow now).1⟩
        simp only [EngineContext.publish, hmap, Bool.not_true, Bool.false_eq_true, if_false, hrun,
          if_neg hnonempty]
      · have hempty := gather_isEmpty_iff.mpr hfindings
        have hnone : (c.publish v ord now param limiter).1 = .returned none := by
          simp only [EngineContext.publish, hmap, Bool.not_true, Bool.false_eq_true, if_false, hrun,
            if_pos hempty]
        have hlost : Lossless c.common.actions (contributions results) none ↔
            ¬ HasSchemas (contributions results) := lossless_none_iff hfindings
        rw [hnone, or_iff_right hfindings, ← hlost]
        constructor
        · rintro ⟨result, hresult, hlossless⟩
          cases hresult
          exact hlossless
        · exact fun hlossless => ⟨none, rfl, hlossless⟩

def blockEvent : SubscriberEvent := ⟨["attack"], (∅ : StringSet).insert "block" (), ∅⟩

def schemaEvent : SubscriberEvent := ⟨[], ∅, (∅ : StringMap Bytes).insert "s.body" "[8]"⟩

/-- What the calls of three subscribers end in: the second one times out. -/
def threeResults : Nat → CallResult
  | 0 => .returned (some blockEvent)
  | 1 => .threw true
  | _ => .returned (some schemaEvent)

def threeSubscribers : Subscribers Nat Nat := ⟨id, fun _ l => (threeResults l, l)⟩

def threeContext : EngineContext Nat Nat := ⟨[], fun _ => none, ⟨[0, 1, 2], defaultActions⟩⟩

/-- What the others have found is published. -/
theorem attack_published_beside_timeout :
    ∃ result, (threeContext.publish threeSubscribers .sorted 0 (.map [])
        (RateLimiter.new 0)).1 = .returned result ∧
      Lossless defaultActions [blockEvent, schemaEvent] result := by
  refine (publish_lossless_iff threeSubscribers .sorted 0 rfl (RateLimiter.new 0)
    threeContext).mpr ⟨?_, Or.inl ⟨blockEvent, List.mem_cons_self, Or.inl ?_⟩⟩
  · intro r hr
    have hresults : threeSubscribers.results (.map []) threeContext.common.subscribers
        threeContext.listeners =
          [.returned (some blockEvent), .threw true, .returned (some schemaEvent)] := rfl
    rw [hresults] at hr
    simp only [List.mem_cons, List.not_mem_nil, or_false] at hr
    obtain rfl | rfl | rfl := hr <;> rfl
  · decide

/-- A context with one subscriber. -/
def oneSubscriber : EngineContext Unit Unit := ⟨[], fun _ => none, ⟨[()], defaultActions⟩⟩

/-- A subscriber whose calls always end in the same. -/
def always (result : CallResult) : Subscribers Unit Unit :=
  ⟨fun _ => (), fun _ l => (result, l)⟩

/-- A schema without an event is lost. -/
theorem schema_without_event_lost :
    (oneSubscriber.publish (always (.returned (some schemaEvent))) .sorted 0 (.map [])
        (RateLimiter.new 0)).1 = .returned none ∧
      schemaEvent.schemas[("s.body" : Bytes)]? = some ("[8]" : Bytes) ∧
      ¬ Lossless defaultActions [schemaEvent] none := by
  have hschema : schemaEvent.schemas[("s.body" : Bytes)]? = some ("[8]" : Bytes) := by
    simp [schemaEvent]
  refine ⟨rfl, hschema, fun h => ?_⟩
  obtain ⟨r, hr, _⟩ := h.schemas schemaEvent (List.mem_singleton.mpr rfl) "s.body"
    (by rw [hschema]; rfl)
  cases hr

end DdAppsec.Helper
