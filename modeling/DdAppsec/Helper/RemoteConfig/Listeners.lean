import DdAppsec.Helper.RemoteConfig.Aggregators
import DdAppsec.Helper.RemoteConfig.Client

/-!
# RemoteConfig — the two listeners and the world they act on

`World` is what the listeners of one service share and change: the ASM
status of the service configuration, the engine, and the state of the
engine listener itself. It also holds what the environment decides for the
poll in progress (the files on disk, the iteration order of the hash
containers) and a LOG of the rulesets handed to the engine, section by
section, which no definition reads back.

`asmFeaturesListener` and `engineListener` are the two implementations of
`listener_base`; `Poll` and `processPoll` put a client with such listeners
through one response at a time.
-/

namespace DdAppsec.Helper.RemoteConfig

open Lib

inductive AggregatorId where
  | asm | asmDd | asmData
  deriving DecidableEq, Repr

def asmProduct : Bytes := "ASM"
def asmDdProduct : Bytes := "ASM_DD"
def asmDataProduct : Bytes := "ASM_DATA"
def asmFeaturesProduct : Bytes := "ASM_FEATURES"

/-- `aggregators_.find(product)`. -/
def AggregatorId.ofProduct (product : Bytes) : Option AggregatorId :=
  if product = asmProduct then some .asm
  else if product = asmDdProduct then some .asmDd
  else if product = asmDataProduct then some .asmData
  else none

/-- A ruleset handed to the engine: the section of each aggregator in it. -/
structure Commit where
  sections : List (AggregatorId × Members)

/-- The document the sections were merged into. -/
def Commit.document (c : Commit) : EngineRuleset := ⟨c.sections.flatMap Prod.snd⟩

/-- The fields of `engine_listener` that change. `ruleset_` is an object at
every point where it is read. -/
structure EngineListener where
  asm : Members
  asmDd : Members
  asmData : RulesData
  ruleset : Members
  toCommit : List AggregatorId

structure World (Sub : Type) where
  status : EnableAsmStatus
  engine : Engine Sub
  listener : EngineListener
  files : FileSystem
  order : IterOrder
  commits : List Commit

variable {Sub : Type}

/-! ## ASM_FEATURES -/

/-- `dd_tolower`, whose range test leaves `A` and `Z` alone. -/
def ddTolower (s : Bytes) : Bytes :=
  s.map fun c => if 65 < c ∧ c < 90 then c + 32 else c

/-- What a config says about ASM: the status `on_update` sets, or what it
throws. -/
def asmFeaturesStatus (deps : Deps) (config : Config) : Except Exception EnableAsmStatus :=
  match getJsonBase64EncodedContent deps config.contents with
  | none => .error (.errorApplyingConfig "Invalid config contents")
  | some doc =>
    match getFieldOfType doc "asm" .object with
    | .error e => .error e
    | .ok (some (.object asm)) =>
      match Members.find asm "enabled" with
      | none => .error (.errorApplyingConfig
          "Invalid config json encoded contents: enabled key missing")
      | some (.string s) =>
        .ok (if ddTolower (cstr s) = "true" then .enabled else .disabled)
      | some (.bool true) => .ok .enabled
      | some (.bool false) => .ok .disabled
      | some _ => .error (.errorApplyingConfig
          "Invalid config json encoded contents: enabled key invalid")
    | .ok _ => .error (.errorApplyingConfig
        "Invalid config json encoded contents: asm key missing or invalid")

/-- `asm_features_listener`. -/
def asmFeaturesListener (deps : Deps) : Listener (World Sub) where
  supportedProducts := [(asmFeaturesProduct, 1 <<< 1)]
  init := fun w => (.ok (), w)
  onUpdate := fun config w =>
    match asmFeaturesStatus deps config with
    | .ok status => (.ok (), { w with status := status })
    | .error e => (.error e, w)
  onUnapply := fun _ w => (.ok (), { w with status := .notSet })
  commit := fun w => (.ok (), w)

/-! ## The engine listener -/

/-- An aggregator is reset the first time a poll touches it. -/
def EngineListener.touch (l : EngineListener) (id : AggregatorId) : EngineListener :=
  if id ∈ l.toCommit then l
  else
    match id with
    | .asm => { l with asm := asmInit, toCommit := id :: l.toCommit }
    | .asmDd => { l with asmDd := [], toCommit := id :: l.toCommit }
    | .asmData => { l with asmData := ∅, toCommit := id :: l.toCommit }

/-- `aggregator->add(config)`. -/
def EngineListener.add (deps : Deps) (ord : IterOrder) (id : AggregatorId) (config : Config)
    (l : EngineListener) : Except Exception Unit × EngineListener :=
  match id with
  | .asm =>
    match asmAdd deps config l.asm with
    | .ok asm => (.ok (), { l with asm := asm })
    | .error e => (.error e, l)
  | .asmDd =>
    match asmDdAdd deps config with
    | .ok asmDd => (.ok (), { l with asmDd := asmDd })
    | .error e => (.error e, l)
  | .asmData =>
    match asmDataAdd deps ord config l.asmData with
    | .ok asmData => (.ok (), { l with asmData := asmData })
    | .error e => (.error e, l)

/-- `aggregator->remove(config)`: only ASM_DD overrides the empty body. -/
def EngineListener.remove (deps : Deps) (files : FileSystem) (fallback : Bytes)
    (id : AggregatorId) (l : EngineListener) : Except Exception Unit × EngineListener :=
  match id with
  | .asm => (.ok (), l)
  | .asmDd =>
    match asmDdRemove deps files fallback l.asmDd with
    | .ok asmDd => (.ok (), { l with asmDd := asmDd })
    | .error e => (.error e, l)
  | .asmData => (.ok (), l)

/-- What `aggregate` adds to the ruleset. The members are moved out of the
aggregator, which is reset before it is read again. -/
def EngineListener.section (ord : IterOrder) (l : EngineListener) : AggregatorId → Members
  | .asm => l.asm
  | .asmDd => l.asmDd
  | .asmData => asmDataSection ord l.asmData

/-- The sections of the aggregators in `to_commit_`, in the order of
`aggregators_`. -/
def EngineListener.sections (ord : IterOrder) (l : EngineListener) :
    List (AggregatorId × Members) :=
  ((ord.arrange [asmProduct, asmDataProduct, asmDdProduct]).filterMap
    AggregatorId.ofProduct).filterMap fun id =>
      if id ∈ l.toCommit then some (id, l.section ord id) else none

/-- `engine_listener::on_update`. -/
def engineOnUpdate (deps : Deps) (config : Config) (w : World Sub) :
    Except Exception Unit × World Sub :=
  match AggregatorId.ofProduct config.product with
  | none => (.error (.errorApplyingConfig
      (Bytes.ofString "unknown product: " ++ config.product)), w)
  | some id =>
    let (r, l) := (w.listener.touch id).add deps w.order id config
    (r, { w with listener := l })

/-- `engine_listener::on_unapply`. -/
def engineOnUnapply (deps : Deps) (fallback : Bytes) (config : Config) (w : World Sub) :
    Except Exception Unit × World Sub :=
  match AggregatorId.ofProduct config.product with
  | none => (.error (.errorApplyingConfig
      (Bytes.ofString "unknown product: " ++ config.product)), w)
  | some id =>
    let (r, l) := (w.listener.touch id).remove deps w.files fallback id
    (r, { w with listener := l })

/-- `engine_listener::commit`. The document starts from `ruleset_`, which
`init` has emptied. -/
def engineCommit (updateSub : Sub → Parameter → Option Sub) (w : World Sub) : World Sub :=
  if w.listener.toCommit = [] then w
  else
    let sections := w.listener.sections w.order
    let ruleset : EngineRuleset := ⟨w.listener.ruleset ++ sections.flatMap Prod.snd⟩
    { w with
      engine := w.engine.update updateSub ruleset
      listener := { w.listener with ruleset := [] }
      commits := w.commits ++ [⟨sections⟩] }

/-- `engine_listener::init`. -/
def engineInit (w : World Sub) : World Sub :=
  { w with listener := { w.listener with ruleset := [], toCommit := [] } }

/-- `engine_listener`, with its fallback rules file. -/
def engineListener (deps : Deps) (updateSub : Sub → Parameter → Option Sub)
    (fallback : Bytes) : Listener (World Sub) where
  supportedProducts := [
    (asmProduct, 1 <<< 4 ||| 1 <<< 9 ||| 1 <<< 5 ||| 1 <<< 6 ||| 1 <<< 8 ||| 1 <<< 10),
    (asmDdProduct, 1 <<< 3),
    (asmDataProduct, 1 <<< 2 ||| 1 <<< 7)]
  init := fun w => (.ok (), engineInit w)
  onUpdate := engineOnUpdate deps
  onUnapply := engineOnUnapply deps fallback
  commit := fun w => (.ok (), engineCommit updateSub w)

/-! ## Polls -/

/-- One response, with what the environment decides while it is processed. -/
structure Poll where
  response : GetConfigsResponse
  files : FileSystem
  order : IterOrder

/-- A poll whose response lists, describes and carries one file. -/
def Poll.ofFile (path hash raw : Bytes) (files : FileSystem) : Poll where
  response :=
    { targetFiles := (∅ : StringMap TargetFile).insert path ⟨path, raw⟩
      clientConfigs := [path]
      targets := some
        { version := 1
          opaqueBackendState := []
          paths := (∅ : StringMap TargetPath).insert path
            ⟨1, (∅ : StringMap Bytes).insert "sha256" hash, raw.length⟩ } }
  files := files
  order := IterOrder.sorted

/-- The same with several files: the path, the hash and the contents of each. -/
def Poll.ofFiles (listed : List (Bytes × Bytes × Bytes)) (files : FileSystem) : Poll where
  response :=
    { targetFiles := listed.foldl (fun m f => m.insert f.1 ⟨f.1, f.2.2⟩) ∅
      clientConfigs := listed.map Prod.fst
      targets := some
        { version := 2
          opaqueBackendState := []
          paths := listed.foldl (fun m f => m.insert f.1
            ⟨1, (∅ : StringMap Bytes).insert "sha256" f.2.1, f.2.2.length⟩) ∅ } }
  files := files
  order := IterOrder.sorted

/-- A client with the world of its listeners. -/
abbrev Service (Sub : Type) := RemoteConfig.Client (World Sub) × World Sub

/-- The world as a poll finds it. -/
def World.during (w : World Sub) (poll : Poll) : World Sub :=
  { w with files := poll.files, order := poll.order }

/-- One SUCCESSFULLY processed response; `none` if it was rejected or an
exception escaped. -/
def processPoll (s : Service Sub) (poll : Poll) : Option (Service Sub) :=
  match processResponse poll.order poll.response s.1 (s.2.during poll) with
  | (.ok true, c, w) => some (c, w)
  | _ => none

end DdAppsec.Helper.RemoteConfig
