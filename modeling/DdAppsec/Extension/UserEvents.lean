import DdAppsec.Extension.Lifecycle
import DdAppsec.Extension.MsgpackHelpers
import DdAppsec.Lib.Assignments

/-!
# Extension — tracking of user events

`track_user_signup_event`, `track_user_login_success_event` and
`track_user_login_failure_event`. The application calls them itself (the SDK)
or the tracer does so for it (automated). Both write tags of the root span, the
SDK over what is there and the automated calls only where nothing is.

`tags_after_calls` is the law for the tags after any sequence of calls.
`safe_calls_indistinguishable` says that in safe mode nothing of a sensitive id
or of the metadata leaves an automated call.
-/

namespace DdAppsec.Extension

open Lib

/-! ## Sensitive ids -/

def isDigitByte (c : UInt8) : Bool := 0x30 ≤ c && c ≤ 0x39

def isHexByte (c : UInt8) : Bool := isDigitByte c || (0x61 ≤ c && c ≤ 0x66)

/-- `^…$` of PCRE: the dollar sign also matches before a newline at the end. -/
def matchWhole (body : Bytes → Bool) (subject : Bytes) : Bool :=
  body subject || (subject.getLast? = some 0x0a && body subject.dropLast)

/-- `_uuid_zstr`. -/
def matchUuid : Bytes → Bool :=
  matchWhole fun s =>
    let groups : Bytes := "xxxxxxxx-xxxx-xxxx-xxxx-xxxxxxxxxxxx"
    s.length = groups.length &&
      (s.zip groups).all fun (c, group) => if group = 0x2d then c = 0x2d else isHexByte c

/-- `_id_zstr`. -/
def matchId : Bytes → Bool := matchWhole fun s => s ≠ [] && s.all isDigitByte

/-- `is_user_id_sensitive`. -/
def isUserIdSensitive (userId : Bytes) : Bool := !(matchUuid userId || matchId userId)

/-! ## Tags -/

def tagUserId : Bytes := "usr.id"
def signupEvent : Bytes := "appsec.events.users.signup"
def loginSuccessEvent : Bytes := "appsec.events.users.login.success"
def loginFailureEvent : Bytes := "appsec.events.users.login.failure"

abbrev Tags := StringMap Zval

/-- `_add_new_zstr_to_meta`. -/
def addNewZstrToMeta (tags : Tags) (key value : Bytes) (override : Bool) : Tags :=
  if override then tags.insert key (.string value) else tags.insertIfNew key (.string value)

/-- `_add_custom_event_keyval`. -/
def addCustomEventKeyval (tags : Tags) (event key value : Bytes) (override : Bool) : Tags :=
  addNewZstrToMeta tags (event ++ 0x2e :: key) value override

/-- `_add_custom_event_metadata`: entries with a string for key and value. -/
def addCustomEventMetadata (tags : Tags) (event : Bytes) (metadata : Option HashTable)
    (override : Bool) : Tags :=
  match metadata with
  | none => tags
  | some table =>
    table.foldl (fun tags entry =>
      match entry with
      | (.str key, .string value) => addCustomEventKeyval tags event key value override
      | _ => tags) tags

/-! ## Calls -/

inductive TrackingMode where
  | notEnabled | safe | extended
  deriving DecidableEq, Repr

/-- `_mode_cstr`, which is set along with the mode. -/
def TrackingMode.cstr : TrackingMode → Option Bytes
  | .notEnabled => none
  | .safe => some "safe"
  | .extended => some "extended"

/-- The parameters of a call. -/
structure TrackArgs where
  userId : Bytes
  metadata : Option HashTable
  automated : Bool

/-- What the helper answers to a `request_exec`. -/
structure Answer where
  result : DdResult
  forceKeep : Bool

/-- What a call finds: `enabled` for `DDAPPSEC_G(enabled) == ENABLED`, the mode,
whether the root span has its `meta` and the helper a connection, the helper's
answer, and whether an abort ends the request (it does, but for a request that
is shutting down). -/
structure TrackEnv where
  enabled : Bool
  mode : TrackingMode
  hasMeta : Bool
  connected : Bool
  answer : Zval → Answer
  abortEnds : Bool

/-- What a call can leave behind: the tags, the sampling decision, the id kept
for the end of the request, and the data sent to the helper. -/
structure Tracked where
  tags : Tags
  forceKeep : Bool
  eventUserId : Option Bytes
  sent : List Zval

inductive Ending where
  | returned | aborted
  deriving DecidableEq, Repr

/-- `dd_find_and_apply_verdict_for_user`, where appsec is enabled. -/
def findAndApplyVerdictForUser (env : TrackEnv) (userId : Bytes) (s : Tracked) :
    Tracked × Ending :=
  if userId = [] then (s, .returned)
  else if !env.connected then (s, .returned)
  else
    let data := Zval.array [(.str tagUserId, .string userId)]
    let answer := env.answer data
    let s := { s with
      sent := s.sent ++ [data]
      forceKeep := s.forceKeep || answer.forceKeep
      eventUserId := some userId }
    if (answer.result = .shouldBlock ∨ answer.result = .shouldRedirect) ∧ env.abortEnds then
      (s, .aborted)
    else (s, .returned)

/-- The beginning of an automated call: the id and the metadata that it goes
on with, `none` where it returns. -/
def automatedArgs (mode : TrackingMode) (args : TrackArgs) :
    Option (Option Bytes × Option HashTable) :=
  match mode with
  | .notEnabled => none
  | .safe =>
    let userId := if isUserIdSensitive args.userId then none else some args.userId
    let metadata := args.metadata.bind fun table => if 0 < table.length then none else some table
    some (userId, metadata)
  | .extended => some (some args.userId, args.metadata)

/-- The beginning of a call of the SDK, where an empty id is refused. -/
def sdkArgs (args : TrackArgs) : Option (Option Bytes × Option HashTable) :=
  if args.userId = [] then none else some (some args.userId, args.metadata)

/-- `if (user_id && ZSTR_LEN(user_id) > 0)`. -/
def addUserId (tags : Tags) (key : Bytes) (userId : Option Bytes) (override : Bool) : Tags :=
  match userId with
  | some id => if id = [] then tags else addNewZstrToMeta tags key id override
  | none => tags

/-- The tag that says who made the call. -/
def addOrigin (tags : Tags) (event : Bytes) (mode : TrackingMode) (automated override : Bool) :
    Tags :=
  if automated then
    match mode.cstr with
    | some cstr => addNewZstrToMeta tags (("_dd." : Bytes) ++ event ++ ".auto.mode") cstr override
    | none => tags
  else addNewZstrToMeta tags (("_dd." : Bytes) ++ event ++ ".sdk") "true" override

/-- `track_user_signup_event`. -/
def trackUserSignupEvent (env : TrackEnv) (args : TrackArgs) (s : Tracked) : Tracked × Ending :=
  if !env.enabled then (s, .returned)
  else
    match if args.automated then automatedArgs env.mode args else sdkArgs args with
    | none => (s, .returned)
    | some (userId, metadata) =>
      if !env.hasMeta then (s, .returned)
      else
        let override := !args.automated
        let tags := addUserId s.tags tagUserId userId override
        let tags := addOrigin tags signupEvent env.mode args.automated override
        let tags := addCustomEventMetadata tags signupEvent metadata override
        let tags := addCustomEventKeyval tags signupEvent "track" "true" override
        ({ s with tags := tags, forceKeep := true }, .returned)

/-- `track_user_login_success_event`. -/
def trackUserLoginSuccessEvent (env : TrackEnv) (args : TrackArgs) (s : Tracked) :
    Tracked × Ending :=
  if !env.enabled then (s, .returned)
  else
    match if args.automated then automatedArgs env.mode args else sdkArgs args with
    | none => (s, .returned)
    | some (userId, metadata) =>
      if !env.hasMeta then (s, .returned)
      else
        match (match userId with
          | some id => findAndApplyVerdictForUser env id s
          | none => (s, .returned)) with
        | (s, .aborted) => (s, .aborted)
        | (s, .returned) =>
          let override := !args.automated
          let tags := addUserId s.tags tagUserId userId override
          let tags := addOrigin tags loginSuccessEvent env.mode args.automated override
          let tags := addCustomEventKeyval tags loginSuccessEvent "track" "true" override
          let tags := addCustomEventMetadata tags loginSuccessEvent metadata override
          ({ s with tags := tags, forceKeep := true }, .returned)

/-- `track_user_login_failure_event`. An empty id is not refused here. -/
def trackUserLoginFailureEvent (env : TrackEnv) (args : TrackArgs) (userExists : Bool)
    (s : Tracked) : Tracked × Ending :=
  if !env.enabled then (s, .returned)
  else
    match if args.automated then automatedArgs env.mode args
      else some (some args.userId, args.metadata) with
    | none => (s, .returned)
    | some (userId, metadata) =>
      if !env.hasMeta then (s, .returned)
      else
        let override := !args.automated
        let tags := addUserId s.tags (loginFailureEvent ++ 0x2e :: tagUserId) userId override
        let tags := addCustomEventKeyval tags loginFailureEvent "track" "true" override
        let tags := addOrigin tags loginFailureEvent env.mode args.automated override
        let tags := addCustomEventKeyval tags loginFailureEvent "usr.exists"
          (if userExists then "true" else "false") override
        let tags := addCustomEventMetadata tags loginFailureEvent metadata override
        ({ s with tags := tags, forceKeep := true }, .returned)

inductive Tracker where
  | signup | loginSuccess
  | loginFailure (userExists : Bool)

/-- A call whose parameters could be parsed; any other returns at once. -/
structure TrackCall where
  env : TrackEnv
  tracker : Tracker
  args : TrackArgs

def TrackCall.track (c : TrackCall) (s : Tracked) : Tracked × Ending :=
  match c.tracker with
  | .signup => trackUserSignupEvent c.env c.args s
  | .loginSuccess => trackUserLoginSuccessEvent c.env c.args s
  | .loginFailure userExists => trackUserLoginFailureEvent c.env c.args userExists s

/-- The calls of one request, in any order; nothing follows an abort. -/
def runCalls : List TrackCall → Tracked → Tracked
  | [], s => s
  | c :: rest, s =>
    match c.track s with
    | (s, .returned) => runCalls rest s
    | (s, .aborted) => s

/-! ## What a call writes -/

def userIdEntries (key : Bytes) : Option Bytes → List (Bytes × Zval)
  | some id => if id = [] then [] else [(key, .string id)]
  | none => []

def originEntries (event : Bytes) (mode : TrackingMode) (automated : Bool) :
    List (Bytes × Zval) :=
  if automated then
    match mode.cstr with
    | some cstr => [(("_dd." : Bytes) ++ event ++ ".auto.mode", .string cstr)]
    | none => []
  else [(("_dd." : Bytes) ++ event ++ ".sdk", .string "true")]

def keyvalEntry (event key value : Bytes) : Bytes × Zval := (event ++ 0x2e :: key, .string value)

def metadataEntries (event : Bytes) : Option HashTable → List (Bytes × Zval)
  | none => []
  | some table => table.filterMap fun entry =>
    match entry with
    | (.str key, .string value) => some (keyvalEntry event key value)
    | _ => none

/-- The tags that a tracker writes, in the order in which it writes them. -/
def Tracker.entries (tracker : Tracker) (mode : TrackingMode) (automated : Bool)
    (userId : Option Bytes) (metadata : Option HashTable) : List (Bytes × Zval) :=
  match tracker with
  | .signup =>
    userIdEntries tagUserId userId ++ originEntries signupEvent mode automated ++
      metadataEntries signupEvent metadata ++ [keyvalEntry signupEvent "track" "true"]
  | .loginSuccess =>
    userIdEntries tagUserId userId ++ originEntries loginSuccessEvent mode automated ++
      [keyvalEntry loginSuccessEvent "track" "true"] ++
      metadataEntries loginSuccessEvent metadata
  | .loginFailure userExists =>
    userIdEntries (loginFailureEvent ++ 0x2e :: tagUserId) userId ++
      [keyvalEntry loginFailureEvent "track" "true"] ++
      originEntries loginFailureEvent mode automated ++
      [keyvalEntry loginFailureEvent "usr.exists" (if userExists then "true" else "false")] ++
      metadataEntries loginFailureEvent metadata

/-- The id and the metadata that a call goes on with, if it writes at all. -/
def TrackCall.accepted (c : TrackCall) : Option (Option Bytes × Option HashTable) :=
  if c.env.enabled && c.env.hasMeta then
    if c.args.automated then automatedArgs c.env.mode c.args
    else
      match c.tracker with
      | .signup | .loginSuccess => sdkArgs c.args
      | .loginFailure _ => some (some c.args.userId, c.args.metadata)
  else none

/-- The helper blocks the user, and the request ends. -/
def TrackEnv.blocks (env : TrackEnv) (userId : Bytes) : Bool :=
  let answer := env.answer (.array [(.str tagUserId, .string userId)])
  userId ≠ [] && env.connected && env.abortEnds &&
    (answer.result = .shouldBlock ∨ answer.result = .shouldRedirect)

/-- Only a login that succeeds is looked up. -/
def TrackCall.aborts (c : TrackCall) : Bool :=
  match c.tracker, c.accepted with
  | .loginSuccess, some (some userId, _) => c.env.blocks userId
  | _, _ => false

def TrackCall.entries (c : TrackCall) : List (Bytes × Zval) :=
  match c.accepted with
  | none => []
  | some (userId, metadata) =>
    if c.aborts then [] else c.tracker.entries c.env.mode c.args.automated userId metadata

/-- The calls that are made before the request ends. -/
def performed (calls : List TrackCall) : List TrackCall := calls.takeWhile fun c => !c.aborts

/-- The writes of the SDK, and those of automated calls. -/
def sdkEntries (calls : List TrackCall) : List (Bytes × Zval) :=
  ((performed calls).filter fun c => !c.args.automated).flatMap TrackCall.entries

def automatedEntries (calls : List TrackCall) : List (Bytes × Zval) :=
  ((performed calls).filter fun c => c.args.automated).flatMap TrackCall.entries

/-! ## A call is its writes -/

section Writes

variable (tags : Tags) (override : Bool)

theorem addUserId_eq (key : Bytes) (userId : Option Bytes) :
    addUserId tags key userId override =
      (writesWith override (userIdEntries key userId)).foldl Write.apply tags := by
  cases userId with
  | none => rfl
  | some id =>
    rw [addUserId, userIdEntries]
    split <;> rfl

theorem addOrigin_eq (event : Bytes) (mode : TrackingMode) (automated : Bool) :
    addOrigin tags event mode automated override =
      (writesWith override (originEntries event mode automated)).foldl Write.apply tags := by
  cases automated with
  | false => rfl
  | true => cases mode <;> rfl

theorem addCustomEventKeyval_eq (event key value : Bytes) :
    addCustomEventKeyval tags event key value override =
      (writesWith override [keyvalEntry event key value]).foldl Write.apply tags := by
  rw [writesWith, List.map_singleton, List.foldl_cons, List.foldl_nil]
  rfl

theorem addCustomEventMetadata_eq (event : Bytes) (metadata : Option HashTable) :
    addCustomEventMetadata tags event metadata override =
      (writesWith override (metadataEntries event metadata)).foldl Write.apply tags := by
  cases metadata with
  | none => rfl
  | some table =>
    rw [addCustomEventMetadata, metadataEntries]
    induction table generalizing tags with
    | nil => rfl
    | cons entry table ih =>
      rw [List.foldl_cons, ih, List.filterMap_cons]
      match entry with
      | (.str key, .string value) => rfl
      | (.int _, _) => rfl
      | (.str _, .undef) | (.str _, .null) | (.str _, .boolean _) | (.str _, .long _)
      | (.str _, .double _) | (.str _, .array _) | (.str _, .reference _) | (.str _, .other) => rfl

end Writes

theorem findAndApplyVerdictForUser_tags (env : TrackEnv) (userId : Bytes) (s : Tracked) :
    (findAndApplyVerdictForUser env userId s).1.tags = s.tags := by
  unfold findAndApplyVerdictForUser
  split
  · rfl
  · split
    · rfl
    · dsimp only
      split <;> rfl

theorem findAndApplyVerdictForUser_ending (env : TrackEnv) (userId : Bytes) (s : Tracked) :
    (findAndApplyVerdictForUser env userId s).2 =
      if env.blocks userId then .aborted else .returned := by
  unfold findAndApplyVerdictForUser TrackEnv.blocks
  by_cases hempty : userId = []
  · simp [hempty]
  · cases hconnected : env.connected with
    | false => simp [hempty]
    | true =>
      cases habort : env.abortEnds with
      | false => simp [hempty]
      | true =>
        simp only [hempty, if_false, Bool.not_true, Bool.false_eq_true, and_true]
        split <;> simp_all

/-- The state after the helper was asked, which only a login that succeeds
does. -/
def TrackCall.lookup (c : TrackCall) (userId : Option Bytes) (s : Tracked) : Tracked :=
  match c.tracker, userId with
  | .loginSuccess, some id => (findAndApplyVerdictForUser c.env id s).1
  | _, _ => s

theorem TrackCall.lookup_tags (c : TrackCall) (userId : Option Bytes) (s : Tracked) :
    (c.lookup userId s).tags = s.tags := by
  unfold TrackCall.lookup
  split
  · exact findAndApplyVerdictForUser_tags ..
  · rfl

/-- What a call makes of the arguments that it goes on with. -/
def TrackCall.finish (c : TrackCall) (userId : Option Bytes) (metadata : Option HashTable)
    (s : Tracked) : Tracked × Ending :=
  if c.aborts then (c.lookup userId s, .aborted)
  else
    let entries := c.tracker.entries c.env.mode c.args.automated userId metadata
    ({ c.lookup userId s with
        tags := (writesWith (!c.args.automated) entries).foldl Write.apply s.tags
        forceKeep := true }, .returned)

section Equations

variable (env : TrackEnv) (args : TrackArgs) (s : Tracked)

theorem trackUserSignupEvent_eq :
    trackUserSignupEvent env args s =
      match (TrackCall.mk env .signup args).accepted with
      | none => (s, .returned)
      | some (userId, metadata) => (TrackCall.mk env .signup args).finish userId metadata s := by
  unfold trackUserSignupEvent TrackCall.accepted
  dsimp only
  generalize (if args.automated then automatedArgs env.mode args else sdkArgs args) = start
  cases env.enabled with
  | false => rfl
  | true =>
    cases start with
    | none => cases env.hasMeta <;> rfl
    | some pair =>
      cases env.hasMeta with
      | false => rfl
      | true =>
        simp only [addUserId_eq, addOrigin_eq, addCustomEventMetadata_eq, addCustomEventKeyval_eq,
          foldl_writesWith_append]
        rfl

theorem trackUserLoginFailureEvent_eq (userExists : Bool) :
    trackUserLoginFailureEvent env args userExists s =
      match (TrackCall.mk env (.loginFailure userExists) args).accepted with
      | none => (s, .returned)
      | some (userId, metadata) =>
        (TrackCall.mk env (.loginFailure userExists) args).finish userId metadata s := by
  unfold trackUserLoginFailureEvent TrackCall.accepted
  dsimp only
  generalize (if args.automated then automatedArgs env.mode args
    else some (some args.userId, args.metadata)) = start
  cases env.enabled with
  | false => rfl
  | true =>
    cases start with
    | none => cases env.hasMeta <;> rfl
    | some pair =>
      cases env.hasMeta with
      | false => rfl
      | true =>
        simp only [addUserId_eq, addOrigin_eq, addCustomEventMetadata_eq, addCustomEventKeyval_eq,
          foldl_writesWith_append]
        rfl

/-- The end of a login that succeeds, after the helper has been asked. -/
theorem TrackCall.finish_loginSuccess {userId : Option Bytes} {metadata : Option HashTable}
    (h : (TrackCall.mk env .loginSuccess args).accepted = some (userId, metadata)) :
    (TrackCall.mk env .loginSuccess args).finish userId metadata s =
      match (match userId with
        | some id => findAndApplyVerdictForUser env id s
        | none => (s, .returned)) with
      | (s', .aborted) => (s', .aborted)
      | (s', .returned) =>
        ({ s' with
            tags := (writesWith (!args.automated)
              (Tracker.loginSuccess.entries env.mode args.automated userId metadata)).foldl
                Write.apply s'.tags
            forceKeep := true }, .returned) := by
  unfold TrackCall.finish TrackCall.aborts TrackCall.lookup
  simp only [h]
  cases userId with
  | none => rfl
  | some id =>
    have hending := findAndApplyVerdictForUser_ending env id s
    have htags := findAndApplyVerdictForUser_tags env id s
    dsimp only
    generalize findAndApplyVerdictForUser env id s = looked at hending htags
    obtain ⟨s', ending⟩ := looked
    dsimp only at hending htags ⊢
    rw [hending, ← htags]
    split <;> rfl

theorem trackUserLoginSuccessEvent_eq :
    trackUserLoginSuccessEvent env args s =
      match (TrackCall.mk env .loginSuccess args).accepted with
      | none => (s, .returned)
      | some (userId, metadata) =>
        (TrackCall.mk env .loginSuccess args).finish userId metadata s := by
  have haccepted : (TrackCall.mk env .loginSuccess args).accepted =
      if env.enabled && env.hasMeta then
        if args.automated then automatedArgs env.mode args else sdkArgs args
      else none := rfl
  unfold trackUserLoginSuccessEvent
  generalize (if args.automated then automatedArgs env.mode args else sdkArgs args) = start
    at haccepted
  cases henabled : env.enabled with
  | false =>
    rw [haccepted, henabled]
    rfl
  | true =>
    cases start with
    | none =>
      rw [ite_self] at haccepted
      rw [haccepted]
      rfl
    | some pair =>
      cases hmeta : env.hasMeta with
      | false =>
        rw [haccepted, henabled, hmeta]
        rfl
      | true =>
        rw [henabled, hmeta] at haccepted
        rw [haccepted]
        refine Eq.trans ?_ (TrackCall.finish_loginSuccess env args s haccepted).symm
        simp only [addUserId_eq, addOrigin_eq, addCustomEventMetadata_eq, addCustomEventKeyval_eq,
          foldl_writesWith_append]
        rfl

end Equations

/-- **A call is its writes**, after the arguments have been looked at. -/
theorem TrackCall.track_eq (c : TrackCall) (s : Tracked) :
    c.track s =
      match c.accepted with
      | none => (s, .returned)
      | some (userId, metadata) => c.finish userId metadata s := by
  obtain ⟨env, tracker, args⟩ := c
  cases tracker with
  | signup => exact trackUserSignupEvent_eq env args s
  | loginSuccess => exact trackUserLoginSuccessEvent_eq env args s
  | loginFailure userExists => exact trackUserLoginFailureEvent_eq env args s userExists

/-! ## The tags after any sequence of calls -/

/-- The writes of one call, with the flag that its origin gives them. -/
def TrackCall.writes (c : TrackCall) : List (Write Zval) :=
  writesWith (!c.args.automated) c.entries

theorem TrackCall.track_spec (c : TrackCall) (s : Tracked) :
    (c.track s).1.tags = c.writes.foldl Write.apply s.tags ∧
      (c.track s).2 = if c.aborts then .aborted else .returned := by
  rw [TrackCall.track_eq, TrackCall.writes, TrackCall.entries]
  cases haccepted : c.accepted with
  | none =>
    have haborts : c.aborts = false := by
      unfold TrackCall.aborts
      rw [haccepted]
      cases c.tracker <;> rfl
    rw [haborts]
    exact ⟨rfl, rfl⟩
  | some pair =>
    obtain ⟨userId, metadata⟩ := pair
    dsimp only
    rw [TrackCall.finish]
    cases c.aborts with
    | true => exact ⟨c.lookup_tags userId s, rfl⟩
    | false => exact ⟨rfl, rfl⟩

/-- A call that aborts has written nothing. -/
theorem TrackCall.writes_of_aborts {c : TrackCall} (h : c.aborts = true) : c.writes = [] := by
  rw [TrackCall.writes, TrackCall.entries]
  split
  · rfl
  · rw [h]
    rfl

/-- **Run lemma**: the writes of all calls that are made, one after the other. -/
theorem runCalls_tags (calls : List TrackCall) (s : Tracked) :
    (runCalls calls s).tags =
      ((performed calls).flatMap TrackCall.writes).foldl Write.apply s.tags := by
  induction calls generalizing s with
  | nil => rfl
  | cons c calls ih =>
    obtain ⟨htags, hending⟩ := c.track_spec s
    unfold runCalls
    generalize c.track s = result at htags hending
    obtain ⟨s', ending⟩ := result
    dsimp only at htags hending
    cases haborts : c.aborts with
    | true =>
      rw [haborts] at hending
      cases hending
      rw [performed, List.takeWhile_cons_of_neg (by simp [haborts])]
      rw [c.writes_of_aborts haborts] at htags
      exact htags
    | false =>
      rw [haborts] at hending
      cases hending
      rw [performed, List.takeWhile_cons_of_pos (by simp [haborts]), List.flatMap_cons,
        List.foldl_append, ← htags]
      exact ih s'

theorem overriding_flatMap (calls : List TrackCall) :
    overriding (calls.flatMap TrackCall.writes) =
      (calls.filter fun c => !c.args.automated).flatMap TrackCall.entries := by
  induction calls with
  | nil => rfl
  | cons c calls ih =>
    rw [List.flatMap_cons, overriding_append, ih, TrackCall.writes, overriding_writesWith]
    cases hautomated : c.args.automated <;> simp [hautomated]

theorem yielding_flatMap (calls : List TrackCall) :
    yielding (calls.flatMap TrackCall.writes) =
      (calls.filter fun c => c.args.automated).flatMap TrackCall.entries := by
  induction calls with
  | nil => rfl
  | cons c calls ih =>
    rw [List.flatMap_cons, yielding_append, ih, TrackCall.writes, yielding_writesWith]
    cases hautomated : c.args.automated <;> simp [hautomated]

/-- **The priority of tags.** After any sequence of calls a tag has the value
of the last SDK write to it; else the value from before, if there was one; else
the value of the first automated write. A tag that nothing wrote is as it was. -/
theorem tags_after_calls (calls : List TrackCall) (s : Tracked) (key : Bytes) :
    (runCalls calls s).tags[key]? =
      (lastValue key (sdkEntries calls)).or
        (s.tags[key]?.or (firstValue key (automatedEntries calls))) := by
  rw [runCalls_tags, getElem?_foldl_apply, overriding_flatMap, yielding_flatMap]
  rfl

/-! ## Safe mode -/

/-- What is left of the arguments in safe mode. -/
theorem automatedArgs_safe {args : TrackArgs} (h : isUserIdSensitive args.userId = true) :
    ∃ metadata, automatedArgs .safe args = some (none, metadata) ∧
      ∀ event, metadataEntries event metadata = [] := by
  rw [automatedArgs, if_pos h]
  cases args.metadata with
  | none => exact ⟨none, rfl, fun _ => rfl⟩
  | some table =>
    cases table with
    | nil => exact ⟨some [], rfl, fun _ => rfl⟩
    | cons entry table => exact ⟨none, rfl, fun _ => rfl⟩

theorem Tracker.entries_of_empty (tracker : Tracker) (mode : TrackingMode) (automated : Bool)
    {metadata : Option HashTable} (h : ∀ event, metadataEntries event metadata = []) :
    tracker.entries mode automated none metadata = tracker.entries mode automated none none := by
  cases tracker <;> simp only [Tracker.entries, h] <;> rfl

/-- An automated call with a sensitive id is a call without id and metadata. -/
theorem track_safe {env : TrackEnv} (hmode : env.mode = .safe) (tracker : Tracker)
    {args : TrackArgs} (hautomated : args.automated = true)
    (hsensitive : isUserIdSensitive args.userId = true) (s : Tracked) :
    (TrackCall.mk env tracker args).track s =
      if env.enabled && env.hasMeta then
        ({ s with
            tags := (writesWith false (tracker.entries .safe true none none)).foldl
              Write.apply s.tags
            forceKeep := true }, .returned)
      else (s, .returned) := by
  obtain ⟨metadata, hargs, hmetadata⟩ := automatedArgs_safe hsensitive
  have haccepted : (TrackCall.mk env tracker args).accepted =
      if env.enabled && env.hasMeta then some (none, metadata) else none := by
    unfold TrackCall.accepted
    dsimp only
    rw [hautomated, hmode, hargs]
    rfl
  have haborts : (TrackCall.mk env tracker args).aborts = false := by
    unfold TrackCall.aborts
    rw [haccepted]
    cases tracker <;> cases (env.enabled && env.hasMeta) <;> rfl
  have hlookup : (TrackCall.mk env tracker args).lookup none s = s := by
    cases tracker <;> rfl
  rw [TrackCall.track_eq, haccepted]
  cases env.enabled && env.hasMeta with
  | false => rfl
  | true =>
    simp only [if_true]
    rw [TrackCall.finish, haborts, hlookup]
    dsimp only
    rw [hautomated, hmode, tracker.entries_of_empty .safe true hmetadata]
    rfl

/-- **Nothing of a sensitive id or of the metadata can be observed**: two
automated calls of one function leave the same tags, the same sampling decision
and the same messages to the helper. -/
theorem safe_calls_indistinguishable {env : TrackEnv} (hmode : env.mode = .safe)
    (tracker : Tracker) {args args' : TrackArgs}
    (hautomated : args.automated = true) (hautomated' : args'.automated = true)
    (hid : matchUuid args.userId = false ∧ matchId args.userId = false)
    (hid' : matchUuid args'.userId = false ∧ matchId args'.userId = false) (s : Tracked) :
    (TrackCall.mk env tracker args).track s = (TrackCall.mk env tracker args').track s := by
  have hsensitive : isUserIdSensitive args.userId = true := by
    rw [isUserIdSensitive, hid.1, hid.2]
    rfl
  have hsensitive' : isUserIdSensitive args'.userId = true := by
    rw [isUserIdSensitive, hid'.1, hid'.2]
    rfl
  rw [track_safe hmode tracker hautomated hsensitive,
    track_safe hmode tracker hautomated' hsensitive']

/-- A connected worker in safe mode whose helper would block everybody. -/
def blockingEnv : TrackEnv where
  enabled := true
  mode := .safe
  hasMeta := true
  connected := true
  answer := fun _ => ⟨.shouldBlock, true⟩
  abortEnds := true

def Tracked.fresh : Tracked := ⟨∅, false, none, []⟩

/-- A mail address with metadata, and a name without. -/
theorem address_and_name_indistinguishable :
    (TrackCall.mk blockingEnv .loginSuccess
        ⟨"alice@example.com", some [(.str "role", .string "admin")], true⟩).track .fresh =
      (TrackCall.mk blockingEnv .loginSuccess ⟨"bob", none, true⟩).track .fresh :=
  safe_calls_indistinguishable rfl .loginSuccess rfl rfl (by decide) (by decide) .fresh

end DdAppsec.Extension
