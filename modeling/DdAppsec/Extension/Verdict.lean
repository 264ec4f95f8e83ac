import DdAppsec.Extension.Commands
import DdAppsec.Extension.SpanTags
import DdAppsec.Lib.Countdown
import DdAppsec.Lib.Nodes

/-!
# Extension — what a verdict leaves behind

The answers to `request_init`, `request_exec` and `request_shutdown` are read by
`commandProcRespVerdSpanData`: the verdict with the parameters of a blocking
page or a redirection, the triggers, the sampling decision, and, in the last of
the three, tags and metrics of the helper.

Nothing is checked while the message is read. What fails puts the tree into its
error state, and `_dd_command_exec` looks at that state when the callback is
done; what has been kept until then stays.
-/

namespace DdAppsec.Extension

open Lib Lib.MsgPack

/-! ## State -/

/-- The statics of `request_abort.c`. -/
structure AbortState where
  responseCode : Int
  responseType : ResponseType
  redirectionResponseCode : Int
  redirectionLocation : Option Bytes

/-- What a verdict can change. -/
structure VerdictState where
  tags : TagState
  span : RootSpan
  abort : AbortState

/-- `dd_set_block_code_and_type`. -/
def AbortState.setBlockCodeAndType (a : AbortState) (code : Int) (type : ResponseType) :
    AbortState :=
  { a with responseCode := code, responseType := type }

def defaultBlockingResponseCode : Int := 403
def defaultRedirectionResponseCode : Int := 303

/-- `dd_set_redirect_code_and_location`. -/
def AbortState.setRedirectCodeAndLocation (a : AbortState) (code : Int)
    (location : Option Bytes) : AbortState :=
  { a with
    redirectionResponseCode :=
      if 300 ≤ code ∧ code < 400 then code else defaultRedirectionResponseCode
    redirectionLocation := location }

/-! ## Parameters -/

/-- `isspace`. -/
def isSpaceByte (c : UInt8) : Bool := c = 0x20 || (0x09 ≤ c && c ≤ 0x0d)

/-- The number that the leading digits are. -/
def leadingDigits (s : Bytes) : Nat :=
  (s.takeWhile isDigitByte).foldl (fun n c => 10 * n + (c.toNat - 0x30)) 0

/-- `strtol` with base 10, of a text too short for an overflow. -/
def strtol (s : Bytes) : Int :=
  match s.dropWhile isSpaceByte with
  | 0x2d :: digits => -(leadingDigits digits : Int)
  | 0x2b :: digits => leadingDigits digits
  | digits => leadingDigits digits

/-- The local variables of `_command_process_block_parameters`. -/
structure BlockParameters where
  statusCode : Int
  type : ResponseType
  deriving DecidableEq

/-- One turn of its loop; `none` where `expected_nodes` stays as it is. -/
def blockParameter (p : BlockParameters) : Obj × Obj → Option BlockParameters
  | (.str key, .str value) =>
    if key = "status_code" then
      if value.length ≠ 3 then none
      else
        let parsed := strtol value
        some (if 99 < parsed ∧ parsed < 1000 then { p with statusCode := parsed } else p)
    else if key = "type" then
      if value = "json" then some { p with type := .json }
      else if value = "html" then some { p with type := .html }
      else if value = "auto" then some { p with type := .auto }
      else none
    else none
  | _ => none

/-- `_command_process_block_parameters`, with the entries of the map. -/
def blockParameters (entries : List (Obj × Obj)) : BlockParameters :=
  countdown blockParameter 2 ⟨defaultBlockingResponseCode, .auto⟩ entries

/-- The local variables of `_command_process_redirect_parameters`. -/
structure RedirectParameters where
  statusCode : Int
  location : Option Bytes
  deriving DecidableEq

/-- One turn of its loop. Here every number is taken. -/
def redirectParameter (p : RedirectParameters) : Obj × Obj → Option RedirectParameters
  | (.str key, .str value) =>
    if key = "status_code" then
      if value.length ≠ 3 then none else some { p with statusCode := strtol value }
    else if key = "location" then some { p with location := some value }
    else none
  | _ => none

/-- `_command_process_redirect_parameters`, with the entries of the map. -/
def redirectParameters (entries : List (Obj × Obj)) : RedirectParameters :=
  countdown redirectParameter 2 ⟨0, none⟩ entries

def AbortState.block (a : AbortState) (entries : List (Obj × Obj)) : AbortState :=
  a.setBlockCodeAndType (blockParameters entries).statusCode (blockParameters entries).type

def AbortState.redirect (a : AbortState) (entries : List (Obj × Obj)) : AbortState :=
  a.setRedirectCodeAndLocation (redirectParameters entries).statusCode
    (redirectParameters entries).location

/-! ## Triggers -/

/-- `DD_TAG_DATA_MAX_LEN`. -/
def tagDataMaxLen : Nat := 1024 * 1024

/-- A trigger that `_add_appsec_span_data_frag` keeps. -/
def keptFrag (data : Bytes) : Bool :=
  data ≠ [] && data.head? ≠ some 0 && decide (data.length < tagDataMaxLen)

/-- `_add_appsec_span_data_frag`. -/
def TagState.addAppsecSpanDataFrag (t : TagState) (data : Bytes) : TagState :=
  if keptFrag data then { t with appsecJsonFrags := t.appsecJsonFrags ++ [data] } else t

/-- The loop of `_set_appsec_span_data`: the data of a node that is no string
fails, and with it the count of the nodes. -/
def TagState.setAppsecSpanData (t : TagState) : List Obj → TagState × Bool
  | [] => (t, false)
  | .str data :: frags => (t.addAppsecSpanDataFrag data).setAppsecSpanData frags
  | _ :: _ => (t, true)

/-! ## Tags and metrics of the helper -/

/-- The loop of `dd_command_process_meta`, which ends with the first tag that
cannot be added. -/
def RootSpan.addMetaEntries (r : RootSpan) : List (Obj × Obj) → RootSpan
  | [] => r
  | (.str key, .str value) :: entries =>
    match r.addTagStr (key.take maxTagValueLen) value with
    | (true, r) => r.addMetaEntries entries
    | (false, r) => r
  | _ :: _ => r

/-- `dd_command_process_meta`. -/
def RootSpan.commandProcessMeta (r : RootSpan) : Obj → RootSpan
  | .map entries => r.addMetaEntries entries
  | _ => r

/-- The number of a metric, if it is one: a `double`, or an `int` or an
`unsigned int` by its sign. `none` inside is a number out of range, which fails
and reads as zero. -/
def metricNumber : Obj → Option (Option Zval)
  | .double bits => some (some (.double bits))
  | .int n => some (if -2 ^ 31 ≤ n ∧ n < 2 ^ 32 then some (.long (.ofInt n)) else none)
  | _ => none

/-- The loop of `dd_command_process_metrics`. After a number out of range the
key reads as the empty string. -/
def addMetricEntries (metrics : Tags) : List (Obj × Obj) → Tags × Bool
  | [] => (metrics, false)
  | (.str key, value) :: entries =>
    match metricNumber value with
    | none => (metrics, false)
    | some none => (metrics.insertIfNew [] (.long 0), true)
    | some (some number) =>
      let key := key.take maxTagValueLen
      if metrics[key]?.isSome then (metrics, false)
      else addMetricEntries (metrics.insert key number) entries
  | _ :: _ => (metrics, false)

/-- `dd_command_process_metrics`. -/
def RootSpan.commandProcessMetrics (r : RootSpan) (o : Obj) : RootSpan × Bool :=
  match r.metrics, o with
  | some metrics, .map entries =>
    let (metrics, failed) := addMetricEntries metrics entries
    ({ r with metrics := some metrics }, failed)
  | _, _ => (r, false)

/-! ## The callback -/

/-- The action: its parameters, and the flag of `dd_tags_add_blocked`. -/
def VerdictState.applyAction (s : VerdictState) (root verdict : Obj) (failed : Bool) :
    DdResult × VerdictState × Bool :=
  let blocked := { s.tags with blocked := true }
  let (isBlock, failed) := nodeStrEq verdict "block" failed
  let (isRedirect, failed) := nodeStrEq verdict "redirect" failed
  if isBlock then
    let (parameters, failed) := nodeArrayAt root 1 failed
    let (entries, failed) := nodeMapEntries parameters failed
    (.shouldBlock, { s with tags := blocked, abort := s.abort.block entries }, failed)
  else if isRedirect then
    let (parameters, failed) := nodeArrayAt root 1 failed
    let (entries, failed) := nodeMapEntries parameters failed
    (.shouldRedirect, { s with tags := blocked, abort := s.abort.redirect entries }, failed)
  else (.success, s, failed)

/-- The triggers, for an action or the verdict `record`. -/
def VerdictState.applyTriggers (s : VerdictState) (root verdict : Obj) (res : DdResult)
    (failed : Bool) : VerdictState × Bool :=
  let (isRecord, failed) := nodeStrEq verdict "record" failed
  if res = .shouldBlock ∨ res = .shouldRedirect ∨ isRecord then
    let (data, failed) := nodeArrayAt root 2 failed
    let (frags, failed) := nodeArrayItems data failed
    let (tags, more) := s.tags.setAppsecSpanData frags
    ({ s with tags := tags }, failed || more)
  else (s, failed)

/-- The sampling decision. -/
def VerdictState.applyForceKeep (s : VerdictState) (root : Obj) (failed : Bool) :
    VerdictState × Bool :=
  match nodeArrayAt root 3 failed with
  | (.boolean true, failed) => ({ s with tags := { s.tags with forceKeep := true } }, failed)
  | (_, failed) => (s, failed)

/-- Tags and metrics, in a message of six. -/
def VerdictState.applyTags (s : VerdictState) (root : Obj) (failed : Bool) :
    VerdictState × Bool :=
  let (items, failed) := nodeArrayItems root failed
  if 6 ≤ items.length then
    let (tags, failed) := nodeArrayAt root 4 failed
    let span := s.span.commandProcessMeta tags
    let (metrics, failed) := nodeArrayAt root 5 failed
    let (span, more) := span.commandProcessMetrics metrics
    ({ s with span := span }, failed || more)
  else (s, failed)

/-- `dd_command_proc_resp_verd_span_data`, with the error state at its end. -/
def VerdictState.commandProcRespVerdSpanData (s : VerdictState) (root : Obj) :
    DdResult × VerdictState × Bool :=
  let (verdict, failed) := nodeArrayAt root 0 false
  let (res, s, failed) := s.applyAction root verdict failed
  let (s, failed) := s.applyTriggers root verdict res failed
  let (s, failed) := s.applyForceKeep root failed
  let (s, failed) := s.applyTags root failed
  (res, s, failed)

/-- What `_dd_command_exec` makes of the callback. -/
def VerdictState.incoming (s : VerdictState) (root : Obj) : DdResult × VerdictState :=
  match s.commandProcRespVerdSpanData root with
  | (res, s, failed) => (if failed then .error else res, s)

end DdAppsec.Extension
