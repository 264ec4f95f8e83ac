import DdAppsec.Extension.Credentials
import DdAppsec.Extension.MsgpackHelpers
import DdAppsec.Extension.RequestInit

/-!
# Extension — commands

`_dd_command_exec` is the same for every command: the message goes out as
`[name, [arguments…]]`, and the answer is sorted by the type that stands in
front of it.
-/

namespace DdAppsec.Extension

open Lib Lib.MsgPack

variable (codec : Codec)

/-! ## The message -/

/-- `_omsg_init` and the arguments that the callback of the command appends. -/
def commandBody (name : Bytes) (args : List Bytes) : Bytes :=
  codec.write (.array 2) ++ writeStr codec name ++ codec.write (.array args.length) ++ args.flatten

/-! ## The answer -/

/-- How a reply is received: `client_init` alone is sent with
`dd_command_exec_cred`. -/
def replyRecv (owner : Owner) (cmsg : Option Cmsghdr) (name : Bytes) (d : Delivery)
    (unread : Bytes) : Except DdResult Bytes × Bytes :=
  if name = "client_init" then connRecvCred owner cmsg d unread else connRecv d unread

/-- `_dd_imsg_recv`, for what was received. The tree of mpack has no limits but
those of the format. -/
def imsgRecv (received : Except DdResult Bytes) : Except DdResult Obj :=
  match received with
  | .error res => .error res
  | .ok body =>
    -- an error response, as the comment there says
    if body.length = 1 then .error .helperError
    else
      match codec.unpack .unbounded body.length body with
      | .ok root => .ok root
      | .error _ => .error .error

/-- Where an answer goes. -/
inductive Routed where
  /-- `_dd_imsg_recv` returned a result -/
  | notReceived (res : DdResult)
  /-- not an array of arrays that begin with a string: `dd_error` -/
  | malformed
  /-- the type of another message: `dd_error` -/
  | unexpected
  | configFeaturesCb (message : Obj)
  | incomingCb (message : Obj)

/-- `_dd_command_exec` after `_dd_imsg_recv`. An element that is missing leaves
an error in the tree, so that the reading of the type fails too. -/
def routeMessage (name : Bytes) : Obj → Routed
  | .array (.array (type :: message :: _) :: _) =>
    match type with
    | .str type =>
      if type = "config_features" then .configFeaturesCb message
      else if type = name then .incomingCb message
      else .unexpected
    | _ => .malformed
  | _ => .malformed

/-- The second half of `_dd_command_exec`, up to the callbacks. -/
def commandIn (name : Bytes) (received : Except DdResult Bytes) : Routed :=
  match imsgRecv codec received with
  | .error res => .notReceived res
  | .ok root => routeMessage name root

/-! ## The commands -/

/-- The names of the commands that the extension sends. -/
def commandNames : List Bytes :=
  ["client_init", "request_init", "request_exec", "request_shutdown", "config_sync"]

/-- `dd_request_exec`: only an array is sent. -/
def requestExec : Zval → Option Bytes
  | .array entries => some (commandBody codec "request_exec" [writeZval codec (.array entries)])
  | _ => none

end DdAppsec.Extension
