import DdAppsec.Extension.Commands
import DdAppsec.Helper.Replies

/-!
# Protocol — which answer reaches which callback

`Response` is what the helper can send to a command, packed as a vector of one
tuple (`Response.packed`). The extension tells the answers apart by the type in
front (`commandIn`), but an error by its size: it looks for a body of one byte.
No response is that short, so that the helper's error is taken for a message
that was not expected (`routed_as_meant_iff`). How long a response may be
depends on the command: the reply to `client_init` has a receiver of its own.
-/

namespace DdAppsec.Protocol

open Lib Lib.MsgPack Extension

/-! ## Responses -/

/-- `verdict`, `parameters`, `triggers`, `force_keep`. -/
structure Judgement where
  verdict : Bytes
  parameters : List (Bytes × Bytes)
  triggers : List Bytes
  forceKeep : Bool

/-- The responses of `proto.hpp`. Metrics are given by the bits of the
`double`. -/
inductive Response where
  | clientInit (status version : Bytes) (errors : List Bytes) (tags : List (Bytes × Bytes))
      (metrics : List (Bytes × UInt64))
  | requestInit (j : Judgement)
  | requestExec (j : Judgement)
  | requestShutdown (j : Judgement) (tags : List (Bytes × Bytes)) (metrics : List (Bytes × UInt64))
  | configSync
  | configFeatures (enabled : Bool)
  | error

/-- `get_type`. -/
def Response.type : Response → Bytes
  | .clientInit .. => "client_init"
  | .requestInit _ => "request_init"
  | .requestExec _ => "request_exec"
  | .requestShutdown .. => "request_shutdown"
  | .configSync => "config_sync"
  | .configFeatures _ => "config_features"
  | .error => "error"

def strings (list : List Bytes) : Obj := .array (list.map .str)

def stringMap (entries : List (Bytes × Bytes)) : Obj :=
  .map (entries.map fun e => (.str e.1, .str e.2))

section Pack

-- how msgpack-c packs a `double`
variable (packDouble : UInt64 → Obj)

def metricsMap (entries : List (Bytes × UInt64)) : Obj :=
  .map (entries.map fun e => (.str e.1, packDouble e.2))

def Judgement.fields (j : Judgement) : List Obj :=
  [.str j.verdict, stringMap j.parameters, strings j.triggers, .boolean j.forceKeep]

/-- `MSGPACK_DEFINE`: the fields as an array. -/
def Response.message : Response → Obj
  | .clientInit status version errors tags metrics =>
    .array [.str status, .str version, strings errors, stringMap tags,
      metricsMap packDouble metrics]
  | .requestInit j | .requestExec j => .array j.fields
  | .requestShutdown j tags metrics =>
    .array (j.fields ++ [stringMap tags, metricsMap packDouble metrics])
  | .configSync | .error => .array []
  | .configFeatures enabled => .array [.boolean enabled]

/-- What `broker::send` packs for one response. -/
def Response.tuples (r : Response) : Obj := .array [.array [.str r.type, r.message packDouble]]

def Response.packed (r : Response) : Bytes := (r.tuples packDouble).encode

/-- Packing does not throw: every size fits the format. -/
def Response.Sendable (r : Response) : Prop := (r.message packDouble).Valid

/-! ## What is meant -/

/-- The answers to a command: its own, the switched feature, an error. -/
def Answers (name : Bytes) (r : Response) : Prop :=
  r.type = name ∨ (∃ enabled, r = .configFeatures enabled) ∨ r = .error

/-- The callback, or the result, that the helper meant. -/
def meant (r : Response) : Routed :=
  match r with
  | .error => .notReceived .helperError
  | .configFeatures _ => .configFeaturesCb (r.message packDouble)
  | .clientInit .. | .requestInit _ | .requestExec _ | .requestShutdown .. | .configSync =>
    .incomingCb (r.message packDouble)

/-- The header, the buffer and all of the body: nothing fails on the way. -/
structure Arrives (d : Delivery) (body : Bytes) : Prop where
  header : 8 ≤ d.header
  allocated : d.allocated = true
  chunks : bodyArrives (body.length % 256 ^ 4) d.chunks = true

end Pack

/-! ## Receiving -/

/-- A frame that arrives, as the receivers look at it. The length keeps its low
32 bits. -/
theorem responseFrame_arrives {d : Delivery} {body : Bytes} (h : Arrives d body) (more : Bytes) :
    HeaderArrives d (Helper.responseFrame body ++ more) ∧
      HasMagic (Helper.responseFrame body ++ more) ∧
      announcedSize (Helper.responseFrame body ++ more) = body.length % 256 ^ 4 ∧
      (recvMessageBody d (body.length % 256 ^ 4)
          ((Helper.responseFrame body ++ more).drop 8)).1 =
        .ok (body.take (body.length % 256 ^ 4)) := by
  have hle := Nat.mod_le body.length (256 ^ 4)
  have hheader : (Helper.responseHeader body).length = 8 := by simp [Helper.responseHeader]
  have hdrop : (Helper.responseFrame body ++ more).drop 8 = body ++ more := by
    rw [Helper.responseFrame, List.append_assoc, ← hheader, List.drop_left]
  have hthere : body.length % 256 ^ 4 ≤ (body ++ more).length := by
    rw [List.length_append]
    omega
  obtain ⟨received, rest, hrecv⟩ := recvBody_arrives d.chunks [] hthere h.chunks
  obtain ⟨rfl, rfl⟩ := recvBody_some d.chunks hthere hrecv
  rw [List.nil_append, List.take_append_of_le_length hle] at hrecv
  refine ⟨⟨h.header, ?_⟩, rfl, ?_, ?_⟩
  · rw [Helper.responseFrame, List.length_append, List.length_append, hheader]
    omega
  · show natLE (bytesLE 4 body.length) = _
    rw [natLE_bytesLE]
  · rw [hdrop, recvMessageBody, h.allocated, hrecv]
    rfl

/-- What `dd_conn_recv` hands over of a frame. -/
theorem connRecv_responseFrame {d : Delivery} {body : Bytes} (h : Arrives d body) (more : Bytes) :
    (connRecv d (Helper.responseFrame body ++ more)).1 =
      if maxRecvMessageSize < body.length % 256 ^ 4 then .error .network
      else .ok (body.take (body.length % 256 ^ 4)) := by
  obtain ⟨hheader, hmagic, hsize, hbody⟩ := responseFrame_arrives h more
  rw [connRecv_result, hsize, hbody]
  by_cases hlarge : maxRecvMessageSize < body.length % 256 ^ 4
  · rw [if_pos hlarge, if_neg fun hall => Nat.not_lt_of_le hall.2.2 hlarge]
  · rw [if_neg hlarge, if_pos ⟨hheader, hmagic, Nat.le_of_not_lt hlarge⟩]

/-- `dd_conn_recv_cred` has no check of the size. -/
theorem connRecvCred_responseFrame {owner : Owner} {cmsg : Option Cmsghdr}
    (hcred : checkCredentials owner cmsg = .success) {d : Delivery} {body : Bytes}
    (h : Arrives d body) (more : Bytes) :
    (connRecvCred owner cmsg d (Helper.responseFrame body ++ more)).1 =
      .ok (body.take (body.length % 256 ^ 4)) := by
  obtain ⟨hheader, hmagic, hsize, hbody⟩ := responseFrame_arrives h more
  rw [connRecvCred_result hcred, hsize, hbody, if_pos ⟨hheader, hmagic⟩]

/-- The longest reply to a command that is received whole: the length is a
number of 32 bits, and `dd_conn_recv` has a maximum of its own. -/
def maxReplySize (name : Bytes) : Nat :=
  if name = "client_init" then 2 ^ 32 - 1 else maxRecvMessageSize

/-- A reply is received whole, or refused, or cut. -/
theorem replyRecv_responseFrame {owner : Owner} {cmsg : Option Cmsghdr} {name : Bytes}
    (hcred : name = "client_init" → checkCredentials owner cmsg = .success) {d : Delivery}
    {body : Bytes} (h : Arrives d body) (more : Bytes) :
    (body.length ≤ maxReplySize name →
      (replyRecv owner cmsg name d (Helper.responseFrame body ++ more)).1 = .ok body) ∧
    (maxReplySize name < body.length →
      (∃ res, (replyRecv owner cmsg name d (Helper.responseFrame body ++ more)).1 = .error res) ∨
        ∃ n, n < body.length ∧
          (replyRecv owner cmsg name d (Helper.responseFrame body ++ more)).1 =
            .ok (body.take n)) := by
  have hmod := Nat.mod_lt body.length (show 0 < 256 ^ 4 by decide)
  have hmax : maxRecvMessageSize < 256 ^ 4 := by decide
  rw [maxReplySize, replyRecv]
  by_cases hname : name = "client_init"
  · rw [if_pos hname, if_pos hname, connRecvCred_responseFrame (hcred hname) h]
    constructor
    · intro hsize
      rw [Nat.mod_eq_of_lt (by omega), List.take_length]
    · exact fun hsize => .inr ⟨_, by omega, rfl⟩
  · rw [if_neg hname, if_neg hname, connRecv_responseFrame h]
    constructor
    · intro hsize
      rw [Nat.mod_eq_of_lt (by omega), if_neg (Nat.not_lt_of_le hsize), List.take_length]
    · intro hsize
      split
      · exact .inl ⟨_, rfl⟩
      · next hsmall => exact .inr ⟨_, by omega, rfl⟩

section Route

variable {packDouble : UInt64 → Obj} {codec : Codec} {r : Response} {name : Bytes}

theorem Response.Sendable.tuples (h : r.Sendable packDouble) : (r.tuples packDouble).Valid := by
  have hone : (Head.array 1).Valid := by decide
  have htwo : (Head.array 2).Valid := by decide
  have htype : r.type.length < 2 ^ 32 := by
    cases r <;> simp [Response.type, Bytes.ofString]
  exact ⟨hone, ⟨htwo, htype, h, trivial⟩, trivial⟩

/-- Two heads, at least. -/
theorem Response.length_packed (r : Response) : (r.packed packDouble).length ≠ 1 := by
  have houter := Head.length_encode_pos (.array 1)
  have hinner := Head.length_encode_pos (.array 2)
  show ((Head.array 1).encode ++ ((Head.array 2).encode ++ _ ++ _)).length ≠ 1
  rw [List.length_append, List.length_append, List.length_append]
  omega

/-- A body that was received whole is sorted by its type. -/
theorem commandIn_packed (hc : codec.Conforms) (h : r.Sendable packDouble) :
    commandIn codec name (.ok (r.packed packDouble)) =
      if r.type = "config_features" then .configFeaturesCb (r.message packDouble)
      else if r.type = name then .incomingCb (r.message packDouble)
      else .unexpected := by
  have hunpack : codec.unpack .unbounded (r.packed packDouble).length (r.packed packDouble) =
      .ok (r.tuples packDouble) := by
    rw [Response.packed, hc.unpack_encode h.tuples,
      Obj.within_unbounded _ h.tuples (Nat.le_refl _)]
    rfl
  rw [commandIn, imsgRecv, if_neg r.length_packed, hunpack]
  rfl

/-- A body that was cut short reaches no callback. -/
theorem commandIn_cut (hc : codec.Conforms) (h : r.Sendable packDouble) {n : Nat}
    (hn : n < (r.packed packDouble).length) :
    ∃ res, commandIn codec name (.ok ((r.packed packDouble).take n)) = .notReceived res := by
  have hsplit := List.take_append_drop n (r.packed packDouble)
  have hmore : (r.packed packDouble).drop n ≠ [] := by
    rw [Ne, List.drop_eq_nil_iff]
    omega
  have hunpack (o : Obj) : codec.unpack .unbounded ((r.packed packDouble).take n).length
      ((r.packed packDouble).take n) ≠ .ok o :=
    hc.unpack_strict h.tuples _ hsplit hmore o
  generalize (r.packed packDouble).take n = body at hunpack
  by_cases hone : body.length = 1
  · exact ⟨.helperError, by rw [commandIn, imsgRecv, if_pos hone]⟩
  · cases hread : codec.unpack .unbounded body.length body with
    | ok o => exact absurd hread (hunpack o)
    | error e => exact ⟨.error, by rw [commandIn, imsgRecv, if_neg hone, hread]⟩

/-- Only the error is meant to be no message. -/
theorem meant_ne_notReceived (h : r ≠ .error) (res : DdResult) :
    meant packDouble r ≠ .notReceived res := by
  cases r with
  | error => exact absurd rfl h
  | _ => exact fun heq => by cases heq

/-- **An answer goes where the helper meant it to go exactly if it is not an
error** and not longer than what the command's receiver takes. -/
theorem routed_as_meant_iff (hc : codec.Conforms) (hname : name ∈ commandNames)
    (hanswer : Answers name r) (hsend : r.Sendable packDouble) {owner : Owner}
    {cmsg : Option Cmsghdr}
    (hcred : name = "client_init" → checkCredentials owner cmsg = .success) {d : Delivery}
    (harrives : Arrives d (r.packed packDouble)) (more : Bytes) :
    commandIn codec name (replyRecv owner cmsg name d
        (Helper.responseFrame (r.packed packDouble) ++ more)).1 =
      meant packDouble r ↔
    r ≠ .error ∧ (r.packed packDouble).length ≤ maxReplySize name := by
  obtain ⟨hwhole, hpart⟩ := replyRecv_responseFrame hcred harrives more
  by_cases hsize : (r.packed packDouble).length ≤ maxReplySize name
  · rw [hwhole hsize, commandIn_packed hc hsend]
    simp only [hsize, and_true]
    rcases hanswer with rfl | ⟨enabled, rfl⟩ | rfl
    · have hfeatures : r.type ≠ "config_features" := by
        rintro heq
        rw [heq] at hname
        exact absurd hname (by decide)
      have herror : r ≠ .error := by
        rintro rfl
        exact absurd hname (by decide)
      rw [if_neg hfeatures, if_pos rfl]
      refine iff_of_true ?_ herror
      cases r with
      | error => exact absurd rfl herror
      | configFeatures enabled => exact absurd rfl hfeatures
      | _ => rfl
    · exact iff_of_true (if_pos rfl) (fun h => by cases h)
    · have hother : Response.error.type ≠ name := by
        rintro rfl
        exact absurd hname (by decide)
      rw [if_neg (by decide), if_neg hother]
      exact iff_of_false (fun h => by cases h) (fun h => h rfl)
  · -- too long: refused, or read as far as the low bits of the length say
    have herror : r ≠ .error := by
      rintro rfl
      have hbound : maxRecvMessageSize ≤ maxReplySize name := by
        rw [maxReplySize]
        split <;> decide
      have hshort : (Response.error.packed packDouble).length ≤ maxRecvMessageSize :=
        show (Obj.array [.array [.str "error", .array []]]).encode.length ≤ _ by decide
      exact hsize (Nat.le_trans hshort hbound)
    refine iff_of_false ?_ (fun h => hsize h.2)
    rcases hpart (Nat.lt_of_not_le hsize) with ⟨res, hres⟩ | ⟨n, hn, hcut⟩
    · rw [hres]
      exact fun h => meant_ne_notReceived herror _ h.symm
    · obtain ⟨res, hres⟩ :
          ∃ res, commandIn codec name (.ok ((r.packed packDouble).take n)) = .notReceived res :=
        commandIn_cut hc hsend hn
      rw [hcut, hres]
      exact fun h => meant_ne_notReceived herror _ h.symm

end Route

/-! ## A clean request and an error -/

/-- Everything is there when it is asked for. -/
def Delivery.atOnce : Delivery := ⟨true, true, 8, true, [100]⟩

def cleanResponse : Response := .requestInit ⟨"ok", [], [], false⟩

theorem cleanResponse_sendable : cleanResponse.Sendable .double :=
  ⟨by decide, show (Head.str 2).Valid by decide, ⟨by decide, trivial⟩, ⟨by decide, trivial⟩,
    trivial, trivial⟩

/-- The answer to the first message, with one tag. -/
def welcomeResponse : Response :=
  .clientInit "ok" "1.0.0" [] [("_dd.appsec.event_rules.version", "1.2.5")] []

theorem welcomeResponse_sendable : welcomeResponse.Sendable .double :=
  ⟨by decide, show (Head.str 2).Valid by decide, show (Head.str 5).Valid by decide,
    ⟨by decide, trivial⟩, ⟨by decide, show (Head.str 30).Valid by decide,
      show (Head.str 5).Valid by decide, trivial⟩, ⟨by decide, trivial⟩, trivial⟩

theorem clean_response_reaches_callback :
    commandIn Codec.format "request_init" (replyRecv thisProcess none "request_init"
        Delivery.atOnce (Helper.responseFrame (cleanResponse.packed .double) ++ [])).1 =
      .incomingCb (.array [.str "ok", .map [], .array [], .boolean false]) ∧
    commandIn Codec.format "client_init" (replyRecv thisProcess (some helperCredentials)
        "client_init" Delivery.atOnce
        (Helper.responseFrame (welcomeResponse.packed .double) ++ [])).1 =
      .incomingCb (welcomeResponse.message .double) := by
  have harrives : Arrives Delivery.atOnce (cleanResponse.packed .double) :=
    ⟨by decide, rfl, by decide +kernel⟩
  have harrives' : Arrives Delivery.atOnce (welcomeResponse.packed .double) :=
    ⟨by decide, rfl, by decide +kernel⟩
  have hkind : cleanResponse ≠ .error := fun h => by cases h
  have hkind' : welcomeResponse ≠ .error := fun h => by cases h
  exact ⟨(routed_as_meant_iff Codec.format_conforms (by decide) (Or.inl rfl)
      cleanResponse_sendable (fun h => absurd h (by decide)) harrives []).mpr
      ⟨hkind, by decide +kernel⟩,
    (routed_as_meant_iff Codec.format_conforms (by decide) (Or.inl rfl)
      welcomeResponse_sendable (fun _ => by decide) harrives' []).mpr
      ⟨hkind', by decide +kernel⟩⟩

/-- **The helper's error is not recognised**: the body has nine bytes. -/
theorem error_response_unexpected :
    commandIn Codec.format "request_init" (replyRecv thisProcess none "request_init"
        Delivery.atOnce (Helper.responseFrame (Response.error.packed .double) ++ [])).1 =
      .unexpected ∧
      meant .double .error = .notReceived .helperError := by
  have hvalid : Response.error.Sendable .double := ⟨by decide, trivial⟩
  have harrives : Arrives Delivery.atOnce (Response.error.packed .double) :=
    ⟨by decide, rfl, by decide +kernel⟩
  have hother : Bytes.ofString "request_init" ≠ "client_init" := by decide
  refine ⟨?_, rfl⟩
  rw [(replyRecv_responseFrame (fun h => absurd h hother) harrives []).1 (by decide +kernel),
    commandIn_packed Codec.format_conforms hvalid]
  rfl

end DdAppsec.Protocol
