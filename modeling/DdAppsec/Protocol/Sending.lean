import DdAppsec.Extension.Credentials
import DdAppsec.Protocol.Responses

/-!
# Protocol — frames that are written

Both sides write a header with a 32-bit length and a body behind it:
`dd_conn_sendv` a list of buffers by one `writev`, `broker::send` the packed
responses by two calls of `::send`. The kernel takes as many bytes as it
likes, and anything but all of them is a failure.

A success is to be one frame that the peer takes apart again, and a body too
long for the length field is to be refused (`Framed`). Neither side looks at
the length; `frames_exact_iff` is the condition.
-/

namespace DdAppsec.Protocol

open Lib Lib.MsgPack Extension

/-! ## The two senders -/

def ssizeMax : Nat := 2 ^ 63 - 1

def intMax : Nat := 2 ^ 31 - 1

/-- `_iovecs_total_size`: the sum is a `size_t`. -/
def iovecsTotalSize (iovecs : List Bytes) : Nat :=
  iovecs.foldl (fun total iov => (total + iov.length) % 2 ^ 64) 0

/-- `dd_header`: the length keeps its low 32 bits. -/
def ddHeader (dataLen : Nat) : Bytes := [0x64, 0x64, 0x73, 0] ++ bytesLE 4 dataLen

/-- `writev`: the buffers one after the other, as far as they are taken. -/
def writev (iovs : List Bytes) (taken : Option Nat) : Option Nat × Bytes :=
  Helper.socketSend iovs.flatten taken

/-- `dd_conn_sendv`, and what it has written. -/
def ddConnSendv (connected : Bool) (iovecs : List Bytes) (taken : Option Nat) : DdResult × Bytes :=
  let dataLen := iovecsTotalSize iovecs
  if !connected || decide (ssizeMax - 8 < dataLen) || decide (intMax - 1 < iovecs.length) then
    (.error, [])
  else
    let total := 8 + dataLen
    match writev (ddHeader dataLen :: iovecs) taken with
    | (none, written) => (.network, written)
    | (some sentBytes, written) => (if sentBytes ≠ total then .network else .success, written)

section Send

-- msgpack-c: how it packs a `double`, and an object, if it does not throw
variable (packDouble : UInt64 → Obj) (pack : Obj → Option Bytes)

/-- The vector of tuples that `broker::send` packs. -/
def brokerTuples (messages : List Response) : Obj :=
  .array (messages.map fun r => .array [.str r.type, r.message packDouble])

/-- `broker::send`, and what it has written. -/
def brokerSendAll (messages : List Response) (w : Helper.Writes) : Helper.SendOutcome × Bytes :=
  if messages.isEmpty then (.failed, [])
  else Helper.brokerSend (pack (brokerTuples packDouble messages)) w

end Send

/-! ## What is meant -/

/-- The length field is the number of bytes behind the header. -/
structure OneFrame (written body : Bytes) : Prop where
  magic : written.take 3 = [0x64, 0x64, 0x73]
  size : Helper.frameSize written = body.length
  body : written.length = 8 + body.length ∧ written.drop 8 = body

/-- What `broker::recv` makes of a body. -/
def bodyMeans (codec : Codec) (body : Bytes) : Helper.Received :=
  if Helper.maxMsgBodySize ≤ body.length then .tooLarge else Helper.unpackRequest codec body

/-- The helper takes the frame off the stream and nothing else, and if the
bytes keep coming it does take it. -/
structure HelperDelimits (written body : Bytes) : Prop where
  arrives : ∀ (codec : Codec) (s : Helper.Socket) (more : Bytes), s.unread = written ++ more →
    s.Prompt (8 + body.length) →
    (Helper.recv codec s).1 = bodyMeans codec body ∧ (Helper.recv codec s).2.unread = more
  noMore : ∀ (codec : Codec) (s : Helper.Socket) (more : Bytes), s.unread = written ++ more →
    (Helper.recv codec s).1.Complete →
    (Helper.recv codec s).1 = bodyMeans codec body ∧ (Helper.recv codec s).2.unread = more

/-- The same for the extension, up to the size that it accepts. -/
structure ExtensionDelimits (written body : Bytes) : Prop where
  arrives : ∀ (d : Delivery) (more : Bytes), Arrives d body →
    connRecv d (written ++ more) =
      if maxRecvMessageSize < body.length then (.error .network, body ++ more)
      else (.ok body, more)
  noMore : ∀ (d : Delivery) (more received rest : Bytes),
    connRecv d (written ++ more) = (.ok received, rest) → received = body ∧ rest = more

/-- **A success is one frame around the body** that the peer delimits, and a
body that does not fit the length field is refused. -/
structure Framed (Delimits : Bytes → Bytes → Prop) (success : Prop) (written body : Bytes) :
    Prop where
  exact : success → OneFrame written body ∧ Delimits written body
  refused : 2 ^ 32 ≤ body.length → ¬ success ∧ written = []

/-- What `broker::send` makes of the packed responses: framed, or nothing
where packing throws. -/
def SentFramed (packed : Option Bytes) (outcome : Helper.SendOutcome × Bytes) : Prop :=
  match packed with
  | none => outcome.1 ≠ .sent ∧ outcome.2 = []
  | some body => Framed ExtensionDelimits (outcome.1 = .sent) outcome.2 body

/-! ## A frame taken apart -/

@[simp] theorem length_ddHeader (dataLen : Nat) : (ddHeader dataLen).length = 8 := by
  simp [ddHeader]

theorem natLE_ddHeader (dataLen : Nat) : natLE ((ddHeader dataLen).drop 4) = dataLen % 2 ^ 32 := by
  show natLE (bytesLE 4 dataLen) = _
  rw [natLE_bytesLE]
  rfl

theorem frameSize_ddHeader (dataLen : Nat) (rest : Bytes) :
    Helper.frameSize (ddHeader dataLen ++ rest) = dataLen % 2 ^ 32 := by
  have htake : (ddHeader dataLen ++ rest).take 8 = ddHeader dataLen :=
    List.take_left' (length_ddHeader _)
  rw [Helper.frameSize, htake, natLE_ddHeader]

section Frame

variable {body : Bytes}

theorem frameSize_append (hfits : body.length < 2 ^ 32) (rest : Bytes) :
    Helper.frameSize (ddHeader body.length ++ rest) = body.length := by
  rw [frameSize_ddHeader, Nat.mod_eq_of_lt hfits]

theorem oneFrame_of_fits (hfits : body.length < 2 ^ 32) :
    OneFrame (ddHeader body.length ++ body) body where
  magic := rfl
  size := frameSize_append hfits body
  body := by
    refine ⟨by rw [List.length_append, length_ddHeader], ?_⟩
    exact List.drop_left' (length_ddHeader _)

theorem helperDelimits_of_fits (hfits : body.length < 2 ^ 32) :
    HelperDelimits (ddHeader body.length ++ body) body where
  arrives := by
    intro codec s more hs hprompt
    obtain ⟨s', hrecv, hs', _⟩ := Helper.Frame.recv_prompt (k := 0) codec
      ⟨[0x64, 0x64, 0x73, 0], body, rfl, hfits⟩ hs hprompt
    rw [hrecv]
    exact ⟨rfl, hs'⟩
  noMore := by
    intro codec s more hs hcomplete
    obtain ⟨⟨_, hunread⟩, hmessage⟩ := Helper.recv_consumed hcomplete
    have hsize : Helper.frameSize s.unread = body.length := by
      rw [hs, List.append_assoc, frameSize_append hfits]
    have hdrop : s.unread.drop 8 = body ++ more := by
      rw [hs, List.append_assoc]
      exact List.drop_left' (length_ddHeader _)
    refine ⟨?_, ?_⟩
    · rw [hmessage, Helper.messageOf, hsize, hdrop, List.take_left]
      rfl
    · rw [hunread, hsize, ← List.drop_drop, hdrop, List.drop_left]

theorem connRecv_of_header {d : Delivery} (hfits : body.length < 2 ^ 32) (hheader : 8 ≤ d.header)
    (more : Bytes) :
    connRecv d (ddHeader body.length ++ body ++ more) =
      if maxRecvMessageSize < body.length then (.error .network, body ++ more)
      else recvMessageBody d body.length (body ++ more) := by
  have htake : (ddHeader body.length ++ body ++ more).take 8 = ddHeader body.length := by
    rw [List.append_assoc]
    exact List.take_left' (length_ddHeader _)
  have hdrop : (ddHeader body.length ++ body ++ more).drop 8 = body ++ more := by
    rw [List.append_assoc]
    exact List.drop_left' (length_ddHeader _)
  have hcode : (ddHeader body.length).take 3 = [0x64, 0x64, 0x73] := rfl
  have hsize : natLE ((ddHeader body.length).drop 4) = body.length := by
    rw [natLE_ddHeader, Nat.mod_eq_of_lt hfits]
  unfold connRecv recv
  simp only [Nat.min_eq_left hheader, htake, hdrop, hcode, hsize, length_ddHeader]
  simp only [ne_eq, not_true_eq_false, if_false]
  rfl

theorem extensionDelimits_of_fits (hfits : body.length < 2 ^ 32) :
    ExtensionDelimits (ddHeader body.length ++ body) body where
  arrives := by
    intro d more harrives
    have hmod : body.length % 256 ^ 4 = body.length := Nat.mod_eq_of_lt hfits
    have hchunks := harrives.chunks
    rw [hmod] at hchunks
    have hthere : body.length ≤ (body ++ more).length := by simp
    obtain ⟨received, rest, hrecv⟩ := recvBody_arrives d.chunks [] hthere hchunks
    obtain ⟨rfl, rfl⟩ := recvBody_some d.chunks hthere hrecv
    rw [connRecv_of_header hfits harrives.header, recvMessageBody, hrecv, harrives.allocated]
    simp
  noMore := by
    intro d more received rest h
    by_cases hheader : 8 ≤ d.header
    · rw [connRecv_of_header hfits hheader, recvMessageBody] at h
      split at h
      · cases h
      · split at h
        · cases h
        · split at h
          · rename_i hrecv
            cases h
            obtain ⟨rfl, rfl⟩ := recvBody_some d.chunks (by simp) hrecv
            simp
          · cases h
    · -- a part of the header is an error
      unfold connRecv recv at h
      dsimp only at h
      rw [if_pos (by rw [List.length_take]; omega)] at h
      cases h

end Frame

/-! ## The buffers -/

/-- The total is the length of the body, as far as a `size_t` goes. -/
theorem iovecsTotalSize_eq (iovecs : List Bytes) :
    iovecsTotalSize iovecs = iovecs.flatten.length % 2 ^ 64 := by
  -- with any total so far
  have hloop (total : Nat) (htotal : total < 2 ^ 64) :
      iovecs.foldl (fun total iov => (total + iov.length) % 2 ^ 64) total =
        (total + iovecs.flatten.length) % 2 ^ 64 := by
    induction iovecs generalizing total with
    | nil => exact (Nat.mod_eq_of_lt htotal).symm
    | cons iov iovecs ih =>
      rw [List.foldl_cons, ih _ (Nat.mod_lt _ (by decide)), List.flatten_cons, List.length_append,
        Nat.mod_add_mod, Nat.add_assoc]
  rw [iovecsTotalSize, hloop 0 (by decide), Nat.zero_add]

/-- `dd_conn_sendv` gets as far as `writev`. -/
def ReachesWritev (connected : Bool) (iovecs : List Bytes) : Prop :=
  connected = true ∧ iovecsTotalSize iovecs ≤ ssizeMax - 8 ∧ iovecs.length ≤ intMax - 1

section Sendv

variable {connected : Bool} {iovecs : List Bytes}

theorem ddConnSendv_rejected (h : ¬ ReachesWritev connected iovecs) (taken : Option Nat) :
    ddConnSendv connected iovecs taken = (.error, []) := by
  unfold ddConnSendv
  rw [if_pos]
  simp only [Bool.or_eq_true, Bool.not_eq_true', decide_eq_true_eq]
  by_contra hno
  refine h ⟨?_, ?_, ?_⟩
  · cases connected with
    | true => rfl
    | false => exact absurd (Or.inl (Or.inl rfl)) hno
  · exact Nat.le_of_not_lt fun hlarge => hno (Or.inl (Or.inr hlarge))
  · exact Nat.le_of_not_lt fun hmany => hno (Or.inr hmany)

theorem ddConnSendv_reaches (h : ReachesWritev connected iovecs) (taken : Option Nat) :
    ddConnSendv connected iovecs taken =
      match writev (ddHeader (iovecsTotalSize iovecs) :: iovecs) taken with
      | (none, written) => (.network, written)
      | (some sentBytes, written) =>
        (if sentBytes ≠ 8 + iovecsTotalSize iovecs then .network else .success, written) := by
  obtain ⟨rfl, hsize, hcount⟩ := h
  unfold ddConnSendv
  rw [if_neg]
  simp only [Bool.or_eq_true, Bool.not_eq_true', decide_eq_true_eq]
  rintro ((h | h) | h)
  · cases h
  · omega
  · omega

/-- A body that fits is sent whole or not at all with success. -/
theorem ddConnSendv_success {taken : Option Nat} {written : Bytes}
    (hfits : iovecs.flatten.length < 2 ^ 32)
    (h : ddConnSendv connected iovecs taken = (.success, written)) :
    written = ddHeader iovecs.flatten.length ++ iovecs.flatten := by
  have htotal : iovecsTotalSize iovecs = iovecs.flatten.length := by
    rw [iovecsTotalSize_eq]
    exact Nat.mod_eq_of_lt (Nat.lt_trans hfits (by decide))
  by_cases hreaches : ReachesWritev connected iovecs
  · rw [ddConnSendv_reaches hreaches, htotal] at h
    split at h
    · cases h
    · rename_i sentBytes written' hwrite
      split at h
      · cases h
      · rename_i hall
        cases h
        have hlength : sentBytes = (ddHeader iovecs.flatten.length :: iovecs).flatten.length := by
          rw [List.flatten_cons, List.length_append, length_ddHeader]
          exact not_not.mp hall
        rw [Helper.socketSend_some hwrite hlength, List.flatten_cons]
  · rw [ddConnSendv_rejected hreaches] at h
    cases h

/-- Whatever its body, a message that is accepted may have its header
written and no more. -/
theorem ddConnSendv_header (h : ReachesWritev connected iovecs) :
    (ddConnSendv connected iovecs (some 8)).2 = ddHeader (iovecsTotalSize iovecs) := by
  rw [ddConnSendv_reaches h]
  show (ddHeader _ :: iovecs).flatten.take 8 = _
  rw [List.flatten_cons]
  exact List.take_left' (length_ddHeader _)

theorem sendv_framed_iff (connected : Bool) (iovecs : List Bytes) :
    (∀ taken, Framed HelperDelimits ((ddConnSendv connected iovecs taken).1 = .success)
        (ddConnSendv connected iovecs taken).2 iovecs.flatten) ↔
      (ReachesWritev connected iovecs → iovecs.flatten.length < 2 ^ 32) := by
  constructor
  · intro hframed hreaches
    by_contra hlarge
    have hnothing := ((hframed (some 8)).refused (Nat.le_of_not_lt hlarge)).2
    rw [ddConnSendv_header hreaches] at hnothing
    have hlength := length_ddHeader (iovecsTotalSize iovecs)
    rw [hnothing] at hlength
    cases hlength
  · intro hcond taken
    refine ⟨?_, ?_⟩
    · intro hsuccess
      have hfits : iovecs.flatten.length < 2 ^ 32 := by
        refine hcond (by_contra fun hrejected => ?_)
        rw [ddConnSendv_rejected hrejected] at hsuccess
        cases hsuccess
      have hsent : ddConnSendv connected iovecs taken =
          (.success, (ddConnSendv connected iovecs taken).2) := Prod.ext hsuccess rfl
      rw [ddConnSendv_success hfits hsent]
      exact ⟨oneFrame_of_fits hfits, helperDelimits_of_fits hfits⟩
    · intro hlarge
      rw [ddConnSendv_rejected fun hreaches => Nat.not_lt_of_le hlarge (hcond hreaches)]
      exact ⟨by simp, rfl⟩

end Sendv

/-! ## The responses -/

section Responses

variable {packDouble : UInt64 → Obj} {pack : Obj → Option Bytes}

theorem brokerSend_header (body : Bytes) :
    (Helper.brokerSend (some body) ⟨some 8, none⟩).2 = ddHeader body.length := by
  show (Helper.responseHeader body).take 8 = _
  rw [List.take_of_length_le (by simp)]
  rfl

theorem broker_framed_iff (messages : List Response) :
    (∀ w, SentFramed (pack (brokerTuples packDouble messages))
        (brokerSendAll packDouble pack messages w)) ↔
      (messages ≠ [] → ∀ body, pack (brokerTuples packDouble messages) = some body →
        body.length < 2 ^ 32) := by
  unfold brokerSendAll
  cases messages with
  | nil =>
    refine iff_of_true (fun w => ?_) (fun h => absurd rfl h)
    cases hpacked : pack (brokerTuples packDouble []) with
    | none => exact ⟨by simp, rfl⟩
    | some body =>
      have hfailed : (Helper.SendOutcome.failed : Helper.SendOutcome) ≠ .sent := by decide
      exact ⟨fun hsent => absurd hsent hfailed, fun _ => ⟨hfailed, rfl⟩⟩
  | cons r messages =>
    cases hpacked : pack (brokerTuples packDouble (r :: messages)) with
    | none =>
      refine iff_of_true (fun w => ⟨by simp [Helper.brokerSend], rfl⟩) ?_
      intro _ body hbody
      cases hbody
    | some body =>
      constructor
      · intro hframed _ body' hbody
        cases hbody
        by_contra hlarge
        have hnothing := ((hframed ⟨some 8, none⟩).refused (Nat.le_of_not_lt hlarge)).2
        have hlength := length_ddHeader body.length
        rw [← brokerSend_header] at hlength
        rw [if_neg (by simp)] at hnothing
        rw [hnothing] at hlength
        cases hlength
      · intro hcond w
        have hfits := hcond (by simp) body rfl
        refine ⟨fun hsent => ?_, fun hlarge => absurd hfits (Nat.not_lt_of_le hlarge)⟩
        rw [if_neg (by simp)] at hsent ⊢
        have hwhole : Helper.brokerSend (some body) w =
            (.sent, (Helper.brokerSend (some body) w).2) := Prod.ext hsent rfl
        obtain ⟨body', hbody, hwritten⟩ := Helper.brokerSend_sent hwhole
        cases hbody
        rw [hwritten]
        exact ⟨oneFrame_of_fits hfits, extensionDelimits_of_fits hfits⟩

end Responses

/-- **Both senders write exact frames and nothing else, exactly if** what
gets as far as a system call is shorter than 2^32 bytes. -/
theorem frames_exact_iff (packDouble : UInt64 → Obj) (pack : Obj → Option Bytes) :
    (∀ (connected : Bool) (iovecs : List Bytes),
      (∀ taken, Framed HelperDelimits ((ddConnSendv connected iovecs taken).1 = .success)
          (ddConnSendv connected iovecs taken).2 iovecs.flatten) ↔
        (ReachesWritev connected iovecs → iovecs.flatten.length < 2 ^ 32)) ∧
    (∀ messages : List Response,
      (∀ w, SentFramed (pack (brokerTuples packDouble messages))
          (brokerSendAll packDouble pack messages w)) ↔
        (messages ≠ [] → ∀ body, pack (brokerTuples packDouble messages) = some body →
          body.length < 2 ^ 32)) :=
  ⟨sendv_framed_iff, broker_framed_iff⟩

/-! ## A buffer of four gigabytes -/

/-- What one call of `writev` takes at most on Linux. -/
def maxRwCount : Nat := 0x7ffff000

theorem zeros_cut {n : Nat} (hlarge : maxRwCount < 8 + n) (h : n ≤ ssizeMax - 8) :
    ddConnSendv true [List.replicate n 0] (some maxRwCount) =
      (.network, ddHeader n ++ List.replicate (maxRwCount - 8) 0) := by
  have hbody : [List.replicate n (0 : UInt8)].flatten = List.replicate n 0 := by simp
  have htotal : iovecsTotalSize [List.replicate n 0] = n := by
    rw [iovecsTotalSize_eq, hbody, List.length_replicate]
    exact Nat.mod_eq_of_lt (Nat.lt_of_le_of_lt h (by decide))
  have hreaches : ReachesWritev true [List.replicate n 0] :=
    ⟨rfl, by rwa [htotal], show 1 ≤ intMax - 1 by decide⟩
  have hlength : (ddHeader n ++ List.replicate n 0).length = 8 + n := by simp
  have htake : (ddHeader n ++ List.replicate n (0 : UInt8)).take maxRwCount =
      ddHeader n ++ List.replicate (maxRwCount - 8) 0 := by
    have hheader : 8 ≤ maxRwCount := by decide
    rw [List.take_append, length_ddHeader, List.take_replicate, Nat.min_eq_left (by omega),
      List.take_of_length_le (by rw [length_ddHeader]; exact hheader)]
  rw [ddConnSendv_reaches hreaches, htotal, writev, List.flatten_cons, hbody]
  simp only [Helper.socketSend, hlength, Nat.min_eq_left (Nat.le_of_lt hlarge), htake]
  rw [if_pos (Nat.ne_of_lt hlarge)]

theorem zeros_announced {n : Nat} (hlarge : 2 ^ 32 ≤ n) (h : n ≤ ssizeMax - 8) :
    (ddConnSendv true [List.replicate n 0] (some maxRwCount)).1 = .network ∧
    (ddConnSendv true [List.replicate n 0] (some maxRwCount)).2.length = maxRwCount ∧
    Helper.frameSize (ddConnSendv true [List.replicate n 0] (some maxRwCount)).2 = n % 2 ^ 32 ∧
    ¬ Framed HelperDelimits
      ((ddConnSendv true [List.replicate n 0] (some maxRwCount)).1 = .success)
      (ddConnSendv true [List.replicate n 0] (some maxRwCount)).2
      [List.replicate n 0].flatten := by
  have hmax : maxRwCount < 8 + n := by
    rw [maxRwCount]
    omega
  have hlength : (ddHeader n ++ List.replicate (maxRwCount - 8) 0).length = maxRwCount := by
    rw [List.length_append, length_ddHeader, List.length_replicate]
    exact Nat.add_sub_cancel' (by decide)
  rw [zeros_cut hmax h]
  refine ⟨rfl, hlength, frameSize_ddHeader n _, fun hframed => ?_⟩
  have hnothing : ddHeader n ++ List.replicate (maxRwCount - 8) 0 = [] :=
    (hframed.refused (by simpa using hlarge)).2
  rw [hnothing] at hlength
  exact absurd hlength (by decide)

/-- **The length wraps around**: `writev` takes two gigabytes of the buffer, behind
a header that announces an empty body. -/
theorem four_gigabytes_announced_as_none :
    (ddConnSendv true [List.replicate (2 ^ 32) 0] (some maxRwCount)).1 = .network ∧
    (ddConnSendv true [List.replicate (2 ^ 32) 0] (some maxRwCount)).2.length = maxRwCount ∧
    Helper.frameSize (ddConnSendv true [List.replicate (2 ^ 32) 0] (some maxRwCount)).2 = 0 ∧
    ¬ Framed HelperDelimits
      ((ddConnSendv true [List.replicate (2 ^ 32) 0] (some maxRwCount)).1 = .success)
      (ddConnSendv true [List.replicate (2 ^ 32) 0] (some maxRwCount)).2
      [List.replicate (2 ^ 32) 0].flatten := by
  obtain ⟨hnetwork, hlength, hsize, hframed⟩ :=
    zeros_announced (Nat.le_refl (2 ^ 32)) (by decide)
  rw [Nat.mod_self] at hsize
  exact ⟨hnetwork, hlength, hsize, hframed⟩

end DdAppsec.Protocol
