import DdAppsec.Helper.Broker
import DdAppsec.Helper.ClientInitRequest

/-!
# Helper — messages and frames

The extension writes FRAMES: a header of eight bytes, of which the last four
are the size of the body, and the body. The helper reads the stream in
whatever pieces the kernel hands over, and after a message it either keeps
the connection or drops it.

`recv_complete` says what `broker::recv` has consumed when it returns a
request or throws one of the exceptions the helper goes on after: the frame,
all of it and nothing else. `Conversation` is `client::run`, message after
message, and `frames_stay_in_sync` the result: as long as the connection is
kept, the messages handled are the frames written.
-/

namespace DdAppsec.Helper

open Lib Lib.MsgPack

/-! ## What the read loop takes -/

/-- The loop moves bytes from the stream to what is received, up to `len`. -/
theorem readLoop_moves {len chunk : Nat} {arrivals : List (Option Nat)}
    {received unread received' : Bytes} {failed : Bool} {s : Socket}
    (h : readLoop len chunk arrivals received unread = (received', failed, s))
    (hlen : received.length ≤ len) :
    ∃ taken, received' = received ++ taken ∧ unread = taken ++ s.unread ∧
      received'.length ≤ len := by
  have hnothing : ∃ taken : Bytes, received = received ++ taken ∧ unread = taken ++ unread ∧
      received.length ≤ len := ⟨[], by simp, rfl, hlen⟩
  induction arrivals generalizing received unread with
  | nil =>
    cases h
    exact hnothing
  | cons arrival arrivals ih =>
    unfold readLoop at h
    split at h
    · cases h
      exact hnothing
    · rename_i hmissing
      cases arrival with
      | none =>
        cases h
        exact hnothing
      | some found =>
        dsimp only at h
        generalize hn : min (min (len - received.length) chunk) found = n at h
        split at h
        · cases h
          exact hnothing
        · rename_i b bytes htake
          have hlength : (b :: bytes).length ≤ n := by
            rw [← htake, List.length_take]
            omega
          have hnext : (received ++ b :: bytes).length ≤ len := by
            rw [List.length_append]
            omega
          obtain ⟨taken, hreceived, hunread, hle⟩ :=
            ih h hnext ⟨[], by simp, rfl, hnext⟩
          refine ⟨b :: bytes ++ taken, by rw [hreceived, List.append_assoc], ?_, hle⟩
          rw [List.append_assoc, ← hunread, ← htake, List.take_append_drop]

/-- What a receive returns is what it took. -/
theorem Socket.recv_moves {len : Nat} {s s' : Socket} {bytes : Bytes}
    (h : s.recv len = (some bytes, s')) : s.unread = bytes ++ s'.unread := by
  unfold Socket.recv at h
  split at h
  · cases h
  · rename_i hloop
    cases h
    obtain ⟨taken, hreceived, hunread, _⟩ := readLoop_moves hloop (Nat.zero_le _)
    rw [hunread, hreceived, List.nil_append]

/-- A discard that got rid of all it was asked to. -/
theorem Socket.discard_all {len n : Nat} {s s' : Socket} (h : s.discard len = (n, s'))
    (hlen : len ≤ n) : ∃ bytes, bytes.length = len ∧ s.unread = bytes ++ s'.unread := by
  unfold Socket.discard at h
  split at h
  rename_i hloop
  cases h
  obtain ⟨taken, hreceived, hunread, hle⟩ := readLoop_moves hloop (Nat.zero_le _)
  rw [List.nil_append] at hreceived
  subst hreceived
  exact ⟨_, Nat.le_antisymm hle hlen, hunread⟩

/-! ## One frame -/

/-- The length field of the header at the front of a stream. -/
def frameSize (stream : Bytes) : Nat := natLE ((stream.take 8).drop 4)

/-- What the frame at the front of a stream means, however it arrives. -/
def messageOf (codec : Codec) (stream : Bytes) : Received :=
  if maxMsgBodySize ≤ frameSize stream then .tooLarge
  else unpackRequest codec ((stream.drop 8).take (frameSize stream))

/-- The frame at the front has gone, and nothing else. -/
def Consumed (s s' : Socket) : Prop :=
  8 + frameSize s.unread ≤ s.unread.length ∧ s'.unread = s.unread.drop (8 + frameSize s.unread)

/-- `broker::recv` returned, or threw one of the exceptions `handle_message`
can go on after. -/
def Received.Complete : Received → Prop
  | .request _ | .tooLarge | .badCast | .unpackError => True
  | .disconnect | .partialMessage | .exception => False

theorem consumed_of_append {s s' : Socket} {header body : Bytes} (hheader : header.length = 8)
    (hbody : body.length = natLE (header.drop 4)) (hs : s.unread = header ++ (body ++ s'.unread)) :
    Consumed s s' ∧ frameSize s.unread = body.length ∧
      (s.unread.drop 8).take (frameSize s.unread) = body := by
  have hsize : frameSize s.unread = body.length := by
    rw [frameSize, hs, ← hheader, List.take_left, hbody]
  have hrest : s.unread.drop 8 = body ++ s'.unread := by rw [hs, ← hheader, List.drop_left]
  refine ⟨⟨?_, ?_⟩, hsize, ?_⟩
  · rw [hsize, hs, List.length_append, List.length_append]
    omega
  · rw [hsize, ← List.drop_drop, hrest, List.drop_left]
  · rw [hrest, hsize, List.take_left]

/-- **Whatever way the bytes come in**, a complete message is the frame at
the front of the stream, and it is gone. -/
theorem recv_complete {codec : Codec} {s s' : Socket} {r : Received}
    (h : recv codec s = (r, s')) (hr : r.Complete) :
    Consumed s s' ∧ r = messageOf codec s.unread := by
  unfold recv at h
  split at h
  · cases h
    cases hr
  · rename_i header s₁ hheader
    split at h
    · cases h
      cases hr
    · split at h
      · cases h
        cases hr
      · rename_i hsize
        have hsize : header.length = 8 := by simpa using hsize
        have hs := Socket.recv_moves hheader
        dsimp only at h
        split at h
        · rename_i hlarge
          split at h
          · cases h
            cases hr
          · rename_i hall
            cases h
            obtain ⟨body, hbody, hs₁⟩ := Socket.discard_all rfl (Nat.not_lt.mp hall)
            obtain ⟨hconsumed, hframe, _⟩ := consumed_of_append hsize hbody (hs₁ ▸ hs)
            refine ⟨hconsumed, ?_⟩
            rw [messageOf, if_pos (by rw [hframe, hbody]; exact hlarge)]
        · rename_i hsmall
          split at h
          · cases h
            cases hr
          · rename_i body s₂ hrecv
            split at h
            · cases h
              cases hr
            · rename_i hbody
              have hbody : body.length = natLE (header.drop 4) := by simpa using hbody
              cases h
              have hs₁ := Socket.recv_moves hrecv
              obtain ⟨hconsumed, hframe, htake⟩ := consumed_of_append hsize hbody (hs₁ ▸ hs)
              refine ⟨hconsumed, ?_⟩
              rw [messageOf, if_neg (by rw [hframe, hbody]; exact hsmall), htake]

theorem recv_consumed {codec : Codec} {s : Socket} (h : (recv codec s).1.Complete) :
    Consumed s (recv codec s).2 ∧ (recv codec s).1 = messageOf codec s.unread :=
  recv_complete (show recv codec s = ((recv codec s).1, (recv codec s).2) from rfl) h

/-! ## Which messages keep the connection -/

variable {Sub : Type}

/-- What either phase gives to the broker. -/
inductive Reply where
  | clientInit (r : ClientInitResponse)
  | request (r : Response)

/-- The effect of a message in the first phase. -/
structure InitOutcome (Sub : Type) where
  client : Client
  keep : Bool
  reply : Option Reply
  process : Process Sub

/-- A client as its constructor leaves it. -/
def Client.fresh : Client := ⟨none, none, false, none, 0⟩

/-- The environment of a message in the first phase: there is no service and
no engine yet. -/
def Newcomer.env (n : Newcomer) : Env := ⟨.notSet, none, false, ∅, ∅, n.send⟩

/-- `client::run_client_init`. `n.request` is what the arguments of a
`client_init` convert to; any other command is an error that ends the
connection, like every failure but one: after a message that was too large
or made no sense the helper goes on, without a service. -/
def runClientInit (p : Platform Sub) (n : Newcomer) (received : Received) (st : Process Sub) :
    InitOutcome Sub :=
  match received with
  | .request ⟨.clientInit, _⟩ =>
    let out := clientInit p n st
    ⟨out.client, out.keep, some (.clientInit out.response), out.process⟩
  | received =>
    let out := Client.fresh.handleMessage (fun _ => none) [] false n.env received
    ⟨out.client, out.keep, out.response.map .request, st⟩

/-- `handle_message` returns `true` after complete messages only. -/
theorem Client.handleMessage_complete {encode : Bytes → Option Bytes} {allowed : List RequestId}
    {ignoreUnexpected : Bool} {env : Env} {received : Received} {c : Client}
    (h : (c.handleMessage encode allowed ignoreUnexpected env received).keep = true) :
    received.Complete := by
  cases received with
  | request r => trivial
  | tooLarge => trivial
  | badCast => trivial
  | unpackError => trivial
  | disconnect => cases h
  | exception => cases h
  | partialMessage =>
    -- an error response goes out, but whatever becomes of it the result is `false`
    simp only [Client.handleMessage, Client.sendError] at h
    split at h <;> cases h

theorem Client.runRequest_complete {encode : Bytes → Option Bytes} {env : Env}
    {received : Received} {c : Client} (h : (c.runRequest encode env received).keep = true) :
    received.Complete := by
  unfold Client.runRequest at h
  split at h
  · exact Client.handleMessage_complete h
  · exact Client.handleMessage_complete h

theorem runClientInit_complete {p : Platform Sub} {n : Newcomer} {received : Received}
    {st : Process Sub} (h : (runClientInit p n received st).keep = true) : received.Complete := by
  unfold runClientInit at h
  split at h
  · trivial
  · exact Client.handleMessage_complete h

/-! ## A conversation -/

/-- `client::run`: the client once `client_init` is through, what is left of
the stream and, as a history, the messages handled. -/
structure Conversation (Sub : Type) where
  client : Option Client
  process : Process Sub
  socket : Socket
  seen : List Received

/-- What the environment decides while one message is handled. -/
inductive Turn where
  | init (n : Newcomer)
  | request (env : Env)

/-- One message; `none` where the handler returns `false` and the connection
is dropped. -/
def Conversation.step (codec : Codec) (encode : Bytes → Option Bytes) (p : Platform Sub)
    (conv : Conversation Sub) : Turn → Option (Conversation Sub)
  | .init n =>
    match conv.client with
    | some _ => none
    | none =>
      let (received, socket) := recv codec conv.socket
      let out := runClientInit p n received conv.process
      if out.keep then
        some ⟨some out.client, out.process, socket, conv.seen ++ [received]⟩
      else none
  | .request env =>
    match conv.client with
    | none => none
    | some c =>
      let (received, socket) := recv codec conv.socket
      let out := c.runRequest encode env received
      if out.keep then
        some ⟨some out.client, conv.process, socket, conv.seen ++ [received]⟩
      else none

/-- A connection at its beginning. -/
def Conversation.start (socket : Socket) (process : Process Sub) : Conversation Sub :=
  ⟨none, process, socket, []⟩

variable {codec : Codec} {encode : Bytes → Option Bytes} {p : Platform Sub}

/-- **A message that keeps the connection** is the frame at the front of the
stream, and that frame has gone. -/
theorem Conversation.step_consumed {conv conv' : Conversation Sub} {turn : Turn}
    (h : conv.step codec encode p turn = some conv') :
    Consumed conv.socket conv'.socket ∧
      conv'.seen = conv.seen ++ [messageOf codec conv.socket.unread] := by
  cases turn with
  | init n =>
    simp only [Conversation.step] at h
    split at h
    · cases h
    · split at h
      · rename_i hkeep
        cases h
        obtain ⟨hconsumed, hmessage⟩ := recv_consumed (runClientInit_complete hkeep)
        exact ⟨hconsumed, congrArg (fun r => conv.seen ++ [r]) hmessage⟩
      · cases h
  | request env =>
    simp only [Conversation.step] at h
    split at h
    · cases h
    · split at h
      · rename_i hkeep
        cases h
        obtain ⟨hconsumed, hmessage⟩ := recv_consumed (Client.runRequest_complete hkeep)
        exact ⟨hconsumed, congrArg (fun r => conv.seen ++ [r]) hmessage⟩
      · cases h

/-! ## The frames a client writes -/

/-- A frame: any four bytes, the size of the body, the body. -/
structure Frame where
  code : Bytes
  body : Bytes
  hcode : code.length = 4
  hsize : body.length < 2 ^ 32

def Frame.bytes (f : Frame) : Bytes := f.code ++ bytesLE 4 f.body.length ++ f.body

/-- What a frame means to the helper. -/
def Frame.message (codec : Codec) (f : Frame) : Received :=
  if maxMsgBodySize ≤ f.body.length then .tooLarge else unpackRequest codec f.body

/-- A stream that begins with a frame. -/
theorem Frame.front (f : Frame) (rest : Bytes) :
    frameSize (f.bytes ++ rest) = f.body.length ∧
      (f.bytes ++ rest).drop 8 = f.body ++ rest := by
  have hheader : (f.code ++ bytesLE 4 f.body.length).length = 8 := by simp [f.hcode]
  have hbytes : f.bytes ++ rest =
      (f.code ++ bytesLE 4 f.body.length) ++ (f.body ++ rest) := by
    simp [Frame.bytes, List.append_assoc]
  have hlength : (f.code ++ bytesLE 4 f.body.length).drop 4 = bytesLE 4 f.body.length :=
    List.drop_left' f.hcode
  have hfits : f.body.length % 256 ^ 4 = f.body.length := Nat.mod_eq_of_lt f.hsize
  rw [hbytes]
  constructor
  · rw [frameSize, List.take_left' hheader, hlength, natLE_bytesLE, hfits]
  · exact List.drop_left' hheader

theorem Frame.messageOf_front (codec : Codec) (f : Frame) (rest : Bytes) :
    messageOf codec (f.bytes ++ rest) = f.message codec := by
  obtain ⟨hsize, hdrop⟩ := f.front rest
  rw [messageOf, Frame.message, hsize, hdrop, List.take_left]

theorem Consumed.frame {s s' : Socket} {f : Frame} {rest : Bytes} (h : Consumed s s')
    (hs : s.unread = f.bytes ++ rest) : s'.unread = rest := by
  obtain ⟨hsize, hdrop⟩ := f.front rest
  rw [h.2, hs, hsize, ← List.drop_drop, hdrop, List.drop_left]

/-- A frame on a prompt stream: its message, and exactly its bytes are gone. -/
theorem Frame.recv_prompt (codec : Codec) (f : Frame) {s : Socket} {rest : Bytes} {k : Nat}
    (hs : s.unread = f.bytes ++ rest) (hprompt : s.Prompt (8 + (f.body.length + k))) :
    ∃ s', recv codec s = (f.message codec, s') ∧ s'.unread = rest ∧ s'.Prompt k := by
  have hmod : f.body.length % 256 ^ 4 = f.body.length := Nat.mod_eq_of_lt f.hsize
  rw [Frame.bytes, List.append_assoc] at hs
  obtain ⟨s', hrecv, hs', hk⟩ := recv_message codec f.hcode hs (by rw [hmod]; simp)
    (by rwa [hmod])
  rw [hmod, List.take_left] at hrecv
  rw [hmod, List.drop_left] at hs'
  exact ⟨s', hrecv, hs', hk⟩

/-- **Run lemma**: after as many messages as turns, the messages are those
of the first frames and the stream begins with the others. -/
theorem run_frames {rest : Bytes} {turns : List Turn} :
    ∀ {conv conv' : Conversation Sub} {frames : List Frame},
      conv.socket.unread = frames.flatMap Frame.bytes ++ rest →
      run (Conversation.step codec encode p) conv turns = some conv' →
      turns.length ≤ frames.length →
      conv'.seen = conv.seen ++ (frames.take turns.length).map (Frame.message codec) ∧
        conv'.socket.unread = (frames.drop turns.length).flatMap Frame.bytes ++ rest := by
  induction turns with
  | nil =>
    intro conv conv' frames hs hrun _
    cases hrun
    exact ⟨by simp, hs⟩
  | cons turn turns ih =>
    intro conv conv' frames hs hrun hlen
    cases frames with
    | nil => simp at hlen
    | cons f frames =>
      obtain ⟨conv₁, hstep, hrest⟩ := run_cons.mp hrun
      rw [List.flatMap_cons, List.append_assoc] at hs
      obtain ⟨hconsumed, hseen⟩ := Conversation.step_consumed hstep
      obtain ⟨hseen', hs'⟩ := ih (hconsumed.frame hs) hrest (by simpa using hlen)
      refine ⟨?_, hs'⟩
      rw [hseen', hseen, hs, Frame.messageOf_front, List.append_assoc]
      rfl

/-- **Frames stay in sync.** In either phase a handler that returns `true`
has consumed the frame at the front of the stream, its header and as many
bytes as the length field says, however the kernel cut the stream; and in
a conversation that is kept for a number of messages these are, in order,
the frames the client wrote. -/
theorem frames_stay_in_sync (codec : Codec) (encode : Bytes → Option Bytes) (p : Platform Sub) :
    (∀ (s : Socket) (n : Newcomer) (st : Process Sub),
      (runClientInit p n (recv codec s).1 st).keep = true → Consumed s (recv codec s).2) ∧
    (∀ (s : Socket) (c : Client) (env : Env),
      (c.runRequest encode env (recv codec s).1).keep = true → Consumed s (recv codec s).2) ∧
    ∀ (frames : List Frame) (rest : Bytes) (arrivals : List (Option Nat)) (st : Process Sub)
      (turns : List Turn) (conv : Conversation Sub),
      turns.length ≤ frames.length →
      run (Conversation.step codec encode p)
        (.start ⟨frames.flatMap Frame.bytes ++ rest, arrivals⟩ st) turns = some conv →
      conv.seen = (frames.take turns.length).map (Frame.message codec) ∧
        conv.socket.unread = (frames.drop turns.length).flatMap Frame.bytes ++ rest := by
  refine ⟨fun s n st hkeep => ?_, fun s c env hkeep => ?_,
    fun frames rest arrivals st turns conv hlen hrun => ?_⟩
  · exact (recv_consumed (runClientInit_complete hkeep)).1
  · exact (recv_consumed (Client.runRequest_complete hkeep)).1
  · exact run_frames rfl hrun hlen

/-! ## Three frames on a prompt stream -/

section Prompt

variable {f : Frame} {rest : Bytes} {k : Nat} {s : Socket} {st : Process Sub}

theorem step_init_prompt (encode : Bytes → Option Bytes) (seen : List Received) {n : Newcomer}
    (hs : s.unread = f.bytes ++ rest) (hprompt : s.Prompt (8 + (f.body.length + k)))
    (hkeep : (runClientInit p n (f.message codec) st).keep = true) :
    ∃ s', Conversation.step codec encode p ⟨none, st, s, seen⟩ (.init n) =
        some ⟨some (runClientInit p n (f.message codec) st).client,
          (runClientInit p n (f.message codec) st).process, s', seen ++ [f.message codec]⟩ ∧
      s'.unread = rest ∧ s'.Prompt k := by
  obtain ⟨s', hrecv, hs', hk⟩ := f.recv_prompt codec hs hprompt
  exact ⟨s', by simp only [Conversation.step, hrecv, hkeep, if_true], hs', hk⟩

theorem step_request_prompt {seen : List Received} {env : Env} {c : Client}
    (hs : s.unread = f.bytes ++ rest) (hprompt : s.Prompt (8 + (f.body.length + k)))
    (hkeep : (c.runRequest encode env (f.message codec)).keep = true) :
    ∃ s', Conversation.step codec encode p ⟨some c, st, s, seen⟩ (.request env) =
        some ⟨some (c.runRequest encode env (f.message codec)).client, st, s',
          seen ++ [f.message codec]⟩ ∧
      s'.unread = rest ∧ s'.Prompt k := by
  obtain ⟨s', hrecv, hs', hk⟩ := f.recv_prompt codec hs hprompt
  exact ⟨s', by simp only [Conversation.step, hrecv, hkeep, if_true], hs', hk⟩

end Prompt

/-- A command of the client. -/
def commandObj (method : Bytes) (arguments : List Obj) : Obj :=
  .array [.str method, .array arguments]

theorem message_of_encode {f : Frame} {o : Obj} {r : Request} (hbody : f.body = o.encode)
    (hv : o.Valid) (hwithin : o.within brokerLimits maxDepth = true)
    (hsmall : f.body.length < maxMsgBodySize) (hr : asRequest o = some r) :
    f.message Codec.format = .request r := by
  rw [Frame.message, if_neg (Nat.not_le.mpr hsmall), unpackRequest, hbody,
    Codec.format_conforms.unpack_encode hv, if_pos hwithin]
  dsimp only
  rw [hr]

/-- The first settings of a client: no setting of its own, and a service. -/
def initArguments : List Obj :=
  [.int 4711, .str "0.9.0", .str "8.2.7", .nil,
    .map [(.str "service", .str "shop"), (.str "env", .str "prod")]]

def initFrame : Frame :=
  ⟨[0x64, 0x64, 0x73, 0], (commandObj "client_init" initArguments).encode, rfl, by decide⟩

/-- The client, as the helper takes it from the frame. -/
def shopClient : Newcomer :=
  { Newcomer.plain none with request := (msgpackToClientInit (.array initArguments)).request }

/-- A body of the first size that the helper discards. -/
@[irreducible] def largeFrame : Frame :=
  ⟨[0x64, 0x64, 0x73, 0], List.replicate maxMsgBodySize 0, rfl,
    by rw [List.length_replicate]; decide⟩

def requestInitFrame : Frame :=
  ⟨[0x64, 0x64, 0x73, 0], (commandObj "request_init" [.map []]).encode, rfl, by decide⟩

/-- A service that is enabled and an engine that finds nothing. -/
def quietEnv : Env := ⟨.enabled, some ⟨.record, ∅, [], ∅, false⟩, false, ∅, ∅, .sent⟩

def threeFrames : List Frame := [initFrame, largeFrame, requestInitFrame]

def threeTurns : List Turn := [.init shopClient, .request quietEnv, .request quietEnv]

theorem initFrame_message :
    initFrame.message Codec.format = .request ⟨.clientInit, .invalid⟩ :=
  message_of_encode rfl
    (by simp [commandObj, initArguments, Obj.Valid, ValidItems, ValidEntries]; decide)
    (by decide) (by decide) rfl

theorem largeFrame_message : largeFrame.message Codec.format = .tooLarge := by
  unfold largeFrame
  rw [Frame.message, if_pos]
  exact (List.length_replicate ..).ge

theorem requestInitFrame_message :
    requestInitFrame.message Codec.format = .request ⟨.requestInit, .map []⟩ :=
  message_of_encode rfl (by simp [commandObj, Obj.Valid, ValidItems, ValidEntries]; decide)
    (by decide) (by decide) rfl

theorem three_bytes (a b c : Frame) (rest : Bytes) :
    [a, b, c].flatMap Frame.bytes ++ rest = a.bytes ++ (b.bytes ++ (c.bytes ++ rest)) := by
  simp only [List.flatMap_cons, List.flatMap_nil, List.append_nil, List.append_assoc]

theorem three_prompt (a b c : Frame) (rest : Bytes) :
    (Socket.holding ([a, b, c].flatMap Frame.bytes ++ rest)).Prompt
      (8 + (a.body.length + (8 + (b.body.length + (8 + (c.body.length + rest.length)))))) := by
  refine (Socket.holding_prompt _).mono (Nat.le_of_eq ?_)
  simp only [three_bytes, Frame.bytes, List.length_append, length_bytesLE, a.hcode, b.hcode,
    c.hcode]
  omega

/-- The client that the first frame leaves. The second one is answered with an
error, and the client follows the status of its service from then on. -/
def initialized (requestEnabled : Bool) : Client := ⟨some 0, none, requestEnabled, none, 0⟩

/-- The connection is kept for the three frames. -/
theorem threeFrames_kept :
    ∃ conv, run (Conversation.step Codec.format (fun _ => none) Platform.plain)
        (.start (.holding (threeFrames.flatMap Frame.bytes ++ [0x64])) .start) threeTurns =
          some conv := by
  have hinit : (runClientInit Platform.plain shopClient (initFrame.message Codec.format)
      .start).keep = true := by
    rw [initFrame_message]
    rfl
  have hclient : (runClientInit Platform.plain shopClient (initFrame.message Codec.format)
      .start).client = initialized false := by
    rw [initFrame_message]
    rfl
  have hlarge : (initialized false).runRequest (fun _ => none) quietEnv
      (largeFrame.message Codec.format) = ⟨initialized true, true, some .error, []⟩ := by
    rw [largeFrame_message]
    rfl
  have hrequest : ((initialized true).runRequest (fun _ => none) quietEnv
      (requestInitFrame.message Codec.format)).keep = true := by
    rw [requestInitFrame_message]
    rfl
  obtain ⟨s₁, h₁, hs₁, hp₁⟩ := step_init_prompt (fun _ => none) [] (three_bytes ..)
    (three_prompt initFrame largeFrame requestInitFrame [0x64]) hinit
  obtain ⟨s₂, h₂, hs₂, hp₂⟩ := step_request_prompt hs₁ hp₁ (congrArg Outcome.keep hlarge)
  obtain ⟨s₃, h₃, _⟩ := step_request_prompt hs₂ hp₂ hrequest
  rw [hclient] at h₁
  rw [hlarge] at h₂
  exact ⟨_, run_cons.mpr ⟨_, h₁, run_cons.mpr ⟨_, h₂, run_cons.mpr ⟨_, h₃, rfl⟩⟩⟩⟩

/-- **A body that is discarded between two that are decoded**: the messages are
those of the frames, and a byte of a fourth one is still there. -/
theorem large_frame_in_sync :
    ∃ conv, run (Conversation.step Codec.format (fun _ => none) Platform.plain)
        (.start (.holding (threeFrames.flatMap Frame.bytes ++ [0x64])) .start) threeTurns =
          some conv ∧
      conv.seen = [.request ⟨.clientInit, .invalid⟩, .tooLarge,
        .request ⟨.requestInit, .map []⟩] ∧
      conv.socket.unread = [0x64] := by
  obtain ⟨conv, hrun⟩ := threeFrames_kept
  obtain ⟨hseen, hunread⟩ := (frames_stay_in_sync Codec.format (fun _ => none)
    Platform.plain).2.2 threeFrames [0x64] _ .start threeTurns conv (Nat.le_refl 3) hrun
  refine ⟨conv, hrun, ?_, hunread⟩
  rw [hseen]
  simp only [threeFrames, threeTurns, List.take, List.length_cons, List.length_nil, List.map,
    initFrame_message, largeFrame_message, requestInitFrame_message]

end DdAppsec.Helper
