import DdAppsec.Helper.Client
import DdAppsec.Lib.MsgPack

/-!
# Helper — receiving a message

`recv` is `broker::recv`: a header with the size of the body, the body, and
what MessagePack makes of it under the limits of the broker. `Codec` stands
for msgpack-c.

The kernel hands over the stream in pieces of its own choosing. A socket
therefore carries, besides the bytes on their way, how many of them each
coming call of `::recv` finds. `Socket.Prompt` is a stream that neither
stalls nor ends within a message, and `recv_message` what `recv` then
returns: it depends on the body alone.
-/

namespace DdAppsec.Helper

open Lib Lib.MsgPack

/-! ## The socket -/

/-- The helper's end of a connection. An arrival is what one call of `::recv`
finds, `none` if it fails, as on a time out; after the last one the stream has
ended. -/
structure Socket where
  unread : Bytes
  arrivals : List (Option Nat)

/-- Call `::recv` for at most `chunk` bytes until `len` have been received,
the stream ends or a call fails; the flag says whether it failed. -/
def readLoop (len chunk : Nat) : List (Option Nat) → Bytes → Bytes → Bytes × Bool × Socket
  | [], received, unread => (received, false, ⟨unread, []⟩)
  | arrival :: arrivals, received, unread =>
    if len ≤ received.length then (received, false, ⟨unread, arrival :: arrivals⟩)
    else
      match arrival with
      | none => (received, true, ⟨unread, arrivals⟩)
      | some found =>
        let n := min (min (len - received.length) chunk) found
        match unread.take n with
        -- nothing found is the end of the stream
        | [] => (received, false, ⟨unread, arrivals⟩)
        | b :: bytes => readLoop len chunk arrivals (received ++ b :: bytes) (unread.drop n)

/-- `socket::recv`, `none` where it throws `std::system_error`. -/
def Socket.recv (len : Nat) (s : Socket) : Option Bytes × Socket :=
  match readLoop len len s.arrivals [] s.unread with
  | (_, true, s) => (none, s)
  | (received, false, s) => (some received, s)

/-- `socket::discard`: how many bytes have gone. A failing call ends it like
the end of the stream. -/
def Socket.discard (len : Nat) (s : Socket) : Nat × Socket :=
  match readLoop len 65535 s.arrivals [] s.unread with
  | (received, _, s) => (received.length, s)

/-! ## Requests -/

/-- `max_depth` of `msgpack_to_param`. -/
def maxParamDepth : Nat := 20

/-- The check at the beginning of `msgpack_to_param`. -/
def belowDepth (depth : Nat) (p : Option Parameter) : Option Parameter :=
  if maxParamDepth ≤ depth then some .invalid else p

mutual

/-- `msgpack_to_param`, `none` where a key that is not a string makes it throw
`type_error`. A double goes through `float`. -/
def msgpackToParam (depth : Nat) : Obj → Option Parameter
  | .array items => belowDepth depth ((msgpackToItems (depth + 1) items).map .array)
  | .map entries => belowDepth depth ((msgpackToEntries (depth + 1) entries).map .map)
  | .str s => belowDepth depth (some (.string s))
  | .boolean b => belowDepth depth (some (.boolean b))
  | .double bits => belowDepth depth (some (.float64 (Float.ofBits bits).toFloat32.toFloat))
  | .int i => belowDepth depth (some (if 0 ≤ i then .uint64 i.toNat else .int64 i))
  | .nil => belowDepth depth (some .null)

def msgpackToItems (depth : Nat) : List Obj → Option (List Parameter)
  | [] => some []
  | o :: rest => (msgpackToParam depth o).bind fun p => (msgpackToItems depth rest).map (p :: ·)

def msgpackToEntries (depth : Nat) : List (Obj × Obj) → Option (List (Bytes × Parameter))
  | [] => some []
  | (k, v) :: rest =>
    match k with
    | .str key => (msgpackToParam depth v).bind fun p =>
        (msgpackToEntries depth rest).map ((key, p) :: ·)
    | _ => none

end

mutual

/-- Objects with string keys convert, at any depth. -/
theorem msgpackToParam_isSome (o : Obj) (h : o.StringKeys) (depth : Nat) :
    ∃ p, msgpackToParam depth o = some p := by
  have hdepth : ∀ p, ∃ p', belowDepth depth (some p) = some p' := by
    intro p
    unfold belowDepth
    split <;> exact ⟨_, rfl⟩
  match o with
  | .nil | .boolean _ | .int _ | .double _ | .str _ =>
    rw [msgpackToParam]
    exact hdepth _
  | .array items =>
    obtain ⟨ps, hps⟩ := msgpackToItems_isSome items h (depth + 1)
    rw [msgpackToParam, hps]
    exact hdepth _
  | .map entries =>
    obtain ⟨ps, hps⟩ := msgpackToEntries_isSome entries h (depth + 1)
    rw [msgpackToParam, hps]
    exact hdepth _

theorem msgpackToItems_isSome (items : List Obj) (h : StringKeysItems items) (depth : Nat) :
    ∃ ps, msgpackToItems depth items = some ps := by
  match items with
  | [] => exact ⟨_, rfl⟩
  | o :: rest =>
    obtain ⟨p, hp⟩ := msgpackToParam_isSome o h.1 depth
    obtain ⟨ps, hps⟩ := msgpackToItems_isSome rest h.2 depth
    exact ⟨p :: ps, by rw [msgpackToItems, hp, hps]; rfl⟩

theorem msgpackToEntries_isSome (entries : List (Obj × Obj)) (h : StringKeysEntries entries)
    (depth : Nat) : ∃ ps, msgpackToEntries depth entries = some ps := by
  match entries with
  | [] => exact ⟨_, rfl⟩
  | (k, v) :: rest =>
    obtain ⟨s, rfl⟩ := h.1
    obtain ⟨p, hp⟩ := msgpackToParam_isSome v h.2.1 depth
    obtain ⟨ps, hps⟩ := msgpackToEntries_isSome rest h.2.2 depth
    exact ⟨(s, p) :: ps, by rw [msgpackToEntries, hp, hps]; rfl⟩

end

/-- `command_name_to_id`. -/
def commandNameToId (method : Bytes) : RequestId :=
  if method = "client_init" then .clientInit
  else if method = "request_init" then .requestInit
  else if method = "request_exec" then .requestExec
  else if method = "config_sync" then .configSync
  else if method = "request_shutdown" then .requestShutdown
  else .unknown

/-- `msgpack_to_request` for the commands with a single parameter: whatever is
thrown leaves the default, an invalid parameter. -/
def msgpackToRequest : Obj → Parameter
  | .array (o :: _) => (msgpackToParam 0 o).getD .invalid
  | _ => .invalid

/-- `as<request>`, `none` where it throws `type_error`. The arguments of
`client_init` are not a parameter and left out here. -/
def asRequest : Obj → Option Request
  | .array [.str method, arguments] =>
    let id := commandNameToId method
    match id with
    | .requestInit | .requestExec | .requestShutdown => some ⟨id, msgpackToRequest arguments⟩
    | .clientInit | .configSync | .unknown => some ⟨id, .invalid⟩
  | _ => none

theorem asRequest_requestInit {method : Bytes} (hid : commandNameToId method = .requestInit)
    (arguments : Obj) :
    asRequest (.array [.str method, arguments]) =
      some ⟨.requestInit, msgpackToRequest arguments⟩ := by
  unfold asRequest
  dsimp only
  rw [hid]

/-! ## `broker::recv` -/

/-- `max_array_size`, `max_map_size`, `max_string_length`. -/
def brokerLimits : Limits := ⟨256, 256, 4096⟩

def maxDepth : Nat := 32

def maxMsgBodySize : Nat := 65536

/-- The end of `recv`: unpack the body and convert it. `next` returns `false`
when the object goes on behind the body. -/
def unpackRequest (codec : Codec) (body : Bytes) : Received :=
  match codec.unpack brokerLimits maxDepth body with
  | .error .insufficient => .badCast
  | .error .overflow | .error .malformed => .unpackError
  | .ok o =>
    match asRequest o with
    | some r => .request r
    | none => .exception

/-- `broker::recv`. The first four bytes of the header are not looked at. -/
def recv (codec : Codec) (s : Socket) : Received × Socket :=
  match s.recv 8 with
  | (none, s) => (.exception, s)
  | (some header, s) =>
    if header.length = 0 then (.disconnect, s)
    else if header.length ≠ 8 then (.partialMessage, s)
    else
      let size := natLE (header.drop 4)
      if maxMsgBodySize ≤ size then
        -- the body goes first, so that the next header is found
        match s.discard size with
        | (discarded, s) => if discarded < size then (.partialMessage, s) else (.tooLarge, s)
      else
        match s.recv size with
        | (none, s) => (.exception, s)
        | (some body, s) =>
          if body.length ≠ size then (.partialMessage, s) else (unpackRequest codec body, s)

/-! ## A prompt stream -/

/-- Each call finds something, and there are calls enough for `n` bytes. -/
structure Socket.Prompt (s : Socket) (n : Nat) : Prop where
  calls : n ≤ s.arrivals.length
  finds : ∀ arrival ∈ s.arrivals, ∃ found, arrival = some (found + 1)

/-- A stream on which every call finds everything. -/
def Socket.holding (bytes : Bytes) : Socket :=
  ⟨bytes, List.replicate bytes.length (some (bytes.length + 1))⟩

theorem Socket.holding_prompt (bytes : Bytes) : (Socket.holding bytes).Prompt bytes.length where
  calls := by simp [Socket.holding]
  finds := by
    intro arrival harrival
    exact ⟨_, List.eq_of_mem_replicate harrival⟩

theorem Socket.Prompt.mono {s : Socket} {m n : Nat} (h : s.Prompt n) (hle : m ≤ n) : s.Prompt m :=
  ⟨Nat.le_trans hle h.calls, h.finds⟩

theorem readLoop_prompt {len chunk : Nat} (hchunk : 0 < chunk) (arrivals : List (Option Nat))
    (received unread : Bytes) {n : Nat} (hlen : len = received.length + n)
    (hunread : n ≤ unread.length) {k : Nat} (hprompt : Socket.Prompt ⟨unread, arrivals⟩ (n + k)) :
    ∃ s, readLoop len chunk arrivals received unread = (received ++ unread.take n, false, s) ∧
      s.unread = unread.drop n ∧ s.Prompt k := by
  -- one call for each arrival; `n` is what is still missing
  induction arrivals generalizing received unread n with
  | nil =>
    have hcalls : n + k ≤ 0 := hprompt.calls
    obtain rfl : n = 0 := by omega
    exact ⟨_, by simp [readLoop], rfl, ⟨by omega, hprompt.finds⟩⟩
  | cons arrival arrivals ih =>
    unfold readLoop
    by_cases hdone : n = 0
    · subst hdone
      rw [if_pos (by omega)]
      exact ⟨_, by simp, rfl, ⟨by have := hprompt.calls; omega, hprompt.finds⟩⟩
    · obtain ⟨found, rfl⟩ := hprompt.finds arrival (by simp)
      have hneed : len - received.length = n := by omega
      rw [if_neg (by omega)]
      dsimp only
      rw [hneed]
      -- the call finds at least one byte, and not more than are missing
      obtain ⟨m, hm⟩ : ∃ m, m = min (min n chunk) (found + 1) := ⟨_, rfl⟩
      rw [← hm]
      have hsplit : unread.take m ++ (unread.drop m).take (n - m) = unread.take n := by
        rw [← List.take_add, Nat.add_sub_cancel' (by omega)]
      have hdrop : (unread.drop m).drop (n - m) = unread.drop n := by
        rw [List.drop_drop, Nat.add_sub_cancel' (by omega)]
      have hlength : (unread.take m).length = m := by
        rw [List.length_take]
        omega
      cases htake : unread.take m with
      | nil =>
        rw [htake, List.length_nil] at hlength
        omega
      | cons b bytes =>
        rw [htake] at hsplit hlength
        have hcalls : n + k ≤ arrivals.length + 1 := by
          simpa using hprompt.calls
        have hrest : Socket.Prompt ⟨unread.drop m, arrivals⟩ (n - m + k) :=
          ⟨show n - m + k ≤ arrivals.length by omega,
            fun arrival harrival => hprompt.finds arrival (List.mem_cons_of_mem _ harrival)⟩
        obtain ⟨s, heq, hs, hk⟩ := ih (received ++ b :: bytes) (unread.drop m)
          (by rw [List.length_append, hlength]; omega)
          (by rw [List.length_drop]; omega) hrest
        refine ⟨s, ?_, by rw [hs, hdrop], hk⟩
        dsimp only
        rw [heq, List.append_assoc, hsplit]

theorem Socket.recv_prompt {s : Socket} {bytes rest : Bytes} (hs : s.unread = bytes ++ rest)
    {k : Nat} (hprompt : s.Prompt (bytes.length + k)) :
    ∃ s', s.recv bytes.length = (some bytes, s') ∧ s'.unread = rest ∧ s'.Prompt k := by
  by_cases hempty : bytes.length = 0
  · obtain rfl : bytes = [] := List.eq_nil_of_length_eq_zero hempty
    refine ⟨s, ?_, hs, ⟨by have := hprompt.calls; omega, hprompt.finds⟩⟩
    unfold Socket.recv
    cases harrivals : s.arrivals with
    | nil => simp [readLoop, ← harrivals]
    | cons arrival arrivals => simp [readLoop, ← harrivals]
  · have hlen : bytes.length = ([] : Bytes).length + bytes.length := by simp
    obtain ⟨s', heq, hs', hk⟩ := readLoop_prompt (Nat.pos_of_ne_zero hempty) s.arrivals []
      s.unread hlen (by rw [hs]; simp) hprompt
    refine ⟨s', ?_, by rw [hs', hs]; simp, hk⟩
    unfold Socket.recv
    rw [heq, hs]
    simp

theorem Socket.discard_prompt {s : Socket} {n k : Nat} (hn : n ≤ s.unread.length)
    (hprompt : s.Prompt (n + k)) :
    ∃ s', s.discard n = (n, s') ∧ s'.unread = s.unread.drop n ∧ s'.Prompt k := by
  have hlen : n = ([] : Bytes).length + n := by simp
  have hchunk : 0 < 65535 := by decide
  obtain ⟨s', heq, hs', hk⟩ := readLoop_prompt hchunk s.arrivals [] s.unread hlen hn hprompt
  refine ⟨s', ?_, hs', hk⟩
  unfold Socket.discard
  rw [heq]
  simp [hn]

/-- **A message that arrives.** `size` is what the header says; at least that
much is there, and exactly that much is gone afterwards. -/
theorem recv_message (codec : Codec) {s : Socket} {code rest : Bytes} {size k : Nat}
    (hcode : code.length = 4) (hs : s.unread = (code ++ bytesLE 4 size) ++ rest)
    (hrest : size % 256 ^ 4 ≤ rest.length) (hprompt : s.Prompt (8 + (size % 256 ^ 4 + k))) :
    ∃ s', recv codec s =
        (if maxMsgBodySize ≤ size % 256 ^ 4 then .tooLarge
        else unpackRequest codec (rest.take (size % 256 ^ 4)), s') ∧
      s'.unread = rest.drop (size % 256 ^ 4) ∧ s'.Prompt k := by
  have hheader : (code ++ bytesLE 4 size).length = 8 := by simp [hcode]
  have hsize : natLE ((code ++ bytesLE 4 size).drop 4) = size % 256 ^ 4 := by
    rw [← hcode, List.drop_left, natLE_bytesLE]
  obtain ⟨s₁, hrecv, hs₁, hprompt₁⟩ := Socket.recv_prompt hs (hheader.symm ▸ hprompt)
  rw [hheader] at hrecv
  unfold recv
  rw [hrecv]
  dsimp only
  rw [hheader, if_neg (by decide), if_neg (by decide), hsize]
  by_cases hlarge : maxMsgBodySize ≤ size % 256 ^ 4
  · obtain ⟨s₂, hdiscard, hs₂, hprompt₂⟩ := Socket.discard_prompt (hs₁ ▸ hrest) hprompt₁
    refine ⟨s₂, ?_, by rw [hs₂, hs₁], hprompt₂⟩
    rw [if_pos hlarge, if_pos hlarge, hdiscard]
    simp
  · have hlength : (rest.take (size % 256 ^ 4)).length = size % 256 ^ 4 := by
      rw [List.length_take]
      omega
    have hs₁' : s₁.unread = rest.take (size % 256 ^ 4) ++ rest.drop (size % 256 ^ 4) := by
      rw [hs₁, List.take_append_drop]
    obtain ⟨s₂, hbody, hs₂, hprompt₂⟩ := Socket.recv_prompt hs₁' (hlength.symm ▸ hprompt₁)
    refine ⟨s₂, ?_, hs₂, hprompt₂⟩
    rw [hlength] at hbody
    rw [if_neg hlarge, if_neg hlarge, hbody]
    dsimp only
    rw [hlength, if_neg (by simp)]

end DdAppsec.Helper
