import DdAppsec.Extension.RequestInit
import DdAppsec.Helper.Broker

/-!
# Protocol — which requests the helper takes

Both ends of one `request_init`. The extension writes whatever the
superglobals hold; the LIMITS are the helper's alone. So a request is
accepted exactly if its message happens to be within them
(`request_accepted_iff`), and anything beyond is answered with an error: the
connection stays, and no context gets to see the request.

What is accepted is not always all of it. `objImage` is the parameter that
stands for the map that was written; of this the helper keeps twenty LEVELS
(`cut`), and what is further down is invalid in the request.

A body of 4 GiB or more is announced with a length that is too small. What
the helper then reads is a strict beginning of the message, which it does not
accept either.
-/

namespace DdAppsec.Protocol

open Lib Lib.MsgPack Extension

/-! ## What was written -/

section Image

-- what becomes of a `double`
variable (double : Float → Float)

/-- The text of a key. -/
def keyText : Obj → Bytes
  | .str s => s
  | _ => []

mutual

/-- The parameter that stands for an object with string keys. -/
def objImage : Obj → Helper.Parameter
  | .nil => .null
  | .boolean b => .boolean b
  | .int i => if 0 ≤ i then .uint64 i.toNat else .int64 i
  | .double bits => .float64 (double (Float.ofBits bits))
  | .str s => .string s
  | .array items => .array (itemImages items)
  | .map entries => .map (entryImages entries)

def itemImages : List Obj → List Helper.Parameter
  | [] => []
  | o :: rest => objImage o :: itemImages rest

def entryImages : List (Obj × Obj) → List (Bytes × Helper.Parameter)
  | [] => []
  | (k, v) :: rest => (keyText k, objImage v) :: entryImages rest

end

end Image

/-- A `double` that went through `float`. -/
def single (f : Float) : Float := f.toFloat32.toFloat

mutual

/-- The first `n` levels; what is further down is invalid. -/
def cut (n : Nat) : Helper.Parameter → Helper.Parameter
  | .array elems => if n = 0 then .invalid else .array (cutElems (n - 1) elems)
  | .map entries => if n = 0 then .invalid else .map (cutEntries (n - 1) entries)
  | .uninitialised => if n = 0 then .invalid else .uninitialised
  | .invalid => .invalid
  | .int64 i => if n = 0 then .invalid else .int64 i
  | .uint64 i => if n = 0 then .invalid else .uint64 i
  | .string s => if n = 0 then .invalid else .string s
  | .boolean b => if n = 0 then .invalid else .boolean b
  | .float64 f => if n = 0 then .invalid else .float64 f
  | .null => if n = 0 then .invalid else .null

def cutElems (n : Nat) : List Helper.Parameter → List Helper.Parameter
  | [] => []
  | p :: rest => cut n p :: cutElems n rest

def cutEntries (n : Nat) : List (Bytes × Helper.Parameter) → List (Bytes × Helper.Parameter)
  | [] => []
  | (key, p) :: rest => (key, cut n p) :: cutEntries n rest

end

mutual

/-- How many levels there are: one for a value without others in it. -/
def levels : Obj → Nat
  | .array items => itemLevels items + 1
  | .map entries => entryLevels entries + 1
  | .nil | .boolean _ | .int _ | .double _ | .str _ => 1

def itemLevels : List Obj → Nat
  | [] => 0
  | o :: rest => max (levels o) (itemLevels rest)

def entryLevels : List (Obj × Obj) → Nat
  | [] => 0
  | (_, v) :: rest => max (levels v) (entryLevels rest)

end

mutual

/-- No `double` is more precise than a `float`. -/
def SingleDoubles : Obj → Prop
  | .double bits => single (Float.ofBits bits) = Float.ofBits bits
  | .array items => SingleItems items
  | .map entries => SingleEntries entries
  | .nil | .boolean _ | .int _ | .str _ => True

def SingleItems : List Obj → Prop
  | [] => True
  | o :: rest => SingleDoubles o ∧ SingleItems rest

def SingleEntries : List (Obj × Obj) → Prop
  | [] => True
  | (_, v) :: rest => SingleDoubles v ∧ SingleEntries rest

end

/-! ## What is meant -/

/-- `broker::recv` returns a request. -/
def Accepted (received : Helper.Received) : Prop := ∃ request, received = .request request

/-- The map of the request. -/
def written (r : HttpRequest) : Obj := .map (requestEntries r)

/-- The request as it was written. -/
def meantRequest (r : HttpRequest) : Helper.Received :=
  .request ⟨.requestInit, objImage id (written r)⟩

/-- The same without what is below twenty levels, and with `float`s. -/
def cutRequest (r : HttpRequest) : Helper.Received :=
  .request ⟨.requestInit, cut Helper.maxParamDepth (objImage single (written r))⟩

/-- Whatever the client, it answers with an error and publishes nothing; the
connection is kept if the answer could be written. -/
def Refused (received : Helper.Received) : Prop :=
  ∀ encode env (c : Helper.Client),
    (c.runRequest encode env received).response = some .error ∧
      (c.runRequest encode env received).events = [] ∧
      (c.runRequest encode env received).keep = decide (env.send = .sent)

/-- The limits of `broker.hpp`, on the message and on its bytes. -/
def WithinLimits (codec : Codec) (r : HttpRequest) : Prop :=
  (message r).within Helper.brokerLimits Helper.maxDepth = true ∧
    (command codec r).length < Helper.maxMsgBodySize

/-! ## What is not accepted -/

/-- The exceptions of `broker::recv` after which the connection goes on. -/
def Recoverable (received : Helper.Received) : Prop :=
  received = .tooLarge ∨ received = .badCast ∨ received = .unpackError

theorem Recoverable.refused {received : Helper.Received} (h : Recoverable received) :
    Refused received := by
  intro encode env c
  -- enabled or not, the client gets no further than the exception
  have herror : c.runRequest encode env received = c.sendError env true := by
    unfold Helper.Client.runRequest
    rcases h with rfl | rfl | rfl <;> split <;> rfl
  rw [herror]
  unfold Helper.Client.sendError
  split
  · rename_i hsend
    simp [hsend]
  · rename_i hsend
    simp [Classical.not_not.mp hsend]

theorem Recoverable.not_accepted {received : Helper.Received} (h : Recoverable received) :
    ¬Accepted received := by
  rintro ⟨request, rfl⟩
  rcases h with h | h | h <;> cases h

variable {codec : Codec}

theorem unpackRequest_of_error {bytes : Bytes}
    (h : ∀ o, codec.unpack Helper.brokerLimits Helper.maxDepth bytes ≠ .ok o) :
    Recoverable (Helper.unpackRequest codec bytes) := by
  unfold Helper.unpackRequest Recoverable
  cases hunpack : codec.unpack Helper.brokerLimits Helper.maxDepth bytes with
  | ok o => exact absurd hunpack (h o)
  | error e => cases e <;> simp

/-! ## What is accepted -/

theorem belowDepth_some {depth : Nat} {p q : Helper.Parameter}
    (hq : q = if Helper.maxParamDepth - depth = 0 then .invalid else p) :
    Helper.belowDepth depth (some p) = some q := by
  rw [hq, Helper.belowDepth]
  by_cases hdeep : Helper.maxParamDepth ≤ depth
  · rw [if_pos hdeep, if_pos (by omega)]
  · rw [if_neg hdeep, if_neg (by omega)]

mutual

/-- **What `msgpack_to_param` makes of an object**: its image, as many levels
of it as there are left. -/
theorem msgpackToParam_eq (o : Obj) (h : o.StringKeys) (depth : Nat) :
    Helper.msgpackToParam depth o =
      some (cut (Helper.maxParamDepth - depth) (objImage single o)) := by
  match o with
  | .nil | .boolean _ | .double _ | .str _ => exact belowDepth_some rfl
  | .int i =>
    rw [Helper.msgpackToParam, objImage]
    split <;> exact belowDepth_some rfl
  | .array items =>
    rw [Helper.msgpackToParam, msgpackToItems_eq items h (depth + 1)]
    exact belowDepth_some rfl
  | .map entries =>
    rw [Helper.msgpackToParam, msgpackToEntries_eq entries h (depth + 1)]
    exact belowDepth_some rfl

theorem msgpackToItems_eq (items : List Obj) (h : StringKeysItems items) (depth : Nat) :
    Helper.msgpackToItems depth items =
      some (cutElems (Helper.maxParamDepth - depth) (itemImages single items)) := by
  match items with
  | [] => rfl
  | o :: rest =>
    rw [Helper.msgpackToItems, msgpackToParam_eq o h.1 depth, msgpackToItems_eq rest h.2 depth]
    rfl

theorem msgpackToEntries_eq (entries : List (Obj × Obj)) (h : StringKeysEntries entries)
    (depth : Nat) :
    Helper.msgpackToEntries depth entries =
      some (cutEntries (Helper.maxParamDepth - depth) (entryImages single entries)) := by
  match entries with
  | [] => rfl
  | (k, v) :: rest =>
    obtain ⟨s, rfl⟩ := h.1
    rw [Helper.msgpackToEntries, msgpackToParam_eq v h.2.1 depth,
      msgpackToEntries_eq rest h.2.2 depth]
    rfl

end

mutual

/-- **Nothing is lost exactly if** there are not more levels than are kept, and
no `double` is more precise than a `float`. -/
theorem cut_eq_iff (n : Nat) (o : Obj) :
    cut n (objImage single o) = objImage id o ↔ levels o ≤ n ∧ SingleDoubles o := by
  match o with
  | .nil | .boolean _ | .str _ => cases n <;> simp [objImage, cut, levels, SingleDoubles]
  | .int i =>
    rw [objImage, objImage]
    split <;> cases n <;> simp [cut, levels, SingleDoubles]
  | .double bits => cases n <;> simp [objImage, cut, levels, SingleDoubles]
  | .array items =>
    rw [objImage, objImage, cut, levels, SingleDoubles]
    cases n with
    | zero => simp
    | succ n => simp [cutElems_eq_iff n items]
  | .map entries =>
    rw [objImage, objImage, cut, levels, SingleDoubles]
    cases n with
    | zero => simp
    | succ n => simp [cutEntries_eq_iff n entries]

theorem cutElems_eq_iff (n : Nat) (items : List Obj) :
    cutElems n (itemImages single items) = itemImages id items ↔
      itemLevels items ≤ n ∧ SingleItems items := by
  match items with
  | [] => simp [itemImages, cutElems, itemLevels, SingleItems]
  | o :: rest =>
    rw [itemImages, itemImages, cutElems, itemLevels, SingleItems, List.cons.injEq,
      cut_eq_iff n o, cutElems_eq_iff n rest, Nat.max_le]
    exact and_and_and_comm

theorem cutEntries_eq_iff (n : Nat) (entries : List (Obj × Obj)) :
    cutEntries n (entryImages single entries) = entryImages id entries ↔
      entryLevels entries ≤ n ∧ SingleEntries entries := by
  match entries with
  | [] => simp [entryImages, cutEntries, entryLevels, SingleEntries]
  | (k, v) :: rest =>
    rw [entryImages, entryImages, cutEntries, entryLevels, SingleEntries, List.cons.injEq,
      Prod.mk.injEq, cut_eq_iff n v, cutEntries_eq_iff n rest, Nat.max_le,
      and_iff_right (Eq.refl (keyText k))]
    exact and_and_and_comm

end

theorem cutRequest_eq_iff (r : HttpRequest) :
    cutRequest r = meantRequest r ↔
      levels (written r) ≤ Helper.maxParamDepth ∧ SingleDoubles (written r) := by
  rw [cutRequest, meantRequest, ← cut_eq_iff]
  constructor
  · intro h
    injection h with h
    injection h
  · exact fun h => by rw [h]

theorem asRequest_message (hc : codec.Conforms) (r : HttpRequest) :
    Helper.asRequest (message r) =
      some ⟨.requestInit, cut Helper.maxParamDepth (objImage single (written r))⟩ := by
  have hparam : Helper.msgpackToParam 0 (written r) = _ :=
    msgpackToParam_eq (written r) (writes_request hc r).stringKeys 0
  have hid : Helper.commandNameToId "request_init" = .requestInit := by decide
  have hrequest := Helper.asRequest_requestInit hid (.array [written r])
  rw [Helper.msgpackToRequest, hparam] at hrequest
  exact hrequest

/-- The body as it is: the message is accepted exactly if it is within the
limits of the unpacker. -/
theorem unpackRequest_command (hc : codec.Conforms) (r : HttpRequest) :
    ((message r).within Helper.brokerLimits Helper.maxDepth = true →
      Helper.unpackRequest codec (command codec r) = cutRequest r) ∧
    ((message r).within Helper.brokerLimits Helper.maxDepth = false →
      Helper.unpackRequest codec (command codec r) = .unpackError) := by
  have hwrites := writes_command hc r
  have hunpack : codec.unpack Helper.brokerLimits Helper.maxDepth (message r).encode = _ :=
    hc.unpack_encode hwrites.valid Helper.maxDepth
  constructor
  · intro hwithin
    rw [Helper.unpackRequest, hwrites.eq, hunpack, hwithin]
    simp [asRequest_message hc r, cutRequest]
  · intro hbeyond
    rw [Helper.unpackRequest, hwrites.eq, hunpack, hbeyond]
    simp

/-! ## Both ends -/

/-- What the helper makes of a frame: either the length is refused, or it
unpacks as many bytes of the body as the header says. -/
theorem recv_connSendv (codec : Codec) (body : Bytes) {s : Helper.Socket} {more : Bytes}
    (hs : s.unread = connSendv body ++ more) (hprompt : s.Prompt (connSendv body).length) :
    (Helper.recv codec s).1 =
      if Helper.maxMsgBodySize ≤ body.length % 256 ^ 4 then .tooLarge
      else Helper.unpackRequest codec (body.take (body.length % 256 ^ 4)) := by
  have hle := Nat.mod_le body.length (256 ^ 4)
  rw [connSendv, List.append_assoc] at hs
  obtain ⟨s', hrecv, _⟩ := Helper.recv_message (k := 0) codec rfl hs
    (by rw [List.length_append]; omega) (hprompt.mono (by simp [connSendv]; omega))
  rw [hrecv, List.take_append_of_le_length hle]

section Ends

variable (hc : codec.Conforms) (r : HttpRequest) {s : Helper.Socket} {more : Bytes}
  (hs : s.unread = connSendv (command codec r) ++ more)
  (hprompt : s.Prompt (connSendv (command codec r)).length)

include hc hs hprompt

theorem recv_within (h : WithinLimits codec r) : (Helper.recv codec s).1 = cutRequest r := by
  have hlen : (command codec r).length < 65536 := h.2
  rw [recv_connSendv codec (command codec r) hs hprompt, Nat.mod_eq_of_lt (by omega),
    if_neg (Nat.not_le_of_lt h.2), List.take_of_length_le (Nat.le_refl _)]
  exact (unpackRequest_command hc r).1 h.1

theorem recv_beyond (h : ¬WithinLimits codec r) : Recoverable (Helper.recv codec s).1 := by
  have hwrites := writes_command hc r
  rw [recv_connSendv codec (command codec r) hs hprompt]
  split
  · exact Or.inl rfl
  · rename_i hsmall
    by_cases hwhole : (command codec r).length < 256 ^ 4
    · -- the body is complete, so it is the message that is beyond the limits
      rw [Nat.mod_eq_of_lt hwhole] at hsmall ⊢
      rw [List.take_of_length_le (Nat.le_refl _)]
      cases hwithin : (message r).within Helper.brokerLimits Helper.maxDepth with
      | true => exact absurd ⟨hwithin, Nat.lt_of_not_le hsmall⟩ h
      | false => exact Or.inr (Or.inr ((unpackRequest_command hc r).2 hwithin))
    · -- the length has wrapped around, and a strict beginning is unpacked
      have hmod : (command codec r).length % 256 ^ 4 < 256 ^ 4 := Nat.mod_lt _ (by decide)
      have hsplit := List.take_append_drop ((command codec r).length % 256 ^ 4) (command codec r)
      have hmore : (command codec r).drop ((command codec r).length % 256 ^ 4) ≠ [] := by
        rw [Ne, List.drop_eq_nil_iff]
        omega
      exact unpackRequest_of_error
        (hc.unpack_strict hwrites.valid Helper.maxDepth (hsplit.trans hwrites.eq) hmore)

/-- **Which requests are accepted.** For every content of the superglobals,
`broker::recv` accepts the message exactly if it is within the limits, and
refuses it otherwise. What it returns is the request down to twenty levels, and
so all of it exactly if there are no more. -/
theorem request_accepted_iff :
    (Accepted (Helper.recv codec s).1 ↔ WithinLimits codec r) ∧
      (WithinLimits codec r → (Helper.recv codec s).1 = cutRequest r) ∧
      ((Helper.recv codec s).1 = meantRequest r ↔ WithinLimits codec r ∧
        levels (written r) ≤ Helper.maxParamDepth ∧ SingleDoubles (written r)) ∧
      (¬WithinLimits codec r → Refused (Helper.recv codec s).1) := by
  have haccepted : Accepted (Helper.recv codec s).1 → WithinLimits codec r := fun h =>
    Classical.byContradiction fun hbeyond =>
      (recv_beyond hc r hs hprompt hbeyond).not_accepted h
  have hwithin := recv_within hc r hs hprompt
  refine ⟨⟨haccepted, fun h => ⟨_, hwithin h⟩⟩, hwithin, ?_,
    fun h => (recv_beyond hc r hs hprompt h).refused⟩
  constructor
  · intro hmeant
    have hlimits := haccepted ⟨_, hmeant⟩
    exact ⟨hlimits, (cutRequest_eq_iff r).mp ((hwithin hlimits).symm.trans hmeant)⟩
  · rintro ⟨hlimits, hwhole⟩
    exact (hwithin hlimits).trans ((cutRequest_eq_iff r).mpr hwhole)

end Ends

/-! ## A posted comment -/

/-- `POST /comments` with one field. -/
def commentRequest (text : Bytes) : HttpRequest where
  method := some "POST"
  get := some []
  post := some [(.str "comment", .string text)]
  cookie := some []
  server := some [(.str "REQUEST_URI", .string "/comments"),
    (.str "HTTP_HOST", .string "localhost")]
  files := some []
  clientIp := some "127.0.0.1"
  rawBody := none
  tables := by simp [Zval.Valid, ValidTable]
  method_fits := by
    intro s hs
    cases hs
    decide
  uri_fits := by
    intro s hs
    cases hs
    decide

theorem singleItems_map_strObj (list : List Bytes) : SingleItems (list.map strObj) := by
  induction list with
  | nil => trivial
  | cons s list ih => exact ⟨trivial, ih⟩

theorem commentRequest_single (text : Bytes) : SingleDoubles (written (commentRequest text)) := by
  have hheaders : headersObj (commentRequest text).server =
      .map [(strObj "host", strObj "localhost")] := rfl
  have hpath (uri : Option Bytes) : SingleDoubles (pathParamsObj uri) := by
    cases uri with
    | none => trivial
    | some uri => exact singleItems_map_strObj (pathParams uri)
  refine ⟨trivial, trivial, trivial, trivial, ?_, ⟨trivial, trivial⟩, trivial, trivial,
    hpath _, trivial, trivial⟩
  rw [hheaders]
  exact ⟨trivial, trivial⟩

theorem short_comment_accepted :
    (Helper.recv Codec.format (.holding
        (connSendv (command Codec.format (commentRequest "hello"))))).1 =
      meantRequest (commentRequest "hello") :=
  (request_accepted_iff Codec.format_conforms (commentRequest "hello")
    (List.append_nil _).symm (Helper.Socket.holding_prompt _)).2.2.1.mpr
    ⟨⟨by decide +kernel, by decide +kernel⟩, by decide +kernel, commentRequest_single "hello"⟩

/-- 4097 bytes in one field, and the request is not analysed. -/
theorem long_comment_refused :
    ¬Accepted (Helper.recv Codec.format (.holding
      (connSendv (command Codec.format (commentRequest (List.replicate 4097 0x61)))))).1 := by
  have hbeyond : ¬WithinLimits Codec.format (commentRequest (List.replicate 4097 0x61)) :=
    fun h => absurd h.1 (by decide +kernel)
  exact (recv_beyond Codec.format_conforms _ (List.append_nil _).symm
    (Helper.Socket.holding_prompt _) hbeyond).not_accepted

end DdAppsec.Protocol
