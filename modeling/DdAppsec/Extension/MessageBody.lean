import DdAppsec.Extension.Credentials
import DdAppsec.Lib.Memory

/-!
# Extension — the buffer of a message body

`recvMessageBody` says which bytes are received; here is what
`_recv_message_body` does with memory. The buffer comes from `malloc`, the
loop advances the POINTER to it, and the error path frees that pointer.

`recvIntoBuffer_body` connects the two. `body_handled_iff` says when the body
is in the buffer, or the buffer is released.
-/

namespace DdAppsec.Extension

open Lib

/-! ## `_recv_message_body` -/

/-- What happens at one `recv`: it returns -1, or this many bytes have
arrived; zero is the end of the stream. -/
inductive RecvCall where
  | failed
  | arrived (n : Nat)
  deriving DecidableEq

/-- Where the loop ends: whether nothing remains, and what it has changed. -/
structure RecvEnd where
  complete : Bool
  buffer : Nat
  memory : Memory
  unread : Bytes

/-- The loop of `_recv_message_body`, with `remaining` first. -/
def recvLoop : Nat → List RecvCall → Nat → Memory → Bytes → RecvEnd
  | 0, _, buffer, memory, unread => ⟨true, buffer, memory, unread⟩
  | _ + 1, [], buffer, memory, unread => ⟨false, buffer, memory, unread⟩
  | _ + 1, .failed :: _, buffer, memory, unread => ⟨false, buffer, memory, unread⟩
  | n + 1, .arrived k :: calls, buffer, memory, unread =>
    match recv (n + 1) k unread with
    | ([], unread) => ⟨false, buffer, memory, unread⟩
    | (bytes, unread) =>
      recvLoop (n + 1 - bytes.length) calls (buffer + bytes.length)
        (memory.write buffer bytes) unread

/-- What the call leaves behind: `*data` and `*data_len` if they were set, and
the pointers given to `free`. -/
structure BodyOutcome where
  result : DdResult
  data : Option (Nat × Nat)
  memory : Memory
  freed : List Nat
  unread : Bytes

/-- `_recv_message_body`. `malloc` is what `malloc` returns. -/
def recvIntoBuffer (malloc : Option Nat) (expectedSize : Nat) (calls : List RecvCall)
    (memory : Memory) (unread : Bytes) : BodyOutcome :=
  match malloc with
  | none => ⟨.error, none, memory, [], unread⟩
  | some buffer =>
    let last := recvLoop expectedSize calls buffer memory unread
    if last.complete then
      ⟨.success, some (buffer, expectedSize), last.memory, [], last.unread⟩
    else
      -- `buffer` is not what it was before the loop
      ⟨.network, some (buffer, expectedSize), last.memory, [last.buffer], last.unread⟩

/-! ## What is meant -/

/-- **The buffer is handled**: it holds the next bytes of the stream and is
handed to the caller, or just that one is freed. -/
structure BodyHandled (malloc : Option Nat) (expectedSize : Nat) (stream : Bytes)
    (o : BodyOutcome) : Prop where
  received : o.result = .success → ∃ buffer, malloc = some buffer ∧
    o.data = some (buffer, expectedSize) ∧
    expectedSize ≤ stream.length ∧ o.memory.read buffer expectedSize = stream.take expectedSize ∧
    o.unread = stream.drop expectedSize ∧ o.freed = []
  released : o.result ≠ .success → o.freed = malloc.toList

/-- The bytes that have arrived. -/
def RecvCall.count : RecvCall → Nat
  | .failed => 0
  | .arrived n => n

/-- The first `recv` brings nothing. -/
def FirstRecvFails (calls : List RecvCall) (stream : Bytes) : Prop :=
  stream = [] ∨ ∀ call ∈ calls.head?, call.count = 0

/-- The stream holds the whole body, and no `recv` for it fails. -/
def WholeBodyArrives (expectedSize : Nat) (calls : List RecvCall) (stream : Bytes) : Prop :=
  expectedSize ≤ stream.length ∧ bodyArrives expectedSize (calls.map RecvCall.count) = true

instance (calls : List RecvCall) (stream : Bytes) : Decidable (FirstRecvFails calls stream) :=
  inferInstanceAs (Decidable (_ ∨ _))

instance (n : Nat) (calls : List RecvCall) (stream : Bytes) :
    Decidable (WholeBodyArrives n calls stream) :=
  inferInstanceAs (Decidable (_ ∧ _))

/-! ## The loop -/

section Loop

variable {n base : Nat} {calls : List RecvCall} {memory : Memory} {unread : Bytes}

/-- The loop ends with what `recvBody` gives, and a body that is complete is
in the block at `base`. -/
structure RecvEnd.Agrees (base : Nat) (last : RecvEnd) (o : Option Bytes × Bytes) : Prop where
  complete : last.complete = o.1.isSome
  unread : last.unread = o.2
  body : ∀ body ∈ o.1, last.memory.read base body.length = body

/-- **Loop lemma**: what was received so far is in front of the pointer. -/
theorem recvLoop_agrees (calls : List RecvCall) : ∀ {n : Nat} {got unread : Bytes}
    {memory : Memory}, memory.read base got.length = got →
    (recvLoop n calls (base + got.length) memory unread).Agrees base
      (recvBody n (calls.map RecvCall.count) got unread) := by
  induction calls with
  | nil =>
    intro n got unread memory hgot
    cases n with
    | zero => exact ⟨rfl, rfl, fun body hbody => by cases hbody; exact hgot⟩
    | succ n => exact ⟨rfl, rfl, fun body hbody => by cases hbody⟩
  | cons call calls ih =>
    intro n got unread memory hgot
    cases n with
    | zero => exact ⟨rfl, rfl, fun body hbody => by cases hbody; exact hgot⟩
    | succ n =>
      cases call with
      | failed =>
        have hnone : recvBody (n + 1) ((RecvCall.failed :: calls).map RecvCall.count) got unread =
            (none, unread) := by
          simp [recvBody, recv, RecvCall.count]
        rw [hnone]
        exact ⟨rfl, rfl, fun body hbody => by cases hbody⟩
      | arrived k =>
        rw [recvLoop, List.map_cons, RecvCall.count, recvBody]
        cases hrecv : recv (n + 1) k unread with
        | mk bytes rest =>
          cases bytes with
          | nil => exact ⟨rfl, rfl, fun body hbody => by cases hbody⟩
          | cons b bytes =>
            dsimp only
            rw [Nat.add_assoc, ← List.length_append]
            apply ih
            -- the new bytes are written behind those that are there
            rw [List.length_append, Memory.read_write_append memory _ rfl, hgot]

theorem recvBody_isSome_iff {chunks : List Nat} {buffer : Bytes} :
    (recvBody n chunks buffer unread).1.isSome = true ↔
      n ≤ unread.length ∧ bodyArrives n chunks = true := by
  constructor
  · intro h
    obtain ⟨body, hbody⟩ := Option.isSome_iff_exists.mp h
    exact arrives_of_recvBody chunks (Prod.ext hbody rfl)
  · rintro ⟨hlength, harrives⟩
    obtain ⟨body, rest, hrecv⟩ := recvBody_arrives chunks buffer hlength harrives
    rw [hrecv]
    rfl

/-- The pointer only advances. -/
theorem le_recvLoop_buffer (calls : List RecvCall) : ∀ (n buffer : Nat) (memory : Memory)
    (unread : Bytes), buffer ≤ (recvLoop n calls buffer memory unread).buffer := by
  induction calls with
  | nil =>
    intro n buffer memory unread
    cases n <;> exact Nat.le_refl _
  | cons call calls ih =>
    intro n buffer memory unread
    cases n with
    | zero => exact Nat.le_refl _
    | succ n =>
      cases call with
      | failed => exact Nat.le_refl _
      | arrived k =>
        rw [recvLoop]
        split
        · exact Nat.le_refl _
        · exact Nat.le_trans (Nat.le_add_right _ _) (ih _ _ _ _)

/-- **Where the pointer is after a failure**: where it was, exactly if the
first `recv` failed. -/
theorem recvLoop_buffer_eq_iff (hfails : (recvLoop n calls base memory unread).complete = false) :
    (recvLoop n calls base memory unread).buffer = base ↔ FirstRecvFails calls unread := by
  cases n with
  | zero => simp [recvLoop] at hfails
  | succ n =>
    cases calls with
    | nil => exact iff_of_true rfl (Or.inr fun call hcall => by cases hcall)
    | cons call calls =>
      cases call with
      | failed =>
        exact iff_of_true rfl (Or.inr fun call hcall => by cases hcall; rfl)
      | arrived k =>
        have hfirst : FirstRecvFails (.arrived k :: calls) unread ↔ unread = [] ∨ k = 0 := by
          simp [FirstRecvFails, RecvCall.count]
        rw [hfirst, recvLoop]
        cases hrecv : recv (n + 1) k unread with
        | mk bytes rest =>
          have hbytes : bytes.length = min (min (n + 1) k) unread.length := by
            rw [← List.length_take, ← (Prod.mk.inj hrecv).1]
          have hnothing : unread = [] ∨ k = 0 ↔ bytes.length = 0 := by
            rw [hbytes, ← List.length_eq_zero_iff]
            omega
          rw [hnothing]
          cases bytes with
          | nil => exact iff_of_true rfl rfl
          | cons b bytes =>
            have hle := le_recvLoop_buffer calls (n + 1 - (b :: bytes).length)
              (base + (b :: bytes).length) (memory.write base (b :: bytes)) rest
            simp only [List.length_cons] at hle ⊢
            omega

end Loop

/-! ## The call -/

section Call

variable (malloc : Option Nat) (expectedSize : Nat) (calls : List RecvCall) (memory : Memory)
  (stream : Bytes)

/-- What the caller gets: the result, or the block that `*data` points to. -/
def BodyOutcome.body (o : BodyOutcome) : Except DdResult Bytes :=
  match o.result, o.data with
  | .success, some (p, size) => .ok (o.memory.read p size)
  | result, _ => .error result

theorem recvLoop_start (buffer : Nat) :
    (recvLoop expectedSize calls buffer memory stream).Agrees buffer
      (recvBody expectedSize (calls.map RecvCall.count) [] stream) :=
  recvLoop_agrees calls (show memory.read buffer ([] : Bytes).length = [] from rfl)

/-- A body that is complete is the front of the stream. -/
theorem recvLoop_complete {buffer : Nat}
    (hcomplete : (recvLoop expectedSize calls buffer memory stream).complete = true) :
    let last := recvLoop expectedSize calls buffer memory stream
    expectedSize ≤ stream.length ∧
      last.memory.read buffer expectedSize = stream.take expectedSize ∧
      last.unread = stream.drop expectedSize ∧
      recvBody expectedSize (calls.map RecvCall.count) [] stream =
        (some (stream.take expectedSize), stream.drop expectedSize) := by
  obtain ⟨hsome, hunread, hbody⟩ := recvLoop_start expectedSize calls memory stream buffer
  rw [hcomplete] at hsome
  have hlength := (recvBody_isSome_iff.mp hsome.symm).1
  obtain ⟨body, hreceived⟩ := Option.isSome_iff_exists.mp hsome.symm
  obtain ⟨htake, hdrop⟩ := recvBody_some (calls.map RecvCall.count) hlength
    (Prod.ext hreceived rfl)
  rw [List.nil_append] at htake
  have hread := hbody body hreceived
  rw [htake, List.length_take, Nat.min_eq_left hlength] at hread
  exact ⟨hlength, hread, hunread.trans hdrop, Prod.ext (hreceived.trans (by rw [htake])) hdrop⟩

/-- **The call with memory refines the one without.** -/
theorem recvIntoBuffer_body (d : Delivery) (hmalloc : d.allocated = malloc.isSome)
    (hcalls : d.chunks = calls.map RecvCall.count) :
    ((recvIntoBuffer malloc expectedSize calls memory stream).body,
      (recvIntoBuffer malloc expectedSize calls memory stream).unread) =
      recvMessageBody d expectedSize stream := by
  unfold recvMessageBody recvIntoBuffer
  rw [hmalloc, hcalls]
  cases malloc with
  | none => rfl
  | some buffer =>
    dsimp only
    have hagrees := recvLoop_start expectedSize calls memory stream buffer
    cases hcomplete : (recvLoop expectedSize calls buffer memory stream).complete with
    | true =>
      obtain ⟨-, hread, hunread, hrecv⟩ := recvLoop_complete expectedSize calls memory stream
        hcomplete
      simp only [hrecv, if_true, BodyOutcome.body, hread, hunread, Option.isSome_some,
        Bool.not_true, Bool.false_eq_true, if_false]
    | false =>
      have hnone := hagrees.complete
      rw [hcomplete] at hnone
      have hnone := Option.isSome_eq_false_iff.mp hnone.symm
      rw [Option.isNone_iff_eq_none] at hnone
      have hrecv : recvBody expectedSize (calls.map RecvCall.count) [] stream =
          (none, (recvLoop expectedSize calls buffer memory stream).unread) :=
        Prod.ext hnone hagrees.unread.symm
      simp only [hrecv, Bool.false_eq_true, if_false, BodyOutcome.body, Option.isSome_some,
        Bool.not_true]

theorem recvLoop_complete_iff (buffer : Nat) :
    (recvLoop expectedSize calls buffer memory stream).complete = true ↔
      WholeBodyArrives expectedSize calls stream := by
  rw [(recvLoop_start expectedSize calls memory stream buffer).complete, recvBody_isSome_iff]
  rfl

/-- **When the buffer is handled**: exactly if there is none, the whole body
arrives, or not even its first byte does. -/
theorem body_handled_iff :
    BodyHandled malloc expectedSize stream
        (recvIntoBuffer malloc expectedSize calls memory stream) ↔
      malloc = none ∨ WholeBodyArrives expectedSize calls stream ∨
        FirstRecvFails calls stream := by
  cases malloc with
  | none => exact iff_of_true ⟨nofun, fun _ => rfl⟩ (Or.inl rfl)
  | some buffer =>
    rw [← recvLoop_complete_iff expectedSize calls memory stream buffer, recvIntoBuffer]
    cases hcomplete : (recvLoop expectedSize calls buffer memory stream).complete with
    | true =>
      obtain ⟨hlength, hread, hunread, -⟩ := recvLoop_complete expectedSize calls memory stream
        hcomplete
      refine iff_of_true ⟨fun _ => ?_, fun h => absurd rfl h⟩ (Or.inr (Or.inl rfl))
      exact ⟨buffer, rfl, rfl, hlength, hread, hunread, rfl⟩
    | false =>
      rw [← recvLoop_buffer_eq_iff hcomplete]
      constructor
      · intro hhandled
        have hfreed := hhandled.released (by simp)
        exact Or.inr (Or.inr (List.singleton_inj.mp hfreed))
      · intro hbuffer
        refine ⟨nofun, fun _ => ?_⟩
        have hbuffer := (hbuffer.resolve_left nofun).resolve_left nofun
        exact congrArg (fun p => [p]) hbuffer

end Call

/-- One byte of two arrives: the pointer that is freed is not the one of the
buffer. -/
theorem half_received_body_frees_inside :
    (recvIntoBuffer (some 4096) 2 [.arrived 1, .failed] (fun _ => 0) [0x91, 0]).freed = [4097] ∧
      ¬ BodyHandled (some 4096) 2 [0x91, 0]
        (recvIntoBuffer (some 4096) 2 [.arrived 1, .failed] (fun _ => 0) [0x91, 0]) := by
  have hfreed :
      (recvIntoBuffer (some 4096) 2 [.arrived 1, .failed] (fun _ => 0) [0x91, 0]).freed = [4097] :=
    rfl
  refine ⟨hfreed, fun hhandled => ?_⟩
  have hreleased := hhandled.released (by decide)
  rw [hfreed] at hreleased
  exact absurd hreleased (by decide)

end DdAppsec.Extension
