import DdAppsec.Helper.Framing
import DdAppsec.Helper.Isolation

/-!
# Helper — one response for each message

The extension writes a message and waits for a response. `brokerSend` is
`broker::send`: a header and a body in two calls of `::send`, each of which
may fail or stop short. What a handler does about it is its own affair; the
purpose is `Answered`: the connection is closed, or the response has gone
out as one whole frame.

Two branches miss it. A `request_init` of a disabled client and a
`config_sync` of an enabled one are answered with `config_features`, and
there an exception of the broker is logged and the connection is kept.
-/

namespace DdAppsec.Helper

open Lib

/-! ## `broker::send` -/

/-- What the two calls of `::send` for one response take, `none` where the
call fails. -/
structure Writes where
  header : Option Nat
  body : Option Nat

/-- `socket::send`: the bytes written and how many, or a throw. -/
def socketSend (bytes : Bytes) (taken : Option Nat) : Option Nat × Bytes :=
  match taken with
  | none => (none, [])
  | some n => (some (min n bytes.length), bytes.take n)

/-- `header_t`: the length keeps its low 32 bits. -/
def responseHeader (body : Bytes) : Bytes := [0x64, 0x64, 0x73, 0] ++ bytesLE 4 body.length

def responseFrame (body : Bytes) : Bytes := responseHeader body ++ body

/-- `broker::send` for one message; `packed` is what `msgpack::pack` makes
of it, `none` where it throws. -/
def brokerSend (packed : Option Bytes) (w : Writes) : SendOutcome × Bytes :=
  match packed with
  | none => (.threw, [])
  | some body =>
    match socketSend (responseHeader body) w.header with
    | (none, _) => (.threw, [])
    | (some n, written) =>
      if n ≠ 8 then (.failed, written)
      else
        match socketSend body w.body with
        | (none, _) => (.threw, written)
        | (some m, more) => (if m = body.length then .sent else .failed, written ++ more)

/-! ## The engine -/

/-- What becomes of a call of the engine: a result, an exception where the
handler catches it, or one while the context is made, which only the
dispatcher catches. -/
inductive EngineCall where
  | returns | throws | unavailable
  deriving DecidableEq, Repr

/-- The handler of the command gets as far as the engine. -/
def Client.reachesEngine (status : EnableAsmStatus) (id : RequestId) (c : Client) : Bool :=
  match id with
  | .requestInit => c.service.isSome && (c.computeClientStatus status).requestEnabled
  | .requestExec | .requestShutdown => c.requestEnabled && (c.context.isSome || c.service.isSome)
  | .clientInit | .configSync | .unknown => false

/-- `run_request` with an engine that may fail. An exception of `publish` is
handled like the one for data that is not a map. -/
def Client.runRequestWith (encode : Bytes → Option Bytes) (engine : EngineCall) (env : Env)
    (received : Received) (c : Client) : Outcome :=
  match received, engine with
  | .request r, .throws => c.runRequest encode env (.request ⟨r.id, .invalid⟩)
  | .request r, .unavailable =>
    if c.reachesEngine env.status r.id then ⟨{ c with context := none }, false, none, []⟩
    else c.runRequest encode env (.request r)
  | received, _ => c.runRequest encode env received

/-! ## A message and its response -/

/-- `handle_message` in the second phase with what it writes: the broker
decides whether the response is sent. -/
def Client.converse (pack : Reply → Option Bytes) (encode : Bytes → Option Bytes)
    (engine : EngineCall) (env : Env) (w : Writes) (received : Received) (c : Client) :
    Outcome × Bytes :=
  match (c.runRequestWith encode engine env received).response with
  | none => (c.runRequestWith encode engine env received, [])
  | some response =>
    let (send, written) := brokerSend (pack (.request response)) w
    (c.runRequestWith encode engine { env with send := send } received, written)

variable {Sub : Type}

/-- The same in the first phase. -/
def converseInit (p : Platform Sub) (pack : Reply → Option Bytes) (n : Newcomer) (w : Writes)
    (received : Received) (st : Process Sub) : InitOutcome Sub × Bytes :=
  match (runClientInit p n received st).reply with
  | none => (runClientInit p n received st, [])
  | some reply =>
    let (send, written) := brokerSend (pack reply) w
    (runClientInit p { n with send := send } received st, written)

/-- **The connection is closed or the response has gone out**, as one whole
frame. -/
def Answered (pack : Reply → Option Bytes) (keep : Bool) (reply : Option Reply)
    (written : Bytes) : Prop :=
  keep = false ∨
    ∃ r body, reply = some r ∧ pack r = some body ∧ written = responseFrame body

/-- `broker::send` throws: packing does, the first call of `::send` fails,
or it takes the header and the second call fails. -/
def Writes.Throws (packed : Option Bytes) (w : Writes) : Prop :=
  packed = none ∨ w.header = none ∨ (∃ n, w.header = some n ∧ 8 ≤ n) ∧ w.body = none

/-- The `config_features` answer to a message that gets one. -/
def Client.featuresAnswer (status : EnableAsmStatus) (received : Received) (c : Client) :
    Option Bool :=
  match received with
  | .request r =>
    if c.service = none then none
    else
      match r.id with
      | .requestInit => if (c.computeClientStatus status).requestEnabled then none else some false
      | .configSync => if (c.computeClientStatus status).requestEnabled then some true else none
      | _ => none
  | _ => none

/-! ## What the broker writes -/

theorem socketSend_some {bytes written : Bytes} {taken : Option Nat} {n : Nat}
    (h : socketSend bytes taken = (some n, written)) (hall : n = bytes.length) :
    written = bytes := by
  unfold socketSend at h
  split at h
  · cases h
  · rename_i k
    cases h
    exact List.take_of_length_le (by omega)

@[simp] theorem length_responseHeader (body : Bytes) : (responseHeader body).length = 8 := by
  simp [responseHeader]

/-- A response that is sent is a whole frame. -/
theorem brokerSend_sent {packed : Option Bytes} {w : Writes} {written : Bytes}
    (h : brokerSend packed w = (.sent, written)) :
    ∃ body, packed = some body ∧ written = responseFrame body := by
  unfold brokerSend at h
  split at h
  · cases h
  · rename_i body
    split at h
    · cases h
    · rename_i n header hheader
      split at h
      · cases h
      · rename_i hn
        have hheader := socketSend_some hheader (by simpa using hn)
        split at h
        · cases h
        · rename_i m more hbody
          split at h
          · rename_i hm
            cases h
            exact ⟨body, rfl, by rw [hheader, socketSend_some hbody hm]; rfl⟩
          · cases h

/-- A broker that throws has written no frame: a packed message is not
empty. -/
theorem brokerSend_threw {packed : Option Bytes} {w : Writes} {written body : Bytes}
    (h : brokerSend packed w = (.threw, written)) (hpacked : packed = some body)
    (hbody : body ≠ []) : written ≠ responseFrame body := by
  have hshort : written.length ≤ 8 := by
    unfold brokerSend at h
    split at h
    · cases h
      exact Nat.zero_le _
    · rename_i body
      split at h
      · cases h
        exact Nat.zero_le _
      · rename_i n header hheader
        split at h
        · cases h
        · rename_i hn
          have hheader := socketSend_some hheader (by simpa using hn)
          split at h
          · cases h
            rw [hheader, length_responseHeader]
          · split at h <;> cases h
  have hpos : 0 < body.length := List.length_pos_iff.mpr hbody
  rintro rfl
  simp only [responseFrame, List.length_append, length_responseHeader] at hshort
  omega

theorem brokerSend_threw_iff (packed : Option Bytes) (w : Writes) :
    (brokerSend packed w).1 = .threw ↔ w.Throws packed := by
  unfold Writes.Throws
  cases packed with
  | none => simp [brokerSend]
  | some body =>
    obtain ⟨header, second⟩ := w
    cases header with
    | none => simp [brokerSend, socketSend]
    | some n =>
      by_cases hn : 8 ≤ n
      · cases second with
        | none => simp [brokerSend, socketSend, hn]
        | some m =>
          have hnot : ∀ (whole : Prop) [Decidable whole],
              (if whole then SendOutcome.sent else .failed) ≠ .threw := by
            intro whole _
            split <;> exact SendOutcome.noConfusion
          simp [brokerSend, socketSend, hn, hnot]
      · have hshort : min n 8 ≠ 8 := by omega
        simp [brokerSend, socketSend, hshort, hn]

/-! ## The second phase -/

section Request

variable {encode : Bytes → Option Bytes} {env : Env} {received : Received} {c : Client}

/-- The two branches that answer with `config_features`. -/
theorem runRequest_features {b : Bool} (h : c.featuresAnswer env.status received = some b) :
    c.runRequest encode env received =
      ⟨c.computeClientStatus env.status, decide (env.send ≠ .failed),
        some (.configFeatures b), []⟩ := by
  cases received with
  | request r =>
    obtain ⟨id, data⟩ := r
    simp only [Client.featuresAnswer] at h
    split at h
    · cases h
    · rename_i hservice
      cases id with
      | requestInit =>
        dsimp only at h
        split at h
        · cases h
        · rename_i henabled
          cases h
          cases hon : c.requestEnabled <;>
            simp [Client.runRequest, Client.handleMessage, Client.handleCommand,
              Client.requestInit, hservice, henabled, hon]
      | configSync =>
        dsimp only at h
        split at h
        · rename_i henabled
          cases h
          cases hon : c.requestEnabled <;>
            simp [Client.runRequest, Client.handleMessage, Client.handleCommand,
              Client.configSync, hservice, henabled, hon]
        · cases h
      | clientInit => cases h
      | requestExec => cases h
      | requestShutdown => cases h
      | unknown => cases h
  | disconnect => cases h
  | tooLarge => cases h
  | partialMessage => cases h
  | badCast => cases h
  | unpackError => cases h
  | exception => cases h

/-- What a handler leaves when it keeps the connection: a response, and a
broker that has sent it. -/
structure KeptAnswered (env : Env) (out : Outcome) : Prop where
  replied : out.keep = true → out.response ≠ none
  sent : out.keep = true → env.send = .sent

theorem KeptAnswered.refuse (events : List Event) : KeptAnswered env (c.refuse events) :=
  ⟨Bool.noConfusion, Bool.noConfusion⟩

theorem KeptAnswered.reply (response : Response) (events : List Event) :
    KeptAnswered env (c.reply env response events) :=
  ⟨fun _ => Option.some_ne_none _, of_decide_eq_true⟩

theorem KeptAnswered.sendError (keep : Bool) : KeptAnswered env (c.sendError env keep) := by
  unfold Client.sendError
  split
  · exact ⟨Bool.noConfusion, Bool.noConfusion⟩
  · rename_i hsent
    have hsent : env.send = .sent := not_not.mp hsent
    split
    · exact ⟨fun _ => Option.some_ne_none _, fun _ => hsent⟩
    · exact ⟨Bool.noConfusion, Bool.noConfusion⟩

theorem KeptAnswered.closed (c : Client) (events : List Event) :
    KeptAnswered env ⟨c, false, none, events⟩ :=
  ⟨Bool.noConfusion, Bool.noConfusion⟩

theorem requestExec_keptAnswered (data : Parameter) :
    KeptAnswered env (c.requestExec env data) := by
  unfold Client.requestExec
  split
  · exact .refuse []
  · dsimp only
    split
    · exact .reply _ _
    · exact .refuse _

theorem requestShutdown_keptAnswered (data : Parameter) :
    KeptAnswered env (c.requestShutdown encode env data) := by
  unfold Client.requestShutdown
  split
  · exact .refuse []
  · dsimp only
    generalize (if env.sampled then addContextProcessor data else data) = published
    split
    · exact .reply _ _
    · exact .refuse _

theorem requestInit_keptAnswered (data : Parameter)
    (h : c.service ≠ none → (c.computeClientStatus env.status).requestEnabled = true) :
    KeptAnswered env (c.requestInit env data) := by
  unfold Client.requestInit
  split
  · exact .refuse []
  · rename_i hservice
    dsimp only
    rw [h hservice]
    simp only [Bool.not_true, Bool.false_eq_true, if_false]
    split
    · exact .reply _ _
    · exact .refuse _

theorem configSync_keptAnswered
    (h : c.service ≠ none → (c.computeClientStatus env.status).requestEnabled = false) :
    KeptAnswered env (c.configSync env) := by
  unfold Client.configSync
  split
  · exact .refuse []
  · rename_i hservice
    dsimp only
    rw [h hservice]
    simp only [Bool.false_eq_true, if_false]
    exact .reply _ _

/-- **Every other branch** keeps the connection only with its response sent. -/
theorem handleMessage_keptAnswered {allowed : List RequestId} {ignoreUnexpected : Bool}
    (h : c.featuresAnswer env.status received = none) :
    KeptAnswered env (c.handleMessage encode allowed ignoreUnexpected env received) := by
  cases received with
  | disconnect => exact .closed c []
  | exception => exact .closed c []
  | tooLarge => exact .sendError true
  | partialMessage => exact .sendError false
  | badCast => exact .sendError true
  | unpackError => exact .sendError true
  | request r =>
    obtain ⟨id, data⟩ := r
    simp only [Client.handleMessage]
    split
    · cases id with
      | clientInit => exact .closed c []
      | unknown => exact .closed c []
      | requestExec => exact requestExec_keptAnswered data
      | requestShutdown => exact requestShutdown_keptAnswered data
      | requestInit =>
        apply requestInit_keptAnswered data
        intro hservice
        simp only [Client.featuresAnswer, if_neg hservice] at h
        split at h
        · assumption
        · cases h
      | configSync =>
        apply configSync_keptAnswered
        intro hservice
        simp only [Client.featuresAnswer, if_neg hservice] at h
        split at h
        · cases h
        · rename_i hoff
          exact Bool.eq_false_iff.mpr hoff
    · exact .sendError ignoreUnexpected

theorem runRequest_keptAnswered (h : c.featuresAnswer env.status received = none) :
    KeptAnswered env (c.runRequest encode env received) := by
  unfold Client.runRequest
  split
  · exact handleMessage_keptAnswered h
  · exact handleMessage_keptAnswered h

/-! ## What is answered does not depend on the broker -/

theorem Client.sendError_response (send : SendOutcome) (keep : Bool) :
    (c.sendError { env with send := send } keep).response = some .error := by
  unfold Client.sendError
  split
  · rfl
  · split <;> rfl

theorem Client.handleCommand_response (send : SendOutcome) (r : Request) :
    (c.handleCommand encode { env with send := send } r).response =
      (c.handleCommand encode env r).response := by
  obtain ⟨id, data⟩ := r
  cases id with
  | clientInit => rfl
  | unknown => rfl
  | requestInit =>
    simp only [Client.handleCommand, Client.requestInit]
    split
    · rfl
    · split
      · rfl
      · split <;> rfl
  | requestExec =>
    simp only [Client.handleCommand, Client.requestExec]
    split
    · rfl
    · split <;> rfl
  | requestShutdown =>
    simp only [Client.handleCommand, Client.requestShutdown]
    split
    · rfl
    · generalize (if env.sampled then addContextProcessor data else data) = published
      split <;> rfl
  | configSync =>
    simp only [Client.handleCommand, Client.configSync]
    split
    · rfl
    · split <;> rfl

theorem Client.handleMessage_response {allowed : List RequestId} {ignoreUnexpected : Bool}
    (send : SendOutcome) :
    (c.handleMessage encode allowed ignoreUnexpected { env with send := send } received).response =
      (c.handleMessage encode allowed ignoreUnexpected env received).response := by
  have herror (keep : Bool) : (c.sendError { env with send := send } keep).response =
      (c.sendError env keep).response := by
    have hown : (c.sendError env keep).response = some .error :=
      Client.sendError_response env.send keep
    rw [Client.sendError_response, hown]
  cases received with
  | request r =>
    simp only [Client.handleMessage]
    split
    · exact Client.handleCommand_response send r
    · exact herror _
  | disconnect => rfl
  | exception => rfl
  | tooLarge => exact herror _
  | partialMessage => exact herror _
  | badCast => exact herror _
  | unpackError => exact herror _

theorem Client.runRequest_response (send : SendOutcome) :
    (c.runRequest encode { env with send := send } received).response =
      (c.runRequest encode env received).response := by
  unfold Client.runRequest
  split
  · exact Client.handleMessage_response send
  · exact Client.handleMessage_response send

variable {engine : EngineCall}

theorem Client.runRequestWith_response (send : SendOutcome) :
    (c.runRequestWith encode engine { env with send := send } received).response =
      (c.runRequestWith encode engine env received).response := by
  unfold Client.runRequestWith
  split
  · exact Client.runRequest_response send
  · split
    · rfl
    · exact Client.runRequest_response send
  · exact Client.runRequest_response send

/-! ## An engine that fails -/

theorem Client.featuresAnswer_not_reaches {r : Request} {b : Bool}
    (h : c.featuresAnswer env.status (.request r) = some b) :
    c.reachesEngine env.status r.id = false := by
  obtain ⟨id, data⟩ := r
  simp only [Client.featuresAnswer] at h
  split at h
  · cases h
  · cases id with
    | requestInit =>
      dsimp only at h
      split at h
      · cases h
      · rename_i henabled
        simp [Client.reachesEngine, henabled]
    | configSync => rfl
    | clientInit => rfl
    | unknown => rfl
    | requestExec => cases h
    | requestShutdown => cases h

theorem runRequestWith_features {b : Bool} (h : c.featuresAnswer env.status received = some b) :
    c.runRequestWith encode engine env received =
      ⟨c.computeClientStatus env.status, decide (env.send ≠ .failed),
        some (.configFeatures b), []⟩ := by
  unfold Client.runRequestWith
  split
  · exact runRequest_features h
  · rw [if_neg (by rw [Client.featuresAnswer_not_reaches h]; exact Bool.false_ne_true)]
    exact runRequest_features h
  · exact runRequest_features h

theorem runRequestWith_keptAnswered (h : c.featuresAnswer env.status received = none) :
    KeptAnswered env (c.runRequestWith encode engine env received) := by
  unfold Client.runRequestWith
  split
  · exact runRequest_keptAnswered h
  · split
    · exact .closed _ []
    · exact runRequest_keptAnswered h
  · exact runRequest_keptAnswered h

end Request

/-! ## Answered -/

section Answered

variable {pack : Reply → Option Bytes} {keep : Bool} {reply : Reply} {w : Writes}

/-- A handler that goes by the broker's word. -/
theorem answered_of_sent (h : keep = true → (brokerSend (pack reply) w).1 = .sent) :
    Answered pack keep (some reply) (brokerSend (pack reply) w).2 := by
  cases keep with
  | false => exact Or.inl rfl
  | true =>
    obtain ⟨body, hpack, hwritten⟩ := brokerSend_sent (Prod.ext (h rfl) rfl)
    exact Or.inr ⟨reply, body, rfl, hpack, hwritten⟩

/-- A handler that takes a throw for a success. -/
theorem answered_iff_not_threw (hpack : pack reply ≠ some [])
    (hkeep : keep = decide ((brokerSend (pack reply) w).1 ≠ .failed)) :
    Answered pack keep (some reply) (brokerSend (pack reply) w).2 ↔
      (brokerSend (pack reply) w).1 ≠ .threw := by
  cases hsend : (brokerSend (pack reply) w).1 with
  | sent => exact iff_of_true (answered_of_sent fun _ => hsend) SendOutcome.noConfusion
  | failed =>
    rw [hsend] at hkeep
    exact iff_of_true (Or.inl hkeep) SendOutcome.noConfusion
  | threw =>
    refine iff_of_false ?_ fun h => h rfl
    rintro (hclosed | ⟨r, body, hr, hbody, hwritten⟩)
    · rw [hsend, hclosed] at hkeep
      cases hkeep
    · cases hr
      refine brokerSend_threw (Prod.ext hsend rfl) hbody ?_ hwritten
      rintro rfl
      exact hpack hbody

end Answered

section Converse

variable {pack : Reply → Option Bytes} {encode : Bytes → Option Bytes} {engine : EngineCall}
  {env : Env} {w : Writes} {received : Received} {c : Client}

theorem converse_eq {response : Response}
    (h : (c.runRequestWith encode engine env received).response = some response) :
    c.converse pack encode engine env w received =
      (c.runRequestWith encode engine
        { env with send := (brokerSend (pack (.request response)) w).1 } received,
        (brokerSend (pack (.request response)) w).2) := by
  simp only [Client.converse, h]

/-- Outside the two branches. -/
theorem converse_answered (h : c.featuresAnswer env.status received = none) :
    Answered pack (c.converse pack encode engine env w received).1.keep
      ((c.converse pack encode engine env w received).1.response.map .request)
      (c.converse pack encode engine env w received).2 := by
  cases hresponse : (c.runRequestWith encode engine env received).response with
  | none =>
    have hkept : KeptAnswered env (c.runRequestWith encode engine env received) :=
      runRequestWith_keptAnswered h
    simp only [Client.converse, hresponse]
    exact Or.inl (Bool.eq_false_iff.mpr fun hkeep => hkept.replied hkeep hresponse)
  | some response =>
    rw [converse_eq hresponse]
    dsimp only
    rw [Client.runRequestWith_response, hresponse]
    have hkept (send : SendOutcome) : KeptAnswered { env with send := send }
        (c.runRequestWith encode engine { env with send := send } received) :=
      runRequestWith_keptAnswered h
    exact answered_of_sent (hkept _).sent

/-- In the two branches. -/
theorem converse_features {b : Bool} (hpack : ∀ r, pack r ≠ some [])
    (h : c.featuresAnswer env.status received = some b) :
    Answered pack (c.converse pack encode engine env w received).1.keep
        ((c.converse pack encode engine env w received).1.response.map .request)
        (c.converse pack encode engine env w received).2 ↔
      ¬ w.Throws (pack (.request (.configFeatures b))) := by
  have hout (send : SendOutcome) :
      c.runRequestWith encode engine { env with send := send } received =
        ⟨c.computeClientStatus env.status, decide (send ≠ .failed),
          some (.configFeatures b), []⟩ := runRequestWith_features h
  rw [converse_eq (congrArg Outcome.response (runRequestWith_features h))]
  dsimp only
  rw [hout]
  exact (answered_iff_not_threw (hpack _) rfl).trans (not_congr (brokerSend_threw_iff _ w))

end Converse

/-! ## The first phase -/

section Init

variable {p : Platform Sub} {n : Newcomer} {received : Received} {st : Process Sub}

theorem runClientInit_reply (send : SendOutcome) :
    (runClientInit p { n with send := send } received st).reply =
      (runClientInit p n received st).reply := by
  unfold runClientInit
  split
  · have hargs : Newcomer.args { n with send := send } = n.args := rfl
    simp only [clientInit, hargs]
    split <;> rfl
  · exact congrArg (Option.map Reply.request) (Client.handleMessage_response send)

/-- A client without a service has no features to tell. -/
theorem Client.fresh_featuresAnswer (status : EnableAsmStatus) (received : Received) :
    Client.fresh.featuresAnswer status received = none := by
  cases received <;> rfl

theorem runClientInit_keep (h : (runClientInit p n received st).keep = true) :
    (runClientInit p n received st).reply ≠ none ∧ n.send = .sent := by
  unfold runClientInit at h ⊢
  split at h
  · refine ⟨Option.some_ne_none _, ?_⟩
    simp only [clientInit] at h
    split at h
    · exact of_decide_eq_true h
    · cases h
  · rename_i hother
    have hkept : KeptAnswered n.env
        (Client.fresh.handleMessage (fun _ => none) [] false n.env received) :=
      handleMessage_keptAnswered (Client.fresh_featuresAnswer _ _)
    exact ⟨by simpa using hkept.replied h, hkept.sent h⟩

theorem converseInit_answered (pack : Reply → Option Bytes) (w : Writes) :
    Answered pack (converseInit p pack n w received st).1.keep
      (converseInit p pack n w received st).1.reply (converseInit p pack n w received st).2 := by
  cases hreply : (runClientInit p n received st).reply with
  | none =>
    simp only [converseInit, hreply]
    exact Or.inl (Bool.eq_false_iff.mpr fun hkeep => (runClientInit_keep hkeep).1 hreply)
  | some reply =>
    simp only [converseInit, hreply]
    rw [runClientInit_reply, hreply]
    exact answered_of_sent fun hkeep => (runClientInit_keep hkeep).2

end Init

/-! ## One response for each message -/

/-- **One response for each message, but for two branches.** In the first
phase every message is answered with one whole frame or ends the connection.
In the second phase so is every message that is not answered with
`config_features`; one that is, is answered or ends the connection exactly
when the broker does not throw while it writes the answer. -/
theorem answered_iff_features_written (p : Platform Sub) (pack : Reply → Option Bytes)
    (encode : Bytes → Option Bytes) (hpack : ∀ r, pack r ≠ some []) :
    (∀ (n : Newcomer) (w : Writes) (received : Received) (st : Process Sub),
      Answered pack (converseInit p pack n w received st).1.keep
        (converseInit p pack n w received st).1.reply
        (converseInit p pack n w received st).2) ∧
    ∀ (engine : EngineCall) (env : Env) (w : Writes) (received : Received) (c : Client),
      Answered pack (c.converse pack encode engine env w received).1.keep
          ((c.converse pack encode engine env w received).1.response.map .request)
          (c.converse pack encode engine env w received).2 ↔
        ∀ b, c.featuresAnswer env.status received = some b →
          ¬ w.Throws (pack (.request (.configFeatures b))) := by
  refine ⟨fun n w received st => converseInit_answered pack w,
    fun engine env w received c => ?_⟩
  cases h : c.featuresAnswer env.status received with
  | none =>
    refine iff_of_true (converse_answered h) ?_
    intro b hb
    cases hb
  | some b =>
    rw [converse_features hpack h]
    constructor
    · intro hthrows b' hb'
      cases hb'
      exact hthrows
    · intro hall
      exact hall b rfl

/-- `config_features` and `config_sync` as they are packed; an `error` stands
for the rest. -/
def packFeatures : Reply → Option Bytes
  | .request (.configFeatures b) =>
    some ([0x91, 0x92, 0xaf] ++ Bytes.ofString "config_features" ++
      [0x91, if b then 0xc3 else 0xc2])
  | .request .configSync =>
    some ([0x91, 0x92, 0xab] ++ Bytes.ofString "config_sync" ++ [0x90])
  | _ => some ([0x91, 0x92, 0xa5] ++ Bytes.ofString "error" ++ [0x90])

theorem packFeatures_ne_nil (r : Reply) : packFeatures r ≠ some [] := by
  unfold packFeatures
  split <;> simp

/-- A client with a service, disabled by its own setting. -/
def disabledClient : Client := ⟨some 0, some false, false, none, 0⟩

/-- A socket that takes all of a small response. -/
def openSocket : Writes := ⟨some 8, some 100⟩

/-- The extension has gone: `::send` fails. -/
def brokenSocket : Writes := ⟨none, none⟩

/-- `request_init` of a disabled client, answered with the one frame. -/
theorem disabled_answered :
    Answered packFeatures
      (disabledClient.converse packFeatures (fun _ => none) .returns .plain openSocket
        (.request ⟨.requestInit, .map []⟩)).1.keep
      ((disabledClient.converse packFeatures (fun _ => none) .returns .plain openSocket
        (.request ⟨.requestInit, .map []⟩)).1.response.map .request)
      (disabledClient.converse packFeatures (fun _ => none) .returns .plain openSocket
        (.request ⟨.requestInit, .map []⟩)).2 := by
  refine ((answered_iff_features_written Platform.plain packFeatures (fun _ => none)
    packFeatures_ne_nil).2 .returns .plain openSocket (.request ⟨.requestInit, .map []⟩)
    disabledClient).mpr ?_
  intro b _
  simp [Writes.Throws, openSocket, packFeatures]

/-- **Kept without an answer.** The same message when `::send` fails on the
header: nothing is written, and the connection is kept. -/
theorem disabled_not_answered :
    ∃ (env : Env) (w : Writes) (received : Received) (c : Client),
      (c.converse packFeatures (fun _ => none) .returns env w received).1.keep = true ∧
      (c.converse packFeatures (fun _ => none) .returns env w received).2 = [] ∧
      ¬ Answered packFeatures
        (c.converse packFeatures (fun _ => none) .returns env w received).1.keep
        ((c.converse packFeatures (fun _ => none) .returns env w received).1.response.map
          .request)
        (c.converse packFeatures (fun _ => none) .returns env w received).2 := by
  refine ⟨.plain, brokenSocket, .request ⟨.requestInit, .map []⟩, disabledClient, rfl, rfl, ?_⟩
  rintro (hclosed | ⟨r, body, _, _, hwritten⟩)
  · cases hclosed
  · have hlen : (responseFrame body).length = 0 := congrArg List.length hwritten.symm
    simp [responseFrame] at hlen

end DdAppsec.Helper
