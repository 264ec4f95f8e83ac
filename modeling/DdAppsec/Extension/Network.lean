import DdAppsec.Extension.Lifecycle
import DdAppsec.Lib.Endian
import DdAppsec.Lib.Runs

/-!
# Extension — which reply belongs to which command

Messages have no ids: the reply to a command is whatever comes next on the
connection. So a command whose reply was not read to its end must be the
LAST one on its connection; `dd_network` is the result that asks for closing
it. Here a `Conn` is the extension's end of one connection as a stream of
bytes, the helper answers every command in order, and a `Delivery` says how
much of the stream has arrived at each `recv`.

RINIT and RSHUTDOWN close the connection after `dd_network`; user tracking
does not look at the result. `Received` is the condition under which that is
harmless, and `replies_correlated` the run theorem.
-/

namespace DdAppsec.Extension

open Lib

/-! ## The stream -/

/-- A reply as `broker::send` writes it: an array of one message, with a
32-bit size before it. -/
structure Reply where
  body : Bytes
  array : body.head? = some 0x91
  fits : body.length < 2 ^ 32

/-- `dd_header` and the body. -/
def Reply.frame (r : Reply) : Bytes :=
  [0x64, 0x64, 0x73, 0] ++ bytesLE 4 r.body.length ++ r.body

def maxRecvMessageSize : Nat := 4 * 1024 * 1024

/-- What the environment decides during one command: whether the message can
be built, whether all of it is written, how much has arrived at the first
`recv`, whether the buffer can be allocated, and how much has arrived at each
`recv` for the body. Zero is an error, a time out or the end. -/
structure Delivery where
  packed : Bool
  written : Bool
  header : Nat
  allocated : Bool
  chunks : List Nat

/-- `recv`: at most `n` of the bytes that have arrived. -/
def recv (n arrived : Nat) (unread : Bytes) : Bytes × Bytes :=
  let k := min n arrived
  (unread.take k, unread.drop k)

/-- The loop of `_recv_message_body`; the second component is what stays
unread. -/
def recvBody : Nat → List Nat → Bytes → Bytes → Option Bytes × Bytes
  | 0, _, buffer, unread => (some buffer, unread)
  | _ + 1, [], _, unread => (none, unread)
  | n + 1, arrived :: chunks, buffer, unread =>
    match recv (n + 1) arrived unread with
    | ([], unread) => (none, unread)
    | (bytes, unread) => recvBody (n + 1 - bytes.length) chunks (buffer ++ bytes) unread

/-- `dd_conn_recv`: the body, or the result to return. -/
def connRecv (d : Delivery) (unread : Bytes) : Except DdResult Bytes × Bytes :=
  match recv 8 d.header unread with
  | (header, unread) =>
    if header.length ≠ 8 then (.error .network, unread)
    else if header.take 3 ≠ [0x64, 0x64, 0x73] then (.error .network, unread)
    else
      let size := natLE (header.drop 4)
      if maxRecvMessageSize < size then (.error .network, unread)
      else if !d.allocated then (.error .error, unread)
      else
        match recvBody size d.chunks [] unread with
        | (some body, unread) => (.ok body, unread)
        | (none, unread) => (.error .network, unread)

/-! ## Commands -/

/-- The extension's end of one connection. `replies k` is the helper's reply
to command `k`, `deliveries n` what the n-th call of `dd_command_exec` finds.
The logs: the bodies decoded as the reply to a command, and the result of
each command. -/
structure Conn where
  replies : Nat → Reply
  deliveries : Nat → Delivery
  calls : Nat
  sent : Nat
  unread : Bytes
  isOpen : Bool
  decoded : List (Nat × Bytes)
  results : List DdResult

/-- What the callbacks make of a reply. -/
inductive Processed where
  | success | shouldBlock | shouldRedirect | error

def Processed.result : Processed → DdResult
  | .success => .success
  | .shouldBlock => .shouldBlock
  | .shouldRedirect => .shouldRedirect
  | .error => .error

/-- The parser and the callbacks of a command. -/
abbrev Callbacks := Command → Bytes → Globals → Processed × Globals

/-- `_dd_command_exec`. A message that cannot be built is not sent; one that
is not written whole gets no reply. -/
def Conn.exec (callbacks : Callbacks) (cmd : Command) (g : Globals) (c : Conn) :
    DdResult × Globals × Conn :=
  let d := c.deliveries c.calls
  let c := { c with calls := c.calls + 1 }
  if !d.packed then (.error, g, c)
  else
    let k := c.sent
    let c := { c with sent := k + 1 }
    if !d.written then (.network, g, { c with results := c.results ++ [.network] })
    else
      match connRecv d (c.unread ++ (c.replies k).frame) with
      | (.error res, unread) =>
        (res, g, { c with unread := unread, results := c.results ++ [res] })
      | (.ok body, unread) =>
        let c := { c with unread := unread, decoded := c.decoded ++ [(k, body)] }
        if body.length = 1 then
          (.helperError, g, { c with results := c.results ++ [.helperError] })
        else
          let (processed, g) := callbacks cmd body g
          (processed.result, g, { c with results := c.results ++ [processed.result] })

def connLink (callbacks : Callbacks) : Link Conn where
  exec := Conn.exec callbacks
  connected := Conn.isOpen
  close := fun c => { c with isOpen := false }

/-- A worker with a connection that has just been through `client_init`. -/
def Worker.connected (conf : EnabledConfiguration) (replies : Nat → Reply)
    (deliveries : Nat → Delivery) : Worker Conn where
  globals := ⟨conf, conf, false⟩
  world := ⟨replies, deliveries, 0, 0, [], true, [], []⟩
  phase := .idle

/-! ## The property and the condition -/

/-- Every body decoded as the reply to a command is the helper's reply to
that command, and no command follows one that ended in `dd_network`. -/
structure Correlated (c : Conn) : Prop where
  decoded : ∀ k body, (k, body) ∈ c.decoded → body = (c.replies k).body
  last : ∀ before after, c.results = before ++ .network :: after → after = []

/-- The body arrives before a `recv` fails. -/
def bodyArrives : Nat → List Nat → Bool
  | 0, _ => true
  | _ + 1, [] => false
  | n + 1, arrived :: chunks => arrived ≠ 0 && bodyArrives (n + 1 - arrived) chunks

/-- The message is written and its reply received, as far as the network
goes. -/
def Delivery.complete (d : Delivery) (r : Reply) : Bool :=
  d.written && decide (8 ≤ d.header) && decide (r.body.length ≤ maxRecvMessageSize) &&
    (!d.allocated || bodyArrives r.body.length d.chunks)

/-- The condition on a hook: where user tracking sends a command, nothing of
an earlier reply is unread, and this one's exchange is complete. -/
def Received (s : Worker Conn) : Hook → Prop
  | .userExec => s.globals.enabled = .enabled → s.world.isOpen = true →
      (s.world.deliveries s.world.calls).packed = true →
      s.world.unread = [] ∧
        (s.world.deliveries s.world.calls).complete (s.world.replies s.world.sent) = true
  | .rinit | .rshutdown => True

/-! ## Receiving -/

/-- **Loop lemma**: a body read to its end is the next `n` bytes. -/
theorem recvBody_some (chunks : List Nat) :
    ∀ {n : Nat} {buffer unread body rest : Bytes}, n ≤ unread.length →
      recvBody n chunks buffer unread = (some body, rest) →
      body = buffer ++ unread.take n ∧ rest = unread.drop n := by
  -- one turn for each chunk; buffer and stream move together
  induction chunks with
  | nil =>
    intro n buffer unread body rest _ h
    cases n with
    | zero =>
      cases h
      simp
    | succ n => simp [recvBody] at h
  | cons arrived chunks ih =>
    intro n buffer unread body rest hlen h
    cases n with
    | zero =>
      cases h
      simp
    | succ n =>
      simp only [recvBody, recv] at h
      split at h
      · simp at h
      · rename_i bytes unread' _ heq
        obtain ⟨rfl, rfl⟩ := Prod.mk.inj heq
        have hk : (unread.take (min (n + 1) arrived)).length = min (n + 1) arrived := by
          rw [List.length_take]
          omega
        rw [hk] at h
        obtain ⟨rfl, rfl⟩ := ih (by rw [List.length_drop]; omega) h
        have hsum : min (n + 1) arrived + (n + 1 - min (n + 1) arrived) = n + 1 := by omega
        rw [List.append_assoc, List.drop_drop, ← List.take_add, hsum]
        exact ⟨rfl, rfl⟩

/-- A body that arrives is read to its end. -/
theorem recvBody_arrives (chunks : List Nat) :
    ∀ {n : Nat} (buffer : Bytes) {unread : Bytes}, n ≤ unread.length →
      bodyArrives n chunks = true →
      ∃ body rest, recvBody n chunks buffer unread = (some body, rest) := by
  induction chunks with
  | nil =>
    intro n buffer unread _ h
    cases n with
    | zero => exact ⟨_, _, rfl⟩
    | succ n => simp [bodyArrives] at h
  | cons arrived chunks ih =>
    intro n buffer unread hlen h
    cases n with
    | zero => exact ⟨_, _, rfl⟩
    | succ n =>
      simp only [bodyArrives, Bool.and_eq_true, decide_eq_true_eq] at h
      simp only [recvBody, recv]
      split
      · rename_i heq
        have hnil := congrArg List.length (Prod.mk.inj heq).1
        simp only [List.length_take, List.length_nil] at hnil
        omega
      · rename_i bytes unread' _ heq
        obtain ⟨rfl, rfl⟩ := Prod.mk.inj heq
        refine ih _ (by rw [List.length_drop, List.length_take]; omega) ?_
        have hk : n + 1 - (unread.take (min (n + 1) arrived)).length = n + 1 - arrived := by
          rw [List.length_take]
          omega
        rw [hk]
        exact h.2

/-- The header of a frame, and what is behind it. -/
theorem Reply.frame_split (r : Reply) :
    r.frame.take 8 = [0x64, 0x64, 0x73, 0] ++ bytesLE 4 r.body.length ∧
      r.frame.drop 8 = r.body := by
  unfold Reply.frame
  constructor
  · rw [List.take_append_of_le_length (by simp), List.take_of_length_le (by simp)]
  · rw [List.drop_append_of_le_length (by simp), List.drop_of_length_le (by simp),
      List.nil_append]

/-- The size in a frame is the size of its body. -/
theorem Reply.size_eq (r : Reply) :
    natLE (([0x64, 0x64, 0x73, 0] ++ bytesLE 4 r.body.length).drop 4) = r.body.length := by
  show natLE (bytesLE 4 r.body.length) = _
  rw [natLE_bytesLE]
  exact Nat.mod_eq_of_lt r.fits

theorem connRecv_frame_of_header {d : Delivery} {r : Reply} (hheader : 8 ≤ d.header) :
    connRecv d r.frame =
      if maxRecvMessageSize < r.body.length then (.error .network, r.body)
      else if !d.allocated then (.error .error, r.body)
      else
        match recvBody r.body.length d.chunks [] r.body with
        | (some body, unread) => (.ok body, unread)
        | (none, unread) => (.error .network, unread) := by
  obtain ⟨htake, hdrop⟩ := r.frame_split
  unfold connRecv recv
  simp only [Nat.min_eq_left hheader, htake, hdrop, r.size_eq]
  simp

/-- **A reply read from its first byte**: decoded whole, or left whole for
want of memory, or lost with `dd_network`. -/
theorem connRecv_frame (d : Delivery) (r : Reply) {res : Except DdResult Bytes} {unread : Bytes}
    (h : connRecv d r.frame = (res, unread)) :
    (res = .ok r.body ∧ unread = []) ∨ (res = .error .error ∧ unread = r.body) ∨
      res = .error .network := by
  by_cases hheader : 8 ≤ d.header
  · rw [connRecv_frame_of_header hheader] at h
    split at h
    · cases h
      exact Or.inr (Or.inr rfl)
    · split at h
      · cases h
        exact Or.inr (Or.inl ⟨rfl, rfl⟩)
      · split at h
        · rename_i body rest heq
          obtain ⟨rfl, rfl⟩ := recvBody_some d.chunks (Nat.le_refl _) heq
          cases h
          refine Or.inl ⟨?_, ?_⟩
          · rw [List.nil_append, List.take_length]
          · exact List.drop_length ..
        · cases h
          exact Or.inr (Or.inr rfl)
  · unfold connRecv recv at h
    dsimp only at h
    rw [if_pos (by rw [List.length_take]; omega)] at h
    cases h
    exact Or.inr (Or.inr rfl)

theorem connRecv_complete {d : Delivery} {r : Reply} (hcomplete : d.complete r = true) :
    (connRecv d r.frame).1 ≠ .error .network := by
  simp only [Delivery.complete, Bool.and_eq_true, decide_eq_true_eq] at hcomplete
  obtain ⟨⟨⟨_, hheader⟩, hsize⟩, harrives⟩ := hcomplete
  rw [connRecv_frame_of_header hheader, if_neg (by omega)]
  cases halloc : d.allocated with
  | false => simp
  | true =>
    rw [halloc] at harrives
    obtain ⟨body, rest, heq⟩ := recvBody_arrives d.chunks [] (Nat.le_refl _)
      (by simpa using harrives)
    simp [heq]

/-- **A reply left unread is never taken for a header.** -/
theorem connRecv_stale (d : Delivery) (r : Reply) (more : Bytes) :
    (connRecv d (r.body ++ more)).1 = .error .network := by
  obtain ⟨rest, hbody⟩ : ∃ rest, r.body = 0x91 :: rest := by
    have harray := r.array
    cases hr : r.body with
    | nil => simp [hr] at harray
    | cons b rest =>
      rw [hr, List.head?_cons, Option.some.injEq] at harray
      exact ⟨rest, by rw [harray]⟩
  unfold connRecv recv
  dsimp only
  split
  · rfl
  · rename_i hlen
    rw [if_pos]
    · intro hcode
      rw [hbody] at hcode hlen
      cases hk : min 8 d.header with
      | zero => simp [hk] at hlen
      | succ k => simp [hk] at hcode

/-! ## Every run -/

/-- What every command keeps: an open connection has had no `dd_network`,
and is read up to the end of a reply or up to its header. -/
structure Conn.Inv (c : Conn) : Prop where
  correlated : Correlated c
  going : c.isOpen = true → .network ∉ c.results
  unread : c.isOpen = true → c.unread = [] ∨ ∃ r : Reply, c.unread = r.body

theorem last_append {results : List DdResult} (h : .network ∉ results) (res : DdResult) :
    ∀ before after, results ++ [res] = before ++ .network :: after → after = [] := by
  intro before after heq
  by_contra hne
  obtain ⟨init, last, rfl⟩ := (List.eq_nil_or_concat after).resolve_left hne
  rw [List.concat_eq_append, ← List.cons_append, ← List.append_assoc] at heq
  obtain ⟨hresults, _⟩ := List.append_inj' heq rfl
  exact h (hresults ▸ List.mem_append_right _ (List.mem_cons_self ..))

variable {callbacks : Callbacks} {cmd : Command} {g g' : Globals} {c c' : Conn}
  {res : DdResult}

/-- The result of the callbacks is never `dd_network`. -/
theorem Processed.result_ne_network (p : Processed) : p.result ≠ .network := by
  cases p <;> decide

/-- **One command, inverted**: nothing was sent; or it ended in `dd_network`
without decoding anything; or its reply was decoded, or left unread whole. -/
theorem Conn.exec_cases (hinv : c.Inv) (hopen : c.isOpen = true)
    (h : c.exec callbacks cmd g = (res, g', c')) :
    c'.replies = c.replies ∧ c'.isOpen = c.isOpen ∧
    ((res ≠ .network ∧ c'.unread = c.unread ∧ c'.decoded = c.decoded ∧
        c'.results = c.results) ∨
      (res = .network ∧ c'.decoded = c.decoded ∧ c'.results = c.results ++ [.network]) ∨
      (res ≠ .network ∧ c'.results = c.results ++ [res] ∧
        ((c'.unread = [] ∧ c'.decoded = c.decoded ++ [(c.sent, (c.replies c.sent).body)]) ∨
          (c'.unread = (c.replies c.sent).body ∧ c'.decoded = c.decoded)))) := by
  unfold Conn.exec at h
  dsimp only at h
  split at h
  · cases h
    exact ⟨rfl, rfl, Or.inl ⟨by decide, rfl, rfl, rfl⟩⟩
  · split at h
    · cases h
      exact ⟨rfl, rfl, Or.inr (Or.inl ⟨rfl, rfl, rfl⟩)⟩
    · rcases hinv.unread hopen with hsync | ⟨r, hstale⟩
      · -- in step with the helper: the next frame is this command's reply
        rw [hsync, List.nil_append] at h
        split at h
        · rename_i res₁ unread heq
          rcases connRecv_frame _ _ heq with ⟨hok, _⟩ | ⟨herr, hunread⟩ | herr
          · cases hok
          · cases herr
            cases h
            exact ⟨rfl, rfl, Or.inr (Or.inr ⟨by decide, rfl, Or.inr ⟨hunread, rfl⟩⟩)⟩
          · cases herr
            cases h
            exact ⟨rfl, rfl, Or.inr (Or.inl ⟨rfl, rfl, rfl⟩)⟩
        · rename_i body unread heq
          rcases connRecv_frame _ _ heq with ⟨hok, rfl⟩ | ⟨herr, _⟩ | herr
          · cases hok
            split at h
            · cases h
              exact ⟨rfl, rfl, Or.inr (Or.inr ⟨by decide, rfl, Or.inl ⟨rfl, rfl⟩⟩)⟩
            · cases h
              exact ⟨rfl, rfl, Or.inr (Or.inr ⟨Processed.result_ne_network _, rfl,
                Or.inl ⟨rfl, rfl⟩⟩)⟩
          · cases herr
          · cases herr
      · -- behind by a body, which does not look like a header
        rw [hstale] at h
        have hnetwork := connRecv_stale (c.deliveries c.calls) r (c.replies c.sent).frame
        split at h
        · rename_i res₁ unread heq
          rw [heq] at hnetwork
          cases hnetwork
          cases h
          exact ⟨rfl, rfl, Or.inr (Or.inl ⟨rfl, rfl, rfl⟩)⟩
        · rename_i body unread heq
          rw [heq] at hnetwork
          cases hnetwork

/-- **Step lemma**: every command keeps the invariant, once a connection
with `dd_network` is closed. -/
theorem connLink_keeps (callbacks : Callbacks) : (connLink callbacks).Keeps Conn.Inv where
  going := by
    intro cmd g c res g' c' hinv hopen h hres
    obtain ⟨hreplies, hopen', hcases⟩ := Conn.exec_cases hinv hopen h
    refine ⟨?_, hopen'.trans hopen⟩
    have hclean := hinv.going hopen
    rcases hcases with ⟨_, hunread, hdecoded, hresults⟩ | ⟨hnet, _⟩ | ⟨_, hresults, hreply⟩
    · -- the message could not be built: nothing was sent
      refine ⟨⟨?_, ?_⟩, ?_, ?_⟩
      · rw [hdecoded, hreplies]
        exact hinv.correlated.decoded
      · rw [hresults]
        exact hinv.correlated.last
      · rw [hresults]
        exact fun _ => hclean
      · rw [hunread]
        exact fun _ => hinv.unread hopen
    · exact absurd hnet hres
    · refine ⟨⟨?_, ?_⟩, ?_, ?_⟩
      · rw [hreplies]
        rcases hreply with ⟨_, hdecoded⟩ | ⟨_, hdecoded⟩
        · intro k body hmem
          rw [hdecoded, List.mem_append, List.mem_singleton] at hmem
          rcases hmem with hmem | hmem
          · exact hinv.correlated.decoded k body hmem
          · cases hmem
            rfl
        · rw [hdecoded]
          exact hinv.correlated.decoded
      · rw [hresults]
        exact last_append hclean res
      · intro _ hmem
        rw [hresults, List.mem_append, List.mem_singleton] at hmem
        rcases hmem with hmem | hmem
        · exact hclean hmem
        · exact hres hmem.symm
      · intro _
        rcases hreply with ⟨hunread, _⟩ | ⟨hunread, _⟩
        · exact Or.inl hunread
        · exact Or.inr ⟨_, hunread⟩
  closing := by
    intro cmd g c g' c' hinv hopen h
    obtain ⟨hreplies, _, hcases⟩ := Conn.exec_cases hinv hopen h
    rcases hcases with ⟨hne, _⟩ | ⟨_, hdecoded, hresults⟩ | ⟨hne, _⟩
    · exact absurd rfl hne
    · refine ⟨⟨?_, ?_⟩, by simp [connLink], by simp [connLink]⟩
      · show ∀ k body, (k, body) ∈ c'.decoded → body = (c'.replies k).body
        rw [hdecoded, hreplies]
        exact hinv.correlated.decoded
      · show ∀ before after, c'.results = before ++ .network :: after → after = []
        rw [hresults]
        exact last_append (hinv.going hopen) .network
    · exact absurd rfl hne

/-- A complete exchange does not end in `dd_network`. -/
theorem Conn.exec_complete (hunread : c.unread = [])
    (hcomplete : (c.deliveries c.calls).packed = true →
      (c.deliveries c.calls).complete (c.replies c.sent) = true)
    (h : c.exec callbacks cmd g = (res, g', c')) : res ≠ .network := by
  unfold Conn.exec at h
  dsimp only at h
  split at h
  · cases h
    decide
  · rename_i hpacked
    have hcomplete := hcomplete (by simpa using hpacked)
    have hwritten : (c.deliveries c.calls).written = true := by
      simp only [Delivery.complete, Bool.and_eq_true] at hcomplete
      exact hcomplete.1.1.1
    have hrecv := connRecv_complete hcomplete
    rw [if_neg (by simp [hwritten]), hunread, List.nil_append] at h
    split at h
    · rename_i res₁ unread heq
      rw [heq] at hrecv
      cases h
      exact fun hres => hrecv (by rw [hres])
    · split at h
      · cases h
        decide
      · cases h
        exact Processed.result_ne_network _

theorem userExec_inv {s : Worker Conn} (hinv : s.world.Inv) (hreceived : Received s .userExec) :
    ((connLink callbacks).findAndApplyVerdictForUser s.globals s.world).2.Inv := by
  unfold Link.findAndApplyVerdictForUser
  split
  · rename_i hcond
    have hopen : s.world.isOpen = true := hcond.2
    cases heq : (connLink callbacks).exec .requestExec s.globals s.world with
    | mk res rest =>
      obtain ⟨g', c'⟩ := rest
      -- the result is dropped here, so `dd_network` must not happen
      refine ((connLink_keeps callbacks).going hinv hopen heq ?_).1
      by_cases hpacked : (s.world.deliveries s.world.calls).packed = true
      · obtain ⟨hunread, hcomplete⟩ := hreceived hcond.1 hopen hpacked
        exact Conn.exec_complete hunread (fun _ => hcomplete) heq
      · have hsent : s.world.exec callbacks .requestExec s.globals = (res, g', c') := heq
        simp only [Conn.exec, hpacked, Bool.not_false, if_true] at hsent
        cases hsent
        decide
  · exact hinv

/-- **Replies are correlated**: in every run in which the exchanges of user
tracking are complete, each decoded reply belongs to its command, and no
command follows one that ended in `dd_network`. -/
theorem replies_correlated (callbacks : Callbacks) (conf : EnabledConfiguration)
    (replies : Nat → Reply) (deliveries : Nat → Delivery) (hooks : List Hook)
    (h : Along (connLink callbacks).step Received (.connected conf replies deliveries) hooks) :
    Throughout (connLink callbacks).step (fun _ _ s => Correlated s.world)
      (.connected conf replies deliveries) hooks := by
  refine throughout_of_invariant (C := Received) (fun s => s.world.Inv) ?_ ?_ h
  · intro s hook s' hinv hreceived hstep
    have hinv' : s'.world.Inv := by
      unfold Link.step at hstep
      split at hstep
      · cases hstep
        exact (connLink_keeps callbacks).rinit hinv
      · cases hstep
        exact userExec_inv hinv hreceived
      · cases hstep
        exact (connLink_keeps callbacks).rshutdown hinv
      · cases hstep
        exact (connLink_keeps callbacks).rshutdown hinv
      · cases hstep
    exact ⟨hinv', hinv'.correlated⟩
  · exact ⟨⟨by simp [Worker.connected], by simp [Worker.connected]⟩, by simp [Worker.connected],
      fun _ => Or.inl rfl⟩

/-- The reply to command `k` carries its number. -/
def numberedReplies (k : Nat) : Reply where
  body := [0x91, UInt8.ofNat k]
  array := rfl
  fits := by simp

/-- Everything arrives at once. -/
def Delivery.prompt : Delivery := ⟨true, true, 1024, true, [1024]⟩

theorem prompt_replies_correlated :
    (run (connLink fun _ _ g => (.success, g)).step
        (.connected .enabled numberedReplies fun _ => .prompt)
        [.rinit, .userExec, .rshutdown]).map (fun s => s.world.decoded) =
      some [(0, [0x91, 0]), (1, [0x91, 1]), (2, [0x91, 2])] ∧
    Throughout (connLink fun _ _ g => (.success, g)).step (fun _ _ s => Correlated s.world)
      (.connected .enabled numberedReplies fun _ => .prompt) [.rinit, .userExec, .rshutdown] := by
  refine ⟨by decide +kernel, replies_correlated _ _ _ _ _ ⟨trivial, fun s h => ?_⟩⟩
  cases h
  refine ⟨fun _ _ _ => ⟨by decide +kernel, by decide +kernel⟩, fun s h => ?_⟩
  exact ⟨trivial, fun _ _ => trivial⟩

/-- The first `request_exec` of user tracking times out and the connection
stays open; the second one decodes the late reply to the first. -/
theorem late_reply_answers_next_command :
    ¬ Throughout (connLink fun _ _ g => (.success, g)).step (fun _ _ s => Correlated s.world)
      (.connected .enabled numberedReplies
        fun n => if n = 1 then { Delivery.prompt with header := 0 } else .prompt)
      [.rinit, .userExec, .userExec] := by
  intro h
  obtain ⟨_, h⟩ := h _ rfl
  obtain ⟨_, h⟩ := h _ rfl
  obtain ⟨hcorrelated, _⟩ := h _ rfl
  have hdecoded := hcorrelated.decoded 2 [0x91, 1] (by decide +kernel)
  exact absurd hdecoded (by decide +kernel)

end DdAppsec.Extension
