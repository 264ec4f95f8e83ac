import DdAppsec.Extension.Network

/-!
# Extension — the reply that carries credentials

The reply to `client_init` is received by `dd_conn_recv_cred`: `recvmsg`
brings the header together with the credentials of the helper, and the body
comes by `recv` as ever. The decoding of the frame is written a second time
there. The two copies are to give the same result (`RecvAgreed`); the second
one has no check of the size, and `recvs_agree_iff` says what that takes.
-/

namespace DdAppsec.Extension

open Lib

/-! ## `dd_conn_recv_cred` -/

/-- `struct ucred`. -/
structure Ucred where
  pid : Int
  uid : Nat
  gid : Nat

/-- `struct cmsghdr` and the data behind it. -/
structure Cmsghdr where
  len : Nat
  level : Int
  type : Int
  data : Ucred

/-- This process: its effective uid, and `USE_ZEND_ALLOC` as `atoi` reads
it. -/
structure Owner where
  euid : Nat
  useZendAlloc : Option Int

/-- `CMSG_LEN(sizeof(struct ucred))`. -/
def credentialsLen : Nat := 28

def solSocket : Int := 1

def scmCredentials : Int := 2

def checkCredentials (owner : Owner) (cmsg : Option Cmsghdr) : DdResult :=
  match cmsg with
  | none => .network
  | some cmsg =>
    if cmsg.len ≠ credentialsLen then .network
    else if cmsg.level ≠ solSocket ∨ cmsg.type ≠ scmCredentials then .network
    -- the check is skipped in the valgrind tests
    else if owner.useZendAlloc = some 0 then .success
    else if cmsg.data.uid ≠ owner.euid then .network
    else .success

/-- `_recv_message_body`. -/
def recvMessageBody (d : Delivery) (size : Nat) (unread : Bytes) :
    Except DdResult Bytes × Bytes :=
  if !d.allocated then (.error .error, unread)
  else
    match recvBody size d.chunks [] unread with
    | (some body, unread) => (.ok body, unread)
    | (none, unread) => (.error .network, unread)

/-- `dd_conn_recv_cred`. `cmsg` is what `recvmsg` brings beside the header. -/
def connRecvCred (owner : Owner) (cmsg : Option Cmsghdr) (d : Delivery) (unread : Bytes) :
    Except DdResult Bytes × Bytes :=
  match recv 8 d.header unread with
  | (header, unread) =>
    if header.length = 0 then (.error .network, unread)
    else if header.length < 8 then (.error .network, unread)
    else
      let res := checkCredentials owner cmsg
      if res ≠ .success then (.error res, unread)
      else if header.take 3 ≠ [0x64, 0x64, 0x73] then (.error .network, unread)
      else recvMessageBody d (natLE (header.drop 4)) unread

/-! ## What is meant -/

def HeaderArrives (d : Delivery) (stream : Bytes) : Prop := 8 ≤ d.header ∧ 8 ≤ stream.length

def HasMagic (stream : Bytes) : Prop := stream.take 3 = [0x64, 0x64, 0x73]

/-- `h.size` of the header at the front of the stream. -/
def announcedSize (stream : Bytes) : Nat := natLE ((stream.take 8).drop 4)

/-- As many bytes as are announced follow the header, and no `recv` for them
fails. -/
def BodyArrives (d : Delivery) (stream : Bytes) : Prop :=
  announcedSize stream ≤ (stream.drop 8).length ∧
    bodyArrives (announcedSize stream) d.chunks = true

instance (d : Delivery) (stream : Bytes) : Decidable (HeaderArrives d stream) :=
  inferInstanceAs (Decidable (_ ∧ _))

instance (stream : Bytes) : Decidable (HasMagic stream) := inferInstanceAs (Decidable (_ = _))

instance (d : Delivery) (stream : Bytes) : Decidable (BodyArrives d stream) :=
  inferInstanceAs (Decidable (_ ∧ _))

/-- **The receivers agree**: the same result and body; a short header, a
wrong magic and a size above the maximum are rejected by both, and of any
other frame that arrives both return the announced bytes. -/
structure RecvAgreed (d : Delivery) (stream : Bytes) (result resultCred : Except DdResult Bytes) :
    Prop where
  same : resultCred = result
  short : ¬ HeaderArrives d stream → result = .error .network ∧ resultCred = .error .network
  magic : ¬ HasMagic stream → result = .error .network ∧ resultCred = .error .network
  large : maxRecvMessageSize < announcedSize stream →
    result = .error .network ∧ resultCred = .error .network
  exact : HeaderArrives d stream → HasMagic stream →
    announcedSize stream ≤ maxRecvMessageSize → d.allocated = true → BodyArrives d stream →
    ∃ body, body <+: stream.drop 8 ∧ body.length = announcedSize stream ∧
      result = .ok body ∧ resultCred = .ok body

/-! ## The body -/

/-- A body is read to its end only if it is there and arrives. -/
theorem arrives_of_recvBody (chunks : List Nat) :
    ∀ {n : Nat} {buffer unread body rest : Bytes},
      recvBody n chunks buffer unread = (some body, rest) →
      n ≤ unread.length ∧ bodyArrives n chunks = true := by
  induction chunks with
  | nil =>
    intro n buffer unread body rest h
    cases n with
    | zero => exact ⟨Nat.zero_le _, rfl⟩
    | succ n => simp [recvBody] at h
  | cons arrived chunks ih =>
    intro n buffer unread body rest h
    cases n with
    | zero => exact ⟨Nat.zero_le _, rfl⟩
    | succ n =>
      simp only [recvBody, recv] at h
      split at h
      · simp at h
      · rename_i bytes unread' hne heq
        obtain ⟨rfl, rfl⟩ := Prod.mk.inj heq
        obtain ⟨hlen, harrives⟩ := ih h
        have hpos : unread.take (min (n + 1) arrived) ≠ [] := fun hnil => hne hnil
        have hpos := List.length_pos_iff.mpr hpos
        rw [List.length_take] at hpos hlen harrives
        rw [List.length_drop] at hlen
        have hmissing : n + 1 - min (min (n + 1) arrived) unread.length = n + 1 - arrived := by
          omega
        rw [hmissing] at harrives
        refine ⟨by omega, ?_⟩
        simp only [bodyArrives, Bool.and_eq_true, decide_eq_true_eq]
        exact ⟨by omega, harrives⟩

theorem recvMessageBody_eq (d : Delivery) (stream : Bytes) :
    (recvMessageBody d (announcedSize stream) (stream.drop 8)).1 =
      if d.allocated = false then .error .error
      else if BodyArrives d stream then .ok ((stream.drop 8).take (announcedSize stream))
      else .error .network := by
  unfold recvMessageBody
  cases halloc : d.allocated with
  | false => rfl
  | true =>
    by_cases harrives : BodyArrives d stream
    · obtain ⟨body, rest, hrecv⟩ := recvBody_arrives d.chunks [] harrives.1 harrives.2
      obtain ⟨rfl, rfl⟩ := recvBody_some d.chunks harrives.1 hrecv
      rw [hrecv]
      simp [harrives]
    · cases hrecv : recvBody (announcedSize stream) d.chunks [] (stream.drop 8) with
      | mk body rest =>
        cases body with
        | some body => exact absurd (arrives_of_recvBody d.chunks hrecv) harrives
        | none => simp [harrives]

/-! ## The two receivers -/

variable {d : Delivery} {stream : Bytes} {owner : Owner} {cmsg : Option Cmsghdr}

theorem header_of_arrives (h : HeaderArrives d stream) :
    recv 8 d.header stream = (stream.take 8, stream.drop 8) ∧ (stream.take 8).length = 8 := by
  unfold recv
  rw [Nat.min_eq_left h.1, List.length_take]
  exact ⟨rfl, Nat.min_eq_left h.2⟩

theorem header_short (h : ¬ HeaderArrives d stream) : (recv 8 d.header stream).1.length < 8 := by
  unfold HeaderArrives at h
  simp only [recv, List.length_take]
  omega

theorem take_header (stream : Bytes) : (stream.take 8).take 3 = stream.take 3 := by
  rw [List.take_take]
  rfl

theorem natLE_header (stream : Bytes) :
    natLE ((stream.take 8).drop 4) = announcedSize stream := rfl

theorem connRecv_result (d : Delivery) (stream : Bytes) :
    (connRecv d stream).1 =
      if HeaderArrives d stream ∧ HasMagic stream ∧ announcedSize stream ≤ maxRecvMessageSize then
        (recvMessageBody d (announcedSize stream) (stream.drop 8)).1
      else .error .network := by
  by_cases hheader : HeaderArrives d stream
  · obtain ⟨hrecv, hlength⟩ := header_of_arrives hheader
    unfold connRecv
    rw [hrecv]
    dsimp only
    rw [if_neg (by simp [hlength]), take_header, natLE_header]
    by_cases hmagic : HasMagic stream
    · rw [if_neg (show ¬ stream.take 3 ≠ _ from not_not.mpr hmagic)]
      by_cases hlarge : maxRecvMessageSize < announcedSize stream
      · rw [if_pos hlarge, if_neg (by omega)]
      · have hall : HeaderArrives d stream ∧ HasMagic stream ∧
            announcedSize stream ≤ maxRecvMessageSize :=
          ⟨hheader, hmagic, Nat.le_of_not_lt hlarge⟩
        rw [if_neg hlarge, if_pos hall]
        rfl
    · rw [if_pos (show stream.take 3 ≠ _ from hmagic), if_neg (fun h => hmagic h.2.1)]
  · have hshort := header_short hheader
    unfold connRecv
    dsimp only
    rw [if_pos (by omega), if_neg (fun h => hheader h.1)]

theorem connRecvCred_result (hvalid : checkCredentials owner cmsg = .success) (d : Delivery)
    (stream : Bytes) :
    (connRecvCred owner cmsg d stream).1 =
      if HeaderArrives d stream ∧ HasMagic stream then
        (recvMessageBody d (announcedSize stream) (stream.drop 8)).1
      else .error .network := by
  by_cases hheader : HeaderArrives d stream
  · obtain ⟨hrecv, hlength⟩ := header_of_arrives hheader
    unfold connRecvCred
    rw [hrecv]
    dsimp only
    rw [hlength, if_neg (by decide), if_neg (by decide), hvalid, if_neg (by simp), take_header,
      natLE_header]
    by_cases hmagic : HasMagic stream
    · rw [if_neg (show ¬ stream.take 3 ≠ _ from not_not.mpr hmagic), if_pos ⟨hheader, hmagic⟩]
    · rw [if_pos (show stream.take 3 ≠ _ from hmagic), if_neg (fun h => hmagic h.2)]
  · have hshort := header_short hheader
    rw [if_neg (fun h => hheader h.1)]
    unfold connRecvCred
    dsimp only
    rw [if_pos hshort]
    split <;> rfl

/-- **The receivers agree exactly if** no frame announces more than the
maximum and brings it, or finds no memory for it. -/
theorem recvs_agree_iff (hvalid : checkCredentials owner cmsg = .success) (d : Delivery)
    (stream : Bytes) :
    RecvAgreed d stream (connRecv d stream).1 (connRecvCred owner cmsg d stream).1 ↔
      (HeaderArrives d stream → HasMagic stream →
        maxRecvMessageSize < announcedSize stream →
        d.allocated = true ∧ ¬ BodyArrives d stream) := by
  have hresult := connRecv_result d stream
  have hcred := connRecvCred_result hvalid d stream
  have hbody := recvMessageBody_eq d stream
  constructor
  · intro hagreed hheader hmagic hlarge
    rw [if_pos ⟨hheader, hmagic⟩, hbody] at hcred
    have hrejected := (hagreed.large hlarge).2
    rw [hcred] at hrejected
    split at hrejected
    · cases hrejected
    · rename_i halloc
      split at hrejected
      · cases hrejected
      · rename_i harrives
        exact ⟨by simpa using halloc, harrives⟩
  · intro hcond
    have hnetwork : ¬ (HeaderArrives d stream ∧ HasMagic stream ∧
        announcedSize stream ≤ maxRecvMessageSize) →
        (connRecv d stream).1 = .error .network ∧
          (connRecvCred owner cmsg d stream).1 = .error .network := by
      intro hreject
      refine ⟨by rw [hresult, if_neg hreject], ?_⟩
      rw [hcred]
      split
      · rename_i hpassed
        -- only the size is wrong, and the body does not come
        obtain ⟨halloc, harrives⟩ := hcond hpassed.1 hpassed.2
          (Nat.lt_of_not_le fun hsize => hreject ⟨hpassed.1, hpassed.2, hsize⟩)
        rw [hbody, if_neg (by simp [halloc]), if_neg harrives]
      · rfl
    refine ⟨?_, fun h => hnetwork fun hall => h hall.1, fun h => hnetwork fun hall => h hall.2.1,
      fun h => hnetwork fun hall => Nat.not_lt_of_le hall.2.2 h, ?_⟩
    · by_cases hall : HeaderArrives d stream ∧ HasMagic stream ∧
          announcedSize stream ≤ maxRecvMessageSize
      · rw [hcred, hresult, if_pos ⟨hall.1, hall.2.1⟩, if_pos hall]
      · obtain ⟨h1, h2⟩ := hnetwork hall
        rw [h1, h2]
    · intro hheader hmagic hsize halloc harrives
      rw [if_neg (by simp [halloc]), if_pos harrives] at hbody
      rw [if_pos ⟨hheader, hmagic, hsize⟩, hbody] at hresult
      rw [if_pos ⟨hheader, hmagic⟩, hbody] at hcred
      refine ⟨_, List.take_prefix _ _, ?_, hresult, hcred⟩
      rw [List.length_take, Nat.min_eq_left harrives.1]

/-! ## A reply of one byte and one that is too large -/

def helperCredentials : Cmsghdr := ⟨28, 1, 2, ⟨4711, 1000, 1000⟩⟩

def thisProcess : Owner := ⟨1000, none⟩

theorem short_reply_received_alike :
    checkCredentials thisProcess (some helperCredentials) = .success ∧
    RecvAgreed .prompt [0x64, 0x64, 0x73, 0, 1, 0, 0, 0, 0x91]
      (connRecv .prompt [0x64, 0x64, 0x73, 0, 1, 0, 0, 0, 0x91]).1
      (connRecvCred thisProcess (some helperCredentials) .prompt
        [0x64, 0x64, 0x73, 0, 1, 0, 0, 0, 0x91]).1 := by
  refine ⟨by decide, (recvs_agree_iff (by decide) _ _).mpr ?_⟩
  intro _ _ hlarge
  exact absurd hlarge (by decide)

/-- A reply of `n + 1` bytes. -/
def zerosReply (n : Nat) (h : n + 1 < 2 ^ 32) : Reply where
  body := 0x91 :: List.replicate n 0
  array := rfl
  fits := by rwa [List.length_cons, List.length_replicate]

/-- All of it comes with the second `recv`. -/
def Delivery.inOne (n : Nat) : Delivery := ⟨true, true, 8, true, [n]⟩

theorem announcedSize_zerosReply (n : Nat) (h : n + 1 < 2 ^ 32) :
    announcedSize (zerosReply n h).frame = n + 1 := by
  rw [announcedSize, (zerosReply n h).frame_split.1, Reply.size_eq]
  simp [zerosReply]

/-- The frame of a reply, received with the credentials whatever its size. -/
theorem connRecvCred_zerosReply (hvalid : checkCredentials owner cmsg = .success) (n : Nat)
    (h : n + 1 < 2 ^ 32) :
    (connRecvCred owner cmsg (.inOne (n + 1)) (zerosReply n h).frame).1 =
      .ok (zerosReply n h).body := by
  have hdrop := (zerosReply n h).frame_split.2
  have hlength : (zerosReply n h).body.length = n + 1 := by simp [zerosReply]
  have hsize := announcedSize_zerosReply n h
  have hheader : HeaderArrives (.inOne (n + 1)) (zerosReply n h).frame := by
    refine ⟨Nat.le_refl 8, ?_⟩
    simp [Reply.frame]
  have hmagic : HasMagic (zerosReply n h).frame := rfl
  have harrives : BodyArrives (.inOne (n + 1)) (zerosReply n h).frame := by
    unfold BodyArrives
    rw [hsize, hdrop, hlength]
    exact ⟨Nat.le_refl _, by simp [bodyArrives, Delivery.inOne]⟩
  rw [connRecvCred_result hvalid, if_pos ⟨hheader, hmagic⟩, recvMessageBody_eq,
    if_neg (by simp [Delivery.inOne]), if_pos harrives, hsize, hdrop, ← hlength, List.take_length]

/-- **The size is not checked on the first reply**: of one byte more than
the maximum it is received whole, where `dd_conn_recv` rejects it. -/
theorem large_reply_received_with_credentials :
    ¬ RecvAgreed (.inOne (maxRecvMessageSize + 1)) (zerosReply maxRecvMessageSize (by decide)).frame
      (connRecv (.inOne (maxRecvMessageSize + 1))
        (zerosReply maxRecvMessageSize (by decide)).frame).1
      (connRecvCred thisProcess (some helperCredentials) (.inOne (maxRecvMessageSize + 1))
        (zerosReply maxRecvMessageSize (by decide)).frame).1 := by
  have hvalid : checkCredentials thisProcess (some helperCredentials) = .success := by decide
  intro hagreed
  have hrejected := (hagreed.large (by rw [announcedSize_zerosReply]; exact Nat.lt_succ_self _)).2
  rw [connRecvCred_zerosReply hvalid] at hrejected
  cases hrejected

end DdAppsec.Extension
