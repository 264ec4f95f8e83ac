import DdAppsec.Extension.RequestAbort
import DdAppsec.Extension.RequestShutdown
import DdAppsec.Extension.UserEvents

/-!
# Extension — the tags of the root span

What the helper said about a request is kept in statics (`TagState`) until the
end of the request, when `ddTagsAddTags` writes it to the root span of the
tracer. With triggers there is the document `_dd.appsec.json`, and tags about
the request and the response; without, only the address of the client and the
headers that may name it.

The document is put together by hand: the memory for it is allocated first, from
a count of its own. `concat_fits_iff` says that the two agree.
-/

namespace DdAppsec.Extension

open Lib

/-! ## Names -/

def tagData : Bytes := "_dd.appsec.json"
def tagEvent : Bytes := "appsec.event"
def tagBlocked : Bytes := "appsec.blocked"
def tagRuntimeFamily : Bytes := "_dd.runtime_family"
def tagHttpMethod : Bytes := "http.method"
def tagHttpUserAgent : Bytes := "http.useragent"
def tagHttpStatusCode : Bytes := "http.status_code"
def tagHttpUrl : Bytes := "http.url"
def tagNetworkClientIp : Bytes := "network.client.ip"
def tagHttpClientIp : Bytes := "http.client_ip"
def multipleIpHeaders : Bytes := "_dd.multiple-ip-headers"
def metricEnabled : Bytes := "_dd.appsec.enabled"
def prefixTagRequestHeader : Bytes := "http.request.headers."

/-- `INT_MAX`, the bound of `dd_trace_root_span_add_tag_str`. -/
def maxTagValueLen : Nat := 2147483647

/-- `_relevant_ip_headers`. -/
def relevantIpHeaders : List Bytes :=
  ["x-forwarded-for", "x-real-ip", "client-ip", "x-forwarded", "x-cluster-client-ip",
    "forwarded-for", "forwarded", "true-client-ip", "via"]

/-- `_relevant_headers`, with the configured ones. -/
def relevantHeaderNames (extraHeaders : List Bytes) : List Bytes :=
  let own : List Bytes :=
    ["x-forwarded-for", "x-client-ip", "x-real-ip", "client-ip", "x-forwarded",
      "x-cluster-client-ip", "forwarded-for", "forwarded", "true-client-ip", "via",
      "content-length", "content-type", "content-encoding", "content-language", "host",
      "user-agent", "accept", "accept-encoding", "accept-language"]
  own ++ extraHeaders

/-! ## State -/

/-- The statics of `tags.c`. -/
structure TagState where
  appsecJsonFrags : List Bytes
  eventUserId : Option Bytes
  blocked : Bool
  forceKeep : Bool

/-- `dd_tags_rshutdown`. -/
def TagState.rshutdown (t : TagState) : TagState :=
  { t with appsecJsonFrags := [], eventUserId := none }

/-- The root span, as far as the tracer shows it: `meta`, `metrics` and whether
`dd_trace_set_priority_sampling_on_root` was called. -/
structure RootSpan where
  metaTags : Option Tags
  metrics : Option Tags
  userKeep : Bool

/-- What the tags are taken from: the SAPI's method, URI, status and response
headers, `$_SERVER`, the client's address, and the configuration. -/
structure TagEnv where
  requestMethod : Option Bytes
  requestUri : Option Bytes
  responseCode : Int
  responseHeaders : List Bytes
  server : Option HashTable
  clientIp : Option Bytes
  extraHeaders : List Bytes
  enabled : Bool

/-- `dd_trace_root_span_add_tag`. -/
def RootSpan.addTag (r : RootSpan) (tag : Bytes) (value : Zval) : Bool × RootSpan :=
  match r.metaTags with
  | none => (false, r)
  | some tags =>
    if tags[tag]?.isSome then (false, r)
    else (true, { r with metaTags := some (tags.insert tag value) })

/-! ## The document -/

def dataTagBefore : Bytes := "\x7b\"triggers\":["
def dataTagAfter : Bytes := "]\x7d"

def neededLen (frags : List Bytes) : Nat :=
  frags.foldl (fun n s => n + s.length)
    (dataTagBefore.length + dataTagAfter.length +
      (if 0 < frags.length then frags.length - 1 else 0))

/-- A buffer and where the next byte goes. -/
structure Cursor where
  buffer : Bytes
  pos : Nat

/-- `memcpy` and an advance. A write behind the end of the buffer makes it
longer. -/
def Cursor.put (c : Cursor) (bytes : Bytes) : Cursor :=
  ⟨overlay c.buffer c.pos bytes, c.pos + bytes.length⟩

/-- The loop of `_concat_json_fragments`: a comma before all but the first. -/
def Cursor.putFrags (c : Cursor) : Nat → List Bytes → Cursor
  | _, [] => c
  | i, s :: frags =>
    let c := if i ≠ 0 then c.put [comma] else c
    (c.put s).putFrags (i + 1) frags

/-- `_concat_json_fragments` on the memory it allocates, which is a NUL longer
than the string. -/
def concatJsonFragments (frags : List Bytes) (memory : Bytes) : Cursor :=
  let c : Cursor := ⟨memory, 0⟩
  let c := c.put dataTagBefore
  let c := c.putFrags 0 frags
  let c := c.put dataTagAfter
  ⟨overlay c.buffer c.pos [0], c.pos⟩

/-- The string that it returns: `needed_len` bytes of that memory. -/
def concatenated (frags : List Bytes) : Bytes :=
  (concatJsonFragments frags (List.replicate (neededLen frags + 1) 0)).buffer.take
    (neededLen frags)

/-- The value of `_dd.appsec.json`. -/
def triggersDocument (frags : List Bytes) : Bytes :=
  dataTagBefore ++ [comma].intercalate frags ++ dataTagAfter

/-! ## Request and response -/

/-- A tag that is computed only where there is none of its name. -/
def addMissing (name : Bytes) (value : Option Bytes) (tags : Tags) : Tags :=
  if tags[name]?.isSome then tags
  else
    match value with
    | none => tags
    | some value => addNewZstrToMeta tags name value false

/-- `_dd_http_method`. -/
def ddHttpMethod (env : TagEnv) : Tags → Tags := addMissing tagHttpMethod env.requestMethod

/-- The value of `http.url`, as far as the URI and the host are known. -/
def httpUrl (env : TagEnv) (server : HashTable) : Option Bytes :=
  let hostname := (getStringElem (some server) "HTTP_HOST").or
    (getStringElem (some server) "SERVER_NAME")
  let scheme : Bytes := if (server.find "HTTPS").isSome then "https" else "http"
  match env.requestUri.or (getStringElem (some server) "REQUEST_URI"), hostname with
  | some uri, some host => some (scheme ++ "://" ++ host ++ uri)
  | _, _ => none

/-- `_dd_http_url`. -/
def ddHttpUrl (env : TagEnv) (server : HashTable) : Tags → Tags :=
  addMissing tagHttpUrl (httpUrl env server)

/-- `_dd_http_user_agent`. -/
def ddHttpUserAgent (server : HashTable) : Tags → Tags :=
  addMissing tagHttpUserAgent (getStringElem (some server) "HTTP_USER_AGENT")

/-- `_dd_http_status_code`. -/
def ddHttpStatusCode (env : TagEnv) : Tags → Tags :=
  addMissing tagHttpStatusCode
    (if env.responseCode = 0 then none else some (intToString env.responseCode))

/-- `_dd_http_network_client_ip`. -/
def ddHttpNetworkClientIp (server : HashTable) : Tags → Tags :=
  addMissing tagNetworkClientIp (getStringElem (some server) "REMOTE_ADDR")

/-- `_dd_http_client_ip`: not where the tracer found several headers. -/
def ddHttpClientIp (env : TagEnv) (tags : Tags) : Tags :=
  if tags[tagHttpClientIp]?.isSome ∨ tags[multipleIpHeaders]?.isSome then tags
  else
    match env.clientIp with
    | none => tags
    | some ip => addNewZstrToMeta tags tagHttpClientIp ip false

/-- The header that an entry of `$_SERVER` stands for. -/
def serverHeader : Key × Zval → Option (Bytes × Bytes)
  | (.str key, .string val) =>
    if 5 < key.length ∧ key.take 5 = "HTTP_" then some (normalizeHeader (key.drop 5), val)
    else none
  | _ => none

/-- `_dd_request_headers`. -/
def ddRequestHeaders (relevant : List Bytes) (server : HashTable) (tags : Tags) : Tags :=
  server.foldl (fun tags e =>
    match serverHeader e with
    | some (name, val) =>
      if name ∈ relevant then tags.insertIfNew (prefixTagRequestHeader ++ name) (.string val)
      else tags
    | none => tags) tags

/-- `_is_relevant_resp_header`. -/
def isRelevantRespHeader (name : Bytes) : Option Bytes :=
  if lowerCase (name.take 8) = "content-" then
    let rest := lowerCase (name.drop 8)
    if rest = "length" then some "http.response.headers.content-length"
    else if rest = "type" then some "http.response.headers.content-type"
    else if rest = "encoding" then some "http.response.headers.content-encoding"
    else if rest = "language" then some "http.response.headers.content-language"
    else none
  else none

/-- The tags that it returns. -/
def responseHeaderTags : List Bytes :=
  ["http.response.headers.content-length", "http.response.headers.content-type",
    "http.response.headers.content-encoding", "http.response.headers.content-language"]

/-- The tag that a header of the response gives. -/
def responseHeaderTag (header : Bytes) : Option (Bytes × Bytes) :=
  if colon ∈ header then
    (isRelevantRespHeader (header.takeWhile (· ≠ colon))).map (·, headerValue header)
  else none

/-- `_dd_response_headers`. -/
def ddResponseHeaders (env : TagEnv) (tags : Tags) : Tags :=
  env.responseHeaders.foldl (fun tags header =>
    match responseHeaderTag header with
    | some (tag, val) => tags.insertIfNew tag (.string val)
    | none => tags) tags

/-- `_dd_event_user_id`. -/
def ddEventUserId (t : TagState) (tags : Tags) : Tags :=
  match t.eventUserId with
  | some userId => addNewZstrToMeta tags tagUserId userId false
  | none => tags

/-- `_dd_appsec_blocked`. -/
def ddAppsecBlocked (t : TagState) (tags : Tags) : Tags :=
  if t.blocked then addNewZstrToMeta tags tagBlocked "true" false else tags

/-- `_add_basic_tags_to_meta`. -/
def addBasicTagsToMeta (env : TagEnv) (tags : Tags) : Tags :=
  match env.server with
  | none => tags
  | some server => ddRequestHeaders relevantIpHeaders server (ddHttpClientIp env tags)

/-- `_add_all_tags_to_meta`. -/
def addAllTagsToMeta (env : TagEnv) (t : TagState) (tags : Tags) : Tags :=
  match env.server with
  | none => tags
  | some server =>
    let tags := ddHttpMethod env tags
    let tags := ddHttpUrl env server tags
    let tags := ddHttpUserAgent server tags
    let tags := ddHttpStatusCode env tags
    let tags := ddHttpNetworkClientIp server tags
    let tags := ddRequestHeaders (relevantHeaderNames env.extraHeaders) server tags
    let tags := ddHttpClientIp env tags
    let tags := ddResponseHeaders env tags
    let tags := ddEventUserId t tags
    ddAppsecBlocked t tags

/-! ## The end of the request -/

/-- `_set_appsec_enabled`. -/
def setAppsecEnabled (env : TagEnv) (metrics : Tags) : Tags :=
  metrics.insertIfNew metricEnabled (.long (if env.enabled then 1 else 0))

/-- `dd_trace_root_span_add_tag_str`. -/
def RootSpan.addTagStr (r : RootSpan) (tag value : Bytes) : Bool × RootSpan :=
  if maxTagValueLen < value.length then (false, r) else r.addTag tag (.string value)

/-- `_add_basic_ancillary_tags`. -/
def RootSpan.addBasicAncillaryTags (env : TagEnv) (r : RootSpan) : RootSpan :=
  { r with metaTags := r.metaTags.map (addBasicTagsToMeta env) }

/-- `_add_all_ancillary_tags`. -/
def RootSpan.addAllAncillaryTags (env : TagEnv) (t : TagState) (r : RootSpan) : RootSpan :=
  { r with metaTags := r.metaTags.map (addAllTagsToMeta env t) }

/-- The second half of `dd_tags_add_tags`. The rest of the tags is given up when
`_dd.appsec.json` or `appsec.event` cannot be added. -/
def RootSpan.addTriggers (env : TagEnv) (t : TagState) (r : RootSpan) : RootSpan :=
  match r.addTag tagData (.string (concatenated t.appsecJsonFrags)) with
  | (false, r) => r
  | (true, r) =>
    match r.addTag tagEvent (.string "true") with
    | (false, r) => r
    | (true, r) => r.addAllAncillaryTags env t

/-- `dd_tags_add_tags`. -/
def ddTagsAddTags (env : TagEnv) (t : TagState) (r : RootSpan) : RootSpan :=
  let r := { r with metrics := r.metrics.map (setAppsecEnabled env) }
  let r := (r.addTagStr tagRuntimeFamily "php").2
  let r := if t.forceKeep then { r with userKeep := true } else r
  if t.appsecJsonFrags = [] then r.addBasicAncillaryTags env else r.addTriggers env t

/-! ## The document is what was allocated -/

/-- `w` has been written, and `room` bytes are left. -/
def Cursor.Wrote (c : Cursor) (w : Bytes) (room : Nat) : Prop :=
  c.pos = w.length ∧ ∃ rest, c.buffer = w ++ rest ∧ rest.length = room

theorem Cursor.Wrote.put {c : Cursor} {w : Bytes} {room : Nat} (h : c.Wrote w room)
    (bytes : Bytes) : (c.put bytes).Wrote (w ++ bytes) (room - bytes.length) := by
  obtain ⟨hpos, rest, hbuffer, hrest⟩ := h
  refine ⟨?_, rest.drop bytes.length, ?_, ?_⟩
  · simp [Cursor.put, hpos]
  · rw [Cursor.put, overlay, hbuffer, hpos, List.take_left, ← List.drop_drop, List.drop_left]
  · rw [List.length_drop, hrest]

/-- The bytes that the loop writes. -/
def joinedFrags : Nat → List Bytes → Bytes
  | _, [] => []
  | i, s :: frags => (if i ≠ 0 then [comma] else []) ++ s ++ joinedFrags (i + 1) frags

theorem Cursor.Wrote.putFrags {c : Cursor} {w : Bytes} {room : Nat} (h : c.Wrote w room)
    (i : Nat) (frags : List Bytes) :
    (c.putFrags i frags).Wrote (w ++ joinedFrags i frags)
      (room - (joinedFrags i frags).length) := by
  induction frags generalizing c w room i with
  | nil => simpa [Cursor.putFrags, joinedFrags] using h
  | cons s frags ih =>
    have hcomma : (if i ≠ 0 then c.put [comma] else c).Wrote
        (w ++ if i ≠ 0 then [comma] else [])
        (room - (if i ≠ 0 then [comma] else []).length) := by
      split
      · exact h.put [comma]
      · simpa using h
    have hrest := ih (hcomma.put s) (i + 1)
    simp only [Cursor.putFrags, joinedFrags, List.length_append, List.append_assoc,
      Nat.sub_sub] at hrest ⊢
    simpa [Nat.add_assoc] using hrest

theorem joinedFrags_succ (i : Nat) (frags : List Bytes) :
    joinedFrags (i + 1) frags = (frags.map fun s => comma :: s).flatten := by
  induction frags generalizing i with
  | nil => rfl
  | cons s frags ih => simp [joinedFrags, ih]

theorem joinedFrags_zero (frags : List Bytes) :
    joinedFrags 0 frags = [comma].intercalate frags := by
  cases frags with
  | nil => rfl
  | cons s frags =>
    induction frags generalizing s with
    | nil => simp [joinedFrags]
    | cons s' frags ih =>
      have hs := ih s'
      rw [joinedFrags, joinedFrags_succ] at hs ⊢
      rw [List.intercalate_cons_cons, ← hs]
      simp

/-- The two loops over the fragments agree on the length. -/
theorem neededLen_eq (frags : List Bytes) :
    neededLen frags = (triggersDocument frags).length := by
  have hsum (n : Nat) : frags.foldl (fun n s => n + s.length) n =
      n + (frags.map List.length).sum := by
    induction frags generalizing n with
    | nil => simp
    | cons s frags ih => rw [List.foldl_cons, ih, List.map_cons, List.sum_cons, Nat.add_assoc]
  rw [neededLen, hsum, triggersDocument, ← joinedFrags_zero]
  cases frags with
  | nil => simp [joinedFrags]
  | cons s frags =>
    have hcommas : ((frags.map fun s => comma :: s).flatten).length =
        frags.length + (frags.map List.length).sum := by
      clear hsum
      induction frags with
      | nil => rfl
      | cons s frags ih => simp [ih]; omega
    rw [joinedFrags, joinedFrags_succ]
    simp only [List.length_append, List.length_cons, hcommas, List.map_cons, List.sum_cons]
    simp
    omega

/-- Before the NUL. -/
theorem concat_wrote (frags : List Bytes) (memory : Bytes) :
    ((((⟨memory, 0⟩ : Cursor).put dataTagBefore).putFrags 0 frags).put dataTagAfter).Wrote
      (triggersDocument frags) (memory.length - (triggersDocument frags).length) := by
  have hstart : (⟨memory, 0⟩ : Cursor).Wrote [] memory.length := ⟨rfl, memory, rfl, rfl⟩
  have hwrote := ((hstart.put dataTagBefore).putFrags 0 frags).put dataTagAfter
  have hroom : memory.length - dataTagBefore.length - ([comma].intercalate frags).length -
      dataTagAfter.length = memory.length - (triggersDocument frags).length := by
    rw [triggersDocument, List.length_append, List.length_append, Nat.sub_sub, Nat.sub_sub,
      Nat.add_assoc]
  rw [joinedFrags_zero, hroom] at hwrote
  exact hwrote

/-- What is behind the document, after the NUL. -/
theorem concat_buffer (frags : List Bytes) (memory : Bytes) :
    ∃ rest : Bytes, rest.length = memory.length - neededLen frags ∧
      concatJsonFragments frags memory =
        ⟨triggersDocument frags ++ 0 :: rest.drop 1, neededLen frags⟩ := by
  obtain ⟨hpos, rest, hbuffer, hrest⟩ := concat_wrote frags memory
  refine ⟨rest, by rw [hrest, neededLen_eq], ?_⟩
  unfold concatJsonFragments
  simp only [hpos, hbuffer, overlay, List.take_left, neededLen_eq]
  rw [← List.drop_drop, List.drop_left]
  simp

/-- **The memory that is allocated is the least that is enough**: the document and
its NUL stay within it exactly if there is room for the counted length and one
byte. -/
theorem concat_fits_iff (frags : List Bytes) (memory : Bytes) :
    (concatJsonFragments frags memory).buffer.length = memory.length ↔
      neededLen frags + 1 ≤ memory.length := by
  obtain ⟨rest, hrest, heq⟩ := concat_buffer frags memory
  rw [heq, List.length_append, List.length_cons, List.length_drop, ← neededLen_eq]
  omega

/-- The string that is returned is the document. -/
theorem concatenated_eq (frags : List Bytes) : concatenated frags = triggersDocument frags := by
  obtain ⟨rest, -, heq⟩ := concat_buffer frags (List.replicate (neededLen frags + 1) 0)
  rw [concatenated, heq, neededLen_eq, List.take_left]

end DdAppsec.Extension
