import DdAppsec.Extension.MsgpackHelpers

/-!
# Extension — the `request_init` message

`requestPack` is `_request_pack`: the addresses in the order in which they
are written, each with what is read from the superglobals. `command` puts the
command name around it and `connSendv` the frame.

As for single values, `message` is the object that was meant, and
`command_eq` says that the bytes are its encoding, for every request.

The path parameters are cut out of a COPY of the URI that is decoded in
place while it is scanned. A write never goes beyond the byte the scan has
reached (`overlay_drop`), so the scan finds the NUL at the end
(`splitPath_isSome`).
-/

namespace DdAppsec.Extension

open Lib Lib.MsgPack

/-! ## Header names -/

/-- `_is_relevant_header`. -/
def isRelevantHeader (key : Bytes) : Bool :=
  decide (5 < key.length) && decide (key.take 5 = "HTTP_") && decide (key ≠ "HTTP_COOKIE")

/-- The table `header_lc_dash`. -/
def headerLcDash (c : UInt8) : UInt8 :=
  if 0x41 ≤ c ∧ c ≤ 0x5a then c + 0x20 else if c = 0x5f then 0x2d else c

/-- `_transform_header_name`. -/
def transformHeaderName (key : Bytes) : Bytes := (key.drop 5).map headerLcDash

/-- The entries that `_pack_headers` writes, with the key of the message. -/
def relevantHeaders (server : HashTable) : List (Bytes × Zval) :=
  server.filterMap fun e =>
    match e.1 with
    | .str key => if isRelevantHeader key then some (transformHeaderName key, e.2) else none
    | .int _ => none

/-! ## Uploaded files -/

/-- The name under which `_pack_filenames` lists an entry of `$_FILES`. -/
def filename : Zval → Option Bytes
  | .array entries =>
    match HashTable.find entries "name" with
    | some (.string s) => some s
    | _ => none
  | _ => none

def filenames (files : HashTable) : List Bytes := files.filterMap fun e => filename e.2

/-! ## Path parameters -/

def hexDigit (c : UInt8) : Option UInt8 :=
  if 0x30 ≤ c ∧ c ≤ 0x39 then some (c - 0x30)
  else if 0x41 ≤ c ∧ c ≤ 0x46 then some (c - 0x37)
  else if 0x61 ≤ c ∧ c ≤ 0x66 then some (c - 0x57)
  else none

/-- `php_raw_url_decode`, as a function of the bytes it is given. -/
def rawUrlDecode : Bytes → Bytes
  | 0x25 :: hi :: lo :: rest =>
    match hexDigit hi, hexDigit lo with
    | some h, some l => (16 * h + l) :: rawUrlDecode rest
    | _, _ => 0x25 :: rawUrlDecode (hi :: lo :: rest)
  | c :: rest => c :: rawUrlDecode rest
  | [] => []

/-- `bytes` written over a buffer from `pos` on. -/
def overlay (buffer : Bytes) (pos : Nat) (bytes : Bytes) : Bytes :=
  buffer.take pos ++ bytes ++ buffer.drop (pos + bytes.length)

/-- The loop of `_pack_path_params`: `p` scans the buffer, `beg` is where the
current part starts. Decoding a part writes it over itself with a NUL behind.
`none` is a read outside the buffer; the first argument bounds the number of
turns. -/
def splitPath : Nat → Bytes → Nat → Nat → Option (List Bytes)
  | 0, _, _, _ => none
  | turns + 1, buffer, p, beg =>
    match buffer[p]? with
    | none => none
    | some c =>
      let terminates := c = 0 ∨ c = 0x3f
      if c ≠ 0x2f ∧ ¬terminates then splitPath turns buffer (p + 1) beg
      else
        let len := p - beg
        -- no empty part at the end, though empty ones in between count
        if len = 0 ∧ terminates then some []
        else
          let part := rawUrlDecode ((buffer.drop beg).take len)
          if terminates then some [part]
          else (splitPath turns (overlay buffer beg (part ++ [0])) (p + 1) (p + 1)).map (part :: ·)

/-- The parts that `_pack_path_params` writes. A slash at the beginning is
skipped. -/
def pathParams (uri : Bytes) : List Bytes :=
  let buffer := uri ++ [0]
  let p := if buffer.head? = some 0x2f then 1 else 0
  (splitPath buffer.length buffer p p).getD []

/-! ## Requests -/

/-- `REQUEST_URI`, if it is a string. -/
def requestUri (server : Option HashTable) : Option Bytes :=
  match server.bind fun table => table.find "REQUEST_URI" with
  | some z =>
    match z.deref with
    | .string s => some s
    | _ => none
  | none => none

/-- What `_request_pack` reads: the method the SAPI gives, the autoglobals
that are arrays, the extracted client address and, in the testing mode that
asks for it, the raw body. A SAPI gives no method or URI of 4 GiB. -/
structure HttpRequest where
  method : Option Bytes
  get : Option HashTable
  post : Option HashTable
  cookie : Option HashTable
  server : Option HashTable
  files : Option HashTable
  clientIp : Option Bytes
  rawBody : Option Bytes
  tables : ∀ ag ∈ [get, post, cookie, server, files], ∀ table ∈ ag, (Zval.array table).Valid
  method_fits : ∀ s ∈ method, s.length < 2 ^ 32
  uri_fits : ∀ s ∈ requestUri server, s.length + 1 < 2 ^ 32

/-! ## Packing -/

section Pack

variable (codec : Codec)

/-- `mpack_write` of a C string that may be `NULL`. -/
def writeMethod : Option Bytes → Bytes
  | some s => writeStr codec s
  | none => codec.write .nil

/-- `_pack_headers`. -/
def packHeaders : Option HashTable → Bytes
  | none => codec.write (.map 0)
  | some server =>
    buildMap codec ((relevantHeaders server).map fun e =>
      (writeStr codec e.1, writeZval codec e.2))

/-- `_pack_filenames`. -/
def packFilenames : Option HashTable → Bytes
  | none => codec.write (.array 0)
  | some files => buildArray codec ((filenames files).map (writeStr codec))

/-- `_pack_files_field_names`. -/
def packFilesFieldNames : Option HashTable → Bytes
  | none => codec.write (.array 0)
  | some files => buildArray codec (files.map fun e => writeStr codec e.1.text)

/-- `_pack_path_params`. -/
def packPathParams : Option Bytes → Bytes
  | none => codec.write (.array 0)
  | some uri => buildArray codec ((pathParams uri).map (writeStr codec))

/-- The eleventh entry, for testing. -/
def packRawBody : Option Bytes → Bytes
  | none => []
  | some body => writeStr codec "server.request.body.raw" ++ writeStr codec body

def mapNumEntries : Nat := 10

/-- `_request_pack`. -/
def requestPack (r : HttpRequest) : Bytes :=
  codec.write (.map (if r.rawBody.isSome then mapNumEntries + 1 else mapNumEntries)) ++
  (writeStr codec "server.request.query" ++ writeAutoglobal codec r.get) ++
  (writeStr codec "server.request.method" ++ writeMethod codec r.method) ++
  (writeStr codec "server.request.cookies" ++ writeAutoglobal codec r.cookie) ++
  (writeStr codec "server.request.uri.raw" ++ writeNullableZstr codec (requestUri r.server)) ++
  (writeStr codec "server.request.headers.no_cookies" ++ packHeaders codec r.server) ++
  (writeStr codec "server.request.body" ++ writeAutoglobal codec r.post) ++
  (writeStr codec "server.request.body.filenames" ++ packFilenames codec r.files) ++
  (writeStr codec "server.request.body.files_field_names" ++
    packFilesFieldNames codec r.files) ++
  (writeStr codec "server.request.path_params" ++
    packPathParams codec (requestUri r.server)) ++
  (writeStr codec "http.client_ip" ++ writeNullableZstr codec r.clientIp) ++
  packRawBody codec r.rawBody

/-- `_omsg_init` and what the callback of the command appends. -/
def command (r : HttpRequest) : Bytes :=
  codec.write (.array 2) ++ writeStr codec "request_init" ++ codec.write (.array 1) ++
    requestPack codec r

end Pack

/-- `dd_conn_sendv`: the header and the body. The length is cut to 32 bits. -/
def connSendv (body : Bytes) : Bytes :=
  ([0x64, 0x64, 0x73, 0] ++ bytesLE 4 body.length) ++ body

/-! ## What is meant -/

def methodObj : Option Bytes → Obj
  | some s => strObj s
  | none => .nil

def nullableObj (s : Option Bytes) : Obj := strObj (s.getD [])

def headersObj (server : Option HashTable) : Obj :=
  .map ((relevantHeaders (server.getD [])).map fun e => (strObj e.1, zvalObj e.2))

def filenamesObj (files : Option HashTable) : Obj :=
  .array ((filenames (files.getD [])).map strObj)

def filesFieldNamesObj (files : Option HashTable) : Obj :=
  .array ((files.getD []).map fun e => strObj e.1.text)

def pathParamsObj : Option Bytes → Obj
  | none => .array []
  | some uri => .array ((pathParams uri).map strObj)

def rawBodyObjs : Option Bytes → List (Obj × Obj)
  | none => []
  | some body => [(strObj "server.request.body.raw", strObj body)]

/-- The entries of the map, in the order of the source. -/
def requestEntries (r : HttpRequest) : List (Obj × Obj) :=
  [(strObj "server.request.query", autoglobalObj r.get),
    (strObj "server.request.method", methodObj r.method),
    (strObj "server.request.cookies", autoglobalObj r.cookie),
    (strObj "server.request.uri.raw", nullableObj (requestUri r.server)),
    (strObj "server.request.headers.no_cookies", headersObj r.server),
    (strObj "server.request.body", autoglobalObj r.post),
    (strObj "server.request.body.filenames", filenamesObj r.files),
    (strObj "server.request.body.files_field_names", filesFieldNamesObj r.files),
    (strObj "server.request.path_params", pathParamsObj (requestUri r.server)),
    (strObj "http.client_ip", nullableObj r.clientIp)] ++ rawBodyObjs r.rawBody

/-- `[cmd, [arguments...]]` with the map as the only argument. -/
def message (r : HttpRequest) : Obj :=
  .array [strObj "request_init", .array [.map (requestEntries r)]]

/-! ## The scan of the URI -/

theorem length_rawUrlDecode (bytes : Bytes) : (rawUrlDecode bytes).length ≤ bytes.length := by
  fun_induction rawUrlDecode bytes with
  | case1 hi lo rest h l hhi hlo ih =>
    simp only [List.length_cons]
    omega
  | case2 hi lo rest hno ih =>
    simp only [List.length_cons] at ih ⊢
    omega
  | case3 c rest hne ih =>
    simp only [List.length_cons]
    omega
  | case4 => exact Nat.le_refl _

theorem length_overlay {buffer bytes : Bytes} {pos : Nat}
    (hfits : pos + bytes.length ≤ buffer.length) :
    (overlay buffer pos bytes).length = buffer.length := by
  simp only [overlay, List.length_append, List.length_take, List.length_drop]
  omega

/-- Nothing changes behind what is written. -/
theorem overlay_drop {buffer bytes : Bytes} {pos k : Nat} (hpos : pos ≤ buffer.length)
    (hk : pos + bytes.length ≤ k) : (overlay buffer pos bytes).drop k = buffer.drop k := by
  have hlength : (buffer.take pos ++ bytes).length = pos + bytes.length := by
    rw [List.length_append, List.length_take, Nat.min_eq_left hpos]
  obtain ⟨m, rfl⟩ : ∃ m, k = pos + bytes.length + m := ⟨k - (pos + bytes.length), by omega⟩
  rw [overlay, ← hlength, List.drop_append, List.drop_eq_nil_of_le (by omega),
    List.nil_append, Nat.add_sub_cancel_left, List.drop_drop]

/-- **The scan stays in the buffer** as long as there is a NUL ahead, and it
writes at most one part at each turn. -/
theorem splitPath_isSome (turns : Nat) (buffer : Bytes) (p beg : Nat) (hbeg : beg ≤ p)
    (hnul : 0 ∈ buffer.drop p) (hturns : buffer.length ≤ p + turns) :
    ∃ parts, splitPath turns buffer p beg = some parts ∧ parts.length ≤ turns := by
  -- the buffer changes between turns, but not what is ahead of `p`
  induction turns generalizing buffer p beg with
  | zero =>
    rw [List.drop_of_length_le (by omega)] at hnul
    simp at hnul
  | succ turns ih =>
    have hp : p < buffer.length := by
      apply Nat.lt_of_not_le
      intro hle
      rw [List.drop_of_length_le hle] at hnul
      simp at hnul
    rw [List.drop_eq_getElem_cons hp, List.mem_cons] at hnul
    unfold splitPath
    rw [List.getElem?_eq_getElem hp]
    dsimp only
    split
    · rename_i hscan
      -- an ordinary byte: it is not the NUL
      have hahead := hnul.resolve_left fun h => hscan.2 (Or.inl h.symm)
      obtain ⟨parts, heq, hlength⟩ := ih buffer (p + 1) beg (by omega) hahead (by omega)
      exact ⟨parts, heq, by omega⟩
    · split
      · exact ⟨[], rfl, by simp⟩
      · split
        · exact ⟨_, rfl, by simp⟩
        · rename_i hgoes
          have hahead := hnul.resolve_left fun h => hgoes (Or.inl h.symm)
          -- the part and its NUL end at `p` or before
          have hpart : beg + (rawUrlDecode ((buffer.drop beg).take (p - beg)) ++ [0]).length ≤
              p + 1 := by
            have hdecoded := length_rawUrlDecode ((buffer.drop beg).take (p - beg))
            rw [List.length_take, List.length_drop] at hdecoded
            rw [List.length_append, List.length_singleton]
            omega
          rw [← overlay_drop (by omega) hpart] at hahead
          obtain ⟨parts, heq, hlength⟩ := ih _ (p + 1) (p + 1) (by omega) hahead
            (by rw [length_overlay (by omega)]; omega)
          exact ⟨_, by rw [heq]; rfl, by rw [List.length_cons]; omega⟩

theorem length_pathParams (uri : Bytes) : (pathParams uri).length ≤ uri.length + 1 := by
  have hscan : ∀ p, p ≤ uri.length →
      ((splitPath (uri ++ [0]).length (uri ++ [0]) p p).getD []).length ≤ uri.length + 1 := by
    intro p hp
    have hnul : (0 : UInt8) ∈ (uri ++ [0]).drop p := by
      rw [List.drop_append_of_le_length hp]
      simp
    obtain ⟨parts, heq, hlength⟩ := splitPath_isSome (uri ++ [0]).length (uri ++ [0]) p p
      (Nat.le_refl p) hnul (by omega)
    rw [heq]
    simpa using hlength
  unfold pathParams
  cases uri with
  | nil => exact hscan 0 (Nat.le_refl 0)
  | cons c uri =>
    dsimp only
    split
    · exact hscan 1 (by simp)
    · exact hscan 0 (by simp)

/-! ## The bytes are the encoding -/

/-- The bytes of one value of the message. -/
structure Writes (bytes : Bytes) (o : Obj) : Prop where
  eq : bytes = o.encode
  valid : o.Valid
  stringKeys : o.StringKeys

variable {codec : Codec}

theorem writes_str (hc : codec.Conforms) (s : Bytes) : Writes (writeStr codec s) (strObj s) :=
  ⟨writeStr_eq hc s, strObj_valid s, trivial⟩

theorem writes_zval (hc : codec.Conforms) {z : Zval} (hz : z.Valid) :
    Writes (writeZval codec z) (zvalObj z) :=
  ⟨writeZval_eq hc z hz, zvalObj_valid z hz, zvalObj_stringKeys z⟩

theorem writes_autoglobal (hc : codec.Conforms) {ag : Option HashTable}
    (h : ∀ table ∈ ag, (Zval.array table).Valid) :
    Writes (writeAutoglobal codec ag) (autoglobalObj ag) := by
  cases ag with
  | none => exact ⟨hc.write_eq .nil trivial, trivial, trivial⟩
  | some table => exact writes_zval hc (h table rfl)

theorem writes_method (hc : codec.Conforms) (method : Option Bytes) :
    Writes (writeMethod codec method) (methodObj method) := by
  cases method with
  | none => exact ⟨hc.write_eq .nil trivial, trivial, trivial⟩
  | some s => exact writes_str hc s

theorem writes_nullable (hc : codec.Conforms) (s : Option Bytes) :
    Writes (writeNullableZstr codec s) (nullableObj s) := by
  cases s with
  | none => exact writes_str hc []
  | some s => exact writes_str hc s

/-- A built array: its items are written one by one. -/
theorem writes_buildArray (hc : codec.Conforms) {α : Type} {items : List α} {write : α → Bytes}
    {obj : α → Obj} (hitems : ∀ a ∈ items, Writes (write a) (obj a))
    (hlength : items.length < 2 ^ 32) :
    Writes (buildArray codec (items.map write)) (.array (items.map obj)) := by
  have hlength' : (items.map obj).length < 2 ^ 32 := by rwa [List.length_map]
  have hwrite : items.map write = (items.map obj).map Obj.encode := by
    rw [List.map_map]
    exact List.map_congr_left fun a ha => (hitems a ha).eq
  refine ⟨by rw [hwrite, buildArray_eq hc hlength'], ⟨hlength', ?_⟩, ?_⟩
  · rw [validItems_iff]
    intro o ho
    obtain ⟨a, ha, rfl⟩ := List.mem_map.mp ho
    exact (hitems a ha).valid
  · refine (stringKeysItems_iff _).mpr ?_
    intro o ho
    obtain ⟨a, ha, rfl⟩ := List.mem_map.mp ho
    exact (hitems a ha).stringKeys

theorem writes_buildMap (hc : codec.Conforms) {α : Type} {entries : List α} {key : α → Bytes}
    {write : α → Bytes} {obj : α → Obj} (hvalues : ∀ a ∈ entries, Writes (write a) (obj a))
    (hlength : entries.length < 2 ^ 32) :
    Writes (buildMap codec (entries.map fun a => (writeStr codec (key a), write a)))
      (.map (entries.map fun a => (strObj (key a), obj a))) := by
  have hlength' : (entries.map fun a => (strObj (key a), obj a)).length < 2 ^ 32 := by
    rwa [List.length_map]
  have hwrite : (entries.map fun a => (writeStr codec (key a), write a)) =
      (entries.map fun a => (strObj (key a), obj a)).map fun e => (e.1.encode, e.2.encode) := by
    rw [List.map_map]
    apply List.map_congr_left
    intro a ha
    exact Prod.ext (writeStr_eq hc (key a)) (hvalues a ha).eq
  refine ⟨by rw [hwrite, buildMap_eq hc hlength'], ⟨hlength', ?_⟩, ?_⟩
  · rw [validEntries_iff]
    intro e he
    obtain ⟨a, ha, rfl⟩ := List.mem_map.mp he
    exact ⟨strObj_valid (key a), (hvalues a ha).valid⟩
  · refine (stringKeysEntries_iff _).mpr ?_
    intro e he
    obtain ⟨a, ha, rfl⟩ := List.mem_map.mp he
    exact ⟨⟨_, rfl⟩, (hvalues a ha).stringKeys⟩

theorem mem_relevantHeaders {server : HashTable} {e : Bytes × Zval}
    (h : e ∈ relevantHeaders server) : ∃ k, (k, e.2) ∈ server := by
  simp only [relevantHeaders, List.mem_filterMap] at h
  obtain ⟨⟨k, z⟩, hmem, heq⟩ := h
  cases k with
  | int i => simp at heq
  | str key =>
    dsimp only at heq
    split at heq
    · cases heq
      exact ⟨_, hmem⟩
    · cases heq

theorem writes_headers (hc : codec.Conforms) {server : Option HashTable}
    (h : ∀ table ∈ server, (Zval.array table).Valid) :
    Writes (packHeaders codec server) (headersObj server) := by
  cases server with
  | none => exact ⟨hc.write_eq (.map 0) (by decide), ⟨Nat.two_pow_pos 32, trivial⟩, trivial⟩
  | some table =>
    have htable := h table rfl
    refine writes_buildMap hc ?_ (Nat.lt_of_le_of_lt (List.length_filterMap_le _ _) htable.1)
    intro e he
    obtain ⟨k, hk⟩ := mem_relevantHeaders he
    exact writes_zval hc ((validTable_iff table).mp htable.2 _ hk)

theorem writes_emptyArray (hc : codec.Conforms) :
    Writes (codec.write (.array 0)) (.array []) :=
  ⟨hc.write_eq (.array 0) (by decide), ⟨Nat.two_pow_pos 32, trivial⟩, trivial⟩

theorem writes_filenames (hc : codec.Conforms) {files : Option HashTable}
    (h : ∀ table ∈ files, (Zval.array table).Valid) :
    Writes (packFilenames codec files) (filenamesObj files) := by
  cases files with
  | none => exact writes_emptyArray hc
  | some table =>
    exact writes_buildArray hc (fun s _ => writes_str hc s)
      (Nat.lt_of_le_of_lt (List.length_filterMap_le _ _) (h table rfl).1)

theorem writes_filesFieldNames (hc : codec.Conforms) {files : Option HashTable}
    (h : ∀ table ∈ files, (Zval.array table).Valid) :
    Writes (packFilesFieldNames codec files) (filesFieldNamesObj files) := by
  cases files with
  | none => exact writes_emptyArray hc
  | some table => exact writes_buildArray hc (fun e _ => writes_str hc e.1.text) (h table rfl).1

theorem writes_pathParams (hc : codec.Conforms) {uri : Option Bytes}
    (h : ∀ s ∈ uri, s.length + 1 < 2 ^ 32) :
    Writes (packPathParams codec uri) (pathParamsObj uri) := by
  cases uri with
  | none => exact writes_emptyArray hc
  | some uri =>
    exact writes_buildArray hc (fun s _ => writes_str hc s)
      (Nat.lt_of_le_of_lt (length_pathParams uri) (h uri rfl))

/-- Every value of the map, with its bytes. -/
theorem writes_entries (hc : codec.Conforms) (r : HttpRequest) :
    ∀ e ∈ requestEntries r, (∃ key, e.1 = strObj key) ∧ ∃ bytes, Writes bytes e.2 := by
  intro e he
  rw [requestEntries, List.mem_append] at he
  rcases he with he | he
  · simp only [List.mem_cons, List.not_mem_nil, or_false] at he
    rcases he with rfl | rfl | rfl | rfl | rfl | rfl | rfl | rfl | rfl | rfl
    · exact ⟨⟨_, rfl⟩, _, writes_autoglobal hc (r.tables r.get (by simp))⟩
    · exact ⟨⟨_, rfl⟩, _, writes_method hc r.method⟩
    · exact ⟨⟨_, rfl⟩, _, writes_autoglobal hc (r.tables r.cookie (by simp))⟩
    · exact ⟨⟨_, rfl⟩, _, writes_nullable hc (requestUri r.server)⟩
    · exact ⟨⟨_, rfl⟩, _, writes_headers hc (r.tables r.server (by simp))⟩
    · exact ⟨⟨_, rfl⟩, _, writes_autoglobal hc (r.tables r.post (by simp))⟩
    · exact ⟨⟨_, rfl⟩, _, writes_filenames hc (r.tables r.files (by simp))⟩
    · exact ⟨⟨_, rfl⟩, _, writes_filesFieldNames hc (r.tables r.files (by simp))⟩
    · exact ⟨⟨_, rfl⟩, _, writes_pathParams hc r.uri_fits⟩
    · exact ⟨⟨_, rfl⟩, _, writes_nullable hc r.clientIp⟩
  · cases hbody : r.rawBody with
    | none => simp [rawBodyObjs, hbody] at he
    | some body =>
      simp only [rawBodyObjs, hbody, List.mem_singleton] at he
      subst he
      exact ⟨⟨_, rfl⟩, _, writes_str hc body⟩

/-- The number that `_request_pack` announces is the number of entries. -/
theorem length_requestEntries (r : HttpRequest) : (requestEntries r).length =
    if r.rawBody.isSome then mapNumEntries + 1 else mapNumEntries := by
  cases h : r.rawBody <;> simp [requestEntries, rawBodyObjs, h, mapNumEntries]

/-- **The map of a request.** -/
theorem writes_request (hc : codec.Conforms) (r : HttpRequest) :
    Writes (requestPack codec r) (.map (requestEntries r)) := by
  have hsize : (Head.map (requestEntries r).length).Valid := by
    show (requestEntries r).length < 2 ^ 32
    rw [length_requestEntries, mapNumEntries]
    split <;> decide
  have hraw : packRawBody codec r.rawBody = encodeEntries (rawBodyObjs r.rawBody) := by
    cases r.rawBody with
    | none => rfl
    | some body => simp [packRawBody, rawBodyObjs, encodeEntries, writeStr_eq hc]
  refine ⟨?_, ⟨hsize, ?_⟩, ?_⟩
  · -- entry by entry, each value is its object's encoding
    rw [requestPack, ← length_requestEntries, hc.write_eq _ hsize, hraw, Obj.encode,
      (writes_autoglobal hc (r.tables r.get (by simp))).eq,
      (writes_autoglobal hc (r.tables r.cookie (by simp))).eq,
      (writes_autoglobal hc (r.tables r.post (by simp))).eq, (writes_method hc r.method).eq,
      (writes_nullable hc (requestUri r.server)).eq, (writes_nullable hc r.clientIp).eq,
      (writes_headers hc (r.tables r.server (by simp))).eq,
      (writes_filenames hc (r.tables r.files (by simp))).eq,
      (writes_filesFieldNames hc (r.tables r.files (by simp))).eq,
      (writes_pathParams hc r.uri_fits).eq]
    simp only [requestEntries, writeStr_eq hc, encodeEntries, List.append_assoc,
      List.cons_append, List.nil_append]
  · rw [validEntries_iff]
    intro e he
    obtain ⟨⟨key, hkey⟩, _, hvalue⟩ := writes_entries hc r e he
    exact ⟨hkey ▸ strObj_valid key, hvalue.valid⟩
  · refine (stringKeysEntries_iff _).mpr ?_
    intro e he
    obtain ⟨⟨key, hkey⟩, _, hvalue⟩ := writes_entries hc r e he
    exact ⟨⟨_, hkey⟩, hvalue.stringKeys⟩

/-- **The message of a request.** -/
theorem writes_command (hc : codec.Conforms) (r : HttpRequest) :
    Writes (command codec r) (message r) := by
  have hrequest := writes_request hc r
  have hname := writes_str hc "request_init"
  have hone : (Head.array 1).Valid := by decide
  have htwo : (Head.array 2).Valid := by decide
  refine ⟨?_, ⟨htwo, hname.valid, ⟨hone, hrequest.valid, trivial⟩, trivial⟩,
    hname.stringKeys, ⟨hrequest.stringKeys, trivial⟩, trivial⟩
  rw [command, hc.write_eq _ hone, hc.write_eq _ htwo, hname.eq, hrequest.eq, message]
  simp [Obj.encode, encodeItems]

end DdAppsec.Extension
