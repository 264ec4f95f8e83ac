import DdAppsec.Extension.HelperArgs
import DdAppsec.Extension.RequestInit
import DdAppsec.Lib.Groups

/-!
# Extension — the `request_shutdown` message

`packHeadersNoCookies` is `_pack_headers_no_cookies` as the calls of mpack
that it makes: headers of one name are collected, and each list is written
with its length announced before it. mpack takes all lengths as 32-bit
numbers (`countedStr`).

`headers_listed_iff` says when the map is the one that is meant: as long as
nothing in it has 2^32 items or bytes. Then the message is the encoding of
its object (`writes_requestShutdown`).
-/

namespace DdAppsec.Extension

open Lib Lib.MsgPack

def colon : UInt8 := 0x3a

/-! ## `_pack_headers_no_cookies` -/

/-- `dd_string_normalize_header2`. -/
def normalizeHeader (name : Bytes) : Bytes := name.map headerLcDash

/-- What is before the colon, normalised. -/
def headerName (header : Bytes) : Bytes := normalizeHeader (header.takeWhile (· ≠ colon))

/-- What is behind the colon, without the spaces in front. -/
def headerValue (header : Bytes) : Bytes :=
  ((header.dropWhile (· ≠ colon)).drop 1).dropWhile (· = space)

/-- The name and the value of a header; without a colon it is skipped. -/
def headerPair (header : Bytes) : Option (Bytes × Bytes) :=
  if colon ∈ header then some (headerName header, headerValue header) else none

/-- `headers_map`: the values of each name. -/
def headersMap (headers : List Bytes) : List (Bytes × List Bytes) :=
  group (headers.filterMap headerPair)

/-- The bytes that `mpack_write_str` writes, whose count is a `uint32_t`. -/
def countedStr (s : Bytes) : Bytes := s.take (s.length % 2 ^ 32)

/-- An entry of the map, and the length announced for its array. -/
structure PackedHeader where
  name : Bytes
  announced : Nat
  values : List Bytes
  deriving DecidableEq

/-- The map, and the length announced for it. -/
structure PackedHeaders where
  announced : Nat
  entries : List PackedHeader
  deriving DecidableEq

def packHeader (entry : Bytes × List Bytes) : PackedHeader :=
  ⟨countedStr entry.1, entry.2.length % 2 ^ 32, entry.2.map countedStr⟩

/-- `_pack_headers_no_cookies`. -/
def packHeadersNoCookies (headers : List Bytes) : PackedHeaders :=
  ⟨(headersMap headers).length % 2 ^ 32, (headersMap headers).map packHeader⟩

/-! ## The message -/

/-- What `_request_pack` reads: the status and the headers of the SAPI. -/
structure HttpResponse where
  responseCode : Int32
  headers : List Bytes

section Pack

variable (codec : Codec)

def PackedHeader.bytes (entry : PackedHeader) : Bytes :=
  writeStr codec entry.name ++
    (codec.write (.array entry.announced) ++ (entry.values.map (writeStr codec)).flatten)

def PackedHeaders.bytes (packed : PackedHeaders) : Bytes :=
  codec.write (.map packed.announced) ++ (packed.entries.map (PackedHeader.bytes codec)).flatten

/-- `_request_pack`. -/
def requestShutdownPack (r : HttpResponse) : Bytes :=
  codec.write (.map 2) ++
  (writeStr codec "server.response.status" ++ writeStr codec (intToString r.responseCode.toInt)) ++
  (writeStr codec "server.response.headers.no_cookies" ++
    (packHeadersNoCookies r.headers).bytes codec)

end Pack

/-! ## What is meant -/

/-- The headers that contain a colon. -/
def namedHeaders (headers : List Bytes) : List Bytes := headers.filter fun h => colon ∈ h

/-- The same letter, in either case, or a dash and an underscore. -/
def SameLetter (c d : UInt8) : Prop :=
  c = d ∨ (0x41 ≤ c ∧ c ≤ 0x5a ∧ d = c + 0x20) ∨ (0x41 ≤ d ∧ d ≤ 0x5a ∧ c = d + 0x20) ∨
    (c = 0x2d ∧ d = 0x5f) ∨ (c = 0x5f ∧ d = 0x2d)

/-- **The headers are listed**: one entry for each name, with the values of
its headers, and all lengths as announced. -/
structure HeadersListed (headers : List Bytes) (packed : PackedHeaders) : Prop where
  distinct : (packed.entries.map PackedHeader.name).Nodup
  names : ∀ name, name ∈ packed.entries.map PackedHeader.name ↔
    ∃ h ∈ namedHeaders headers, headerName h = name
  values : ∀ e ∈ packed.entries,
    e.values = ((namedHeaders headers).filter fun h => headerName h = e.name).map headerValue
  announced : packed.announced = packed.entries.length
  announcedEach : ∀ e ∈ packed.entries, e.announced = e.values.length
  unsplit : ∀ h ∈ namedHeaders headers, ∀ h' ∈ namedHeaders headers,
    List.Forall₂ SameLetter (h.takeWhile (· ≠ colon)) (h'.takeWhile (· ≠ colon)) →
    ∀ e ∈ packed.entries, ∀ e' ∈ packed.entries,
      e.name = headerName h → e'.name = headerName h' → e = e'

/-- Nothing has 2^32 items or bytes. -/
structure HeadersFit (headers : List Bytes) : Prop where
  names : ∀ h ∈ namedHeaders headers, (headerName h).length < 2 ^ 32
  values : ∀ h ∈ namedHeaders headers, (headerValue h).length < 2 ^ 32
  perName : ∀ name, ((namedHeaders headers).filter fun h => headerName h = name).length < 2 ^ 32
  distinct : ((namedHeaders headers).map headerName).dedup.length < 2 ^ 32

/-! ## Names -/

/-- The table maps two bytes to one exactly if they are the same letter. -/
theorem headerLcDash_eq_iff (c d : UInt8) : headerLcDash c = headerLcDash d ↔ SameLetter c d := by
  have hc := c.toNat_lt
  have hd := d.toNat_lt
  unfold headerLcDash SameLetter
  simp only [← UInt8.toNat_inj, UInt8.le_iff_toNat_le, apply_ite UInt8.toNat, UInt8.toNat_add,
    UInt8.reduceToNat]
  split_ifs <;> omega

theorem normalizeHeader_eq {name name' : Bytes} (h : List.Forall₂ SameLetter name name') :
    normalizeHeader name = normalizeHeader name' := by
  induction h with
  | nil => rfl
  | cons hletter _ ih =>
    rw [normalizeHeader, List.map_cons, (headerLcDash_eq_iff _ _).mpr hletter, ← normalizeHeader,
      ih]
    rfl

/-! ## Counts -/

theorem length_countedStr_lt (s : Bytes) : (countedStr s).length < 2 ^ 32 := by
  rw [countedStr, length_take_count]
  omega

theorem countedStr_eq_iff (s : Bytes) : countedStr s = s ↔ s.length < 2 ^ 32 := by
  constructor
  · intro h
    rw [← h]
    exact length_countedStr_lt s
  · intro h
    rw [countedStr, Nat.mod_eq_of_lt h, List.take_length]

theorem map_countedStr_eq_iff (values : List Bytes) :
    values.map countedStr = values ↔ ∀ v ∈ values, v.length < 2 ^ 32 := by
  have hmap := List.map_inj_left (l := values) (f := countedStr) (g := id)
  rw [List.map_id] at hmap
  simp only [hmap, id_eq, countedStr_eq_iff]

theorem mod_count_eq_iff (n : Nat) : n % 2 ^ 32 = n ↔ n < 2 ^ 32 := by omega

/-! ## The map -/

section Map

variable (headers : List Bytes)

/-- The names in the order in which they are first seen. -/
def headerNames : List Bytes := keysOf (headers.filterMap headerPair)

/-- The values under a name, in order. -/
def valuesUnder (name : Bytes) : List Bytes := valuesOf (headers.filterMap headerPair) name

theorem filterMap_headerPair :
    headers.filterMap headerPair =
      (namedHeaders headers).map fun h => (headerName h, headerValue h) := by
  induction headers with
  | nil => rfl
  | cons h headers ih =>
    rw [List.filterMap_cons, ih]
    unfold headerPair namedHeaders
    by_cases hcolon : colon ∈ h
    · rw [if_pos hcolon, List.filter_cons_of_pos (by simpa using hcolon), List.map_cons]
    · rw [if_neg hcolon, List.filter_cons_of_neg (by simpa using hcolon)]

theorem headersMap_eq :
    headersMap headers = (headerNames headers).map fun name => (name, valuesUnder headers name) :=
  group_eq _

theorem entries_eq :
    (packHeadersNoCookies headers).entries =
      (headerNames headers).map fun name => packHeader (name, valuesUnder headers name) := by
  rw [packHeadersNoCookies, headersMap_eq, List.map_map]
  rfl

theorem announced_eq :
    (packHeadersNoCookies headers).announced = (headerNames headers).length % 2 ^ 32 := by
  rw [packHeadersNoCookies, headersMap_eq, List.length_map]

theorem nodup_headerNames : (headerNames headers).Nodup := nodup_keysOf _

theorem mem_headerNames (name : Bytes) :
    name ∈ headerNames headers ↔ ∃ h ∈ namedHeaders headers, headerName h = name := by
  rw [headerNames, mem_keysOf, filterMap_headerPair, List.map_map, List.mem_map]
  rfl

theorem valuesUnder_eq (name : Bytes) :
    valuesUnder headers name =
      ((namedHeaders headers).filter fun h => headerName h = name).map headerValue := by
  rw [valuesUnder, valuesOf, filterMap_headerPair, List.filter_map, List.map_map]
  rfl

theorem length_headerNames :
    (headerNames headers).length = ((namedHeaders headers).map headerName).dedup.length := by
  apply List.Perm.length_eq
  rw [List.perm_ext_iff_of_nodup (nodup_headerNames headers) (List.nodup_dedup _)]
  intro name
  rw [mem_headerNames, List.mem_dedup, List.mem_map]

end Map

section Listed

variable {headers : List Bytes}

theorem HeadersFit.name_lt (h : HeadersFit headers) {name : Bytes}
    (hname : name ∈ headerNames headers) : name.length < 2 ^ 32 := by
  obtain ⟨header, hmem, rfl⟩ := (mem_headerNames headers name).mp hname
  exact h.names header hmem

/-- Where all counts fit, the entries are what was collected. -/
theorem HeadersFit.entries (h : HeadersFit headers) :
    (packHeadersNoCookies headers).entries = (headerNames headers).map fun name =>
      ⟨name, (valuesUnder headers name).length, valuesUnder headers name⟩ := by
  rw [entries_eq]
  refine List.map_congr_left fun name hname => ?_
  have hvalues : (valuesUnder headers name).map countedStr = valuesUnder headers name := by
    rw [map_countedStr_eq_iff, valuesUnder_eq]
    intro v hv
    obtain ⟨header, hheader, rfl⟩ := List.mem_map.mp hv
    exact h.values header (List.mem_filter.mp hheader).1
  have hcount : (valuesUnder headers name).length < 2 ^ 32 := by
    rw [valuesUnder_eq, List.length_map]
    exact h.perName name
  rw [packHeader, hvalues, Nat.mod_eq_of_lt hcount, (countedStr_eq_iff name).mpr (h.name_lt hname)]

theorem HeadersFit.listed (h : HeadersFit headers) :
    HeadersListed headers (packHeadersNoCookies headers) := by
  have hnames : (packHeadersNoCookies headers).entries.map PackedHeader.name =
      headerNames headers := by
    rw [h.entries, List.map_map]
    exact List.map_id _
  have hnodup := nodup_headerNames headers
  rw [← hnames] at hnodup
  refine ⟨hnodup, fun name => ?_, fun e he => ?_, ?_, fun e he => ?_, ?_⟩
  · rw [hnames, mem_headerNames]
  · rw [h.entries] at he
    obtain ⟨name, -, rfl⟩ := List.mem_map.mp he
    exact valuesUnder_eq headers name
  · have hdistinct := h.distinct
    rw [← length_headerNames] at hdistinct
    rw [announced_eq, h.entries, List.length_map, Nat.mod_eq_of_lt hdistinct]
  · rw [h.entries] at he
    obtain ⟨name, -, rfl⟩ := List.mem_map.mp he
    rfl
  · intro header _ header' _ hsame e he e' he' hname hname'
    have heq : e.name = e'.name := by
      rw [hname, hname']
      exact normalizeHeader_eq hsame
    exact List.inj_on_of_nodup_map hnodup he he' heq

/-- An entry that is written for a name. -/
theorem packHeader_mem {header : Bytes} (hheader : header ∈ namedHeaders headers) :
    packHeader (headerName header, valuesUnder headers (headerName header)) ∈
      (packHeadersNoCookies headers).entries := by
  rw [entries_eq]
  exact List.mem_map.mpr
    ⟨headerName header, (mem_headerNames headers _).mpr ⟨header, hheader, rfl⟩, rfl⟩

theorem HeadersListed.fit (h : HeadersListed headers (packHeadersNoCookies headers)) :
    HeadersFit headers := by
  have hnames : ∀ header ∈ namedHeaders headers, (headerName header).length < 2 ^ 32 := by
    intro header hheader
    obtain ⟨e, he, hname⟩ := List.mem_map.mp ((h.names _).mpr ⟨header, hheader, rfl⟩)
    rw [entries_eq] at he
    obtain ⟨name, -, rfl⟩ := List.mem_map.mp he
    rw [← hname]
    exact length_countedStr_lt name
  -- the values of a name are all there, and so none of them was cut
  have hvalues : ∀ header ∈ namedHeaders headers,
      (valuesUnder headers (headerName header)).map countedStr =
        valuesUnder headers (headerName header) := by
    intro header hheader
    have hlisted := h.values _ (packHeader_mem hheader)
    have hname : (packHeader (headerName header, valuesUnder headers (headerName header))).name =
        headerName header := (countedStr_eq_iff _).mpr (hnames header hheader)
    rw [hname, ← valuesUnder_eq] at hlisted
    exact hlisted
  refine ⟨hnames, fun header hheader => ?_, fun name => ?_, ?_⟩
  · refine (map_countedStr_eq_iff _).mp (hvalues header hheader) _ ?_
    rw [valuesUnder_eq]
    exact List.mem_map.mpr ⟨header, List.mem_filter.mpr ⟨hheader, by simp⟩, rfl⟩
  · cases hfilter : (namedHeaders headers).filter fun h => headerName h = name with
    | nil => decide
    | cons header rest =>
      have hheader := List.mem_cons_self (a := header) (l := rest)
      rw [← hfilter, List.mem_filter, decide_eq_true_eq] at hheader
      obtain ⟨hmem, rfl⟩ := hheader
      have hcount := h.announcedEach _ (packHeader_mem hmem)
      rw [packHeader, hvalues header hmem] at hcount
      rw [← hfilter, ← List.length_map headerValue, ← valuesUnder_eq]
      exact (mod_count_eq_iff _).mp hcount
  · rw [← length_headerNames]
    have hcount := h.announced
    rw [announced_eq, entries_eq, List.length_map] at hcount
    exact (mod_count_eq_iff _).mp hcount

/-- **When the headers are listed**: exactly if all counts fit 32 bits. -/
theorem headers_listed_iff :
    HeadersListed headers (packHeadersNoCookies headers) ↔ HeadersFit headers :=
  ⟨HeadersListed.fit, HeadersFit.listed⟩

end Listed

/-! ## The bytes -/

/-- The object that is meant: under each name the values of its headers. -/
def responseHeadersObj (headers : List Bytes) : Obj :=
  .map ((headerNames headers).map fun name =>
    (strObj name, .array ((valuesUnder headers name).map strObj)))

/-- The map of the message, in the order of the source. -/
def requestShutdownObj (r : HttpResponse) : Obj :=
  .map [(strObj "server.response.status", strObj (intToString r.responseCode.toInt)),
    (strObj "server.response.headers.no_cookies", responseHeadersObj r.headers)]

section Bytes

variable {codec : Codec} {headers : List Bytes}

theorem HeadersFit.perName_lt (h : HeadersFit headers) (name : Bytes) :
    (valuesUnder headers name).length < 2 ^ 32 := by
  rw [valuesUnder_eq, List.length_map]
  exact h.perName name

theorem HeadersFit.names_lt (h : HeadersFit headers) : (headerNames headers).length < 2 ^ 32 := by
  rw [length_headerNames]
  exact h.distinct

/-- Where all counts fit, the map and its arrays are built one item after the
other. -/
theorem HeadersFit.bytes (h : HeadersFit headers) :
    (packHeadersNoCookies headers).bytes codec =
      buildMap codec ((headerNames headers).map fun name =>
        (writeStr codec name,
          buildArray codec ((valuesUnder headers name).map (writeStr codec)))) := by
  rw [PackedHeaders.bytes, h.listed.announced, h.entries, buildMap, List.length_map,
    List.length_map, Nat.mod_eq_of_lt h.names_lt, List.map_map, List.map_map]
  congr 2
  refine List.map_congr_left fun name _ => ?_
  show writeStr codec name ++ _ = writeStr codec name ++ buildArray codec _
  rw [buildArray, List.length_map, Nat.mod_eq_of_lt (h.perName_lt name)]

theorem writes_responseHeaders (hc : codec.Conforms) (h : HeadersFit headers) :
    Writes ((packHeadersNoCookies headers).bytes codec) (responseHeadersObj headers) := by
  rw [h.bytes]
  refine writes_buildMap hc (fun name _ => ?_) h.names_lt
  exact writes_buildArray hc (fun v _ => writes_str hc v) (h.perName_lt name)

/-- **The message**: a status and the headers as they were listed. -/
theorem writes_requestShutdown (hc : codec.Conforms) {r : HttpResponse}
    (h : HeadersFit r.headers) :
    Writes (requestShutdownPack codec r) (requestShutdownObj r) := by
  have hstatus := writes_str hc (intToString r.responseCode.toInt)
  have hheaders := writes_responseHeaders hc h
  have hsize : (Head.map 2).Valid := by decide
  refine ⟨?_, ⟨hsize, ?_⟩, ?_⟩
  · rw [requestShutdownPack, hc.write_eq _ hsize, hstatus.eq, hheaders.eq]
    simp only [requestShutdownObj, Obj.encode, encodeEntries, writeStr_eq hc, List.append_assoc,
      List.append_nil, List.length_cons, List.length_nil]
  · exact ⟨strObj_valid _, hstatus.valid, strObj_valid _, hheaders.valid, trivial⟩
  · exact ⟨⟨_, rfl⟩, hstatus.stringKeys, ⟨_, rfl⟩, hheaders.stringKeys, trivial⟩

end Bytes

/-! ## Where a value is lost -/

/-- One header `x` whose value is `n` times the letter `a`. -/
def letterHeader (n : Nat) : Bytes := 0x78 :: colon :: List.replicate n 0x61

theorem headerPair_letterHeader (n : Nat) :
    headerPair (letterHeader n) = some ([0x78], List.replicate n 0x61) := by
  have hname : headerName (letterHeader n) = [0x78] := by
    simp [headerName, letterHeader, normalizeHeader, headerLcDash, colon]
  have hvalue : headerValue (letterHeader n) = List.replicate n 0x61 := by
    simp [headerValue, letterHeader, colon, space]
  rw [headerPair, if_pos (by simp [letterHeader]), hname, hvalue]

theorem entries_letterHeader (n : Nat) :
    (packHeadersNoCookies [letterHeader n]).entries =
      [⟨[0x78], 1, [countedStr (List.replicate n 0x61)]⟩] := by
  rw [packHeadersNoCookies, headersMap, List.filterMap_cons_some (headerPair_letterHeader n)]
  rfl

theorem not_headersFit_letterHeader {n : Nat} (hlarge : 2 ^ 32 ≤ n) :
    ¬ HeadersFit [letterHeader n] := by
  intro h
  have hvalue := h.values (letterHeader n) (by simp [namedHeaders, letterHeader])
  have hpair := headerPair_letterHeader n
  rw [headerPair, if_pos (by simp [letterHeader])] at hpair
  simp only [Option.some.injEq, Prod.mk.injEq] at hpair
  rw [hpair.2, List.length_replicate] at hvalue
  omega

/-- **The length wraps around**: a value of 4 GiB is written as an empty one. -/
theorem value_of_four_gigabytes_lost :
    (packHeadersNoCookies [letterHeader (2 ^ 32)]).entries = [⟨[0x78], 1, [[]]⟩] ∧
    ¬ HeadersListed [letterHeader (2 ^ 32)] (packHeadersNoCookies [letterHeader (2 ^ 32)]) := by
  refine ⟨?_, fun h => not_headersFit_letterHeader (Nat.le_refl (2 ^ 32)) h.fit⟩
  have hlost : countedStr (List.replicate (2 ^ 32) 0x61) = [] := by
    rw [countedStr, List.length_replicate, Nat.mod_self, List.take_zero]
  rw [entries_letterHeader, hlost]

end DdAppsec.Extension
