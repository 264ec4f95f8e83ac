import DdAppsec.Extension.RequestShutdown

/-!
# Extension — the header addresses without cookies

Two exchanges that differ only in cookies, and what of them is sent under the
two header addresses that end in `no_cookies`. The request side leaves
`HTTP_COOKIE` out (`relevantHeaders_withoutCookie`); the response side writes
all headers, so that nothing is hidden unless the cookies are the same
(`cookies_hidden_iff`).
-/

namespace DdAppsec.Extension

open Lib Lib.MsgPack

def setCookie : Bytes := "set-cookie"

/-- A `Set-Cookie` header, in any spelling that is normalised to it. -/
def isSetCookie (header : Bytes) : Bool :=
  decide (colon ∈ header) && decide (headerName header = setCookie)

/-- What the two sides read of an exchange: `$_SERVER` and the headers of the
SAPI. -/
structure Exchange where
  server : Option HashTable
  headers : List Bytes

def withoutCookie (table : HashTable) : HashTable :=
  table.filter fun e => e.1 ≠ .str "HTTP_COOKIE"

def withoutSetCookie (headers : List Bytes) : List Bytes :=
  headers.filter fun h => !isSetCookie h

structure DifferOnlyInCookies (a b : Exchange) : Prop where
  server : a.server.map withoutCookie = b.server.map withoutCookie
  headers : withoutSetCookie a.headers = withoutSetCookie b.headers

/-- **No cookie is seen**: the same is sent of both exchanges. -/
structure CookiesHidden (a b : Exchange) : Prop where
  request : ∀ codec, packHeaders codec a.server = packHeaders codec b.server
  response : packHeadersNoCookies a.headers = packHeadersNoCookies b.headers

/-- The values of the `Set-Cookie` headers, as they are counted. -/
def writtenCookies (headers : List Bytes) : List Bytes :=
  (headers.filter isSetCookie).map fun h => countedStr (headerValue h)

/-- A header of this name comes before all `Set-Cookie` headers. -/
def BeforeCookies (headers : List Bytes) (name : Bytes) : Prop :=
  ∃ h ∈ namedHeaders (headers.takeWhile fun h => !isSetCookie h), headerName h = name

/-- What is written for a name looks like the cookies; it has 2^32 bytes, then. -/
def WrittenAsCookies (headers : List Bytes) (name : Bytes) : Prop :=
  countedStr name = setCookie ∧
    ((namedHeaders headers).filter fun h => headerName h = name).map
      (fun h => countedStr (headerValue h)) = writtenCookies headers

/-- The cookies are the same, and come at the same place among the names. -/
structure CookiesAlike (headers headers' : List Bytes) : Prop where
  values : writtenCookies headers = writtenCookies headers'
  places : ∀ name, (BeforeCookies headers name ↔ BeforeCookies headers' name) ∨
    WrittenAsCookies headers name

/-! ## The request -/

theorem relevantHeaders_withoutCookie (table : HashTable) :
    relevantHeaders (withoutCookie table) = relevantHeaders table := by
  induction table with
  | nil => rfl
  | cons e table ih =>
    unfold withoutCookie at ih ⊢
    by_cases hcookie : e.1 = .str "HTTP_COOKIE"
    · rw [List.filter_cons_of_neg (by simpa using hcookie), ih]
      have hnone : isRelevantHeader "HTTP_COOKIE" = false := by decide
      simp [relevantHeaders, hcookie, hnone]
    · rw [List.filter_cons_of_pos (by simpa using hcookie)]
      unfold relevantHeaders at ih ⊢
      rw [List.filterMap_cons, List.filterMap_cons, ih]

/-- **The request side hides its cookies.** -/
theorem packHeaders_of_differ {server server' : Option HashTable}
    (h : server.map withoutCookie = server'.map withoutCookie) (codec : Codec) :
    packHeaders codec server = packHeaders codec server' := by
  cases server with
  | none =>
    cases server' with
    | none => rfl
    | some table' => cases h
  | some table =>
    cases server' with
    | none => cases h
    | some table' =>
      have hsame := congrArg relevantHeaders (Option.some.inj h)
      rw [relevantHeaders_withoutCookie, relevantHeaders_withoutCookie] at hsame
      rw [packHeaders, packHeaders, hsame]

/-! ## The response -/

section Response

variable (headers : List Bytes)

theorem headerPair_cases (h : Bytes) :
    (colon ∉ h ∧ headerPair h = none ∧ isSetCookie h = false) ∨
    (headerPair h = some (headerName h, headerValue h) ∧
      isSetCookie h = decide (headerName h = setCookie)) := by
  by_cases hcolon : colon ∈ h
  · exact Or.inr ⟨if_pos hcolon, by simp [isSetCookie, hcolon]⟩
  · exact Or.inl ⟨hcolon, if_neg hcolon, by simp [isSetCookie, hcolon]⟩

theorem filterMap_withoutSetCookie :
    (withoutSetCookie headers).filterMap headerPair =
      withoutKey setCookie (headers.filterMap headerPair) := by
  induction headers with
  | nil => rfl
  | cons h headers ih =>
    unfold withoutSetCookie withoutKey at ih ⊢
    rcases headerPair_cases h with ⟨-, hpair, hset⟩ | ⟨hpair, hset⟩
    · simp [hpair, hset, ih]
    · by_cases hname : headerName h = setCookie
      · simp [hpair, hset, hname, ih]
      · simp [hpair, hset, hname, ih]

theorem filterMap_takeWhile :
    (headers.takeWhile fun h => !isSetCookie h).filterMap headerPair =
      (headers.filterMap headerPair).takeWhile fun pair => pair.1 ≠ setCookie := by
  induction headers with
  | nil => rfl
  | cons h headers ih =>
    rcases headerPair_cases h with ⟨-, hpair, hset⟩ | ⟨hpair, hset⟩
    · simp [hpair, hset, ih]
    · by_cases hname : headerName h = setCookie
      · simp [hpair, hset, hname]
      · simp [hpair, hset, hname, ih]

theorem beforeCookies_iff (name : Bytes) :
    BeforeCookies headers name ↔
      name ∈ keysBefore setCookie (headers.filterMap headerPair) := by
  rw [BeforeCookies, ← mem_headerNames, headerNames, filterMap_takeWhile, keysBefore]

theorem writtenCookies_eq :
    writtenCookies headers = (valuesUnder headers setCookie).map countedStr := by
  have hfilter : headers.filter isSetCookie =
      (namedHeaders headers).filter fun h => headerName h = setCookie := by
    rw [namedHeaders, List.filter_filter]
    exact List.filter_congr fun h _ => Bool.and_comm _ _
  rw [valuesUnder_eq, writtenCookies, List.map_map, hfilter]
  rfl

theorem writtenCookies_eq_nil_iff :
    writtenCookies headers = [] ↔ setCookie ∉ keysOf (headers.filterMap headerPair) := by
  rw [writtenCookies, List.map_eq_nil_iff, List.filter_eq_nil_iff, ← headerNames,
    mem_headerNames]
  simp [isSetCookie, namedHeaders]

end Response

theorem packHeader_eq_iff (name name' : Bytes) (values values' : List Bytes) :
    packHeader (name, values) = packHeader (name', values') ↔
      countedStr name = countedStr name' ∧ values.map countedStr = values'.map countedStr := by
  simp only [packHeader, PackedHeader.mk.injEq]
  constructor
  · rintro ⟨hname, -, hvalues⟩
    exact ⟨hname, hvalues⟩
  · rintro ⟨hname, hvalues⟩
    have hlength := congrArg List.length hvalues
    rw [List.length_map, List.length_map] at hlength
    exact ⟨hname, by rw [hlength], hvalues⟩

/-- The count that is announced follows from the entries. -/
theorem packHeadersNoCookies_eq_iff (headers headers' : List Bytes) :
    packHeadersNoCookies headers = packHeadersNoCookies headers' ↔
      (headersMap headers).map packHeader = (headersMap headers').map packHeader := by
  simp only [packHeadersNoCookies, PackedHeaders.mk.injEq, and_iff_right_iff_imp]
  intro hentries
  have hlength := congrArg List.length hentries
  rw [List.length_map, List.length_map] at hlength
  rw [hlength]

theorem countedStr_setCookie : countedStr setCookie = setCookie :=
  (countedStr_eq_iff _).mpr (by decide)

section Alike

variable {headers headers' : List Bytes}

/-- Another name is written like the cookies. -/
theorem writtenFor_eq_iff {name : Bytes} (hname : name ≠ setCookie) :
    writtenFor packHeader setCookie (headers.filterMap headerPair) name =
        packHeader (setCookie, valuesUnder headers setCookie) ↔
      WrittenAsCookies headers name := by
  rw [writtenFor, valuesOf_withoutKey hname, ← valuesUnder, packHeader_eq_iff,
    countedStr_setCookie, WrittenAsCookies, writtenCookies_eq, valuesUnder_eq, List.map_map]
  rfl

theorem places_iff :
    (∀ name, (name ∈ keysBefore setCookie (headers.filterMap headerPair) ↔
        name ∈ keysBefore setCookie (headers'.filterMap headerPair)) ∨
      writtenFor packHeader setCookie (headers.filterMap headerPair) name =
        packHeader (setCookie, valuesUnder headers setCookie)) ↔
      ∀ name, (BeforeCookies headers name ↔ BeforeCookies headers' name) ∨
        WrittenAsCookies headers name := by
  refine forall_congr' fun name => ?_
  rw [beforeCookies_iff, beforeCookies_iff]
  by_cases hname : name = setCookie
  · subst hname
    simp [not_mem_keysBefore]
  · rw [writtenFor_eq_iff hname]

/-- Cookies on one side only are seen. -/
theorem packed_ne_of_cookies (h : withoutSetCookie headers = withoutSetCookie headers')
    (hcookies : writtenCookies headers ≠ []) (hnone : writtenCookies headers' = []) :
    packHeadersNoCookies headers ≠ packHeadersNoCookies headers' := by
  have hrest := congrArg (List.filterMap headerPair) h
  rw [filterMap_withoutSetCookie, filterMap_withoutSetCookie] at hrest
  have hin := not_not.mp (mt (writtenCookies_eq_nil_iff headers).mpr hcookies)
  have hout := (writtenCookies_eq_nil_iff headers').mp hnone
  intro heq
  have hlength := congrArg List.length ((packHeadersNoCookies_eq_iff _ _).mp heq)
  rw [List.length_map, List.length_map, headersMap, headersMap, length_group_of_mem hin, hrest,
    withoutKey_of_not_mem hout] at hlength
  omega

/-- **What the response side hides.** -/
theorem packed_eq_iff_cookiesAlike (h : withoutSetCookie headers = withoutSetCookie headers') :
    packHeadersNoCookies headers = packHeadersNoCookies headers' ↔
      CookiesAlike headers headers' := by
  have hrest := congrArg (List.filterMap headerPair) h
  rw [filterMap_withoutSetCookie, filterMap_withoutSetCookie] at hrest
  by_cases hin : writtenCookies headers = []
  · by_cases hin' : writtenCookies headers' = []
    · -- no cookies at all: the headers that have a colon are the same
      rw [writtenCookies_eq_nil_iff] at hin hin'
      rw [withoutKey_of_not_mem hin, withoutKey_of_not_mem hin'] at hrest
      refine iff_of_true ?_ ⟨?_, fun name => Or.inl ?_⟩
      · rw [packHeadersNoCookies_eq_iff, headersMap, headersMap, hrest]
      · rw [writtenCookies_eq, writtenCookies_eq, valuesUnder, valuesUnder, hrest]
      · rw [beforeCookies_iff, beforeCookies_iff, hrest]
    · refine iff_of_false (packed_ne_of_cookies h.symm hin' hin).symm fun halike => hin' ?_
      rw [← halike.values, hin]
  · by_cases hin' : writtenCookies headers' = []
    · refine iff_of_false (packed_ne_of_cookies h hin hin') fun halike => hin ?_
      rw [halike.values, hin']
    · rw [packHeadersNoCookies_eq_iff, headersMap, headersMap,
        map_group_eq_iff_of_mem hrest (not_not.mp (mt (writtenCookies_eq_nil_iff _).mpr hin))
          (not_not.mp (mt (writtenCookies_eq_nil_iff _).mpr hin')),
        ← valuesUnder, ← valuesUnder, packHeader_eq_iff, ← writtenCookies_eq, ← writtenCookies_eq,
        places_iff]
      constructor
      · rintro ⟨⟨-, hvalues⟩, hplaces⟩
        exact ⟨hvalues, hplaces⟩
      · intro halike
        exact ⟨⟨rfl, halike.values⟩, halike.places⟩

end Alike

/-- **When cookies are hidden**: the request side always hides them, and the
response side only cookies that are the same. -/
theorem cookies_hidden_iff {a b : Exchange} (h : DifferOnlyInCookies a b) :
    CookiesHidden a b ↔ CookiesAlike a.headers b.headers := by
  have hresponse := packed_eq_iff_cookiesAlike h.headers
  exact ⟨fun hidden => hresponse.mp hidden.response,
    fun halike => ⟨packHeaders_of_differ h.server, hresponse.mpr halike⟩⟩

theorem cookie_header_hidden :
    CookiesHidden ⟨some [(.str "HTTP_COOKIE", .string "id=1")], ["Set-Cookie: seen=1"]⟩
      ⟨some [(.str "HTTP_COOKIE", .string "id=2")], ["Set-Cookie: seen=1"]⟩ := by
  refine (cookies_hidden_iff ?_).mpr ⟨rfl, fun _ => Or.inl Iff.rfl⟩
  exact ⟨by simp [withoutCookie], rfl⟩

/-- **A cookie that is set is sent**, under the address without cookies. -/
theorem set_cookie_sent :
    DifferOnlyInCookies ⟨none, ["Set-Cookie: id=1"]⟩ ⟨none, ["Set-Cookie: id=2"]⟩ ∧
    packHeadersNoCookies ["Set-Cookie: id=1"] = ⟨1, [⟨"set-cookie", 1, ["id=1"]⟩]⟩ ∧
    ¬ CookiesHidden ⟨none, ["Set-Cookie: id=1"]⟩ ⟨none, ["Set-Cookie: id=2"]⟩ := by
  have hpacked : packHeadersNoCookies ["Set-Cookie: id=1"] =
      ⟨1, [⟨"set-cookie", 1, ["id=1"]⟩]⟩ := by decide
  refine ⟨⟨rfl, by decide⟩, hpacked, fun hidden => ?_⟩
  have hsame := hidden.response.symm.trans hpacked
  revert hsame
  decide

end DdAppsec.Extension
