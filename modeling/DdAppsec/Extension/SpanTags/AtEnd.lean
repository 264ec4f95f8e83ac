import DdAppsec.Extension.SpanTags

/-!
# Extension — the root span at the end of a request

The tracer and the application write tags of their own before. `spanEntries` are
the tags that the extension would write, in its order, and `ddTagsAddTags_eq`
says that it writes them where there is nothing yet, and so does not take
anything back (`tags_kept`).

Of `$_SERVER` only a few entries and the headers on a list are looked at; what
is in the others makes no difference (`hidden_headers_unseen`).
-/

namespace DdAppsec.Extension

open Lib

/-! ## What is written where -/

/-- Entries that do not replace anything. -/
def Tags.addAll (tags : Tags) (entries : List (Bytes × Zval)) : Tags :=
  (writesWith false entries).foldl Write.apply tags

@[simp] theorem Tags.addAll_nil (tags : Tags) : tags.addAll [] = tags := rfl

theorem Tags.addAll_append (tags : Tags) (first second : List (Bytes × Zval)) :
    (tags.addAll first).addAll second = tags.addAll (first ++ second) :=
  foldl_writesWith_append false tags first second

theorem Tags.addAll_cons (tags : Tags) (key : Bytes) (value : Zval)
    (entries : List (Bytes × Zval)) :
    tags.addAll ((key, value) :: entries) = Tags.addAll (tags.insertIfNew key value) entries :=
  rfl

/-- What is there stays; else the first entry of a name counts. -/
theorem Tags.getElem?_addAll (tags : Tags) (entries : List (Bytes × Zval)) (key : Bytes) :
    (tags.addAll entries)[key]? = tags[key]?.or (firstValue key entries) := by
  rw [addAll, getElem?_foldl_apply, overriding_writesWith, yielding_writesWith, if_neg (by decide),
    if_neg (by decide)]
  rfl

/-- A name that no entry has. -/
theorem Tags.getElem?_addAll_other (tags : Tags) {entries : List (Bytes × Zval)} {key : Bytes}
    (h : ∀ e ∈ entries, e.1 ≠ key) : (tags.addAll entries)[key]? = tags[key]? := by
  rw [getElem?_addAll, firstValue_eq_none h, Option.or_none]

def entryFor (name : Bytes) (value : Option Bytes) : List (Bytes × Zval) :=
  value.toList.map fun v => (name, .string v)

theorem mem_entryFor {name : Bytes} {value : Option Bytes} {e : Bytes × Zval}
    (h : e ∈ entryFor name value) : e.1 = name := by
  obtain ⟨v, -, rfl⟩ := List.mem_map.mp h
  rfl

theorem addMissing_eq (name : Bytes) (value : Option Bytes) (tags : Tags) :
    addMissing name value tags = tags.addAll (entryFor name value) := by
  cases value with
  | none => simp [addMissing, entryFor]
  | some v =>
    rw [addMissing]
    split
    · next hsome =>
      refine StringMap.ext fun key => ?_
      rw [Tags.getElem?_addAll]
      by_cases hkey : key = name
      · obtain ⟨z, hz⟩ := Option.isSome_iff_exists.mp hsome
        simp [hkey, hz]
      · rw [firstValue_eq_none fun e he => (mem_entryFor he).symm ▸ fun h => hkey h.symm,
          Option.or_none]
    · rfl

/-! ## The entries -/

def requestHeaderEntries (relevant : List Bytes) (server : HashTable) : List (Bytes × Zval) :=
  ((server.filterMap serverHeader).filter fun h => h.1 ∈ relevant).map fun h =>
    (prefixTagRequestHeader ++ h.1, .string h.2)

theorem ddRequestHeaders_eq (relevant : List Bytes) (server : HashTable) (tags : Tags) :
    ddRequestHeaders relevant server tags = tags.addAll (requestHeaderEntries relevant server) := by
  induction server generalizing tags with
  | nil => rfl
  | cons e server ih =>
    rw [ddRequestHeaders, List.foldl_cons, ← ddRequestHeaders, ih]
    cases he : serverHeader e with
    | none => simp [requestHeaderEntries, he]
    | some h =>
      by_cases hname : h.1 ∈ relevant
      · simp [requestHeaderEntries, he, hname, Tags.addAll_cons]
      · simp [requestHeaderEntries, he, hname]

def responseHeaderEntries (headers : List Bytes) : List (Bytes × Zval) :=
  (headers.filterMap responseHeaderTag).map fun h => (h.1, .string h.2)

theorem ddResponseHeaders_eq (env : TagEnv) (tags : Tags) :
    ddResponseHeaders env tags = tags.addAll (responseHeaderEntries env.responseHeaders) := by
  unfold ddResponseHeaders
  induction env.responseHeaders generalizing tags with
  | nil => rfl
  | cons header headers ih =>
    rw [List.foldl_cons, ih]
    cases hheader : responseHeaderTag header with
    | none => simp [responseHeaderEntries, hheader]
    | some h => simp [responseHeaderEntries, hheader, Tags.addAll_cons]

/-- `http.client_ip`, unless there is the tag of the tracer. -/
def clientIpEntry (env : TagEnv) (tags : Tags) : List (Bytes × Zval) :=
  if tags[multipleIpHeaders]?.isSome then [] else entryFor tagHttpClientIp env.clientIp

theorem ddHttpClientIp_eq (env : TagEnv) (tags : Tags) :
    ddHttpClientIp env tags = tags.addAll (clientIpEntry env tags) := by
  have hmissing := addMissing_eq tagHttpClientIp env.clientIp tags
  unfold addMissing at hmissing
  rw [ddHttpClientIp, clientIpEntry]
  by_cases hmultiple : tags[multipleIpHeaders]?.isSome = true
  · rw [if_pos (Or.inr hmultiple), if_pos hmultiple, Tags.addAll_nil]
  · rw [if_neg hmultiple, ← hmissing]
    exact if_congr (or_iff_left hmultiple) rfl rfl

def basicTagEntries (env : TagEnv) (tags : Tags) : List (Bytes × Zval) :=
  match env.server with
  | none => []
  | some server => clientIpEntry env tags ++ requestHeaderEntries relevantIpHeaders server

theorem addBasicTagsToMeta_eq (env : TagEnv) (tags : Tags) :
    addBasicTagsToMeta env tags = tags.addAll (basicTagEntries env tags) := by
  unfold addBasicTagsToMeta basicTagEntries
  cases env.server with
  | none => rfl
  | some server => simp only [ddHttpClientIp_eq, ddRequestHeaders_eq, Tags.addAll_append]

def requestTagEntries (env : TagEnv) (server : HashTable) : List (Bytes × Zval) :=
  entryFor tagHttpMethod env.requestMethod ++ entryFor tagHttpUrl (httpUrl env server) ++
    entryFor tagHttpUserAgent (getStringElem (some server) "HTTP_USER_AGENT") ++
    entryFor tagHttpStatusCode
      (if env.responseCode = 0 then none else some (intToString env.responseCode)) ++
    entryFor tagNetworkClientIp (getStringElem (some server) "REMOTE_ADDR") ++
    requestHeaderEntries (relevantHeaderNames env.extraHeaders) server

def stateTagEntries (t : TagState) : List (Bytes × Zval) :=
  entryFor tagUserId t.eventUserId ++
    if t.blocked then [(tagBlocked, .string "true")] else []

def allTagEntries (env : TagEnv) (t : TagState) (tags : Tags) : List (Bytes × Zval) :=
  match env.server with
  | none => []
  | some server =>
    requestTagEntries env server ++ clientIpEntry env tags ++
      responseHeaderEntries env.responseHeaders ++ stateTagEntries t

section Names

variable {env : TagEnv} {e : Bytes × Zval}

theorem mem_requestHeaderEntries {relevant : List Bytes} {server : HashTable}
    (h : e ∈ requestHeaderEntries relevant server) :
    ∃ name ∈ relevant, e.1 = prefixTagRequestHeader ++ name := by
  obtain ⟨header, hheader, rfl⟩ := List.mem_map.mp h
  exact ⟨header.1, by simpa using (List.mem_filter.mp hheader).2, rfl⟩

theorem mem_of_ite {c : Prop} [Decidable c] {tag tag' : Bytes} {tags : List Bytes}
    {other : Option Bytes} (hmem : tag ∈ tags) (hother : other = some tag' → tag' ∈ tags)
    (h : (if c then some tag else other) = some tag') : tag' ∈ tags := by
  by_cases hc : c
  · rw [if_pos hc] at h
    cases h
    exact hmem
  · rw [if_neg hc] at h
    exact hother h

theorem isRelevantRespHeader_mem {name tag : Bytes} (h : isRelevantRespHeader name = some tag) :
    tag ∈ responseHeaderTags := by
  unfold isRelevantRespHeader at h
  by_cases hcontent : lowerCase (name.take 8) = "content-"
  · rw [if_pos hcontent] at h
    refine mem_of_ite (by decide) (mem_of_ite (by decide) (mem_of_ite (by decide)
      (mem_of_ite (by decide) ?_))) h
    exact fun hnone => by cases hnone
  · rw [if_neg hcontent] at h
    cases h

theorem mem_responseHeaderEntries {headers : List Bytes}
    (h : e ∈ responseHeaderEntries headers) : e.1 ∈ responseHeaderTags := by
  obtain ⟨⟨tag, val⟩, htag, rfl⟩ := List.mem_map.mp h
  obtain ⟨header, -, hheader⟩ := List.mem_filterMap.mp htag
  unfold responseHeaderTag at hheader
  split_ifs at hheader
  obtain ⟨tag', htag', heq⟩ := Option.map_eq_some_iff.mp hheader
  cases heq
  exact isRelevantRespHeader_mem htag'

theorem mem_requestTagEntries {server : HashTable} (h : e ∈ requestTagEntries env server) :
    e.1 ∈ [tagHttpMethod, tagHttpUrl, tagHttpUserAgent, tagHttpStatusCode, tagNetworkClientIp] ∨
      ∃ name, e.1 = prefixTagRequestHeader ++ name := by
  simp only [requestTagEntries, List.mem_append] at h
  rcases h with ((((h | h) | h) | h) | h) | h
  · simp [mem_entryFor h]
  · simp [mem_entryFor h]
  · simp [mem_entryFor h]
  · simp [mem_entryFor h]
  · simp [mem_entryFor h]
  · obtain ⟨name, -, hname⟩ := mem_requestHeaderEntries h
    exact Or.inr ⟨name, hname⟩

/-- A name that is not one of a request header, by a byte in which they
differ. -/
theorem prefixTag_ne {key : Bytes} (h : key.take 21 ≠ prefixTagRequestHeader) (name : Bytes) :
    prefixTagRequestHeader ++ name ≠ key := by
  rintro rfl
  exact h (@List.take_left _ prefixTagRequestHeader name)

end Names

theorem addAllTagsToMeta_eq (env : TagEnv) (t : TagState) (tags : Tags) :
    addAllTagsToMeta env t tags = tags.addAll (allTagEntries env t tags) := by
  unfold addAllTagsToMeta allTagEntries
  cases env.server with
  | none => rfl
  | some server =>
    have hmultiple : ∀ e ∈ requestTagEntries env server, e.1 ≠ multipleIpHeaders := by
      intro e he
      rcases mem_requestTagEntries he with h | ⟨name, h⟩
      · rintro heq
        rw [heq] at h
        exact absurd h (by decide)
      · rw [h]
        exact prefixTag_ne (by decide) name
    have hclient : clientIpEntry env (tags.addAll (requestTagEntries env server)) =
        clientIpEntry env tags := by
      rw [clientIpEntry, Tags.getElem?_addAll_other tags hmultiple, clientIpEntry]
    have huser (tags : Tags) : ddAppsecBlocked t (ddEventUserId t tags) =
        tags.addAll (stateTagEntries t) := by
      unfold ddAppsecBlocked ddEventUserId stateTagEntries
      cases t.eventUserId <;> cases t.blocked <;> rfl
    have hrequest : ddRequestHeaders (relevantHeaderNames env.extraHeaders) server
        (ddHttpNetworkClientIp server (ddHttpStatusCode env (ddHttpUserAgent server
          (ddHttpUrl env server (ddHttpMethod env tags))))) =
        tags.addAll (requestTagEntries env server) := by
      simp only [ddHttpMethod, ddHttpUrl, ddHttpUserAgent, ddHttpStatusCode,
        ddHttpNetworkClientIp, addMissing_eq, ddRequestHeaders_eq, Tags.addAll_append,
        requestTagEntries]
    dsimp only
    rw [huser, hrequest, ddHttpClientIp_eq, hclient, ddResponseHeaders_eq]
    simp only [Tags.addAll_append]

/-! ## All tags -/

/-- What is written to `meta`, in this order. -/
def spanEntries (env : TagEnv) (t : TagState) (tags : Tags) : List (Bytes × Zval) :=
  (tagRuntimeFamily, .string "php") ::
    if t.appsecJsonFrags = [] then basicTagEntries env tags
    else (tagData, .string (triggersDocument t.appsecJsonFrags)) ::
      if tags[tagData]?.isSome then []
      else (tagEvent, .string "true") ::
        if tags[tagEvent]?.isSome then [] else allTagEntries env t tags

section AddTag

variable {tags : Tags} {tag : Bytes} (value : Zval) (metrics : Option Tags) (keep : Bool)

theorem addTag_of_none (h : tags[tag]? = none) :
    (⟨some tags, metrics, keep⟩ : RootSpan).addTag tag value =
      (true, ⟨some (tags.addAll [(tag, value)]), metrics, keep⟩) := by
  simp only [RootSpan.addTag, h]
  simp [Tags.addAll_cons, StringMap.insertIfNew_of_none h]

theorem addTag_of_some (h : tags[tag]?.isSome = true) :
    (⟨some tags, metrics, keep⟩ : RootSpan).addTag tag value =
      (false, ⟨some (tags.addAll [(tag, value)]), metrics, keep⟩) := by
  have hsame : tags.addAll [(tag, value)] = tags := by
    refine StringMap.ext fun key => ?_
    rw [Tags.getElem?_addAll, firstValue_cons]
    by_cases hkey : tag = key
    · obtain ⟨z, hz⟩ := Option.isSome_iff_exists.mp h
      rw [← hkey, hz, Option.some_or]
    · rw [if_neg hkey]
      exact Option.or_none
  simp only [RootSpan.addTag, h, hsame, if_true]

/-- Whether or not it is there already. -/
theorem addTag_snd (r : RootSpan) (tag : Bytes) :
    (r.addTag tag value).2 =
      { r with metaTags := r.metaTags.map fun tags => tags.addAll [(tag, value)] } := by
  obtain ⟨metaTags, metrics, keep⟩ := r
  cases metaTags with
  | none => rfl
  | some tags =>
    cases htag : tags[tag]? with
    | none => rw [addTag_of_none value metrics keep htag, Option.map_some]
    | some z =>
      rw [addTag_of_some value metrics keep (by rw [htag]; rfl), Option.map_some]

end AddTag

/-- The names of the tags before those about the request. -/
theorem getElem?_addAll_early (tags : Tags) {early : List (Bytes × Zval)} {key : Bytes}
    (h : key ∉ early.map Prod.fst) : (tags.addAll early)[key]? = tags[key]? :=
  tags.getElem?_addAll_other fun _ he heq => h (heq ▸ List.mem_map_of_mem he)

/-- Of what is there, only the tag of the tracer makes a difference. -/
theorem basicTagEntries_congr (env : TagEnv) {tags tags' : Tags}
    (h : tags'[multipleIpHeaders]? = tags[multipleIpHeaders]?) :
    basicTagEntries env tags' = basicTagEntries env tags := by
  rw [basicTagEntries, basicTagEntries]
  simp only [clientIpEntry, h]

theorem allTagEntries_congr (env : TagEnv) (t : TagState) {tags tags' : Tags}
    (h : tags'[multipleIpHeaders]? = tags[multipleIpHeaders]?) :
    allTagEntries env t tags' = allTagEntries env t tags := by
  rw [allTagEntries, allTagEntries]
  simp only [clientIpEntry, h]

/-- What follows the runtime family. -/
theorem addTriggers_eq (env : TagEnv) (t : TagState) (tags : Tags) (metrics : Option Tags)
    (keep : Bool) :
    (⟨some tags, metrics, keep⟩ : RootSpan).addTriggers env t =
      ⟨some (tags.addAll ((tagData, .string (triggersDocument t.appsecJsonFrags)) ::
        if tags[tagData]?.isSome then []
        else (tagEvent, .string "true") ::
          if tags[tagEvent]?.isSome then [] else allTagEntries env t tags)), metrics, keep⟩ := by
  rw [RootSpan.addTriggers, concatenated_eq]
  cases hdata : tags[tagData]? with
  | some z => rw [addTag_of_some _ _ _ (by rw [hdata]; rfl), Option.isSome_some, if_pos rfl]
  | none =>
    have hearly (early : List (Bytes × Zval)) (key : Bytes) (h : key ∉ early.map Prod.fst) :=
      getElem?_addAll_early tags h
    have hevent := hearly [(tagData, .string (triggersDocument t.appsecJsonFrags))] tagEvent
      (by simp; decide)
    rw [addTag_of_none _ _ _ hdata, Option.isSome_none, if_neg (by decide)]
    dsimp only
    cases htrue : tags[tagEvent]? with
    | some z =>
      rw [addTag_of_some _ _ _ (by rw [hevent, htrue]; rfl), Option.isSome_some, if_pos rfl]
      rfl
    | none =>
      have hmultiple := hearly [(tagData, .string (triggersDocument t.appsecJsonFrags)),
        (tagEvent, .string "true")] multipleIpHeaders (by simp; decide)
      rw [addTag_of_none _ _ _ (by rw [hevent, htrue]), Option.isSome_none, if_neg (by decide)]
      dsimp only
      rw [RootSpan.addAllAncillaryTags, Option.map_some, Tags.addAll_append,
        addAllTagsToMeta_eq]
      simp only [List.cons_append, List.nil_append, allTagEntries_congr env t hmultiple,
        Tags.addAll_append]

/-- What `dd_tags_add_tags` does, for any span. -/
theorem ddTagsAddTags_eq (env : TagEnv) (t : TagState) (r : RootSpan) :
    ddTagsAddTags env t r =
      ⟨r.metaTags.map fun tags => tags.addAll (spanEntries env t tags),
        r.metrics.map (setAppsecEnabled env), r.userKeep || t.forceKeep⟩ := by
  obtain ⟨metaTags, metrics, userKeep⟩ := r
  have hkeep (m metrics : Option Tags) (keep : Bool) :
      (if t.forceKeep then (⟨m, metrics, true⟩ : RootSpan) else ⟨m, metrics, keep⟩) =
        ⟨m, metrics, keep || t.forceKeep⟩ := by
    cases t.forceKeep <;> simp
  have hfamily (r : RootSpan) : (r.addTagStr tagRuntimeFamily "php").2 =
      { r with metaTags := r.metaTags.map fun tags =>
        tags.addAll [(tagRuntimeFamily, .string "php")] } := by
    rw [RootSpan.addTagStr, if_neg (by decide), addTag_snd]
  unfold ddTagsAddTags
  simp only [hfamily, hkeep]
  cases metaTags with
  | none =>
    split
    · rfl
    · rfl
  | some tags =>
    have hother (key : Bytes) (h : key ≠ tagRuntimeFamily) :
        (tags.addAll [(tagRuntimeFamily, .string "php")])[key]? = tags[key]? :=
      getElem?_addAll_early tags (by simpa using h)
    have hmultiple := hother multipleIpHeaders (by decide)
    simp only [Option.map_some]
    split
    · next hfrags =>
      simp only [RootSpan.addBasicAncillaryTags, Option.map_some, addBasicTagsToMeta_eq,
        basicTagEntries_congr env hmultiple, Tags.addAll_append, spanEntries, if_pos hfrags]
      rfl
    · next hfrags =>
      rw [addTriggers_eq env t, hother tagData (by decide), hother tagEvent (by decide),
        allTagEntries_congr env t hmultiple, Tags.addAll_append, spanEntries, if_neg hfrags]
      rfl

/-- **Whoever writes a tag first has it**: a tag of the tracer or of the
application stays, and of the extension's own the first of a name counts. -/
theorem span_tag_at_end (env : TagEnv) (t : TagState) (tags : Tags) (metrics : Option Tags)
    (keep : Bool) (key : Bytes) :
    ∃ tags' : Tags, (ddTagsAddTags env t ⟨some tags, metrics, keep⟩).metaTags = some tags' ∧
      tags'[key]? = tags[key]?.or (firstValue key (spanEntries env t tags)) := by
  rw [ddTagsAddTags_eq]
  exact ⟨_, rfl, Tags.getElem?_addAll ..⟩

/-- Nothing is taken back: a tag or a metric keeps its value, a tracer that
shows either shows it still, and so it is with the sampling decision. -/
structure RootSpan.Kept (r r' : RootSpan) : Prop where
  tags : ∀ m ∈ r.metaTags, ∃ m' ∈ r'.metaTags,
    ∀ (k : Bytes) (v : Zval), m[k]? = some v → m'[k]? = some v
  metrics : ∀ m ∈ r.metrics, ∃ m' ∈ r'.metrics,
    ∀ (k : Bytes) (v : Zval), m[k]? = some v → m'[k]? = some v
  keep : r.userKeep = true → r'.userKeep = true

/-- **Nothing is taken back**, whatever is written. -/
theorem tags_kept (env : TagEnv) (t : TagState) (r : RootSpan) :
    r.Kept (ddTagsAddTags env t r) := by
  rw [ddTagsAddTags_eq]
  refine ⟨fun m hm => ⟨_, Option.mem_map_of_mem _ hm, fun k v hv => ?_⟩,
    fun m hm => ⟨_, Option.mem_map_of_mem _ hm, fun k v hv => ?_⟩, fun h => ?_⟩
  · rw [Tags.getElem?_addAll, hv, Option.some_or]
  · rw [setAppsecEnabled, StringMap.getElem?_insertIfNew, hv, if_neg]
    rintro ⟨rfl, hnone⟩
    rw [hnone] at hv
    cases hv
  · simp [h]

/-- The names under which there can be something new about the request. -/
theorem mem_allTagEntries {env : TagEnv} {t : TagState} {tags : Tags} {e : Bytes × Zval}
    (h : e ∈ allTagEntries env t tags) :
    e.1 ∈ [tagHttpMethod, tagHttpUrl, tagHttpUserAgent, tagHttpStatusCode, tagNetworkClientIp,
        tagHttpClientIp, tagUserId] ∨
      e.1 ∈ responseHeaderTags ∨ (∃ name, e.1 = prefixTagRequestHeader ++ name) ∨
      (t.blocked = true ∧ e.1 = tagBlocked) := by
  unfold allTagEntries at h
  cases hserver : env.server with
  | none => simp [hserver] at h
  | some server =>
    simp only [hserver, List.mem_append, stateTagEntries] at h
    rcases h with ((h | h) | h) | h | h
    · rcases mem_requestTagEntries h with h | h
      · exact Or.inl (List.mem_append_left [tagHttpClientIp, tagUserId] h)
      · exact Or.inr (Or.inr (Or.inl h))
    · unfold clientIpEntry at h
      split at h
      · cases h
      · simp [mem_entryFor h]
    · exact Or.inr (Or.inl (mem_responseHeaderEntries h))
    · simp [mem_entryFor h]
    · split at h
      · next hblocked => simp_all
      · cases h

/-- The entry for a blocked request comes last, and no other has its name. -/
theorem firstValue_blocked (env : TagEnv) (t : TagState) (tags : Tags) :
    firstValue tagBlocked (allTagEntries env t tags) =
      if t.blocked ∧ env.server.isSome then some (.string "true") else none := by
  by_cases hblocked : t.blocked = true
  · have hunblocked : firstValue tagBlocked
        (allTagEntries env { t with blocked := false } tags) = none := by
      refine firstValue_eq_none fun e he heq => ?_
      rcases mem_allTagEntries he with h | h | ⟨name, h⟩ | ⟨h, -⟩
      · exact absurd (heq ▸ h) (by decide)
      · exact absurd (heq ▸ h) (by decide)
      · exact prefixTag_ne (by decide) name (h.symm.trans heq)
      · cases h
    cases hserver : env.server with
    | none => simp [allTagEntries, hserver, firstValue]
    | some server =>
      have hsplit : allTagEntries env t tags =
          allTagEntries env { t with blocked := false } tags ++
            [(tagBlocked, .string "true")] := by
        simp [allTagEntries, hserver, stateTagEntries, hblocked]
      rw [hsplit, firstValue_append, hunblocked, hblocked]
      rfl
  · rw [if_neg fun h => hblocked h.1]
    refine firstValue_eq_none fun e he heq => ?_
    rcases mem_allTagEntries he with h | h | ⟨name, h⟩ | ⟨h, -⟩
    · exact absurd (heq ▸ h) (by decide)
    · exact absurd (heq ▸ h) (by decide)
    · exact prefixTag_ne (by decide) name (h.symm.trans heq)
    · exact hblocked h

theorem firstValue_basic (env : TagEnv) (tags : Tags) {key : Bytes} (hip : tagHttpClientIp ≠ key)
    (hheader : key.take 21 ≠ prefixTagRequestHeader) :
    firstValue key (basicTagEntries env tags) = none := by
  refine firstValue_eq_none fun e he heq => ?_
  unfold basicTagEntries at he
  cases hserver : env.server with
  | none => simp [hserver] at he
  | some server =>
    simp only [hserver, List.mem_append] at he
    rcases he with he | he
    · unfold clientIpEntry at he
      split at he
      · cases he
      · exact hip ((mem_entryFor he).symm.trans heq)
    · obtain ⟨name, -, hname⟩ := mem_requestHeaderEntries he
      exact prefixTag_ne hheader name (hname.symm.trans heq)

/-- The helper said so, there are triggers to report, nobody else wrote the tags
of the report, and there is a `$_SERVER`. -/
def TaggedBlocked (env : TagEnv) (t : TagState) (tags : Tags) : Prop :=
  t.blocked ∧ t.appsecJsonFrags ≠ [] ∧ ¬ tags[tagData]?.isSome ∧ ¬ tags[tagEvent]?.isSome ∧
    env.server.isSome

instance (env : TagEnv) (t : TagState) (tags : Tags) : Decidable (TaggedBlocked env t tags) :=
  inferInstanceAs (Decidable (_ ∧ _))

/-- **When a request is tagged as blocked**, if the tracer has not done it. -/
theorem blocked_tag_at_end (env : TagEnv) (t : TagState) {tags : Tags} (metrics : Option Tags)
    (keep : Bool) (hnew : tags[tagBlocked]? = none) :
    ∃ tags' : Tags, (ddTagsAddTags env t ⟨some tags, metrics, keep⟩).metaTags = some tags' ∧
      tags'[tagBlocked]? =
        if TaggedBlocked env t tags then some (.string "true") else none := by
  rw [ddTagsAddTags_eq]
  refine ⟨_, rfl, ?_⟩
  have hfamily : tagRuntimeFamily ≠ tagBlocked := by decide
  have hdata : tagData ≠ tagBlocked := by decide
  have hevent : tagEvent ≠ tagBlocked := by decide
  rw [Tags.getElem?_addAll, hnew, Option.none_or, spanEntries, firstValue_cons, if_neg hfamily]
  split
  · next hfrags =>
    rw [firstValue_basic env tags (by decide) (by decide),
      if_neg fun h : TaggedBlocked env t tags => h.2.1 hfrags]
  · next hfrags =>
    rw [firstValue_cons, if_neg hdata]
    split
    · next h => exact (if_neg fun hb : TaggedBlocked env t tags => hb.2.2.1 h).symm
    · next hnodata =>
      rw [firstValue_cons, if_neg hevent]
      split
      · next h => exact (if_neg fun hb : TaggedBlocked env t tags => hb.2.2.2.1 h).symm
      · next hnoevent =>
        rw [firstValue_blocked]
        refine if_congr ?_ rfl rfl
        exact ⟨fun h => ⟨h.1, hfrags, hnodata, hnoevent, h.2⟩, fun h => ⟨h.1, h.2.2.2.2⟩⟩

/-- The end of a request that was answered with a 403. -/
def blockedRequestEnv : TagEnv where
  requestMethod := some "GET"
  requestUri := some "/login"
  responseCode := 403
  responseHeaders := ["Content-type: text/html"]
  server := some [(.str "HTTP_HOST", .string "web")]
  clientIp := none
  extraHeaders := []
  enabled := true

theorem blocked_tag_needs_report :
    (∃ tags' : Tags, (ddTagsAddTags blockedRequestEnv ⟨["\x7b\x7d"], none, true, false⟩
        ⟨some ∅, none, false⟩).metaTags = some tags' ∧
      tags'[tagBlocked]? = some (.string "true")) ∧
    ∃ tags' : Tags, (ddTagsAddTags blockedRequestEnv ⟨[], none, true, false⟩
        ⟨some ∅, none, false⟩).metaTags = some tags' ∧ tags'[tagBlocked]? = none := by
  have hreport := @blocked_tag_at_end blockedRequestEnv ⟨["\x7b\x7d"], none, true, false⟩ ∅ none
    false rfl
  have hsilent := @blocked_tag_at_end blockedRequestEnv ⟨[], none, true, false⟩ ∅ none false rfl
  rw [if_pos (by decide)] at hreport
  rw [if_neg (by decide)] at hsilent
  exact ⟨hreport, hsilent⟩

/-! ## What is looked at -/

/-- The entries of `$_SERVER` that are looked at by name. -/
def serverKeys : List Bytes :=
  ["REQUEST_URI", "HTTP_HOST", "SERVER_NAME", "HTTPS", "HTTP_USER_AGENT", "REMOTE_ADDR"]

/-- An entry of one of these names, or a header on the list. -/
def looksAt (extraHeaders : List Bytes) (e : Key × Zval) : Bool :=
  (serverKeys.any fun name => e.1 = .str name) ||
    (serverHeader e).any fun h => h.1 ∈ relevantHeaderNames extraHeaders

section LooksAt

variable {extraHeaders : List Bytes} {server : HashTable}

theorem find_looksAt {name : Bytes} (h : name ∈ serverKeys) :
    HashTable.find (server.filter (looksAt extraHeaders)) name = server.find name := by
  rw [HashTable.find, HashTable.find, List.find?_filter]
  congr 2
  funext e
  by_cases he : e.1 = .str name
  · have hlook : looksAt extraHeaders e = true := by
      rw [looksAt, Bool.or_eq_true]
      exact Or.inl (List.any_eq_true.mpr ⟨name, h, by simpa using he⟩)
    simp [hlook, he]
  · simp [he]

theorem getStringElem_looksAt {name : Bytes} (h : name ∈ serverKeys) :
    getStringElem (some (server.filter (looksAt extraHeaders))) name =
      getStringElem (some server) name := by
  rw [getStringElem, getStringElem, Option.bind_some, Option.bind_some, find_looksAt h]

theorem requestHeaderEntries_looksAt {relevant : List Bytes}
    (h : ∀ name ∈ relevant, name ∈ relevantHeaderNames extraHeaders) :
    requestHeaderEntries relevant (server.filter (looksAt extraHeaders)) =
      requestHeaderEntries relevant server := by
  unfold requestHeaderEntries
  congr 1
  induction server with
  | nil => rfl
  | cons e server ih =>
    cases hlook : looksAt extraHeaders e with
    | true =>
      rw [List.filter_cons_of_pos hlook, List.filterMap_cons, List.filterMap_cons]
      cases serverHeader e with
      | none => exact ih
      | some header => rw [List.filter_cons, List.filter_cons, ih]
    | false =>
      rw [List.filter_cons_of_neg (by simp [hlook]), ih, List.filterMap_cons]
      cases hheader : serverHeader e with
      | none => rfl
      | some header =>
        have hout : header.1 ∉ relevantHeaderNames extraHeaders := by
          rw [looksAt, Bool.or_eq_false_iff, hheader] at hlook
          simpa using hlook.2
        exact (List.filter_cons_of_neg (by simpa using fun hmem => hout (h _ hmem))).symm

end LooksAt

theorem httpUrl_looksAt (env : TagEnv) (server : HashTable) (seen : HashTable)
    (hget : ∀ name ∈ serverKeys,
      getStringElem (some seen) name = getStringElem (some server) name)
    (hfind : HashTable.find seen "HTTPS" = server.find "HTTPS") :
    httpUrl env seen = httpUrl env server := by
  unfold httpUrl
  rw [hget "HTTP_HOST" (by decide), hget "SERVER_NAME" (by decide),
    hget "REQUEST_URI" (by decide), hfind]

/-- What is not looked at makes no difference to any tag. -/
theorem spanEntries_looksAt (env : TagEnv) (t : TagState) (tags : Tags) :
    spanEntries { env with server := env.server.map (·.filter (looksAt env.extraHeaders)) } t
      tags = spanEntries env t tags := by
  obtain ⟨method, uri, code, headers, server, ip, extra, enabled⟩ := env
  cases server with
  | none => rfl
  | some server =>
    have hip : ∀ name ∈ relevantIpHeaders, name ∈ relevantHeaderNames extra := by
      intro name hname
      exact List.mem_append_left _ ((by decide : relevantIpHeaders ⊆ _) hname)
    have hget : ∀ name ∈ serverKeys,
        getStringElem (some (server.filter (looksAt extra))) name =
          getStringElem (some server) name :=
      fun _ h => getStringElem_looksAt h
    have hbasic := @requestHeaderEntries_looksAt extra server relevantIpHeaders hip
    have hall := @requestHeaderEntries_looksAt extra server (relevantHeaderNames extra)
      fun _ h => h
    have hrequest (env : TagEnv) (henv : env.extraHeaders = extra) :
        requestTagEntries env (server.filter (looksAt extra)) = requestTagEntries env server := by
      rw [requestTagEntries, requestTagEntries, hget "HTTP_USER_AGENT" (by decide),
        hget "REMOTE_ADDR" (by decide), henv, hall,
        httpUrl_looksAt env server _ hget (find_looksAt (by decide))]
    simp only [spanEntries, basicTagEntries, allTagEntries, Option.map_some, hbasic]
    rw [hrequest _ rfl]
    rfl

/-- **Hidden entries are not seen**: where two requests differ only in entries
of `$_SERVER` that are not looked at, the span is the same. -/
theorem hidden_headers_unseen (env : TagEnv) (t : TagState) (r : RootSpan)
    {server server' : HashTable}
    (h : server.filter (looksAt env.extraHeaders) = server'.filter (looksAt env.extraHeaders)) :
    ddTagsAddTags { env with server := some server } t r =
      ddTagsAddTags { env with server := some server' } t r := by
  have hentries (tags : Tags) : spanEntries { env with server := some server } t tags =
      spanEntries { env with server := some server' } t tags := by
    rw [← spanEntries_looksAt, ← spanEntries_looksAt { env with server := some server' }]
    simp only [Option.map_some, h]
  rw [ddTagsAddTags_eq, ddTagsAddTags_eq]
  simp only [hentries]
  rfl

theorem cookie_unseen :
    ddTagsAddTags { blockedRequestEnv with server := some [(.str "HTTP_HOST", .string "web"),
        (.str "HTTP_COOKIE", .string "id=1")] }
      ⟨["\x7b\x7d"], none, true, false⟩ ⟨some ∅, some ∅, false⟩ =
    ddTagsAddTags { blockedRequestEnv with server := some [(.str "HTTP_HOST", .string "web")] }
      ⟨["\x7b\x7d"], none, true, false⟩ ⟨some ∅, some ∅, false⟩ :=
  hidden_headers_unseen blockedRequestEnv _ _ rfl

end DdAppsec.Extension
