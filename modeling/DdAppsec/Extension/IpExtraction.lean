import DdAppsec.Extension.Forwarded

/-!
# Extension — the client address

`extractAddress` is `dd_ip_extraction_find`, with the place the address is
taken from beside it: the configured header, one of the priority headers or
`REMOTE_ADDR`. Each place is read by a parser of its own.

`client_ip_right_iff` says when the right place is taken. A priority header
that is a PHP reference is not seen (the configured header is). The array comes
from PHP code only through the testing function `extract_ip_addr`; `$_SERVER` at
the start of a request holds no references.
-/

namespace DdAppsec.Extension

open Lib

/-! ## `dd_ip_extraction_find` -/

/-- `_fetch_arr_str`. -/
def fetchArrStr (server : HashTable) (key : Bytes) : Option Bytes :=
  getStringElem (some server) key

/-- `_parse_plain_raw`. -/
def parsePlainRaw (inet : Inet) (value : Bytes) (out : IpAddr) : Bool × IpAddr :=
  parseIpAddress inet value out

/-- `_parse_plain`. -/
def parsePlain (inet : Inet) (value : Bytes) (out : IpAddr) : Bool × IpAddr :=
  let parsed := parseIpAddress inet value out
  (parsed.1 && !isPrivate parsed.2, parsed.2)

/-- `header_map_node`. -/
structure HeaderNode where
  key : Bytes
  parse : Inet → Bytes → IpAddr → Bool × IpAddr

/-- `priority_header_map`. -/
def priorityHeaderMap : List HeaderNode :=
  [⟨"HTTP_X_FORWARDED_FOR", parseXForwardedFor⟩,
    ⟨"HTTP_X_REAL_IP", parsePlain⟩,
    ⟨"HTTP_TRUE_CLIENT_IP", parsePlain⟩,
    ⟨"HTTP_X_CLIENT_IP", parsePlain⟩,
    ⟨"HTTP_X_FORWARDED", parseForwarded⟩,
    ⟨"HTTP_FORWARDED_FOR", parseXForwardedFor⟩,
    ⟨"HTTP_X_CLUSTER_CLIENT_IP", parseXForwardedFor⟩,
    ⟨"HTTP_FASTLY_CLIENT_IP", parsePlain⟩,
    ⟨"HTTP_CF_CONNECTING_IP", parsePlain⟩,
    ⟨"HTTP_CF_CONNECTING_IPV6", parsePlain⟩]

/-- Where an address is taken from. -/
inductive IpSource where
  | configured
  | priority (key : Bytes)
  | remoteAddr
  deriving DecidableEq

section Find

variable (inet : Inet)

/-- The configured header. -/
def configuredAddress (server : HashTable) (ipheader : Bytes) (out : IpAddr) :
    Option (IpSource × IpAddr) :=
  match fetchArrStr server ipheader with
  | none => none
  | some value =>
    let forwarded := parseForwarded inet value out
    if forwarded.1 then some (.configured, forwarded.2)
    else
      let listed := parseXForwardedFor inet value forwarded.2
      if listed.1 then some (.configured, listed.2) else none

/-- One turn of the loop over the priority headers. -/
def priorityAddress (server : HashTable) (out : IpAddr) (node : HeaderNode) :
    Option (IpSource × IpAddr) :=
  match server.find node.key with
  | some (.string value) =>
    if 0 < value.length then
      let parsed := node.parse inet value out
      if parsed.1 then some (.priority node.key, parsed.2) else none
    else none
  | _ => none

/-- `_try_extract` for `REMOTE_ADDR`. -/
def remoteAddress (server : HashTable) (out : IpAddr) : Option (IpSource × IpAddr) :=
  match fetchArrStr server "REMOTE_ADDR" with
  | none => none
  | some value =>
    let parsed := parsePlainRaw inet value out
    if parsed.1 then some (.remoteAddr, parsed.2) else none

/-- `dd_ip_extraction_find`, up to the text of the address. `out` is what the
variables of that name hold before they are written. -/
def extractAddress (ipheader : Option Bytes) (server : HashTable) (out : IpAddr) :
    Option (IpSource × IpAddr) :=
  match ipheader with
  | some (c :: name) => configuredAddress inet server (c :: name) out
  | _ =>
    match priorityHeaderMap.findSome? (priorityAddress inet server out) with
    | some found => some found
    | none => remoteAddress inet server out

/-- `_ipaddr_to_zstr`. -/
def ipaddrToZstr (a : IpAddr) : Bytes :=
  match a.af with
  | .inet => inet.ntop4 a.v4
  | .inet6 => inet.ntop6 a.v6

/-- `dd_ip_extraction_find`. -/
def ipExtractionFind (ipheader : Option Bytes) (server : HashTable) (out : IpAddr) :
    Option Bytes :=
  (extractAddress inet ipheader server out).map fun e => ipaddrToZstr inet e.2

end Find

/-! ## What is meant -/

/-- The address that a parser yields. -/
def yielded (parse : Inet → Bytes → IpAddr → Bool × IpAddr) (inet : Inet) (value : Bytes) :
    Option Address :=
  let parsed := parse inet value default
  if parsed.1 then some parsed.2.address else none

/-- Where an address was found, and what it stands for. -/
def located (found : Option (IpSource × IpAddr)) : Option (IpSource × Address) :=
  found.map fun e => (e.1, e.2.address)

/-- How an address is printed. -/
def Inet.text (inet : Inet) : Address → Bytes
  | .v4 a => inet.ntop4 a
  | .v6 a => inet.ntop6 a

/-- The public address of a priority header. -/
def headerAddress (inet : Inet) (server : HashTable) (node : HeaderNode) :
    Option (IpSource × Address) :=
  ((fetchArrStr server node.key).bind fun value =>
    (yielded node.parse inet value).filter fun a => ¬ a.Private).map (.priority node.key, ·)

/-- What is found without a configured header: the first priority header that
has a public address, else `REMOTE_ADDR`. -/
def expectedAddress (inet : Inet) (server : HashTable) : Option (IpSource × Address) :=
  (priorityHeaderMap.findSome? (headerAddress inet server)).or
    (((fetchArrStr server "REMOTE_ADDR").bind (yielded parsePlainRaw inet)).map (.remoteAddr, ·))

/-- **The client address is right**: the text is that of the address found, no
header gives a private address, a configured header is the only source, and
without one the first header in the order of the table counts. -/
structure ClientIpRight (inet : Inet) (ipheader : Option Bytes) (server : HashTable) : Prop where
  text : ∀ out, ipExtractionFind inet ipheader server out =
    (located (extractAddress inet ipheader server out)).map fun e => inet.text e.2
  isPublic : ∀ out e, extractAddress inet ipheader server out = some e → e.1 ≠ .remoteAddr →
    ¬ e.2.address.Private
  configured : ∀ name ∈ ipheader, name ≠ [] → ∀ out,
    located (extractAddress inet ipheader server out) =
      ((fetchArrStr server name).bind fun value =>
        (yielded parseForwarded inet value).or (yielded parseXForwardedFor inet value)).map
          (.configured, ·)
  priority : (∀ name ∈ ipheader, name = []) → ∀ out,
    located (extractAddress inet ipheader server out) = expectedAddress inet server

/-- `zend_hash_find` comes to a PHP reference. -/
def IsReference (server : HashTable) (key : Bytes) : Prop :=
  ∃ z, server.find key = some (.reference z)

/-- The first priority header that has a public address, if there is one, is
no reference. -/
def FirstIsDirect (inet : Inet) (server : HashTable) : Prop :=
  ∀ before node after, priorityHeaderMap = before ++ node :: after →
    (∀ n ∈ before, headerAddress inet server n = none) →
    headerAddress inet server node ≠ none → ¬ IsReference server node.key

/-! ## The parsers -/

/-- A parser that finds public addresses only, whatever its output held. -/
structure PublicParser (parse : Inet → Bytes → IpAddr → Bool × IpAddr) : Prop where
  finds : ∀ inet value out, Finds (parse inet value out) (yielded parse inet value)
  isPublic : ∀ inet value, ∀ a ∈ yielded parse inet value, ¬ a.Private
  empty : ∀ inet, yielded parse inet [] = none

theorem yielded_eq {parse : Inet → Bytes → IpAddr → Bool × IpAddr} {inet : Inet} {value : Bytes}
    {found : Option Address} (h : ∀ out, Finds (parse inet value out) found) :
    yielded parse inet value = found := by
  have hdefault := h default
  cases found with
  | none => exact if_neg (by rw [hdefault.isSome]; decide)
  | some a =>
    have hsucc : (parse inet value default).1 = true := hdefault.isSome
    show (if (parse inet value default).1 then _ else _) = _
    rw [if_pos hsucc, hdefault.address a rfl]

/-- Public addresses only are found, the same ones whatever was held. -/
def FindsPublic (parse : IpAddr → Bool × IpAddr) : Prop :=
  ∃ found : Option Address, (∀ a ∈ found, ¬ a.Private) ∧ ∀ out, Finds (parse out) found

theorem PublicParser.of_findsPublic {parse : Inet → Bytes → IpAddr → Bool × IpAddr}
    (h : ∀ inet value, FindsPublic (parse inet value))
    (hempty : ∀ inet, yielded parse inet [] = none) : PublicParser parse where
  finds := fun inet value out => by
    obtain ⟨found, -, hfinds⟩ := h inet value
    rw [yielded_eq hfinds]
    exact hfinds out
  isPublic := fun inet value => by
    obtain ⟨found, hpublic, hfinds⟩ := h inet value
    rwa [yielded_eq hfinds]
  empty := hempty

theorem public_of_filter {found : Option Address} :
    ∀ a ∈ found.filter fun a => ¬ a.Private, ¬ a.Private := by
  intro a ha
  simpa using (Option.filter_eq_some_iff.mp ha).2

theorem parsePlain_public : PublicParser parsePlain := by
  refine .of_findsPublic (fun inet value => ⟨(inet.address value).filter fun a => ¬ a.Private,
    public_of_filter, fun out => ?_⟩) fun _ => rfl
  exact (parseIpAddress_finds value out).keepPublic fun a ha => Inet.address_unmapped ha

theorem parseXForwardedFor_public : PublicParser parseXForwardedFor := by
  refine .of_findsPublic (fun inet value => ⟨_, ?_, parseXForwardedFor_finds inet value⟩)
    fun inet => yielded_eq (parseXForwardedFor_finds inet [])
  intro a ha
  obtain ⟨_, _, ha⟩ := List.exists_of_findSome?_eq_some ha
  exact public_of_filter a ha

theorem FindsPublic.or {first : IpAddr → Bool × IpAddr} {next : IpAddr → Bool × IpAddr}
    (h : FindsPublic first) (hnext : FindsPublic next) :
    FindsPublic fun out => if (first out).1 then (true, (first out).2) else next (first out).2 := by
  obtain ⟨found, hpublic, hfinds⟩ := h
  obtain ⟨rest, hpublic', hfinds'⟩ := hnext
  refine ⟨found.or rest, fun a ha => ?_, fun out => (hfinds out).or next hfinds'⟩
  cases found with
  | none => exact hpublic' a ha
  | some b => exact hpublic a ha

theorem findsPublic_none : FindsPublic fun out => (false, out) :=
  ⟨none, nofun, fun _ => ⟨rfl, nofun⟩⟩

theorem considerValue_public (inet : Inet) (consider : Bool) (text : Bytes) :
    FindsPublic (considerValue inet consider text) := by
  refine ⟨_, ?_, considerValue_finds consider text⟩
  cases consider with
  | false => exact nofun
  | true => exact public_of_filter

/-- The machine, from every state. -/
theorem parseForwardedFrom_public (inet : Inet) (value : Bytes) :
    ∀ state consider, FindsPublic (parseForwardedFrom inet state consider value) := by
  induction hlength : value.length using Nat.strong_induction_on generalizing value with
  | _ n ih =>
    subst hlength
    intro state consider
    cases value with
    | nil =>
      simp only [parseForwardedFrom]
      exact findsPublic_none
    | cons c rest =>
      have hrest := ih rest.length (Nat.lt_succ_self _) rest rfl
      have hconsider : ∀ text, FindsPublic fun out =>
          if (considerValue inet consider text out).1 then
            (true, (considerValue inet consider text out).2)
          else parseForwardedFrom inet .between consider rest
            (considerValue inet consider text out).2 :=
        fun text => (considerValue_public inet consider text).or (hrest .between consider)
      cases state with
      | between =>
        simp only [parseForwardedFrom]
        split_ifs
        · exact hrest .between consider
        · exact hrest (.key [c]) consider
      | key name =>
        simp only [parseForwardedFrom]
        split_ifs
        · exact hrest .beforeValue (isFor name)
        · exact hrest (.key (name ++ [c])) consider
      | beforeValue =>
        simp only [parseForwardedFrom]
        split_ifs
        · exact hrest (.valueQuoted []) consider
        · exact hrest .between consider
        · exact hrest (.valueToken [c]) consider
      | valueToken text =>
        by_cases hsep : Separator c
        · simp only [parseForwardedFrom, if_pos hsep]
          exact hconsider text
        · by_cases hlast : rest = []
          · simp only [parseForwardedFrom, if_neg hsep, if_pos hlast]
            exact hconsider (text ++ [c])
          · simp only [parseForwardedFrom, if_neg hsep, if_neg hlast]
            exact hrest (.valueToken (text ++ [c])) consider
      | valueQuoted text =>
        by_cases hquote : c = doubleQuote
        · subst hquote
          rw [funext (parseForwardedFrom_close text consider rest)]
          exact hconsider text
        · by_cases hescape : c = backslash
          · subst hescape
            cases rest with
            | nil =>
              simp only [parseForwardedFrom]
              exact findsPublic_none
            | cons d rest =>
              simp only [parseForwardedFrom]
              exact ih rest.length (by simp only [List.length_cons]; omega) rest rfl _ consider
          · rw [funext (parseForwardedFrom_quoted_plain hquote hescape text consider rest)]
            exact hrest (.valueQuoted (text ++ [c])) consider

theorem parseForwarded_public : PublicParser parseForwarded :=
  .of_findsPublic (fun inet value => parseForwardedFrom_public inet value .between false)
    fun _ => rfl

theorem priorityHeaderMap_public :
    ∀ node ∈ priorityHeaderMap, PublicParser node.parse := by
  intro node hnode
  simp only [priorityHeaderMap, List.mem_cons, List.not_mem_nil, or_false] at hnode
  rcases hnode with rfl | rfl | rfl | rfl | rfl | rfl | rfl | rfl | rfl | rfl
  · exact parseXForwardedFor_public
  · exact parsePlain_public
  · exact parsePlain_public
  · exact parsePlain_public
  · exact parseForwarded_public
  · exact parseXForwardedFor_public
  · exact parseXForwardedFor_public
  · exact parsePlain_public
  · exact parsePlain_public
  · exact parsePlain_public

theorem parsePlainRaw_finds (inet : Inet) (value : Bytes) (out : IpAddr) :
    Finds (parsePlainRaw inet value out) (yielded parsePlainRaw inet value) := by
  have hfinds : ∀ out, Finds (parsePlainRaw inet value out) (inet.address value) :=
    fun out => parseIpAddress_finds value out
  rw [yielded_eq hfinds]
  exact hfinds out

/-! ## Where the address is found -/

section Find

variable {inet : Inet} {server : HashTable}

theorem located_of_finds {parsed : Bool × IpAddr} {found : Option Address}
    (h : Finds parsed found) (source : IpSource) :
    located (if parsed.1 then some (source, parsed.2) else none) = found.map (source, ·) := by
  cases found with
  | none => rw [if_neg (by rw [h.isSome]; decide)]; rfl
  | some a =>
    have hsucc : parsed.1 = true := h.isSome
    rw [if_pos hsucc, located, Option.map_some, Option.map_some, h.address a rfl]

/-- A header that is no reference is read as the string that it is. -/
theorem fetchArrStr_direct {key : Bytes} (h : ¬ IsReference server key) :
    fetchArrStr server key =
      match server.find key with
      | some (.string value) => some value
      | _ => none := by
  unfold fetchArrStr getStringElem
  rw [Option.bind_some]
  cases hfind : server.find key with
  | none => rfl
  | some z =>
    cases z with
    | reference z => exact absurd ⟨z, hfind⟩ h
    | _ => rfl

theorem located_priorityAddress {node : HeaderNode} (hparser : PublicParser node.parse)
    (h : ¬ IsReference server node.key) (out : IpAddr) :
    located (priorityAddress inet server out node) = headerAddress inet server node := by
  unfold priorityAddress headerAddress
  rw [fetchArrStr_direct h]
  cases hfind : server.find node.key with
  | none => rfl
  | some z =>
    cases z with
    | string value =>
      have hpublic : ((yielded node.parse inet value).filter fun a => ¬ a.Private) =
          yielded node.parse inet value := by
        cases hyielded : yielded node.parse inet value with
        | none => rfl
        | some a => simp [hparser.isPublic inet value a hyielded]
      dsimp only
      rw [Option.bind_some, hpublic]
      by_cases hempty : 0 < value.length
      · rw [if_pos hempty]
        exact located_of_finds (hparser.finds inet value out) _
      · rw [if_neg hempty, List.eq_nil_of_length_eq_zero (Nat.eq_zero_of_not_pos hempty),
          hparser.empty]
        rfl
    | _ => rfl

theorem priorityAddress_reference {node : HeaderNode} (h : IsReference server node.key)
    (out : IpAddr) : priorityAddress inet server out node = none := by
  obtain ⟨z, hz⟩ := h
  rw [priorityAddress, hz]

theorem located_remoteAddress (out : IpAddr) :
    located (remoteAddress inet server out) =
      ((fetchArrStr server "REMOTE_ADDR").bind (yielded parsePlainRaw inet)).map
        (.remoteAddr, ·) := by
  unfold remoteAddress
  cases fetchArrStr server "REMOTE_ADDR" with
  | none => rfl
  | some value => exact located_of_finds (parsePlainRaw_finds inet value out) .remoteAddr

theorem located_configuredAddress (name : Bytes) (out : IpAddr) :
    located (configuredAddress inet server name out) =
      ((fetchArrStr server name).bind fun value =>
        (yielded parseForwarded inet value).or (yielded parseXForwardedFor inet value)).map
          (.configured, ·) := by
  unfold configuredAddress
  cases fetchArrStr server name with
  | none => rfl
  | some value =>
    have hforwarded := parseForwarded_public.finds inet value out
    dsimp only [Option.bind_some]
    by_cases hsucc : (parseForwarded inet value out).1 = true
    · obtain ⟨a, ha⟩ := hforwarded.exists_some hsucc
      have hlocated := located_of_finds hforwarded .configured
      rw [if_pos hsucc] at hlocated ⊢
      rw [hlocated, ha, Option.some_or]
    · rw [if_neg hsucc, hforwarded.eq_none hsucc, Option.none_or]
      exact located_of_finds (parseXForwardedFor_public.finds inet value _) .configured

/-- The sources, without a configured header. -/
theorem located_extractAddress {ipheader : Option Bytes} (h : ∀ name ∈ ipheader, name = [])
    (out : IpAddr) :
    located (extractAddress inet ipheader server out) =
      (priorityHeaderMap.findSome? fun node => located (priorityAddress inet server out node)).or
        (located (remoteAddress inet server out)) := by
  have hloop : located (priorityHeaderMap.findSome? (priorityAddress inet server out)) =
      priorityHeaderMap.findSome? fun node => located (priorityAddress inet server out node) :=
    List.map_findSome?
  rw [← hloop]
  have hextract : extractAddress inet ipheader server out =
      match priorityHeaderMap.findSome? (priorityAddress inet server out) with
      | some found => some found
      | none => remoteAddress inet server out := by
    cases ipheader with
    | none => rfl
    | some name =>
      rw [h name rfl]
      rfl
  rw [hextract]
  cases priorityHeaderMap.findSome? (priorityAddress inet server out) <;> rfl

theorem headerAddress_spec {node : HeaderNode} {e : IpSource × Address}
    (h : headerAddress inet server node = some e) :
    e.1 = .priority node.key ∧ ¬ e.2.Private := by
  obtain ⟨a, ha, rfl⟩ := Option.map_eq_some_iff.mp h
  obtain ⟨value, -, hvalue⟩ := Option.bind_eq_some_iff.mp ha
  exact ⟨rfl, public_of_filter a hvalue⟩

/-- What the loop finds at a priority header is its public address. -/
theorem priorityAddress_spec {node : HeaderNode} (hnode : node ∈ priorityHeaderMap) {out : IpAddr}
    {e : IpSource × Address} (h : located (priorityAddress inet server out node) = some e) :
    e.1 = .priority node.key ∧ ¬ e.2.Private := by
  by_cases href : IsReference server node.key
  · rw [priorityAddress_reference href] at h
    cases h
  · rw [located_priorityAddress (priorityHeaderMap_public node hnode) href] at h
    exact headerAddress_spec h

theorem configuredAddress_spec {name : Bytes} {out : IpAddr} {e : IpSource × Address}
    (h : located (configuredAddress inet server name out) = some e) : ¬ e.2.Private := by
  rw [located_configuredAddress] at h
  obtain ⟨a, ha, rfl⟩ := Option.map_eq_some_iff.mp h
  obtain ⟨value, -, hvalue⟩ := Option.bind_eq_some_iff.mp ha
  rcases Option.or_eq_some_iff.mp hvalue with hforwarded | ⟨-, hlisted⟩
  · exact parseForwarded_public.isPublic inet value a hforwarded
  · exact parseXForwardedFor_public.isPublic inet value a hlisted

theorem remoteAddress_source {out : IpAddr} {e : IpSource × Address}
    (h : located (remoteAddress inet server out) = some e) : e.1 = .remoteAddr := by
  rw [located_remoteAddress] at h
  obtain ⟨a, -, rfl⟩ := Option.map_eq_some_iff.mp h
  rfl

theorem ipaddrToZstr_eq (a : IpAddr) : ipaddrToZstr inet a = inet.text a.address := by
  unfold ipaddrToZstr IpAddr.address
  cases a.af <;> rfl

theorem ipExtractionFind_eq (ipheader : Option Bytes) (out : IpAddr) :
    ipExtractionFind inet ipheader server out =
      (located (extractAddress inet ipheader server out)).map fun e => inet.text e.2 := by
  rw [ipExtractionFind, located, Option.map_map]
  simp only [ipaddrToZstr_eq]
  rfl

/-- **No header gives a private address.** -/
theorem extractAddress_public {ipheader : Option Bytes} {out : IpAddr} {e : IpSource × IpAddr}
    (h : extractAddress inet ipheader server out = some e) (hsource : e.1 ≠ .remoteAddr) :
    ¬ e.2.address.Private := by
  have hlocated : located (extractAddress inet ipheader server out) = some (e.1, e.2.address) := by
    rw [h]
    rfl
  by_cases hheader : ∀ name ∈ ipheader, name = []
  · rw [located_extractAddress hheader] at hlocated
    rcases Option.or_eq_some_iff.mp hlocated with hpriority | ⟨-, hremote⟩
    · obtain ⟨node, hnode, hfound⟩ := List.exists_of_findSome?_eq_some hpriority
      exact (priorityAddress_spec hnode hfound).2
    · exact absurd (remoteAddress_source hremote) hsource
  · push Not at hheader
    obtain ⟨name, rfl, hne⟩ := hheader
    obtain ⟨c, rest, rfl⟩ := List.exists_cons_of_ne_nil hne
    exact configuredAddress_spec hlocated

/-- The order of the table is kept, unless a reference is passed over. -/
theorem located_eq_expected_iff {ipheader : Option Bytes} (h : ∀ name ∈ ipheader, name = [])
    (out : IpAddr) :
    located (extractAddress inet ipheader server out) = expectedAddress inet server ↔
      FirstIsDirect inet server := by
  classical
  have hg : ∀ node ∈ priorityHeaderMap, located (priorityAddress inet server out node) =
      if IsReference server node.key then none else headerAddress inet server node := by
    intro node hnode
    by_cases href : IsReference server node.key
    · rw [if_pos href, priorityAddress_reference href]
      rfl
    · rw [if_neg href, located_priorityAddress (priorityHeaderMap_public node hnode) href]
  rw [located_extractAddress h, located_remoteAddress, expectedAddress, ← located_remoteAddress out]
  constructor
  · intro heq before node after hsplit hbefore hnode href
    obtain ⟨e, he⟩ := Option.ne_none_iff_exists'.mp hnode
    have hfirst : priorityHeaderMap.findSome? (headerAddress inet server) = some e :=
      List.findSome?_eq_some_iff.mpr ⟨before, node, after, hsplit, he, hbefore⟩
    rw [hfirst, Option.some_or] at heq
    -- what was found says where, and the loop finds nothing there
    have hsource := (headerAddress_spec he).1
    rcases Option.or_eq_some_iff.mp heq with hpriority | ⟨-, hremote⟩
    · obtain ⟨node', hnode', hfound⟩ := List.exists_of_findSome?_eq_some hpriority
      have hkey := hsource.symm.trans (priorityAddress_spec hnode' hfound).1
      rw [IpSource.priority.injEq] at hkey
      rw [hkey] at href
      rw [priorityAddress_reference href] at hfound
      cases hfound
    · rw [remoteAddress_source hremote] at hsource
      cases hsource
  · intro hdirect
    congr 1
    refine (findSome?_hidden_eq_iff hg).mpr fun before node after e hsplit hbefore hnode href => ?_
    exact absurd href (hdirect before node after hsplit hbefore (by rw [hnode]; exact nofun))

end Find

/-- **When the client address is right**: always with a configured header, and
without one if the first priority header that has a public address is no
reference. -/
theorem client_ip_right_iff (inet : Inet) (ipheader : Option Bytes) (server : HashTable) :
    ClientIpRight inet ipheader server ↔
      (∃ name ∈ ipheader, name ≠ []) ∨ FirstIsDirect inet server := by
  constructor
  · intro h
    by_cases hheader : ∃ name ∈ ipheader, name ≠ []
    · exact Or.inl hheader
    · push Not at hheader
      exact Or.inr ((located_eq_expected_iff hheader default).mp (h.priority hheader default))
  · intro h
    refine ⟨ipExtractionFind_eq ipheader, fun out e => extractAddress_public,
      fun name hname hne out => ?_, fun hempty out => ?_⟩
    · obtain ⟨c, rest, rfl⟩ := List.exists_cons_of_ne_nil hne
      obtain rfl : ipheader = some (c :: rest) := hname
      exact located_configuredAddress (c :: rest) out
    · have hdirect := h.resolve_left fun ⟨name, hname, hne⟩ => hne (hempty name hname)
      exact (located_eq_expected_iff hempty out).mpr hdirect

/-- A client address in a header that is a reference. -/
def referencedHeader : HashTable :=
  [(.str "HTTP_X_REAL_IP", .reference (.string "8.8.8.8")), (.str "REMOTE_ADDR", .string "1.1.1.1")]

/-- **A reference is passed over**, and `REMOTE_ADDR` taken in its place. -/
theorem referenced_header_passed_over :
    located (extractAddress publicResolvers none referencedHeader default) =
      some (.remoteAddr, .v4 ⟨[1, 1, 1, 1], rfl⟩) ∧
    expectedAddress publicResolvers referencedHeader =
      some (.priority "HTTP_X_REAL_IP", .v4 ⟨[8, 8, 8, 8], rfl⟩) ∧
    ¬ ClientIpRight publicResolvers none referencedHeader := by
  have hfound : located (extractAddress publicResolvers none referencedHeader default) =
      some (.remoteAddr, .v4 ⟨[1, 1, 1, 1], rfl⟩) := by decide
  have hmeant : expectedAddress publicResolvers referencedHeader =
      some (.priority "HTTP_X_REAL_IP", .v4 ⟨[8, 8, 8, 8], rfl⟩) := by decide
  refine ⟨hfound, hmeant, fun h => ?_⟩
  have heq := h.priority nofun default
  rw [hfound, hmeant] at heq
  exact absurd heq (by decide)

end DdAppsec.Extension
