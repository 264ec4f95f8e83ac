import DdAppsec.Extension.ForwardedFor

/-!
# Extension — the `Forwarded` header

`parseForwardedFrom` is the loop of `_parse_forwarded`, a machine that looks
for the values of parameters named `for`. `ForwardedPair` is what the grammar
of the header allows, and `written` how it stands in the header.

`forwarded_read` says that the machine agrees with the grammar: it finds the
first public address among the values of `for`. The value of a quoted string
is the text as it stands between the quotes; escapes are not undone.
-/

namespace DdAppsec.Extension

open Lib

def equalsSign : UInt8 := 0x3d

/-! ## `_parse_forwarded` -/

/-- The state of the machine, with the bytes from `start` on. -/
inductive ForwardedState where
  | between
  | key (name : Bytes)
  | beforeValue
  | valueToken (text : Bytes)
  | valueQuoted (text : Bytes)

def Separator (c : UInt8) : Prop := c = space ∨ c = semicolon ∨ c = comma

instance : DecidablePred Separator := fun _ => instDecidableOr

/-- `consider_value`: the three letters, each in either case. -/
def isFor : Bytes → Bool
  | [f, o, r] => (f == 0x66 || f == 0x46) && (o == 0x6f || o == 0x4f) && (r == 0x72 || r == 0x52)
  | _ => false

section Parse

variable (inet : Inet)

/-- The end of a value. -/
def considerValue (consider : Bool) (text : Bytes) (out : IpAddr) : Bool × IpAddr :=
  if consider then
    let parsed := parseMaybePortPair inet text out
    (parsed.1 && !isPrivate parsed.2, parsed.2)
  else (false, out)

/-- The loop of `_parse_forwarded`, on what is left of the header. -/
def parseForwardedFrom (state : ForwardedState) (consider : Bool) :
    Bytes → IpAddr → Bool × IpAddr
  | [], out => (false, out)
  | c :: rest, out =>
    match state with
    | .between =>
      if Separator c then parseForwardedFrom .between consider rest out
      else parseForwardedFrom (.key [c]) consider rest out
    | .key name =>
      if c = equalsSign then parseForwardedFrom .beforeValue (isFor name) rest out
      else parseForwardedFrom (.key (name ++ [c])) consider rest out
    | .beforeValue =>
      if c = doubleQuote then parseForwardedFrom (.valueQuoted []) consider rest out
      -- an empty value is not considered
      else if Separator c then parseForwardedFrom .between consider rest out
      else parseForwardedFrom (.valueToken [c]) consider rest out
    | .valueToken text =>
      if Separator c then
        let considered := considerValue inet consider text out
        if considered.1 then (true, considered.2)
        else parseForwardedFrom .between consider rest considered.2
      else if rest = [] then
        let considered := considerValue inet consider (text ++ [c]) out
        if considered.1 then (true, considered.2)
        else parseForwardedFrom .between consider rest considered.2
      else parseForwardedFrom (.valueToken (text ++ [c])) consider rest out
    | .valueQuoted text =>
      if c = doubleQuote then
        let considered := considerValue inet consider text out
        if considered.1 then (true, considered.2)
        else parseForwardedFrom .between consider rest considered.2
      else if c = backslash then
        match rest with
        | [] => (false, out)
        | d :: rest => parseForwardedFrom (.valueQuoted (text ++ [c, d])) consider rest out
      else parseForwardedFrom (.valueQuoted (text ++ [c])) consider rest out

/-- `_parse_forwarded`. -/
def parseForwarded (value : Bytes) (out : IpAddr) : Bool × IpAddr :=
  parseForwardedFrom inet .between false value out

end Parse

/-! ## The grammar -/

/-- A value: a token, or a quoted string, in which a backslash escapes. -/
inductive ForwardedValue where
  | token (text : Bytes) (ne : text ≠ []) (plain : ∀ c ∈ text, ¬ Separator c ∧ c ≠ doubleQuote)
  | quoted (text : Bytes) (escaped : EscapedText backslash doubleQuote text)

/-- A parameter, with the spaces in front of its name and behind its value. -/
structure ForwardedPair where
  spacesBefore : Nat
  name : Bytes
  value : ForwardedValue
  spacesAfter : Nat
  name_ne : name ≠ []
  name_token : ∀ c ∈ name, ¬ Separator c ∧ c ≠ equalsSign

def ForwardedValue.written : ForwardedValue → Bytes
  | .token text _ _ => text
  | .quoted text _ => doubleQuote :: (text ++ [doubleQuote])

def ForwardedPair.written (p : ForwardedPair) : Bytes :=
  List.replicate p.spacesBefore space ++ p.name ++ equalsSign :: p.value.written ++
    List.replicate p.spacesAfter space

/-- The header: its elements between commas, their parameters between
semicolons. -/
def forwardedHeader (elements : List (List ForwardedPair)) : Bytes :=
  List.intercalate [comma]
    (elements.map fun e => List.intercalate [semicolon] (e.map ForwardedPair.written))

/-! ## What is meant -/

/-- The value as it stands in the header, without the quotes. -/
def ForwardedValue.text : ForwardedValue → Bytes
  | .token text _ _ => text
  | .quoted text _ => text

/-- A text whose escapes are undone; `escaped` says that a backslash stands in
front. -/
def unescape (escaped : Bool) : Bytes → Bytes
  | [] => []
  | c :: rest =>
    if c = backslash ∧ escaped = false then unescape true rest else c :: unescape false rest

/-- The value that is written, with its escapes undone. -/
def ForwardedValue.unescaped : ForwardedValue → Bytes
  | .token text _ _ => text
  | .quoted text _ => unescape false text

/-- The address of a parameter named `for`, in letters of either case. -/
def forAddress (inet : Inet) (valueOf : ForwardedValue → Bytes) (p : ForwardedPair) :
    Option Address :=
  if lowerCase p.name = "for" then inet.publicAddress (valueOf p.value) else none

/-- The first public address among the values of `for`. -/
def firstFor (inet : Inet) (valueOf : ForwardedValue → Bytes)
    (elements : List (List ForwardedPair)) : Option Address :=
  elements.flatten.findSome? (forAddress inet valueOf)

/-! ## One parameter -/

/-- A letter, in either case. -/
theorem lower_eq_iff {c d : UInt8} (hlow : 0x61 ≤ d) (hhigh : d ≤ 0x7a) :
    (if 0x41 ≤ c ∧ c ≤ 0x5a then c + 0x20 else c) = d ↔ c = d ∨ c = d - 0x20 := by
  have hc := c.toNat_lt
  have hd := d.toNat_lt
  have hsub : (d - 0x20).toNat = d.toNat - 0x20 :=
    UInt8.toNat_sub_of_le _ _ (UInt8.le_trans (by decide) hlow)
  simp only [← UInt8.toNat_inj, UInt8.le_iff_toNat_le, apply_ite UInt8.toNat, UInt8.toNat_add,
    UInt8.reduceToNat, hsub] at hlow hhigh ⊢
  split_ifs <;> omega

theorem isFor_iff (name : Bytes) : isFor name = true ↔ lowerCase name = "for" := by
  have hword : Bytes.ofString "for" = [0x66, 0x6f, 0x72] := rfl
  rw [hword, lowerCase]
  match name with
  | [f, o, r] =>
    have hf := lower_eq_iff (c := f) (d := 0x66) (by decide) (by decide)
    have ho := lower_eq_iff (c := o) (d := 0x6f) (by decide) (by decide)
    have hr := lower_eq_iff (c := r) (d := 0x72) (by decide) (by decide)
    simp [isFor, hf, ho, hr, and_assoc]
  | [] => simp [isFor]
  | [_] => simp [isFor]
  | [_, _] => simp [isFor]
  | _ :: _ :: _ :: _ :: _ => simp [isFor]

section Machine

variable {inet : Inet}

theorem considerValue_finds (consider : Bool) (text : Bytes) (out : IpAddr) :
    Finds (considerValue inet consider text out)
      (if consider then inet.publicAddress text else none) := by
  cases consider with
  | false => exact ⟨rfl, nofun⟩
  | true => exact parsePublic_finds inet text out

/-- The name up to the equals sign. -/
theorem parseForwardedFrom_key {name : Bytes} (hname : ∀ c ∈ name, c ≠ equalsSign) (seen : Bytes)
    (consider : Bool) (rest : Bytes) (out : IpAddr) :
    parseForwardedFrom inet (.key seen) consider (name ++ equalsSign :: rest) out =
      parseForwardedFrom inet .beforeValue (isFor (seen ++ name)) rest out := by
  induction name generalizing seen with
  | nil => rw [List.nil_append, parseForwardedFrom, if_pos rfl, List.append_nil]
  | cons c name ih =>
    obtain ⟨hc, hrest⟩ := List.forall_mem_cons.mp hname
    rw [List.cons_append, parseForwardedFrom, if_neg hc, ih hrest, List.append_assoc,
      List.singleton_append]

theorem parseForwardedFrom_name {name : Bytes} (hne : name ≠ [])
    (htoken : ∀ c ∈ name, ¬ Separator c ∧ c ≠ equalsSign) (consider : Bool) (rest : Bytes)
    (out : IpAddr) :
    parseForwardedFrom inet .between consider (name ++ equalsSign :: rest) out =
      parseForwardedFrom inet .beforeValue (isFor name) rest out := by
  cases name with
  | nil => exact absurd rfl hne
  | cons c name =>
    obtain ⟨hc, hrest⟩ := List.forall_mem_cons.mp htoken
    rw [List.cons_append, parseForwardedFrom, if_neg hc.1,
      parseForwardedFrom_key fun d hd => (hrest d hd).2]
    rfl

theorem parseForwardedFrom_quoted_plain {c : UInt8} (hquote : c ≠ doubleQuote)
    (hescape : c ≠ backslash) (seen : Bytes) (consider : Bool) (rest : Bytes) (out : IpAddr) :
    parseForwardedFrom inet (.valueQuoted seen) consider (c :: rest) out =
      parseForwardedFrom inet (.valueQuoted (seen ++ [c])) consider rest out := by
  cases rest with
  | nil => simp [parseForwardedFrom, hquote, hescape]
  | cons d rest => conv_lhs => rw [parseForwardedFrom, if_neg hquote, if_neg hescape]

theorem parseForwardedFrom_close (seen : Bytes) (consider : Bool) (rest : Bytes) (out : IpAddr) :
    parseForwardedFrom inet (.valueQuoted seen) consider (doubleQuote :: rest) out =
      if (considerValue inet consider seen out).1 then
        (true, (considerValue inet consider seen out).2)
      else parseForwardedFrom inet .between consider rest
        (considerValue inet consider seen out).2 := by
  cases rest with
  | nil => simp [parseForwardedFrom]
  | cons d rest => conv_lhs => rw [parseForwardedFrom, if_pos rfl]

/-- A quoted string up to the quote that closes it. -/
theorem parseForwardedFrom_quoted {text : Bytes} (h : EscapedText backslash doubleQuote text)
    (seen : Bytes) (consider : Bool) (rest : Bytes) (out : IpAddr) :
    parseForwardedFrom inet (.valueQuoted seen) consider (text ++ doubleQuote :: rest) out =
      if (considerValue inet consider (seen ++ text) out).1 then
        (true, (considerValue inet consider (seen ++ text) out).2)
      else parseForwardedFrom inet .between consider rest
        (considerValue inet consider (seen ++ text) out).2 := by
  induction h generalizing seen with
  | nil => rw [List.nil_append, List.append_nil, parseForwardedFrom_close]
  | plain hquote hescape _ ih =>
    rw [List.cons_append, parseForwardedFrom_quoted_plain hquote hescape, ih, List.append_assoc,
      List.singleton_append]
  | escaped _ ih =>
    rw [List.cons_append, List.cons_append, parseForwardedFrom, if_neg (by decide), if_pos rfl, ih,
      List.append_assoc]
    rfl

/-- **What the machine finds** from here on, between parameters. -/
def ReadsOn (inet : Inet) (text : Bytes) (found : Option Address) : Prop :=
  ∀ consider out, Finds (parseForwardedFrom inet .between consider text out) found

/-- What can follow a value. -/
def Behind (tail : Bytes) : Prop := tail = [] ∨ ∃ c rest, tail = c :: rest ∧ Separator c

theorem readsOn_nil : ReadsOn inet [] none := fun _ _ => ⟨rfl, nofun⟩

theorem readsOn_separator {c : UInt8} (hc : Separator c) {text : Bytes} {found : Option Address} :
    ReadsOn inet (c :: text) found ↔ ReadsOn inet text found := by
  unfold ReadsOn
  simp only [parseForwardedFrom, if_pos hc]

theorem readsOn_spaces (n : Nat) {text : Bytes} {found : Option Address} :
    ReadsOn inet (List.replicate n space ++ text) found ↔ ReadsOn inet text found := by
  induction n with
  | zero => rfl
  | succ n ih => rw [List.replicate_succ, List.cons_append, readsOn_separator (Or.inl rfl), ih]

/-- A token up to what follows it. -/
theorem parseForwardedFrom_token {text tail : Bytes} {found : Option Address}
    (hplain : ∀ c ∈ text, ¬ Separator c) (htail : Behind tail) (h : ReadsOn inet tail found)
    (hmore : text ++ tail ≠ []) (seen : Bytes) (consider : Bool) (out : IpAddr) :
    Finds (parseForwardedFrom inet (.valueToken seen) consider (text ++ tail) out)
      ((if consider then inet.publicAddress (seen ++ text) else none).or found) := by
  induction text generalizing seen with
  | nil =>
    rcases htail with rfl | ⟨c, rest, rfl, hc⟩
    · exact absurd rfl hmore
    · rw [List.nil_append, List.append_nil, parseForwardedFrom, if_pos hc]
      rw [readsOn_separator hc] at h
      exact (considerValue_finds consider seen out).or _ (h consider)
  | cons c text ih =>
    obtain ⟨hc, hrest⟩ := List.forall_mem_cons.mp hplain
    rw [List.cons_append, parseForwardedFrom, if_neg hc]
    by_cases hlast : text ++ tail = []
    · obtain ⟨rfl, rfl⟩ := List.append_eq_nil_iff.mp hlast
      rw [List.append_nil, if_pos rfl]
      exact (considerValue_finds consider (seen ++ [c]) out).or _ (h consider)
    · rw [if_neg hlast]
      have hih := ih hrest hlast (seen ++ [c])
      rwa [List.append_assoc, List.singleton_append] at hih

/-- No text of one byte is an address, with brackets and port removed. -/
theorem publicAddress_single (hinet : inet.Lawful) (c : UInt8) :
    inet.publicAddress [c] = none := by
  have haddress : inet.address [c] = none := by
    have hlength : (cstr [c]).length ≤ 1 := (List.takeWhile_sublist _).length_le
    obtain ⟨hv4, hv6⟩ := hinet.short _ hlength
    rw [Inet.address, if_neg (List.cons_ne_nil c []), hv4, hv6]
    rfl
  rw [Inet.publicAddress, bareText]
  by_cases hopen : c = openBracket
  · rw [if_pos hopen, if_neg List.not_mem_nil]
    rfl
  · rw [if_neg hopen]
    by_cases hport : [c].count colon = 1
    · have hc : c = colon := by simpa [List.count_singleton] using hport
      rw [if_pos hport, hc]
      rfl
    · rw [if_neg hport, Option.bind_some, haddress]
      rfl

theorem readsOn_nil_eq {found : Option Address} (h : ReadsOn inet [] found) : found = none :=
  (h false default).eq_none nofun

/-- A value and what follows it. -/
theorem value_finds (hinet : inet.Lawful) (value : ForwardedValue) {tail : Bytes}
    {found : Option Address} (htail : Behind tail) (h : ReadsOn inet tail found) (consider : Bool)
    (out : IpAddr) :
    Finds (parseForwardedFrom inet .beforeValue consider (value.written ++ tail) out)
      ((if consider then inet.publicAddress value.text else none).or found) := by
  cases value with
  | token text ne plain =>
    cases text with
    | nil => exact absurd rfl ne
    | cons c text =>
      obtain ⟨hc, hrest⟩ := List.forall_mem_cons.mp plain
      show Finds (parseForwardedFrom inet .beforeValue consider (c :: (text ++ tail)) out) _
      rw [parseForwardedFrom, if_neg hc.2, if_neg hc.1]
      by_cases hlast : text ++ tail = []
      · -- a token of one byte at the end of the header is not considered
        obtain ⟨rfl, rfl⟩ := List.append_eq_nil_iff.mp hlast
        have hnone : (if consider then inet.publicAddress [c] else none) = none := by
          rw [publicAddress_single hinet, ite_self]
        rw [ForwardedValue.text, hnone, readsOn_nil_eq h]
        exact ⟨rfl, nofun⟩
      · exact parseForwardedFrom_token (fun d hd => (hrest d hd).1) htail h hlast [c] consider out
  | quoted text escaped =>
    have hwritten : (ForwardedValue.quoted text escaped).written ++ tail =
        doubleQuote :: (text ++ doubleQuote :: tail) := by
      simp [ForwardedValue.written]
    rw [hwritten, parseForwardedFrom, if_pos rfl, parseForwardedFrom_quoted escaped,
      List.nil_append]
    exact (considerValue_finds consider text out).or _ (h consider)

theorem behind_spaces (n : Nat) {tail : Bytes} (h : Behind tail) :
    Behind (List.replicate n space ++ tail) := by
  cases n with
  | zero => exact h
  | succ n => exact Or.inr ⟨space, _, rfl, Or.inl rfl⟩

/-- **A parameter** and what follows it. -/
theorem readsOn_pair (hinet : inet.Lawful) (p : ForwardedPair) {tail : Bytes}
    {found : Option Address} (htail : Behind tail) (h : ReadsOn inet tail found) :
    ReadsOn inet (p.written ++ tail)
      ((forAddress inet ForwardedValue.text p).or found) := by
  have hwritten : p.written ++ tail = List.replicate p.spacesBefore space ++
      (p.name ++ equalsSign :: (p.value.written ++
        (List.replicate p.spacesAfter space ++ tail))) := by
    simp [ForwardedPair.written]
  rw [hwritten, readsOn_spaces]
  intro consider out
  rw [parseForwardedFrom_name p.name_ne p.name_token, forAddress]
  simp only [← isFor_iff]
  exact value_finds hinet p.value (behind_spaces _ htail) ((readsOn_spaces _).mpr h) _ out

/-- Items with a separator between them. -/
theorem readsOn_intercalate {α : Type} {write : α → Bytes} {address : α → Option Address}
    {sep : UInt8} (hsep : Separator sep) {items : List α}
    (hitem : ∀ i ∈ items, ∀ tail found, Behind tail → ReadsOn inet tail found →
      ReadsOn inet (write i ++ tail) ((address i).or found))
    {tail : Bytes} {found : Option Address} (htail : Behind tail) (h : ReadsOn inet tail found) :
    ReadsOn inet (List.intercalate [sep] (items.map write) ++ tail)
      ((items.findSome? address).or found) := by
  induction items with
  | nil => exact h
  | cons i items ih =>
    have hhead := hitem i List.mem_cons_self
    have hrest := ih fun j hj => hitem j (List.mem_cons_of_mem i hj)
    rw [findSome?_cons_or, Option.or_assoc]
    cases items with
    | nil =>
      rw [List.map_singleton, List.intercalate_singleton]
      exact hhead tail _ htail h
    | cons j items =>
      rw [List.map_cons, List.map_cons, List.intercalate_cons_cons, List.append_assoc,
        List.append_assoc]
      exact hhead _ _ (Or.inr ⟨sep, _, rfl, hsep⟩) ((readsOn_separator hsep).mpr hrest)

theorem findSome?_flatten {α β : Type} (f : α → Option β) (lists : List (List α)) :
    (lists.findSome? fun l => l.findSome? f) = lists.flatten.findSome? f := by
  induction lists with
  | nil => rfl
  | cons l lists ih => rw [findSome?_cons_or, List.flatten_cons, List.findSome?_append, ih]

theorem readsOn_header (hinet : inet.Lawful) (elements : List (List ForwardedPair)) :
    ReadsOn inet (forwardedHeader elements) (firstFor inet ForwardedValue.text elements) := by
  have hpairs : ∀ e ∈ elements, ∀ tail found, Behind tail → ReadsOn inet tail found →
      ReadsOn inet (List.intercalate [semicolon] (e.map ForwardedPair.written) ++ tail)
        ((e.findSome? (forAddress inet ForwardedValue.text)).or found) :=
    fun e _ tail found htail h => readsOn_intercalate (Or.inr (Or.inl rfl))
      (fun p _ tail found => readsOn_pair hinet p) htail h
  have hheader := readsOn_intercalate (Or.inr (Or.inr rfl)) hpairs (Or.inl rfl) readsOn_nil
  rwa [List.append_nil, Option.or_none, findSome?_flatten] at hheader

end Machine

/-- **What the machine finds in a header of the grammar**: the first public
address among the values of `for`, as they stand in the header. -/
theorem forwarded_read {inet : Inet} (hinet : inet.Lawful) (elements : List (List ForwardedPair))
    (out : IpAddr) :
    Finds (parseForwarded inet (forwardedHeader elements) out)
      (firstFor inet ForwardedValue.text elements) :=
  readsOn_header hinet elements false out

theorem forall_mem_of_all {P : UInt8 → Prop} [DecidablePred P] {text : Bytes}
    (h : text.all (fun c => P c) = true) : ∀ c ∈ text, P c := by
  simpa using h

/-- A parameter whose value is a token. -/
def tokenPair (name text : Bytes) (spacesBefore spacesAfter : Nat)
    (hname : name ≠ [] ∧ name.all (fun c => ¬ Separator c ∧ c ≠ equalsSign) = true)
    (htext : text ≠ [] ∧ text.all (fun c => ¬ Separator c ∧ c ≠ doubleQuote) = true) :
    ForwardedPair where
  spacesBefore := spacesBefore
  name := name
  value := .token text htext.1 (forall_mem_of_all htext.2)
  spacesAfter := spacesAfter
  name_ne := hname.1
  name_token := forall_mem_of_all hname.2

/-- One whose value is quoted and named `for`. -/
def quotedPair (text : Bytes) (escaped : EscapedText backslash doubleQuote text)
    (spacesBefore spacesAfter : Nat) : ForwardedPair where
  spacesBefore := spacesBefore
  name := "For"
  value := .quoted text escaped
  spacesAfter := spacesAfter
  name_ne := by decide
  name_token := forall_mem_of_all (by decide)

/-- A hidden client with a quote in its name, a client with a port, and a proxy. -/
def proxiedElements : List (List ForwardedPair) :=
  [[quotedPair "_a\\\",b" (.plain (by decide) (by decide) <| .plain (by decide) (by decide) <|
        .escaped <| .plain (by decide) (by decide) <| .plain (by decide) (by decide) .nil) 0 0,
      tokenPair "by" "1.1.1.1" 1 0 (by decide) (by decide)],
    [tokenPair "proto" "http" 1 1 (by decide) (by decide),
      quotedPair "8.8.8.8:80" (.of_plain (forall_mem_of_all (by decide))) 0 0],
    [tokenPair "for" "1.1.1.1" 1 0 (by decide) (by decide)]]

theorem proxied_client_read :
    forwardedHeader proxiedElements =
      "For=\"_a\\\",b\"; by=1.1.1.1, proto=http ;For=\"8.8.8.8:80\", for=1.1.1.1" ∧
    Finds (parseForwarded publicResolvers (forwardedHeader proxiedElements) default)
      (some (.v4 ⟨[8, 8, 8, 8], rfl⟩)) := by
  have hfirst : firstFor publicResolvers ForwardedValue.text proxiedElements =
      some (.v4 ⟨[8, 8, 8, 8], rfl⟩) := by decide
  refine ⟨by decide, ?_⟩
  rw [← hfirst]
  exact forwarded_read publicResolvers_lawful proxiedElements default

/-- `for="8.8.8.\8"`, where a digit is escaped. -/
def escapedPair : ForwardedPair where
  spacesBefore := 0
  name := "for"
  value := .quoted "8.8.8.\\8" <|
    .plain (by decide) (by decide) <| .plain (by decide) (by decide) <|
    .plain (by decide) (by decide) <| .plain (by decide) (by decide) <|
    .plain (by decide) (by decide) <| .plain (by decide) (by decide) <| .escaped .nil
  spacesAfter := 0
  name_ne := by decide
  name_token := forall_mem_of_all (by decide)

/-- **Escapes are not undone**: the value is an address only without them. -/
theorem escaped_digit_not_read :
    forwardedHeader [[escapedPair]] = "for=\"8.8.8.\\8\"" ∧
    firstFor publicResolvers ForwardedValue.unescaped [[escapedPair]] =
      some (.v4 ⟨[8, 8, 8, 8], rfl⟩) ∧
    (parseForwarded publicResolvers (forwardedHeader [[escapedPair]]) default).1 = false ∧
    ¬ Finds (parseForwarded publicResolvers (forwardedHeader [[escapedPair]]) default)
      (firstFor publicResolvers ForwardedValue.unescaped [[escapedPair]]) := by
  have hmeant : firstFor publicResolvers ForwardedValue.unescaped [[escapedPair]] =
      some (.v4 ⟨[8, 8, 8, 8], rfl⟩) := by decide
  have hnone : firstFor publicResolvers ForwardedValue.text [[escapedPair]] = none := by decide
  have hread : Finds (parseForwarded publicResolvers (forwardedHeader [[escapedPair]]) default)
      (firstFor publicResolvers ForwardedValue.text [[escapedPair]]) :=
    readsOn_header publicResolvers_lawful _ false default
  rw [hnone] at hread
  refine ⟨rfl, hmeant, hread.isSome, fun h => ?_⟩
  rw [hmeant] at h
  exact absurd (hread.unique h) (by decide)

end DdAppsec.Extension
