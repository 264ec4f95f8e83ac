import DdAppsec.Extension.RequestShutdown
import DdAppsec.Lib.Prefix

/-!
# Extension — client addresses

An address as `ip_extraction.c` reads and tests it. `IpAddr` is its union,
whose members share their bytes; `address` is what it stands for. The library
that reads and prints addresses is a parameter (`Inet`).

`parseMaybePortPair_returns` says what is read of a text, with brackets and
port removed, and `isPrivate_iff` that the test under masks is the one for
the private ranges. Both hold whatever the union held before.
-/

namespace DdAppsec.Extension

open Lib

def openBracket : UInt8 := 0x5b
def closeBracket : UInt8 := 0x5d

/-! ## Addresses -/

/-- `struct in_addr`, in network order. -/
abbrev InAddr := { bytes : Bytes // bytes.length = 4 }

/-- `struct in6_addr`. -/
abbrev In6Addr := { bytes : Bytes // bytes.length = 16 }

inductive AddressFamily where
  | inet | inet6
  deriving DecidableEq, Repr

/-- `ipaddr`. The members of the union begin at the same byte. -/
structure IpAddr where
  af : AddressFamily
  storage : In6Addr

instance : Inhabited IpAddr := ⟨⟨.inet, List.replicate 16 0, rfl⟩⟩

def IpAddr.v4 (a : IpAddr) : InAddr :=
  ⟨a.storage.val.take 4, by rw [List.length_take, a.storage.property]; decide⟩

def IpAddr.setV4 (a : IpAddr) (addr : InAddr) : IpAddr :=
  { a with
    storage := ⟨addr.val ++ a.storage.val.drop 4, by
      rw [List.length_append, List.length_drop, addr.property, a.storage.property]⟩ }

def IpAddr.v6 (a : IpAddr) : In6Addr := a.storage

def IpAddr.setV6 (a : IpAddr) (addr : In6Addr) : IpAddr := { a with storage := addr }

/-- `inet_pton` and `inet_ntop` for the two families. -/
structure Inet where
  pton4 : Bytes → Option InAddr
  pton6 : Bytes → Option In6Addr
  ntop4 : InAddr → Bytes
  ntop6 : In6Addr → Bytes

/-! ## Parsing -/

def ip4MappedPrefix : Bytes := [0, 0, 0, 0, 0, 0, 0, 0, 0, 0, 0xff, 0xff]

/-- The last four bytes, where an IPv4 address is mapped. -/
def In6Addr.lastFour (a : In6Addr) : InAddr :=
  ⟨a.val.drop 12, by rw [List.length_drop, a.property]⟩

section Parse

variable (inet : Inet)

/-- `_parse_ip_address`. The text is copied behind a NUL and read up to the
first one. -/
def parseIpAddress (addr : Bytes) (out : IpAddr) : Bool × IpAddr :=
  if addr.length = 0 then (false, out)
  else
    match inet.pton4 (cstr addr) with
    | some v4 => (true, { out.setV4 v4 with af := .inet })
    | none =>
      match inet.pton6 (cstr addr) with
      | none => (false, out)
      | some v6 =>
        let out := out.setV6 v6
        if out.v6.val.take 12 = ip4MappedPrefix then
          (true, { out.setV4 (In6Addr.lastFour out.v6) with af := .inet })
        else (true, { out with af := .inet6 })

/-- `_parse_ip_address_maybe_port_pair`. The port of an address that is not in
brackets follows its only colon. -/
def parseMaybePortPair (addr : Bytes) (out : IpAddr) : Bool × IpAddr :=
  match addr with
  | [] => (false, out)
  | c :: rest =>
    if c = openBracket then
      if closeBracket ∈ rest then
        parseIpAddress inet (rest.takeWhile (· ≠ closeBracket)) out
      else (false, out)
    else if colon ∈ addr ∧ colon ∉ (addr.dropWhile (· ≠ colon)).drop 1 then
      parseIpAddress inet (addr.takeWhile (· ≠ colon)) out
    else parseIpAddress inet addr out

end Parse

/-! ## Private addresses -/

/-- `CT_HTONL`. -/
def ctHtonl (x : UInt32) : UInt32 :=
  ((x >>> (24 : UInt32)) &&& 0x000000ff) ||| ((x >>> (8 : UInt32)) &&& 0x0000ff00) |||
    ((x <<< (8 : UInt32)) &&& 0x00ff0000) ||| ((x <<< (24 : UInt32)) &&& 0xff000000)

structure PrivRangeV4 where
  base : UInt32
  mask : UInt32

/-- `priv_ranges` of `_is_private_v4`. -/
def privRangesV4 : List PrivRangeV4 :=
  [⟨ctHtonl 0x0a000000, ctHtonl 0xff000000⟩,
    ⟨ctHtonl 0xac100000, ctHtonl 0xfff00000⟩,
    ⟨ctHtonl 0xc0a80000, ctHtonl 0xffff0000⟩,
    ⟨ctHtonl 0x7f000000, ctHtonl 0xff000000⟩,
    ⟨ctHtonl 0xa9fe0000, ctHtonl 0xffff0000⟩]

/-- `s_addr`, on a machine that has the low byte first. -/
def InAddr.sAddr (a : InAddr) : UInt32 := UInt32.ofNat (natLE a.val)

/-- `_is_private_v4`. -/
def isPrivateV4 (addr : InAddr) : Bool :=
  privRangesV4.any fun range => decide (InAddr.sAddr addr &&& range.mask = range.base)

/-- Sixteen bytes, the first of which are given. -/
def firstBytes (bytes : Bytes) : Bytes := bytes ++ List.replicate (16 - bytes.length) 0

structure PrivRangeV6 where
  base : Bytes
  mask : Bytes

/-- `priv_ranges` of `_is_private_v6`. -/
def privRangesV6 : List PrivRangeV6 :=
  [⟨List.replicate 15 0 ++ [1], List.replicate 16 0xff⟩,
    ⟨firstBytes [0xfe, 0x80], firstBytes [0xff, 0xc0]⟩,
    ⟨firstBytes [0xfe, 0xc0], firstBytes [0xff, 0xc0]⟩,
    ⟨firstBytes [0xfd], firstBytes [0xff]⟩,
    ⟨firstBytes [0xfc], firstBytes [0xfe]⟩]

/-- `_is_private_v6`. The bytes are compared as 128-bit numbers. -/
def isPrivateV6 (addr : In6Addr) : Bool :=
  privRangesV6.any fun range => decide (natLE addr.val &&& natLE range.mask = natLE range.base)

/-- `_is_private`. -/
def isPrivate (a : IpAddr) : Bool :=
  match a.af with
  | .inet => isPrivateV4 a.v4
  | .inet6 => isPrivateV6 a.v6

/-! ## What is meant -/

inductive Address where
  | v4 (a : InAddr)
  | v6 (a : In6Addr)
  deriving DecidableEq

/-- What the union stands for. -/
def IpAddr.address (a : IpAddr) : Address :=
  match a.af with
  | .inet => .v4 a.v4
  | .inet6 => .v6 a.v6

/-- The IPv6 form of an IPv4 address. -/
def mapped (a : InAddr) : In6Addr :=
  ⟨ip4MappedPrefix ++ a.val, by rw [List.length_append, a.property]; rfl⟩

/-- 10/8, 172.16/12, 192.168/16, 127/8, 169.254/16. -/
def privatePrefixesV4 : List (Bytes × Nat) :=
  [([10, 0, 0, 0], 8), ([172, 16, 0, 0], 12), ([192, 168, 0, 0], 16), ([127, 0, 0, 0], 8),
    ([169, 254, 0, 0], 16)]

/-- ::1, fe80::/10, fec0::/10, fc00::/7. -/
def privatePrefixesV6 : List (Bytes × Nat) :=
  [(List.replicate 15 0 ++ [1], 128), (firstBytes [0xfe, 0x80], 10),
    (firstBytes [0xfe, 0xc0], 10), (firstBytes [0xfc], 7)]

def InAddr.Private (a : InAddr) : Prop := ∃ p ∈ privatePrefixesV4, InPrefix p.1 p.2 a.val

/-- In a private range, or the mapped form of an address that is. -/
def Address.Private : Address → Prop
  | .v4 a => InAddr.Private a
  | .v6 a => (∃ p ∈ privatePrefixesV6, InPrefix p.1 p.2 a.val) ∨
      ∃ v4, a = mapped v4 ∧ InAddr.Private v4

/-- An address is never left in its mapped form. -/
def In6Addr.unmapped (a : In6Addr) : Address :=
  if a.val.take 12 = ip4MappedPrefix then .v4 (In6Addr.lastFour a) else .v6 a

/-- The address that a text stands for. -/
def Inet.address (inet : Inet) (text : Bytes) : Option Address :=
  if text = [] then none
  else
    match inet.pton4 (cstr text) with
    | some a => some (.v4 a)
    | none => (inet.pton6 (cstr text)).map In6Addr.unmapped

/-- A text without brackets and port. -/
def bareText : Bytes → Option Bytes
  | [] => none
  | c :: rest =>
    if c = openBracket then
      if closeBracket ∈ rest then some (rest.takeWhile (· ≠ closeBracket)) else none
    else if (c :: rest).count colon = 1 then some ((c :: rest).takeWhile (· ≠ colon))
    else some (c :: rest)

/-- **What a parser finds**: it succeeds exactly if there is an address, and
leaves that one in its output. -/
structure Finds (result : Bool × IpAddr) (found : Option Address) : Prop where
  isSome : result.1 = found.isSome
  address : ∀ a ∈ found, result.2.address = a

theorem Finds.eq_none {result : Bool × IpAddr} {found : Option Address} (h : Finds result found)
    (hfail : result.1 ≠ true) : found = none := by
  rw [h.isSome] at hfail
  exact Option.not_isSome_iff_eq_none.mp hfail

theorem Finds.exists_some {result : Bool × IpAddr} {found : Option Address}
    (h : Finds result found) (hsucc : result.1 = true) : ∃ a, found = some a := by
  rw [h.isSome] at hsucc
  exact Option.isSome_iff_exists.mp hsucc

theorem Finds.unique {result : Bool × IpAddr} {found found' : Option Address}
    (h : Finds result found) (h' : Finds result found') : found = found' := by
  cases found with
  | none => exact (h'.eq_none (by rw [h.isSome]; decide)).symm
  | some a =>
    obtain ⟨a', rfl⟩ := h'.exists_some h.isSome
    rw [← h.address a rfl, ← h'.address a' rfl]

/-- A parser that goes on where nothing was found. -/
theorem Finds.or {first : Bool × IpAddr} {found rest : Option Address} (h : Finds first found)
    (next : IpAddr → Bool × IpAddr) (hnext : ∀ out, Finds (next out) rest) :
    Finds (if first.1 then (true, first.2) else next first.2) (found.or rest) := by
  by_cases hsucc : first.1 = true
  · obtain ⟨a, rfl⟩ := h.exists_some hsucc
    rw [if_pos hsucc]
    exact ⟨rfl, h.address⟩
  · rw [if_neg hsucc, h.eq_none hsucc]
    exact hnext first.2

/-! ## The union -/

@[simp] theorem IpAddr.v4_setV4 (a : IpAddr) (addr : InAddr) : (a.setV4 addr).v4 = addr :=
  Subtype.ext (List.take_left' addr.property)

theorem IpAddr.address_inet (a : IpAddr) (addr : InAddr) :
    IpAddr.address { a.setV4 addr with af := .inet } = .v4 addr :=
  congrArg Address.v4 (a.v4_setV4 addr)

/-! ## Mapped addresses -/

theorem lastFour_mapped (a : InAddr) : In6Addr.lastFour (mapped a) = a :=
  Subtype.ext (List.drop_left' rfl)

theorem mapped_lastFour {a : In6Addr} (h : a.val.take 12 = ip4MappedPrefix) :
    mapped (In6Addr.lastFour a) = a := by
  apply Subtype.ext
  show ip4MappedPrefix ++ a.val.drop 12 = a.val
  rw [← h, List.take_append_drop]

theorem take_mapped (a : InAddr) : (mapped a).val.take 12 = ip4MappedPrefix := List.take_left' rfl

theorem exists_mapped_iff {P : InAddr → Prop} (a : In6Addr) :
    (∃ v4, a = mapped v4 ∧ P v4) ↔
      a.val.take 12 = ip4MappedPrefix ∧ P (In6Addr.lastFour a) := by
  constructor
  · rintro ⟨v4, rfl, hv4⟩
    rw [lastFour_mapped]
    exact ⟨take_mapped v4, hv4⟩
  · rintro ⟨hfirst, hlast⟩
    exact ⟨_, (mapped_lastFour hfirst).symm, hlast⟩

/-- Not the mapped form of an address. -/
def Address.Unmapped : Address → Prop
  | .v4 _ => True
  | .v6 a => a.val.take 12 ≠ ip4MappedPrefix

theorem In6Addr.unmapped_spec (a : In6Addr) : (In6Addr.unmapped a).Unmapped := by
  unfold In6Addr.unmapped
  by_cases h : a.val.take 12 = ip4MappedPrefix
  · rw [if_pos h]
    trivial
  · rw [if_neg h]
    exact h

theorem Inet.address_unmapped {inet : Inet} {text : Bytes} {a : Address}
    (h : inet.address text = some a) : a.Unmapped := by
  unfold Inet.address at h
  split at h
  · cases h
  · cases hv4 : inet.pton4 (cstr text) with
    | some v4 =>
      rw [hv4] at h
      cases h
      trivial
    | none =>
      rw [hv4] at h
      obtain ⟨v6, -, rfl⟩ := Option.map_eq_some_iff.mp h
      exact In6Addr.unmapped_spec v6

/-! ## What is parsed -/

section Parse

variable {inet : Inet}

theorem parseIpAddress_finds (addr : Bytes) (out : IpAddr) :
    Finds (parseIpAddress inet addr out) (inet.address addr) := by
  unfold parseIpAddress Inet.address
  by_cases hempty : addr = []
  · rw [if_pos (List.length_eq_zero_iff.mpr hempty), if_pos hempty]
    exact ⟨rfl, nofun⟩
  · rw [if_neg (mt List.length_eq_zero_iff.mp hempty), if_neg hempty]
    cases hv4 : inet.pton4 (cstr addr) with
    | some v4 => exact ⟨rfl, fun a ha => by cases ha; exact out.address_inet v4⟩
    | none =>
      cases hv6 : inet.pton6 (cstr addr) with
      | none => exact ⟨rfl, nofun⟩
      | some v6 =>
        dsimp only [Option.map_some]
        by_cases hfirst : (out.setV6 v6).v6.val.take 12 = ip4MappedPrefix
        · rw [if_pos hfirst, In6Addr.unmapped,
            if_pos (show v6.val.take 12 = ip4MappedPrefix from hfirst)]
          exact ⟨rfl, fun a ha => by cases ha; exact (out.setV6 v6).address_inet _⟩
        · rw [if_neg hfirst, In6Addr.unmapped,
            if_neg (show v6.val.take 12 ≠ ip4MappedPrefix from hfirst)]
          exact ⟨rfl, fun a ha => by cases ha; rfl⟩

/-- The only colon: nothing behind the first one is another. -/
theorem count_colon_eq_one_iff (text : Bytes) :
    text.count colon = 1 ↔ colon ∈ text ∧ colon ∉ (text.dropWhile (· ≠ colon)).drop 1 := by
  induction text with
  | nil => simp
  | cons c rest ih =>
    by_cases hc : c = colon
    · subst hc
      simp [List.count_eq_zero]
    · rw [List.count_cons_of_ne hc, ih, List.dropWhile_cons_of_pos (by simpa using hc),
        List.mem_cons, or_iff_right (Ne.symm hc)]

theorem parseMaybePortPair_finds (addr : Bytes) (out : IpAddr) :
    Finds (parseMaybePortPair inet addr out) ((bareText addr).bind inet.address) := by
  cases addr with
  | nil => exact ⟨rfl, nofun⟩
  | cons c rest =>
    rw [parseMaybePortPair, bareText]
    by_cases hopen : c = openBracket
    · rw [if_pos hopen, if_pos hopen]
      by_cases hclose : closeBracket ∈ rest
      · rw [if_pos hclose, if_pos hclose]
        exact parseIpAddress_finds _ out
      · rw [if_neg hclose, if_neg hclose]
        exact ⟨rfl, nofun⟩
    · rw [if_neg hopen, if_neg hopen]
      simp only [← count_colon_eq_one_iff]
      by_cases hport : (c :: rest).count colon = 1
      · rw [if_pos hport, if_pos hport]
        exact parseIpAddress_finds _ out
      · rw [if_neg hport, if_neg hport]
        exact parseIpAddress_finds _ out

end Parse

/-! ## Private ranges -/

/-- A range that is tested under a mask has these first bits. -/
structure RangeOf (n : Nat) (base mask : Bytes) (bits : Nat) : Prop where
  length : base.length = n ∧ mask.length = n
  ones : natBE mask = 2 ^ (8 * n) - 2 ^ (8 * n - bits)
  clear : natBE base % 2 ^ (8 * n - bits) = 0

theorem any_iff_of_forall₂ {α β : Type} {test : α → Bool} {P : β → Prop} {ranges : List α}
    {prefixes : List β} (h : List.Forall₂ (fun r p => test r = true ↔ P p) ranges prefixes) :
    ranges.any test = true ↔ ∃ p ∈ prefixes, P p := by
  induction h with
  | nil => simp
  | cons hhead _ ih => rw [List.any_cons, Bool.or_eq_true, hhead, ih, List.exists_mem_cons_iff]

theorem masked_v4_iff (a : InAddr) (mask : Bytes) {range : PrivRangeV4} {base : Bytes} {bits : Nat}
    (hbase : range.base.toNat = natLE base) (hmask : range.mask.toNat = natLE mask)
    (h : RangeOf 4 base mask bits) :
    decide (InAddr.sAddr a &&& range.mask = range.base) = true ↔ InPrefix base bits a.val := by
  have haddr : (InAddr.sAddr a).toNat = natLE a.val := by
    have hlt := natLE_lt a.val
    rw [a.property] at hlt
    rw [InAddr.sAddr, UInt32.toNat_ofNat', Nat.mod_eq_of_lt hlt]
  rw [decide_eq_true_eq, ← UInt32.toNat_inj, UInt32.toNat_and, haddr, hbase, hmask]
  exact masked_eq_iff a.property h.length.2 h.length.1 h.ones h.clear

theorem isPrivateV4_iff (a : InAddr) : isPrivateV4 a = true ↔ InAddr.Private a := by
  refine any_iff_of_forall₂ (.cons ?_ (.cons ?_ (.cons ?_ (.cons ?_ (.cons ?_ .nil)))))
  · exact masked_v4_iff a [0xff, 0, 0, 0] (by decide) (by decide)
      ⟨by decide, by decide, by decide⟩
  · exact masked_v4_iff a [0xff, 0xf0, 0, 0] (by decide) (by decide)
      ⟨by decide, by decide, by decide⟩
  · exact masked_v4_iff a [0xff, 0xff, 0, 0] (by decide) (by decide)
      ⟨by decide, by decide, by decide⟩
  · exact masked_v4_iff a [0xff, 0, 0, 0] (by decide) (by decide)
      ⟨by decide, by decide, by decide⟩
  · exact masked_v4_iff a [0xff, 0xff, 0, 0] (by decide) (by decide)
      ⟨by decide, by decide, by decide⟩

theorem masked_v6_iff (a : In6Addr) {range : PrivRangeV6} {bits : Nat}
    (h : RangeOf 16 range.base range.mask bits) :
    decide (natLE a.val &&& natLE range.mask = natLE range.base) = true ↔
      InPrefix range.base bits a.val := by
  rw [decide_eq_true_eq]
  exact masked_eq_iff a.property h.length.2 h.length.1 h.ones h.clear

/-- fd00::/8, which the source lists besides fc00::/7, is a part of it. -/
theorem inPrefix_fc_of_fd {a : In6Addr} (h : InPrefix (firstBytes [0xfd]) 8 a.val) :
    InPrefix (firstBytes [0xfc]) 7 a.val := by
  unfold InPrefix at h ⊢
  rw [a.property] at h ⊢
  have hfd : natBE (firstBytes [0xfd]) / 2 ^ (8 * 16 - 8) = 0xfd := by decide
  have hfc : natBE (firstBytes [0xfc]) / 2 ^ (8 * 16 - 7) = 0x7e := by decide
  rw [hfd] at h
  rw [hfc, show 2 ^ (8 * 16 - 7) = 2 ^ (8 * 16 - 8) * 2 from rfl, ← Nat.div_div_eq_div_mul, h]

/-- The prefixes of `priv_ranges`. -/
def testedPrefixesV6 : List (Bytes × Nat) :=
  [(List.replicate 15 0 ++ [1], 128), (firstBytes [0xfe, 0x80], 10),
    (firstBytes [0xfe, 0xc0], 10), (firstBytes [0xfd], 8), (firstBytes [0xfc], 7)]

theorem isPrivateV6_iff_tested (a : In6Addr) :
    isPrivateV6 a = true ↔ ∃ p ∈ testedPrefixesV6, InPrefix p.1 p.2 a.val := by
  refine any_iff_of_forall₂ (.cons ?_ (.cons ?_ (.cons ?_ (.cons ?_ (.cons ?_ .nil)))))
  · exact masked_v6_iff a ⟨by decide, by decide, by decide⟩
  · exact masked_v6_iff a ⟨by decide, by decide, by decide⟩
  · exact masked_v6_iff a ⟨by decide, by decide, by decide⟩
  · exact masked_v6_iff a ⟨by decide, by decide, by decide⟩
  · exact masked_v6_iff a ⟨by decide, by decide, by decide⟩

theorem isPrivateV6_iff (a : In6Addr) :
    isPrivateV6 a = true ↔ ∃ p ∈ privatePrefixesV6, InPrefix p.1 p.2 a.val := by
  rw [isPrivateV6_iff_tested]
  constructor
  · rintro ⟨p, hp, hfirst⟩
    simp only [testedPrefixesV6, List.mem_cons, List.not_mem_nil, or_false] at hp
    rcases hp with rfl | rfl | rfl | rfl | rfl
    · exact ⟨_, List.mem_cons_self, hfirst⟩
    · exact ⟨_, List.mem_cons_of_mem _ List.mem_cons_self, hfirst⟩
    · exact ⟨_, List.mem_cons_of_mem _ (List.mem_cons_of_mem _ List.mem_cons_self), hfirst⟩
    · exact ⟨(firstBytes [0xfc], 7), by decide, inPrefix_fc_of_fd hfirst⟩
    · exact ⟨(firstBytes [0xfc], 7), by decide, hfirst⟩
  · rintro ⟨p, hp, hfirst⟩
    have hsubset : privatePrefixesV6 ⊆ testedPrefixesV6 := by decide
    exact ⟨p, hsubset hp, hfirst⟩

/-- **The test under masks** finds the private addresses, as long as none is
left in its mapped form. -/
theorem isPrivate_iff {a : IpAddr} (h : a.address.Unmapped) :
    isPrivate a = true ↔ a.address.Private := by
  unfold IpAddr.address at h ⊢
  unfold isPrivate
  cases haf : a.af with
  | inet => exact isPrivateV4_iff a.v4
  | inet6 =>
    rw [haf] at h
    rw [isPrivateV6_iff, Address.Private, exists_mapped_iff]
    exact (or_iff_left fun hmapped => h hmapped.1).symm

instance : DecidablePred InAddr.Private := fun a =>
  inferInstanceAs (Decidable (∃ p ∈ privatePrefixesV4, InPrefix p.1 p.2 a.val))

instance : DecidablePred Address.Private
  | .v4 a => inferInstanceAs (Decidable (InAddr.Private a))
  | .v6 a => decidable_of_iff
      ((∃ p ∈ privatePrefixesV6, InPrefix p.1 p.2 a.val) ∨
        (a.val.take 12 = ip4MappedPrefix ∧ InAddr.Private (In6Addr.lastFour a)))
      (or_congr_right (exists_mapped_iff a).symm)

/-- The address of an element of a list, if it is a public one. -/
def Inet.publicAddress (inet : Inet) (element : Bytes) : Option Address :=
  ((bareText element).bind inet.address).filter fun a => ¬ a.Private

/-- A parser that keeps public addresses only. -/
theorem Finds.keepPublic {result : Bool × IpAddr} {found : Option Address} (h : Finds result found)
    (hunmapped : ∀ a ∈ found, a.Unmapped) :
    Finds (result.1 && !isPrivate result.2, result.2) (found.filter fun a => ¬ a.Private) := by
  cases found with
  | none => exact ⟨by rw [h.isSome]; rfl, nofun⟩
  | some a =>
    have haddress := h.address a rfl
    have hprivate := isPrivate_iff (a := result.2) (haddress ▸ hunmapped a rfl)
    rw [haddress] at hprivate
    by_cases ha : a.Private
    · refine ⟨?_, ?_⟩
      · simp [hprivate.mpr ha, ha]
      · simp [ha]
    · refine ⟨?_, ?_⟩
      · simp [h.isSome, Bool.eq_false_iff.mpr (mt hprivate.mp ha), ha]
      · simp [ha, haddress]

theorem parsePublic_finds (inet : Inet) (element : Bytes) (out : IpAddr) :
    let parsed := parseMaybePortPair inet element out
    Finds (parsed.1 && !isPrivate parsed.2, parsed.2) (inet.publicAddress element) := by
  refine (parseMaybePortPair_finds element out).keepPublic fun a ha => ?_
  obtain ⟨text, -, htext⟩ := Option.bind_eq_some_iff.mp ha
  exact Inet.address_unmapped htext

/-! ## The library -/

/-- What is documented of `inet_pton`: no text of one byte is an address, and
none with a space at its end. -/
structure Inet.Lawful (inet : Inet) : Prop where
  short : ∀ text, text.length ≤ 1 → inet.pton4 text = none ∧ inet.pton6 text = none
  spaced : ∀ text, inet.pton4 (text ++ [space]) = none ∧ inet.pton6 (text ++ [space]) = none

/-- A library that knows the IPv4 addresses of a table. -/
def Inet.ofTable (table : List (Bytes × InAddr)) : Inet where
  pton4 := fun text => (table.find? fun e => e.1 = text).map Prod.snd
  pton6 := fun _ => none
  ntop4 := fun a => List.intercalate ("." : Bytes) (a.val.map fun b => Bytes.ofString b.toNat.repr)
  ntop6 := fun _ => []

theorem Inet.ofTable_lawful {table : List (Bytes × InAddr)}
    (h : ∀ e ∈ table, 1 < e.1.length ∧ e.1.getLast? ≠ some space) :
    (Inet.ofTable table).Lawful where
  short := fun text htext => by
    refine ⟨?_, rfl⟩
    simp only [Inet.ofTable, Option.map_eq_none_iff, List.find?_eq_none, decide_eq_true_eq]
    rintro e he rfl
    have hlong := (h e he).1
    omega
  spaced := fun text => by
    refine ⟨?_, rfl⟩
    simp only [Inet.ofTable, Option.map_eq_none_iff, List.find?_eq_none, decide_eq_true_eq]
    intro e he htext
    refine (h e he).2 ?_
    rw [htext, List.getLast?_concat]

end DdAppsec.Extension
