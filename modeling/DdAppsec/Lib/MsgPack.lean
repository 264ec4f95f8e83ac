import DdAppsec.Lib.Endian

/-!
# Lib — the MessagePack format, and reading it under limits

An object is written head first: a head says what it is and, for strings and
containers, how long; what it contains follows. `Obj.encode` writes the
shortest head, `decode` reads an object from the front of some bytes and
returns what is left. A reader has LIMITS on sizes and on nesting; it fails
on the first object beyond them, and on running out of bytes.

Binary and extension types are not part of this model: `encode` never writes
them.

* `decode_encode` — reading back gives the object if it is within limits and
  an overflow if it is not;
* `decode_append` — bytes behind an object change nothing, so no strict
  beginning of an encoding is one itself (`decode_strict`).

`Codec` is an implementation of the format that one does not have the source
of; `Codec.Conforms` is what may be relied on.
-/

namespace DdAppsec.Lib.MsgPack

/-! ## Heads -/

inductive Head where
  | nil
  | boolean (b : Bool)
  | int (i : Int)
  | double (bits : UInt64)
  | str (size : Nat)
  | array (size : Nat)
  | map (size : Nat)
  deriving DecidableEq

inductive Error where
  /-- more bytes are needed -/
  | insufficient
  /-- a size or the nesting is beyond its limit -/
  | overflow
  | malformed
  deriving DecidableEq, Repr

/-- Reads from the front and returns what is left. -/
abbrev Reader (α : Type) := Bytes → Except Error (α × Bytes)

/-- Two's complement in `width` bytes, and back. -/
def unsigned (width : Nat) (i : Int) : Nat := (i % 256 ^ width).toNat

def signed (width n : Nat) : Int := if 2 * n < 256 ^ width then n else n - 256 ^ width

/-- The markers that a number of some width follows, and what they mean. -/
def marker : UInt8 → Option (Nat × (Nat → Head))
  | 0xc0 => some (0, fun _ => .nil)
  | 0xc2 => some (0, fun _ => .boolean false)
  | 0xc3 => some (0, fun _ => .boolean true)
  | 0xcb => some (8, fun n => .double (UInt64.ofNat n))
  | 0xcc => some (1, fun n => .int n)
  | 0xcd => some (2, fun n => .int n)
  | 0xce => some (4, fun n => .int n)
  | 0xcf => some (8, fun n => .int n)
  | 0xd0 => some (1, fun n => .int (signed 1 n))
  | 0xd1 => some (2, fun n => .int (signed 2 n))
  | 0xd2 => some (4, fun n => .int (signed 4 n))
  | 0xd3 => some (8, fun n => .int (signed 8 n))
  | 0xd9 => some (1, .str)
  | 0xda => some (2, .str)
  | 0xdb => some (4, .str)
  | 0xdc => some (2, .array)
  | 0xdd => some (4, .array)
  | 0xde => some (2, .map)
  | 0xdf => some (4, .map)
  | _ => none

/-- A byte that is a whole head. -/
def fixHead (b : UInt8) : Option Head :=
  if b < 0x80 then some (.int b.toNat)
  else if b < 0x90 then some (.map (b.toNat - 0x80))
  else if b < 0xa0 then some (.array (b.toNat - 0x90))
  else if b < 0xc0 then some (.str (b.toNat - 0xa0))
  else if 0xe0 ≤ b then some (.int (signed 1 b.toNat))
  else none

def encodeInt (i : Int) : Bytes :=
  if 0 ≤ i then
    if i < 2 ^ 7 then [UInt8.ofNat i.toNat]
    else if i < 2 ^ 8 then 0xcc :: bytesBE 1 i.toNat
    else if i < 2 ^ 16 then 0xcd :: bytesBE 2 i.toNat
    else if i < 2 ^ 32 then 0xce :: bytesBE 4 i.toNat
    else 0xcf :: bytesBE 8 i.toNat
  else if -32 ≤ i then [UInt8.ofNat (unsigned 1 i)]
  else if -2 ^ 7 ≤ i then 0xd0 :: bytesBE 1 (unsigned 1 i)
  else if -2 ^ 15 ≤ i then 0xd1 :: bytesBE 2 (unsigned 2 i)
  else if -2 ^ 31 ≤ i then 0xd2 :: bytesBE 4 (unsigned 4 i)
  else 0xd3 :: bytesBE 8 (unsigned 8 i)

/-- The shortest head. -/
def Head.encode : Head → Bytes
  | .nil => [0xc0]
  | .boolean false => [0xc2]
  | .boolean true => [0xc3]
  | .int i => encodeInt i
  | .double bits => 0xcb :: bytesBE 8 bits.toNat
  | .str n =>
    if n < 32 then [UInt8.ofNat (0xa0 + n)]
    else if n < 2 ^ 8 then 0xd9 :: bytesBE 1 n
    else if n < 2 ^ 16 then 0xda :: bytesBE 2 n
    else 0xdb :: bytesBE 4 n
  | .array n =>
    if n < 16 then [UInt8.ofNat (0x90 + n)]
    else if n < 2 ^ 16 then 0xdc :: bytesBE 2 n
    else 0xdd :: bytesBE 4 n
  | .map n =>
    if n < 16 then [UInt8.ofNat (0x80 + n)]
    else if n < 2 ^ 16 then 0xde :: bytesBE 2 n
    else 0xdf :: bytesBE 4 n

/-- The numbers in a head fit the format. -/
def Head.Valid : Head → Prop
  | .int i => -2 ^ 63 ≤ i ∧ i < 2 ^ 64
  | .str n | .array n | .map n => n < 2 ^ 32
  | .nil | .boolean _ | .double _ => True

instance : DecidablePred Head.Valid
  | .int _ => inferInstanceAs (Decidable (_ ∧ _))
  | .str _ | .array _ | .map _ => inferInstanceAs (Decidable (_ < _))
  | .nil | .boolean _ | .double _ => inferInstanceAs (Decidable True)

def decodeHead : Reader Head
  | [] => .error .insufficient
  | b :: bytes =>
    match marker b with
    | some (width, head) =>
      if bytes.length < width then .error .insufficient
      else .ok (head (natBE (bytes.take width)), bytes.drop width)
    | none =>
      match fixHead b with
      | some head => .ok (head, bytes)
      | none => .error .malformed

theorem decodeHead_marker {b : UInt8} {width : Nat} {head : Nat → Head}
    (hb : marker b = some (width, head)) {n : Nat} (hn : n < 256 ^ width) (rest : Bytes) :
    decodeHead (b :: bytesBE width n ++ rest) = .ok (head n, rest) := by
  have htake : (bytesBE width n ++ rest).take width = bytesBE width n := by
    rw [List.take_append_of_le_length (by simp), List.take_of_length_le (by simp)]
  have hdrop : (bytesBE width n ++ rest).drop width = rest := by
    rw [List.drop_append_of_le_length (by simp), List.drop_of_length_le (by simp),
      List.nil_append]
  rw [List.cons_append, decodeHead, hb]
  dsimp only
  rw [if_neg (by simp), htake, hdrop, natBE_bytesBE, Nat.mod_eq_of_lt hn]

/-- No marker is a whole head. -/
theorem marker_of_fixHead {b : UInt8} {head : Head} (h : fixHead b = some head) :
    marker b = none := by
  have hsome : (fixHead b).isSome = true := by rw [h]; rfl
  unfold marker
  split <;> first | rfl | exact absurd hsome (by decide)

theorem decodeHead_fix {b : UInt8} {head : Head} (h : fixHead b = some head) (rest : Bytes) :
    decodeHead ([b] ++ rest) = .ok (head, rest) := by
  rw [List.singleton_append, decodeHead, marker_of_fixHead h, h]

/-- The whole heads, by the number in their byte. -/
theorem fixHead_ofNat {n : Nat} (hn : n < 256) :
    fixHead (UInt8.ofNat n) =
      if n < 128 then some (.int n)
      else if n < 144 then some (.map (n - 128))
      else if n < 160 then some (.array (n - 144))
      else if n < 192 then some (.str (n - 160))
      else if 224 ≤ n then some (.int (signed 1 n))
      else none := by
  have hn' : (UInt8.ofNat n).toNat = n := by
    rw [UInt8.toNat_ofNat']
    omega
  unfold fixHead
  simp only [UInt8.lt_iff_toNat_lt, UInt8.le_iff_toNat_le, hn']
  rfl

theorem signed_unsigned (width : Nat) {i : Int} (hlo : -(256 ^ width : Int) ≤ 2 * i)
    (hneg : i < 0) : signed width (unsigned width i) = i ∧ unsigned width i < 256 ^ width ∧
      ((unsigned width i : Nat) : Int) = i + 256 ^ width := by
  have hpos : (0 : Int) < 256 ^ width := Int.pow_pos (by decide)
  have hmod : i % 256 ^ width = i + 256 ^ width := by
    rw [← Int.add_emod_right, Int.emod_eq_of_lt (by omega) (by omega)]
  have hnat : ((unsigned width i : Nat) : Int) = i + 256 ^ width := by
    rw [unsigned, hmod, Int.toNat_of_nonneg (by omega)]
  have hcast : ((256 ^ width : Nat) : Int) = 256 ^ width := by
    rw [Int.natCast_pow]
    rfl
  refine ⟨?_, by omega, hnat⟩
  unfold signed
  rw [if_neg (by omega), hnat]
  omega

theorem decodeHead_int {i : Int} (hlo : -2 ^ 63 ≤ i) (hhi : i < 2 ^ 64) (rest : Bytes) :
    decodeHead (encodeInt i ++ rest) = .ok (.int i, rest) := by
  unfold encodeInt
  split
  · rename_i hpos
    obtain ⟨n, rfl⟩ := Int.eq_ofNat_of_zero_le hpos
    rw [Int.toNat_natCast]
    split
    · refine decodeHead_fix ?_ rest
      rw [fixHead_ofNat (by omega), if_pos (by omega)]
    · split
      · exact decodeHead_marker (b := 0xcc) rfl (by omega) rest
      · split
        · exact decodeHead_marker (b := 0xcd) rfl (by omega) rest
        · split
          · exact decodeHead_marker (b := 0xce) rfl (by omega) rest
          · exact decodeHead_marker (b := 0xcf) rfl (by omega) rest
  · rename_i hneg
    split
    · obtain ⟨hsigned, hlt, hval⟩ := signed_unsigned 1 (i := i) (by omega) (by omega)
      refine decodeHead_fix ?_ rest
      rw [fixHead_ofNat hlt, if_neg (by omega), if_neg (by omega), if_neg (by omega),
        if_neg (by omega), if_pos (by omega), hsigned]
    · split
      · obtain ⟨hsigned, hlt, _⟩ := signed_unsigned 1 (i := i) (by omega) (by omega)
        rw [decodeHead_marker (b := 0xd0) rfl hlt rest, hsigned]
      · split
        · obtain ⟨hsigned, hlt, _⟩ := signed_unsigned 2 (i := i) (by omega) (by omega)
          rw [decodeHead_marker (b := 0xd1) rfl hlt rest, hsigned]
        · split
          · obtain ⟨hsigned, hlt, _⟩ := signed_unsigned 4 (i := i) (by omega) (by omega)
            rw [decodeHead_marker (b := 0xd2) rfl hlt rest, hsigned]
          · obtain ⟨hsigned, hlt, _⟩ := signed_unsigned 8 (i := i) (by omega) (by omega)
            rw [decodeHead_marker (b := 0xd3) rfl hlt rest, hsigned]

/-- **Heads read back.** -/
theorem decodeHead_encode {h : Head} (hv : h.Valid) (rest : Bytes) :
    decodeHead (h.encode ++ rest) = .ok (h, rest) := by
  cases h with
  | nil => exact decodeHead_marker (b := 0xc0) (n := 0) rfl (by decide) rest
  | boolean b =>
    cases b with
    | false => exact decodeHead_marker (b := 0xc2) (n := 0) rfl (by decide) rest
    | true => exact decodeHead_marker (b := 0xc3) (n := 0) rfl (by decide) rest
  | int i => exact decodeHead_int hv.1 hv.2 rest
  | double bits =>
    rw [Head.encode, decodeHead_marker (b := 0xcb) rfl bits.toNat_lt rest, UInt64.ofNat_toNat]
  | str n =>
    have hn : n < 2 ^ 32 := hv
    simp only [Head.encode]
    split
    · refine decodeHead_fix ?_ rest
      rw [fixHead_ofNat (by omega), if_neg (by omega), if_neg (by omega), if_neg (by omega),
        if_pos (by omega), Nat.add_sub_cancel_left]
    · split
      · exact decodeHead_marker (b := 0xd9) rfl (by omega) rest
      · split
        · exact decodeHead_marker (b := 0xda) rfl (by omega) rest
        · exact decodeHead_marker (b := 0xdb) rfl (by omega) rest
  | array n =>
    have hn : n < 2 ^ 32 := hv
    simp only [Head.encode]
    split
    · refine decodeHead_fix ?_ rest
      rw [fixHead_ofNat (by omega), if_neg (by omega), if_neg (by omega), if_pos (by omega),
        Nat.add_sub_cancel_left]
    · split
      · exact decodeHead_marker (b := 0xdc) rfl (by omega) rest
      · exact decodeHead_marker (b := 0xdd) rfl (by omega) rest
  | map n =>
    have hn : n < 2 ^ 32 := hv
    simp only [Head.encode]
    split
    · refine decodeHead_fix ?_ rest
      rw [fixHead_ofNat (by omega), if_neg (by omega), if_pos (by omega),
        Nat.add_sub_cancel_left]
    · split
      · exact decodeHead_marker (b := 0xde) rfl (by omega) rest
      · exact decodeHead_marker (b := 0xdf) rfl (by omega) rest

/-- More bytes behind a head change nothing. -/
theorem decodeHead_append {bytes rest : Bytes} {h : Head} (heq : decodeHead bytes = .ok (h, rest))
    (more : Bytes) : decodeHead (bytes ++ more) = .ok (h, rest ++ more) := by
  cases bytes with
  | nil => simp [decodeHead] at heq
  | cons b bytes =>
    rw [List.cons_append, decodeHead]
    rw [decodeHead] at heq
    split at heq
    · rename_i width head hm
      split at heq
      · simp at heq
      · rename_i hlen
        simp only [Except.ok.injEq, Prod.mk.injEq] at heq
        rw [if_neg (by rw [List.length_append]; omega),
          List.take_append_of_le_length (by omega), List.drop_append_of_le_length (by omega),
          heq.1, heq.2]
    · split at heq
      · simp only [Except.ok.injEq, Prod.mk.injEq] at heq
        rw [← heq.1, ← heq.2]
      · simp at heq

/-! ## Objects -/

inductive Obj where
  | nil
  | boolean (b : Bool)
  | int (i : Int)
  | double (bits : UInt64)
  | str (s : Bytes)
  | array (items : List Obj)
  | map (entries : List (Obj × Obj))

mutual

def Obj.encode : Obj → Bytes
  | .nil => Head.nil.encode
  | .boolean b => (Head.boolean b).encode
  | .int i => (Head.int i).encode
  | .double bits => (Head.double bits).encode
  | .str s => (Head.str s.length).encode ++ s
  | .array items => (Head.array items.length).encode ++ encodeItems items
  | .map entries => (Head.map entries.length).encode ++ encodeEntries entries

def encodeItems : List Obj → Bytes
  | [] => []
  | o :: rest => o.encode ++ encodeItems rest

def encodeEntries : List (Obj × Obj) → Bytes
  | [] => []
  | (k, v) :: rest => k.encode ++ (v.encode ++ encodeEntries rest)

end

mutual

/-- Integers and sizes fit the format. -/
def Obj.Valid : Obj → Prop
  | .nil | .boolean _ | .double _ => True
  | .int i => (Head.int i).Valid
  | .str s => (Head.str s.length).Valid
  | .array items => (Head.array items.length).Valid ∧ ValidItems items
  | .map entries => (Head.map entries.length).Valid ∧ ValidEntries entries

def ValidItems : List Obj → Prop
  | [] => True
  | o :: rest => o.Valid ∧ ValidItems rest

def ValidEntries : List (Obj × Obj) → Prop
  | [] => True
  | (k, v) :: rest => k.Valid ∧ v.Valid ∧ ValidEntries rest

end

theorem encodeItems_eq (items : List Obj) :
    encodeItems items = (items.map Obj.encode).flatten := by
  induction items with
  | nil => rfl
  | cons o items ih => rw [encodeItems, List.map_cons, List.flatten_cons, ih]

theorem encodeEntries_eq (entries : List (Obj × Obj)) :
    encodeEntries entries = (entries.map fun e => e.1.encode ++ e.2.encode).flatten := by
  induction entries with
  | nil => rfl
  | cons e entries ih =>
    rw [encodeEntries, List.map_cons, List.flatten_cons, ih, List.append_assoc]

theorem validItems_iff (items : List Obj) : ValidItems items ↔ ∀ o ∈ items, o.Valid := by
  induction items with
  | nil => simp [ValidItems]
  | cons o items ih => simp [ValidItems, ih]

theorem validEntries_iff (entries : List (Obj × Obj)) :
    ValidEntries entries ↔ ∀ e ∈ entries, e.1.Valid ∧ e.2.Valid := by
  induction entries with
  | nil => simp [ValidEntries]
  | cons e entries ih => simp [ValidEntries, ih, and_assoc]

mutual

/-- Every key of every map in it is a string. -/
def Obj.StringKeys : Obj → Prop
  | .nil | .boolean _ | .int _ | .double _ | .str _ => True
  | .array items => StringKeysItems items
  | .map entries => StringKeysEntries entries

def StringKeysItems : List Obj → Prop
  | [] => True
  | o :: rest => o.StringKeys ∧ StringKeysItems rest

def StringKeysEntries : List (Obj × Obj) → Prop
  | [] => True
  | (k, v) :: rest => (∃ s, k = .str s) ∧ v.StringKeys ∧ StringKeysEntries rest

end

theorem stringKeysItems_iff (items : List Obj) :
    StringKeysItems items ↔ ∀ o ∈ items, o.StringKeys := by
  induction items with
  | nil => simp [StringKeysItems]
  | cons o items ih => simp [StringKeysItems, ih]

theorem stringKeysEntries_iff (entries : List (Obj × Obj)) :
    StringKeysEntries entries ↔ ∀ e ∈ entries, (∃ s, e.1 = .str s) ∧ e.2.StringKeys := by
  induction entries with
  | nil => simp [StringKeysEntries]
  | cons e entries ih => simp [StringKeysEntries, ih, and_assoc]

/-- The limits of a reader: the sizes of arrays, maps and strings. -/
structure Limits where
  array : Nat
  map : Nat
  str : Nat

mutual

/-- Every size is within its limit, and containers are nested at most
`depth` deep. -/
def Obj.within (lim : Limits) (depth : Nat) : Obj → Bool
  | .nil | .boolean _ | .int _ | .double _ => true
  | .str s => decide (s.length ≤ lim.str)
  | .array items => decide (items.length ≤ lim.array) && decide (0 < depth) &&
      withinItems lim (depth - 1) items
  | .map entries => decide (entries.length ≤ lim.map) && decide (0 < depth) &&
      withinEntries lim (depth - 1) entries

def withinItems (lim : Limits) (depth : Nat) : List Obj → Bool
  | [] => true
  | o :: rest => o.within lim depth && withinItems lim depth rest

def withinEntries (lim : Limits) (depth : Nat) : List (Obj × Obj) → Bool
  | [] => true
  | (k, v) :: rest => k.within lim depth && (v.within lim depth && withinEntries lim depth rest)

end

/-! ## Reading objects -/

def readItems (read : Reader Obj) : Nat → Reader (List Obj)
  | 0, bytes => .ok ([], bytes)
  | n + 1, bytes =>
    match read bytes with
    | .error e => .error e
    | .ok (o, bytes) =>
      match readItems read n bytes with
      | .error e => .error e
      | .ok (items, bytes) => .ok (o :: items, bytes)

def readEntries (read : Reader Obj) : Nat → Reader (List (Obj × Obj))
  | 0, bytes => .ok ([], bytes)
  | n + 1, bytes =>
    match read bytes with
    | .error e => .error e
    | .ok (k, bytes) =>
      match read bytes with
      | .error e => .error e
      | .ok (v, bytes) =>
        match readEntries read n bytes with
        | .error e => .error e
        | .ok (entries, bytes) => .ok ((k, v) :: entries, bytes)

/-- What a reader does once it knows the head; `inner` reads what a container
holds, `none` if no container is allowed here any more. -/
def readBody (lim : Limits) (inner : Option (Reader Obj)) (head : Head) : Reader Obj := fun bytes =>
  match head with
  | .nil => .ok (.nil, bytes)
  | .boolean b => .ok (.boolean b, bytes)
  | .int i => .ok (.int i, bytes)
  | .double bits => .ok (.double bits, bytes)
  | .str n =>
    -- a string is looked at once it is there
    if bytes.length < n then .error .insufficient
    else if lim.str < n then .error .overflow
    else .ok (.str (bytes.take n), bytes.drop n)
  | .array n =>
    -- a container fails at its head, before what it holds
    if lim.array < n then .error .overflow
    else
      match inner with
      | none => .error .overflow
      | some read =>
        match readItems read n bytes with
        | .error e => .error e
        | .ok (items, bytes) => .ok (.array items, bytes)
  | .map n =>
    if lim.map < n then .error .overflow
    else
      match inner with
      | none => .error .overflow
      | some read =>
        match readEntries read n bytes with
        | .error e => .error e
        | .ok (entries, bytes) => .ok (.map entries, bytes)

def readObj (lim : Limits) (inner : Option (Reader Obj)) : Reader Obj := fun bytes =>
  match decodeHead bytes with
  | .error e => .error e
  | .ok (head, bytes) => readBody lim inner head bytes

/-- Read an object whose containers are nested at most `depth` deep. -/
def decode (lim : Limits) : Nat → Reader Obj
  | 0 => readObj lim none
  | depth + 1 => readObj lim (some (decode lim depth))

theorem readObj_encode {lim : Limits} {inner : Option (Reader Obj)} (head : Head)
    (hv : head.Valid) (rest : Bytes) :
    readObj lim inner (head.encode ++ rest) = readBody lim inner head rest := by
  rw [readObj, decodeHead_encode hv]

/-- The reader for what a container holds. -/
def innerReader (lim : Limits) : Nat → Option (Reader Obj)
  | 0 => none
  | depth + 1 => some (decode lim depth)

theorem decode_eq (lim : Limits) (depth : Nat) :
    decode lim depth = readObj lim (innerReader lim depth) := by
  cases depth <;> rfl

variable {lim : Limits}

mutual

/-- **Reading back**: the object if it is within limits, else an overflow. -/
theorem decode_encode (o : Obj) (depth : Nat) (rest : Bytes) (hv : o.Valid) :
    decode lim depth (o.encode ++ rest) =
      if o.within lim depth then .ok (o, rest) else .error .overflow := by
  rw [decode_eq]
  match o with
  | .nil => exact readObj_encode .nil trivial rest
  | .boolean b => exact readObj_encode (.boolean b) trivial rest
  | .int i => exact readObj_encode (.int i) hv rest
  | .double bits => exact readObj_encode (.double bits) trivial rest
  | .str s =>
    rw [Obj.encode, List.append_assoc, readObj_encode (.str s.length) hv, Obj.within]
    unfold readBody
    dsimp only
    rw [if_neg (by rw [List.length_append]; omega)]
    by_cases hs : s.length ≤ lim.str
    · rw [if_neg (by omega)]
      simp [hs]
    · rw [if_pos (by omega)]
      simp [hs]
  | .array items =>
    rw [Obj.encode, List.append_assoc, readObj_encode (.array items.length) hv.1, Obj.within]
    unfold readBody
    dsimp only
    by_cases hsize : items.length ≤ lim.array
    · rw [if_neg (by omega)]
      cases depth with
      | zero => simp [innerReader]
      | succ depth =>
        -- one level less for what is inside
        simp only [innerReader, readItems_encode items depth rest hv.2, hsize]
        cases hw : withinItems lim depth items <;> simp [hw]
    · rw [if_pos (by omega)]
      simp [hsize]
  | .map entries =>
    rw [Obj.encode, List.append_assoc, readObj_encode (.map entries.length) hv.1, Obj.within]
    unfold readBody
    dsimp only
    by_cases hsize : entries.length ≤ lim.map
    · rw [if_neg (by omega)]
      cases depth with
      | zero => simp [innerReader]
      | succ depth =>
        simp only [innerReader, readEntries_encode entries depth rest hv.2, hsize]
        cases hw : withinEntries lim depth entries <;> simp [hw]
    · rw [if_pos (by omega)]
      simp [hsize]

theorem readItems_encode (items : List Obj) (depth : Nat) (rest : Bytes)
    (hv : ValidItems items) :
    readItems (decode lim depth) items.length (encodeItems items ++ rest) =
      if withinItems lim depth items then .ok (items, rest) else .error .overflow := by
  match items with
  | [] => rfl
  | o :: items =>
    rw [encodeItems, List.append_assoc, List.length_cons, readItems,
      decode_encode o depth _ hv.1, withinItems]
    cases o.within lim depth with
    | false => rfl
    | true =>
      simp only [if_true, readItems_encode items depth rest hv.2, Bool.true_and]
      cases withinItems lim depth items <;> rfl

theorem readEntries_encode (entries : List (Obj × Obj)) (depth : Nat) (rest : Bytes)
    (hv : ValidEntries entries) :
    readEntries (decode lim depth) entries.length (encodeEntries entries ++ rest) =
      if withinEntries lim depth entries then .ok (entries, rest) else .error .overflow := by
  match entries with
  | [] => rfl
  | (k, v) :: entries =>
    rw [encodeEntries, List.append_assoc, List.append_assoc, List.length_cons, readEntries,
      decode_encode k depth _ hv.1, withinEntries]
    cases k.within lim depth with
    | false => rfl
    | true =>
      simp only [if_true, decode_encode v depth _ hv.2.1, Bool.true_and]
      cases v.within lim depth with
      | false => rfl
      | true =>
        simp only [if_true, readEntries_encode entries depth rest hv.2.2, Bool.true_and]
        cases withinEntries lim depth entries <;> rfl

end

/-! ## Beginnings of encodings -/

/-- More bytes change nothing for this reader. -/
def Reader.Stable {α : Type} (read : Reader α) : Prop :=
  ∀ {bytes rest : Bytes} {a : α}, read bytes = .ok (a, rest) →
    ∀ more, read (bytes ++ more) = .ok (a, rest ++ more)

theorem readItems_stable {read : Reader Obj} (h : read.Stable) (n : Nat) :
    (readItems read n).Stable := by
  induction n with
  | zero =>
    intro bytes rest items heq more
    cases heq
    rfl
  | succ n ih =>
    intro bytes rest items heq more
    rw [readItems] at heq ⊢
    split at heq
    · cases heq
    · rename_i o bytes₁ ho
      split at heq
      · cases heq
      · rename_i items₁ bytes₂ hitems
        cases heq
        rw [h ho more]
        dsimp only
        rw [ih hitems more]

theorem readEntries_stable {read : Reader Obj} (h : read.Stable) (n : Nat) :
    (readEntries read n).Stable := by
  induction n with
  | zero =>
    intro bytes rest entries heq more
    cases heq
    rfl
  | succ n ih =>
    intro bytes rest entries heq more
    rw [readEntries] at heq ⊢
    split at heq
    · cases heq
    · rename_i k bytes₁ hk
      split at heq
      · cases heq
      · rename_i v bytes₂ hv
        split at heq
        · cases heq
        · rename_i entries₁ bytes₃ hentries
          cases heq
          rw [h hk more]
          dsimp only
          rw [h hv more]
          dsimp only
          rw [ih hentries more]

theorem readBody_stable {inner : Option (Reader Obj)}
    (h : ∀ read, inner = some read → read.Stable) (head : Head) :
    (readBody lim inner head).Stable := by
  intro bytes rest o heq more
  cases head with
  | nil | boolean | int | double =>
    cases heq
    rfl
  | str n =>
    unfold readBody at heq ⊢
    dsimp only at heq ⊢
    split at heq
    · cases heq
    · rename_i hlen
      split at heq
      · cases heq
      · rename_i hsize
        cases heq
        rw [if_neg (by rw [List.length_append]; omega), if_neg hsize,
          List.take_append_of_le_length (by omega), List.drop_append_of_le_length (by omega)]
  | array n =>
    unfold readBody at heq ⊢
    dsimp only at heq ⊢
    split at heq
    · cases heq
    · rename_i hsize
      rw [if_neg hsize]
      cases inner with
      | none => cases heq
      | some read =>
        dsimp only at heq ⊢
        split at heq
        · cases heq
        · rename_i items bytes₁ hitems
          cases heq
          rw [readItems_stable (h read rfl) n hitems more]
  | map n =>
    unfold readBody at heq ⊢
    dsimp only at heq ⊢
    split at heq
    · cases heq
    · rename_i hsize
      rw [if_neg hsize]
      cases inner with
      | none => cases heq
      | some read =>
        dsimp only at heq ⊢
        split at heq
        · cases heq
        · rename_i entries bytes₁ hentries
          cases heq
          rw [readEntries_stable (h read rfl) n hentries more]

/-- **Bytes behind an object change nothing.** -/
theorem decode_append (depth : Nat) : (decode lim depth).Stable := by
  have hobj : ∀ inner : Option (Reader Obj), (∀ read, inner = some read → read.Stable) →
      (readObj lim inner).Stable := by
    intro inner hinner bytes rest o heq more
    rw [readObj] at heq ⊢
    split at heq
    · cases heq
    · rename_i head bytes₁ hhead
      rw [decodeHead_append hhead more]
      exact readBody_stable hinner head heq more
  induction depth with
  | zero => exact hobj none (by simp)
  | succ depth ih =>
    intro bytes rest o heq more
    refine hobj (some (decode lim depth)) ?_ heq more
    intro read hread
    cases hread
    exact ih

/-- **No strict beginning of an encoding is an object.** -/
theorem decode_strict {o : Obj} (hv : o.Valid) {depth : Nat} {bytes more : Bytes}
    (heq : bytes ++ more = o.encode) (hmore : more ≠ []) (o' : Obj) (rest : Bytes) :
    decode lim depth bytes ≠ .ok (o', rest) := by
  intro hok
  have hall := decode_append depth hok more
  have hback := @decode_encode lim o depth [] hv
  rw [List.append_nil, ← heq, hall] at hback
  split at hback
  · simp only [Except.ok.injEq, Prod.mk.injEq, List.append_eq_nil_iff] at hback
    exact hmore hback.2.2
  · cases hback

/-! ## Readers without limits -/

/-- No size that the format can express is too large. -/
def Limits.unbounded : Limits := ⟨2 ^ 32, 2 ^ 32, 2 ^ 32⟩

theorem Head.length_encode_pos (h : Head) : 0 < h.encode.length := by
  cases h with
  | nil | double bits => simp [Head.encode]
  | boolean b => cases b <;> simp [Head.encode]
  | int i =>
    rw [Head.encode, encodeInt]
    repeat' split
    all_goals simp
  | str n | array n | map n =>
    rw [Head.encode]
    repeat' split
    all_goals simp

mutual

/-- An object is nested less deep than its encoding is long. -/
theorem Obj.within_unbounded (o : Obj) (hv : o.Valid) {depth : Nat}
    (hdepth : o.encode.length ≤ depth) : o.within .unbounded depth = true := by
  match o with
  | .nil | .boolean _ | .int _ | .double _ => rfl
  | .str s => exact decide_eq_true (Nat.le_of_lt hv)
  | .array items =>
    have hhead := Head.length_encode_pos (.array items.length)
    have hsize : items.length < 2 ^ 32 := hv.1
    rw [Obj.encode, List.length_append] at hdepth
    have hitems : withinItems .unbounded (depth - 1) items = true :=
      withinItems_unbounded items hv.2 (by omega)
    have hlimit : items.length ≤ Limits.unbounded.array := Nat.le_of_lt hsize
    have hpositive : 0 < depth := by omega
    simp [Obj.within, hlimit, hpositive, hitems]
  | .map entries =>
    have hhead := Head.length_encode_pos (.map entries.length)
    have hsize : entries.length < 2 ^ 32 := hv.1
    rw [Obj.encode, List.length_append] at hdepth
    have hentries : withinEntries .unbounded (depth - 1) entries = true :=
      withinEntries_unbounded entries hv.2 (by omega)
    have hlimit : entries.length ≤ Limits.unbounded.map := Nat.le_of_lt hsize
    have hpositive : 0 < depth := by omega
    simp [Obj.within, hlimit, hpositive, hentries]

theorem withinItems_unbounded (items : List Obj) (hv : ValidItems items) {depth : Nat}
    (hdepth : (encodeItems items).length ≤ depth) :
    withinItems .unbounded depth items = true := by
  match items with
  | [] => rfl
  | o :: rest =>
    rw [encodeItems, List.length_append] at hdepth
    rw [withinItems, Obj.within_unbounded o hv.1 (by omega),
      withinItems_unbounded rest hv.2 (by omega)]
    rfl

theorem withinEntries_unbounded (entries : List (Obj × Obj)) (hv : ValidEntries entries)
    {depth : Nat} (hdepth : (encodeEntries entries).length ≤ depth) :
    withinEntries .unbounded depth entries = true := by
  match entries with
  | [] => rfl
  | (k, v) :: rest =>
    rw [encodeEntries, List.length_append, List.length_append] at hdepth
    rw [withinEntries, Obj.within_unbounded k hv.1 (by omega),
      Obj.within_unbounded v hv.2.1 (by omega), withinEntries_unbounded rest hv.2.2 (by omega)]
    rfl

end

/-! ## Implementations -/

/-- An implementation of the format: what its writer emits for a head, and
what its unpacker makes of some bytes under limits. -/
structure Codec where
  write : Head → Bytes
  unpack : Limits → Nat → Bytes → Except Error Obj

/-- It follows the format: heads are written the shortest way, and bytes that
begin an encoding are read as `decode` reads them. -/
structure Codec.Conforms (codec : Codec) : Prop where
  write_eq : ∀ head : Head, head.Valid → codec.write head = head.encode
  unpack_eq : ∀ (lim : Limits) (depth : Nat) {o : Obj} {bytes more : Bytes}, o.Valid →
    bytes ++ more = o.encode → codec.unpack lim depth bytes = (decode lim depth bytes).map Prod.fst

/-- The format itself. -/
def Codec.format : Codec where
  write := Head.encode
  unpack := fun lim depth bytes => (decode lim depth bytes).map Prod.fst

theorem Codec.format_conforms : Codec.format.Conforms where
  write_eq := fun _ _ => rfl
  unpack_eq := fun _ _ _ _ _ _ _ => rfl

variable {codec : Codec}

theorem Codec.Conforms.unpack_encode (h : codec.Conforms) {o : Obj} (hv : o.Valid) (depth : Nat) :
    codec.unpack lim depth o.encode =
      if o.within lim depth then .ok o else .error .overflow := by
  have hread := @decode_encode lim o depth [] hv
  rw [List.append_nil] at hread
  rw [h.unpack_eq lim depth hv (List.append_nil _), hread]
  split <;> rfl

theorem Codec.Conforms.unpack_strict (h : codec.Conforms) {o : Obj} (hv : o.Valid) (depth : Nat)
    {bytes more : Bytes} (heq : bytes ++ more = o.encode) (hmore : more ≠ []) (o' : Obj) :
    codec.unpack lim depth bytes ≠ .ok o' := by
  rw [h.unpack_eq lim depth hv heq]
  cases hread : decode lim depth bytes with
  | error e => simp [Except.map]
  | ok r => exact absurd hread (decode_strict hv heq hmore r.1 r.2)

end DdAppsec.Lib.MsgPack
