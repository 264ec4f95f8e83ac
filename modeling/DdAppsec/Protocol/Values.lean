import DdAppsec.Extension.Commands
import DdAppsec.Protocol.RequestLimits

/-!
# Protocol — PHP values in the helper

What the helper makes of a PHP value: `canonicalImage` is the parameter that
stands for it, `receivedImage` the one that arrives. The two are alike except
for booleans, which arrive as the numbers 0 and 1, so that a value arrives as
its canonical image exactly if there is no boolean in it (`received_iff`).

Both are one recursion over the value. Encoder and decoder meet in the object
that is written: `zvalObj_within` says that the unpacker lets it through and
`msgpackToParam_zvalObj` what becomes of it.
-/

namespace DdAppsec.Protocol

open Lib Lib.MsgPack Extension

/-! ## Images -/

/-- The keys are 0, 1, 2 and so on, in this order. -/
def KeysInOrder (entries : HashTable) : Prop :=
  entries.map Prod.fst = (List.range entries.length).map fun i => Key.int (Int64.ofNat i)

instance (entries : HashTable) : Decidable (KeysInOrder entries) :=
  inferInstanceAs (Decidable (_ = _))

section Image

variable (boolean : Bool → Helper.Parameter)

mutual

/-- The parameter for a value, given the one for a boolean. -/
def image : Zval → Helper.Parameter
  | .undef | .null | .other => .null
  | .boolean b => boolean b
  | .long i => if 0 ≤ i.toInt then .uint64 i.toInt.toNat else .int64 i.toInt
  | .double bits => .float64 (Float.ofBits bits)
  | .string s => .string s
  | .array entries =>
    if KeysInOrder entries then .array (imageVals entries) else .map (imageKeyVals entries)
  | .reference referent => image referent

def imageVals : List (Key × Zval) → List Helper.Parameter
  | [] => []
  | (_, z) :: rest => image z :: imageVals rest

def imageKeyVals : List (Key × Zval) → List (Bytes × Helper.Parameter)
  | [] => []
  | (k, z) :: rest => (k.text, image z) :: imageKeyVals rest

end

end Image

def canonicalImage : Zval → Helper.Parameter := image .boolean

/-- A boolean that was written as an `int`. -/
def booleanNumber (b : Bool) : Helper.Parameter := .uint64 (if b then 1 else 0)

def receivedImage : Zval → Helper.Parameter := image booleanNumber

/-! ## Values within the limits -/

def KeyFits : Key → Prop
  | .str s => s.length ≤ 4096
  | .int _ => True

mutual

/-- Null, booleans, integers, strings, references and arrays, with the sizes
that the helper accepts. -/
def Fits : Zval → Prop
  | .null | .boolean _ | .long _ => True
  | .string s => s.length ≤ 4096
  | .array entries => entries.length ≤ 256 ∧ FitsEntries entries
  | .reference referent => Fits referent
  | .undef | .double _ | .other => False

def FitsEntries : List (Key × Zval) → Prop
  | [] => True
  | (k, z) :: rest => KeyFits k ∧ Fits z ∧ FitsEntries rest

end

mutual

/-- How many arrays are inside of each other. -/
def nesting : Zval → Nat
  | .array entries => nestingEntries entries + 1
  | .reference referent => nesting referent
  | .undef | .null | .boolean _ | .long _ | .double _ | .string _ | .other => 0

def nestingEntries : List (Key × Zval) → Nat
  | [] => 0
  | (_, z) :: rest => max (nesting z) (nestingEntries rest)

end

mutual

def NoBooleans : Zval → Prop
  | .boolean _ => False
  | .array entries => NoBooleansIn entries
  | .reference referent => NoBooleans referent
  | .undef | .null | .long _ | .double _ | .string _ | .other => True

def NoBooleansIn : List (Key × Zval) → Prop
  | [] => True
  | (_, z) :: rest => NoBooleans z ∧ NoBooleansIn rest

end

/-! ## What is written -/

/-- The loop of `dd_php_determine_array_type` compares the keys with their
places. -/
theorem arrayTypeFrom_iff (n : Nat) (entries : HashTable) :
    arrayTypeFrom (UInt64.ofNat n) entries = .sequential ↔
      entries.map Prod.fst =
        (List.range' n entries.length).map fun i => Key.int (Int64.ofNat i) := by
  induction entries generalizing n with
  | nil => simp [arrayTypeFrom]
  | cons e entries ih =>
    obtain ⟨k, z⟩ := e
    cases k with
    | str s => simp [arrayTypeFrom, List.range'_succ]
    | int k =>
      have hkey : k.toUInt64 = UInt64.ofNat n ↔ k = Int64.ofNat n := by
        constructor
        · intro h
          rw [← Int64.toInt64_toUInt64 k, h]
          rfl
        · rintro rfl
          rfl
      have hnext : UInt64.ofNat n + 1 = UInt64.ofNat (n + 1) := by simp
      simp only [arrayTypeFrom, List.map_cons, List.length_cons, List.range'_succ, List.cons.injEq,
        Key.int.injEq, hnext, ← ih, ne_eq, ite_not, hkey]
      by_cases hk : k = Int64.ofNat n <;> simp [hk]

theorem determineArrayType_iff (entries : HashTable) :
    determineArrayType entries = .sequential ↔ KeysInOrder entries := by
  have h := arrayTypeFrom_iff 0 entries
  rw [← List.range_eq_range'] at h
  exact h

theorem length_intToString (i : Int64) : (intToString i.toInt).length ≤ 20 := by
  have hlow := i.le_toInt
  have hhigh := i.toInt_lt
  have hdigits : ∀ n : Nat, n < 10 ^ 19 → (n.repr.toList).length ≤ 19 := by
    intro n hn
    rw [Nat.toList_repr]
    exact (Nat.length_toDigits_le_iff (by decide) (by decide)).mpr hn
  rw [intToString, Bytes.ofString, List.length_map, Int.toString_eq_repr, Int.repr_eq_if]
  split
  · exact Nat.le_succ_of_le (hdigits _ (by omega))
  · rw [String.toList_append, List.length_append]
    exact Nat.add_comm _ _ ▸ Nat.succ_le_succ (hdigits _ (by omega))

theorem length_keyText {k : Key} (h : KeyFits k) : k.text.length ≤ 4096 := by
  cases k with
  | str s => exact h
  | int i => exact Nat.le_trans (length_intToString i) (by decide)

theorem strObj_of_fits {s : Bytes} (h : s.length ≤ 4096) : strObj s = .str s := by
  rw [strObj, Nat.mod_eq_of_lt (by omega), List.take_length]

theorem strObj_within {s : Bytes} (h : s.length ≤ 4096) (depth : Nat) :
    (strObj s).within Helper.brokerLimits depth = true := by
  rw [strObj_of_fits h, Obj.within]
  exact decide_eq_true h

mutual

theorem Fits.valid (z : Zval) (h : Fits z) : z.Valid := by
  match z with
  | .null | .boolean _ | .long _ | .string _ => exact trivial
  | .reference referent => exact Fits.valid referent h
  | .array entries =>
    have hlength : entries.length ≤ 256 := h.1
    exact ⟨by omega, FitsEntries.valid entries h.2⟩

theorem FitsEntries.valid (entries : List (Key × Zval)) (h : FitsEntries entries) :
    ValidTable entries := by
  match entries with
  | [] => exact trivial
  | (_, z) :: rest => exact ⟨Fits.valid z h.2.1, FitsEntries.valid rest h.2.2⟩

end

mutual

/-- The unpacker of the broker lets the value through. -/
theorem zvalObj_within (z : Zval) (h : Fits z) {depth : Nat} (hdepth : nesting z ≤ depth) :
    (zvalObj z).within Helper.brokerLimits depth = true := by
  match z with
  | .null | .boolean _ | .long _ => rfl
  | .string s => exact strObj_within h depth
  | .reference referent => exact zvalObj_within referent h hdepth
  | .array entries =>
    rw [nesting] at hdepth
    have hpositive : 0 < depth := by omega
    have hinner : nestingEntries entries ≤ depth - 1 := by omega
    have harray : entries.length ≤ Helper.brokerLimits.array := h.1
    have hmap : entries.length ≤ Helper.brokerLimits.map := h.1
    rw [zvalObj]
    cases determineArrayType entries with
    | sequential => simp [Obj.within, harray, hpositive, valObjs_within entries h.2 hinner]
    | associative => simp [Obj.within, hmap, hpositive, keyValObjs_within entries h.2 hinner]

theorem valObjs_within (entries : List (Key × Zval)) (h : FitsEntries entries) {depth : Nat}
    (hdepth : nestingEntries entries ≤ depth) :
    withinItems Helper.brokerLimits depth (valObjs entries) = true := by
  match entries with
  | [] => rfl
  | (_, z) :: rest =>
    rw [nestingEntries] at hdepth
    have hz := zvalObj_within z h.2.1 (Nat.le_trans (Nat.le_max_left _ _) hdepth)
    have hrest := valObjs_within rest h.2.2 (Nat.le_trans (Nat.le_max_right _ _) hdepth)
    rw [valObjs, withinItems, hrest, Bool.and_true]
    exact hz

theorem keyValObjs_within (entries : List (Key × Zval)) (h : FitsEntries entries) {depth : Nat}
    (hdepth : nestingEntries entries ≤ depth) :
    withinEntries Helper.brokerLimits depth (keyValObjs entries) = true := by
  match entries with
  | [] => rfl
  | (k, z) :: rest =>
    rw [nestingEntries] at hdepth
    have hk := strObj_within (length_keyText h.1) depth
    have hz := zvalObj_within z h.2.1 (Nat.le_trans (Nat.le_max_left _ _) hdepth)
    have hrest := keyValObjs_within rest h.2.2 (Nat.le_trans (Nat.le_max_right _ _) hdepth)
    rw [keyValObjs, withinEntries, hrest, Bool.and_true]
    exact Bool.and_eq_true_iff.mpr ⟨hk, hz⟩

end

/-! ## What is read -/

theorem belowDepth_of_lt {depth : Nat} (h : depth < 20) (p : Option Helper.Parameter) :
    Helper.belowDepth depth p = p := if_neg (Nat.not_le_of_lt h)

mutual

/-- **Encoder and decoder meet**: the object that is written becomes the
parameter with numbers for booleans. -/
theorem msgpackToParam_zvalObj (z : Zval) (h : Fits z) {depth : Nat}
    (hdepth : depth + nesting z < 20) :
    Helper.msgpackToParam depth (zvalObj z) = some (receivedImage z) := by
  match z with
  | .null => exact belowDepth_of_lt hdepth _
  | .boolean b =>
    cases b with
    | false => exact belowDepth_of_lt hdepth _
    | true => exact belowDepth_of_lt hdepth _
  | .long i => exact belowDepth_of_lt hdepth _
  | .string s =>
    rw [zvalObj, strObj_of_fits h]
    exact belowDepth_of_lt hdepth _
  | .reference referent => exact msgpackToParam_zvalObj referent h hdepth
  | .array entries =>
    rw [nesting] at hdepth
    have hdeep : depth + 1 + nestingEntries entries < 20 := by omega
    rw [zvalObj, receivedImage, image]
    cases htype : determineArrayType entries with
    | sequential =>
      rw [if_pos ((determineArrayType_iff entries).mp htype)]
      dsimp only
      rw [Helper.msgpackToParam, belowDepth_of_lt (by omega),
        msgpackToItems_valObjs entries h.2 hdeep]
      rfl
    | associative =>
      have hkeys : ¬ KeysInOrder entries := by
        rw [← determineArrayType_iff, htype]
        decide
      rw [if_neg hkeys]
      dsimp only
      rw [Helper.msgpackToParam, belowDepth_of_lt (by omega),
        msgpackToEntries_keyValObjs entries h.2 hdeep]
      rfl

theorem msgpackToItems_valObjs (entries : List (Key × Zval)) (h : FitsEntries entries)
    {depth : Nat} (hdepth : depth + nestingEntries entries < 20) :
    Helper.msgpackToItems depth (valObjs entries) =
      some (imageVals booleanNumber entries) := by
  match entries with
  | [] => rfl
  | (_, z) :: rest =>
    rw [nestingEntries] at hdepth
    rw [valObjs, Helper.msgpackToItems, msgpackToParam_zvalObj z h.2.1 (by omega),
      msgpackToItems_valObjs rest h.2.2 (by omega)]
    rfl

theorem msgpackToEntries_keyValObjs (entries : List (Key × Zval)) (h : FitsEntries entries)
    {depth : Nat} (hdepth : depth + nestingEntries entries < 20) :
    Helper.msgpackToEntries depth (keyValObjs entries) =
      some (imageKeyVals booleanNumber entries) := by
  match entries with
  | [] => rfl
  | (k, z) :: rest =>
    rw [nestingEntries] at hdepth
    rw [keyValObjs, strObj_of_fits (length_keyText h.1), Helper.msgpackToEntries,
      msgpackToParam_zvalObj z h.2.1 (by omega), msgpackToEntries_keyValObjs rest h.2.2 (by omega)]
    rfl

end

mutual

/-- The two images part at a boolean, wherever it is. -/
theorem receivedImage_eq_iff (z : Zval) : receivedImage z = canonicalImage z ↔ NoBooleans z := by
  match z with
  | .undef | .null | .other | .double _ | .long _ | .string _ => exact iff_of_true rfl trivial
  | .boolean b => exact iff_of_false (fun h => by cases h) id
  | .reference referent => exact receivedImage_eq_iff referent
  | .array entries =>
    rw [receivedImage, canonicalImage, image, image, NoBooleans]
    by_cases hkeys : KeysInOrder entries
    · rw [if_pos hkeys, if_pos hkeys, Helper.Parameter.array.injEq]
      exact imageVals_eq_iff entries
    · rw [if_neg hkeys, if_neg hkeys, Helper.Parameter.map.injEq]
      exact imageKeyVals_eq_iff entries

theorem imageVals_eq_iff (entries : List (Key × Zval)) :
    imageVals booleanNumber entries = imageVals .boolean entries ↔
      NoBooleansIn entries := by
  match entries with
  | [] => exact iff_of_true rfl trivial
  | (_, z) :: rest =>
    rw [imageVals, imageVals, List.cons.injEq, NoBooleansIn]
    exact and_congr (receivedImage_eq_iff z) (imageVals_eq_iff rest)

theorem imageKeyVals_eq_iff (entries : List (Key × Zval)) :
    imageKeyVals booleanNumber entries =
      imageKeyVals .boolean entries ↔ NoBooleansIn entries := by
  match entries with
  | [] => exact iff_of_true rfl trivial
  | (k, z) :: rest =>
    rw [imageKeyVals, imageKeyVals, List.cons.injEq, NoBooleansIn, Prod.mk.injEq]
    exact and_congr ((and_iff_right rfl).trans (receivedImage_eq_iff z)) (imageKeyVals_eq_iff rest)

end

/-! ## Both ends -/

section Ends

variable {codec : Codec} {z : Zval}

theorem commandBody_eq (hc : codec.Conforms) (hz : z.Valid) :
    commandBody codec "request_exec" [writeZval codec z] =
      (Obj.array [strObj "request_exec", .array [zvalObj z]]).encode := by
  have hone : (Head.array 1).Valid := by decide
  have htwo : (Head.array 2).Valid := by decide
  rw [commandBody, List.length_singleton, hc.write_eq _ hone, hc.write_eq _ htwo,
    writeStr_eq hc, writeZval_eq hc z hz]
  simp [Obj.encode, encodeItems]

/-- The bytes of a value, unpacked and converted at some depth. -/
def decodeParam (codec : Codec) (depth : Nat) (bytes : Bytes) : Option Helper.Parameter :=
  match codec.unpack Helper.brokerLimits Helper.maxDepth bytes with
  | .ok o => Helper.msgpackToParam depth o
  | .error _ => none

theorem decodeParam_writeZval (hc : codec.Conforms) (hfits : Fits z) {depth : Nat}
    (hdepth : depth + nesting z < 20) :
    decodeParam codec depth (writeZval codec z) = some (receivedImage z) := by
  have hvalid := Fits.valid z hfits
  have hwithin : (zvalObj z).within Helper.brokerLimits Helper.maxDepth = true :=
    zvalObj_within z hfits (by rw [Helper.maxDepth]; omega)
  rw [decodeParam, writeZval_eq hc z hvalid, hc.unpack_encode (zvalObj_valid z hvalid), hwithin]
  exact msgpackToParam_zvalObj z hfits hdepth

theorem unpackRequest_requestExec (hc : codec.Conforms) (hfits : Fits z) (hnest : nesting z < 20) :
    Helper.unpackRequest codec (commandBody codec "request_exec" [writeZval codec z]) =
      .request ⟨.requestExec, receivedImage z⟩ := by
  have hvalid := Fits.valid z hfits
  have hname : strObj "request_exec" = .str "request_exec" := strObj_of_fits (by decide)
  have hone : (Head.array 1).Valid := by decide
  have htwo : (Head.array 2).Valid := by decide
  have hobj : (Obj.array [strObj "request_exec", .array [zvalObj z]]).Valid :=
    ⟨htwo, strObj_valid _, ⟨hone, zvalObj_valid z hvalid, trivial⟩, trivial⟩
  have hwithin : (Obj.array [strObj "request_exec", .array [zvalObj z]]).within
      Helper.brokerLimits Helper.maxDepth = true := by
    have hz : (zvalObj z).within Helper.brokerLimits 30 = true :=
      zvalObj_within z hfits (by omega)
    have hstr := strObj_within (s := "request_exec") (by decide) 31
    have hlimit : 2 ≤ Helper.brokerLimits.array := by decide
    have hlimit' : 1 ≤ Helper.brokerLimits.array := by decide
    simp [Obj.within, withinItems, Helper.maxDepth, hz, hstr, hlimit, hlimit']
  have hrequest : Helper.asRequest (.array [strObj "request_exec", .array [zvalObj z]]) =
      some ⟨.requestExec, receivedImage z⟩ := by
    have hid : Helper.commandNameToId "request_exec" = .requestExec := by decide
    have hparam : Helper.msgpackToRequest (.array [zvalObj z]) = receivedImage z := by
      rw [Helper.msgpackToRequest, msgpackToParam_zvalObj z hfits (by omega)]
      rfl
    rw [hname]
    unfold Helper.asRequest
    dsimp only
    rw [hid, hparam]
  rw [Helper.unpackRequest, commandBody_eq hc hvalid, hc.unpack_encode hobj, hwithin]
  simp [hrequest]

/-- **A value arrives as its canonical image exactly if there is no boolean in
it.** Its bytes may stand anywhere in a parameter; as the data of a
`request_exec` it is the whole parameter. -/
theorem received_iff (hc : codec.Conforms) (hfits : Fits z) :
    (∀ depth, depth + nesting z < 20 →
      (decodeParam codec depth (writeZval codec z) = some (canonicalImage z) ↔ NoBooleans z)) ∧
    (∀ body s more, nesting z < 20 → requestExec codec z = some body →
      body.length < Helper.maxMsgBodySize → s.unread = connSendv body ++ more →
      s.Prompt (connSendv body).length →
      ((Helper.recv codec s).1 = .request ⟨.requestExec, canonicalImage z⟩ ↔ NoBooleans z)) := by
  constructor
  · intro depth hdepth
    rw [decodeParam_writeZval hc hfits hdepth, Option.some.injEq, receivedImage_eq_iff]
  · intro body s more hnest hbody hlength hs hprompt
    obtain rfl : body = commandBody codec "request_exec" [writeZval codec z] := by
      cases z with
      | array entries => exact (Option.some.inj hbody).symm
      | _ => cases hbody
    have hsmall : (commandBody codec "request_exec" [writeZval codec z]).length < 65536 := hlength
    rw [recv_connSendv codec _ hs hprompt, Nat.mod_eq_of_lt (by omega),
      if_neg (Nat.not_le_of_lt hlength), List.take_length, unpackRequest_requestExec hc hfits hnest]
    simp [receivedImage_eq_iff]

/-- `['user' => 'bob', 7 => [...]]`. -/
def userData (inner : HashTable) : Zval :=
  .array [(.str "user", .string "bob"), (.int 7, .array inner)]

theorem userData_fits {z : Zval} (h : Fits z) : Fits (userData [(.int 0, z)]) := by
  simp [Fits, FitsEntries, KeyFits, userData, Bytes.ofString, h]

def userDataBody : Bytes :=
  commandBody Codec.format "request_exec"
    [writeZval Codec.format (userData [(.int 0, .long (-2))])]

theorem user_data_received :
    decodeParam Codec.format 3 (writeZval Codec.format (userData [(.int 0, .long (-2))])) =
        some (canonicalImage (userData [(.int 0, .long (-2))])) ∧
      (Helper.recv Codec.format (.holding (connSendv userDataBody))).1 =
        .request ⟨.requestExec, canonicalImage (userData [(.int 0, .long (-2))])⟩ := by
  have hreceived := received_iff Codec.format_conforms (userData_fits (z := .long (-2)) trivial)
  have hfree : NoBooleans (userData [(.int 0, .long (-2))]) := by
    simp [NoBooleans, NoBooleansIn, userData]
  exact ⟨(hreceived.1 3 (by decide)).mpr hfree,
    (hreceived.2 userDataBody (.holding (connSendv userDataBody)) [] (by decide) rfl
      (by decide +kernel) (List.append_nil _).symm (Helper.Socket.holding_prompt _)).mpr hfree⟩

/-- `true` arrives as the number 1. -/
theorem true_received_as_number :
    decodeParam Codec.format 0 (writeZval Codec.format (userData [(.int 0, .boolean true)])) =
        some (.map [("user", .string "bob"), ("7", .array [.uint64 1])]) ∧
      canonicalImage (userData [(.int 0, .boolean true)]) =
        .map [("user", .string "bob"), ("7", .array [.boolean true])] ∧
      decodeParam Codec.format 0 (writeZval Codec.format (userData [(.int 0, .boolean true)])) ≠
        some (canonicalImage (userData [(.int 0, .boolean true)])) := by
  have hdecoded := decodeParam_writeZval Codec.format_conforms
    (userData_fits (z := .boolean true) trivial) (show 0 + nesting _ < 20 by decide)
  refine ⟨hdecoded, rfl, ?_⟩
  rw [hdecoded, Ne, Option.some.injEq, receivedImage_eq_iff]
  simp [NoBooleans, NoBooleansIn, userData]

end Ends

end DdAppsec.Protocol
