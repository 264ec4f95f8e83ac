import DdAppsec.Lib.Assignments
import DdAppsec.Lib.MsgPack

/-!
# Lib — converting a message to a record

An object becomes a record member by member, and every conversion may refuse.
A record that is sent as an array is read by place (`convertArray`): what is
missing at the end keeps its value. One that is sent as a map is read by name
(`convertMap`): a name that is missing keeps its value, and names that nobody
asked for are ignored.

`convertMap_named` says that with names of their own the two are the same.
-/

namespace DdAppsec.Lib.MsgPack

/-! ## Values -/

def asString : Obj → Option Bytes
  | .str s => some s
  | _ => none

def asBool : Obj → Option Bool
  | .boolean b => some b
  | _ => none

/-- A number of an unsigned type whose largest one is `max`. -/
def asUnsigned (max : Nat) : Obj → Option Nat
  | .int i => if 0 ≤ i ∧ i ≤ max then some i.toNat else none
  | _ => none

/-- The bits of a `double`; an integer is converted. -/
def asDouble : Obj → Option UInt64
  | .double bits => some bits
  | .int i => some (Float.ofInt i).toBits
  | _ => none

section Generic

variable {α σ : Type}

def asOptional (conv : Obj → Option α) : Obj → Option (Option α)
  | .nil => some none
  | o => (conv o).map some

def allOf (conv : Obj → Option α) : List Obj → Option (List α)
  | [] => some []
  | o :: items => (conv o).bind fun a => (allOf conv items).map (a :: ·)

def asVector (conv : Obj → Option α) : Obj → Option (List α)
  | .array items => allOf conv items
  | _ => none

theorem allOf_map {conv : Obj → Option α} {obj : α → Obj} {list : List α}
    (h : ∀ a ∈ list, conv (obj a) = some a) : allOf conv (list.map obj) = some list := by
  induction list with
  | nil => rfl
  | cons a list ih =>
    rw [List.map_cons, allOf, h a List.mem_cons_self,
      ih fun b hb => h b (List.mem_cons_of_mem a hb)]
    rfl

/-! ## Members -/

/-- How a member is read into a record. -/
abbrev Setter (σ : Type) := σ → Obj → Option σ

def setting (conv : Obj → Option α) (put : σ → α → σ) : Setter σ :=
  fun s o => (conv o).map (put s)

def convertItems : List (Setter σ) → List Obj → σ → Option σ
  | set :: sets, o :: items, s => (set s o).bind (convertItems sets items)
  | _, _, s => some s

/-- A record that was sent as an array. -/
def convertArray (sets : List (Setter σ)) (o : Obj) (s : σ) : Option σ :=
  match o with
  | .array items => convertItems sets items s
  | _ => none

/-- The entries of a map by name; a key of another kind is refused. -/
def namedEntries : List (Obj × Obj) → Option (List (Bytes × Obj))
  | [] => some []
  | (k, o) :: entries => (asString k).bind fun name => (namedEntries entries).map ((name, o) :: ·)

/-- The members in the order of the record. Of a name that comes twice the
first entry counts. -/
def convertNamed (named : List (Bytes × Obj)) : List (Bytes × Setter σ) → σ → Option σ
  | [], s => some s
  | (name, set) :: sets, s =>
    match firstValue name named with
    | some o => (set s o).bind (convertNamed named sets)
    | none => convertNamed named sets s

/-- A record that was sent as a map. -/
def convertMap (sets : List (Bytes × Setter σ)) (o : Obj) (s : σ) : Option σ :=
  match o with
  | .map entries => (namedEntries entries).bind fun named => convertNamed named sets s
  | _ => none

/-! ## Maps as arrays -/

theorem namedEntries_strings (named : List (Bytes × Obj)) :
    namedEntries (named.map fun e => (.str e.1, e.2)) = some named := by
  induction named with
  | nil => rfl
  | cons e named ih => rw [List.map_cons, namedEntries, ih]; rfl

/-- The first entry of a name is the only one. -/
theorem firstValue_of_nodup {list : List (Bytes × α)} (hnd : (list.map Prod.fst).Nodup)
    {e : Bytes × α} (h : e ∈ list) : firstValue e.1 list = some e.2 := by
  induction list with
  | nil => cases h
  | cons first list ih =>
    rw [List.map_cons, List.nodup_cons] at hnd
    rw [firstValue_cons]
    rcases List.mem_cons.mp h with rfl | hmem
    · rw [if_pos rfl]
    · have hother : first.1 ≠ e.1 := fun heq => hnd.1 (heq ▸ List.mem_map_of_mem hmem)
      rw [if_neg hother, ih hnd.2 hmem]

theorem convertNamed_eq {named : List (Bytes × Obj)} (hnd : (named.map Prod.fst).Nodup)
    {sets : List (Bytes × Setter σ)} {entries : List (Bytes × Obj)}
    (hnames : sets.map Prod.fst = entries.map Prod.fst) (h : ∀ e ∈ entries, e ∈ named) (s : σ) :
    convertNamed named sets s = convertItems (sets.map Prod.snd) (entries.map Prod.snd) s := by
  -- both lists at once, as they have the same names
  induction sets generalizing entries s with
  | nil => cases entries <;> rfl
  | cons set sets ih =>
    cases entries with
    | nil => cases hnames
    | cons e entries =>
      obtain ⟨hname, hnames⟩ := List.cons.inj hnames
      have hfirst : firstValue set.1 named = some e.2 :=
        hname ▸ firstValue_of_nodup hnd (h e List.mem_cons_self)
      simp only [List.map_cons, convertNamed, hfirst, convertItems]
      cases set.2 s e.2 with
      | none => rfl
      | some s => exact ih hnames (fun e' he' => h e' (List.mem_cons_of_mem e he')) s

/-- **By name is by place**, if every name is there once, in whatever order the
entries were sent. -/
theorem convertMap_named {sets : List (Bytes × Setter σ)} {entries sent : List (Bytes × Obj)}
    (hnames : sets.map Prod.fst = entries.map Prod.fst) (hnd : (sets.map Prod.fst).Nodup)
    (hperm : sent.Perm entries) (s : σ) :
    convertMap sets (.map (sent.map fun e => (.str e.1, e.2))) s =
      convertItems (sets.map Prod.snd) (entries.map Prod.snd) s := by
  have hkeys : (sent.map Prod.fst).Nodup := (hperm.map Prod.fst).nodup_iff.mpr (hnames ▸ hnd)
  rw [convertMap, namedEntries_strings, Option.bind_some]
  exact convertNamed_eq hkeys hnames (fun e he => hperm.mem_iff.mpr he) s

end Generic

end DdAppsec.Lib.MsgPack
