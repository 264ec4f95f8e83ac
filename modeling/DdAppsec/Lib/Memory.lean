import DdAppsec.Lib.Bytes

/-!
# Lib — memory

Memory as C sees it: an address is a number, and every address holds a byte.
`write` and `read` move blocks of bytes. A block that was written is read
back as it is, part by part (`read_add`), and a write changes nothing outside
its block (`write_outside`). A C string is a block that ends in its first NUL
(`CString`).
-/

namespace DdAppsec.Lib

abbrev Memory := Nat → UInt8

/-- `bytes` stored from `p` on. -/
def Memory.write (mem : Memory) (p : Nat) (bytes : Bytes) : Memory :=
  fun a => if p ≤ a then bytes.getD (a - p) (mem a) else mem a

/-- The `n` bytes from `p` on. -/
def Memory.read (mem : Memory) (p n : Nat) : Bytes :=
  (List.range n).map fun i => mem (p + i)

namespace Memory

variable {mem mem' : Memory} {p q a n : Nat} {bytes : Bytes}

theorem write_outside (h : a < p ∨ p + bytes.length ≤ a) : mem.write p bytes a = mem a := by
  unfold write
  split
  · rw [List.getD_eq_getElem?_getD, List.getElem?_eq_none (by omega), Option.getD_none]
  · rfl

@[simp] theorem write_nil : mem.write p [] = mem := by
  funext a
  exact write_outside (by simp only [List.length_nil]; omega)

@[simp] theorem length_read : (mem.read p n).length = n := by
  rw [read, List.length_map, List.length_range]

/-- What is read depends on the block only. -/
theorem read_congr (h : ∀ a, p ≤ a → a < p + n → mem a = mem' a) :
    mem.read p n = mem'.read p n := by
  refine List.map_congr_left fun i hi => ?_
  have hi := List.mem_range.mp hi
  exact h (p + i) (by omega) (by omega)

theorem read_add (mem : Memory) (p m n : Nat) :
    mem.read p (m + n) = mem.read p m ++ mem.read (p + m) n := by
  simp only [read, List.range_add, List.map_append, List.map_map, Function.comp_def,
    Nat.add_assoc]

/-- A block that was written is read back. -/
@[simp] theorem read_write : (mem.write p bytes).read p bytes.length = bytes := by
  apply List.ext_getElem length_read
  intro i hi hi'
  simp [read, write, hi']

/-- A write behind the block is not seen in it. -/
theorem read_write_behind (h : p + n ≤ q) : (mem.write q bytes).read p n = mem.read p n :=
  read_congr fun _ _ ha => write_outside (Or.inl (by omega))

/-- A block grown at its end. -/
theorem read_write_append (mem : Memory) (bytes : Bytes) (h : q = p + n) :
    (mem.write q bytes).read p (n + bytes.length) = mem.read p n ++ bytes := by
  subst h
  rw [read_add, read_write_behind (Nat.le_refl _), read_write]

end Memory

/-! ## C strings -/

/-- The text of a C string. -/
abbrev CText := { text : Bytes // 0 ∉ text }

/-- At `p` there is a C string with this text. -/
structure CString (mem : Memory) (p : Nat) (text : Bytes) : Prop where
  block : mem.read p (text.length + 1) = text ++ [0]
  text : 0 ∉ text

/-- A C string stays while its block does. -/
theorem CString.congr {mem mem' : Memory} {p : Nat} {text : Bytes} (h : CString mem p text)
    (hmem : ∀ a, p ≤ a → a ≤ p + text.length → mem' a = mem a) : CString mem' p text :=
  ⟨(Memory.read_congr fun a hp ha => hmem a hp (by omega)).trans h.block, h.text⟩

/-- A NUL behind a block makes it a C string. -/
theorem CString.write_nul {mem : Memory} {p : Nat} {text : Bytes}
    (hblock : mem.read p text.length = text) (htext : 0 ∉ text) :
    CString (mem.write (p + text.length) [0]) p text := by
  refine ⟨?_, htext⟩
  have hread := Memory.read_write_append mem [0] (rfl : p + text.length = p + text.length)
  rwa [hblock] at hread

end DdAppsec.Lib
