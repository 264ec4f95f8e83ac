import DdAppsec.Lib.MsgPack

/-!
# Lib — reading a message node by node

A message that has been parsed into a tree is read a node at a time. A read that
does not fit the node, or an index outside it, puts the WHOLE TREE into an error
state: from then on every read fails and gives an empty value, whatever the
node. So a reader may go on without looking at each result and ask once, at the
end, whether the tree has failed.

Each operation takes the error state and gives it back beside the value.
-/

namespace DdAppsec.Lib.MsgPack

/-- Element `i` of an array. -/
def nodeArrayAt (o : Obj) (i : Nat) (failed : Bool) : Obj × Bool :=
  if failed then (.nil, true)
  else
    match o with
    | .array items =>
      match items[i]? with
      | some item => (item, false)
      | none => (.nil, true)
    | _ => (.nil, true)

/-- The elements of an array that a loop visits, which asks for their number
first. -/
def nodeArrayItems (o : Obj) (failed : Bool) : List Obj × Bool :=
  if failed then ([], true)
  else
    match o with
    | .array items => (items, false)
    | _ => ([], true)

/-- The entries of a map that a loop visits. -/
def nodeMapEntries (o : Obj) (failed : Bool) : List (Obj × Obj) × Bool :=
  if failed then ([], true)
  else
    match o with
    | .map entries => (entries, false)
    | _ => ([], true)

/-- Whether a string is the given one. The empty string is not asked for. -/
def nodeStrEq (o : Obj) (s : Bytes) (failed : Bool) : Bool × Bool :=
  if failed then (false, true)
  else
    match o with
    | .str s' => (decide (s' = s), false)
    | _ => (false, true)

/-! ## Once the tree has failed -/

section Failed

variable (o : Obj)

@[simp] theorem nodeArrayAt_failed (i : Nat) : nodeArrayAt o i true = (.nil, true) := rfl

@[simp] theorem nodeArrayItems_failed : nodeArrayItems o true = ([], true) := rfl

@[simp] theorem nodeMapEntries_failed : nodeMapEntries o true = ([], true) := rfl

@[simp] theorem nodeStrEq_failed (s : Bytes) : nodeStrEq o s true = (false, true) := rfl

end Failed

/-! ## Reads that succeed -/

@[simp] theorem nodeArrayAt_array (items : List Obj) (i : Nat) :
    nodeArrayAt (.array items) i false =
      (items[i]?.getD .nil, items[i]?.isNone) := by
  rw [nodeArrayAt, if_neg (by decide)]
  cases items[i]? <;> rfl

@[simp] theorem nodeArrayItems_array (items : List Obj) :
    nodeArrayItems (.array items) false = (items, false) := rfl

@[simp] theorem nodeMapEntries_map (entries : List (Obj × Obj)) :
    nodeMapEntries (.map entries) false = (entries, false) := rfl

@[simp] theorem nodeStrEq_str (s s' : Bytes) :
    nodeStrEq (.str s') s false = (decide (s' = s), false) := rfl

end DdAppsec.Lib.MsgPack
