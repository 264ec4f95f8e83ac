import DdAppsec.Lib.ForEach

/-!
# Lib — maps merged by key

A loop that inserts the entries of one map into another and COMBINES the
values where a key is taken computes, at each key, `optJoin` of the two
lookups (`foldl_join`). The order in which the entries come plays no part,
and the order in which several maps are merged plays none where the
combination commutes on the values at hand (`optJoin_right_comm`).

Seen from one key, several such maps are groups of values: each is combined by
itself first, and then with the ones before it. What a combination keeps for
any two collections of values it keeps for all of them, however they are
grouped (`joinGroups_induct`).
-/

namespace DdAppsec.Lib

variable {α β : Type}

/-- What a merge leaves under a key. -/
def optJoin (f : α → α → α) : Option α → Option α → Option α
  | none, b => b
  | some a, none => some a
  | some a, some b => some (f a b)

@[simp] theorem optJoin_none_left (f : α → α → α) (b : Option α) : optJoin f none b = b := rfl

@[simp] theorem optJoin_none_right (f : α → α → α) (a : Option α) : optJoin f a none = a := by
  cases a <;> rfl

@[simp] theorem optJoin_some (f : α → α → α) (a b : α) :
    optJoin f (some a) (some b) = some (f a b) := rfl

theorem optJoin_comm {f : α → α → α} {a b : Option α}
    (h : ∀ x y, a = some x → b = some y → f x y = f y x) : optJoin f a b = optJoin f b a := by
  cases a with
  | none => simp
  | some x =>
    cases b with
    | none => simp
    | some y => rw [optJoin_some, optJoin_some, h x y rfl rfl]

/-- **Swap rule**: two values are merged into a third in either order. -/
theorem optJoin_right_comm {f : α → α → α} {a b : Option α}
    (hcomm : ∀ x y, a = some x → b = some y → f x y = f y x)
    (hright : ∀ z x y, a = some x → b = some y → f (f z x) y = f (f z y) x) (z : Option α) :
    optJoin f (optJoin f z a) b = optJoin f (optJoin f z b) a := by
  cases z with
  | none => exact optJoin_comm hcomm
  | some z =>
    cases a with
    | none => simp
    | some x =>
      cases b with
      | none => simp
      | some y =>
        simp only [optJoin_some]
        rw [hright z x y rfl rfl]

/-- **Merge rule**: a loop over the entries of `m` whose body combines at the
entry's key, with `look` for the lookups in what it builds. -/
theorem foldl_join (ord : IterOrder) (f : α → α → α) (look : β → Bytes → Option α)
    {step : β → Bytes × α → β} {m : StringMap α}
    (hstep : ∀ acc k v, m[k]? = some v → ∀ k', look (step acc (k, v)) k' =
      if k = k' then optJoin f (look acc k) (some v) else look acc k') (acc : β) (k : Bytes) :
    look ((ord.entries m).foldl step acc) k = optJoin f (look acc k) m[k]? := by
  refine entries_foldl_invariant ord
    (fun done b => look b k = optJoin f (look acc k) done[k]?) ?_ ?_
  · simp
  · intro done key v b hv hd hP
    rw [hstep b key v hv, StringMap.getElem?_insert]
    by_cases hk : key = k
    · -- the one entry of this key: nothing has been merged under it yet
      subst hk
      rw [hd, optJoin_none_right] at hP
      rw [if_pos rfl, if_pos rfl, hP]
    · rw [if_neg hk, if_neg hk, hP]

/-- `merge` of the standard containers: the entries whose key is not taken. -/
def StringMap.merge (m source : StringMap α) : StringMap α :=
  (IterOrder.sorted.entries source).foldl (fun acc kv => acc.insertIfNew kv.1 kv.2) m

theorem StringMap.getElem?_merge (m source : StringMap α) (k : Bytes) :
    (m.merge source)[k]? = m[k]?.or source[k]? := by
  have hjoin : (m.merge source)[k]? = optJoin (fun old _ => old) m[k]? source[k]? := by
    refine foldl_join .sorted (fun old _ => old) (fun m k => m[k]?) ?_ m k
    intro acc key v _ k'
    show (acc.insertIfNew key v)[k']? = if key = k' then optJoin _ acc[key]? (some v) else acc[k']?
    rw [StringMap.getElem?_insertIfNew]
    by_cases hk : key = k'
    · subst hk
      cases acc[key]? <;> simp
    · simp [hk]
  rw [hjoin]
  cases m[k]? with
  | none => simp
  | some old => cases source[k]? <;> rfl

/-! ## Groups of values -/

theorem optJoin_map {f : α → α → α} {g : β → β → β} {h : α → β}
    (hom : ∀ x y, h (f x y) = g (h x) (h y)) (a b : Option α) :
    (optJoin f a b).map h = optJoin g (a.map h) (b.map h) := by
  cases a with
  | none => rfl
  | some x =>
    cases b with
    | none => rfl
    | some y => simp [hom]

/-- The values of a list combined into what is there. -/
def joinInto (f : α → α → α) (acc : Option α) (xs : List α) : Option α :=
  xs.foldl (fun acc x => optJoin f acc (some x)) acc

/-- Every group combined by itself, and with the ones before it. -/
def joinGroups (f : α → α → α) (groups : List (List α)) : Option α :=
  groups.foldl (fun acc group => optJoin f acc (joinInto f none group)) none

theorem joinInto_append (f : α → α → α) (acc : Option α) (xs ys : List α) :
    joinInto f acc (xs ++ ys) = joinInto f (joinInto f acc xs) ys :=
  List.foldl_append

/-- `R` of the values that were combined and what became of them. -/
def Joined (R : α → List α → Prop) (xs : List α) : Option α → Prop
  | none => xs = []
  | some r => R r xs

section Induct

variable {f : α → α → α} {R : α → List α → Prop}

theorem Joined.optJoin (hjoin : ∀ a b xs ys, R a xs → R b ys → R (f a b) (xs ++ ys))
    {xs ys : List α} {a b : Option α} (ha : Joined R xs a) (hb : Joined R ys b) :
    Joined R (xs ++ ys) (optJoin f a b) := by
  cases a with
  | none =>
    rw [show xs = [] from ha]
    exact hb
  | some a =>
    cases b with
    | none =>
      rw [show ys = [] from hb, List.append_nil]
      exact ha
    | some b => exact hjoin a b xs ys ha hb

theorem joinInto_induct (hone : ∀ x, R x [x])
    (hjoin : ∀ a b xs ys, R a xs → R b ys → R (f a b) (xs ++ ys)) (xs : List α) :
    Joined R xs (joinInto f none xs) := by
  have hgen : ∀ (done : List α) (acc : Option α), Joined R done acc →
      Joined R (done ++ xs) (joinInto f acc xs) := by
    induction xs with
    | nil => exact fun done acc h => by simpa [joinInto] using h
    | cons x xs ih =>
      intro done acc h
      have hx : Joined R [x] (some x) := hone x
      have hstep := ih (done ++ [x]) _ (h.optJoin hjoin hx)
      rwa [List.append_assoc, List.singleton_append] at hstep
  exact hgen [] none rfl

/-- **Grouping rule**: what holds of one value, and of any two collections
combined, holds of all the values in any grouping. -/
theorem joinGroups_induct (hone : ∀ x, R x [x])
    (hjoin : ∀ a b xs ys, R a xs → R b ys → R (f a b) (xs ++ ys)) (groups : List (List α)) :
    Joined R groups.flatten (joinGroups f groups) := by
  have hgen : ∀ (done : List α) (acc : Option α), Joined R done acc →
      Joined R (done ++ groups.flatten)
        (groups.foldl (fun acc group => optJoin f acc (joinInto f none group)) acc) := by
    induction groups with
    | nil => exact fun done acc h => by simpa using h
    | cons group groups ih =>
      intro done acc h
      have hstep := ih (done ++ group) _ (h.optJoin hjoin (joinInto_induct hone hjoin group))
      rwa [List.append_assoc, ← List.flatten_cons] at hstep
  exact hgen [] none rfl

end Induct

end DdAppsec.Lib
