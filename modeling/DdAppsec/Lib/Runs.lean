/-!
# Lib — runs of a step function

A component that takes inputs one at a time is a function
`step : S → I → Option S`; `none` means that the step did not succeed and
the run ends there. `run` iterates it over a list of inputs. Two ways of
speaking about EVERY step of a run are used throughout:

* `Along step C s is` — each step starts in a state and with an input
  that meet `C` (a condition on what the step is given);
* `Throughout step Q s is` — each step that succeeds relates the state
  before, the input and the state after by `Q` (what the step achieved).

The rules below carry an invariant through a run whose steps all meet a
condition.
-/

namespace DdAppsec.Lib

variable {S I : Type} {step : S → I → Option S}

/-- The state after all the inputs; `none` if some step did not succeed. -/
def run (step : S → I → Option S) : S → List I → Option S
  | s, [] => some s
  | s, i :: is => (step s i).bind fun s' => run step s' is

/-- Every step of the run is taken from a state and an input meeting `C`. -/
def Along (step : S → I → Option S) (C : S → I → Prop) : S → List I → Prop
  | _, [] => True
  | s, i :: is => C s i ∧ ∀ s', step s i = some s' → Along step C s' is

/-- Every successful step of the run satisfies `Q before input after`. -/
def Throughout (step : S → I → Option S) (Q : S → I → S → Prop) :
    S → List I → Prop
  | _, [] => True
  | s, i :: is => ∀ s', step s i = some s' → Q s i s' ∧ Throughout step Q s' is

theorem run_cons {s s' : S} {i : I} {is : List I} :
    run step s (i :: is) = some s' ↔
      ∃ s₁, step s i = some s₁ ∧ run step s₁ is = some s' := by
  simp only [run, Option.bind_eq_some_iff]

theorem run_append {s : S} (is js : List I) :
    run step s (is ++ js) = (run step s is).bind fun s' => run step s' js := by
  induction is generalizing s with
  | nil => rfl
  | cons i is ih =>
    rw [List.cons_append, run, run]
    cases step s i with
    | none => rfl
    | some s' => exact ih

/-- **Invariant rule**: what the first state has and every step that meets
`C` keeps, the last state has. -/
theorem run_invariant {C : S → I → Prop} (Inv : S → Prop)
    (hstep : ∀ s i s', Inv s → C s i → step s i = some s' → Inv s') :
    ∀ {is : List I} {s s' : S}, Inv s → Along step C s is →
      run step s is = some s' → Inv s' := by
  intro is
  induction is with
  | nil =>
    intro s s' h0 _ hrun
    cases hrun
    exact h0
  | cons i is ih =>
    intro s s' h0 hal hrun
    obtain ⟨s₁, h1, hrest⟩ := run_cons.mp hrun
    exact ih (hstep s i s₁ h0 hal.1 h1) (hal.2 s₁ h1) hrest

/-- A condition on the inputs alone. -/
theorem along_of_forall {C : I → Prop} {is : List I} (h : ∀ i ∈ is, C i) (s : S) :
    Along step (fun _ i => C i) s is := by
  induction is generalizing s with
  | nil => trivial
  | cons i is ih =>
    exact ⟨h i (by simp), fun s' _ => ih (fun j hj => h j (List.mem_cons_of_mem _ hj)) s'⟩

theorem along_true (s : S) (is : List I) : Along step (fun _ _ => True) s is :=
  along_of_forall (fun _ _ => trivial) s

/-- The invariant rule for steps that need no condition. -/
theorem run_preserves (Inv : S → Prop)
    (hstep : ∀ s i s', Inv s → step s i = some s' → Inv s') {is : List I} {s s' : S}
    (h0 : Inv s) (h : run step s is = some s') : Inv s' :=
  run_invariant Inv (fun s i s' hi _ hs => hstep s i s' hi hs) h0 (along_true s is) h

/-- **Completion rule**: a run whose steps all succeed under an invariant
and `C` comes to its end. -/
theorem run_completes {C : S → I → Prop} (Inv : S → Prop)
    (hstep : ∀ s i, Inv s → C s i → ∃ s', step s i = some s' ∧ Inv s') :
    ∀ {is : List I} {s : S}, Inv s → Along step C s is → ∃ s', run step s is = some s' := by
  intro is
  induction is with
  | nil => exact fun {s} _ _ => ⟨s, rfl⟩
  | cons i is ih =>
    intro s h0 hal
    obtain ⟨s₁, h1, hinv⟩ := hstep s i h0 hal.1
    obtain ⟨s', hrest⟩ := ih hinv (hal.2 s₁ h1)
    exact ⟨s', run_cons.mpr ⟨s₁, h1, hrest⟩⟩

/-- **Step-property rule**: under an invariant, what every step that meets
`C` achieves holds of every step of the run. -/
theorem throughout_of_invariant {C : S → I → Prop} {Q : S → I → S → Prop}
    (Inv : S → Prop)
    (hstep : ∀ s i s', Inv s → C s i → step s i = some s' → Inv s' ∧ Q s i s') :
    ∀ {is : List I} {s : S}, Inv s → Along step C s is →
      Throughout step Q s is := by
  intro is
  induction is with
  | nil =>
    intro s _ _
    trivial
  | cons i is ih =>
    intro s h0 hal s' h1
    obtain ⟨hinv, hq⟩ := hstep s i s' h0 hal.1 h1
    exact ⟨hq, ih hinv (hal.2 s' h1)⟩

/-- **Exactness rule**: with inputs that meet `P`, a step that meets `C` keeps
the invariant and achieves `Q`, and one that does not fails to. Then `C` along
the run is what `Q` throughout it takes. -/
theorem throughout_iff_along {C : S → I → Prop} {P : I → Prop} {Q : S → I → S → Prop}
    (Inv : S → Prop)
    (hkeeps : ∀ s i s', Inv s → P i → C s i → step s i = some s' → Inv s' ∧ Q s i s')
    (hbreaks : ∀ s i, Inv s → P i → ¬ C s i → ∃ s', step s i = some s' ∧ ¬ Q s i s') :
    ∀ {is : List I} {s : S}, Inv s → (∀ i ∈ is, P i) →
      (Throughout step Q s is ↔ Along step C s is) := by
  intro is
  induction is with
  | nil => exact fun _ _ => Iff.rfl
  | cons i is ih =>
    intro s h hP
    have hi := hP i (by simp)
    have hrest := fun j hj => hP j (List.mem_cons_of_mem _ hj)
    by_cases hC : C s i
    · have hnext := fun s' hs' => hkeeps s i s' h hi hC hs'
      constructor
      · exact fun hall =>
          ⟨hC, fun s' hs' => (ih (hnext s' hs').1 hrest).mp (hall s' hs').2⟩
      · exact fun hall s' hs' =>
          ⟨(hnext s' hs').2, (ih (hnext s' hs').1 hrest).mpr (hall.2 s' hs')⟩
    · obtain ⟨s', hs', hQ⟩ := hbreaks s i h hi hC
      exact iff_of_false (fun hall => hQ (hall s' hs').1) (fun hall => hC hall.1)

end DdAppsec.Lib
