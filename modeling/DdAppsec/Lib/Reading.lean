/-!
# Lib — readers that refuse and readers that misread

A reader of an untrusted document is an `Except ε α`. Some of its errors are
REFUSALS, the ones it is meant to end in. Others are MISUSES: it has applied an
operation to a value that does not meet its precondition.

`Ends` says how a reader ends in terms of the document, by two questions that
can be asked of it without running the reader: is something MISREAD before
anything is refused, and is all of it VALID? Two readers in a row misread what
the first does, or what the second does if the first part is valid; a loop over
entries misreads if the first entry that is not valid is misread
(`misreadsFirst`).
-/

namespace DdAppsec.Lib

variable {ε α β X : Type} {misuse refusal : ε → Prop}

/-- A reader ends in a misuse if something is misread; else well or in a
refusal, as all is valid or not. -/
def Ends (misuse refusal : ε → Prop) (misread valid : Bool) : Except ε α → Prop
  | .ok _ => misread = false ∧ valid = true
  | .error e => (misuse e ∧ misread = true) ∨ (refusal e ∧ misread = false ∧ valid = false)

/-- Entries that are read in order up to the first that is not valid. -/
def misreadsFirst (misreads valid : X → Bool) : List X → Bool
  | [] => false
  | x :: rest => misreads x || (valid x && misreadsFirst misreads valid rest)

section Ends

variable {misread valid misread' valid' : Bool} {r : Except ε α} {e : ε} {a : α}

theorem Ends.refused (h : refusal e) :
    Ends misuse refusal false false (.error e : Except ε α) :=
  .inr ⟨h, rfl, rfl⟩

theorem Ends.misused (h : misuse e) :
    Ends misuse refusal true valid (.error e : Except ε α) :=
  .inl ⟨h, rfl⟩

/-- The same error, of a reader of something else. -/
theorem Ends.error (h : Ends misuse refusal misread valid (.error e : Except ε α)) :
    Ends misuse refusal misread valid (.error e : Except ε β) :=
  h

/-- Where nothing is misread an error is a refusal. -/
theorem Ends.error_refused (h : Ends misuse refusal false valid (.error e : Except ε α)) :
    refusal e ∧ valid = false := by
  obtain ⟨-, hmisread⟩ | ⟨hrefusal, -, hvalid⟩ := h
  · cases hmisread
  · exact ⟨hrefusal, hvalid⟩

/-- After a part that was read well it is up to the rest. -/
theorem Ends.then_ok {s : Except ε β}
    (h : Ends misuse refusal misread valid (.ok a : Except ε α))
    (hs : Ends misuse refusal misread' valid' s) :
    Ends misuse refusal (misread || (valid && misread')) (valid && valid') s := by
  obtain ⟨rfl, rfl⟩ := h
  exact hs

/-- After one that was not, nothing more is read. -/
theorem Ends.then_error
    (h : Ends misuse refusal misread valid (.error e : Except ε α)) :
    Ends misuse refusal (misread || (valid && misread')) (valid && valid')
      (.error e : Except ε β) := by
  obtain ⟨hmisuse, rfl⟩ | ⟨hrefusal, rfl, rfl⟩ := h
  · exact .inl ⟨hmisuse, rfl⟩
  · exact .inr ⟨hrefusal, rfl, rfl⟩

/-- **Sequence rule.** -/
theorem Ends.bind {f : α → Except ε β} (h : Ends misuse refusal misread valid r)
    (hf : ∀ a, r = .ok a → Ends misuse refusal misread' valid' (f a)) :
    Ends misuse refusal (misread || (valid && misread')) (valid && valid') (r >>= f) := by
  cases r with
  | ok a => exact h.then_ok (hf a rfl)
  | error e => exact h.then_error

/-- Where no refusal is a misuse, a misuse is something misread. -/
theorem Ends.misread_iff (h : Ends misuse refusal misread valid r)
    (hdisjoint : ∀ e, refusal e → ¬ misuse e) :
    (∃ e, misuse e ∧ r = .error e) ↔ misread = true := by
  cases r with
  | ok a => simp [h.1]
  | error e =>
    obtain ⟨hmisuse, rfl⟩ | ⟨hrefusal, rfl, -⟩ := h
    · exact iff_of_true ⟨e, hmisuse, rfl⟩ rfl
    · refine iff_of_false ?_ (by simp)
      rintro ⟨e', hmisuse, heq⟩
      cases heq
      exact hdisjoint e hrefusal hmisuse

theorem Ends.error_cases (h : Ends misuse refusal misread valid (.error e : Except ε α)) :
    misuse e ∨ refusal e :=
  h.imp And.left And.left

end Ends

end DdAppsec.Lib
