import DdAppsec.Helper.RemoteConfig.Contributions
import DdAppsec.Helper.RemoteConfig.Listeners
import DdAppsec.Lib.Reading

/-!
# RemoteConfig — reading a config

`error_applying_config` is thrown where a field is missing or has the wrong
type. Two preconditions of the accessors are not looked at: the documents of
ASM_FEATURES and ASM_DATA may be no objects, and a number may be no `uint64_t`.

The definitions say which documents make the code MISREAD: the entries are read
in order and reading stops at the first that is refused, so a number that is
out of range after such an entry does no harm. `Reads` connects them with what
the functions of the source return.
-/

namespace DdAppsec.Helper.RemoteConfig

open Lib

/-! ## Which documents are misread -/

/-- `IsUint64`. -/
def isUint64 : Number → Bool
  | .int n => decide (0 ≤ n ∧ n < 2 ^ 64)
  | .double _ => false

/-- An expiration that is a number out of range. -/
def misreadsExpiration : Option Json → Bool
  | some (.number n) => !isUint64 n
  | _ => false

/-- No expiration, or one in range. -/
def validExpiration : Option Json → Bool
  | none => true
  | some (.number n) => isUint64 n
  | _ => false

/-- A data entry with a value and an expiration out of range. -/
def misreadsPoint : Json → Bool
  | .object ms =>
    match Members.find ms "value" with
    | some (.string _) => misreadsExpiration (Members.find ms "expiration")
    | _ => false
  | _ => false

def validPoint : Json → Bool
  | .object ms =>
    match Members.find ms "value" with
    | some (.string _) => validExpiration (Members.find ms "expiration")
    | _ => false
  | _ => false

/-- What is read of the `data` of an entry of `rules_data`; nothing if the type
is not supported. -/
def ruleDataRead : Json → Option (List Json)
  | .object ms =>
    match Members.find ms "id", Members.find ms "type", Members.find ms "data" with
    | some (.string _), some (.string type), some (.array data) =>
      if cstr type ≠ "data_with_expiration" ∧ cstr type ≠ "ip_with_expiration" then some []
      else some data
    | _, _, _ => none
  | _ => none

def misreadsRule (entry : Json) : Bool :=
  match ruleDataRead entry with
  | none => false
  | some data => misreadsFirst misreadsPoint validPoint data

def validRule (entry : Json) : Bool :=
  match ruleDataRead entry with
  | none => false
  | some data => data.all validPoint

/-- A document of ASM_DATA that is misread. -/
def misreadsData : Json → Bool
  | .object ms =>
    match Members.find ms "rules_data" with
    | some (.array entries) => misreadsFirst misreadsRule validRule entries
    | _ => false
  | _ => true

/-- A document of ASM_FEATURES that is misread. -/
def misreadsFeatures : Json → Bool
  | .object _ => false
  | _ => true

/-- Contents that are misread by the listener of their product. -/
def misreads (deps : Deps) (product contents : Bytes) : Bool :=
  match getJsonBase64EncodedContent deps contents with
  | none => false
  | some doc =>
    if product = asmFeaturesProduct then misreadsFeatures doc
    else if product = asmDataProduct then misreadsData doc
    else false

/-- Only two products are. -/
theorem misreads_product {deps : Deps} {product contents : Bytes}
    (h : misreads deps product contents = true) :
    product = asmFeaturesProduct ∨ product = asmDataProduct := by
  unfold misreads at h
  split at h
  · cases h
  · split at h
    · rename_i hfeatures
      exact .inl hfeatures
    · split at h
      · rename_i hdata
        exact .inr hdata
      · cases h

/-! ## What the functions return -/

/-- How reading a config ends: the misuse is an accessor applied to a value of
the wrong kind, a refusal is an `error_applying_config`. -/
abbrev Reads {α : Type} (misread valid : Bool) (r : Except Exception α) : Prop :=
  Ends (· = .assertion) (fun e => ∃ what, e = .errorApplyingConfig what) misread valid r

section Reads

variable {α : Type} {misread valid : Bool} {r : Except Exception α}

theorem Reads.refused {what : Bytes} :
    Reads false false (.error (.errorApplyingConfig what) : Except Exception α) :=
  Ends.refused ⟨what, rfl⟩

theorem Reads.assertion_iff (h : Reads misread valid r) :
    r = .error .assertion ↔ misread = true := by
  rw [← h.misread_iff (by rintro _ ⟨what, rfl⟩ h; cases h)]
  constructor
  · exact fun h => ⟨_, rfl, h⟩
  · rintro ⟨_, rfl, h⟩
    exact h

theorem getUint64_eq (n : Number) :
    (∃ e, getUint64 n = .ok e ∧ isUint64 n = true) ∨
      (getUint64 n = .error .assertion ∧ isUint64 n = false) := by
  cases n with
  | double bits => exact .inr ⟨rfl, rfl⟩
  | int n =>
    simp only [getUint64, isUint64]
    by_cases hrange : 0 ≤ n ∧ n < 2 ^ 64
    · rw [if_pos hrange, decide_eq_true hrange]
      exact .inl ⟨_, rfl, rfl⟩
    · rw [if_neg hrange, decide_eq_false hrange]
      exact .inr ⟨rfl, rfl⟩

theorem entryExpiration_reads (entry : Members) :
    Reads (misreadsExpiration (entry.find "expiration"))
      (validExpiration (entry.find "expiration")) (entryExpiration entry) := by
  unfold entryExpiration
  cases entry.find "expiration" with
  | none => exact ⟨rfl, rfl⟩
  | some v =>
    cases v with
    | number n =>
      obtain ⟨e, hget, hrange⟩ | ⟨hget, hrange⟩ := getUint64_eq n
      · simp only [hget, hrange, misreadsExpiration, validExpiration]
        exact ⟨rfl, rfl⟩
      · simp only [hget, hrange, misreadsExpiration, validExpiration]
        exact Ends.misused rfl
    | _ => exact Reads.refused

theorem dataPoint_reads (entry : Json) :
    Reads (misreadsPoint entry) (validPoint entry) (dataPoint entry) := by
  cases entry with
  | object ms =>
    simp only [misreadsPoint, validPoint, dataPoint]
    cases Members.find ms "value" with
    | none => exact Reads.refused
    | some v =>
      cases v with
      | string value =>
        have hreads := entryExpiration_reads ms
        dsimp only
        cases hexpiration : entryExpiration ms with
        | ok expiration =>
          rw [hexpiration] at hreads
          exact hreads
        | error e =>
          rw [hexpiration] at hreads
          exact hreads.error
      | _ => exact Reads.refused
  | _ => exact Reads.refused

theorem extractData_reads (data : List Json) (rd : RuleData) :
    Reads (misreadsFirst misreadsPoint validPoint data) (data.all validPoint)
      (extractData data rd) := by
  induction data generalizing rd with
  | nil => exact ⟨rfl, rfl⟩
  | cons entry rest ih =>
    have hentry := dataPoint_reads entry
    rw [extractData]
    cases hpoint : dataPoint entry with
    | ok point =>
      rw [hpoint] at hentry
      exact hentry.then_ok (ih _)
    | error e =>
      rw [hpoint] at hentry
      exact hentry.then_error

theorem addRuleData_reads (id type : Bytes) (data : List Json) (rules : RulesData) :
    Reads (misreadsFirst misreadsPoint validPoint data) (data.all validPoint)
      (addRuleData id type data rules) := by
  unfold addRuleData
  split
  · have hreads := extractData_reads data ⟨id, type, ∅⟩
    split
    · rename_i hdata
      rw [hdata] at hreads
      exact hreads.error
    · rename_i hdata
      rw [hdata] at hreads
      exact hreads
  · rename_i rule _
    have hreads := extractData_reads data rule
    split
    · rename_i hdata
      rw [hdata] at hreads
      exact hreads.error
    · rename_i hdata
      rw [hdata] at hreads
      exact hreads

/-- An entry of `rules_data` without the fields it takes. -/
theorem misreadsRule_of_none {entry : Json} (h : ruleDataRead entry = none) {what : Bytes} :
    Reads (misreadsRule entry) (validRule entry)
      (.error (.errorApplyingConfig what) : Except Exception Unit) := by
  simp only [misreadsRule, validRule, h]
  exact Reads.refused

theorem newRulesData_reads (entries : List Json) (rules : RulesData) :
    Reads (misreadsFirst misreadsRule validRule entries) (entries.all validRule)
      (newRulesData entries rules) := by
  induction entries generalizing rules with
  | nil => exact ⟨rfl, rfl⟩
  | cons entry rest ih =>
    cases entry with
    | object ms =>
      rw [newRulesData]
      split
      · rename_i id type data hid htype hdata
        split
        · rename_i hunsupported
          have hread : ruleDataRead (.object ms) = some [] := by
            simp only [ruleDataRead, hid, htype, hdata, if_pos hunsupported]
          have hentry : Reads (misreadsRule (.object ms)) (validRule (.object ms))
              (.ok () : Except Exception Unit) := by
            simp [Ends, misreadsRule, validRule, hread, misreadsFirst]
          exact hentry.then_ok (ih rules)
        · rename_i hsupported
          have hread : ruleDataRead (.object ms) = some data := by
            simp only [ruleDataRead, hid, htype, hdata, if_neg hsupported]
          have hentry : Reads (misreadsRule (.object ms)) (validRule (.object ms))
              (addRuleData (cstr id) (cstr type) data rules) := by
            simpa [misreadsRule, validRule, hread] using addRuleData_reads _ _ data rules
          split
          · rename_i hadd
            rw [hadd] at hentry
            exact hentry.then_error
          · rename_i rules' hadd
            rw [hadd] at hentry
            exact hentry.then_ok (ih rules')
      · rename_i hfields
        refine (misreadsRule_of_none ?_).then_error
        simp only [ruleDataRead]
    | _ => exact (misreadsRule_of_none rfl).then_error

theorem getFieldOfType_object (ms : Members) (key : Bytes) (type : Kind) :
    getFieldOfType (.object ms) key type =
      .ok ((ms.find key).bind fun v => if type = v.kind then some v else none) := by
  simp only [getFieldOfType, findMember]
  cases Members.find ms key <;> rfl

/-- **Reading an ASM_DATA config.** -/
theorem asmDataContribution_reads (deps : Deps) (contents : Bytes) :
    ∃ valid, Reads (misreads deps asmDataProduct contents) valid
      (asmDataContribution deps contents) := by
  have hproduct : asmDataProduct ≠ asmFeaturesProduct := by decide
  unfold asmDataContribution misreads
  cases getJsonBase64EncodedContent deps contents with
  | none => exact ⟨false, Reads.refused⟩
  | some doc =>
    simp only [if_neg hproduct, if_true]
    cases doc with
    | object ms =>
      rw [getFieldOfType_object]
      cases hfind : Members.find ms "rules_data" with
      | none => exact ⟨false, by simpa [misreadsData, hfind] using Reads.refused⟩
      | some field =>
        cases field with
        | array entries =>
          refine ⟨entries.all validRule, ?_⟩
          simpa [misreadsData, hfind, Json.kind] using newRulesData_reads entries ∅
        | bool b =>
          cases b <;> exact ⟨false, by simpa [misreadsData, hfind] using Reads.refused⟩
        | _ => exact ⟨false, by simpa [misreadsData, hfind] using Reads.refused⟩
    | _ => exact ⟨false, Ends.misused rfl⟩

/-- **Reading an ASM_FEATURES config.** -/
theorem asmFeaturesStatus_reads (deps : Deps) (config : Config) :
    ∃ valid, Reads (misreads deps asmFeaturesProduct config.contents) valid
      (asmFeaturesStatus deps config) := by
  unfold asmFeaturesStatus misreads
  cases getJsonBase64EncodedContent deps config.contents with
  | none => exact ⟨false, Reads.refused⟩
  | some doc =>
    simp only [if_true]
    cases doc with
    | object ms =>
      rw [getFieldOfType_object]
      have hread : misreadsFeatures (.object ms) = false := rfl
      rw [hread]
      split
      · rename_i heq
        cases heq
      · split
        · exact ⟨false, Reads.refused⟩
        · exact ⟨true, rfl, rfl⟩
        · exact ⟨true, rfl, rfl⟩
        · exact ⟨true, rfl, rfl⟩
        · exact ⟨false, Reads.refused⟩
      · exact ⟨false, Reads.refused⟩
    | _ => exact ⟨false, Ends.misused rfl⟩

end Reads

end DdAppsec.Helper.RemoteConfig
