import DdAppsec.Helper.RemoteConfig.Parser
import DdAppsec.Lib.Reading

/-!
# RemoteConfig — responses that are misread

`validate_field_is_present` checks the kind of a member. That its parent is an
object has been checked before it is called, except in two places: the document
inside `targets`, and the entries of the map of targets. And a member of kind
number need not be an `int`.

`misreadsBody` says which bodies get to one of these places without having been
refused before. For all the others `parse` returns a response or throws
`parser_exception` (`parse_guarded_iff`).
-/

namespace DdAppsec.Helper.RemoteConfig

open Lib

/-! ## Which bodies are misread -/

/-- A member of this name and kind. -/
def hasKind (kind : Kind) (ms : Members) (key : Bytes) : Bool :=
  match ms.find key with
  | none => false
  | some v => kind = v.kind

/-- The members of a member that is an object. -/
def membersAt (ms : Members) (key : Bytes) : Members :=
  match ms.find key with
  | some (.object inner) => inner
  | _ => []

/-- `IsInt`, of a member. -/
def hasInt (ms : Members) (key : Bytes) : Bool :=
  match ms.find key with
  | some (.number (.int n)) => decide (-2 ^ 31 ≤ n ∧ n < 2 ^ 31)
  | _ => false

/-- What `parse_target` asks for before it reads the two numbers. -/
def targetFields (target : Members) : Bool :=
  hasKind .object target "custom" && hasKind .number (membersAt target "custom") "v" &&
    hasKind .object target "hashes" &&
    ((membersAt target "hashes").all fun hash => hash.2.kind = .string) &&
    !(membersAt target "hashes").isEmpty && hasKind .number target "length"

def targetNumbers (target : Members) : Bool :=
  hasInt (membersAt target "custom") "v" && hasInt target "length"

/-- An entry of the targets that is no object, or has a number that is no `int`
after all it is asked for. -/
def misreadsTarget : Json → Bool
  | .object target => targetFields target && !targetNumbers target
  | _ => true

def validTarget : Json → Bool
  | .object target => targetFields target && targetNumbers target
  | _ => false

/-- What `parse_targets_signed` asks for after the targets. -/
def signedFields (signed : Members) : Bool :=
  (match signed.find "_type" with
    | some (.string type) => cstr type = Bytes.ofString "targets"
    | _ => false) &&
    hasKind .object signed "custom" &&
    hasKind .string (membersAt signed "custom") "opaque_backend_state"

def signedTargetsOf (signed : Members) : List Json := (membersAt signed "targets").map Prod.snd

/-- Signed targets one of which is misread, or whose version is no `int`. -/
def misreadsSigned (signed : Members) : Bool :=
  hasKind .number signed "version" && hasKind .object signed "targets" &&
    (misreadsFirst misreadsTarget validTarget (signedTargetsOf signed) ||
      ((signedTargetsOf signed).all validTarget && signedFields signed &&
        !hasInt signed "version"))

/-- The document inside `targets`. -/
def misreadsTargets (deps : Deps) (encoded : Bytes) : Bool :=
  if encoded = [] then false
  else
    match (deps.base64Decode encoded).bind fun decoded => deps.parseJson (cstr decoded) with
    | none => false
    | some (.object doc) => hasKind .object doc "signed" && misreadsSigned (membersAt doc "signed")
    | some _ => true

def validFile : Json → Bool
  | .object file => hasKind .string file "path" && hasKind .string file "raw"
  | _ => false

/-- A field that is missing, or an array of such elements. -/
def missingOrAll (valid : Json → Bool) (ms : Members) (key : Bytes) : Bool :=
  match ms.find key with
  | none => true
  | some (.array elems) => elems.all valid
  | some _ => false

/-- A body that is misread. -/
def misreadsBody (deps : Deps) (body : Bytes) : Bool :=
  match deps.parseJson (cstr body) with
  | some (.object doc) =>
    missingOrAll validFile doc "target_files" &&
      missingOrAll (fun config => config.kind = .string) doc "client_configs" &&
      match Members.find doc "targets" with
      | some (.string encoded) => misreadsTargets deps (cstr encoded)
      | _ => false
  | _ => false

/-! ## What the functions return -/

/-- How parsing ends: a refusal is a `parser_exception`. -/
abbrev Parses {α : Type} (misread valid : Bool) (r : Parsed α) : Prop :=
  Ends (· = .assertion) (fun e => ∃ result, e = .parserException result) misread valid r

section Parses

variable {α : Type}

theorem Parses.refused {result : ParserResult} :
    Parses false false (throwResult result : Parsed α) :=
  Ends.refused ⟨result, rfl⟩

/-- A member of an object: what comes after it, or a refusal. -/
theorem validateMember_then {misread valid : Bool} {ms : Members} {key : Bytes} {kind : Kind}
    {missing invalid : ParserResult} {f : Json → Parsed α}
    (hno : hasKind kind ms key = false → misread = false ∧ valid = false)
    (hyes : ∀ v, ms.find key = some v → v.kind = kind → Parses misread valid (f v)) :
    Parses misread valid
      (validateMemberIsPresent (.object ms) key kind missing invalid >>= f) := by
  simp only [validateMemberIsPresent, findIn]
  cases hfind : Members.find ms key with
  | none =>
    obtain ⟨rfl, rfl⟩ := hno (by simp [hasKind, hfind])
    exact Parses.refused
  | some v =>
    dsimp only
    by_cases hkind : kind = v.kind
    · rw [if_pos hkind]
      exact hyes v hfind hkind.symm
    · obtain ⟨rfl, rfl⟩ := hno (by simpa [hasKind, hfind] using hkind)
      rw [if_neg hkind]
      exact Parses.refused

theorem object_of_kind {v : Json} (h : v.kind = .object) : ∃ ms, v = .object ms := by
  cases v with
  | object ms => exact ⟨ms, rfl⟩
  | bool b => cases b <;> cases h
  | _ => cases h

theorem string_of_kind {v : Json} (h : v.kind = .string) : ∃ s, v = .string s := by
  cases v with
  | string s => exact ⟨s, rfl⟩
  | bool b => cases b <;> cases h
  | _ => cases h

/-- `GetInt` of a member that is a number. -/
theorem getInt_parses {ms : Members} {key : Bytes} {v : Json} (hfind : ms.find key = some v)
    (hkind : v.kind = .number) : Parses (!hasInt ms key) (hasInt ms key) (getInt v) := by
  simp only [hasInt, hfind]
  cases v with
  | number n =>
    cases n with
    | double bits => exact Ends.misused rfl
    | int n =>
      simp only [getInt]
      by_cases hrange : -2 ^ 31 ≤ n ∧ n < 2 ^ 31
      · rw [if_pos hrange, decide_eq_true hrange]
        exact ⟨rfl, rfl⟩
      · rw [if_neg hrange, decide_eq_false hrange]
        exact Ends.misused rfl
  | bool b => cases b <;> cases hkind
  | _ => cases hkind

theorem parseHashes_parses (hashes : Members) (acc : StringMap Bytes) :
    Parses false (hashes.all fun hash => hash.2.kind = .string) (parseHashes hashes acc) := by
  induction hashes generalizing acc with
  | nil => exact ⟨rfl, rfl⟩
  | cons hash hashes ih =>
    obtain ⟨algorithm, value⟩ := hash
    cases value with
    | string s =>
      rw [parseHashes]
      simpa [Json.kind] using ih _
    | bool b => cases b <;> exact Parses.refused
    | _ => exact Parses.refused

theorem parseHashes_isEmpty {hashes : Members} {acc parsed : StringMap Bytes}
    (h : parseHashes hashes acc = .ok parsed) :
    parsed.isEmpty = (acc.isEmpty && hashes.isEmpty) := by
  induction hashes generalizing acc with
  | nil =>
    cases h
    simp
  | cons hash hashes ih =>
    obtain ⟨algorithm, value⟩ := hash
    cases value with
    | string s =>
      rw [parseHashes] at h
      rw [ih h]
      simp
    | _ => cases h

theorem hasKind_of_find {ms : Members} {key : Bytes} {kind : Kind} {v : Json}
    (hfind : ms.find key = some v) (hkind : v.kind = kind) : hasKind kind ms key = true := by
  simp [hasKind, hfind, hkind]

theorem membersAt_of_find {ms inner : Members} {key : Bytes}
    (hfind : ms.find key = some (.object inner)) : membersAt ms key = inner := by
  rw [membersAt, hfind]

theorem parseTarget_parses (name : Bytes) (target : Json) :
    Parses (misreadsTarget target) (validTarget target) (parseTarget name target) := by
  cases target with
  | object target =>
    unfold parseTarget
    simp only [misreadsTarget, validTarget]
    refine validateMember_then (fun hno => by simp [targetFields, hno]) ?_
    intro custom hcustom hcustomKind
    obtain ⟨custom, rfl⟩ := object_of_kind hcustomKind
    have hmembers := membersAt_of_find hcustom
    refine validateMember_then (fun hno => by simp [targetFields, hmembers, hno]) ?_
    intro v hv hvKind
    refine validateMember_then (fun hno => by simp [targetFields, hno]) ?_
    intro hashes hhashes hhashesKind
    obtain ⟨hashes, rfl⟩ := object_of_kind hhashesKind
    have hhashesMembers := membersAt_of_find hhashes
    have hparses := parseHashes_parses hashes ∅
    show Parses _ _ (parseHashes hashes ∅ >>= _)
    cases hparsed : parseHashes hashes ∅ with
    | error e =>
      rw [hparsed] at hparses
      obtain ⟨hrefusal, hinvalid⟩ := hparses.error_refused
      have hfields : targetFields target = false := by
        simp only [targetFields, hhashesMembers, hinvalid, Bool.and_false, Bool.false_and]
      rw [hfields]
      exact Ends.refused hrefusal
    | ok parsed =>
      rw [hparsed] at hparses
      show Parses _ _ (if parsed.isEmpty then _ else _)
      rw [parseHashes_isEmpty hparsed]
      by_cases hempty : hashes.isEmpty = true
      · have hfields : targetFields target = false := by
          simp [targetFields, hhashesMembers, hempty]
        rw [if_pos (by simp [hempty]), hfields]
        exact Parses.refused
      rw [if_neg (by simp [hempty])]
      refine validateMember_then (fun hno => by simp [targetFields, hno]) ?_
      intro length hlength hlengthKind
      have hfields : targetFields target = true := by
        rw [targetFields, hmembers, hhashesMembers, hasKind_of_find hcustom hcustomKind,
          hasKind_of_find hv hvKind, hasKind_of_find hhashes hhashesKind, hparses.2,
          hasKind_of_find hlength hlengthKind]
        simp [hempty]
      have hnumbers := (getInt_parses hv hvKind).bind fun a _ =>
        (getInt_parses hlength hlengthKind).bind fun b _ =>
          show Parses false true (.ok (cstr name, ⟨a, parsed, b⟩) : Parsed (Bytes × TargetPath))
          from ⟨rfl, rfl⟩
      have hbool : ∀ a b : Bool, (!a || (a && !b)) = (!a || !b) := by decide
      rw [hfields, targetNumbers, hmembers]
      simpa [hbool] using hnumbers
  | _ => exact Ends.misused rfl

theorem parsePaths_parses (targets : Members) :
    Parses (misreadsFirst misreadsTarget validTarget (targets.map Prod.snd))
      ((targets.map Prod.snd).all validTarget) (parsePaths targets) := by
  induction targets with
  | nil => exact ⟨rfl, rfl⟩
  | cons target targets ih =>
    obtain ⟨name, target⟩ := target
    have hrest := (parseTarget_parses name target).bind fun path _ =>
      ih.bind fun paths _ =>
        show Parses false true (.ok (path :: paths) : Parsed _) from ⟨rfl, rfl⟩
    rw [parsePaths]
    simpa [misreadsFirst] using hrest

theorem signedFields_of_no_type {signed : Members} (h : hasKind .string signed "_type" = false) :
    signedFields signed = false := by
  rw [signedFields]
  cases hfind : Members.find signed "_type" with
  | none => rfl
  | some v =>
    cases v with
    | string type => simp [hasKind, hfind, Json.kind] at h
    | _ => rfl

/-- What comes after the targets, up to the version. -/
theorem signedFields_parses {signed : Members} {version : Json}
    (hversion : signed.find "version" = some version) (hkind : version.kind = .number)
    (paths : List (Bytes × TargetPath)) :
    Parses (signedFields signed && !hasInt signed "version")
      (signedFields signed && hasInt signed "version")
      (do
        let type ← validateMemberIsPresent (.object signed) "_type" .string
          .typeSignedTargetsFieldMissing .typeSignedTargetsFieldInvalid
        if (← getString type) ≠ Bytes.ofString "targets" then
          throwResult .typeSignedTargetsFieldInvalidType
        else
          let custom ← validateMemberIsPresent (.object signed) "custom" .object
            .customSignedTargetsFieldMissing .customSignedTargetsFieldInvalid
          let state ← validateMemberIsPresent custom "opaque_backend_state" .string
            .obsCustomSignedTargetsFieldMissing .obsCustomSignedTargetsFieldInvalid
          .ok ⟨← getInt version, ← getString state,
            paths.foldl (fun acc path => acc.insertIfNew path.1 path.2) ∅⟩ : Parsed Targets) := by
  refine validateMember_then (fun hno => by simp [signedFields_of_no_type hno]) ?_
  intro type htype htypeKind
  obtain ⟨type, rfl⟩ := string_of_kind htypeKind
  show Parses _ _ (if cstr type ≠ Bytes.ofString "targets" then _ else _)
  by_cases htargets : cstr type = Bytes.ofString "targets"
  · rw [if_neg (by simpa using htargets)]
    refine validateMember_then (fun hno => by simp [signedFields, hno]) ?_
    intro custom hcustom hcustomKind
    obtain ⟨custom, rfl⟩ := object_of_kind hcustomKind
    have hmembers := membersAt_of_find hcustom
    refine validateMember_then (fun hno => by simp [signedFields, hmembers, hno]) ?_
    intro state hstate hstateKind
    obtain ⟨state, rfl⟩ := string_of_kind hstateKind
    have hfields : signedFields signed = true := by
      rw [signedFields, htype, hmembers, hasKind_of_find hcustom hcustomKind,
        hasKind_of_find hstate hstateKind]
      simp [htargets]
    rw [hfields]
    have hnumber := (getInt_parses hversion hkind).bind fun number _ =>
      show Parses false true (getString (.string state) >>= fun state => .ok ⟨number, state,
        paths.foldl (fun acc path => acc.insertIfNew path.1 path.2) ∅⟩ : Parsed Targets)
      from ⟨rfl, rfl⟩
    simpa using hnumber
  · rw [if_pos (by simpa using htargets)]
    have hfields : signedFields signed = false := by
      simp [signedFields, htype, htargets]
    rw [hfields]
    exact Parses.refused

theorem parseTargetsSigned_parses (signed : Members) :
    ∃ valid, Parses (misreadsSigned signed) valid (parseTargetsSigned (.object signed)) := by
  refine ⟨hasKind .number signed "version" && hasKind .object signed "targets" &&
    ((signedTargetsOf signed).all validTarget &&
      (signedFields signed && hasInt signed "version")), ?_⟩
  unfold parseTargetsSigned
  refine validateMember_then (fun hno => by simp [misreadsSigned, hno]) ?_
  intro version hversion hversionKind
  refine validateMember_then (fun hno => by simp [misreadsSigned, hno]) ?_
  intro targets htargets htargetsKind
  obtain ⟨targets, rfl⟩ := object_of_kind htargetsKind
  have hrest := (parsePaths_parses targets).bind fun paths _ =>
    signedFields_parses hversion hversionKind paths
  rw [misreadsSigned, signedTargetsOf, membersAt_of_find htargets,
    hasKind_of_find hversion hversionKind, hasKind_of_find htargets htargetsKind]
  simp only [Bool.true_and, Bool.and_assoc]
  exact hrest

/-- A member that may be missing: what comes after it, or a refusal. -/
theorem validateField_then {misread valid : Bool} {ms : Members} {key : Bytes} {kind : Kind}
    {invalid : ParserResult} {f : Option Json → Parsed α}
    (hother : ∀ v, ms.find key = some v → v.kind ≠ kind → misread = false ∧ valid = false)
    (hrest : (∀ v, ms.find key = some v → v.kind = kind) → Parses misread valid (f (ms.find key))) :
    Parses misread valid
      (validateFieldIsPresent (.object ms) key kind .allowMissing invalid >>= f) := by
  simp only [validateFieldIsPresent, findIn]
  cases hfind : Members.find ms key with
  | none =>
    rw [hfind] at hrest
    exact hrest fun v hv => by cases hv
  | some v =>
    dsimp only
    by_cases hkind : kind = v.kind
    · rw [hfind] at hrest
      rw [if_pos hkind]
      exact hrest fun v' hv' => by
        cases hv'
        exact hkind.symm
    · obtain ⟨rfl, rfl⟩ := hother v hfind fun h => hkind h.symm
      rw [if_neg hkind]
      exact Parses.refused

theorem parseTargets_parses (deps : Deps) (encoded : Bytes) :
    ∃ valid, Parses (misreadsTargets deps (cstr encoded)) valid
      (parseTargets deps (.string encoded)) := by
  rw [misreadsTargets]
  show ∃ valid, Parses _ valid (if cstr encoded = [] then _ else _)
  by_cases hempty : cstr encoded = []
  · rw [if_pos hempty, if_pos hempty]
    exact ⟨false, Parses.refused⟩
  rw [if_neg hempty, if_neg hempty]
  cases hdecoded : deps.base64Decode (cstr encoded) with
  | none => exact ⟨false, Parses.refused⟩
  | some decoded =>
    dsimp only [Option.bind_some]
    cases hdoc : deps.parseJson (cstr decoded) with
    | none => exact ⟨false, Parses.refused⟩
    | some doc =>
      cases doc with
      | object doc =>
        simp only [validateFieldIsPresent, findIn]
        cases hfind : Members.find doc "signed" with
        | none =>
          rw [show hasKind .object doc "signed" = false by simp [hasKind, hfind]]
          exact ⟨false, Parses.refused⟩
        | some signed =>
          dsimp only
          by_cases hkind : Kind.object = signed.kind
          · obtain ⟨signed, rfl⟩ := object_of_kind hkind.symm
            obtain ⟨valid, hparses⟩ := parseTargetsSigned_parses signed
            refine ⟨valid, ?_⟩
            rw [hasKind_of_find hfind hkind.symm, membersAt_of_find hfind, Bool.true_and,
              if_pos hkind]
            exact hparses
          · rw [show hasKind .object doc "signed" = false by simpa [hasKind, hfind] using hkind,
              if_neg hkind]
            exact ⟨false, Parses.refused⟩
      | _ => exact ⟨false, Ends.misused rfl⟩

theorem targetFileField_parses (file : Members) (key : Bytes) (missing invalid : ParserResult) :
    Parses false (hasKind .string file key) (targetFileField file key missing invalid) := by
  rw [targetFileField, hasKind]
  cases Members.find file key with
  | none => exact Parses.refused
  | some v =>
    cases v with
    | string s => exact ⟨rfl, rfl⟩
    | bool b => cases b <;> exact Parses.refused
    | _ => exact Parses.refused

theorem parseTargetFiles_parses (files : List Json) (acc : StringMap TargetFile) :
    Parses false (files.all validFile) (parseTargetFiles files acc) := by
  induction files generalizing acc with
  | nil => exact ⟨rfl, rfl⟩
  | cons file files ih =>
    cases file with
    | object file =>
      rw [parseTargetFiles]
      have hrest := (targetFileField_parses file "path" .targetFilesPathFieldMissing
        .targetFilesPathFieldInvalidType).bind fun path _ =>
          (targetFileField_parses file "raw" .targetFilesRawFieldMissing
            .targetFilesRawFieldInvalidType).bind fun raw _ =>
              ih (acc.insertIfNew path ⟨path, raw⟩)
      simpa [validFile, Bool.and_assoc] using hrest
    | _ => exact Parses.refused

theorem parseClientConfigs_parses (configs : List Json) :
    Parses false (configs.all fun config => config.kind = .string)
      (parseClientConfigs configs) := by
  induction configs with
  | nil => exact ⟨rfl, rfl⟩
  | cons config configs ih =>
    cases config with
    | string s =>
      have hrest := ih.bind fun paths _ =>
        show Parses false true (.ok (cstr s :: paths) : Parsed _) from ⟨rfl, rfl⟩
      rw [parseClientConfigs]
      simpa [Json.kind] using hrest
    | bool b => cases b <;> exact Parses.refused
    | _ => exact Parses.refused

/-- The files of a body, from the field that is there or not. -/
def filesIn : Option Json → Parsed (StringMap TargetFile)
  | none => .ok ∅
  | some files => do parseTargetFiles (← getElements files) ∅

def configsIn : Option Json → Parsed (List Bytes)
  | none => .ok []
  | some configs => do parseClientConfigs (← getElements configs)

def targetsIn (deps : Deps) : Option Json → Parsed (Option Targets)
  | none => .ok none
  | some targets => do .ok (some (← parseTargets deps targets))

/-- `parse` in six steps: three fields, and what is in them. -/
theorem parse_eq (deps : Deps) (body : Bytes) :
    parse deps body = (do
      let doc ← parseBody deps body
      let targetFiles ← validateFieldIsPresent doc "target_files" .array .allowMissing
        .targetFilesFieldInvalidType
      let clientConfigs ← validateFieldIsPresent doc "client_configs" .array .allowMissing
        .clientConfigFieldInvalidType
      let targets ← validateFieldIsPresent doc "targets" .string .allowMissing
        .targetsFieldInvalidType
      let targetFiles ← filesIn targetFiles
      let clientConfigs ← configsIn clientConfigs
      let targets ← targetsIn deps targets
      .ok ⟨targetFiles, clientConfigs, targets⟩) := by
  unfold parse
  congr 1
  funext doc
  congr 1
  funext targetFiles
  congr 1
  funext clientConfigs
  congr 1
  funext targets
  cases targetFiles <;> cases clientConfigs <;> cases targets <;>
    simp [filesIn, configsIn, targetsIn]

theorem array_of_kind {v : Json} (h : v.kind = .array) : ∃ elems, v = .array elems := by
  cases v with
  | array elems => exact ⟨elems, rfl⟩
  | bool b => cases b <;> cases h
  | _ => cases h

theorem missingOrAll_of_other {valid : Json → Bool} {ms : Members} {key : Bytes} {v : Json}
    (hfind : ms.find key = some v) (hkind : v.kind ≠ .array) :
    missingOrAll valid ms key = false := by
  rw [missingOrAll, hfind]
  cases v with
  | array elems => exact absurd rfl hkind
  | _ => rfl

theorem filesIn_parses {doc : Members}
    (hkind : ∀ v, doc.find "target_files" = some v → v.kind = .array) :
    Parses false (missingOrAll validFile doc "target_files")
      (filesIn (doc.find "target_files")) := by
  rw [missingOrAll]
  cases hfind : Members.find doc "target_files" with
  | none => exact ⟨rfl, rfl⟩
  | some v =>
    obtain ⟨elems, rfl⟩ := array_of_kind (hkind v hfind)
    exact parseTargetFiles_parses elems ∅

theorem configsIn_parses {doc : Members}
    (hkind : ∀ v, doc.find "client_configs" = some v → v.kind = .array) :
    Parses false (missingOrAll (fun config => config.kind = .string) doc "client_configs")
      (configsIn (doc.find "client_configs")) := by
  rw [missingOrAll]
  cases hfind : Members.find doc "client_configs" with
  | none => exact ⟨rfl, rfl⟩
  | some v =>
    obtain ⟨elems, rfl⟩ := array_of_kind (hkind v hfind)
    exact parseClientConfigs_parses elems

/-- The targets of a body: misread like the string they are in. -/
theorem targetsIn_parses (deps : Deps) (targets : Option Json)
    (hkind : ∀ v, targets = some v → v.kind = .string) :
    ∃ valid, Parses
      (match targets with
        | some (.string encoded) => misreadsTargets deps (cstr encoded)
        | _ => false) valid (targetsIn deps targets) := by
  cases targets with
  | none => exact ⟨true, rfl, rfl⟩
  | some v =>
    obtain ⟨encoded, rfl⟩ := string_of_kind (hkind v rfl)
    obtain ⟨valid, hparses⟩ := parseTargets_parses deps encoded
    have hrest := hparses.bind fun targets _ =>
      show Parses false true (.ok (some targets) : Parsed (Option Targets)) from ⟨rfl, rfl⟩
    exact ⟨valid, by simpa [targetsIn] using hrest⟩

theorem parse_parses (deps : Deps) (body : Bytes) :
    ∃ valid, Parses (misreadsBody deps body) valid (parse deps body) := by
  simp only [parse_eq, parseBody, misreadsBody]
  cases deps.parseJson (cstr body) with
  | none => exact ⟨false, Parses.refused⟩
  | some doc =>
    cases doc with
    | object doc =>
      dsimp only
      by_cases hkind : ∀ v, Members.find doc "targets" = some v → v.kind = .string
      · obtain ⟨valid, htargets⟩ := targetsIn_parses deps _ hkind
        refine ⟨missingOrAll validFile doc "target_files" &&
          (missingOrAll (fun config => config.kind = .string) doc "client_configs" && valid), ?_⟩
        refine validateField_then
          (fun v hv hother => by simp [missingOrAll_of_other hv hother]) fun hfiles => ?_
        refine validateField_then
          (fun v hv hother => by simp [missingOrAll_of_other hv hother]) fun hconfigs => ?_
        refine validateField_then (fun v hv hother => absurd (hkind v hv) hother) fun _ => ?_
        have hrest := (filesIn_parses hfiles).bind fun files _ =>
          (configsIn_parses hconfigs).bind fun configs _ =>
            htargets.bind fun targets _ =>
              show Parses false true (.ok ⟨files, configs, targets⟩ : Parsed GetConfigsResponse)
              from ⟨rfl, rfl⟩
        simpa [Bool.and_assoc] using hrest
      · have hnothing : (match Members.find doc "targets" with
            | some (.string encoded) => misreadsTargets deps (cstr encoded)
            | _ => false) = false := by
          split
          · rename_i encoded hencoded
            refine absurd (fun v hv => ?_) hkind
            rw [hencoded] at hv
            cases hv
            rfl
          · rfl
        rw [hnothing, Bool.and_false]
        refine ⟨false, ?_⟩
        refine validateField_then (fun _ _ _ => ⟨rfl, rfl⟩) fun _ => ?_
        refine validateField_then (fun _ _ _ => ⟨rfl, rfl⟩) fun _ => ?_
        exact validateField_then (fun _ _ _ => ⟨rfl, rfl⟩) fun h => absurd h hkind
    | _ => exact ⟨false, Parses.refused⟩

end Parses

/-- **Which bodies are parsed safely**: `parse` returns a response or throws
`parser_exception`, if and only if the body is not misread. -/
theorem parse_guarded_iff (deps : Deps) (body : Bytes) :
    ((∃ response, parse deps body = .ok response) ∨
      ∃ result, parse deps body = .error (.parserException result)) ↔
      misreadsBody deps body = false := by
  obtain ⟨valid, hparses⟩ := parse_parses deps body
  cases hparse : parse deps body with
  | ok response =>
    rw [hparse] at hparses
    exact iff_of_true (.inl ⟨response, rfl⟩) hparses.1
  | error e =>
    rw [hparse] at hparses
    obtain ⟨rfl, hmisread⟩ | ⟨⟨result, rfl⟩, hmisread, -⟩ := hparses
    · simp [hmisread]
    · exact iff_of_true (.inr ⟨result, rfl⟩) hmisread

/-- A body with an empty array where the signed targets should be. -/
def arrayTargetsBody : Bytes := "\x7b\"targets\":\"W10=\"\x7d"

def arrayTargetsDeps : Deps :=
  .ofTables [("W10=", "[]")]
    [(arrayTargetsBody, .object [("targets", .string "W10=")]), ("[]", .array [])]

/-- `signed` is looked up in it. -/
theorem array_targets_not_guarded :
    ¬ ((∃ response, parse arrayTargetsDeps arrayTargetsBody = .ok response) ∨
      ∃ result, parse arrayTargetsDeps arrayTargetsBody = .error (.parserException result)) := by
  have hparse : parse arrayTargetsDeps arrayTargetsBody = .error .assertion := by
    decide +kernel
  rw [hparse]
  rintro (⟨response, h⟩ | ⟨result, h⟩)
  · cases h
  · cases h

end DdAppsec.Helper.RemoteConfig
