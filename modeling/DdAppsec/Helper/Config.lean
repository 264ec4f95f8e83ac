import DdAppsec.Lib.Assignments

/-!
# Helper — the command line

`configOfArgs` is the constructor of `config`, over the words of `argv` after
the executable. `settings` lists what these words set, in order, and
`configOfArgs_eq` says that the result is the defaults with the settings
written over them.

A word that waits for a value takes the next word whatever it is: the second
test of the loop looks at the option again and not at the word after it. So
what is appended to a line can be taken for a value (`settings_append_open`).
`optionSettings` is what the words are meant to set, where an option is never
the value of another, and `config_parsed_iff` says for which command lines it
is what they do set.
-/

namespace DdAppsec.Helper

open Lib

def dashes : Bytes := "--"
def equalSign : UInt8 := 0x3d

/-- `config::defaults`. -/
def configDefaults : StringMap Bytes :=
  let defaults : List (Bytes × Bytes) :=
    [("lock_path", "/tmp/ddappsec.lock"), ("socket_path", "/tmp/ddappsec.sock"),
     ("log_level", "warn"), ("runner_idle_timeout", "1440")]
  defaults.foldl (fun kv entry => kv.insert entry.1 entry.2) ∅

/-- `arg.find('=')`, with the two parts. -/
def findAssignment (arg : Bytes) : Option (Bytes × Bytes) :=
  if equalSign ∈ arg then
    some (arg.takeWhile (· ≠ equalSign), (arg.dropWhile (· ≠ equalSign)).drop 1)
  else none

/-- The loop of `config::config`. -/
def configLoop (kv : StringMap Bytes) : List Bytes → StringMap Bytes
  | [] => kv
  | word :: rest =>
    -- not an option, weird
    if ¬ dashes <+: word then configLoop kv rest
    else
      let arg := word.drop 2
      match findAssignment arg with
      | some (key, value) => configLoop (kv.insert key value) rest
      | none =>
        match rest with
        | value :: rest' =>
          -- the source tests `arg` here, the option that is being read
          if ¬ dashes <+: arg then configLoop (kv.insert arg value) rest'
          else configLoop (kv.insert arg []) (value :: rest')
        | [] => configLoop (kv.insert arg []) []

/-- `config::config`. -/
def configOfArgs (argv : List Bytes) : StringMap Bytes := configLoop configDefaults (argv.drop 1)

/-! ## What the words set -/

/-- An option without an assignment, which takes the word after it. -/
def TakesValue (word : Bytes) : Prop :=
  dashes <+: word ∧ equalSign ∉ word.drop 2 ∧ ¬ dashes <+: word.drop 2

instance (word : Bytes) : Decidable (TakesValue word) := inferInstanceAs (Decidable (_ ∧ _))

/-- What a word sets when it takes no other word. -/
def ownSettings (word : Bytes) : List (Bytes × Bytes) :=
  if dashes <+: word then [(findAssignment (word.drop 2)).getD (word.drop 2, [])] else []

def settings : List Bytes → List (Bytes × Bytes)
  | [] => []
  | [word] => ownSettings word
  | word :: next :: rest =>
    if TakesValue word then (word.drop 2, next) :: settings rest
    else ownSettings word ++ settings (next :: rest)

/-- The last word is an option that waits for its value. -/
def leavesOpen : List Bytes → Bool
  | [] => false
  | [word] => TakesValue word
  | word :: next :: rest => if TakesValue word then leavesOpen rest else leavesOpen (next :: rest)

theorem findAssignment_none {arg : Bytes} (h : equalSign ∉ arg) : findAssignment arg = none :=
  if_neg h

theorem findAssignment_some {arg key value : Bytes} (h : findAssignment arg = some (key, value)) :
    arg = key ++ equalSign :: value := by
  induction arg generalizing key with
  | nil => cases h
  | cons c arg ih =>
    by_cases hc : c = equalSign
    · subst hc
      simp only [findAssignment, List.mem_cons_self, if_true, Option.some.injEq,
        Prod.mk.injEq] at h
      obtain ⟨rfl, rfl⟩ := h
      simp
    · by_cases hmem : equalSign ∈ arg
      · simp only [findAssignment, List.mem_cons, hmem, or_true, if_true, Option.some.injEq,
          Prod.mk.injEq, ne_eq, hc, not_false_eq_true, decide_true, List.takeWhile_cons_of_pos,
          List.dropWhile_cons_of_pos] at h
        obtain ⟨rfl, hvalue⟩ := h
        have harg : findAssignment arg =
            some (arg.takeWhile (· ≠ equalSign), value) := by
          rw [findAssignment, if_pos hmem]
          simp [← hvalue]
        rw [List.cons_append, ← ih harg]
      · rw [findAssignment, if_neg (by simp [hmem, Ne.symm hc])] at h
        cases h

theorem ownSettings_of_option {word : Bytes} (h : dashes <+: word)
    (hequal : equalSign ∉ word.drop 2) : ownSettings word = [(word.drop 2, [])] := by
  rw [ownSettings, if_pos h, findAssignment_none hequal]
  rfl

/-- One round of the loop for a word that stands alone. -/
theorem configLoop_cons {kv : StringMap Bytes} {word : Bytes} {rest : List Bytes}
    (h : TakesValue word → rest = []) :
    configLoop kv (word :: rest) =
      configLoop ((ownSettings word).foldl (fun kv entry => kv.insert entry.1 entry.2) kv)
        rest := by
  rw [configLoop.eq_def]
  by_cases hdashes : dashes <+: word
  · simp only [hdashes, not_true_eq_false, if_false, ownSettings, if_true]
    cases hassignment : findAssignment (word.drop 2) with
    | some entry => rfl
    | none =>
      cases rest with
      | nil => rfl
      | cons value rest =>
        have hmodifier : dashes <+: word.drop 2 := by
          by_contra hno
          have hequal : equalSign ∉ word.drop 2 := by
            intro hmem
            rw [findAssignment, if_pos hmem] at hassignment
            cases hassignment
          cases h ⟨hdashes, hequal, hno⟩
        simp [hmodifier]
  · simp [hdashes, ownSettings]

theorem configLoop_takesValue {kv : StringMap Bytes} {word value : Bytes} {rest : List Bytes}
    (h : TakesValue word) :
    configLoop kv (word :: value :: rest) = configLoop (kv.insert (word.drop 2) value) rest := by
  rw [configLoop.eq_def]
  simp [h.1, findAssignment_none h.2.1, h.2.2]

/-- **The constructor writes the settings over what is there**, one after the
other. -/
theorem configLoop_eq (kv : StringMap Bytes) (words : List Bytes) :
    configLoop kv words =
      (settings words).foldl (fun kv entry => kv.insert entry.1 entry.2) kv := by
  fun_induction settings words generalizing kv with
  | case1 => rfl
  | case2 word => rw [configLoop_cons (fun _ => rfl), configLoop]
  | case3 word next rest htakes ih => rw [configLoop_takesValue htakes, ih, List.foldl_cons]
  | case4 word next rest htakes ih =>
    rw [configLoop_cons (fun h => absurd h htakes), ih, List.foldl_append]

theorem configOfArgs_eq (executable : Bytes) (words : List Bytes) (key : Bytes) :
    (configOfArgs (executable :: words))[key]? =
      (lastValue key (settings words)).or configDefaults[key]? := by
  rw [configOfArgs, List.drop_one, List.tail_cons, configLoop_eq, getElem?_foldl_insert]

/-! ## Words that are appended -/

theorem settings_append_closed {words : List Bytes} (h : leavesOpen words = false)
    (more : List Bytes) : settings (words ++ more) = settings words ++ settings more := by
  fun_induction settings words with
  | case1 => rfl
  | case2 word =>
    have htakes : ¬ TakesValue word := by simpa [leavesOpen] using h
    cases more with
    | nil => simp [settings]
    | cons next more => simp [settings, htakes]
  | case3 word next rest htakes ih =>
    rw [leavesOpen, if_pos htakes] at h
    rw [List.cons_append, List.cons_append, settings, if_pos htakes, ih h, List.cons_append]
  | case4 word next rest htakes ih =>
    rw [leavesOpen, if_neg htakes] at h
    rw [List.cons_append, List.cons_append, settings, if_neg htakes, ← List.cons_append, ih h,
      List.append_assoc]

/-- An open option takes the first word that is appended. -/
theorem settings_append_open {words : List Bytes} (h : leavesOpen words = true)
    (value : Bytes) (more : List Bytes) :
    ∃ before key, settings words = before ++ [(key, [])] ∧
      settings (words ++ value :: more) = before ++ (key, value) :: settings more := by
  fun_induction settings words with
  | case1 => cases h
  | case2 word =>
    have htakes : TakesValue word := by simpa [leavesOpen] using h
    refine ⟨[], word.drop 2, ownSettings_of_option htakes.1 htakes.2.1, ?_⟩
    rw [List.singleton_append, settings, if_pos htakes, List.nil_append]
  | case3 word next rest htakes ih =>
    rw [leavesOpen, if_pos htakes] at h
    obtain ⟨before, key, hbefore, hafter⟩ := ih h
    refine ⟨(word.drop 2, next) :: before, key, ?_, ?_⟩
    · rw [hbefore, List.cons_append]
    · rw [List.cons_append, List.cons_append, settings, if_pos htakes, hafter, List.cons_append]
  | case4 word next rest htakes ih =>
    rw [leavesOpen, if_neg htakes] at h
    obtain ⟨before, key, hbefore, hafter⟩ := ih h
    refine ⟨ownSettings word ++ before, key, ?_, ?_⟩
    · rw [hbefore, List.append_assoc]
    · rw [List.cons_append, List.cons_append, settings, if_neg htakes, ← List.cons_append,
        hafter, List.append_assoc]

/-! ## Options and values -/

/-- What the words are meant to set: every word with dashes is an option, and an
option without an assignment takes the word after it unless that is one too. -/
def optionSettings : List Bytes → List (Bytes × Bytes)
  | [] => []
  | [word] => ownSettings word
  | word :: next :: rest =>
    if dashes <+: word ∧ equalSign ∉ word.drop 2 ∧ ¬ dashes <+: next then
      (word.drop 2, next) :: optionSettings rest
    else ownSettings word ++ optionSettings (next :: rest)

/-- An option without an assignment has four dashes if the next word is an
option, and only then or if that word is empty. -/
def Separate (word next : Bytes) : Prop :=
  dashes <+: word → equalSign ∉ word.drop 2 →
    (dashes <+: next ↔ dashes <+: word.drop 2) ∨ next = []

instance : DecidableRel Separate := fun _ _ => inferInstanceAs (Decidable (_ → _ → _ ∨ _))

section Options

variable {word next : Bytes} {rest : List Bytes}

theorem ownSettings_of_word (h : ¬ dashes <+: word) : ownSettings word = [] := if_neg h

theorem not_dashes_nil : ¬ dashes <+: [] := by decide

/-- A word without dashes sets nothing. -/
theorem settings_cons_word (h : ¬ dashes <+: word) : settings (word :: rest) = settings rest := by
  cases rest with
  | nil => exact ownSettings_of_word h
  | cons next rest =>
    rw [settings, if_neg (fun htakes => h htakes.1), ownSettings_of_word h, List.nil_append]

theorem isChain_cons_word (h : ¬ dashes <+: word) :
    (word :: rest).IsChain Separate ↔ rest.IsChain Separate := by
  cases rest with
  | nil => simp
  | cons next rest =>
    rw [List.isChain_cons_cons]
    exact and_iff_right fun hdashes => absurd hdashes h

/-- The value that an option takes is the one it is meant to take. -/
theorem settings_eq_of_takesValue (htakes : TakesValue word)
    (ih : settings rest = optionSettings rest ↔ rest.IsChain Separate) :
    settings (word :: next :: rest) = optionSettings (word :: next :: rest) ↔
      (word :: next :: rest).IsChain Separate := by
  rw [settings, if_pos htakes, optionSettings, List.isChain_cons_cons]
  obtain ⟨hdashes, hequal, hshort⟩ := htakes
  by_cases hnext : dashes <+: next
  · rw [if_neg (fun h => h.2.2 hnext), ownSettings_of_option hdashes hequal, List.singleton_append]
    have hne : next ≠ [] := by
      rintro rfl
      exact not_dashes_nil hnext
    refine iff_of_false (fun heq => ?_) (fun hchain => ?_)
    · exact hne (Prod.mk.inj (List.cons.inj heq).1).2
    · obtain hiff | hnil := hchain.1 hdashes hequal
      · exact hshort (hiff.mp hnext)
      · exact hne hnil
  · have hseparate : Separate word next := fun _ _ => Or.inl (iff_of_false hnext hshort)
    rw [if_pos ⟨hdashes, hequal, hnext⟩, isChain_cons_word hnext, List.cons.injEq, ih]
    simp [hseparate]

/-- A word that takes no value sets what it is meant to, unless it has four
dashes and a value after it. -/
theorem settings_eq_of_not_takesValue (htakes : ¬ TakesValue word)
    (ih : settings (next :: rest) = optionSettings (next :: rest) ↔
      (next :: rest).IsChain Separate)
    (ih' : settings rest = optionSettings rest ↔ rest.IsChain Separate) :
    settings (word :: next :: rest) = optionSettings (word :: next :: rest) ↔
      (word :: next :: rest).IsChain Separate := by
  rw [settings, if_neg htakes, optionSettings, List.isChain_cons_cons]
  by_cases hoption : dashes <+: word ∧ equalSign ∉ word.drop 2
  · obtain ⟨hdashes, hequal⟩ := hoption
    have hlong : dashes <+: word.drop 2 := by
      by_contra hshort
      exact htakes ⟨hdashes, hequal, hshort⟩
    rw [ownSettings_of_option hdashes hequal, List.singleton_append]
    by_cases hnext : dashes <+: next
    · have hseparate : Separate word next := fun _ _ => Or.inl (iff_of_true hnext hlong)
      rw [if_neg (fun h => h.2.2 hnext), List.singleton_append, List.cons.injEq, ih]
      simp [hseparate]
    · rw [if_pos ⟨hdashes, hequal, hnext⟩, settings_cons_word hnext, isChain_cons_word hnext,
        List.cons.injEq, ih', Prod.mk.injEq]
      have hseparate : Separate word next ↔ [] = next := by
        constructor
        · intro h
          obtain hiff | hnil := h hdashes hequal
          · exact absurd (hiff.mpr hlong) hnext
          · exact hnil.symm
        · exact fun hnil _ _ => Or.inr hnil.symm
      simp [hseparate]
  · have hseparate : Separate word next := fun hdashes hequal => absurd ⟨hdashes, hequal⟩ hoption
    rw [if_neg (fun h => hoption ⟨h.1, h.2.1⟩), List.append_cancel_left_eq, ih]
    simp [hseparate]

end Options

theorem settings_eq_optionSettings_iff :
    ∀ words : List Bytes, settings words = optionSettings words ↔ words.IsChain Separate
  | [] => by simp [settings, optionSettings]
  | [word] => by simp [settings, optionSettings]
  | word :: next :: rest => by
    have ih := settings_eq_optionSettings_iff (next :: rest)
    have ih' := settings_eq_optionSettings_iff rest
    by_cases htakes : TakesValue word
    · exact settings_eq_of_takesValue htakes ih'
    · exact settings_eq_of_not_takesValue htakes ih ih'

/-- **When the options are parsed as they are meant.** What the constructor
assigns is what the words are meant to set, the last assignment of a key being
the one that counts, exactly if every option is separate from the word after
it. -/
theorem config_parsed_iff (argv : List Bytes) :
    (settings (argv.drop 1) = optionSettings (argv.drop 1) ∧
      ∀ key : Bytes, (configOfArgs argv)[key]? =
        (lastValue key (optionSettings (argv.drop 1))).or configDefaults[key]?) ↔
      (argv.drop 1).IsChain Separate := by
  rw [← settings_eq_optionSettings_iff]
  refine and_iff_left_of_imp fun h key => ?_
  rw [configOfArgs, configLoop_eq, getElem?_foldl_insert, h]

/-- An option takes the option after it for its value. -/
theorem option_taken_for_value :
    (configOfArgs ["ddappsec-helper", "--verbose", "--log_level=debug"])[("verbose" : Bytes)]? =
        some ("--log_level=debug" : Bytes) ∧
      (configOfArgs ["ddappsec-helper", "--verbose", "--log_level=debug"])[("log_level" : Bytes)]? =
        some ("warn" : Bytes) ∧
      optionSettings ["--verbose", "--log_level=debug"] =
        [(("verbose" : Bytes), []), (("log_level" : Bytes), ("debug" : Bytes))] := by
  decide +kernel

end DdAppsec.Helper
