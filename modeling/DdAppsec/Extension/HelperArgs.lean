import DdAppsec.Lib.Json

/-!
# Extension — the arguments of the helper

The helper is started with the user's own arguments followed by the two
options that the extension needs, as one line of text (`commandLine`).
`splitParams` is `_split_params`: it cuts the line into words, with quotes and
backslashes as in a shell.

`splitParams_commandLine` says what becomes of the line for every text of the
user. What matters is where the text alone leaves the scanner (`scan`): between
quotes nothing is started, and after an unpaired backslash the first option is
part of the user's last word.
-/

namespace DdAppsec.Extension

open Lib

/-! ## Splitting -/

def space : UInt8 := 0x20
def doubleQuote : UInt8 := 0x22
def singleQuote : UInt8 := 0x27
def backslash : UInt8 := 0x5c

inductive SplitState where
  | between | doubleQuoted | singleQuoted | bareParam
  deriving DecidableEq, Repr

/-- The variables of the loop of `_split_params`: the finished entries of
`ret` after the executable, and what was written since `param_start`. -/
structure Scan where
  params : List Bytes
  current : Bytes
  state : SplitState
  escaped : Bool

def Scan.start : Scan := ⟨[], [], .between, false⟩

/-- One character of the line. -/
def Scan.step (s : Scan) (c : UInt8) : Scan :=
  match s.state with
  | .between =>
    if c = space then s
    else if c = doubleQuote then { s with state := .doubleQuoted, current := [] }
    else if c = singleQuote then { s with state := .singleQuoted, current := [] }
    else if c = backslash then { s with state := .bareParam, escaped := true, current := [] }
    else { s with state := .bareParam, current := [c] }
  | .doubleQuoted =>
    if s.escaped then { s with current := s.current ++ [c], escaped := false }
    else if c = doubleQuote then { s with state := .bareParam }
    else if c = backslash then { s with escaped := true }
    else { s with current := s.current ++ [c] }
  | .singleQuoted =>
    if s.escaped then { s with current := s.current ++ [c], escaped := false }
    else if c = singleQuote then { s with state := .bareParam }
    else if c = backslash then { s with escaped := true }
    else { s with current := s.current ++ [c] }
  | .bareParam =>
    if s.escaped then { s with current := s.current ++ [c], escaped := false }
    else if c = backslash then { s with escaped := true }
    else if c = doubleQuote then { s with state := .doubleQuoted }
    else if c = singleQuote then { s with state := .singleQuoted }
    else if c = space then { s with params := s.params ++ [s.current], state := .between }
    else { s with current := s.current ++ [c] }

/-- The words when the line ends here. -/
def Scan.words (s : Scan) : List Bytes :=
  if s.state = .between then s.params else s.params ++ [s.current]

def Scan.quoted (s : Scan) : Bool :=
  s.state = .doubleQuoted || s.state = .singleQuoted

def scan (line : Bytes) : Scan := line.foldl Scan.step Scan.start

/-- `_split_params`. The result is `argv`. -/
def splitParams (executable line : Bytes) : Option (List Bytes) :=
  match line.dropWhile (· = space) with
  | [] => some [executable]
  | p =>
    let s := scan p
    -- an unpaired backslash at the end, unmatched quotes
    if s.escaped then none
    else if s.quoted then none
    else some (executable :: s.words)

/-- `args` of `_launch_helper_daemon`. -/
def commandLine (extraArgs : Bytes) (sockFd : Int) : Bytes :=
  cstr extraArgs ++ ((if cstr extraArgs = [] then [] else [space]) ++
    (("--lock_path - --socket_path fd:" : Bytes) ++ intToString sockFd))

/-! ## Scanning in parts -/

/-- A character that stands for itself outside of quotes. -/
def Plain (c : UInt8) : Prop :=
  c ≠ space ∧ c ≠ doubleQuote ∧ c ≠ singleQuote ∧ c ≠ backslash

instance (c : UInt8) : Decidable (Plain c) := inferInstanceAs (Decidable (_ ∧ _))

variable {s : Scan} {c : UInt8}

theorem Scan.step_bare (hstate : s.state = .bareParam) (hescaped : s.escaped = false)
    (hc : Plain c) : s.step c = { s with current := s.current ++ [c] } := by
  obtain ⟨hspace, hdouble, hsingle, hback⟩ := hc
  simp [Scan.step, hstate, hescaped, hspace, hdouble, hsingle, hback]

/-- Plain text is added to the word that it stands in. -/
theorem Scan.foldl_bare (hstate : s.state = .bareParam) (hescaped : s.escaped = false)
    {text : Bytes} (htext : ∀ c ∈ text, Plain c) :
    text.foldl Scan.step s = { s with current := s.current ++ text } := by
  induction text generalizing s with
  | nil => simp
  | cons c text ih =>
    rw [List.foldl_cons, Scan.step_bare hstate hescaped (htext c List.mem_cons_self)]
    rw [ih (s := { s with current := s.current ++ [c] }) hstate hescaped
      (fun d hd => htext d (List.mem_cons_of_mem c hd))]
    simp

/-- A word of plain text that begins here. -/
theorem Scan.foldl_word (hstate : s.state = .between) (hescaped : s.escaped = false)
    {word : Bytes} (hne : word ≠ []) (hword : ∀ c ∈ word, Plain c) :
    word.foldl Scan.step s = { s with current := word, state := .bareParam } := by
  cases word with
  | nil => exact absurd rfl hne
  | cons c word =>
    obtain ⟨hspace, hdouble, hsingle, hback⟩ := hword c List.mem_cons_self
    have hfirst : s.step c = { s with current := [c], state := .bareParam } := by
      simp [Scan.step, hstate, hspace, hdouble, hsingle, hback]
    rw [List.foldl_cons, hfirst]
    rw [Scan.foldl_bare (s := { s with current := [c], state := .bareParam }) rfl hescaped
      (fun d hd => hword d (List.mem_cons_of_mem c hd))]
    simp

theorem Scan.step_space_bare (hstate : s.state = .bareParam) (hescaped : s.escaped = false) :
    s.step space = { s with params := s.params ++ [s.current], state := .between } := by
  simp [Scan.step, hstate, hescaped, space, backslash, doubleQuote, singleQuote]

/-- Words that are written so that each is read back, with a space between
them, are read back after those that were read before. -/
theorem Scan.foldl_written (write : Bytes → Bytes) (hstate : s.state = .between)
    (hescaped : s.escaped = false) {words : List Bytes} (hne : words ≠ [])
    (hwrite : ∀ w ∈ words, ∀ s : Scan, s.state = .between → s.escaped = false →
      (write w).foldl Scan.step s = { s with current := w, state := .bareParam }) :
    ∃ current, (List.intercalate [space] (words.map write)).foldl Scan.step s =
        ⟨s.params ++ words.dropLast, current, .bareParam, false⟩ ∧
      words = words.dropLast ++ [current] := by
  induction words generalizing s with
  | nil => exact absurd rfl hne
  | cons w words ih =>
    have hw := hwrite w List.mem_cons_self s hstate hescaped
    cases words with
    | nil =>
      refine ⟨w, ?_, rfl⟩
      rw [List.map_singleton, List.intercalate_singleton, hw, hescaped]
      simp
    | cons v words =>
      rw [List.map_cons, List.map_cons, List.intercalate_cons_cons, List.foldl_append,
        List.foldl_append, hw]
      rw [List.foldl_cons, List.foldl_nil,
        Scan.step_space_bare (s := { s with current := w, state := .bareParam }) rfl hescaped]
      obtain ⟨current, hfold, hlast⟩ :=
        ih (s := { s with params := s.params ++ [w], current := w, state := .between }) rfl
          hescaped (List.cons_ne_nil v words) (fun u hu => hwrite u (List.mem_cons_of_mem w hu))
      refine ⟨current, ?_, ?_⟩
      · rw [← List.map_cons, hfold]
        simp
      · rw [List.dropLast_cons_cons, List.cons_append, ← hlast]

/-- **A line of plain words is split into these words**, after those that were
read before. -/
theorem Scan.foldl_words (hstate : s.state = .between) (hescaped : s.escaped = false)
    {words : List Bytes} (hne : words ≠ []) (hwords : ∀ w ∈ words, w ≠ [] ∧ ∀ c ∈ w, Plain c) :
    ∃ current, (List.intercalate [space] words).foldl Scan.step s =
        ⟨s.params ++ words.dropLast, current, .bareParam, false⟩ ∧
      words = words.dropLast ++ [current] := by
  have hread := Scan.foldl_written id hstate hescaped hne fun w hw s hstate hescaped =>
    Scan.foldl_word hstate hescaped (hwords w hw).1 (hwords w hw).2
  rwa [List.map_id] at hread

/-- Only a quote ends a quoted text. -/
theorem Scan.step_quoted (hquoted : s.quoted = true) (hdouble : c ≠ doubleQuote)
    (hsingle : c ≠ singleQuote) : (s.step c).quoted = true := by
  obtain ⟨params, current, state, escaped⟩ := s
  cases state with
  | between => cases hquoted
  | bareParam => cases hquoted
  | doubleQuoted =>
    simp only [Scan.step, if_neg hdouble]
    split
    · rfl
    · split <;> rfl
  | singleQuoted =>
    simp only [Scan.step, if_neg hsingle]
    split
    · rfl
    · split <;> rfl

theorem Scan.foldl_quoted (hquoted : s.quoted = true) {text : Bytes}
    (htext : ∀ c ∈ text, c ≠ doubleQuote ∧ c ≠ singleQuote) :
    (text.foldl Scan.step s).quoted = true := by
  induction text generalizing s with
  | nil => exact hquoted
  | cons c text ih =>
    obtain ⟨hdouble, hsingle⟩ := htext c List.mem_cons_self
    exact ih (Scan.step_quoted hquoted hdouble hsingle)
      (fun d hd => htext d (List.mem_cons_of_mem c hd))

/-- A backslash begins a word. -/
def Scan.Sound (s : Scan) : Prop := s.state = .between → s.escaped = false

theorem Scan.Sound.step (h : s.Sound) (c : UInt8) : (s.step c).Sound := by
  obtain ⟨params, current, state, escaped⟩ := s
  intro hbetween
  cases state with
  | between =>
    have hescaped : escaped = false := h rfl
    simp only [Scan.step] at hbetween ⊢
    split at hbetween
    · simp [*]
    all_goals (repeat' split at hbetween) <;> cases hbetween
  | doubleQuoted | singleQuoted | bareParam =>
    simp only [Scan.step] at hbetween ⊢
    grind

theorem scan_sound (line : Bytes) : (scan line).Sound := by
  suffices h : ∀ s : Scan, s.Sound → (line.foldl Scan.step s).Sound from h _ fun _ => rfl
  induction line with
  | nil => exact fun s hs => hs
  | cons c line ih => exact fun s hs => ih (s.step c) (hs.step c)

/-- Spaces in front are skipped by the loop too. -/
theorem scan_dropWhile (line : Bytes) : scan (line.dropWhile (· = space)) = scan line := by
  induction line with
  | nil => rfl
  | cons c line ih =>
    by_cases hc : c = space
    · subst hc
      rw [List.dropWhile_cons_of_pos (by simp), ih]
      rfl
    · rw [List.dropWhile_cons_of_neg (by simpa using hc)]

/-! ## The command line -/

/-- `fd:%d`. -/
def fdArg (sockFd : Int) : Bytes := ("fd:" : Bytes) ++ intToString sockFd

/-- The words that the extension appends. -/
def mandatoryArgs (sockFd : Int) : List Bytes := ["--lock_path", "-", "--socket_path", fdArg sockFd]

theorem plain_of_isDigit {c : Char} (hc : c.isDigit) : Plain (UInt8.ofNat c.toNat) := by
  obtain ⟨hlow, hhigh⟩ : 48 ≤ c.toNat ∧ c.toNat ≤ 57 := Char.isDigit_iff_toNat.mp hc
  have hne : ∀ n : Nat, n < 48 ∨ 57 < n → n < 256 → UInt8.ofNat c.toNat ≠ UInt8.ofNat n := by
    intro n hn hbyte heq
    have htoNat := congrArg UInt8.toNat heq
    rw [UInt8.toNat_ofNat', UInt8.toNat_ofNat'] at htoNat
    omega
  exact ⟨hne 0x20 (by omega) (by omega), hne 0x22 (by omega) (by omega),
    hne 0x27 (by omega) (by omega), hne 0x5c (by omega) (by omega)⟩

theorem plain_natRepr (n : Nat) : ∀ c ∈ Bytes.ofString n.repr, Plain c := by
  intro c hc
  obtain ⟨d, hd, rfl⟩ := List.mem_map.mp hc
  rw [Nat.toList_repr] at hd
  exact plain_of_isDigit (Nat.isDigit_of_mem_toDigits (by decide) (by decide) hd)

theorem plain_intToString (n : Int) : ∀ c ∈ intToString n, Plain c := by
  intro c hc
  rw [intToString, Int.toString_eq_repr, Int.repr_eq_if] at hc
  split at hc
  · exact plain_natRepr _ c hc
  · rw [Bytes.ofString, String.toList_append, List.map_append, List.mem_append] at hc
    rcases hc with hsign | hdigit
    · have hdash : c = 0x2d := by simpa using hsign
      rw [hdash]
      decide
    · exact plain_natRepr _ c hdigit

theorem plain_mandatoryArgs (sockFd : Int) :
    ∀ w ∈ mandatoryArgs sockFd, w ≠ [] ∧ ∀ c ∈ w, Plain c := by
  have hfd : ∀ c ∈ fdArg sockFd, Plain c := by
    intro c hc
    rcases List.mem_append.mp hc with hprefix | hnumber
    · exact (show ∀ c ∈ ("fd:" : Bytes), Plain c by decide +kernel) c hprefix
    · exact plain_intToString sockFd c hnumber
  intro w hw
  simp only [mandatoryArgs, List.mem_cons, List.not_mem_nil, or_false] at hw
  obtain rfl | rfl | rfl | rfl := hw
  · decide +kernel
  · decide +kernel
  · decide +kernel
  · exact ⟨by simp [fdArg, Bytes.ofString], hfd⟩

/-- The appended text is the four words with a space between them. -/
theorem intercalate_mandatoryArgs (sockFd : Int) :
    List.intercalate [space] (mandatoryArgs sockFd) =
      ("--lock_path - --socket_path fd:" : Bytes) ++ intToString sockFd := by
  have hwords : ("--lock_path - --socket_path fd:" : Bytes) =
      ("--lock_path" : Bytes) ++ [space] ++ "-" ++ [space] ++ "--socket_path" ++ [space] ++
        "fd:" := by decide
  rw [hwords, mandatoryArgs, fdArg]
  simp [List.intercalate_cons_cons]

theorem splitParams_of_scan {executable line : Bytes} (hline : ∃ c ∈ line, c ≠ space) :
    splitParams executable line =
      if (scan line).escaped then none
      else if (scan line).quoted then none
      else some (executable :: (scan line).words) := by
  have hne : line.dropWhile (· = space) ≠ [] := by
    rw [Ne, List.dropWhile_eq_nil_iff]
    obtain ⟨c, hc, hspace⟩ := hline
    exact fun hall => hspace (by simpa using hall c hc)
  rw [← scan_dropWhile line, splitParams]
  generalize line.dropWhile (· = space) = p at hne
  cases p with
  | nil => exact absurd rfl hne
  | cons c p => rfl

/-- The user's text leaves the last word open: it ends in an unpaired
backslash. -/
def Scan.dangling (s : Scan) : Bool := s.state = .bareParam && s.escaped

/-- The user's last word with the option that a backslash added to it. -/
def danglingWord (current : Bytes) : Bytes := current ++ space :: ("--lock_path" : Bytes)

/-- `argv` after the executable, given where the user's text ends. -/
def Scan.launchArgs (s : Scan) (sockFd : Int) : List Bytes :=
  if s.dangling then
    s.params ++ danglingWord s.current :: ["-", "--socket_path", fdArg sockFd]
  else s.words ++ mandatoryArgs sockFd

/-- The end of a scan of plain words. -/
theorem Scan.foldl_line (hstate : s.state = .between) (hescaped : s.escaped = false)
    {args : List Bytes} (hne : args ≠ []) (hargs : ∀ w ∈ args, w ≠ [] ∧ ∀ c ∈ w, Plain c) :
    let last := (List.intercalate [space] args).foldl Scan.step s
    last.escaped = false ∧ last.quoted = false ∧ last.words = s.params ++ args := by
  obtain ⟨current, hfold, hlast⟩ := Scan.foldl_words hstate hescaped hne hargs
  rw [hfold]
  refine ⟨rfl, rfl, ?_⟩
  rw [Scan.words, if_neg (by simp), List.append_assoc, ← hlast]

/-- A line whose first word is the rest of the word in hand. -/
theorem Scan.foldl_continued (hstate : s.state = .bareParam) (hescaped : s.escaped = false)
    {word : Bytes} (hword : ∀ c ∈ word, Plain c) {args : List Bytes} (hne : args ≠ [])
    (hargs : ∀ w ∈ args, w ≠ [] ∧ ∀ c ∈ w, Plain c) :
    let last := (List.intercalate [space] (word :: args)).foldl Scan.step s
    last.escaped = false ∧ last.quoted = false ∧
      last.words = s.params ++ (s.current ++ word) :: args := by
  obtain ⟨arg, rest, rfl⟩ := List.exists_cons_of_ne_nil hne
  rw [List.intercalate_cons_cons, List.foldl_append, List.foldl_append,
    Scan.foldl_bare hstate hescaped hword, List.foldl_cons, List.foldl_nil,
    Scan.step_space_bare (s := { s with current := s.current ++ word }) hstate hescaped]
  obtain ⟨hlastEscaped, hlastQuoted, hwords⟩ := Scan.foldl_line
    (s := { s with params := s.params ++ [s.current ++ word], current := s.current ++ word,
                   state := .between }) rfl hescaped hne hargs
  refine ⟨hlastEscaped, hlastQuoted, ?_⟩
  rw [hwords, List.append_assoc, List.singleton_append]

/-- The space after the user's text, which is missing when there is none. -/
def gap (text : Bytes) : Bytes := if text = [] then [] else [space]

/-- After a text that ends outside of quotes and is not left open, the space
closes the last word. -/
theorem Scan.foldl_gap {text : Bytes} (hquoted : (scan text).quoted = false)
    (hdangling : (scan text).dangling = false) :
    let s := (gap text).foldl Scan.step (scan text)
    s.state = .between ∧ s.escaped = false ∧ s.params = (scan text).words := by
  have hsound := scan_sound text
  by_cases htext : text = []
  · subst htext
    exact ⟨rfl, rfl, rfl⟩
  · rw [gap, if_neg htext, List.foldl_cons, List.foldl_nil]
    generalize scan text = s at hquoted hdangling hsound
    obtain ⟨params, current, state, escaped⟩ := s
    cases state with
    | between =>
      have hescaped : escaped = false := hsound rfl
      exact ⟨rfl, hescaped, rfl⟩
    | doubleQuoted => cases hquoted
    | singleQuoted => cases hquoted
    | bareParam =>
      have hescaped : escaped = false := by simpa [Scan.dangling] using hdangling
      rw [Scan.step_space_bare rfl hescaped]
      exact ⟨rfl, hescaped, rfl⟩

/-- After an unpaired backslash the space is part of the word. -/
theorem Scan.foldl_gap_dangling {text : Bytes} (hdangling : (scan text).dangling = true) :
    (gap text).foldl Scan.step (scan text) =
      ⟨(scan text).params, (scan text).current ++ [space], .bareParam, false⟩ := by
  have htext : text ≠ [] := by
    rintro rfl
    cases hdangling
  rw [gap, if_neg htext, List.foldl_cons, List.foldl_nil]
  generalize scan text = s at hdangling
  obtain ⟨params, current, state, escaped⟩ := s
  obtain ⟨rfl, rfl⟩ : state = .bareParam ∧ escaped = true := by
    simpa [Scan.dangling] using hdangling
  rfl

theorem quoteFree_commandLine (text : Bytes) (sockFd : Int) :
    ∀ c ∈ gap text ++ (("--lock_path - --socket_path fd:" : Bytes) ++ intToString sockFd),
      c ≠ doubleQuote ∧ c ≠ singleQuote := by
  intro c hc
  rcases List.mem_append.mp hc with hgap | htail
  · have hspace : c = space := by
      unfold gap at hgap
      split at hgap <;> simp_all
    rw [hspace]
    decide
  · rcases List.mem_append.mp htail with hfixed | hnumber
    · exact (show ∀ c ∈ ("--lock_path - --socket_path fd:" : Bytes),
        c ≠ doubleQuote ∧ c ≠ singleQuote by decide +kernel) c hfixed
    · obtain ⟨-, hdouble, hsingle, -⟩ := plain_intToString sockFd c hnumber
      exact ⟨hdouble, hsingle⟩

/-- **What `_split_params` makes of the line**, for every text of the user. -/
theorem splitParams_commandLine (executable extraArgs : Bytes) (sockFd : Int) :
    splitParams executable (commandLine extraArgs sockFd) =
      if (scan (cstr extraArgs)).quoted then none
      else some (executable :: (scan (cstr extraArgs)).launchArgs sockFd) := by
  have hline : ∃ c ∈ commandLine extraArgs sockFd, c ≠ space :=
    ⟨0x2d, by simp [commandLine, Bytes.ofString], by decide⟩
  have hscan : scan (commandLine extraArgs sockFd) =
      (gap (cstr extraArgs) ++ (("--lock_path - --socket_path fd:" : Bytes) ++
        intToString sockFd)).foldl Scan.step (scan (cstr extraArgs)) := by
    rw [scan, commandLine, List.foldl_append]
    rfl
  rw [splitParams_of_scan hline, hscan]
  generalize cstr extraArgs = text
  cases hquoted : (scan text).quoted with
  | true =>
    have hlast := Scan.foldl_quoted hquoted (quoteFree_commandLine text sockFd)
    rw [hlast]
    simp
  | false =>
    rw [List.foldl_append, ← intercalate_mandatoryArgs]
    cases hdangling : (scan text).dangling with
    | false =>
      obtain ⟨hstate, hescaped, hparams⟩ := Scan.foldl_gap hquoted hdangling
      have hne : mandatoryArgs sockFd ≠ [] := List.cons_ne_nil _ _
      obtain ⟨hlastEscaped, hlastQuoted, hwords⟩ :=
        Scan.foldl_line hstate hescaped hne (plain_mandatoryArgs sockFd)
      rw [hlastEscaped, hlastQuoted, hwords, hparams, Scan.launchArgs, hdangling]
      simp
    | true =>
      have hplain := plain_mandatoryArgs sockFd
      rw [mandatoryArgs] at hplain ⊢
      rw [Scan.foldl_gap_dangling hdangling]
      obtain ⟨hlastEscaped, hlastQuoted, hwords⟩ := Scan.foldl_continued
        (s := ⟨(scan text).params, (scan text).current ++ [space], .bareParam, false⟩) rfl rfl
        (hplain _ List.mem_cons_self).2 (List.cons_ne_nil _ _)
        (fun w hw => hplain w (List.mem_cons_of_mem _ hw))
      rw [hlastEscaped, hlastQuoted, hwords, Scan.launchArgs, hdangling]
      simp [danglingWord]

end DdAppsec.Extension
