import DdAppsec.Extension.HelperArgs
import DdAppsec.Lib.Memory
import DdAppsec.Lib.Text

/-!
# Extension — the buffer behind the arguments of the helper

`splitParams` gives the words of a line; `splitParamsInto` is `_split_params`
with its memory: the words are written one behind the other into a buffer of
the line's size, and `argv` holds pointers into it.

`ParamScan.Tracks` connects the two scans. On it rest the bound of the buffer,
the ownership (`argv[1]` is what the callers free) and, through the scan of
`splitParams`, that quoted arguments come back as they were and when there is
no result at all.
-/

namespace DdAppsec.Extension

open Lib

/-! ## `_split_params` -/

/-- The variables of the loop: `wp` and `paramStart` are pointers, `ret` is
the part of the array behind the executable. -/
structure ParamScan where
  memory : Memory
  wp : Nat
  paramStart : Nat
  ret : List Nat
  state : SplitState
  escaped : Bool

/-- `*wp++ = c`. -/
def ParamScan.put (s : ParamScan) (c : UInt8) : ParamScan :=
  { s with memory := s.memory.write s.wp [c], wp := s.wp + 1 }

/-- One character of the line. -/
def ParamScan.step (s : ParamScan) (c : UInt8) : ParamScan :=
  match s.state with
  | .between =>
    if c = space then s
    else if c = doubleQuote then { s with state := .doubleQuoted, paramStart := s.wp }
    else if c = singleQuote then { s with state := .singleQuoted, paramStart := s.wp }
    else if c = backslash then
      { s with state := .bareParam, escaped := true, paramStart := s.wp }
    else { s.put c with state := .bareParam, paramStart := s.wp }
  | .doubleQuoted | .singleQuoted =>
    if s.escaped then { s.put c with escaped := false }
    else if c = (if s.state = .doubleQuoted then doubleQuote else singleQuote) then
      { s with state := .bareParam }
    else if c = backslash then { s with escaped := true }
    else s.put c
  | .bareParam =>
    if s.escaped then { s.put c with escaped := false }
    else if c = backslash then { s with escaped := true }
    else if c = doubleQuote then { s with state := .doubleQuoted }
    else if c = singleQuote then { s with state := .singleQuoted }
    else if c = space then
      { s.put 0 with ret := s.ret ++ [s.paramStart], state := .between }
    else s.put c

/-- What the call leaves behind: `argv`, and the memory. -/
structure SplitOutcome where
  argv : Option (List Nat)
  memory : Memory

/-- `_split_params`. `paramsBuffer` is what `emalloc` returns. -/
def splitParamsInto (executable paramsBuffer : Nat) (memory : Memory) (params : CText) :
    SplitOutcome :=
  match params.val.dropWhile (· = space) with
  | [] => ⟨some [executable], memory⟩
  | p =>
    let s := p.foldl ParamScan.step ⟨memory, paramsBuffer, paramsBuffer, [], .between, false⟩
    if s.escaped then ⟨none, s.memory⟩
    else if s.state = .singleQuoted ∨ s.state = .doubleQuoted then ⟨none, s.memory⟩
    else if s.state ≠ .between then
      ⟨some (executable :: (s.ret ++ [s.paramStart])), s.memory.write s.wp [0]⟩
    else ⟨some (executable :: s.ret), s.memory⟩

/-! ## The two scans -/

/-- The scan with memory is where the scan of words is, `read` characters
into the line: the finished words are C strings below the write pointer, and
the word in hand ends at it. -/
structure ParamScan.Tracks (buffer : Nat) (start : Memory) (read : Nat) (s : ParamScan)
    (t : Scan) : Prop where
  state : s.state = t.state
  escaped : s.escaped = t.escaped
  params : List.Forall₂ (fun p w => CString s.memory p w ∧ p + w.length < s.wp) s.ret t.params
  current : s.state ≠ .between → s.paramStart + t.current.length = s.wp ∧
    s.memory.read s.paramStart t.current.length = t.current ∧ 0 ∉ t.current
  low : buffer ≤ s.wp
  high : s.wp ≤ buffer + read
  outside : ∀ a, a < buffer ∨ s.wp ≤ a → s.memory a = start a
  first : ∀ p ∈ s.ret.head?, p = buffer
  firstStart : s.ret = [] → if s.state = .between then s.wp = buffer else s.paramStart = buffer

section Tracks

variable {buffer read : Nat} {start : Memory} {s : ParamScan} {t : Scan}

/-- A write at the write pointer leaves the finished words alone. -/
theorem ParamScan.Tracks.params_put (h : s.Tracks buffer start read t) (c : UInt8) :
    List.Forall₂ (fun p w => CString (s.put c).memory p w ∧ p + w.length < (s.put c).wp)
      s.ret t.params := by
  refine h.params.imp fun p w ⟨hstring, hbelow⟩ => ⟨hstring.congr fun a _ ha => ?_, ?_⟩
  · exact Memory.write_outside (Or.inl (by omega))
  · exact Nat.lt_succ_of_lt hbelow

theorem ParamScan.Tracks.outside_put (h : s.Tracks buffer start read t) (c : UInt8) (a : Nat)
    (ha : a < buffer ∨ (s.put c).wp ≤ a) : (s.put c).memory a = start a := by
  have hlow := h.low
  have hput : (s.put c).wp = s.wp + 1 := rfl
  have hkept : (s.put c).memory a = s.memory a :=
    Memory.write_outside (by rw [List.length_singleton]; omega)
  rw [hkept]
  exact h.outside a (by omega)

/-- Nothing is written within a word. -/
theorem ParamScan.Tracks.flag (h : s.Tracks buffer start read t) (hstate : s.state ≠ .between)
    {state : SplitState} (hnew : state ≠ .between) (escaped : Bool) :
    ({ s with state := state, escaped := escaped } : ParamScan).Tracks buffer start read
      { t with state := state, escaped := escaped } where
  state := rfl
  escaped := rfl
  params := h.params
  current := fun _ => h.current hstate
  low := h.low
  high := h.high
  outside := h.outside
  first := h.first
  firstStart := fun hret => by
    have hfirst := h.firstStart hret
    rw [if_neg hstate] at hfirst
    rw [if_neg hnew]
    exact hfirst

/-- A character of the word in hand. -/
theorem ParamScan.Tracks.put (h : s.Tracks buffer start read t) (hstate : s.state ≠ .between)
    {c : UInt8} (hc : c ≠ 0) (escaped : Bool) :
    ({ s.put c with escaped := escaped } : ParamScan).Tracks buffer start (read + 1)
      { t with current := t.current ++ [c], escaped := escaped } where
  state := h.state
  escaped := rfl
  params := h.params_put c
  current := fun _ => by
    obtain ⟨hwp, hread, hnul⟩ := h.current hstate
    have hgrown := Memory.read_write_append s.memory [c] hwp.symm
    rw [hread] at hgrown
    refine ⟨?_, ?_, ?_⟩
    · show s.paramStart + (t.current ++ [c]).length = s.wp + 1
      rw [List.length_append, ← Nat.add_assoc, hwp, List.length_singleton]
    · rwa [List.length_append]
    · simpa using ⟨hnul, hc.symm⟩
  low := Nat.le_succ_of_le h.low
  high := Nat.succ_le_succ h.high
  outside := h.outside_put c
  first := h.first
  firstStart := fun hret => by
    have hfirst := h.firstStart hret
    rw [if_neg hstate] at hfirst
    show if s.state = .between then s.wp + 1 = buffer else s.paramStart = buffer
    rw [if_neg hstate]
    exact hfirst

/-- A word begins at the write pointer. -/
theorem ParamScan.Tracks.begin (h : s.Tracks buffer start read t) (hstate : s.state = .between)
    {state : SplitState} (hnew : state ≠ .between) (escaped : Bool) :
    ({ s with state := state, escaped := escaped, paramStart := s.wp } : ParamScan).Tracks
      buffer start read { t with state := state, escaped := escaped, current := [] } where
  state := rfl
  escaped := rfl
  params := h.params
  current := fun _ => ⟨rfl, rfl, List.not_mem_nil⟩
  low := h.low
  high := h.high
  outside := h.outside
  first := h.first
  firstStart := fun hret => by
    have hfirst := h.firstStart hret
    rw [if_pos hstate] at hfirst
    rw [if_neg hnew]
    exact hfirst

/-- The word in hand is finished by a NUL. -/
theorem ParamScan.Tracks.close (h : s.Tracks buffer start read t) (hstate : s.state ≠ .between) :
    ({ s.put 0 with ret := s.ret ++ [s.paramStart], state := .between } : ParamScan).Tracks
      buffer start (read + 1) { t with params := t.params ++ [t.current], state := .between } where
  state := rfl
  escaped := h.escaped
  params := by
    obtain ⟨hwp, hread, hnul⟩ := h.current hstate
    have hword : CString (s.put 0).memory s.paramStart t.current := by
      rw [ParamScan.put, ← hwp]
      exact CString.write_nul hread hnul
    refine List.rel_append (h.params_put 0) (List.Forall₂.cons ⟨hword, ?_⟩ List.Forall₂.nil)
    exact Nat.lt_succ_of_le (Nat.le_of_eq hwp)
  current := fun hne => absurd rfl hne
  low := Nat.le_succ_of_le h.low
  high := Nat.succ_le_succ h.high
  outside := h.outside_put 0
  first := fun p hp => by
    cases hret : s.ret with
    | nil =>
      have hfirst := h.firstStart hret
      rw [if_neg hstate] at hfirst
      simp only [hret, List.nil_append, List.head?_cons, Option.mem_some_iff] at hp
      rw [← hp, hfirst]
    | cons q ret =>
      simp only [hret, List.cons_append, List.head?_cons, Option.mem_some_iff] at hp
      exact h.first p (by rw [hret, List.head?_cons, hp]; rfl)
  firstStart := fun hret => absurd hret (by simp)

theorem ParamScan.Tracks.skip (h : s.Tracks buffer start read t) :
    s.Tracks buffer start (read + 1) t :=
  { h with high := Nat.le_succ_of_le h.high }

/-- **One character**: the two scans stay together. -/
theorem ParamScan.Tracks.step (h : s.Tracks buffer start read t) {c : UInt8} (hc : c ≠ 0) :
    (s.step c).Tracks buffer start (read + 1) (t.step c) := by
  obtain ⟨memory, wp, paramStart, ret, state, escaped⟩ := s
  obtain ⟨params, current, tstate, tescaped⟩ := t
  obtain rfl : state = tstate := h.state
  obtain rfl : escaped = tescaped := h.escaped
  -- what a character within a word does, whichever delimiter ends it
  have hescape (hstate : state ≠ .between) := h.put hstate hc false
  have hputs (hstate : state ≠ .between) := h.put hstate hc escaped
  cases state with
  | between =>
    have hbegin {new : SplitState} (hnew : new ≠ .between) (e : Bool) := h.begin rfl hnew e
    simp only [ParamScan.step, Scan.step]
    by_cases hspace : c = space
    · rw [if_pos hspace, if_pos hspace]
      exact h.skip
    rw [if_neg hspace, if_neg hspace]
    by_cases hdouble : c = doubleQuote
    · rw [if_pos hdouble, if_pos hdouble]
      exact (hbegin (by decide) escaped).skip
    rw [if_neg hdouble, if_neg hdouble]
    by_cases hsingle : c = singleQuote
    · rw [if_pos hsingle, if_pos hsingle]
      exact (hbegin (by decide) escaped).skip
    rw [if_neg hsingle, if_neg hsingle]
    by_cases hback : c = backslash
    · rw [if_pos hback, if_pos hback]
      exact (hbegin (by decide) true).skip
    rw [if_neg hback, if_neg hback]
    have hbare := hbegin (show SplitState.bareParam ≠ .between by decide) escaped
    exact hbare.put SplitState.noConfusion hc escaped
  | doubleQuoted | singleQuoted =>
    have hstate : ∀ {new : SplitState}, new ≠ .between → ∀ e : Bool, _ :=
      fun hnew e => (h.flag SplitState.noConfusion hnew e).skip
    simp only [ParamScan.step, Scan.step, reduceCtorEq, if_true, if_false]
    cases escaped with
    | true => exact hescape (by decide)
    | false =>
      simp only [Bool.false_eq_true, if_false]
      split
      · exact hstate (by decide) false
      · split
        · exact hstate (by decide) true
        · exact hputs (by decide)
  | bareParam =>
    have hstate : ∀ {new : SplitState}, new ≠ .between → ∀ e : Bool, _ :=
      fun hnew e => (h.flag SplitState.noConfusion hnew e).skip
    simp only [ParamScan.step, Scan.step]
    cases escaped with
    | true => exact hescape (by decide)
    | false =>
      simp only [Bool.false_eq_true, if_false]
      split
      · exact hstate (by decide) true
      · split
        · exact hstate (by decide) false
        · split
          · exact hstate (by decide) false
          · split
            · exact h.close SplitState.noConfusion
            · exact hputs (by decide)

/-- **Loop lemma.** -/
theorem ParamScan.Tracks.foldl (h : s.Tracks buffer start read t) {text : Bytes}
    (htext : 0 ∉ text) : (text.foldl ParamScan.step s).Tracks buffer start (read + text.length)
      (text.foldl Scan.step t) := by
  induction text generalizing s t read with
  | nil => exact h
  | cons c text ih =>
    rw [List.mem_cons, not_or] at htext
    have hrest := ih (h.step (Ne.symm htext.1)) htext.2
    rwa [Nat.add_assoc, Nat.add_comm 1] at hrest

end Tracks

/-! ## The outcome -/

/-- `argv` is the executable and pointers to these strings. -/
def SplitOutcome.Holds (o : SplitOutcome) (executable : Nat) (words : List Bytes) : Prop :=
  ∃ argv, o.argv = some (executable :: argv) ∧ List.Forall₂ (CString o.memory) argv words

/-- **The outcome against the words of the line.** Nothing outside a buffer of
`size` bytes changes, and the first argument is at its start. -/
structure SplitOutcome.Agrees (o : SplitOutcome) (executable buffer size : Nat)
    (memory : Memory) (words : Option (List Bytes)) : Prop where
  none : words = none ↔ o.argv = none
  some : ∀ ws ∈ words, o.Holds executable ws
  outside : ∀ a, a < buffer ∨ buffer + size ≤ a → o.memory a = memory a
  first : ∀ argv p, o.argv = .some argv → p ∈ argv.tail.head? → p = buffer

section Outcome

variable {buffer read : Nat} {memory : Memory} {s : ParamScan} {t : Scan}

/-- The end of a scan without an open quote. -/
theorem ParamScan.Tracks.finish (h : s.Tracks buffer memory read t) (executable : Nat) :
    (if s.state ≠ .between then
        ⟨some (executable :: (s.ret ++ [s.paramStart])), s.memory.write s.wp [0]⟩
      else ⟨some (executable :: s.ret), s.memory⟩ : SplitOutcome).Agrees executable buffer
        (read + 1) memory (some t.words) := by
  have hdrop {mem : Memory} {bound : Nat} {ret : List Nat} {params : List Bytes}
      (hparams : List.Forall₂ (fun p w => CString mem p w ∧ p + w.length < bound) ret params) :
      List.Forall₂ (CString mem) ret params :=
    hparams.imp fun _ _ hword => hword.1
  by_cases hstate : s.state = .between
  · rw [if_neg (not_not.mpr hstate), Scan.words, if_pos (h.state ▸ hstate)]
    refine ⟨by simp, fun ws hws => ?_, fun a ha => ?_, fun argv p hargv hp => ?_⟩
    · cases hws
      exact ⟨s.ret, rfl, hdrop h.params⟩
    · have hhigh := h.high
      exact h.outside a (by omega)
    · cases hargv
      exact h.first p hp
  · have hclose := h.close hstate
    rw [if_pos hstate, Scan.words, if_neg (h.state ▸ hstate)]
    refine ⟨by simp, fun ws hws => ?_, fun a ha => ?_, fun argv p hargv hp => ?_⟩
    · cases hws
      exact ⟨s.ret ++ [s.paramStart], rfl, hdrop hclose.params⟩
    · have hhigh := hclose.high
      exact hclose.outside a (by omega)
    · cases hargv
      exact hclose.first p hp

/-- The end of a scan whose result is dropped. -/
theorem ParamScan.Tracks.dropped (h : s.Tracks buffer memory read t) (executable : Nat) :
    (⟨none, s.memory⟩ : SplitOutcome).Agrees executable buffer (read + 1) memory none where
  none := iff_of_true rfl rfl
  some := nofun
  outside := fun a ha => by
    have hhigh := h.high
    exact h.outside a (by omega)
  first := nofun

end Outcome

/-- The words of a line, as `splitParams` gives them. -/
def lineWords (line : Bytes) : Option (List Bytes) :=
  if (scan line).escaped then none
  else if (scan line).quoted then none
  else some (scan line).words

theorem lineWords_dropWhile (line : Bytes) :
    lineWords (line.dropWhile (· = space)) = lineWords line := by
  rw [lineWords, scan_dropWhile, ← lineWords]

theorem splitParams_eq (executable line : Bytes) :
    splitParams executable line = (lineWords line).map (executable :: ·) := by
  rw [← lineWords_dropWhile, splitParams, lineWords]
  cases line.dropWhile (· = space) with
  | nil => rfl
  | cons c rest =>
    dsimp only
    split
    · rfl
    · split <;> rfl

theorem lineWords_eq_none_iff (line : Bytes) :
    lineWords line = none ↔ (scan line).escaped = true ∨ (scan line).quoted = true := by
  unfold lineWords
  cases (scan line).escaped <;> cases (scan line).quoted <;> simp

/-- **`_split_params` with its memory refines the one without.** -/
theorem splitParamsInto_agrees (executable buffer : Nat) (memory : Memory) (line : CText) :
    (splitParamsInto executable buffer memory line).Agrees executable buffer
      (line.val.length + 1) memory (lineWords line.val) := by
  have hlength : (line.val.dropWhile (· = space)).length ≤ line.val.length :=
    (List.dropWhile_sublist _).length_le
  have hnul : 0 ∉ line.val.dropWhile (· = space) := fun h =>
    line.property ((List.dropWhile_sublist _).subset h)
  rw [← lineWords_dropWhile, splitParamsInto]
  generalize line.val.dropWhile (· = space) = p at hlength hnul
  cases p with
  | nil =>
    refine ⟨by simp [lineWords, scan, Scan.start, Scan.quoted], fun ws hws => ?_,
      fun a _ => rfl, fun argv p hargv hp => ?_⟩
    · cases hws
      exact ⟨[], rfl, List.Forall₂.nil⟩
    · cases hargv
      cases hp
  | cons c rest =>
    have hstart : (⟨memory, buffer, buffer, [], .between, false⟩ : ParamScan).Tracks buffer
        memory 0 Scan.start :=
      ⟨rfl, rfl, List.Forall₂.nil, fun h => absurd rfl h, Nat.le_refl _, Nat.le_refl _,
        fun _ _ => rfl, (fun p hp => by cases hp), fun _ => rfl⟩
    have htracks := hstart.foldl hnul
    rw [Nat.zero_add] at htracks
    have hfinish := htracks.finish executable
    dsimp only
    rw [lineWords, scan]
    generalize (c :: rest).foldl ParamScan.step _ = s at htracks hfinish
    generalize (c :: rest).foldl Scan.step Scan.start = t at htracks hfinish
    have hmono {o : SplitOutcome} {words : Option (List Bytes)}
        (h : o.Agrees executable buffer ((c :: rest).length + 1) memory words) :
        o.Agrees executable buffer (line.val.length + 1) memory words :=
      { h with outside := fun a ha => h.outside a (by omega) }
    have hquoted : t.quoted = true ↔ s.state = .singleQuoted ∨ s.state = .doubleQuoted := by
      rw [htracks.state, Scan.quoted, Bool.or_eq_true, decide_eq_true_eq, decide_eq_true_eq,
        or_comm]
    apply hmono
    rw [← htracks.escaped]
    cases s.escaped with
    | true => exact htracks.dropped executable
    | false =>
      by_cases hopen : s.state = .singleQuoted ∨ s.state = .doubleQuoted
      · rw [if_neg Bool.false_ne_true, if_neg Bool.false_ne_true, if_pos hopen,
          if_pos (hquoted.mpr hopen)]
        exact htracks.dropped executable
      · rw [if_neg Bool.false_ne_true, if_neg Bool.false_ne_true, if_neg hopen,
          if_neg (mt hquoted.mp hopen)]
        exact hfinish

/-! ## Lines without a result -/

def IsQuote (c : UInt8) : Prop := c = doubleQuote ∨ c = singleQuote

/-- Every quote of the text is closed, and every backslash stands before a
character. -/
inductive Closed : Bytes → Prop where
  | nil : Closed []
  | plain {c : UInt8} {text : Bytes} : ¬ IsQuote c → c ≠ backslash → Closed text →
      Closed (c :: text)
  | escaped {c : UInt8} {text : Bytes} : Closed text → Closed (backslash :: c :: text)
  | quoted {q : UInt8} {body text : Bytes} : IsQuote q → EscapedText backslash q body →
      Closed text → Closed (q :: (body ++ q :: text))

/-- Behind a closed text there is a quote that nothing closes. -/
def QuoteLeftOpen (line : Bytes) : Prop :=
  ∃ before q body, Closed before ∧ IsQuote q ∧ line = before ++ q :: body ∧
    (EscapedText backslash q body ∨
      ∃ text, EscapedText backslash q text ∧ body = text ++ [backslash])

/-- The line ends in an odd number of backslashes. -/
def EndsUnpaired (line : Bytes) : Prop :=
  (line.reverse.takeWhile (· = backslash)).length % 2 = 1

section Escapes

variable {s : Scan} {c : UInt8}

/-- A backslash escapes, in whatever state, unless it is escaped itself. -/
theorem Scan.step_escaped (h : s.Sound) :
    (s.step c).escaped = (!s.escaped && decide (c = backslash)) := by
  obtain ⟨params, current, state, escaped⟩ := s
  cases state with
  | between =>
    obtain rfl : escaped = false := h rfl
    simp only [Scan.step]
    grind [space, doubleQuote, singleQuote, backslash]
  | doubleQuoted | singleQuoted | bareParam =>
    simp only [Scan.step]
    grind [space, doubleQuote, singleQuote, backslash]

theorem endsUnpaired_append (line : Bytes) (c : UInt8) :
    EndsUnpaired (line ++ [c]) ↔ c = backslash ∧ ¬ EndsUnpaired line := by
  unfold EndsUnpaired
  rw [List.reverse_append, List.reverse_singleton, List.singleton_append]
  by_cases hc : c = backslash
  · rw [List.takeWhile_cons_of_pos (by simpa using hc), List.length_cons, and_iff_right hc]
    omega
  · rw [List.takeWhile_cons_of_neg (by simpa using hc)]
    simp [hc]

theorem scan_append (line : Bytes) (c : UInt8) : scan (line ++ [c]) = (scan line).step c := by
  rw [scan, List.foldl_append]
  rfl

theorem scan_escaped_iff (line : Bytes) : (scan line).escaped = true ↔ EndsUnpaired line := by
  induction line using List.reverseRecOn with
  | nil => exact iff_of_false Bool.false_ne_true (by simp [EndsUnpaired])
  | append_singleton line c ih =>
    rw [endsUnpaired_append, ← ih, scan_append, Scan.step_escaped (scan_sound line)]
    cases (scan line).escaped <;> simp

end Escapes

section Quotes

variable {s : Scan} {q : UInt8} {text : Bytes}

/-- The state between two of these quotes. -/
def quotedBy (q : UInt8) : SplitState :=
  if q = doubleQuote then .doubleQuoted else .singleQuoted

/-- Outside of quotes, and with no backslash before. -/
def Scan.Open (s : Scan) : Prop := s.quoted = false ∧ s.escaped = false

/-- Between two of these quotes, and with no backslash before. -/
def Scan.Within (q : UInt8) (s : Scan) : Prop := s.state = quotedBy q ∧ s.escaped = false

theorem Scan.Open.step_quote (h : s.Open) (hq : IsQuote q) : (s.step q).Within q := by
  obtain ⟨params, current, state, escaped⟩ := s
  obtain ⟨hquoted, rfl⟩ : Scan.quoted ⟨params, current, state, escaped⟩ = false ∧
    escaped = false := h
  cases state with
  | between | bareParam =>
    rcases hq with rfl | rfl
    · exact ⟨rfl, rfl⟩
    · exact ⟨rfl, rfl⟩
  | doubleQuoted | singleQuoted => cases hquoted

theorem Scan.Open.step_plain {c : UInt8} (h : s.Open) (hquote : ¬ IsQuote c)
    (hback : c ≠ backslash) : (s.step c).Open := by
  obtain ⟨params, current, state, escaped⟩ := s
  obtain ⟨hquoted, rfl⟩ : Scan.quoted ⟨params, current, state, escaped⟩ = false ∧
    escaped = false := h
  obtain ⟨hdouble, hsingle⟩ := not_or.mp hquote
  cases state with
  | between | bareParam =>
    simp only [Scan.step, if_neg hdouble, if_neg hsingle, if_neg hback, Bool.false_eq_true,
      if_false]
    split <;> exact ⟨rfl, rfl⟩
  | doubleQuoted | singleQuoted => cases hquoted

/-- A backslash outside of quotes begins or continues a word. -/
theorem Scan.Open.step_backslash (h : s.Open) :
    (s.step backslash).state = .bareParam ∧ (s.step backslash).escaped = true := by
  obtain ⟨params, current, state, escaped⟩ := s
  obtain ⟨hquoted, rfl⟩ : Scan.quoted ⟨params, current, state, escaped⟩ = false ∧
    escaped = false := h
  cases state with
  | between | bareParam => exact ⟨rfl, rfl⟩
  | doubleQuoted | singleQuoted => cases hquoted

theorem Scan.Within.step_backslash (h : s.Within q) :
    (s.step backslash).state = quotedBy q ∧ (s.step backslash).escaped = true := by
  obtain ⟨params, current, state, escaped⟩ := s
  obtain ⟨rfl, rfl⟩ : state = quotedBy q ∧ escaped = false := h
  unfold quotedBy
  split <;> exact ⟨rfl, rfl⟩

/-- The character behind a backslash stands for itself. -/
theorem Scan.step_of_escaped (hstate : s.state ≠ .between) (hescaped : s.escaped = true)
    (c : UInt8) : s.step c = { s with current := s.current ++ [c], escaped := false } := by
  obtain ⟨params, current, state, escaped⟩ := s
  obtain rfl : escaped = true := hescaped
  cases state with
  | between => exact absurd rfl hstate
  | doubleQuoted | singleQuoted | bareParam => rfl

theorem Scan.Within.step_plain {c : UInt8} (h : s.Within q) (hq : IsQuote q) (hquote : c ≠ q)
    (hback : c ≠ backslash) : (s.step c).Within q := by
  obtain ⟨params, current, state, escaped⟩ := s
  obtain ⟨rfl, rfl⟩ : state = quotedBy q ∧ escaped = false := h
  rcases hq with rfl | rfl
  · show Scan.Within _ (Scan.step ⟨params, current, .doubleQuoted, false⟩ c)
    simp only [Scan.step, if_neg hquote, if_neg hback, Bool.false_eq_true, if_false]
    exact ⟨rfl, rfl⟩
  · show Scan.Within _ (Scan.step ⟨params, current, .singleQuoted, false⟩ c)
    simp only [Scan.step, if_neg hquote, if_neg hback, Bool.false_eq_true, if_false]
    exact ⟨rfl, rfl⟩

theorem Scan.Within.step_quote (h : s.Within q) (hq : IsQuote q) : (s.step q).Open := by
  obtain ⟨params, current, state, escaped⟩ := s
  obtain ⟨rfl, rfl⟩ : state = quotedBy q ∧ escaped = false := h
  rcases hq with rfl | rfl <;> exact ⟨rfl, rfl⟩

theorem quotedBy_ne_between (q : UInt8) : quotedBy q ≠ .between := by
  unfold quotedBy
  split <;> decide

/-- A text between two quotes stays between them. -/
theorem Scan.Within.foldl (h : s.Within q) (hq : IsQuote q)
    (htext : EscapedText backslash q text) : (text.foldl Scan.step s).Within q := by
  induction htext generalizing s with
  | nil => exact h
  | plain hquote hback _ ih => exact ih (h.step_plain hq hquote hback)
  | escaped _ ih =>
    obtain ⟨hstate, hescaped⟩ := h.step_backslash
    rw [List.foldl_cons, List.foldl_cons,
      Scan.step_of_escaped (hstate ▸ quotedBy_ne_between q) hescaped]
    exact ih ⟨hstate, rfl⟩

/-- A closed text leaves the scan outside of quotes. -/
theorem Scan.Open.foldl (h : s.Open) (htext : Closed text) : (text.foldl Scan.step s).Open := by
  induction htext generalizing s with
  | nil => exact h
  | plain hquote hback _ ih => exact ih (h.step_plain hquote hback)
  | escaped _ ih =>
    obtain ⟨hstate, hescaped⟩ := h.step_backslash
    rw [List.foldl_cons, List.foldl_cons, Scan.step_of_escaped (by rw [hstate]; decide) hescaped]
    exact ih ⟨by simp [Scan.quoted, hstate], rfl⟩
  | quoted hq hbody _ ih =>
    rw [List.foldl_cons, List.foldl_append, List.foldl_cons]
    exact ih (((h.step_quote hq).foldl hq hbody).step_quote hq)

/-- What follows a quote: its end, or no end. -/
theorem cut_at_quote (q : UInt8) : ∀ text : Bytes,
    (∃ body rest, EscapedText backslash q body ∧ text = body ++ q :: rest) ∨
      EscapedText backslash q text ∨
      ∃ body, EscapedText backslash q body ∧ text = body ++ [backslash]
  | [] => Or.inr (Or.inl .nil)
  | c :: text => by
    have hgrow {body : Bytes} (hc : c ≠ q ∧ c ≠ backslash) (h : EscapedText backslash q body) :
        EscapedText backslash q (c :: body) := .plain hc.1 hc.2 h
    by_cases hquote : c = q
    · exact Or.inl ⟨[], text, .nil, by rw [hquote]; rfl⟩
    by_cases hback : c = backslash
    · subst hback
      match text with
      | [] => exact Or.inr (Or.inr ⟨[], .nil, rfl⟩)
      | d :: text =>
        rcases cut_at_quote q text with ⟨body, rest, hbody, rfl⟩ | hbody | ⟨body, hbody, rfl⟩
        · exact Or.inl ⟨_, rest, .escaped (c := d) hbody, rfl⟩
        · exact Or.inr (Or.inl (.escaped hbody))
        · exact Or.inr (Or.inr ⟨_, .escaped (c := d) hbody, rfl⟩)
    · rcases cut_at_quote q text with ⟨body, rest, hbody, rfl⟩ | hbody | ⟨body, hbody, rfl⟩
      · exact Or.inl ⟨c :: body, rest, hgrow ⟨hquote, hback⟩ hbody, rfl⟩
      · exact Or.inr (Or.inl (hgrow ⟨hquote, hback⟩ hbody))
      · exact Or.inr (Or.inr ⟨c :: body, hgrow ⟨hquote, hback⟩ hbody, rfl⟩)

/-- A closed text may stand in front of each of the three kinds of line. -/
theorem closed_or_open_of_rest (front : Bytes) {rest : Bytes}
    (hfront : ∀ {text : Bytes}, Closed text → Closed (front ++ text))
    (h : Closed rest ∨ (∃ text, Closed text ∧ rest = text ++ [backslash]) ∨ QuoteLeftOpen rest) :
    Closed (front ++ rest) ∨ (∃ text, Closed text ∧ front ++ rest = text ++ [backslash]) ∨
      QuoteLeftOpen (front ++ rest) := by
  rcases h with hclosed | ⟨text, htext, rfl⟩ | ⟨before, q, body, hbefore, hq, rfl, hbody⟩
  · exact Or.inl (hfront hclosed)
  · exact Or.inr (Or.inl ⟨front ++ text, hfront htext, by rw [List.append_assoc]⟩)
  · exact Or.inr (Or.inr ⟨front ++ before, q, body, hfront hbefore, hq,
      by rw [List.append_assoc], hbody⟩)

/-- **Every line** is closed, ends outside of quotes in an unpaired backslash,
or leaves a quote open. -/
theorem closed_or_open (line : Bytes) :
    Closed line ∨ (∃ text, Closed text ∧ line = text ++ [backslash]) ∨ QuoteLeftOpen line := by
  -- by the length of the line: a quoted text is passed at once
  induction h : line.length using Nat.strongRecOn generalizing line with
  | ind n ih =>
    subst h
    cases line with
    | nil => exact Or.inl .nil
    | cons c line =>
      by_cases hquote : IsQuote c
      · rcases cut_at_quote c line with ⟨body, rest, hbody, rfl⟩ | hopen | hopen
        · have hrest := ih rest.length (by simp only [List.length_cons, List.length_append]; omega)
            rest rfl
          rw [show c :: (body ++ c :: rest) = (c :: body ++ [c]) ++ rest by simp]
          refine closed_or_open_of_rest (c :: body ++ [c]) (fun htext => ?_) hrest
          rw [List.append_assoc, List.singleton_append]
          exact .quoted hquote hbody htext
        · exact Or.inr (Or.inr ⟨[], c, line, .nil, hquote, rfl, Or.inl hopen⟩)
        · exact Or.inr (Or.inr ⟨[], c, line, .nil, hquote, rfl, Or.inr hopen⟩)
      by_cases hback : c = backslash
      · subst hback
        cases line with
        | nil => exact Or.inr (Or.inl ⟨[], .nil, rfl⟩)
        | cons d line =>
          exact closed_or_open_of_rest [backslash, d] Closed.escaped
            (ih line.length (by simp only [List.length_cons]; omega) line rfl)
      · exact closed_or_open_of_rest [c] (Closed.plain hquote hback)
          (ih line.length (by simp) line rfl)

theorem scan_quoted_iff (line : Bytes) : (scan line).quoted = true ↔ QuoteLeftOpen line := by
  have hstart : Scan.start.Open := ⟨rfl, rfl⟩
  constructor
  · intro hquoted
    rcases closed_or_open line with hclosed | ⟨text, htext, rfl⟩ | hopen
    · have hscan : (scan line).Open := hstart.foldl hclosed
      rw [hscan.1] at hquoted
      cases hquoted
    · have hscan : (scan text).Open := hstart.foldl htext
      rw [scan_append, Scan.quoted, hscan.step_backslash.1] at hquoted
      cases hquoted
    · exact hopen
  · rintro ⟨before, q, body, hbefore, hq, rfl, hbody⟩
    rw [scan, List.foldl_append, List.foldl_cons]
    have hwithin := (hstart.foldl hbefore).step_quote hq
    have hstate : (body.foldl Scan.step ((before.foldl Scan.step Scan.start).step q)).state =
        quotedBy q := by
      rcases hbody with htext | ⟨text, htext, rfl⟩
      · exact (hwithin.foldl hq htext).1
      · rw [List.foldl_append, List.foldl_cons, List.foldl_nil]
        exact (hwithin.foldl hq htext).step_backslash.1
    rw [Scan.quoted, hstate, quotedBy]
    split <;> rfl

end Quotes

/-! ## Quoted arguments -/

/-- A backslash before every double quote and backslash. -/
def escapedArg (arg : Bytes) : Bytes :=
  arg.flatMap fun c => if c = doubleQuote ∨ c = backslash then [backslash, c] else [c]

def quotedArg (arg : Bytes) : Bytes := doubleQuote :: (escapedArg arg ++ [doubleQuote])

theorem nul_not_mem_quotedArg {arg : Bytes} (harg : 0 ∉ arg) : 0 ∉ quotedArg arg := by
  have hescaped : 0 ∉ escapedArg arg := by
    intro h
    obtain ⟨c, hc, hin⟩ := List.mem_flatMap.mp h
    split at hin
    · have hzero : c = 0 := by simpa [backslash, eq_comm] using hin
      exact harg (hzero ▸ hc)
    · exact harg (List.mem_singleton.mp hin ▸ hc)
  simpa [quotedArg, doubleQuote] using hescaped

theorem nul_not_mem_joined {words : List Bytes} (hwords : ∀ w ∈ words, 0 ∉ w) :
    0 ∉ List.intercalate [space] words := by
  induction words with
  | nil => simp
  | cons w words ih =>
    have hw := hwords w List.mem_cons_self
    have ih := ih fun v hv => hwords v (List.mem_cons_of_mem w hv)
    cases words with
    | nil => simpa using hw
    | cons v words =>
      rw [List.intercalate_cons_cons]
      simpa [space] using ⟨hw, ih⟩

/-- The double-quoted arguments, joined by spaces. -/
def quotedLine (args : List CText) : CText :=
  ⟨List.intercalate [space] ((args.map Subtype.val).map quotedArg), by
    apply nul_not_mem_joined
    intro w hw
    obtain ⟨arg, harg, rfl⟩ := List.mem_map.mp hw
    obtain ⟨arg, -, rfl⟩ := List.mem_map.mp harg
    exact nul_not_mem_quotedArg arg.property⟩

/-- Between the quotes an escaped text is read as it was. -/
theorem foldl_escapedArg {s : Scan} (hstate : s.state = .doubleQuoted)
    (hescaped : s.escaped = false) (arg : Bytes) :
    (escapedArg arg).foldl Scan.step s = { s with current := s.current ++ arg } := by
  induction arg generalizing s with
  | nil => simp [escapedArg]
  | cons c arg ih =>
    have hchar : (if c = doubleQuote ∨ c = backslash then [backslash, c] else [c]).foldl
        Scan.step s = { s with current := s.current ++ [c] } := by
      obtain ⟨params, current, state, escaped⟩ := s
      obtain rfl : state = .doubleQuoted := hstate
      obtain rfl : escaped = false := hescaped
      split
      · rfl
      · rename_i hplain
        obtain ⟨hquote, hback⟩ := not_or.mp hplain
        simp [Scan.step, hquote, hback]
    rw [escapedArg, List.flatMap_cons, List.foldl_append, hchar, ← escapedArg]
    rw [ih (s := { s with current := s.current ++ [c] }) hstate hescaped]
    simp

theorem foldl_quotedArg {s : Scan} (hstate : s.state = .between) (hescaped : s.escaped = false)
    (arg : Bytes) :
    (quotedArg arg).foldl Scan.step s = { s with current := arg, state := .bareParam } := by
  have hopen : s.step doubleQuote = { s with current := [], state := .doubleQuoted } := by
    rw [Scan.step, hstate]
    rfl
  rw [quotedArg, List.foldl_cons, hopen, List.foldl_append,
    foldl_escapedArg (s := { s with current := [], state := .doubleQuoted }) rfl hescaped]
  rw [List.foldl_cons, List.foldl_nil, List.nil_append, Scan.step]
  simp [hescaped]

/-- **Quoted arguments come back.** -/
theorem lineWords_quotedLine (args : List CText) :
    lineWords (quotedLine args).val = some (args.map Subtype.val) := by
  show lineWords (List.intercalate [space] ((args.map Subtype.val).map quotedArg)) = _
  generalize args.map Subtype.val = words
  by_cases hne : words = []
  · subst hne
    rfl
  · obtain ⟨current, hfold, hlast⟩ := Scan.foldl_written quotedArg (s := Scan.start) rfl rfl hne
      fun w _ s hstate hescaped => foldl_quotedArg hstate hescaped w
    have hscan : scan (List.intercalate [space] (words.map quotedArg)) =
        ⟨words.dropLast, current, .bareParam, false⟩ := hfold
    rw [lineWords, hscan, hlast]
    simp [Scan.quoted, Scan.words]

/-- **`_split_params`**: double-quoted arguments come back behind the
executable; no result is given exactly if a quote is left open or a backslash
unpaired at the end; only the buffer is written to, and the first argument is
at its start. -/
theorem split_params_exact (executable buffer : Nat) (memory : Memory) :
    (∀ args : List CText, (splitParamsInto executable buffer memory (quotedLine args)).Holds
      executable (args.map Subtype.val)) ∧
    ∀ line : CText,
      let o := splitParamsInto executable buffer memory line
      (o.argv = none ↔ QuoteLeftOpen line.val ∨ EndsUnpaired line.val) ∧
      (∀ a, a < buffer ∨ buffer + (line.val.length + 1) ≤ a → o.memory a = memory a) ∧
      ∀ argv p, o.argv = some argv → p ∈ argv.tail.head? → p = buffer := by
  constructor
  · intro args
    have hagrees := splitParamsInto_agrees executable buffer memory (quotedLine args)
    exact hagrees.some _ (lineWords_quotedLine args)
  · intro line
    have hagrees := splitParamsInto_agrees executable buffer memory line
    refine ⟨?_, hagrees.outside, hagrees.first⟩
    rw [← hagrees.none, lineWords_eq_none_iff, scan_escaped_iff, scan_quoted_iff, or_comm]

end DdAppsec.Extension
