import DdAppsec.Extension.HelperArgs
import DdAppsec.Helper.Config

/-!
# Protocol — starting the helper

The extension appends `--lock_path - --socket_path fd:N` to the user's own
arguments, and the helper reads them back with its option parser. The socket
always arrives. The lock path does not: an option at the end of the user's text
takes `--lock_path` for its value, and an unpaired backslash makes it part of
the user's last word. `LockPathKept` says for which texts it arrives all the
same.
-/

namespace DdAppsec.Protocol

open Lib Extension Helper

def lockPath : Bytes := "lock_path"
def socketPath : Bytes := "socket_path"
def noLock : Bytes := "-"

/-- The words themselves leave `lock_path` at `-`. -/
def SetsLockPath (words : List Bytes) : Prop := lastValue lockPath (settings words) = some noLock

instance (words : List Bytes) : Decidable (SetsLockPath words) :=
  inferInstanceAs (Decidable (_ = _))

/-- The user's text lets the appended `--lock_path -` through, or says the same
itself. A last word that is left open by a backslash may not be an assignment
to `lock_path`, unless it is the value of the option before it. -/
def LockPathKept (extraArgs : Bytes) : Prop :=
  let s := scan (cstr extraArgs)
  if s.dangling then
    SetsLockPath s.params ∧
      (leavesOpen s.params = true ∨ ¬ ("--lock_path=" : Bytes) <+: s.current)
  else leavesOpen s.words = false ∨ SetsLockPath s.words

/-! ## The appended words -/

theorem settings_socket (sockFd : Int) :
    settings ["-", "--socket_path", fdArg sockFd] = [(socketPath, fdArg sockFd)] := by
  have hdash : ¬ TakesValue ("-" : Bytes) := by decide
  have hsocket : TakesValue ("--socket_path" : Bytes) := by decide
  rw [settings, if_neg hdash, settings, if_pos hsocket, settings]
  rfl

theorem settings_mandatory (sockFd : Int) :
    settings (mandatoryArgs sockFd) = [(lockPath, noLock), (socketPath, fdArg sockFd)] := by
  have hlock : TakesValue ("--lock_path" : Bytes) := by decide
  have hsocket : TakesValue ("--socket_path" : Bytes) := by decide
  rw [mandatoryArgs, settings, if_pos hlock, settings, if_pos hsocket, settings]
  rfl

theorem danglingWord_ne_noLock (current : Bytes) : danglingWord current ≠ noLock := by
  intro heq
  have hlength := congrArg List.length heq
  simp [danglingWord, noLock, Bytes.ofString] at hlength

/-- What this word sets, with `-` after it. -/
def danglingSettings (current : Bytes) : List (Bytes × Bytes) :=
  if TakesValue (danglingWord current) then [((danglingWord current).drop 2, noLock)]
  else ownSettings (danglingWord current)

theorem settings_dangling (current : Bytes) (sockFd : Int) :
    settings (danglingWord current :: ["-", "--socket_path", fdArg sockFd]) =
      danglingSettings current ++ [(socketPath, fdArg sockFd)] := by
  have hsocket : TakesValue ("--socket_path" : Bytes) := by decide
  rw [settings, danglingSettings]
  split
  · rw [settings, if_pos hsocket, settings]
    rfl
  · rw [settings_socket]

/-- The text of an assignment that reaches into the appended option is the
user's own up to its equals sign. -/
theorem prefix_of_prefix_danglingWord {key current : Bytes} (hspace : space ∉ key)
    (h : key <+: danglingWord current) : key <+: current := by
  rcases List.prefix_or_prefix_of_prefix h (List.prefix_append current _) with hkey | hcurrent
  · exact hkey
  · obtain ⟨tail, rfl⟩ := hcurrent
    cases tail with
    | nil => simp
    | cons c tail =>
      have hc : c = space := by
        rw [danglingWord, List.prefix_append_right_inj, List.cons_prefix_cons] at h
        exact h.1
      simp [hc] at hspace

theorem findAssignment_lockPath (value : Bytes) :
    findAssignment (lockPath ++ equalSign :: value) = some (lockPath, value) := by
  have hkey : ∀ c ∈ lockPath, (decide (c ≠ equalSign)) = true := by decide +kernel
  rw [findAssignment, if_pos (by simp), List.takeWhile_append_of_pos hkey,
    List.dropWhile_append_of_pos hkey]
  simp

/-- An assignment to `lock_path` ends in the option that was added to it. -/
theorem lastValue_dangling_assigned {current : Bytes}
    (h : ("--lock_path=" : Bytes) <+: current) :
    ∃ value, lastValue lockPath (danglingSettings current) = some value ∧ value ≠ noLock := by
  obtain ⟨value, rfl⟩ := h
  have hword : danglingWord (("--lock_path=" : Bytes) ++ value) =
      dashes ++ (lockPath ++ equalSign :: danglingWord value) := by
    rw [danglingWord, danglingWord, List.append_assoc]
    rfl
  have hdrop : (dashes ++ (lockPath ++ equalSign :: danglingWord value)).drop 2 =
      lockPath ++ equalSign :: danglingWord value := rfl
  have hnot : ¬ TakesValue (dashes ++ (lockPath ++ equalSign :: danglingWord value)) := by
    rintro ⟨-, hequal, -⟩
    rw [hdrop] at hequal
    simp at hequal
  refine ⟨danglingWord value, ?_, ?_⟩
  · rw [danglingSettings, hword, if_neg hnot, ownSettings, if_pos (List.prefix_append _ _), hdrop,
      findAssignment_lockPath, lastValue_singleton]
    rfl
  · exact danglingWord_ne_noLock value

/-- Any other word leaves `lock_path` alone. -/
theorem lastValue_dangling_other {current : Bytes}
    (h : ¬ ("--lock_path=" : Bytes) <+: current) :
    lastValue lockPath (danglingSettings current) = none := by
  have hlast : ∀ entry : Bytes × Bytes, entry.1 ≠ lockPath → lastValue lockPath [entry] = none :=
    fun entry hentry => by rw [lastValue_singleton, if_neg hentry]
  by_cases hdashes : dashes <+: danglingWord current
  · obtain ⟨arg, harg⟩ := hdashes
    have hdrop : (dashes ++ arg).drop 2 = arg := rfl
    have hspace : space ∈ arg := by
      have hmem : space ∈ dashes ++ arg := by simp [harg, danglingWord]
      rcases List.mem_append.mp hmem with hno | harg
      · exact absurd hno (by decide)
      · exact harg
    have hname : arg ≠ lockPath := by
      rintro rfl
      exact absurd hspace (by decide)
    rw [danglingSettings, ← harg, hdrop]
    split
    · exact hlast _ hname
    · rw [ownSettings, if_pos (List.prefix_append _ _), hdrop]
      cases hfind : findAssignment arg with
      | none => exact hlast _ hname
      | some entry =>
        -- the equals sign is not in what was appended, so it is in the user's word
        obtain ⟨key, value⟩ := entry
        apply hlast
        rintro rfl
        apply h
        apply prefix_of_prefix_danglingWord (by decide)
        rw [← harg, findAssignment_some hfind]
        exact List.prefix_append ("--lock_path=" : Bytes) value
  · have hnot : ¬ TakesValue (danglingWord current) := fun htakes => hdashes htakes.1
    rw [danglingSettings, if_neg hnot, ownSettings, if_neg hdashes]
    rfl

/-! ## The configuration of the helper -/

section Config

variable (executable : Bytes) {words : List Bytes} (sockFd : Int)

/-- `lock_path` is `-` only if some word says so. -/
theorem lockPath_iff : (configOfArgs (executable :: words))[lockPath]? = some noLock ↔
    SetsLockPath words := by
  have hdefault : configDefaults[lockPath]? ≠ some noLock := by
    simp only [configDefaults, List.foldl_cons, List.foldl_nil, StringMap.getElem?_insert]
    decide
  rw [configOfArgs_eq, SetsLockPath]
  cases lastValue lockPath (settings words) with
  | none => simp [hdefault]
  | some value => simp

/-- The socket is the last that is set. -/
theorem socketPath_of_settings {before : List (Bytes × Bytes)}
    (h : settings words = before ++ [(socketPath, fdArg sockFd)]) :
    (configOfArgs (executable :: words))[socketPath]? = some (fdArg sockFd) := by
  rw [configOfArgs_eq, h, lastValue_append, lastValue_singleton]
  rfl

theorem lastValue_lockPath_socket (before : List (Bytes × Bytes)) :
    lastValue lockPath (before ++ [(socketPath, fdArg sockFd)]) = lastValue lockPath before := by
  have hne : socketPath ≠ lockPath := by decide
  rw [lastValue_append, lastValue_singleton, if_neg hne]
  rfl

end Config

section Launch

variable {words : List Bytes} (sockFd : Int)

/-- Words that leave nothing open let the appended options through. -/
theorem setsLockPath_closed (h : leavesOpen words = false) :
    SetsLockPath (words ++ mandatoryArgs sockFd) := by
  rw [SetsLockPath, settings_append_closed h, settings_mandatory, ← List.singleton_append,
    ← List.append_assoc, lastValue_lockPath_socket, lastValue_append, lastValue_singleton]
  rfl

/-- An open option takes a word that is not `-`, so nothing about the lock
changes. -/
theorem setsLockPath_open (h : leavesOpen words = true) {value : Bytes} (hvalue : value ≠ noLock) :
    SetsLockPath (words ++ value :: ["-", "--socket_path", fdArg sockFd]) ↔ SetsLockPath words := by
  obtain ⟨before, key, hbefore, hafter⟩ :=
    settings_append_open h value ["-", "--socket_path", fdArg sockFd]
  rw [SetsLockPath, SetsLockPath, hafter, settings_socket, hbefore, ← List.singleton_append,
    ← List.append_assoc, lastValue_lockPath_socket, lastValue_append, lastValue_append,
    lastValue_singleton, lastValue_singleton]
  by_cases hkey : key = lockPath
  · have hempty : ([] : Bytes) ≠ noLock := by decide
    simp [hkey, hvalue, hempty]
  · simp [hkey]

theorem setsLockPath_dangling (h : leavesOpen words = false) (current : Bytes) :
    SetsLockPath (words ++ danglingWord current :: ["-", "--socket_path", fdArg sockFd]) ↔
      SetsLockPath words ∧ ¬ ("--lock_path=" : Bytes) <+: current := by
  rw [SetsLockPath, SetsLockPath, settings_append_closed h, settings_dangling,
    ← List.append_assoc, lastValue_lockPath_socket, lastValue_append]
  by_cases hassigned : ("--lock_path=" : Bytes) <+: current
  · obtain ⟨value, hlast, hvalue⟩ := lastValue_dangling_assigned hassigned
    simp [hlast, hvalue, hassigned]
  · simp [lastValue_dangling_other hassigned, hassigned]

theorem setsLockPath_launchArgs (extraArgs : Bytes) :
    SetsLockPath ((scan (cstr extraArgs)).launchArgs sockFd) ↔ LockPathKept extraArgs := by
  rw [LockPathKept, Scan.launchArgs]
  generalize scan (cstr extraArgs) = s
  cases s.dangling with
  | true =>
    cases hopen : leavesOpen s.params with
    | true => simpa using setsLockPath_open sockFd hopen (danglingWord_ne_noLock s.current)
    | false => simpa using setsLockPath_dangling sockFd hopen s.current
  | false =>
    cases hopen : leavesOpen s.words with
    | true =>
      have hne : ("--lock_path" : Bytes) ≠ noLock := by decide
      simpa [mandatoryArgs] using setsLockPath_open sockFd hopen hne
    | false => simpa using setsLockPath_closed sockFd hopen

/-- The socket is set by the last two words, whatever stands before them. -/
theorem settings_launchArgs (extraArgs : Bytes) : ∃ before,
    settings ((scan (cstr extraArgs)).launchArgs sockFd) =
      before ++ [(socketPath, fdArg sockFd)] := by
  rw [Scan.launchArgs]
  generalize scan (cstr extraArgs) = s
  split
  · cases hopen : leavesOpen s.params with
    | true =>
      obtain ⟨before, key, -, hafter⟩ := settings_append_open hopen (danglingWord s.current)
        ["-", "--socket_path", fdArg sockFd]
      rw [settings_socket] at hafter
      exact ⟨before ++ [(key, danglingWord s.current)], by simpa using hafter⟩
    | false =>
      refine ⟨settings s.params ++ danglingSettings s.current, ?_⟩
      rw [settings_append_closed hopen, List.append_assoc, ← settings_dangling]
  · cases hopen : leavesOpen s.words with
    | true =>
      obtain ⟨before, key, -, hafter⟩ := settings_append_open hopen "--lock_path"
        ["-", "--socket_path", fdArg sockFd]
      rw [settings_socket] at hafter
      exact ⟨before ++ [(key, ("--lock_path" : Bytes))], by simpa [mandatoryArgs] using hafter⟩
    | false =>
      refine ⟨settings s.words ++ [(lockPath, noLock)], ?_⟩
      rw [settings_append_closed hopen, settings_mandatory, List.append_assoc]
      rfl

/-- **The helper gets its socket always, and `-` for its lock exactly if the
user's arguments leave the place for it.** -/
theorem launched_config_iff {executable extraArgs : Bytes} {argv : List Bytes}
    (h : splitParams executable (commandLine extraArgs sockFd) = some argv) :
    ((configOfArgs argv)[lockPath]? = some noLock ∧
      (configOfArgs argv)[socketPath]? = some (fdArg sockFd)) ↔ LockPathKept extraArgs := by
  rw [splitParams_commandLine] at h
  split at h
  · cases h
  · cases h
    obtain ⟨before, hbefore⟩ := settings_launchArgs sockFd extraArgs
    rw [socketPath_of_settings executable sockFd hbefore, lockPath_iff,
      setsLockPath_launchArgs]
    simp

def logLevelArgv : List Bytes :=
  ["ddappsec-helper", "--log_level", "debug", "--lock_path", "-", "--socket_path", "fd:5"]

/-- The arguments of the test set-up, `--log_level debug`. -/
theorem launched_config_log_level :
    splitParams "ddappsec-helper" (commandLine "--log_level debug" 5) = some logLevelArgv ∧
      (configOfArgs logLevelArgv)[lockPath]? = some noLock ∧
      (configOfArgs logLevelArgv)[socketPath]? = some (fdArg 5) := by
  have hsplit : splitParams "ddappsec-helper" (commandLine "--log_level debug" 5) =
      some logLevelArgv := by decide +kernel
  exact ⟨hsplit, (launched_config_iff 5 hsplit).mpr (Or.inl (by decide +kernel))⟩

def verboseArgv : List Bytes :=
  ["ddappsec-helper", "--verbose", "--lock_path", "-", "--socket_path", "fd:5"]

/-- With a flag at the end of the user's arguments the helper is left with its
default lock file. -/
theorem trailing_flag_takes_lock_path :
    splitParams "ddappsec-helper" (commandLine "--verbose" 5) = some verboseArgv ∧
      (configOfArgs verboseArgv)[lockPath]? = some ("/tmp/ddappsec.lock" : Bytes) ∧
      ("/tmp/ddappsec.lock" : Bytes) ≠ noLock := by
  decide +kernel

end Launch

end DdAppsec.Protocol
