/-!
# Extension — a PHP request, from RINIT to RSHUTDOWN

The extension talks to the helper at three points of a request: RINIT
(`config_sync` and `request_init`), user tracking in between
(`request_exec`), RSHUTDOWN (`request_shutdown`). What an exchange does is
left open: a `Link` is a way of executing a command over some connection,
and the functions here are what the extension does around it.

A request that is blocked during RINIT has its `request_shutdown` sent from
there, and the RSHUTDOWN that follows is skipped.
-/

namespace DdAppsec.Extension

/-- `enabled_configuration`. -/
inductive EnabledConfiguration where
  | notConfigured | enabled | disabled
  deriving DecidableEq, Repr

/-- `dd_result`. -/
inductive DdResult where
  | success
  /-- error in communication; the connection should be abandoned -/
  | network
  | shouldBlock | shouldRedirect | error | tryLater
  /-- the helper failed to process the message -/
  | helperError
  deriving DecidableEq, Repr

inductive Command where
  | configSync | requestInit | requestExec | requestShutdown
  deriving DecidableEq, Repr

/-- The globals that the commands depend on. -/
structure Globals where
  enabledByConfiguration : EnabledConfiguration
  enabled : EnabledConfiguration
  skipRshutdown : Bool
  deriving DecidableEq

/-- A connection to the helper: `dd_command_exec`, which may also change
`enabled`, `dd_conn_connected` and `dd_helper_close_conn`. -/
structure Link (W : Type) where
  exec : Command → Globals → W → DdResult × Globals × W
  connected : W → Bool
  close : W → W

variable {W : Type}

/-- `dd_appsec_rshutdown`. A blocking verdict only changes the page, since
RSHUTDOWN is already running or the verdict is to be ignored. -/
def Link.appsecRshutdown (link : Link W) (g : Globals) (w : W) : Globals × W :=
  if link.connected w ∧ g.enabled = .enabled then
    match link.exec .requestShutdown g w with
    | (.network, g, w) => (g, link.close w)
    | (_, g, w) => (g, w)
  else (g, w)

/-- `config_sync`, and `request_init` once the answer enables ASM. -/
def Link.syncThenInit (link : Link W) (g : Globals) (w : W) : DdResult × Globals × W :=
  match link.exec .configSync g w with
  | (.success, g, w) =>
    if g.enabled = .enabled then link.exec .requestInit g w else (.success, g, w)
  | other => other

/-- `_do_rinit` with the connection of `dd_helper_mgr_acquire_conn`; a
request that finds none goes on without. A blocking verdict aborts the
request: `_emit_error` runs RSHUTDOWN's logic from here. -/
def Link.doRinit (link : Link W) (g : Globals) (w : W) : Globals × W :=
  if link.connected w then
    match (if g.enabled = .enabled then link.exec .requestInit g w else link.syncThenInit g w) with
    | (.network, g, w) => (g, link.close w)
    | (.shouldBlock, g, w) | (.shouldRedirect, g, w) =>
      let (g, w) := link.appsecRshutdown g w
      ({ g with skipRshutdown := true }, w)
    | (_, g, w) => (g, w)
  else (g, w)

/-- `PHP_RINIT`, with `_check_enabled` finding the same configuration. -/
def Link.rinit (link : Link W) (g : Globals) (w : W) : Globals × W :=
  let g := { g with enabled := g.enabledByConfiguration }
  if g.enabledByConfiguration = .disabled then (g, w)
  else link.doRinit { g with skipRshutdown := false } w

/-- `dd_find_and_apply_verdict_for_user`: of the result only a blocking
verdict is looked at, and it only aborts the script. -/
def Link.findAndApplyVerdictForUser (link : Link W) (g : Globals) (w : W) : Globals × W :=
  if g.enabled = .enabled ∧ link.connected w then
    let (_, g, w) := link.exec .requestExec g w
    (g, w)
  else (g, w)

/-- `PHP_RSHUTDOWN`. -/
def Link.rshutdown (link : Link W) (g : Globals) (w : W) : Globals × W :=
  if g.enabledByConfiguration = .disabled ∨ g.skipRshutdown then (g, w)
  else link.appsecRshutdown g w

/-! ## What the functions keep -/

/-- An invariant of the connection that every exchange keeps, or that holds
once the connection is closed where the exchange failed. -/
structure Link.Keeps (link : Link W) (Inv : W → Prop) : Prop where
  going : ∀ {cmd g w res g' w'}, Inv w → link.connected w = true →
    link.exec cmd g w = (res, g', w') → res ≠ .network → Inv w' ∧ link.connected w' = true
  closing : ∀ {cmd g w g' w'}, Inv w → link.connected w = true →
    link.exec cmd g w = (.network, g', w') → Inv (link.close w')

section Keeps

variable {link : Link W} {Inv : W → Prop} {g : Globals} {w : W}

theorem Link.Keeps.appsecRshutdown (h : link.Keeps Inv) (hw : Inv w) :
    Inv (link.appsecRshutdown g w).2 := by
  unfold Link.appsecRshutdown
  split
  · rename_i hcond
    split
    · rename_i heq
      exact h.closing hw hcond.1 heq
    · rename_i hres heq
      refine (h.going hw hcond.1 heq ?_).1
      rintro rfl
      exact hres rfl
  · exact hw

/-- The commands of RINIT, with an invariant at the end or a connection to
be closed. -/
theorem Link.Keeps.syncThenInit (h : link.Keeps Inv) (hw : Inv w)
    (hopen : link.connected w = true) {res : DdResult} {g' : Globals} {w' : W}
    (heq : link.syncThenInit g w = (res, g', w')) :
    (res ≠ .network → Inv w' ∧ link.connected w' = true) ∧
      (res = .network → Inv (link.close w')) := by
  unfold Link.syncThenInit at heq
  split at heq
  · rename_i g₁ w₁ hsync
    obtain ⟨hw₁, hopen₁⟩ := h.going hw hopen hsync (by decide)
    split at heq
    · exact ⟨h.going hw₁ hopen₁ heq, fun hres => h.closing hw₁ hopen₁ (hres ▸ heq)⟩
    · cases heq
      exact ⟨fun _ => ⟨hw₁, hopen₁⟩, by simp⟩
  · exact ⟨h.going hw hopen heq, fun hres => h.closing hw hopen (hres ▸ heq)⟩

theorem Link.Keeps.doRinit (h : link.Keeps Inv) (hw : Inv w) : Inv (link.doRinit g w).2 := by
  unfold Link.doRinit
  split
  · rename_i hopen
    have hcommands {res : DdResult} {g' : Globals} {w' : W}
        (heq : (if g.enabled = .enabled then link.exec .requestInit g w
          else link.syncThenInit g w) = (res, g', w')) :
        (res ≠ .network → Inv w' ∧ link.connected w' = true) ∧
          (res = .network → Inv (link.close w')) := by
      split at heq
      · exact ⟨h.going hw hopen heq, fun hres => h.closing hw hopen (hres ▸ heq)⟩
      · exact h.syncThenInit hw hopen heq
    split
    · rename_i heq
      exact (hcommands heq).2 rfl
    · rename_i heq
      exact h.appsecRshutdown ((hcommands heq).1 (by decide)).1
    · rename_i heq
      exact h.appsecRshutdown ((hcommands heq).1 (by decide)).1
    · rename_i hres _ _ heq
      refine ((hcommands heq).1 ?_).1
      rintro rfl
      exact hres rfl
  · exact hw

theorem Link.Keeps.rinit (h : link.Keeps Inv) (hw : Inv w) : Inv (link.rinit g w).2 := by
  unfold Link.rinit
  dsimp only
  split
  · exact hw
  · exact h.doRinit hw

theorem Link.Keeps.rshutdown (h : link.Keeps Inv) (hw : Inv w) :
    Inv (link.rshutdown g w).2 := by
  unfold Link.rshutdown
  split
  · exact hw
  · exact h.appsecRshutdown hw

end Keeps

/-! ## Sequences of requests -/

/-- What PHP calls. -/
inductive Hook where
  | rinit | userExec | rshutdown
  deriving DecidableEq, Repr

inductive Phase where
  /-- between two requests -/
  | idle
  /-- the script runs -/
  | serving
  /-- the request was blocked during RINIT and the script does not run -/
  | aborted
  deriving DecidableEq, Repr

structure Worker (W : Type) where
  globals : Globals
  world : W
  phase : Phase

/-- One hook; `none` for a hook that PHP does not call in this phase. -/
def Link.step (link : Link W) (s : Worker W) (hook : Hook) : Option (Worker W) :=
  match hook, s.phase with
  | .rinit, .idle =>
    let (g, w) := link.rinit s.globals s.world
    let aborted := g.enabledByConfiguration ≠ .disabled ∧ g.skipRshutdown
    some ⟨g, w, if aborted then .aborted else .serving⟩
  | .userExec, .serving =>
    let (g, w) := link.findAndApplyVerdictForUser s.globals s.world
    some ⟨g, w, .serving⟩
  | .rshutdown, .serving | .rshutdown, .aborted =>
    let (g, w) := link.rshutdown s.globals s.world
    some ⟨g, w, .idle⟩
  | _, _ => none

end DdAppsec.Extension
