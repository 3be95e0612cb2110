import Sanshain.Application.PasswordSignIn
import Sanshain.Guarantees.Admissions

namespace Sanshain.Guarantees

open Sanshain.Domain Sanshain.Effects Sanshain.Effects.Program Sanshain.Infrastructure
open Sanshain.Application

abbrev Settings := Data.Entries String String

/-- The mode that the settings put the instance into. -/
def storedMode (settings : Settings) : AuthMode :=
  (AuthMode.fromStr ((settings.get? "auth_mode").getD "disabled")).getD .disabled

/-- The mode, or the one that maintenance hides. -/
def modeBehind (settings : Settings) : AuthMode :=
  if storedMode settings = .disabled then
    ((settings.get? beforeOffKey).bind AuthMode.fromStr).getD .local
  else storedMode settings

def settingsOf (world : CredentialWorld) : Settings := world.credentials.accounts.settings

/-- A call that sets neither the mode nor the one to return to. -/
def LeavesModes : CredentialCall → Prop
  | .setSetting key _ => key ≠ "auth_mode" ∧ key ≠ beforeOffKey
  | _ => True

/-- What happens to an instance that has an account: an administrator switches its mode, it starts again,
or the store is asked for anything else. -/
inductive ModeStep where
  | switch (gateOpen : Bool) (mode : AuthMode)
  | settle (gateOpen : Bool)
  | other (request : {request : CredentialCall // LeavesModes request})

def ModeStep.program : ModeStep → CredentialUseCase Unit
  | .switch gateOpen mode => switchAuthMode gateOpen mode
  | .settle gateOpen => (settleUngatedDevMode gateOpen).bind fun _ => .done ()
  | .other request => (credentialRepo request.1).bind fun _ => .done ()

/-- The store after one step, however that ends. -/
def ModeStep.step (digest : String → String) (environment : Environment) (world : CredentialWorld)
    (next : ModeStep) : CredentialWorld :=
  (next.program.run (CredentialWorld.handle digest environment) world).elim world (·.2)

/-- The modes that the instance is in, after each step of a run. -/
def modesAlong (step : CredentialWorld → ModeStep → CredentialWorld) :
    CredentialWorld → List ModeStep → List AuthMode
  | _, [] => []
  | world, next :: rest =>
      storedMode (settingsOf (step world next)) :: modesAlong step (step world next) rest

/-- Maintenance is no mode to sign in under: the one before it lasts. -/
def lastOn (last mode : AuthMode) : AuthMode := if mode = .disabled then last else mode

section Settings

variable {settings : Settings} {last : AuthMode}

/-- Maintenance hides this mode, if it is on. -/
def Hides (last : AuthMode) (settings : Settings) : Prop :=
  storedMode settings = .disabled → modeBehind settings = last

theorem hides_self (settings : Settings) : Hides (modeBehind settings) settings := fun _ => rfl

theorem Hides.modeBehind_eq (hides : Hides last settings) :
    modeBehind settings = lastOn last (storedMode settings) := by
  unfold lastOn
  split
  · exact hides ‹_›
  · exact if_neg ‹_›

theorem storedMode_insert (mode : AuthMode) :
    storedMode (settings.insert "auth_mode" mode.asStr) = mode := by
  simp [storedMode, Data.Entries.get?_insert]

theorem storedMode_insert_of_ne {key value : String} (other : key ≠ "auth_mode") :
    storedMode (settings.insert key value) = storedMode settings := by
  rw [storedMode, storedMode, Data.Entries.get?_insert, if_neg other]

/-- A mode that is switched on hides nothing. -/
theorem hides_on {mode : AuthMode} (on : mode ≠ .disabled) :
    Hides last (settings.insert "auth_mode" mode.asStr) := by
  intro off
  rw [storedMode_insert] at off
  exact absurd off on

/-- Switched off, the instance hides the mode that has been remembered. -/
theorem modeBehind_off :
    modeBehind (settings.insert "auth_mode" AuthMode.disabled.asStr) =
      ((settings.get? beforeOffKey).bind AuthMode.fromStr).getD .local := by
  have other : "auth_mode" ≠ beforeOffKey := by decide
  rw [modeBehind, if_pos (storedMode_insert .disabled), Data.Entries.get?_insert, if_neg other]

theorem Hides.insert {key value : String} (hides : Hides last settings) (mode : key ≠ "auth_mode")
    (before : key ≠ beforeOffKey) : Hides last (settings.insert key value) := by
  intro off
  rw [modeBehind, if_pos off, Data.Entries.get?_insert, if_neg before]
  rw [storedMode_insert_of_ne mode] at off
  have same := hides off
  rwa [modeBehind, if_pos off] at same

end Settings

section Calls

variable {digest : String → String} {environment : Environment} {settings : Settings}
  {world : CredentialWorld}

theorem settings_deleteUsers (gone : List Nat) (accounts : Accounts) :
    (gone.foldl Accounts.deleteUser accounts).settings = accounts.settings := by
  induction gone generalizing accounts with
  | nil => rfl
  | cons userId rest ih => exact ih _

theorem settings_account (accounts : Accounts) (request : AccountCall) :
    (accounts.perform request).1.settings = accounts.settings := by
  cases request with
  | mergeUserInto source target =>
      simp only [Accounts.perform]
      cases merged : accounts.mergeUserInto source target with
      | error error => rfl
      | ok after =>
          rw [Accounts.mergeUserInto_ok merged]
          rfl
  | _ => simp only [Accounts.perform] <;> (repeat' split) <;> rfl

def settingsAfter (settings : Settings) : CredentialCall → Settings
  | .setSetting key value => settings.insert key value
  | _ => settings

/-- No call but one sets a setting. -/
theorem settings_perform (digest : String → String) (credentials : Credentials) (now : Instant)
    (request : CredentialCall) :
    (credentials.perform digest now request).1.accounts.settings =
      settingsAfter credentials.accounts.settings request := by
  cases request with
  | account request =>
      cases request with
      | createSession userId token expiresAt =>
          exact settings_account credentials.loaded (.createSession userId (digest token) expiresAt)
      | setSessionSignIn token method =>
          exact settings_account credentials.loaded (.setSessionSignIn (digest token) method)
      | _ => exact settings_account credentials.loaded _
  | deleteNonAdminUsers spare => exact settings_deleteUsers _ _
  | nukeDatabase keep => exact settings_deleteUsers _ _
  | createApiToken token =>
      simp only [Credentials.perform]
      (repeat' split) <;> rfl
  | _ => rfl

/-- A call either meets a fault and leaves the settings, or sets what it says. -/
theorem ensures_call (request : CredentialCall) (returns : request.Result → Settings → Prop)
    (fails : Settings → Prop) (held : settingsOf world = settings) (faulty : fails settings)
    (answered : ∀ now (credentials : Credentials) answer, credentials.accounts.settings = settings →
      (credentials.perform digest now request).2 = .ok answer →
      returns answer (settingsAfter settings request))
    (refused : fails (settingsAfter settings request)) :
    (credentialRepo request).Ensures (CredentialWorld.handle digest environment)
      (fun answer after => returns answer (settingsOf after)) (fun _ after => fails (settingsOf after))
      world := by
  subst held
  have after (now : Instant) := settings_perform digest world.credentials now request
  refine ensures_credentialRepo faulty (fun now => ?_) fun now answer told => ?_
  · rw [settingsOf, after]
    exact refused
  · rw [settingsOf, after]
    exact answered now _ answer rfl told

theorem ensures_getSetting (held : settingsOf world = settings) (key : String) :
    (credentialRepo (.account (.getSetting key))).Ensures (CredentialWorld.handle digest environment)
      (fun answer after => answer = settings.get? key ∧ settingsOf after = settings)
      (fun _ after => settingsOf after = settings) world := by
  refine ensures_call (.account (.getSetting key))
    (fun answer after => answer = settings.get? key ∧ after = settings) (· = settings) held rfl ?_ ?_
  · intro now credentials answer same told
    cases told
    exact ⟨congrArg (Data.Entries.get? · key) same, rfl⟩
  · rfl

theorem ensures_settingSet (held : settingsOf world = settings) (key value : String)
    (fails : Settings → Prop) (faulty : fails settings) (set : fails (settings.insert key value)) :
    (credentialRepo (.setSetting key value)).Ensures (CredentialWorld.handle digest environment)
      (fun _ after => settingsOf after = settings.insert key value)
      (fun _ after => fails (settingsOf after)) world :=
  ensures_call (.setSetting key value) (fun _ after => after = settings.insert key value) fails held faulty
    (fun _ _ _ _ _ => rfl) set

theorem ensures_getAuthMode (held : settingsOf world = settings) :
    getAuthMode.Ensures (CredentialWorld.handle digest environment)
      (fun mode after => mode = storedMode settings ∧ settingsOf after = settings)
      (fun _ after => settingsOf after = settings) world := by
  refine .bind (ensures_getSetting held _) fun stored reached told => ?_
  obtain ⟨rfl, same⟩ := told
  exact .done ⟨rfl, same⟩

theorem hides_getAuthMode (held : settingsOf world = settings) :
    getAuthMode.Ensures (CredentialWorld.handle digest environment)
      (fun mode after => mode = storedMode settings ∧ settingsOf after = settings)
      (fun _ after => Hides (modeBehind settings) (settingsOf after)) world := by
  refine (ensures_getAuthMode held).mono (fun _ _ told => told) fun _ after same => ?_
  rw [same]
  exact hides_self settings

end Calls

section Steps

variable {digest : String → String} {environment : Environment} {settings : Settings}
  {world : CredentialWorld} {last : AuthMode}

/-- Entering maintenance remembers the mode that it will hide, before it hides it. -/
theorem ensures_rememberBeforeOff (held : settingsOf world = settings) (hides : Hides last settings)
    (mode : AuthMode) :
    (rememberBeforeOff (storedMode settings) mode).Ensures (CredentialWorld.handle digest environment)
      (fun _ after => Hides last (settingsOf after) ∧
        (mode = .disabled →
          (((settingsOf after).get? beforeOffKey).bind AuthMode.fromStr).getD .local = modeBehind settings))
      (fun _ after => Hides last (settingsOf after)) world := by
  have other : beforeOffKey ≠ "auth_mode" := by decide
  unfold rememberBeforeOff
  split
  · rename_i leaves
    have stays : Hides last (settings.insert beforeOffKey (storedMode settings).asStr) := by
      intro off
      rw [storedMode_insert_of_ne other] at off
      exact absurd off leaves.2
    refine (ensures_settingSet held _ _ (Hides last) hides stays).mono (fun _ after same => ?_)
      fun _ _ kept => kept
    rw [same]
    refine ⟨stays, fun _ => ?_⟩
    rw [Data.Entries.get?_insert, if_pos rfl, Option.bind_some, AuthMode.fromStr_asStr, Option.getD_some,
      modeBehind, if_neg leaves.2]
  · rename_i stays
    refine .done ?_
    rw [held]
    refine ⟨hides, fun off => ?_⟩
    have already : storedMode settings = .disabled := not_not.mp fun on => stays ⟨off, on⟩
    rw [modeBehind, if_pos already]

theorem hides_setAuthMode (hides : Hides last (settingsOf world)) (mode : AuthMode)
    (set : Hides last ((settingsOf world).insert "auth_mode" mode.asStr)) :
    (setAuthMode mode).Ensures (CredentialWorld.handle digest environment)
      (fun _ after => Hides last (settingsOf after)) (fun _ after => Hides last (settingsOf after))
      world := by
  refine (ensures_settingSet rfl _ _ (Hides last) hides set).mono (fun _ after same => ?_)
    fun _ _ kept => kept
  rw [same]
  exact set

theorem hides_switch (held : settingsOf world = settings) (gateOpen : Bool) (mode : AuthMode) :
    (switchAuthMode gateOpen mode).Ensures (CredentialWorld.handle digest environment)
      (fun _ after => Hides (modeBehind settings) (settingsOf after))
      (fun _ after => Hides (modeBehind settings) (settingsOf after)) world := by
  have start := hides_self settings
  refine .bind (hides_getAuthMode held) fun current reached told => ?_
  obtain ⟨rfl, same⟩ := told
  split
  · exact .fail (same ▸ start)
  · refine .bind (ensures_rememberBeforeOff same start mode) fun _ later told => ?_
    obtain ⟨hides, remembered⟩ := told
    refine hides_setAuthMode hides mode ?_
    by_cases off : mode = .disabled
    · subst off
      intro _
      rw [modeBehind_off, remembered rfl]
    · exact hides_on off

theorem hides_settle (held : settingsOf world = settings) (gateOpen : Bool) :
    (settleUngatedDevMode gateOpen).Ensures (CredentialWorld.handle digest environment)
      (fun _ after => Hides (modeBehind settings) (settingsOf after))
      (fun _ after => Hides (modeBehind settings) (settingsOf after)) world := by
  have start := hides_self settings
  refine .bind (hides_getAuthMode held) fun current reached told => ?_
  obtain ⟨rfl, same⟩ := told
  split
  · exact .done (same ▸ start)
  · refine .bind (hides_setAuthMode (same ▸ start) .local (hides_on (by decide))) ?_
    exact fun _ _ kept => .done kept

theorem hides_other (held : settingsOf world = settings) {request : CredentialCall}
    (leaves : LeavesModes request) :
    (credentialRepo request).Ensures (CredentialWorld.handle digest environment)
      (fun _ after => Hides (modeBehind settings) (settingsOf after))
      (fun _ after => Hides (modeBehind settings) (settingsOf after)) world := by
  have start := hides_self settings
  have kept : Hides (modeBehind settings) (settingsAfter settings request) := by
    cases request with
    | setSetting key value => exact start.insert leaves.1 leaves.2
    | _ => exact start
  exact ensures_call request (fun _ => Hides _) (Hides _) held start (fun _ _ _ _ _ => kept) kept

/-- What a step leaves is hidden by maintenance, where it leads there. -/
theorem hides_step (world : CredentialWorld) (next : ModeStep) :
    Hides (modeBehind (settingsOf world)) (settingsOf (next.step digest environment world)) := by
  have kept : next.program.Ensures (CredentialWorld.handle digest environment)
      (fun _ after => Hides (modeBehind (settingsOf world)) (settingsOf after))
      (fun _ after => Hides (modeBehind (settingsOf world)) (settingsOf after)) world := by
    cases next with
    | switch gateOpen mode => exact hides_switch rfl gateOpen mode
    | settle gateOpen => exact .bind (hides_settle rfl gateOpen) fun _ _ told => .done told
    | other request => exact .bind (hides_other rfl request.2) fun _ _ told => .done told
  rw [ModeStep.step]
  cases ran : next.program.run (CredentialWorld.handle digest environment) world with
  | none => exact hides_self _
  | some ended => exact kept.always ran

/-- Behind a run is the mode that was last on along it. -/
theorem modeBehind_run (world : CredentialWorld) (steps : List ModeStep) :
    modeBehind (settingsOf (runSteps (ModeStep.step digest environment) world steps)) =
      (modesAlong (ModeStep.step digest environment) world steps).foldl lastOn
        (modeBehind (settingsOf world)) := by
  induction steps generalizing world with
  | nil => rfl
  | cons next rest ih =>
      rw [runSteps_cons, ih, modesAlong, List.foldl_cons, (hides_step world next).modeBehind_eq]

end Steps

section Results

variable {digest : String → String} {environment : Environment} {settings : Settings}
  {world : CredentialWorld}

theorem ensures_signInSource (held : settingsOf world = settings) :
    signInSource.Ensures (CredentialWorld.handle digest environment)
      (fun source _ => source = sourceOf (modeBehind settings)) (fun _ _ => True) world := by
  refine .bind ((ensures_getAuthMode held).mono (fun _ _ told => told) fun _ _ _ => trivial)
    fun mode reached told => ?_
  obtain ⟨rfl, same⟩ := told
  have behind : (modeBehindOff (storedMode settings)).Ensures (CredentialWorld.handle digest environment)
      (fun source _ => source = modeBehind settings) (fun _ _ => True) reached := by
    by_cases off : storedMode settings = .disabled
    · rw [modeBehind, if_pos off, off]
      refine .bind ((ensures_getSetting same beforeOffKey).mono (fun _ _ told => told)
        fun _ _ _ => trivial) fun stored _ told => ?_
      obtain ⟨rfl, -⟩ := told
      exact .done rfl
    · rw [modeBehind, if_neg off]
      cases on : storedMode settings with
      | disabled => exact absurd on off
      | dev | «local» | ldap | oidc => exact .done rfl
  exact .bind behind fun source _ told => .done (congrArg sourceOf told)

theorem returns_getSetting (reliable : environment.Reliable) (key : String) (world : CredentialWorld) :
    (credentialRepo (.account (.getSetting key))).Returns (CredentialWorld.handle digest environment)
      (fun _ _ => True) world := by
  refine ⟨(settingsOf world).get? key, ⟨world.credentials.perform digest 0 (.account (.getSetting key))
    |>.1, world.steps + 1⟩, ?_, trivial⟩
  simp only [credentialRepo, tryCredentials, Program.ask_bind, Program.run, CredentialWorld.handle,
    reliable world.steps]
  rfl

/-- A store without faults tells some source. -/
theorem signInSource_returns (reliable : environment.Reliable) (world : CredentialWorld) :
    signInSource.Returns (CredentialWorld.handle digest environment) (fun _ _ => True) world := by
  have read : getAuthMode.Returns (CredentialWorld.handle digest environment) (fun _ _ => True) world :=
    .bind (returns_getSetting reliable _ world) fun _ _ _ => .done trivial
  refine .bind read fun mode reached _ => ?_
  have behind : (modeBehindOff mode).Returns (CredentialWorld.handle digest environment) (fun _ _ => True)
      reached := by
    cases mode with
    | disabled => exact .bind (returns_getSetting reliable _ reached) fun _ _ _ => .done trivial
    | dev | «local» | ldap | oidc => exact .done trivial
  exact .bind behind fun _ _ _ => .done trivial

/-- Administrators sign in where they did before maintenance: however the mode has been switched, and
whatever else the store was asked for, with whatever faults between the two settings, the source is that of
the mode which was last on. A store without faults tells it, and one with faults tells no other. -/
theorem source_outlives_maintenance (digest : String → String) (environment reading : Environment)
    (world : CredentialWorld) (steps : List ModeStep) :
    signInSource.Ensures (CredentialWorld.handle digest reading)
        (fun source _ => source = sourceOf ((modesAlong (ModeStep.step digest environment) world
          steps).foldl lastOn (modeBehind (settingsOf world)))) (fun _ _ => True)
        (runSteps (ModeStep.step digest environment) world steps) ∧
      (reading.Reliable → signInSource.Returns (CredentialWorld.handle digest reading) (fun _ _ => True)
        (runSteps (ModeStep.step digest environment) world steps)) := by
  rw [← modeBehind_run]
  exact ⟨ensures_signInSource rfl, fun reliable => signInSource_returns reliable _⟩

/-- An instance on its directory. -/
def directoryWorld : CredentialWorld where
  credentials := { accounts := { settings := [("auth_mode", "ldap")] } }

/-- The administrator turns maintenance on twice, and in vain to a dev mode in between. -/
def maintained : List ModeStep := [.switch false .disabled, .switch false .dev, .switch false .disabled]

theorem source_outlives_maintenance_directory :
    (modesAlong (ModeStep.step id ticking) directoryWorld maintained =
        [AuthMode.disabled, .disabled, .disabled]) ∧
      signInSource.Returns (CredentialWorld.handle id ticking) (fun source _ => source = .ldap)
        (runSteps (ModeStep.step id ticking) directoryWorld maintained) := by
  refine ⟨by decide, ?_⟩
  obtain ⟨truth, tells⟩ := source_outlives_maintenance id ticking ticking directoryWorld maintained
  obtain ⟨source, after, ran, -⟩ := tells fun _ => rfl
  exact ⟨source, after, ran, (truth.1 source after ran).trans (by decide)⟩

end Results

end Sanshain.Guarantees
