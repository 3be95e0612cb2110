import Sanshain.Application.Admission
import Sanshain.Effects.Beside

namespace Sanshain.Application

open Sanshain.Domain Sanshain.Effects Sanshain.Text

/-- A use case of signing in. -/
abbrev SignInUseCase (Value : Type) := Program SignInRequest SignInRequest.Answer AppError Value

/-- A use case on credentials, where identities are asked for too. -/
def onCredentials {Error Value : Type}
    (useCase : Program CredentialRequest CredentialRequest.Answer Error Value) :
    Program SignInRequest SignInRequest.Answer Error Value := useCase.beside

def askIdentity (request : IdentityCall) : SignInUseCase request.Answer :=
  Program.ask (Sum.inr request : SignInRequest)

/-- A use case behind a guard: its error is the answer. -/
def orRefuse {Value : Type} (useCase : SignInUseCase Value) :
    Program SignInRequest SignInRequest.Answer Refusal Value :=
  useCase.attempt.bind fun outcome => .ofExcept (outcome.mapError Refusal.error)

def repositoryErrorText : RepositoryError → String
  | .notFound => "Not Found"
  | .conflict => "Conflict"
  | .internal message => s!"Internal Error: {message}"

/-- An entry of the audit log in somebody's name. -/
def recordAuditLog (user : User) (log : NewAuditLog) : CredentialUseCase Unit :=
  (tryCredentials (.account (.insertAuditLog user.username log))).bind fun answer =>
    .ofExcept (answer.mapError fun error => .internal (repositoryErrorText error))

/-- How the stored configurations of the providers are read. -/
structure ProviderForms where
  readLdapConfig : String → Except String LdapConfig
  readOidcConfig : String → Except String OidcConfig

namespace ProviderForms

def getConfig {Config : Type} (key kind : String) (read : String → Except String Config) :
    CredentialUseCase (Option Config) := do
  match ← credentialRepo (.account (.getSetting key)) with
  | none => .done none
  | some text =>
      .ofExcept (((read text).map some).mapError fun reason =>
        .internal s!"{kind} config parse error: {reason}")

def getLdapConfig (forms : ProviderForms) : CredentialUseCase (Option LdapConfig) :=
  getConfig "ldap_config" "LDAP" forms.readLdapConfig

def getOidcConfig (forms : ProviderForms) : CredentialUseCase (Option OidcConfig) :=
  getConfig "oidc_config" "OIDC" forms.readOidcConfig

end ProviderForms

section Source

def beforeOffKey : String := "auth_mode_before_off"

/-- The mode, or the one before maintenance. -/
def modeBehindOff : AuthMode → CredentialUseCase AuthMode
  | .disabled => do
      let stored ← credentialRepo (.account (.getSetting beforeOffKey))
      .done ((stored.bind AuthMode.fromStr).getD .local)
  | mode => .done mode

/-- Where passwords and identities are checked in a mode: in dev mode locally. -/
def sourceOf : AuthMode → AuthMode
  | .ldap => .ldap
  | .oidc => .oidc
  | _ => .local

def signInSource : CredentialUseCase AuthMode := do
  let mode ← getAuthMode
  let source ← modeBehindOff mode
  .done (sourceOf source)

def setAuthMode (mode : AuthMode) : CredentialUseCase Unit :=
  credentialRepo (.setSetting "auth_mode" mode.asStr)

/-- Entering maintenance remembers the mode it leaves. -/
def rememberBeforeOff (current mode : AuthMode) : CredentialUseCase Unit :=
  if mode = .disabled ∧ current ≠ .disabled then
    credentialRepo (.setSetting beforeOffKey current.asStr)
  else .done ()

/-- Dev mode takes a server that was started for it. -/
def switchAuthMode (gateOpen : Bool) (mode : AuthMode) : CredentialUseCase Unit := do
  let current ← getAuthMode
  if mode = .dev ∧ gateOpen = false then
    .fail (.badRequest "dev mode needs the server started with ALLOW_INSECURE_DEV_MODE=true")
  else do
    rememberBeforeOff current mode
    setAuthMode mode

/-- At its start, a server leaves a dev mode that it was not started for, and tells whether it did. -/
def settleUngatedDevMode (gateOpen : Bool) : CredentialUseCase Bool := do
  let mode ← getAuthMode
  if mode ≠ .dev ∨ gateOpen = true then .done false
  else do
    setAuthMode .local
    .done true

/-- The directory that passwords are checked with, if that is the source. -/
def directoryOf (forms : ProviderForms) : AuthMode → CredentialUseCase (Option LdapConfig)
  | .ldap => forms.getLdapConfig
  | _ => .done none

end Source

section Passwords

/-- Passwords: a failure to check one ends the use case. -/
def verifyPassword (password hash : String) : SignInUseCase Bool :=
  (askIdentity (.verifyPassword password hash)).bind .ofExcept

def hashPassword (password : String) : SignInUseCase String :=
  (askIdentity (.hashPassword password)).bind .ofExcept

/-- The account whose own password it is, or why there is none. -/
def checkLocally (password : String) : Option User → SignInUseCase (Except AppError User)
  | none => .done (.error .unauthorized)
  | some user => do
      let right ← verifyPassword password user.passwordHash
      .done (if !right then .error .unauthorized
        else if !user.approved then .error .forbidden
        else .ok user)

/-- The local password comes first, so that one that matches never reaches the directory; where both
refuse, the local refusal stands. -/
def verifyPasswordLocalFirst (directory : Option LdapConfig) (username password : String) :
    SignInUseCase Verified :=
  if password = "" then .fail .unauthorized
  else do
    let existing ← onCredentials (credentialRepo (.account (.findUser username)))
    if existing.any User.isServiceAccount then .fail .unauthorized
    else do
      match ← checkLocally password existing with
      | .ok user => .done (.local user)
      | .error refusal =>
          match directory with
          | none => .fail refusal
          | some config => do
              match ← askIdentity (.authenticate config username password) with
              | .ok identity => .done (.directory existing identity)
              | .error _ => .fail refusal

end Passwords

section Doors

variable (gatehouse : Gatehouse) (forms : ProviderForms)

/-- Who signs in under a name that has no account yet. -/
def unknownActor (username : String) (directoryGroups : List String) : CredentialUseCase Actor := do
  let conferred ← onAccounts (rolesFromDirectory directoryGroups)
  .done { userId := 0, username := username, isRoot := gatehouse.rootUsers.contains username
          roles := conferred.filterMap Role.parse, directoryGroups := directoryGroups }

def actorSigningIn (username : String) (directoryGroups : List String) :
    Option User → CredentialUseCase Actor
  | some user => onAccounts (resolveActor gatehouse.rootUsers user directoryGroups)
  | none => unknownActor gatehouse username directoryGroups

/-- Whether somebody may sign in while only administrators may. -/
def maySignInAsAdmin (username : String) (existing : Option User) (directoryGroups : List String) :
    CredentialUseCase Bool := do
  let actor ← actorSigningIn gatehouse username directoryGroups existing
  .done (actor.hasPermission .manageAuthConfig)

/-- A mode admits everybody, or whoever passes the check. -/
def admits (mode : AuthMode) (check : CredentialUseCase Bool) : CredentialUseCase Bool :=
  if adminsOnly mode then check else .done true

/-- The account that a verified password belongs to, as far as there is one. -/
def Verified.existing : Verified → Option User
  | .local user => some user
  | .directory existing _ => existing

/-- The login with a name and a password. -/
def authLogin (gravatarKey : String → String) (username password : String) : SignInUseCase Session := do
  let mode ← onCredentials getAuthMode
  let source ← onCredentials signInSource
  let directory ← onCredentials (directoryOf forms source)
  let verified ← verifyPasswordLocalFirst directory username password
  let may ← onCredentials (admits mode (maySignInAsAdmin gatehouse username verified.existing
    (gatehouse.directoryGroups username)))
  if !may then .fail (adminsOnlyRefusal mode)
  else onCredentials (onAccounts (startSession gravatarKey gatehouse.rootUsers verified))

/-- A new password ends the session it was changed in and opens another one. -/
def changePassword (user : User) (currentToken : Option String) (oldPassword newPassword : String) :
    SignInUseCase (Option Session) := do
  let right ← verifyPassword oldPassword user.passwordHash
  if !right then .fail .unauthorized
  else do
    let newHash ← hashPassword newPassword
    onCredentials (credentialRepo (.updatePassword user.id newHash))
    match currentToken with
    | none => .done none
    | some token => do
        onCredentials (credentialRepo (.deleteSession token))
        let session ← onCredentials (onAccounts (openSession user.id .local))
        .done (some session)

/-- The page on which somebody who is signed in changes their password. -/
def authChangePassword (authHeader : Option String) (oldPassword newPassword : String) :
    Program SignInRequest SignInRequest.Answer Refusal Session := do
  let caller ← onCredentials (authenticatedAuth gatehouse authHeader)
  let session ← orRefuse (changePassword caller.1 (authHeader.bind (stripPrefix "Bearer ")) oldPassword
    newPassword)
  match session with
  | none => .fail (.error (.internal "Password updated without an authenticated session token"))
  | some session => do
      orRefuse (onCredentials (recordAuditLog caller.1
        { action := "CHANGE_PASSWORD"
          details := "Successfully changed user password"
          actionType := some "ADMIN" }))
      .done session

end Doors

/-- An account for automation, which never signs in. -/
def createServiceAccount (rootUsers : RootUsers) (username : String) : CredentialUseCase User := do
  let username := trim username
  if username = "" || username.toList.any isWhiteSpace then
    .fail (.badRequest "a service account needs a name without spaces")
  else if rootUsers.contains username then .fail (.conflict "This username is reserved")
  else do
    let existing ← credentialRepo (.account (.findUser username))
    if existing.isSome then .fail (.conflict "User already exists")
    else credentialRepo (.account (.createUser username serviceAccountPasswordHash true))

end Sanshain.Application
