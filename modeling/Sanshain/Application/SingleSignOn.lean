import Sanshain.Application.PasswordSignIn

namespace Sanshain.Application

open Sanshain.Domain Sanshain.Effects Sanshain.Text

/-- What a sign-in through the provider keeps in a cookie between the redirect and the callback. -/
structure OidcFlowState where
  state : String
  nonce : String
  pkceVerifier : String
  deriving DecidableEq, Repr

namespace OidcFlowState

def encode (flow : OidcFlowState) : String := s!"{flow.state}|{flow.nonce}|{flow.pkceVerifier}"

/-- Three parts, none of them empty; the last one may contain the separator. -/
def decode (raw : String) : Option OidcFlowState :=
  (splitOnce '|' raw.toList).bind fun first =>
    (splitOnce '|' first.2).bind fun second =>
      if first.1 = [] ∨ second.1 = [] ∨ second.2 = [] then none
      else some ⟨String.ofList first.1, String.ofList second.1, String.ofList second.2⟩

end OidcFlowState

section Cookies

def oidcFlowCookie : String := "sanshain_oidc_flow"

/-- The value of one cookie among those that the browser sends. -/
def cookieOf (name : String) (pair : List Char) : Option String :=
  (splitOnce '=' (trimChars pair)).bind fun parts =>
    if parts.1 = name.toList then some (String.ofList parts.2) else none

def cookieValue (header name : String) : Option String :=
  (splitChars ';' header.toList).findSome? (cookieOf name)

end Cookies

section Flow

variable (gatehouse : Gatehouse) (forms : ProviderForms)

def oidcMustBeTheSource : CredentialUseCase Unit := do
  let source ← signInSource
  if source ≠ .oidc then
    .fail (.forbiddenWithReason "single sign-on is not the sign-in source of this instance")
  else .done ()

def requireOidcConfig : CredentialUseCase OidcConfig := do
  match ← forms.getOidcConfig with
  | none => .fail (.badRequest "OIDC is not configured")
  | some config => .done config

/-- Where the browser is sent, with what the callback is to be checked against. -/
def oidcBegin : SignInUseCase (String × OidcFlowState) := do
  onCredentials oidcMustBeTheSource
  let config ← onCredentials (requireOidcConfig forms)
  let answer ← askIdentity (.authorizeUrl config)
  let authorize ← Program.ofExcept answer
  .done (authorize.url, ⟨authorize.state, authorize.nonce, authorize.pkceVerifier⟩)

/-- A provider's account: the one of that name, or a new one whose password is unusable. -/
def oidcAccount (username : String) : AccountUseCase User := do
  let found ← accountRepo (.findUser username)
  match found with
  | some user => if user.isServiceAccount then .fail .unauthorized else .done user
  | none => do
      let hash ← Program.ask .random
      accountRepo (.createUser username hash true)

def inAdminGroup (adminGroup : String) (groups : List String) : Bool :=
  adminGroup ≠ "" && groups.contains adminGroup

/-- A member of the provider's group of administrators is granted the role, which no sign-in takes away. -/
def grantByGroup (userId : Nat) (adminGroup : String) (groups : List String) : AccountUseCase Unit :=
  if inAdminGroup adminGroup groups then accountRepo (.grantUserRole userId Role.admin.asStr)
  else .done ()

/-- The session of an identity that the provider has confirmed. -/
def loginOidc (gravatarKey : String → String) (claims : OidcClaims) (adminGroup : String) :
    AccountUseCase Session := do
  let user ← oidcAccount claims.username
  grantByGroup user.id adminGroup claims.groups
  refreshProviderIdentity gravatarKey user.id
    { username := claims.username, displayName := claims.name, email := claims.email }
  openSession user.id .oidc

/-- Whether somebody may sign in through the provider while only administrators may. -/
def mayCompleteAsAdmin (config : OidcConfig) (claims : OidcClaims) : CredentialUseCase Bool := do
  let existing ← credentialRepo (.account (.findUser claims.username))
  if inAdminGroup config.adminGroup claims.groups then .done true
  else maySignInAsAdmin gatehouse claims.username existing []

/-- The second half of a sign-in through the provider. -/
def oidcComplete (gravatarKey : String → String) (code callbackState : String) (flow : OidcFlowState) :
    SignInUseCase Session :=
  if callbackState ≠ flow.state then .fail .unauthorized
  else do
    onCredentials oidcMustBeTheSource
    let config ← onCredentials (requireOidcConfig forms)
    let answer ← askIdentity (.exchangeAndVerify config code flow.pkceVerifier flow.nonce)
    let claims ← Program.ofExcept answer
    let mode ← onCredentials getAuthMode
    let may ← onCredentials (admits mode (mayCompleteAsAdmin gatehouse config claims))
    if !may then .fail (adminsOnlyRefusal mode)
    else onCredentials (onAccounts (loginOidc gravatarKey claims config.adminGroup))

/-- What the provider sends back with the browser. -/
structure OidcCallbackQuery where
  code : Option String
  state : Option String
  error : Option String

/-- What a callback of the provider is, with the flow that its cookie tells. -/
def readCallback (cookies : Option String) (query : OidcCallbackQuery) :
    Except AppError (String × String × OidcFlowState) :=
  if query.error.isSome then .error .unauthorized
  else match query.code with
    | none => .error (.badRequest "missing code")
    | some code => match query.state with
        | none => .error (.badRequest "missing state")
        | some callbackState =>
            match cookies.bind (cookieValue · oidcFlowCookie) with
            | none => .error (.badRequest "no OIDC login in progress")
            | some raw => match OidcFlowState.decode raw with
                | none => .error .unauthorized
                | some flow => .ok (code, callbackState, flow)

def oidcCallback (gravatarKey : String → String) (cookies : Option String) (query : OidcCallbackQuery) :
    SignInUseCase Session := do
  let read ← Program.ofExcept (readCallback cookies query)
  oidcComplete gatehouse forms gravatarKey read.1 read.2.1 read.2.2

end Flow

end Sanshain.Application
