import Sanshain.Application.Tokens
import Sanshain.Text.Trim

namespace Sanshain.Application

open Sanshain.Domain Sanshain.Effects Sanshain.Text

/-- The answer a guard gives instead of running the route. -/
inductive Refusal where
  | status (code : Nat)
  | maintenance
  | challenge (message : String) (errorCode : Option String)
  | error (error : AppError)
  deriving DecidableEq, Repr

/-- A guard before a route. -/
abbrev Guard (Value : Type) := Program CredentialRequest CredentialRequest.Answer Refusal Value

/-- What a guard knows beside the store: the deployment, what the directory says of a person's groups,
and whether somebody maintains the Producer that the route names. -/
structure Gatehouse where
  digest : String → String
  devModeGateOpen : Bool
  devUser : Option User
  rootUsers : RootUsers
  directoryGroups : String → List String
  requireProducerPermission : Actor → Permission → Except AppError Unit

def getAuthMode : CredentialUseCase AuthMode := do
  let stored ← credentialRepo (.account (.getSetting "auth_mode"))
  .done ((AuthMode.fromStr (stored.getD "disabled")).getD .disabled)

def adminsOnly : AuthMode → Bool
  | .disabled | .dev => true
  | _ => false

def adminsOnlyRefusal (mode : AuthMode) : AppError :=
  .forbiddenWithReason (if mode = .disabled then
    "Sanshain is in maintenance; only administrators can sign in"
  else "Sanshain is in dev mode; only administrators can sign in")

def devUserName : String := "dev_user"

/-- A password that the account of dev mode was once created with is locked. -/
def lockDevUser : CredentialUseCase Bool := do
  let found ← credentialRepo (.account (.findUser devUserName))
  match found with
  | some user =>
      if !user.isServiceAccount then do
        credentialRepo (.updatePassword user.id serviceAccountPasswordHash)
        .done true
      else .done false
  | none => .done false

def ensureDevUser : CredentialUseCase User := do
  let _ ← lockDevUser
  let found ← credentialRepo (.account (.findUser devUserName))
  match found with
  | some user => .done user
  | none => do
      let user ← credentialRepo (.account (.createUser devUserName serviceAccountPasswordHash true))
      credentialRepo (.account (.grantUserRole user.id Role.admin.asStr))
      .done user

/-- The refusal of a read-only token where the catalog is changed. -/
def readOnlyTokenRefusal : AppError :=
  .forbiddenWithReason s!"this API token has scope '{ApiTokenScope.readOnly.asStr}' and may not change the catalog; create a token with scope '{ApiTokenScope.full.asStr}' for provide, require and catalog pushes"

def readOnlyAdminTokenRefusal : AppError :=
  .forbiddenWithReason s!"this API token has scope '{ApiTokenScope.readOnly.asStr}' and may not call administrative routes; use a token with scope '{ApiTokenScope.full.asStr}' of an account holding the permission"

/-- What a route behind the API guard does to the catalog. -/
inductive ApiAccess where
  | read
  | write
  deriving DecidableEq, Repr

/-- What a route requires of its caller. -/
inductive RouteGuard where
  | authenticated
  | global (permission : Permission)
  | producer (permission : Permission)
  deriving DecidableEq, Repr

/-- What an administrative route accepts as proof of identity. -/
inductive AdminCredentials where
  | sessionOnly
  | sessionOrApiToken
  deriving DecidableEq, Repr

section Guards

variable (gatehouse : Gatehouse)

/-- Dev mode is effective behind its gate alone. -/
def getDevMode : CredentialUseCase Bool := do
  let mode ← getAuthMode
  .done (mode = .dev && gatehouse.devModeGateOpen)

/-- Who dev mode acts as. -/
def resolveDevUser : Guard (Option User) :=
  match gatehouse.devUser with
  | some user => .done (some user)
  | none => do
      let outcome ← ensureDevUser.attempt
      .done outcome.toOption

/-- A caller whose roles cannot be told is refused. -/
def attachCaller (user : User) : Guard (User × Actor) := do
  let outcome ← (onAccounts (resolveActor gatehouse.rootUsers user
    (gatehouse.directoryGroups user.username))).attempt
  match outcome with
  | .ok actor => .done (user, actor)
  | .error _ => .fail (.status 500)

/-- Off and dev mode admit to the web pages whoever configures the sign-in. -/
def refuseUnlessAdminMaySignIn (actor : Actor) : Guard Unit := do
  let outcome ← getAuthMode.attempt
  match outcome with
  | .error error => .fail (.error error)
  | .ok mode =>
      if actor.hasPermission .manageAuthConfig || !adminsOnly mode then .done ()
      else .fail (.error (adminsOnlyRefusal mode))

/-- The session that a token opens, if the store answers. -/
def sessionOf (token : String) : Guard (Option (User × Session)) := do
  let answer ← Program.ask (CredentialRequest.repo (.validateSession token))
  .done (answer.toOption.join)

/-- The identity of an API token, if the store answers. -/
def identityOf (token : String) : Guard (Option ApiTokenIdentity) := do
  let outcome ← (validateApiToken gatehouse.digest token).attempt
  .done outcome.toOption.join

/-- The guard of the routes of Producers and Consumers. -/
def authenticateApi (access : ApiAccess) (authHeader : Option String) : Guard (User × Actor) := do
  let mode ← getAuthMode.attempt
  if mode.toOption = some .disabled then .fail .maintenance
  else match authHeader with
    | some header => do
        let token := (stripPrefix "Bearer " header).getD header
        match ← sessionOf token with
        | some (user, _) => attachCaller gatehouse user
        | none => do
            match ← identityOf gatehouse token with
            | some identity =>
                if access = .write ∧ identity.scope = .readOnly then
                  .fail (.error readOnlyTokenRefusal)
                else attachCaller gatehouse identity.user
            | none => .fail (.status 401)
    | none => do
        let devMode ← (getDevMode gatehouse).attempt
        if devMode.toOption.getD false then do
          match ← resolveDevUser gatehouse with
          | some user => attachCaller gatehouse user
          | none => .fail (.status 403)
        else .fail (.status 403)

/-- Who an administrative route is called by. -/
def administrativeCaller (credentials : AdminCredentials) (token : String) : Guard User := do
  match ← sessionOf token with
  | some (user, _) => .done user
  | none =>
      if credentials = .sessionOrApiToken then do
        match ← identityOf gatehouse token with
        | some identity =>
            if identity.scope = .readOnly then .fail (.error readOnlyAdminTokenRefusal)
            else .done identity.user
        | none => .fail (.error .unauthorized)
      else .fail (.error .unauthorized)

/-- What a route requires of its caller, beside being who they are. -/
def enforce (routeGuard : RouteGuard) (actor : Actor) : Guard Unit :=
  match routeGuard with
  | .authenticated => .done ()
  | .global permission =>
      if actor.hasPermission permission then .done () else .fail (.error .forbidden)
  | .producer permission =>
      if actor.hasPermission permission then .done ()
      else .ofExcept ((gatehouse.requireProducerPermission actor permission).mapError Refusal.error)

/-- The guard of the administrative routes: dev mode opens the API, not the administration. -/
def permissionAuthWith (routeGuard : RouteGuard) (credentials : AdminCredentials)
    (authHeader : Option String) : Guard (User × Actor) :=
  match authHeader.bind (stripPrefix "Bearer ") with
  | none => .fail (.error .unauthorized)
  | some token => do
      let user ← administrativeCaller gatehouse credentials token
      let caller ← attachCaller gatehouse user
      refuseUnlessAdminMaySignIn caller.2
      enforce gatehouse routeGuard caller.2
      .done caller

/-- The guard of the pages of whoever is signed in. -/
def authenticatedAuth (authHeader : Option String) : Guard (User × Actor) :=
  match authHeader.bind (stripPrefix "Bearer ") with
  | none => .fail (.status 401)
  | some token => do
      match ← sessionOf token with
      | none => .fail (.status 401)
      | some (user, _) => do
          let caller ← attachCaller gatehouse user
          refuseUnlessAdminMaySignIn caller.2
          .done caller

structure McpCaller where
  user : User
  scope : ApiTokenScope
  tokenId : String
  deriving DecidableEq, Repr

/-- The guard of the MCP endpoint: API tokens of either scope, and no sessions. -/
def mcpAuth (authHeader : Option String) : Guard McpCaller := do
  let mode ← getAuthMode.attempt
  if mode.toOption = some .disabled then .fail .maintenance
  else match authHeader with
    | some value =>
        match stripPrefix "Bearer " value with
        | none => .fail (.challenge
            "the MCP endpoint takes `Authorization: Bearer <API token>`" (some "invalid_request"))
        | some token => do
            match ← identityOf gatehouse (trim token) with
            | some identity => .done ⟨identity.user, identity.scope, identity.tokenId⟩
            | none => .fail (.challenge
                "unknown or expired API token (session tokens are not accepted here)"
                (some "invalid_token"))
    | none => do
        let devMode ← (getDevMode gatehouse).attempt
        let user ← if devMode.toOption.getD false then resolveDevUser gatehouse else .done none
        match user with
        | some user => .done ⟨user, .full, "dev-mode"⟩
        | none => .fail (.challenge
            "the MCP endpoint needs `Authorization: Bearer <API token>`; mint one on the account page" none)

end Guards

end Sanshain.Application
