import Sanshain.Domain.Accounts

namespace Sanshain.Domain

inductive ApiTokenScope where
  | full
  | readOnly
  deriving DecidableEq, Repr

namespace ApiTokenScope

def asStr : ApiTokenScope → String
  | .full => "full"
  | .readOnly => "read_only"

/-- An unknown spelling is no scope, so a damaged row cannot widen a token. -/
def parse : String → Option ApiTokenScope
  | "full" => some .full
  | "read_only" => some .readOnly
  | _ => none

@[simp] theorem parse_asStr (scope : ApiTokenScope) : parse scope.asStr = some scope := by
  cases scope <;> rfl

end ApiTokenScope

structure ApiToken where
  id : String
  userId : Nat
  name : String
  tokenHash : String
  scope : ApiTokenScope
  createdAt : Instant
  expiresAt : Instant
  lastUsedAt : Option Instant := none
  issuedBy : Option String := none
  deriving DecidableEq, Repr

structure NewApiToken where
  id : String
  userId : Nat
  name : String
  tokenHash : String
  scope : ApiTokenScope
  createdAt : Instant
  expiresAt : Instant
  issuedBy : Option String
  deriving DecidableEq, Repr

/-- Whose token it is, and what it may do. -/
structure ApiTokenIdentity where
  tokenId : String
  scope : ApiTokenScope
  lastUsedAt : Option Instant
  user : User
  deriving DecidableEq, Repr

/-- The operations of the store on what people and automation identify themselves with. The operations
of several statements without a transaction are given statement by statement. -/
inductive CredentialCall where
  | account (request : AccountCall)
  | approveUser (userId : Nat)
  | updatePassword (userId : Nat) (newHash : String)
  | validateSession (token : String)
  | deleteSession (token : String)
  | createApiToken (token : NewApiToken)
  | listApiTokens (userId : Nat)
  | deleteApiToken (tokenId : String) (userId : Nat)
  | validateApiToken (tokenHash : String)
  | touchApiToken (tokenId : String) (usedAt : Instant)
  | deleteExpiredSessions (cutoff : Instant)
  | deleteExpiredApiTokens (cutoff : Instant)
  | deleteNonAdminSessions (spareUsernames : List String)
  | deleteNonAdminApiTokens (spareUsernames : List String)
  | deleteNonAdminUsers (spareUsernames : List String)
  | nukeDatabase (keepUserId : Option Nat)
  | setSetting (key value : String)

abbrev CredentialCall.Result : CredentialCall → Type
  | .account request => request.Result
  | .approveUser _ | .deleteApiToken _ _ => Bool
  | .updatePassword _ _ | .deleteSession _ | .createApiToken _ | .touchApiToken _ _
  | .nukeDatabase _ | .setSetting _ _ => Unit
  | .validateSession _ => Option (User × Session)
  | .listApiTokens _ => List ApiToken
  | .validateApiToken _ => Option ApiTokenIdentity
  | .deleteExpiredSessions _ | .deleteExpiredApiTokens _ | .deleteNonAdminSessions _
  | .deleteNonAdminApiTokens _ | .deleteNonAdminUsers _ => Nat

/-- A call of a use case on credentials: the clock, the random generator or the store. -/
inductive CredentialRequest where
  | now
  | random
  | repo (request : CredentialCall)

abbrev CredentialRequest.Answer : CredentialRequest → Type
  | .now => Instant
  | .random => String
  | .repo request => Except RepositoryError request.Result

def AuthMode.asStr : AuthMode → String
  | .disabled => "disabled"
  | .dev => "dev"
  | .local => "local"
  | .ldap => "ldap"
  | .oidc => "oidc"

@[simp] theorem AuthMode.fromStr_asStr (mode : AuthMode) : AuthMode.fromStr mode.asStr = some mode := by
  cases mode <;> rfl

structure LdapConfig where
  serverUrl : String
  bindDn : String
  bindPassword : Option String := none
  baseDn : String
  userFilter : String
  groupFilter : String := ""
  adminGroup : String := ""
  useTls : Bool := false
  usernameAttribute : String := ""
  deriving DecidableEq, Repr

structure OidcConfig where
  issuerUrl : String
  clientId : String
  clientSecret : Option String := none
  redirectUrl : String
  scopes : List String := ["openid", "email", "profile"]
  usernameClaim : String := "preferred_username"
  groupsClaim : String := "groups"
  adminGroup : String := ""
  deriving DecidableEq, Repr

/-- Where the browser is sent, and what the callback is checked against. -/
structure OidcAuthorizeUrl where
  url : String
  state : String
  nonce : String
  pkceVerifier : String
  deriving DecidableEq, Repr

/-- The identity that a verified token resolves to. -/
structure OidcClaims where
  username : String
  name : Option String := none
  email : Option String := none
  groups : List String := []
  deriving DecidableEq, Repr

/-- What passwords and the providers of identities are asked. -/
inductive IdentityCall where
  | hashPassword (password : String)
  | verifyPassword (password hash : String)
  | authenticate (config : LdapConfig) (username password : String)
  | authorizeUrl (config : OidcConfig)
  | exchangeAndVerify (config : OidcConfig) (code pkceVerifier expectedNonce : String)

abbrev IdentityCall.Answer : IdentityCall → Type
  | .hashPassword _ => Except AppError String
  | .verifyPassword _ _ => Except AppError Bool
  | .authenticate _ _ _ => Except String AuthenticatedUser
  | .authorizeUrl _ => Except AppError OidcAuthorizeUrl
  | .exchangeAndVerify _ _ _ _ => Except AppError OidcClaims

/-- A call of a sign-in: on the credential tables, or to whoever knows an identity. -/
abbrev SignInRequest := CredentialRequest ⊕ IdentityCall

abbrev SignInRequest.Answer : SignInRequest → Type :=
  Sum.elim CredentialRequest.Answer IdentityCall.Answer

end Sanshain.Domain
