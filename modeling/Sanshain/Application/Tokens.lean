import Sanshain.Application.Admin
import Sanshain.Application.SignIn
import Sanshain.Domain.Credentials

namespace Sanshain.Application

open Sanshain.Domain Sanshain.Effects Sanshain.Text

/-- A use case on sessions and API tokens. -/
abbrev CredentialUseCase (Value : Type) :=
  Program CredentialRequest CredentialRequest.Answer AppError Value

/-- A call on the credential tables whose failure is the caller's to read. -/
def tryCredentials (request : CredentialCall) :
    CredentialUseCase (Except RepositoryError request.Result) :=
  .ask (CredentialRequest.repo request)

/-- A call on the credential tables whose failure ends the use case. -/
def credentialRepo (request : CredentialCall) : CredentialUseCase request.Result :=
  (tryCredentials request).bind fun answer => .ofExcept (answer.mapError RepositoryError.toAppError)

/-- A use case on accounts, where there are credentials too. -/
def onAccounts {Value : Type} : AccountUseCase Value → CredentialUseCase Value
  | .done value => .done value
  | .fail error => .fail error
  | .spin => .spin
  | .call .now next => .call .now fun answer => onAccounts (next answer)
  | .call .random next => .call .random fun answer => onAccounts (next answer)
  | .call (.repo request) next => .call (.repo (.account request)) fun answer => onAccounts (next answer)

theorem onAccounts_bind {Value Result : Type} (useCase : AccountUseCase Value)
    (next : Value → AccountUseCase Result) :
    onAccounts (useCase.bind next) = (onAccounts useCase).bind fun value => onAccounts (next value) := by
  induction useCase with
  | done value => rfl
  | fail error => rfl
  | spin => rfl
  | call request rest ih =>
      cases request with
      | now | random | repo =>
          simp only [Program.call_bind, onAccounts]
          congr 1
          funext answer
          exact ih answer

theorem onAccounts_ofExcept {Value : Type} (outcome : Except AppError Value) :
    onAccounts (.ofExcept outcome) = .ofExcept outcome := by
  cases outcome <;> rfl

/-- A call on the account tables is one on the credential tables. -/
theorem onAccounts_accountRepo (request : AccountCall) :
    onAccounts (accountRepo request) = credentialRepo (.account request) := by
  simp only [accountRepo, Program.ask, Program.call_bind, Program.done_bind, onAccounts, credentialRepo,
    tryCredentials]
  congr 1
  funext answer
  exact onAccounts_ofExcept _

/-- What the tokens of this deployment are made and looked up with. -/
structure TokenForms where
  rawToken : String → String
  digest : String → String

section Issuing

variable (forms : TokenForms)

/-- A token is shown once, and kept as its digest. -/
def createApiTokenIssued (userId : Nat) (name : String) (expiresInDays : Nat) (scope : ApiTokenScope)
    (issuedBy : Option String) : CredentialUseCase (String × String) := do
  let bytes ← Program.ask .random
  let rawToken := forms.rawToken bytes
  let id ← Program.ask .random
  let createdAt ← Program.ask .now
  let now ← Program.ask .now
  credentialRepo (.createApiToken
    { id := id
      userId := userId
      name := name
      tokenHash := forms.digest rawToken
      scope := scope
      createdAt := createdAt
      expiresAt := now + expiresInDays * secondsPerDay
      issuedBy := issuedBy })
  .done (id, rawToken)

/-- What a new token is for: the caller, or a service account. -/
structure TokenRequest where
  name : String
  expiresInDays : Nat
  scope : ApiTokenScope
  forUser : Option String

def issueToken (actor : Actor) (request : TokenRequest) : CredentialUseCase (String × String) :=
  match request.forUser.filter (· ≠ "") with
  | none =>
      createApiTokenIssued forms actor.userId request.name request.expiresInDays request.scope none
  | some forUser =>
      if !actor.hasPermission .manageUsers then
        .fail (.forbiddenWithReason "issuing a token for a service account needs manage_users")
      else do
        let found ← credentialRepo (.account (.findUser forUser))
        match found.filter User.isServiceAccount with
        | none =>
            .fail (.badRequest
              s!"'{forUser}' is not a service account; tokens are issued only for those")
        | some account =>
            createApiTokenIssued forms account.id request.name request.expiresInDays request.scope
              (some actor.username)

end Issuing

def serviceAccounts : CredentialUseCase (List User) := do
  let users ← credentialRepo (.account .listUsers)
  .done (users.filter User.isServiceAccount)

/-- The caller's tokens, and those of the service accounts for whoever manages users. -/
def listTokensFor (actor : Actor) : CredentialUseCase (List (ApiToken × Option String)) := do
  let own ← credentialRepo (.listApiTokens actor.userId)
  let listed := own.map fun token => (token, none)
  if actor.hasPermission .manageUsers then do
    let accounts ← serviceAccounts
    Program.foldEach (fun listed account => do
      let tokens ← credentialRepo (.listApiTokens account.id)
      .done (listed ++ tokens.map fun token => (token, some account.username))) listed accounts
  else .done listed

/-- The token is looked for among the accounts, one after another. -/
def revokeOfAccounts (tokenId : String) : List User → CredentialUseCase Bool
  | [] => .done false
  | account :: rest => do
      let deleted ← credentialRepo (.deleteApiToken tokenId account.id)
      if deleted then .done true else revokeOfAccounts tokenId rest

/-- A token of the caller's, or of a service account for whoever manages users. -/
def revokeTokenAs (actor : Actor) (tokenId : String) : CredentialUseCase Bool := do
  let deleted ← credentialRepo (.deleteApiToken tokenId actor.userId)
  if deleted then .done true
  else if actor.hasPermission .manageUsers then do
    let accounts ← serviceAccounts
    revokeOfAccounts tokenId accounts
  else .done false

/-- How long a stamp of the last use is left alone: a minute. -/
def lastUsedStampInterval : Nat := 60

def lastUsedStampDue (lastUsedAt : Option Instant) (now : Instant) : Bool :=
  lastUsedAt.all fun stamped => decide (stamped + lastUsedStampInterval ≤ now)

/-- A live token's identity; a stamp that fails is not missed. -/
def validateApiToken (digest : String → String) (rawToken : String) :
    CredentialUseCase (Option ApiTokenIdentity) := do
  let found ← credentialRepo (.validateApiToken (digest rawToken))
  match found with
  | none => .done none
  | some identity => do
      let now ← Program.ask .now
      if lastUsedStampDue identity.lastUsedAt now then do
        let _ ← tryCredentials (.touchApiToken identity.tokenId now)
        .done (some identity)
      else .done (some identity)

end Sanshain.Application
