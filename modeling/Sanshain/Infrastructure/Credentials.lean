import Sanshain.Domain.Credentials
import Sanshain.Infrastructure.AccountIntegrity

namespace Sanshain.Infrastructure

open Sanshain.Domain

/-- A row of an API token; the scope is kept as it is spelt. -/
structure StoredApiToken where
  id : String
  userId : Nat
  name : String
  tokenHash : String
  scope : String
  createdAt : Instant
  expiresAt : Instant
  lastUsedAt : Option Instant := none
  issuedBy : Option String := none
  deriving DecidableEq, Repr

namespace StoredApiToken

def ofNew (token : NewApiToken) : StoredApiToken where
  id := token.id
  userId := token.userId
  name := token.name
  tokenHash := token.tokenHash
  scope := token.scope.asStr
  createdAt := token.createdAt
  expiresAt := token.expiresAt
  issuedBy := token.issuedBy

/-- A spelling that is not understood is read as the narrower scope. -/
def readScope (row : StoredApiToken) : ApiTokenScope := (ApiTokenScope.parse row.scope).getD .readOnly

def read (row : StoredApiToken) : ApiToken where
  id := row.id
  userId := row.userId
  name := row.name
  tokenHash := row.tokenHash
  scope := row.readScope
  createdAt := row.createdAt
  expiresAt := row.expiresAt
  lastUsedAt := row.lastUsedAt
  issuedBy := row.issuedBy

@[simp] theorem readScope_ofNew (token : NewApiToken) : (ofNew token).readScope = token.scope := by
  rw [readScope, ofNew, ApiTokenScope.parse_asStr]
  rfl

/-- The columns that operations on accounts look at. -/
def brief (row : StoredApiToken) : ApiTokenRow := ⟨row.id, row.userId, row.name⟩

end StoredApiToken

/-- The account tables, with the API tokens in full. -/
structure Credentials where
  accounts : Accounts
  apiTokens : List StoredApiToken := []

namespace Credentials

/-- The account tables as their own operations see them. -/
def loaded (credentials : Credentials) : Accounts :=
  { credentials.accounts with apiTokens := credentials.apiTokens.map StoredApiToken.brief }

def userOf? (credentials : Credentials) (userId : Nat) : Option User :=
  credentials.accounts.users.find? (·.id = userId)

section Accounts

variable (digest : String → String)

/-- Sessions are kept under the digest of their token. -/
def performAccount (accounts : Accounts) :
    (request : AccountCall) → Accounts × Except RepositoryError request.Result
  | .createSession userId token expiresAt =>
      let outcome := accounts.perform (.createSession userId (digest token) expiresAt)
      (outcome.1, outcome.2.map fun session => { session with token := token })
  | .setSessionSignIn token method => accounts.perform (.setSessionSignIn (digest token) method)
  | request => accounts.perform request

end Accounts

/-- API tokens move with the account that owns them, and go with it. -/
def apiTokensAfter (credentials : Credentials) : AccountCall → List StoredApiToken
  | .deleteUser userId => credentials.apiTokens.filter (·.userId ≠ userId)
  | .mergeUserInto source target =>
      match credentials.loaded.mergeUserInto source target with
      | .error _ => credentials.apiTokens
      | .ok _ =>
          (credentials.apiTokens.map fun row =>
            if row.userId = source then { row with userId := target } else row).filter
              (·.userId ≠ source)
  | _ => credentials.apiTokens

/-- The name, the identifier or the digest of a token is taken. -/
def tokenTaken (credentials : Credentials) (token : NewApiToken) : Bool :=
  credentials.apiTokens.any fun row => row.id == token.id || row.tokenHash == token.tokenHash ||
    (row.userId = token.userId && row.name == token.name)

/-- An account that is no administrator, by itself or by a group, nor spared by its name. -/
def doomed (credentials : Credentials) (spareUsernames : List String) (userId : Nat) : Bool :=
  credentials.accounts.users.any fun user => user.id = userId &&
    !(credentials.accounts.roles.contains (userId, "admin") ||
      credentials.accounts.members.any fun member => member.2 = userId &&
        credentials.accounts.groupRoles.contains (member.1, "admin")) &&
    !spareUsernames.contains user.username

/-- Accounts go one after another, each with every row that refers to it. -/
def deleteUsers (credentials : Credentials) (gone : List Nat) : Credentials where
  accounts := gone.foldl Accounts.deleteUser credentials.accounts
  apiTokens := credentials.apiTokens.filter (·.userId ∉ gone)

def userIds (credentials : Credentials) : List Nat := credentials.accounts.users.map (·.id)

/-- A factory reset spares one account with its credentials, if it is told to. -/
def nuke (credentials : Credentials) (keepUserId : Option Nat) : Credentials :=
  let reset : Credentials :=
    { accounts := { credentials.accounts with
        maintainers := []
        groupMaintainers := []
        sessions := credentials.accounts.sessions.filter fun row => some row.userId = keepUserId }
      apiTokens := credentials.apiTokens.filter fun row => some row.userId = keepUserId }
  reset.deleteUsers (credentials.userIds.filter fun userId => some userId ≠ keepUserId)

/-- One operation at an instant: the tables afterwards, and the answer. -/
def perform (digest : String → String) (now : Instant) (credentials : Credentials) :
    (request : CredentialCall) → Credentials × Except RepositoryError request.Result
  | .account request =>
      let outcome := performAccount digest credentials.loaded request
      (⟨outcome.1, credentials.apiTokensAfter request⟩, outcome.2)
  | .approveUser userId =>
      ({ credentials with accounts := { credentials.accounts with
          users := credentials.accounts.users.map fun user =>
            if user.id = userId ∧ user.approved = false then { user with approved := true } else user } },
        .ok (credentials.accounts.users.any fun user => user.id = userId && !user.approved))
  | .updatePassword userId newHash =>
      ({ credentials with accounts := { credentials.accounts with
          users := credentials.accounts.users.map fun user =>
            if user.id = userId then { user with passwordHash := newHash } else user } }, .ok ())
  | .validateSession token =>
      (credentials, .ok ((credentials.accounts.sessions.find? fun row =>
        row.token = digest token ∧ now < row.expiresAt).bind fun row =>
          (credentials.userOf? row.userId).map fun user =>
            (user, ⟨token, user.id, row.expiresAt⟩)))
  | .deleteSession token =>
      ({ credentials with accounts := { credentials.accounts with
          sessions := credentials.accounts.sessions.filter (·.token ≠ digest token) } }, .ok ())
  | .createApiToken token =>
      if credentials.tokenTaken token then (credentials, .error .conflict)
      else if ¬ credentials.accounts.hasUser token.userId then
        (credentials, .error (constraintFailed "FOREIGN KEY"))
      else ({ credentials with
          apiTokens := credentials.apiTokens ++ [StoredApiToken.ofNew token] }, .ok ())
  | .listApiTokens userId =>
      (credentials, .ok (((credentials.apiTokens.filter (·.userId = userId)).map
        StoredApiToken.read).insertionSort fun first second => second.createdAt ≤ first.createdAt))
  | .deleteApiToken tokenId userId =>
      ({ credentials with
          apiTokens := credentials.apiTokens.filter fun row => ¬ (row.id = tokenId ∧ row.userId = userId) },
        .ok (credentials.apiTokens.any fun row => row.id = tokenId && row.userId = userId))
  | .validateApiToken tokenHash =>
      (credentials, .ok ((credentials.apiTokens.find? fun row =>
        row.tokenHash = tokenHash ∧ now < row.expiresAt).bind fun row =>
          (credentials.userOf? row.userId).map fun user =>
            ⟨row.id, row.readScope, row.lastUsedAt, user⟩))
  | .touchApiToken tokenId usedAt =>
      ({ credentials with apiTokens := credentials.apiTokens.map fun row =>
          if row.id = tokenId then { row with lastUsedAt := some usedAt } else row }, .ok ())
  | .deleteExpiredSessions cutoff =>
      ({ credentials with accounts := { credentials.accounts with
          sessions := credentials.accounts.sessions.filter fun row => ¬ row.expiresAt < cutoff } },
        .ok (credentials.accounts.sessions.countP fun row => row.expiresAt < cutoff))
  | .deleteExpiredApiTokens cutoff =>
      ({ credentials with apiTokens := credentials.apiTokens.filter fun row => ¬ row.expiresAt < cutoff },
        .ok (credentials.apiTokens.countP fun row => row.expiresAt < cutoff))
  | .deleteNonAdminSessions spare =>
      ({ credentials with accounts := { credentials.accounts with
          sessions := credentials.accounts.sessions.filter fun row =>
            !credentials.doomed spare row.userId } },
        .ok (credentials.accounts.sessions.countP fun row => credentials.doomed spare row.userId))
  | .deleteNonAdminApiTokens spare =>
      ({ credentials with apiTokens := credentials.apiTokens.filter fun row =>
          !credentials.doomed spare row.userId },
        .ok (credentials.apiTokens.countP fun row => credentials.doomed spare row.userId))
  | .deleteNonAdminUsers spare =>
      (credentials.deleteUsers (credentials.userIds.filter (credentials.doomed spare)),
        .ok (credentials.userIds.countP (credentials.doomed spare)))
  | .nukeDatabase keepUserId => (credentials.nuke keepUserId, .ok ())
  | .setSetting key value =>
      ({ credentials with accounts := { credentials.accounts with
          settings := Data.Entries.insert credentials.accounts.settings key value } }, .ok ())

/-- The tables after a call at its instant. -/
def step (digest : String → String) (credentials : Credentials) (call : Instant × CredentialCall) :
    Credentials := (credentials.perform digest call.1 call.2).1

end Credentials

/-- The credential tables and how many calls they have answered. -/
structure CredentialWorld where
  credentials : Credentials
  steps : Nat := 0

/-- One call: a fault answers an internal error and changes nothing. -/
def CredentialWorld.handle (digest : String → String) (environment : Environment) :
    Effects.Handler CredentialWorld CredentialRequest CredentialRequest.Answer
  | world, .now => (⟨world.credentials, world.steps + 1⟩, environment.clock world.steps)
  | world, .random => (⟨world.credentials, world.steps + 1⟩, environment.uuid world.steps)
  | world, .repo request =>
      match environment.fault world.steps with
      | some reason => (⟨world.credentials, world.steps + 1⟩, .error (.internal reason))
      | none =>
          let outcome := world.credentials.perform digest (environment.clock world.steps) request
          (⟨outcome.1, world.steps + 1⟩, outcome.2)

namespace Accounts.Integrity

variable {accounts : Accounts}

/-- A change of accounts that leaves their identifiers and names. -/
theorem map_users (sound : Integrity accounts) {change : User → User}
    (ids : ∀ user, (change user).id = user.id) (names : ∀ user, (change user).username = user.username) :
    Integrity { accounts with users := accounts.users.map change } := by
  have sameIds : (accounts.users.map change).map (·.id) = accounts.users.map (·.id) := by
    rw [List.map_map]
    exact List.map_congr_left fun user _ => ids user
  have sameNames : (accounts.users.map change).map (·.username) = accounts.users.map (·.username) := by
    rw [List.map_map]
    exact List.map_congr_left fun user _ => names user
  refine { sound with
    userIds := sameIds ▸ sound.userIds
    usernames := sameNames ▸ sound.usernames
    userBelow := fun user held => ?_
    profilesKnown := fun profile held =>
      (congrArg (profile.userId ∈ ·) sameIds).mpr (sound.profilesKnown profile held)
    sessionsKnown := fun row held =>
      (congrArg (row.userId ∈ ·) sameIds).mpr (sound.sessionsKnown row held) }
  obtain ⟨old, there, rfl⟩ := List.mem_map.mp held
  rw [ids old]
  exact sound.userBelow old there

/-- Sessions may be dropped. -/
theorem fewer_sessions (sound : Integrity accounts) {sessions : List SessionRow}
    (sublist : sessions.Sublist accounts.sessions) :
    Integrity { accounts with sessions := sessions } :=
  { sound with
    sessionsKnown := fun row held => sound.sessionsKnown row (sublist.subset held)
    sessionTokens := sound.sessionTokens.sublist (sublist.map _) }

theorem deleteUsers (sound : Integrity accounts) (gone : List Nat) :
    Integrity (gone.foldl Accounts.deleteUser accounts) := by
  induction gone generalizing accounts with
  | nil => exact sound
  | cons userId rest ih => exact ih (sound.deleteUser userId)

end Accounts.Integrity

namespace Credentials

variable {credentials : Credentials}

theorem loaded_integrity (sound : credentials.accounts.Integrity) : credentials.loaded.Integrity :=
  { sound with }

/-- Every call keeps the constraints of the account tables. -/
theorem perform_integrity (sound : credentials.accounts.Integrity) (digest : String → String)
    (now : Instant) (request : CredentialCall) :
    (credentials.perform digest now request).1.accounts.Integrity := by
  cases request with
  | account request =>
      cases request with
      | createSession userId token expiresAt =>
          exact (loaded_integrity sound).perform (.createSession userId (digest token) expiresAt)
      | setSessionSignIn token method =>
          exact (loaded_integrity sound).perform (.setSessionSignIn (digest token) method)
      | _ => exact (loaded_integrity sound).perform _
  | approveUser userId =>
      refine sound.map_users (fun user => ?_) (fun user => ?_) <;> split <;> rfl
  | updatePassword userId newHash =>
      refine sound.map_users (fun user => ?_) (fun user => ?_) <;> split <;> rfl
  | deleteSession | deleteExpiredSessions | deleteNonAdminSessions =>
      exact sound.fewer_sessions List.filter_sublist
  | deleteNonAdminUsers spare => exact sound.deleteUsers _
  | nukeDatabase keep =>
      have reset : Accounts.Integrity { credentials.accounts with
          maintainers := []
          groupMaintainers := []
          sessions := credentials.accounts.sessions.filter fun row => some row.userId = keep } :=
        { sound.fewer_sessions List.filter_sublist with }
      exact reset.deleteUsers _
  | createApiToken token =>
      simp only [perform]
      split
      · exact sound
      · split <;> exact sound
  | setSetting key value => exact { sound with }
  | _ => exact sound

/-- The user of an identifier is the one row that has it. -/
theorem userOf?_eq_some (sound : credentials.accounts.Integrity) {userId : Nat} {user : User} :
    credentials.userOf? userId = some user ↔ user ∈ credentials.accounts.users ∧ user.id = userId := by
  have own : ∀ {userId other}, credentials.userOf? userId = some other →
      other ∈ credentials.accounts.users ∧ other.id = userId := by
    intro userId other found
    rw [userOf?] at found
    have same := List.find?_some found
    exact ⟨List.mem_of_find?_eq_some found, of_decide_eq_true same⟩
  refine ⟨own, ?_⟩
  rintro ⟨among, rfl⟩
  cases found : credentials.userOf? user.id with
  | none =>
      have absent := List.find?_eq_none.mp found user among
      exact absurd (decide_eq_true rfl) absent
  | some other =>
      obtain ⟨there, same⟩ := own found
      rw [List.inj_on_of_nodup_map sound.userIds there among same]

end Credentials
end Sanshain.Infrastructure
