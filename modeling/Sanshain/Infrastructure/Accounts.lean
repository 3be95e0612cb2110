import Sanshain.Domain.Accounts
import Sanshain.Effects.Program
import Sanshain.Infrastructure.World

namespace Sanshain.Infrastructure

open Sanshain.Domain

structure SessionRow where
  token : String
  userId : Nat
  expiresAt : Instant
  signIn : Option SignInMethod := none
  deriving DecidableEq, Repr

structure ApiTokenRow where
  id : String
  userId : Nat
  name : String
  deriving DecidableEq, Repr

structure ProfileRow where
  userId : Nat
  lastSignIn : Option SignInMethod := none
  displayName : Option String := none
  avatarHash : Option String := none
  directoryId : Option String := none
  deriving DecidableEq, Repr

/-- The tables of accounts: `roles` pairs an account with a role, `members` a group with an account,
`groupRoles` a group with a role, and `maintainers` a Producer with an account. -/
structure Accounts where
  users : List User := []
  nextUserId : Nat := 1
  profiles : List ProfileRow := []
  sessions : List SessionRow := []
  apiTokens : List ApiTokenRow := []
  favorites : List (Nat × String × String) := []
  roles : List (Nat × String) := []
  groups : List Group := []
  nextGroupId : Nat := 1
  members : List (Nat × Nat) := []
  groupRoles : List (Nat × String) := []
  maintainers : List (Nat × Nat) := []
  groupMaintainers : List (Nat × Nat) := []
  settings : List (String × String) := []
  auditLogs : List (String × NewAuditLog) := []

namespace Accounts

local instance lawfulRoleRow : LawfulBEq (Nat × String) := inferInstance

local instance lawfulMemberRow : LawfulBEq (Nat × Nat) := inferInstance

def userNamed? (accounts : Accounts) (username : String) : Option User :=
  accounts.users.find? (·.username = username)

def hasUser (accounts : Accounts) (userId : Nat) : Prop := userId ∈ accounts.users.map (·.id)

def hasGroup (accounts : Accounts) (groupId : Nat) : Prop := groupId ∈ accounts.groups.map (·.id)

instance (accounts : Accounts) (userId : Nat) : Decidable (accounts.hasUser userId) :=
  inferInstanceAs (Decidable (_ ∈ _))

instance (accounts : Accounts) (groupId : Nat) : Decidable (accounts.hasGroup groupId) :=
  inferInstanceAs (Decidable (_ ∈ _))

/-- The directory's identifier that an account is bound to. -/
def boundTo (accounts : Accounts) (userId : Nat) : Option String :=
  (accounts.profiles.find? (·.userId = userId)).bind (·.directoryId)

def userByDirectoryId? (accounts : Accounts) (directoryId : String) : Option User :=
  (accounts.profiles.find? (·.directoryId = some directoryId)).bind fun profile =>
    accounts.users.find? (·.id = profile.userId)

def sortedTexts (texts : List String) : List String := texts.insertionSort (· ≤ ·)

def groupRolesOf (accounts : Accounts) (groupId : Nat) : List String :=
  sortedTexts ((accounts.groupRoles.filter (·.1 = groupId)).map Prod.snd)

/-- The roles an account holds itself, and those of the groups whose membership is stored. -/
def effectiveStoredRoles (accounts : Accounts) (userId : Nat) : List String :=
  sortedTexts (((accounts.roles.filter (·.1 = userId)).map Prod.snd ++
    (accounts.groupRoles.filter fun row => (row.1, userId) ∈ accounts.members).map Prod.snd).dedup)

/-- Directory groups come first, each kind by name. -/
def groupOrder (first second : Group) : Prop :=
  (first.fromDirectory = true ∧ second.fromDirectory = false) ∨
    (first.fromDirectory = second.fromDirectory ∧ first.name ≤ second.name)

instance : DecidableRel groupOrder := fun _ _ => inferInstanceAs (Decidable (_ ∨ _))

/-- A row that is not there yet is added. -/
def addRow {Row : Type} [DecidableEq Row] (rows : List Row) (row : Row) : List Row :=
  if row ∈ rows then rows else rows ++ [row]

/-- The profile of an account is changed, and made where there is none. -/
def upsertProfile (accounts : Accounts) (userId : Nat) (change : ProfileRow → ProfileRow) :
    List ProfileRow :=
  if userId ∈ accounts.profiles.map (·.userId) then
    accounts.profiles.map fun profile => if profile.userId = userId then change profile else profile
  else accounts.profiles ++ [change ⟨userId, none, none, none, none⟩]

/-- The account goes, and with it every row that refers to it. -/
def deleteUser (accounts : Accounts) (userId : Nat) : Accounts :=
  { accounts with
    users := accounts.users.filter (·.id ≠ userId)
    profiles := accounts.profiles.filter (·.userId ≠ userId)
    sessions := accounts.sessions.filter (·.userId ≠ userId)
    apiTokens := accounts.apiTokens.filter (·.userId ≠ userId)
    favorites := accounts.favorites.filter (·.1 ≠ userId)
    roles := accounts.roles.filter (·.1 ≠ userId)
    members := accounts.members.filter (·.2 ≠ userId)
    maintainers := accounts.maintainers.filter (·.2 ≠ userId) }

/-- The rows of one account move to another, but for those that the other has already. -/
def moveRows {Row Key : Type} [DecidableEq Key] (rows : List Row) (owner : Row → Nat)
    (key : Row → Key) (assign : Row → Row) (source target : Nat) : List Row :=
  let held := (rows.filter (owner · = target)).map key
  rows.map fun row => if owner row = source ∧ key row ∉ held then assign row else row

/-- The rows of the source account, as far as the target lacks them. -/
def moved (accounts : Accounts) (source target : Nat) : Accounts :=
  { accounts with
    roles := moveRows accounts.roles Prod.fst Prod.snd (fun row => (target, row.2)) source target
    members := moveRows accounts.members Prod.snd Prod.fst (fun row => (row.1, target)) source target
    maintainers :=
      moveRows accounts.maintainers Prod.snd Prod.fst (fun row => (row.1, target)) source target
    favorites :=
      moveRows accounts.favorites Prod.fst Prod.snd (fun row => (target, row.2)) source target
    apiTokens := accounts.apiTokens.map fun row =>
      if row.userId = source then { row with userId := target } else row
    sessions := accounts.sessions.map fun row =>
      if row.userId = source then { row with userId := target } else row }

/-- The two accounts have each an API token of one name. -/
def shareTokenName (accounts : Accounts) (source target : Nat) : Bool :=
  accounts.apiTokens.any fun first => accounts.apiTokens.any fun second =>
    first.userId = source && second.userId = target && first.name == second.name

def mergeUserInto (accounts : Accounts) (source target : Nat) :
    Except RepositoryError Accounts :=
  if ¬ accounts.hasUser target then .error (constraintFailed "FOREIGN KEY")
  else if source ≠ target ∧ accounts.shareTokenName source target then
    .error (constraintFailed "UNIQUE")
  else .ok ((accounts.moved source target).deleteUser source)

theorem mergeUserInto_ok {accounts after : Accounts} {source target : Nat}
    (merged : accounts.mergeUserInto source target = .ok after) :
    after = (accounts.moved source target).deleteUser source := by
  unfold mergeUserInto at merged
  split at merged
  · cases merged
  · split at merged
    · cases merged
    · cases merged
      rfl

/-- One operation on the account tables: the tables afterwards, and the answer. -/
def perform (accounts : Accounts) :
    (request : AccountCall) → Accounts × Except RepositoryError request.Result
  | .findUser username => (accounts, .ok (accounts.userNamed? username))
  | .createUser username passwordHash approved =>
      if username ∈ accounts.users.map (·.username) then (accounts, .error (constraintFailed "UNIQUE"))
      else
        let user : User := ⟨accounts.nextUserId, username, passwordHash, approved⟩
        ({ accounts with
            users := accounts.users ++ [user]
            nextUserId := accounts.nextUserId + 1 }, .ok user)
  | .listUsers => (accounts, .ok (accounts.users.insertionSort fun first second =>
      first.username ≤ second.username))
  | .deleteUser userId => (accounts.deleteUser userId, .ok (decide (accounts.hasUser userId)))
  | .renameUser userId username =>
      if accounts.hasUser userId ∧
          accounts.users.any (fun user => user.username = username && user.id ≠ userId) then
        (accounts, .error (constraintFailed "UNIQUE"))
      else
        ({ accounts with users := accounts.users.map fun user =>
            if user.id = userId then { user with username := username } else user }, .ok ())
  | .mergeUserInto source target =>
      match accounts.mergeUserInto source target with
      | .ok after => (after, .ok ())
      | .error error => (accounts, .error error)
  | .setDirectoryId userId directoryId =>
      if ¬ accounts.hasUser userId then (accounts, .error (constraintFailed "FOREIGN KEY"))
      else if accounts.profiles.any fun profile =>
          profile.directoryId = some directoryId && profile.userId ≠ userId then
        (accounts, .error (constraintFailed "UNIQUE"))
      else
        ({ accounts with profiles := accounts.upsertProfile userId fun profile =>
            { profile with directoryId := some directoryId } }, .ok ())
  | .findUserByDirectoryId directoryId => (accounts, .ok (accounts.userByDirectoryId? directoryId))
  | .setDisplayName userId displayName =>
      if ¬ accounts.hasUser userId then (accounts, .error (constraintFailed "FOREIGN KEY"))
      else
        ({ accounts with profiles := accounts.upsertProfile userId fun profile =>
            { profile with displayName := displayName } }, .ok ())
  | .setAvatarHash userId avatarHash =>
      if ¬ accounts.hasUser userId then (accounts, .error (constraintFailed "FOREIGN KEY"))
      else
        ({ accounts with profiles := accounts.upsertProfile userId fun profile =>
            { profile with avatarHash := avatarHash } }, .ok ())
  | .recordUserSignIn userId method =>
      if ¬ accounts.hasUser userId then (accounts, .error (constraintFailed "FOREIGN KEY"))
      else
        ({ accounts with profiles := accounts.upsertProfile userId fun profile =>
            { profile with lastSignIn := some method } }, .ok ())
  | .createSession userId token expiresAt =>
      if token ∈ accounts.sessions.map (·.token) then (accounts, .error (constraintFailed "UNIQUE"))
      else if ¬ accounts.hasUser userId then (accounts, .error (constraintFailed "FOREIGN KEY"))
      else
        ({ accounts with sessions := accounts.sessions ++ [⟨token, userId, expiresAt, none⟩] },
          .ok ⟨token, userId, expiresAt⟩)
  | .setSessionSignIn token method =>
      ({ accounts with sessions := accounts.sessions.map fun row =>
          if row.token = token then { row with signIn := some method } else row }, .ok ())
  | .getSetting key => (accounts, .ok ((accounts.settings.find? (·.1 = key)).map Prod.snd))
  | .insertAuditLog username log =>
      ({ accounts with auditLogs := accounts.auditLogs ++ [(username, log)] }, .ok ())
  | .grantUserRole userId role =>
      if ¬ accounts.hasUser userId then (accounts, .error (constraintFailed "FOREIGN KEY"))
      else ({ accounts with roles := addRow accounts.roles (userId, role) }, .ok ())
  | .revokeUserRole userId role =>
      ({ accounts with roles := accounts.roles.filter (· ≠ (userId, role)) },
        .ok (decide ((userId, role) ∈ accounts.roles)))
  | .effectiveStoredRoles userId => (accounts, .ok (accounts.effectiveStoredRoles userId))
  | .createGroup name fromDirectory =>
      match accounts.groups.find? (fun group =>
          group.name = name ∧ group.fromDirectory = fromDirectory) with
      | some group => (accounts, .ok group)
      | none =>
          let group : Group := ⟨accounts.nextGroupId, name, fromDirectory⟩
          ({ accounts with
              groups := accounts.groups ++ [group]
              nextGroupId := accounts.nextGroupId + 1 }, .ok group)
  | .renameGroup groupId name =>
      if accounts.groups.any fun group => accounts.groups.any fun other => group.id = groupId &&
          other.id ≠ groupId && other.name = name && other.fromDirectory = group.fromDirectory then
        (accounts, .error (constraintFailed "UNIQUE"))
      else
        ({ accounts with groups := accounts.groups.map fun group =>
            if group.id = groupId then { group with name := name } else group },
          .ok (decide (accounts.hasGroup groupId)))
  | .deleteGroup groupId =>
      ({ accounts with
          members := accounts.members.filter (·.1 ≠ groupId)
          groupRoles := accounts.groupRoles.filter (·.1 ≠ groupId)
          groupMaintainers := accounts.groupMaintainers.filter (·.2 ≠ groupId)
          groups := accounts.groups.filter (·.id ≠ groupId) },
        .ok (decide (accounts.hasGroup groupId)))
  | .listGroups => (accounts, .ok (accounts.groups.insertionSort groupOrder))
  | .setGroupRoles groupId roles =>
      if ¬ accounts.hasGroup groupId ∧ roles ≠ [] then
        (accounts, .error (constraintFailed "FOREIGN KEY"))
      else
        ({ accounts with groupRoles := accounts.groupRoles.filter (·.1 ≠ groupId) ++
            roles.dedup.map fun role => (groupId, role) }, .ok ())
  | .listGroupRoles groupId => (accounts, .ok (accounts.groupRolesOf groupId))
  | .addGroupMember groupId userId =>
      if ¬ accounts.hasGroup groupId ∨ ¬ accounts.hasUser userId then
        (accounts, .error (constraintFailed "FOREIGN KEY"))
      else ({ accounts with members := addRow accounts.members (groupId, userId) }, .ok ())
  | .removeGroupMember groupId userId =>
      ({ accounts with members := accounts.members.filter (· ≠ (groupId, userId)) },
        .ok (decide ((groupId, userId) ∈ accounts.members)))

@[simp] theorem mem_sortedTexts {texts : List String} {text : String} :
    text ∈ sortedTexts texts ↔ text ∈ texts := List.mem_insertionSort _

theorem mem_groupRolesOf {accounts : Accounts} {groupId : Nat} {role : String} :
    role ∈ accounts.groupRolesOf groupId ↔ (groupId, role) ∈ accounts.groupRoles := by
  simp [groupRolesOf]

theorem mem_effectiveStoredRoles {accounts : Accounts} {userId : Nat} {role : String} :
    role ∈ accounts.effectiveStoredRoles userId ↔ (userId, role) ∈ accounts.roles ∨
      ∃ groupId, (groupId, role) ∈ accounts.groupRoles ∧ (groupId, userId) ∈ accounts.members := by
  simp [effectiveStoredRoles]

@[simp] theorem mem_addRow {Row : Type} [DecidableEq Row] {rows : List Row} {row other : Row} :
    other ∈ addRow rows row ↔ other ∈ rows ∨ other = row := by
  unfold addRow
  split
  · rename_i held
    constructor
    · exact .inl
    · rintro (there | rfl)
      · exact there
      · exact held
  · simp

theorem perform_readsOnly (accounts : Accounts) (request : AccountCall)
    (reads : request.readsOnly = true) : (accounts.perform request).1 = accounts := by
  cases request <;> first | rfl | cases reads

end Accounts
end Sanshain.Infrastructure
