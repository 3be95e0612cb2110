import Sanshain.Domain.Accounts
import Sanshain.Effects.Ensures
import Sanshain.Text.Scan

namespace Sanshain.Application

open Sanshain.Domain Sanshain.Effects Sanshain.Text

/-- A use case on accounts, groups and roles. -/
abbrev AccountUseCase (Value : Type) := Program AccountRequest AccountRequest.Answer AppError Value

/-- A call on the account tables whose failure ends the use case. -/
def accountRepo (request : AccountCall) : AccountUseCase request.Result :=
  (Program.ask (AccountRequest.repo request)).bind fun answer =>
    .ofExcept (answer.mapError RepositoryError.toAppError)

/-- A comparison that does not tell the ASCII cases apart. -/
def eqIgnoreAsciiCase (first second : String) : Bool :=
  first.toList.map Char.toLower == second.toList.map Char.toLower

/-- The roles that the directory groups of these names confer. -/
def rolesFromDirectory (groupNames : List String) : AccountUseCase (List String) :=
  if groupNames.isEmpty then .done []
  else do
    let groups ← accountRepo .listGroups
    let roles ← Program.foldEach (fun roles group =>
      if !group.fromDirectory || !groupNames.contains group.name then .done roles
      else do
        let conferred ← accountRepo (.listGroupRoles group.id)
        .done (conferred.foldl (fun roles role => if role ∈ roles then roles else roles ++ [role])
          roles)) [] groups
    .done (roles.insertionSort (· ≤ ·))

/-- Who an authenticated account is: its stored roles, and those its directory groups confer. -/
def resolveActor (rootUsers : RootUsers) (user : User) (directoryGroups : List String) :
    AccountUseCase Actor := do
  let stored ← accountRepo (.effectiveStoredRoles user.id)
  let fromDirectory ← rolesFromDirectory directoryGroups
  let parsed := (stored ++ fromDirectory).filterMap Role.parse
  .done { userId := user.id, username := user.username, isRoot := rootUsers.contains user.username
          roles := Role.all.filter parsed.contains, directoryGroups := directoryGroups }

/-- An administrator, or root. -/
def isAdministrator (actor : Option Actor) : Bool :=
  actor.any fun actor => actor.isRoot || actor.roles.contains .admin

/-- Only an administrator hands out or takes away a guarded role. -/
def requireAdminForGuardedRoles (actor : Option Actor) (roles : List String) : AccountUseCase Unit :=
  if !Role.adminGuarded.any fun guarded => roles.contains guarded.asStr then .done ()
  else if isAdministrator actor then .done ()
  else .fail .forbidden

def unknownRole (role : String) : String :=
  let known := String.intercalate ", " (Role.all.map Role.asStr)
  s!"Unknown role '{role}'. Known roles: {known}."

def parseGrantableRole (role : String) : Except AppError Role :=
  match Role.parse role with
  | none => .error (.badRequest (unknownRole role))
  | some parsed =>
      if parsed ∈ Role.globallyGrantable then .ok parsed
      else .error (.badRequest
        s!"Role '{parsed.asStr}' is scoped to specific Producers and cannot be granted instance-wide.")

def grantUserRole (actor : Option Actor) (userId : Nat) (role : String) : AccountUseCase Unit := do
  let parsed ← Program.ofExcept (parseGrantableRole role)
  requireAdminForGuardedRoles actor [parsed.asStr]
  accountRepo (.grantUserRole userId parsed.asStr)

def revokeUserRole (actor : Option Actor) (userId : Nat) (role : String) : AccountUseCase Bool :=
  match Role.parse role with
  | none => .fail (.badRequest (unknownRole role))
  | some parsed => do
      requireAdminForGuardedRoles actor [parsed.asStr]
      accountRepo (.revokeUserRole userId parsed.asStr)

def validateGroupName (name : String) : Except AppError String :=
  let trimmed := trim name
  if trimmed = "" then .error (.badRequest "Group name must not be empty.") else .ok trimmed

def requireGroup (groupId : Nat) : AccountUseCase Group := do
  let groups ← accountRepo .listGroups
  match groups.find? (·.id = groupId) with
  | none => .fail (.notFound s!"Group {groupId} not found")
  | some group => .done group

def requireNativeGroup (groupId : Nat) : AccountUseCase Group := do
  let group ← requireGroup groupId
  if group.fromDirectory then
    .fail (.badRequest
      s!"Group '{group.name}' comes from the directory, so its membership is the directory's to change.")
  else .done group

/-- Membership of a group that holds a guarded role is a grant of that role. -/
def requireAdminForGuardedGroup (actor : Option Actor) (groupId : Nat) : AccountUseCase Unit := do
  let roles ← accountRepo (.listGroupRoles groupId)
  requireAdminForGuardedRoles actor
    (roles.filter fun role => Role.adminGuarded.any fun guarded => guarded.asStr == role)

def addDirectoryGroup (dn : String) : AccountUseCase Group :=
  let dn := trim dn
  if dn = "" then .fail (.badRequest "a directory group needs its DN")
  else do
    let groups ← accountRepo .listGroups
    match groups.find? fun group => group.fromDirectory && eqIgnoreAsciiCase group.name dn with
    | some group => .done group
    | none => accountRepo (.createGroup dn true)

/-- A group as the directory names it. -/
structure DirectoryGroup where
  dn : String
  name : String
  deriving DecidableEq, Repr

/-- A group the directory found, and the stored one it is. -/
structure DirectoryGroupHit where
  groupId : Option Nat
  dn : String
  name : String
  deriving DecidableEq, Repr

/-- The directory: how its configuration is read, and what it finds for a text, up to a limit. -/
structure GroupDirectory where
  Config : Type
  readConfig : String → Except String (Option Config)
  findGroups : Config → String → Nat → Except String (List DirectoryGroup)

def directoryGroupSearchLimit : Nat := 20

def getLdapConfig (directory : GroupDirectory) : AccountUseCase (Option directory.Config) := do
  match ← accountRepo (.getSetting "ldap_config") with
  | none => .done none
  | some text =>
      .ofExcept ((directory.readConfig text).mapError fun reason =>
        .internal s!"LDAP config parse error: {reason}")

/-- The groups of the directory that a text finds, with those already known. -/
def searchDirectoryGroups (directory : GroupDirectory) (text : String) :
    AccountUseCase (List DirectoryGroupHit) := do
  match ← getLdapConfig directory with
  | none => .fail (.badRequest "LDAP is not configured")
  | some config => do
      let hits ← Program.ofExcept
        ((directory.findGroups config text directoryGroupSearchLimit).mapError fun reason =>
          .badRequest s!"the directory search failed: {reason}")
      let known ← accountRepo .listGroups
      .done (hits.map fun hit =>
        ⟨(known.find? fun group => group.fromDirectory && eqIgnoreAsciiCase group.name hit.dn).map (·.id),
          hit.dn, hit.name⟩)

def createNativeGroup (name : String) : AccountUseCase Group := do
  let name ← Program.ofExcept (validateGroupName name)
  accountRepo (.createGroup name false)

def renameGroup (groupId : Nat) (name : String) : AccountUseCase Bool := do
  let group ← requireGroup groupId
  if group.fromDirectory then
    .fail (.badRequest
      "Only Sanshain's own groups can be renamed; a directory group's name is the directory's.")
  else do
    let name ← Program.ofExcept (validateGroupName name)
    accountRepo (.renameGroup groupId name)

def deleteGroup (actor : Option Actor) (groupId : Nat) : AccountUseCase Bool := do
  requireAdminForGuardedGroup actor groupId
  accountRepo (.deleteGroup groupId)

/-- The grants of a group are replaced; a guarded role put on it or taken off it needs an
administrator. -/
def setGroupRoles (actor : Option Actor) (groupId : Nat) (roles : List String) :
    AccountUseCase Unit := do
  let _ ← requireGroup groupId
  let parsed ← Program.ofExcept (roles.mapM parseGrantableRole)
  let parsed := ((parsed.map Role.asStr).insertionSort (· ≤ ·)).dedup
  let current ← accountRepo (.listGroupRoles groupId)
  let touchedGuarded := Role.adminGuarded.filter fun guarded =>
    parsed.contains guarded.asStr != current.contains guarded.asStr
  requireAdminForGuardedRoles actor (touchedGuarded.map Role.asStr)
  accountRepo (.setGroupRoles groupId parsed)

def addGroupMember (actor : Option Actor) (groupId userId : Nat) : AccountUseCase Unit := do
  let group ← requireNativeGroup groupId
  requireAdminForGuardedGroup actor group.id
  accountRepo (.addGroupMember group.id userId)

def removeGroupMember (actor : Option Actor) (groupId userId : Nat) : AccountUseCase Bool := do
  let group ← requireNativeGroup groupId
  requireAdminForGuardedGroup actor group.id
  accountRepo (.removeGroupMember group.id userId)

/-- Deleting an account strips the guarded roles it holds, and a root account is worth any role. -/
def requireAdminToDeleteUser (rootUsers : RootUsers) (actor : Option Actor) (userId : Nat) :
    AccountUseCase Unit := do
  let users ← accountRepo .listUsers
  if users.any fun user => user.id = userId && rootUsers.contains user.username then
    requireAdminForGuardedRoles actor [Role.admin.asStr]
  else do
    let stored ← accountRepo (.effectiveStoredRoles userId)
    requireAdminForGuardedRoles actor
      (stored.filter fun role => Role.adminGuarded.any fun guarded => guarded.asStr == role)

def adminDeleteUser (rootUsers : RootUsers) (actor : Option Actor) (userId : Nat) :
    AccountUseCase Bool := do
  requireAdminToDeleteUser rootUsers actor userId
  accountRepo (.deleteUser userId)

/-- An operation on roles, groups and accounts, as a caller asks for it. -/
inductive RoleOperation where
  | grantUserRole (userId : Nat) (role : String)
  | revokeUserRole (userId : Nat) (role : String)
  | createNativeGroup (name : String)
  | addDirectoryGroup (dn : String)
  | renameGroup (groupId : Nat) (name : String)
  | deleteGroup (groupId : Nat)
  | setGroupRoles (groupId : Nat) (roles : List String)
  | addGroupMember (groupId userId : Nat)
  | removeGroupMember (groupId userId : Nat)
  | adminDeleteUser (userId : Nat)

/-- What the operation does for the caller; the answer is left out. -/
def RoleOperation.program (rootUsers : RootUsers) (actor : Option Actor) :
    RoleOperation → AccountUseCase Unit
  | .grantUserRole userId role => Application.grantUserRole actor userId role
  | .revokeUserRole userId role =>
      (Application.revokeUserRole actor userId role).bind fun _ => .done ()
  | .createNativeGroup name => (Application.createNativeGroup name).bind fun _ => .done ()
  | .addDirectoryGroup dn => (Application.addDirectoryGroup dn).bind fun _ => .done ()
  | .renameGroup groupId name => (Application.renameGroup groupId name).bind fun _ => .done ()
  | .deleteGroup groupId => (Application.deleteGroup actor groupId).bind fun _ => .done ()
  | .setGroupRoles groupId roles => Application.setGroupRoles actor groupId roles
  | .addGroupMember groupId userId => Application.addGroupMember actor groupId userId
  | .removeGroupMember groupId userId =>
      (Application.removeGroupMember actor groupId userId).bind fun _ => .done ()
  | .adminDeleteUser userId =>
      (Application.adminDeleteUser rootUsers actor userId).bind fun _ => .done ()

/-- Who calls: nobody that is known, or an account with the directory groups it is in. -/
inductive Caller where
  | nobody
  | account (user : User) (directoryGroups : List String)

/-- The caller is resolved, and the operation done on their behalf. -/
def callAs (rootUsers : RootUsers) (operation : RoleOperation) : Caller → AccountUseCase Unit
  | .nobody => operation.program rootUsers none
  | .account user directoryGroups => do
      let actor ← resolveActor rootUsers user directoryGroups
      operation.program rootUsers (some actor)

end Sanshain.Application
