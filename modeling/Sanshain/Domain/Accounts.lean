import Sanshain.Domain.Ports

namespace Sanshain.Domain

/-- The password of an account that never signs in. -/
def serviceAccountPasswordHash : String := "!service-account"

structure User where
  id : Nat
  username : String
  passwordHash : String
  approved : Bool
  deriving DecidableEq, Repr

def User.isServiceAccount (user : User) : Bool := user.passwordHash == serviceAccountPasswordHash

/-- The usernames that hold every permission by configuration. -/
abbrev RootUsers := List String

namespace Role

def all : List Role := [.admin, .userManager, .viewer, .maintainer, .releaser]

/-- A maintainer is one of certain Producers, and never instance-wide. -/
def globallyGrantable : List Role := [.admin, .userManager, .viewer, .releaser]

/-- The roles that only an administrator moves. -/
def adminGuarded : List Role := [.admin, .releaser]

def asStr : Role → String
  | .admin => "admin"
  | .userManager => "user_manager"
  | .viewer => "viewer"
  | .maintainer => "maintainer"
  | .releaser => "releaser"

def parse (value : String) : Option Role := all.find? (·.asStr == value)

theorem asStr_injective : Function.Injective asStr := by
  intro first second same
  cases first <;> cases second <;> first | rfl | exact absurd same (by decide)

theorem asStr_of_parse {value : String} {role : Role} (parsed : parse value = some role) :
    role.asStr = value := by
  have found := List.find?_some parsed
  exact eq_of_beq found

@[simp] theorem parse_asStr (role : Role) : parse role.asStr = some role := by
  cases role <;> decide

end Role

inductive AuthMode where
  | disabled
  | dev
  | local
  | ldap
  | oidc
  deriving DecidableEq, Repr

def AuthMode.fromStr : String → Option AuthMode
  | "disabled" | "off" | "maintenance" => some .disabled
  | "dev" => some .dev
  | "local" => some .local
  | "ldap" => some .ldap
  | "oidc" => some .oidc
  | _ => none

inductive SignInMethod where
  | local
  | ldap
  | oidc
  deriving DecidableEq, Repr

/-- Who a directory says that a person is. -/
structure AuthenticatedUser where
  username : String
  displayName : Option String := none
  email : Option String := none
  directoryId : Option String := none
  deriving DecidableEq, Repr

structure Session where
  token : String
  userId : Nat
  expiresAt : Instant
  deriving DecidableEq, Repr

/-- The operations of the store on accounts, groups and roles. -/
inductive AccountCall where
  | findUser (username : String)
  | createUser (username passwordHash : String) (approved : Bool)
  | listUsers
  | deleteUser (userId : Nat)
  | renameUser (userId : Nat) (username : String)
  | mergeUserInto (source target : Nat)
  | setDirectoryId (userId : Nat) (directoryId : String)
  | findUserByDirectoryId (directoryId : String)
  | setDisplayName (userId : Nat) (displayName : Option String)
  | setAvatarHash (userId : Nat) (avatarHash : Option String)
  | recordUserSignIn (userId : Nat) (method : SignInMethod)
  | createSession (userId : Nat) (token : String) (expiresAt : Instant)
  | setSessionSignIn (token : String) (method : SignInMethod)
  | getSetting (key : String)
  | insertAuditLog (username : String) (log : NewAuditLog)
  | grantUserRole (userId : Nat) (role : String)
  | revokeUserRole (userId : Nat) (role : String)
  | effectiveStoredRoles (userId : Nat)
  | createGroup (name : String) (fromDirectory : Bool)
  | renameGroup (groupId : Nat) (name : String)
  | deleteGroup (groupId : Nat)
  | listGroups
  | setGroupRoles (groupId : Nat) (roles : List String)
  | listGroupRoles (groupId : Nat)
  | addGroupMember (groupId userId : Nat)
  | removeGroupMember (groupId userId : Nat)

/-- What each operation on accounts returns. -/
abbrev AccountCall.Result : AccountCall → Type
  | .findUser _ | .findUserByDirectoryId _ => Option User
  | .createUser _ _ _ => User
  | .listUsers => List User
  | .deleteUser _ | .revokeUserRole _ _ | .renameGroup _ _ | .deleteGroup _
  | .removeGroupMember _ _ => Bool
  | .createSession _ _ _ => Session
  | .getSetting _ => Option String
  | .effectiveStoredRoles _ | .listGroupRoles _ => List String
  | .createGroup _ _ => Group
  | .listGroups => List Group
  | .renameUser _ _ | .mergeUserInto _ _ | .setDirectoryId _ _ | .setDisplayName _ _
  | .setAvatarHash _ _ | .recordUserSignIn _ _ | .setSessionSignIn _ _ | .insertAuditLog _ _
  | .grantUserRole _ _ | .setGroupRoles _ _ | .addGroupMember _ _ => Unit

/-- The operations that only read. -/
def AccountCall.readsOnly : AccountCall → Bool
  | .findUser _ | .listUsers | .findUserByDirectoryId _ | .getSetting _ | .effectiveStoredRoles _
  | .listGroups | .listGroupRoles _ => true
  | _ => false

/-- A call of a use case on accounts: the clock, the random generator or the store. -/
inductive AccountRequest where
  | now
  | random
  | repo (request : AccountCall)

abbrev AccountRequest.Answer : AccountRequest → Type
  | .now => Instant
  | .random => String
  | .repo request => Except RepositoryError request.Result

end Sanshain.Domain
