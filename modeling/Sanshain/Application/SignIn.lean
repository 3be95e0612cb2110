import Sanshain.Application.Authz

namespace Sanshain.Application

open Sanshain.Domain Sanshain.Effects Sanshain.Text

/-- A password check that succeeded: of a local account, or by the directory, which says who the
person is beside the account of the name that was typed. -/
inductive Verified where
  | local (user : User)
  | directory (existing : Option User) (identity : AuthenticatedUser)

section Candidates

/-- One more account that may belong to a directory entry. -/
def consider (candidates : List User) : Option User → List User
  | none => candidates
  | some user =>
      if user.isServiceAccount || candidates.any (·.id = user.id) then candidates
      else candidates ++ [user]

/-- The account that the others are folded into: the one of the canonical name, else the first. -/
def chooseTarget (canonical : String) (candidates : List User) : Option User :=
  (candidates.find? (·.username = canonical)).or candidates.head?

/-- A root name is held by configuration, so its account is neither merged nor merged into. -/
def mergeable (rootUsers : RootUsers) (target other : User) : Bool :=
  !(rootUsers.contains other.username || rootUsers.contains target.username)

def mergeLog (canonical : String) (target other : User) : NewAuditLog :=
  { action := "MERGE_USER"
    details := s!"Merged '{other.username}' into '{target.username}': both are the directory entry of '{canonical}'"
    actionType := some "ADMIN" }

def renameLog (canonical : String) (target : User) : NewAuditLog :=
  { action := "RENAME_USER"
    details := s!"Renamed '{target.username}' to '{canonical}' as the directory names them"
    actionType := some "ADMIN" }

end Candidates

/-- The other accounts of a directory entry are folded into the target. -/
def foldInto (rootUsers : RootUsers) (canonical : String) (target : User) :
    List User → AccountUseCase Unit :=
  Program.forEach fun other =>
    if mergeable rootUsers target other then do
      accountRepo (.mergeUserInto other.id target.id)
      accountRepo (.insertAuditLog target.username (mergeLog canonical target other))
    else .done ()

/-- A rename in the directory renames the account, unless the name is another's or a root's. -/
def takeName (rootUsers : RootUsers) (canonical : String) (target : User) : AccountUseCase User := do
  let holder ← accountRepo (.findUser canonical)
  if target.username ≠ canonical && !(holder.any (·.id ≠ target.id)) &&
      !rootUsers.contains target.username && !rootUsers.contains canonical then do
    accountRepo (.renameUser target.id canonical)
    accountRepo (.insertAuditLog canonical (renameLog canonical target))
    .done { target with username := canonical }
  else .done target

/-- The account takes the immutable identifier of the entry, unless another account holds it. -/
def takeDirectoryId (target : User) : Option String → AccountUseCase Unit
  | none => .done ()
  | some directoryId => do
      let holder ← accountRepo (.findUserByDirectoryId directoryId)
      if holder.all (·.id = target.id) then accountRepo (.setDirectoryId target.id directoryId)
      else .done ()

/-- A first sign-in: the password is random and unusable. -/
def shadowAccount (identity : AuthenticatedUser) : AccountUseCase User := do
  let hash ← Program.ask .random
  let user ← accountRepo (.createUser identity.username hash true)
  match identity.directoryId with
  | none => .done user
  | some directoryId => do
      accountRepo (.setDirectoryId user.id directoryId)
      .done user

/-- The account bound to the entry's identifier, if the entry has one. -/
def accountOfId : Option String → AccountUseCase (Option User)
  | none => .done none
  | some directoryId => accountRepo (.findUserByDirectoryId directoryId)

/-- The account whose name is the entry's e-mail address, if the entry has one. -/
def accountOfEmail : Option String → AccountUseCase (Option User)
  | none => .done none
  | some email => accountRepo (.findUser (trim email))

/-- The candidates are folded into one, which takes the name and the identifier; where there is none,
the entry signs in for the first time. -/
def settleAccount (rootUsers : RootUsers) (identity : AuthenticatedUser) (candidates : List User) :
    AccountUseCase User :=
  let canonical := identity.username
  match chooseTarget canonical candidates with
  | none => shadowAccount identity
  | some target => do
      foldInto rootUsers canonical target (candidates.filter (·.id ≠ target.id))
      let named ← takeName rootUsers canonical target
      takeDirectoryId target identity.directoryId
      .done named

/-- The one account of a directory entry: every account found by the entry's identifier, by its
username, by the name that was typed or by its e-mail address is folded into one. -/
def directoryAccount (rootUsers : RootUsers) (typed : Option User) (identity : AuthenticatedUser) :
    AccountUseCase User := do
  let byId ← accountOfId identity.directoryId
  let byName ← accountRepo (.findUser identity.username)
  let byEmail ← accountOfEmail identity.email
  settleAccount rootUsers identity ([byId, byName, typed, byEmail].foldl consider [])

/-- What the directory says of a person replaces what it said before; the key of the avatar is made
from the e-mail address. -/
def refreshProviderIdentity (gravatarKey : String → String) (userId : Nat)
    (identity : AuthenticatedUser) : AccountUseCase Unit := do
  accountRepo (.setDisplayName userId ((identity.displayName.map trim).filter (· ≠ "")))
  accountRepo (.setAvatarHash userId
    (((identity.email.map trim).filter (· ≠ "")).map gravatarKey))

/-- How long a session lasts: seven days. -/
def sessionSecs : Nat := 7 * 24 * 60 * 60

/-- A session of the account, marked with how the person signed in. -/
def openSession (userId : Nat) (method : SignInMethod) : AccountUseCase Session := do
  let now ← Program.ask .now
  let token ← Program.ask .random
  let session ← accountRepo (.createSession userId token (now + sessionSecs))
  accountRepo (.setSessionSignIn session.token method)
  accountRepo (.recordUserSignIn session.userId method)
  .done session

/-- The session of a verified sign-in. -/
def startSession (gravatarKey : String → String) (rootUsers : RootUsers) :
    Verified → AccountUseCase Session
  | .local user => openSession user.id .local
  | .directory existing identity => do
      let user ← directoryAccount rootUsers existing identity
      refreshProviderIdentity gravatarKey user.id identity
      openSession user.id .ldap

/-- A sign-in that the directory accepts: the account of the typed name goes along. -/
def signInByDirectory (gravatarKey : String → String) (rootUsers : RootUsers) (typedName : String)
    (identity : AuthenticatedUser) : AccountUseCase Session := do
  let existing ← accountRepo (.findUser typedName)
  if existing.any User.isServiceAccount then .fail .unauthorized
  else startSession gravatarKey rootUsers (.directory existing identity)

/-- Registration is open in local mode alone, behind its own switch. -/
def registrationOpen : AccountUseCase Bool := do
  let stored ← accountRepo (.getSetting "auth_mode")
  let mode := (AuthMode.fromStr (stored.getD "disabled")).getD .disabled
  if mode = .local then do
    let enabled ← accountRepo (.getSetting "registration_enabled")
    .done (enabled == some "true")
  else .done false

def registerUser (rootUsers : RootUsers) (username : String) : AccountUseCase Bool := do
  let isOpen ← registrationOpen
  if !isOpen then .fail (.forbiddenWithReason "registration is closed on this instance")
  else if rootUsers.contains username then .fail (.conflict "This username is reserved")
  else do
    let existing ← accountRepo (.findUser username)
    if existing.isSome then .fail (.conflict "User already exists")
    else do
      let hash ← Program.ask .random
      let stored ← accountRepo (.getSetting "auto_approve_users")
      let autoApprove := stored.getD "false" == "true"
      let _ ← accountRepo (.createUser username hash autoApprove)
      .done autoApprove

end Sanshain.Application
