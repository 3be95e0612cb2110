import Sanshain.Guarantees.EarnedSessions
import Sanshain.Guarantees.OwnTokens

namespace Sanshain.Guarantees

open Sanshain.Domain Sanshain.Effects Sanshain.Application Sanshain.Text

section Accounts

def QuietAccount : AccountRequest → Prop
  | .repo request => QuietCall (.account request)
  | _ => True

theorem only_onAccounts {Value : Type} {useCase : AccountUseCase Value}
    (quiet : useCase.Only QuietAccount fun _ _ => True) :
    (onAccounts useCase).Only QuietRequest fun _ _ => True := by
  suffices along : ∀ history, useCase.Along (fun _ request => QuietAccount request) (fun _ _ => True)
      (fun _ _ => True) history → (onAccounts useCase).Only QuietRequest fun _ _ => True from
    along [] (quiet [])
  clear quiet
  intro history along
  induction useCase generalizing history with
  | done value => exact .done value
  | fail error => exact .fail fun _ => trivial
  | spin => exact .spin
  | call request rest ih =>
      obtain ⟨allowed, later⟩ := along
      cases request with
      | now | random => exact fun _ => ⟨trivial, fun answer => ih answer _ (later answer) _⟩
      | repo request => exact fun _ => ⟨allowed, fun answer => ih answer _ (later answer) _⟩

theorem only_accountRepo {request : AccountCall} (quiet : QuietCall (.account request)) :
    (accountRepo request).Only QuietAccount fun _ _ => True :=
  Program.Only.bind (.ask (by exact quiet)) fun _ => .ofExcept fun _ _ _ => trivial

theorem only_requireAdminForGuardedRoles (actor : Option Actor) (roles : List String) :
    (requireAdminForGuardedRoles actor roles).Only QuietAccount fun _ _ => True := by
  unfold requireAdminForGuardedRoles
  split
  · exact .done _
  · split
    · exact .done _
    · exact .fail fun _ => trivial

theorem only_rolesFromDirectory (groupNames : List String) :
    (rolesFromDirectory groupNames).Only QuietAccount fun _ _ => True := by
  unfold rolesFromDirectory
  split
  · exact .done _
  · refine (only_accountRepo (by exact trivial)).bind fun groups => ?_
    refine Program.Only.bind (Program.Only.foldEach (fun roles group => ?_) _ _) fun _ => .done _
    split
    · exact .done _
    · exact (only_accountRepo (by exact trivial)).bind fun _ => .done _

theorem only_resolveActor (rootUsers : RootUsers) (user : User) (groupNames : List String) :
    (resolveActor rootUsers user groupNames).Only QuietAccount fun _ _ => True :=
  (only_accountRepo (by exact trivial)).bind fun _ =>
    (only_rolesFromDirectory groupNames).bind fun _ => .done _

theorem only_requireGroup (groupId : Nat) :
    (requireGroup groupId).Only QuietAccount fun _ _ => True := by
  refine (only_accountRepo (by exact trivial)).bind fun groups => ?_
  cases groups.find? (·.id = groupId) with
  | none => exact .fail fun _ => trivial
  | some group => exact .done _

theorem only_requireNativeGroup (groupId : Nat) :
    (requireNativeGroup groupId).Only QuietAccount fun _ _ => True := by
  refine (only_requireGroup groupId).bind fun group => ?_
  split
  · exact .fail fun _ => trivial
  · exact .done _

theorem only_requireAdminForGuardedGroup (actor : Option Actor) (groupId : Nat) :
    (requireAdminForGuardedGroup actor groupId).Only QuietAccount fun _ _ => True :=
  (only_accountRepo (by exact trivial)).bind fun _ => only_requireAdminForGuardedRoles _ _

theorem only_checked {Value Result : Type} (outcome : Except AppError Value)
    {next : Value → AccountUseCase Result}
    (rest : ∀ value, (next value).Only QuietAccount fun _ _ => True) :
    ((Program.ofExcept outcome).bind next).Only QuietAccount fun _ _ => True :=
  Program.Only.bind (.ofExcept fun _ _ _ => trivial) rest

/-- No operation on roles, groups and accounts opens a session. -/
theorem only_roleOperation (rootUsers : RootUsers) (actor : Option Actor) (operation : RoleOperation) :
    (operation.program rootUsers actor).Only QuietAccount fun _ _ => True := by
  cases operation with
  | grantUserRole userId role =>
      exact only_checked _ fun _ => (only_requireAdminForGuardedRoles _ _).bind fun _ =>
        only_accountRepo (by exact trivial)
  | revokeUserRole userId role =>
      refine Program.Only.bind ?_ fun _ => .done _
      unfold revokeUserRole
      split
      · exact .fail fun _ => trivial
      · exact (only_requireAdminForGuardedRoles _ _).bind fun _ => only_accountRepo (by exact trivial)
  | createNativeGroup name =>
      refine Program.Only.bind ?_ fun _ => .done _
      exact only_checked _ fun _ => only_accountRepo (by exact trivial)
  | addDirectoryGroup dn =>
      refine Program.Only.bind ?_ fun _ => .done _
      unfold addDirectoryGroup
      dsimp only
      split
      · exact .fail fun _ => trivial
      · refine (only_accountRepo (by exact trivial)).bind fun groups => ?_
        split
        · exact .done _
        · exact only_accountRepo (by exact trivial)
  | renameGroup groupId name =>
      refine Program.Only.bind ((only_requireGroup groupId).bind fun group => ?_) fun _ => .done _
      split
      · exact .fail fun _ => trivial
      · exact only_checked _ fun _ => only_accountRepo (by exact trivial)
  | deleteGroup groupId =>
      exact Program.Only.bind ((only_requireAdminForGuardedGroup _ _).bind fun _ =>
        only_accountRepo (by exact trivial)) fun _ => .done _
  | setGroupRoles groupId roles =>
      exact (only_requireGroup groupId).bind fun _ => only_checked _ fun _ =>
        (only_accountRepo (by exact trivial)).bind fun _ =>
          (only_requireAdminForGuardedRoles _ _).bind fun _ => only_accountRepo (by exact trivial)
  | addGroupMember groupId userId =>
      exact (only_requireNativeGroup groupId).bind fun _ =>
        (only_requireAdminForGuardedGroup _ _).bind fun _ => only_accountRepo (by exact trivial)
  | removeGroupMember groupId userId =>
      exact Program.Only.bind ((only_requireNativeGroup groupId).bind fun _ =>
        (only_requireAdminForGuardedGroup _ _).bind fun _ => only_accountRepo (by exact trivial))
          fun _ => .done _
  | adminDeleteUser userId =>
      refine Program.Only.bind (Program.Only.bind ?_ fun _ => only_accountRepo (by exact trivial))
        fun _ => .done _
      refine (only_accountRepo (by exact trivial)).bind fun users => ?_
      split
      · exact only_requireAdminForGuardedRoles _ _
      · exact (only_accountRepo (by exact trivial)).bind fun _ => only_requireAdminForGuardedRoles _ _

theorem only_callAs (rootUsers : RootUsers) (operation : RoleOperation) (caller : Caller) :
    (callAs rootUsers operation caller).Only QuietAccount fun _ _ => True := by
  cases caller with
  | nobody => exact only_roleOperation rootUsers none operation
  | account user groupNames =>
      exact (only_resolveActor rootUsers user groupNames).bind fun actor =>
        only_roleOperation rootUsers (some actor) operation

theorem only_registrationOpen : registrationOpen.Only QuietAccount fun _ _ => True := by
  refine (only_accountRepo (by exact trivial)).bind fun stored => ?_
  dsimp only
  split
  · exact (only_accountRepo (by exact trivial)).bind fun _ => .done _
  · exact .done _

theorem only_registerUser (rootUsers : RootUsers) (username : String) :
    (registerUser rootUsers username).Only QuietAccount fun _ _ => True := by
  refine only_registrationOpen.bind fun isOpen => ?_
  split
  · exact .fail fun _ => trivial
  · split
    · exact .fail fun _ => trivial
    · refine (only_accountRepo (by exact trivial)).bind fun existing => ?_
      split
      · exact .fail fun _ => trivial
      · exact Program.Only.bind (.ask (by exact trivial)) fun _ =>
          (only_accountRepo (by exact trivial)).bind fun _ =>
            (only_accountRepo (by exact trivial)).bind fun _ => .done _

end Accounts

section Credentials

theorem only_createServiceAccount (rootUsers : RootUsers) (username : String) :
    (createServiceAccount rootUsers username).Only QuietRequest fun _ _ => True := by
  unfold createServiceAccount
  dsimp only
  split
  · exact .fail fun _ => trivial
  · split
    · exact .fail fun _ => trivial
    · refine (only_credentialRepo (by exact trivial)).bind fun existing => ?_
      split
      · exact .fail fun _ => trivial
      · exact only_credentialRepo (by exact trivial)

theorem only_createApiTokenIssued (forms : TokenForms) (userId : Nat) (name : String)
    (expiresInDays : Nat) (scope : ApiTokenScope) (issuedBy : Option String) :
    (createApiTokenIssued forms userId name expiresInDays scope issuedBy).Only QuietRequest
      fun _ _ => True :=
  Program.Only.bind (.ask (by exact trivial)) fun _ => Program.Only.bind (.ask (by exact trivial)) fun _ =>
    Program.Only.bind (.ask (by exact trivial)) fun _ => Program.Only.bind (.ask (by exact trivial))
      fun _ => (only_credentialRepo (by exact trivial)).bind fun _ => .done _

theorem only_serviceAccounts : serviceAccounts.Only QuietRequest fun _ _ => True :=
  (only_credentialRepo (by exact trivial)).bind fun _ => .done _

theorem only_revokeOfAccounts (tokenId : String) (accounts : List User) :
    (revokeOfAccounts tokenId accounts).Only QuietRequest fun _ _ => True := by
  induction accounts with
  | nil => exact .done _
  | cons account rest ih =>
      refine (only_credentialRepo (by exact trivial)).bind fun deleted => ?_
      split
      · exact .done _
      · exact ih

/-- No use of API tokens opens a session. -/
theorem only_tokenUse (forms : TokenForms) (actor : Actor) (use : TokenUse) :
    (use.program forms actor).Only QuietRequest fun _ _ => True := by
  cases use with
  | issue request =>
      refine Program.Only.bind ?_ fun _ => .done _
      unfold issueToken
      split
      · exact only_createApiTokenIssued _ _ _ _ _ _
      · split
        · exact .fail fun _ => trivial
        · refine (only_credentialRepo (by exact trivial)).bind fun found => ?_
          split
          · exact .fail fun _ => trivial
          · exact only_createApiTokenIssued _ _ _ _ _ _
  | list =>
      refine Program.Only.bind ((only_credentialRepo (by exact trivial)).bind fun own => ?_) fun _ => .done _
      dsimp only
      split
      · refine only_serviceAccounts.bind fun accounts => Program.Only.foldEach (fun listed account => ?_) _ _
        exact (only_credentialRepo (by exact trivial)).bind fun _ => .done _
      · exact .done _
  | revoke tokenId =>
      refine Program.Only.bind ((only_credentialRepo (by exact trivial)).bind fun deleted => ?_)
        fun _ => .done _
      split
      · exact .done _
      · split
        · exact only_serviceAccounts.bind fun accounts => only_revokeOfAccounts _ _
        · exact .done _

end Credentials

section Guards

variable {gatehouse : Gatehouse} {history : SignInHistory}

theorem only_sessionOf (token : String) : (sessionOf token).Only QuietRequest fun _ _ => True :=
  Program.Only.bind (.ask (by exact trivial)) fun _ => .done _

theorem only_identityOf (token : String) :
    (identityOf gatehouse token).Only QuietRequest fun _ _ => True := by
  have validated : (validateApiToken gatehouse.digest token).Only QuietRequest fun _ _ => True := by
    refine (only_credentialRepo (by exact trivial)).bind fun found => ?_
    cases found with
    | none => exact .done _
    | some identity =>
        refine Program.Only.bind (.ask (by exact trivial)) fun now => ?_
        split
        · exact Program.Only.bind (.ask (by exact trivial)) fun _ => .done _
        · exact .done _
  exact Program.Only.bind validated.attempt fun _ => .done _

theorem only_attachCaller (user : User) :
    (attachCaller gatehouse user).Only QuietRequest fun _ _ => True := by
  refine Program.Only.bind (Program.Only.attempt (only_onAccounts (only_resolveActor _ _ _)))
    fun outcome => ?_
  cases outcome with
  | ok actor => exact .done _
  | error error => exact .fail fun _ => trivial

theorem only_getDevMode : (getDevMode gatehouse).Only QuietRequest fun _ _ => True :=
  only_getAuthMode.bind fun _ => .done _

/-- The account of dev mode is locked when it is found to have a password. -/
theorem minds_lockDevUser : Minds gatehouse (onCredentials lockDevUser) (fun _ _ => True) history := by
  rw [lockDevUser, Program.bind_eq, onCredentials_bind]
  refine (minds_credentialRepo (by exact trivial)).seq fun events found _ told => ?_
  cases found with
  | none => exact minds_done trivial
  | some user =>
      dsimp only
      split
      · rename_i human
        rw [Program.bind_eq, onCredentials_bind]
        refine (minds_credentialRepo ?_).seq fun _ _ _ _ => minds_done trivial
        exact fun _ => .inl ⟨user, ⟨told, by simpa using human⟩, rfl⟩
      · exact minds_done trivial

theorem minds_ensureDevUser : Minds gatehouse (onCredentials ensureDevUser) (fun _ _ => True) history := by
  rw [ensureDevUser, Program.bind_eq, onCredentials_bind]
  refine minds_lockDevUser.seq fun _ _ _ _ => minds_quiet ?_
  refine (only_credentialRepo (by exact trivial)).bind fun found => ?_
  cases found with
  | some user => exact .done _
  | none => exact (only_credentialRepo (by exact trivial)).bind fun _ =>
      (only_credentialRepo (by exact trivial)).bind fun _ => .done _

theorem minds_resolveDevUser :
    Minds gatehouse (onCredentials (resolveDevUser gatehouse)) (fun _ _ => True) history := by
  unfold resolveDevUser
  cases gatehouse.devUser with
  | some user => exact minds_done trivial
  | none =>
      rw [Program.bind_eq, onCredentials_bind, onCredentials_attempt]
      exact (minds_attempt minds_ensureDevUser).seq fun _ _ _ _ => minds_done trivial

/-- The guard of the API opens no session. -/
theorem minds_authenticateApi (access : ApiAccess) (authHeader : Option String) :
    Minds gatehouse (onCredentials (authenticateApi gatehouse access authHeader)) (fun _ _ => True)
      history := by
  unfold authenticateApi
  rw [Program.bind_eq, onCredentials_bind]
  refine (minds_quiet only_getAuthMode.attempt).seq fun _ mode _ _ => ?_
  split
  · exact minds_fail
  · cases authHeader with
    | some header =>
        refine minds_quiet ((only_sessionOf _).bind fun opened => ?_)
        cases opened with
        | some pair => exact only_attachCaller _
        | none =>
            refine (only_identityOf _).bind fun found => ?_
            cases found with
            | none => exact .fail fun _ => trivial
            | some identity =>
                dsimp only
                split
                · exact .fail fun _ => trivial
                · exact only_attachCaller _
    | none =>
        dsimp only
        rw [Program.bind_eq, onCredentials_bind]
        refine (minds_quiet only_getDevMode.attempt).seq fun _ devMode _ _ => ?_
        split
        · rw [Program.bind_eq, onCredentials_bind]
          refine minds_resolveDevUser.seq fun _ found _ _ => ?_
          cases found with
          | some user => exact minds_quiet (only_attachCaller _)
          | none => exact minds_fail
        · exact minds_fail

/-- The guard of the MCP endpoint opens no session. -/
theorem minds_mcpAuth (authHeader : Option String) :
    Minds gatehouse (onCredentials (mcpAuth gatehouse authHeader)) (fun _ _ => True) history := by
  unfold mcpAuth
  rw [Program.bind_eq, onCredentials_bind]
  refine (minds_quiet only_getAuthMode.attempt).seq fun _ mode _ _ => ?_
  split
  · exact minds_fail
  · cases authHeader with
    | some value =>
        dsimp only
        cases stripPrefix "Bearer " value with
        | none => exact minds_fail
        | some token =>
            refine minds_quiet ((only_identityOf _).bind fun found => ?_)
            cases found with
            | none => exact .fail fun _ => trivial
            | some identity => exact .done _
    | none =>
        dsimp only
        rw [Program.bind_eq, onCredentials_bind]
        refine (minds_quiet only_getDevMode.attempt).seq fun _ devMode _ _ => ?_
        split
        · rw [Program.bind_eq, onCredentials_bind]
          refine minds_resolveDevUser.seq fun _ found _ _ => ?_
          cases found with
          | some user => exact minds_done trivial
          | none => exact minds_fail
        · exact minds_fail

end Guards

section Visits

/-- What the doors of one deployment go by at the time of a visit. -/
structure Entrance where
  gatehouse : Gatehouse
  forms : ProviderForms
  gravatarKey : String → String
  tokenForms : TokenForms

/-- What somebody comes for; the last kind is any other operation of the store, none of which opens a
session, folds accounts or locks one. -/
inductive Visit where
  | login (username password : String)
  | callback (cookies : Option String) (query : OidcCallbackQuery)
  | changePassword (authHeader : Option String) (oldPassword newPassword : String)
  | register (username : String)
  | createServiceAccount (username : String)
  | api (access : ApiAccess) (authHeader : Option String)
  | mcp (authHeader : Option String)
  | administer (operation : RoleOperation) (caller : Caller)
  | tokens (actor : Actor) (use : TokenUse)
  | store (request : CredentialCall) (quiet : QuietCall request)

abbrev VisitProgram := Program SignInRequest SignInRequest.Answer Application.Refusal Unit

/-- What is done for a visitor, whatever they are told. -/
def Visit.program (entrance : Entrance) : Visit → VisitProgram
  | .login username password =>
      (orRefuse (authLogin entrance.gatehouse entrance.forms entrance.gravatarKey username password)).bind
        fun _ => .done ()
  | .callback cookies query =>
      (orRefuse (oidcCallback entrance.gatehouse entrance.forms entrance.gravatarKey cookies query)).bind
        fun _ => .done ()
  | .changePassword authHeader oldPassword newPassword =>
      (authChangePassword entrance.gatehouse authHeader oldPassword newPassword).bind fun _ => .done ()
  | .register username =>
      (orRefuse (atDoor (registerUser entrance.gatehouse.rootUsers username))).bind fun _ => .done ()
  | .createServiceAccount username =>
      (orRefuse (onCredentials
        (Application.createServiceAccount entrance.gatehouse.rootUsers username))).bind
        fun _ => .done ()
  | .api access authHeader =>
      (onCredentials (authenticateApi entrance.gatehouse access authHeader)).bind fun _ => .done ()
  | .mcp authHeader => (onCredentials (mcpAuth entrance.gatehouse authHeader)).bind fun _ => .done ()
  | .administer operation caller =>
      (orRefuse (atDoor (callAs entrance.gatehouse.rootUsers operation caller))).bind fun _ => .done ()
  | .tokens actor use =>
      (orRefuse (onCredentials (use.program entrance.tokenForms actor))).bind fun _ => .done ()
  | .store request _ => (orRefuse (onCredentials (credentialRepo request))).bind fun _ => .done ()

/-- Whatever a visitor comes for, sessions are opened for whoever has earned them alone. -/
theorem minds_visit (entrance : Entrance) (visit : Visit) (history : SignInHistory) :
    Minds entrance.gatehouse (visit.program entrance) (fun _ _ => True) history := by
  have ends {Value : Type} {program : Program SignInRequest SignInRequest.Answer Application.Refusal Value}
      (minds : Minds entrance.gatehouse program (fun _ _ => True) history) :
      Minds entrance.gatehouse (program.bind fun _ => Program.done ()) (fun _ _ => True) history :=
    minds.seq fun _ _ _ _ => minds_done trivial
  cases visit with
  | login username password => exact ends (minds_orRefuse (minds_authLogin _ _ _ _))
  | callback cookies query => exact ends (minds_orRefuse (minds_oidcCallback _ _ _ _))
  | changePassword authHeader oldPassword newPassword => exact ends (minds_authChangePassword _ _ _)
  | register username =>
      exact ends (minds_orRefuse (minds_quiet (only_onAccounts (only_registerUser _ _))))
  | createServiceAccount username =>
      rw [Visit.program]
      generalize made : Application.createServiceAccount entrance.gatehouse.rootUsers username = program
      have quiet := only_createServiceAccount entrance.gatehouse.rootUsers username
      rw [made] at quiet
      exact ends (minds_orRefuse (minds_quiet quiet))
  | api access authHeader => exact ends (minds_authenticateApi _ _)
  | mcp authHeader => exact ends (minds_mcpAuth _)
  | administer operation caller =>
      exact ends (minds_orRefuse (minds_quiet (only_onAccounts (only_callAs _ _ _))))
  | tokens actor use => exact ends (minds_orRefuse (minds_quiet (only_tokenUse _ _ _)))
  | store request quiet => exact ends (minds_orRefuse (minds_quiet (only_credentialRepo quiet)))

end Visits

end Sanshain.Guarantees
