import Sanshain.Application.SingleSignOn
import Sanshain.Guarantees.SignIns

namespace Sanshain.Guarantees

open Sanshain.Domain Sanshain.Effects Sanshain.Application Sanshain.Text

/-- What a sign-in has asked so far, and been answered. -/
abbrev SignInHistory := History SignInRequest SignInRequest.Answer

section Evidence

variable (history : SignInHistory)

/-- The store has answered a call with a value. -/
def Answered (request : CredentialCall) (value : request.Result) : Prop :=
  (⟨.inl (.repo request), .ok value⟩ : Event SignInRequest SignInRequest.Answer) ∈ history

/-- Whoever knows identities has given an answer. -/
def Confirmed (request : IdentityCall) (answer : request.Answer) : Prop :=
  (⟨.inr request, answer⟩ : Event SignInRequest SignInRequest.Answer) ∈ history

/-- A person's account that was found under a name. -/
def FoundUnder (username : String) (user : User) : Prop :=
  Answered history (.account (.findUser username)) (some user) ∧ user.isServiceAccount = false

/-- A person's account that is bound to an identifier of the directory. -/
def FoundFor (directoryId : String) (user : User) : Prop :=
  Answered history (.account (.findUserByDirectoryId directoryId)) (some user) ∧
    user.isServiceAccount = false

/-- An account that was made under a name, with a random password. -/
def MadeUnder (username : String) (user : User) : Prop :=
  ∃ hash approved, (⟨.inl .random, hash⟩ : Event SignInRequest SignInRequest.Answer) ∈ history ∧
    Answered history (.account (.createUser username hash approved)) user

/-- An account of a directory entry, for somebody who typed a name. -/
inductive OfEntry (typed : String) (identity : AuthenticatedUser) : User → Prop
  | byId {directoryId : String} {user : User} (bound : identity.directoryId = some directoryId)
      (found : FoundFor history directoryId user) : OfEntry typed identity user
  | byName {user : User} (found : FoundUnder history identity.username user) : OfEntry typed identity user
  | byTyped {user : User} (found : FoundUnder history typed user) : OfEntry typed identity user
  | byEmail {email : String} {user : User} (given : identity.email = some email)
      (found : FoundUnder history (trim email) user) : OfEntry typed identity user
  | made {user : User} (made : MadeUnder history identity.username user) : OfEntry typed identity user

/-- The store says that an actor holds a role: it is stored, or a group of the directory confers it. -/
def Confers (actor : Actor) (role : Role) : Prop :=
  (∃ roles, Answered history (.account (.effectiveStoredRoles actor.userId)) roles ∧ role.asStr ∈ roles) ∨
    ∃ groups group roles, Answered history (.account .listGroups) groups ∧ group ∈ groups ∧
      group.fromDirectory = true ∧ group.name ∈ actor.directoryGroups ∧
        Answered history (.account (.listGroupRoles group.id)) roles ∧ role.asStr ∈ roles

/-- An actor as the configuration and the store make it. -/
structure ReadActor (rootUsers : RootUsers) (actor : Actor) : Prop where
  root : actor.isRoot = rootUsers.contains actor.username
  roles : ∀ role ∈ actor.roles, Confers history actor role

def modeOf (stored : Option String) : AuthMode := (AuthMode.fromStr (stored.getD "disabled")).getD .disabled

/-- The mode admits everybody, or one of these actors configures the sign-in. -/
def Admitted (rootUsers : RootUsers) (who : Actor → Prop) : Prop :=
  ∃ stored, Answered history (.account (.getSetting "auth_mode")) stored ∧
    (adminsOnly (modeOf stored) = true → ∃ actor, who actor ∧ ReadActor history rootUsers actor ∧
      actor.hasPermission .manageAuthConfig = true)

/-- The actor of the account found under a name, or of the name itself. -/
def ActorNamed (username : String) (actor : Actor) : Prop :=
  (actor.userId = 0 ∧ actor.username = username) ∨
    ∃ user, Answered history (.account (.findUser username)) (some user) ∧ actor.userId = user.id ∧
      actor.username = user.username

/-- What somebody has shown to be given a session of an account. -/
inductive Earned (gatehouse : Gatehouse) : Nat → Prop
  | password {username password : String} {user : User} (given : password ≠ "")
      (found : FoundUnder history username user) (approved : user.approved = true)
      (right : Confirmed history (.verifyPassword password user.passwordHash) (.ok true))
      (admitted : Admitted history gatehouse.rootUsers fun actor =>
        actor.userId = user.id ∧ actor.username = user.username) : Earned gatehouse user.id
  | directory {config : LdapConfig} {username password : String} {identity : AuthenticatedUser}
      {user : User} (given : password ≠ "")
      (accepted : Confirmed history (.authenticate config username password) (.ok identity))
      (account : OfEntry history username identity user)
      (admitted : Admitted history gatehouse.rootUsers (ActorNamed history username)) :
      Earned gatehouse user.id
  | provider {config : OidcConfig} {code verifier nonce : String} {claims : OidcClaims} {user : User}
      (confirmed : Confirmed history (.exchangeAndVerify config code verifier nonce) (.ok claims))
      (account : FoundUnder history claims.username user ∨ MadeUnder history claims.username user)
      (admitted : inAdminGroup config.adminGroup claims.groups = true ∨
        Admitted history gatehouse.rootUsers (ActorNamed history claims.username)) :
      Earned gatehouse user.id
  | changed {token oldPassword : String} {user : User} {session : Session}
      (signedIn : Answered history (.validateSession token) (some (user, session)))
      (right : Confirmed history (.verifyPassword oldPassword user.passwordHash) (.ok true))
      (admitted : Admitted history gatehouse.rootUsers fun actor =>
        actor.userId = user.id ∧ actor.username = user.username) : Earned gatehouse user.id

/-- An account that is a person's, or was when it was found or made. -/
inductive Person : Nat → Prop
  | under {username : String} {user : User} (found : FoundUnder history username user) : Person user.id
  | bound {directoryId : String} {user : User} (found : FoundFor history directoryId user) : Person user.id
  | made {username : String} {user : User} (made : MadeUnder history username user) : Person user.id
  | signedIn {token : String} {user : User} {session : Session}
      (answered : Answered history (.validateSession token) (some (user, session)))
      (human : user.isServiceAccount = false) : Person user.id

/-- The account of dev mode, found to have a password. -/
def FoundDevUser (userId : Nat) : Prop := ∃ user, FoundUnder history devUserName user ∧ user.id = userId

/-- A session is opened for whoever has earned it, accounts are folded into a person's, and only the
account of dev mode is locked. -/
def CarefulCall (gatehouse : Gatehouse) : CredentialCall → Prop
  | .account (.createSession userId _ _) => Earned history gatehouse userId
  | .account (.mergeUserInto _ target) => Person history target
  | .updatePassword userId newHash => newHash = serviceAccountPasswordHash →
      FoundDevUser history userId ∨ ∃ password, Confirmed history (.hashPassword password) (.ok newHash)
  | _ => True

def Careful (gatehouse : Gatehouse) : SignInRequest → Prop
  | .inl (.repo request) => CarefulCall history gatehouse request
  | _ => True

end Evidence

section Growth

variable {history later : SignInHistory} {gatehouse : Gatehouse}

theorem Answered.mono {request : CredentialCall} {value : request.Result}
    (answered : Answered history request value) (grown : history <:+ later) :
    Answered later request value := grown.subset answered

theorem Confirmed.mono {request : IdentityCall} {answer : request.Answer}
    (confirmed : Confirmed history request answer) (grown : history <:+ later) :
    Confirmed later request answer := grown.subset confirmed

theorem FoundUnder.mono {username : String} {user : User} (found : FoundUnder history username user)
    (grown : history <:+ later) : FoundUnder later username user := ⟨found.1.mono grown, found.2⟩

theorem FoundFor.mono {directoryId : String} {user : User} (found : FoundFor history directoryId user)
    (grown : history <:+ later) : FoundFor later directoryId user := ⟨found.1.mono grown, found.2⟩

theorem MadeUnder.mono {username : String} {user : User} (made : MadeUnder history username user)
    (grown : history <:+ later) : MadeUnder later username user := by
  obtain ⟨hash, approved, random, created⟩ := made
  exact ⟨hash, approved, grown.subset random, created.mono grown⟩

theorem OfEntry.mono {typed : String} {identity : AuthenticatedUser} {user : User}
    (account : OfEntry history typed identity user) (grown : history <:+ later) :
    OfEntry later typed identity user := by
  cases account with
  | byId bound found => exact .byId bound (found.mono grown)
  | byName found => exact .byName (found.mono grown)
  | byTyped found => exact .byTyped (found.mono grown)
  | byEmail given found => exact .byEmail given (found.mono grown)
  | made made => exact .made (made.mono grown)

theorem Confers.mono {actor : Actor} {role : Role} (confers : Confers history actor role)
    (grown : history <:+ later) : Confers later actor role := by
  obtain ⟨roles, stored, among⟩ | ⟨groups, group, roles, listed, held, directory, named, given, among⟩ :=
    confers
  · exact .inl ⟨roles, stored.mono grown, among⟩
  · exact .inr ⟨groups, group, roles, listed.mono grown, held, directory, named, given.mono grown, among⟩

theorem ReadActor.mono {rootUsers : RootUsers} {actor : Actor} (read : ReadActor history rootUsers actor)
    (grown : history <:+ later) : ReadActor later rootUsers actor :=
  ⟨read.root, fun role among => (read.roles role among).mono grown⟩

theorem ActorNamed.mono {username : String} {actor : Actor} (named : ActorNamed history username actor)
    (grown : history <:+ later) : ActorNamed later username actor := by
  obtain unknown | ⟨user, found, same⟩ := named
  · exact .inl unknown
  · exact .inr ⟨user, found.mono grown, same⟩

theorem Admitted.mono {rootUsers : RootUsers} {who who' : Actor → Prop}
    (admitted : Admitted history rootUsers who) (grown : history <:+ later)
    (wider : ∀ actor, who actor → who' actor) : Admitted later rootUsers who' := by
  obtain ⟨stored, answered, admits⟩ := admitted
  refine ⟨stored, answered.mono grown, fun closed => ?_⟩
  obtain ⟨actor, fits, read, permitted⟩ := admits closed
  exact ⟨actor, wider actor fits, read.mono grown, permitted⟩

theorem Earned.mono {userId : Nat} (earned : Earned history gatehouse userId) (grown : history <:+ later) :
    Earned later gatehouse userId := by
  cases earned with
  | password given found approved right admitted =>
      exact .password given (found.mono grown) approved (right.mono grown)
        (admitted.mono grown fun _ same => same)
  | directory given accepted account admitted =>
      exact .directory given (accepted.mono grown) (account.mono grown)
        (admitted.mono grown fun _ named => named.mono grown)
  | provider confirmed account admitted =>
      refine .provider (confirmed.mono grown) ?_ ?_
      · exact account.imp (·.mono grown) (·.mono grown)
      · exact admitted.imp id fun admitted => admitted.mono grown fun _ named => named.mono grown
  | changed signedIn right admitted =>
      exact .changed (signedIn.mono grown) (right.mono grown) (admitted.mono grown fun _ same => same)

theorem Person.mono {userId : Nat} (person : Person history userId) (grown : history <:+ later) :
    Person later userId := by
  cases person with
  | under found => exact .under (found.mono grown)
  | bound found => exact .bound (found.mono grown)
  | made made => exact .made (made.mono grown)
  | signedIn answered human => exact .signedIn (answered.mono grown) human

theorem OfEntry.person {typed : String} {identity : AuthenticatedUser} {user : User}
    (account : OfEntry history typed identity user) : Person history user.id := by
  cases account with
  | byId bound found => exact .bound found
  | byName found => exact .under found
  | byTyped found => exact .under found
  | byEmail given found => exact .under found
  | made made => exact .made made

end Growth

/-- Whatever it is answered, a program issues careful calls alone, and ends as told. -/
abbrev Minds {Error Value : Type} (gatehouse : Gatehouse)
    (program : Program SignInRequest SignInRequest.Answer Error Value)
    (ends : SignInHistory → Value → Prop) (history : SignInHistory) : Prop :=
  program.Along (fun events => Careful events gatehouse) ends (fun _ _ => True) history

section Rules

variable {Error Value Result : Type} {gatehouse : Gatehouse} {history : SignInHistory}
  {ends ends' : SignInHistory → Value → Prop} {onEnd : SignInHistory → Result → Prop}

theorem minds_done {value : Value} (met : ends history value) :
    Minds gatehouse (.done value : Program SignInRequest SignInRequest.Answer Error Value) ends history :=
  met

theorem minds_fail {error : Error} :
    Minds gatehouse (.fail error : Program SignInRequest SignInRequest.Answer Error Value) ends history :=
  trivial

theorem Minds.seq {program : Program SignInRequest SignInRequest.Answer Error Value}
    {next : Value → Program SignInRequest SignInRequest.Answer Error Result}
    (first : Minds gatehouse program ends history)
    (second : ∀ events value, history <:+ events → ends events value →
      Minds gatehouse (next value) onEnd events) : Minds gatehouse (program.bind next) onEnd history :=
  Program.Along.seq first second

/-- A sequence, where what its first part ends with is stated. -/
theorem Minds.via {program : Program SignInRequest SignInRequest.Answer Error Value}
    {next : Value → Program SignInRequest SignInRequest.Answer Error Result}
    (ends : SignInHistory → Value → Prop) (first : Minds gatehouse program ends history)
    (second : ∀ events value, history <:+ events → ends events value →
      Minds gatehouse (next value) onEnd events) : Minds gatehouse (program.bind next) onEnd history :=
  first.seq second

theorem Minds.mono {program : Program SignInRequest SignInRequest.Answer Error Value}
    (minds : Minds gatehouse program ends history)
    (wider : ∀ events value, ends events value → ends' events value) :
    Minds gatehouse program ends' history :=
  Program.Along.mono minds (fun _ _ held => held) wider fun _ _ held => held

/-- What a program ends with is told of a history that has grown from the one before. -/
theorem Minds.grown {program : Program SignInRequest SignInRequest.Answer Error Value}
    (minds : Minds gatehouse program ends history) :
    Minds gatehouse program (fun events value => history <:+ events ∧ ends events value) history :=
  (Program.Along.grown minds).mono (fun _ _ held => held) (fun _ _ held => held) fun _ _ _ => trivial

theorem minds_ofExcept {outcome : Except Error Value}
    (met : ∀ value, outcome = .ok value → ends history value) :
    Minds gatehouse (.ofExcept outcome) ends history :=
  (Program.along_ofExcept outcome).mpr ⟨met, fun _ _ => trivial⟩

theorem minds_attempt {Other : Type} {program : Program SignInRequest SignInRequest.Answer Error Value}
    (minds : Minds gatehouse program ends history) :
    Minds gatehouse (program.attempt : Program SignInRequest SignInRequest.Answer Other _)
      (fun events outcome => ∀ value, outcome = .ok value → ends events value) history :=
  (Program.along_attempt program).mpr (Program.Along.mono minds (fun _ _ held => held)
    (fun _ _ held _ same => Except.ok.inj same ▸ held) fun _ _ _ _ same => by cases same)

theorem minds_orRefuse {useCase : SignInUseCase Value} (minds : Minds gatehouse useCase ends history) :
    Minds gatehouse (orRefuse useCase) ends history := by
  refine (minds_attempt minds).seq fun events outcome _ met => minds_ofExcept fun value same => ?_
  cases outcome with
  | ok done =>
      cases same
      exact met _ rfl
  | error error => cases same

theorem minds_forEach {Element : Type}
    {body : Element → Program SignInRequest SignInRequest.Answer Error Unit} {elements : List Element}
    (each : ∀ element events, history <:+ events → Minds gatehouse (body element) (fun _ _ => True) events) :
    Minds gatehouse (Program.forEach body elements) (fun _ _ => True) history := by
  induction elements generalizing history with
  | nil => exact minds_done trivial
  | cons element rest ih =>
      exact (each element history (List.suffix_refl _)).seq fun events _ grown _ =>
        ih fun other later more => each other later (grown.trans more)

theorem minds_askIdentity {request : IdentityCall} :
    Minds gatehouse (askIdentity request) (fun events answer => Confirmed events request answer)
      history :=
  ⟨trivial, fun _ => List.mem_cons_self⟩

theorem onCredentials_bind (program : Program CredentialRequest CredentialRequest.Answer Error Value)
    (next : Value → Program CredentialRequest CredentialRequest.Answer Error Result) :
    onCredentials (program.bind next) = (onCredentials program).bind fun value =>
      onCredentials (next value) :=
  Program.beside_bind program next

theorem onCredentials_attempt {Other : Type}
    (program : Program CredentialRequest CredentialRequest.Answer Error Value) :
    onCredentials (program.attempt : Program CredentialRequest CredentialRequest.Answer Other _) =
      (onCredentials program).attempt := by
  induction program with
  | done value => rfl
  | fail error => rfl
  | spin => rfl
  | call request rest ih =>
      simp only [onCredentials, Program.attempt, Program.beside] at ih ⊢
      congr 1
      funext answer
      exact ih answer

theorem minds_credentialRepo {request : CredentialCall} (careful : CarefulCall history gatehouse request) :
    Minds gatehouse (onCredentials (credentialRepo request))
      (fun events value => Answered events request value) history := by
  refine ⟨careful, fun answer => ?_⟩
  cases answer with
  | error error => trivial
  | ok value => exact List.mem_cons_self

/-- A use case on accounts at the door. -/
abbrev atDoor (useCase : AccountUseCase Value) : SignInUseCase Value := onCredentials (onAccounts useCase)

theorem atDoor_bind (useCase : AccountUseCase Value) (next : Value → AccountUseCase Result) :
    atDoor (useCase.bind next) = (atDoor useCase).bind fun value => atDoor (next value) := by
  rw [atDoor, onAccounts_bind, onCredentials_bind]

theorem atDoor_foldEach {Element : Type} (body : Value → Element → AccountUseCase Value) (value : Value)
    (elements : List Element) :
    atDoor (Program.foldEach body value elements) =
      Program.foldEach (fun value element => atDoor (body value element)) value elements := by
  induction elements generalizing value with
  | nil => rfl
  | cons element rest ih => simp only [Program.foldEach, atDoor_bind, ih]

theorem minds_accountRepo {request : AccountCall}
    (careful : CarefulCall history gatehouse (.account request)) :
    Minds gatehouse (atDoor (accountRepo request))
      (fun events value => Answered events (.account request) value) history := by
  rw [atDoor, onAccounts_accountRepo]
  exact minds_credentialRepo careful

theorem minds_random :
    Minds gatehouse (atDoor (Program.ask .random)) (fun events hash =>
      (⟨.inl .random, hash⟩ : Event SignInRequest SignInRequest.Answer) ∈ events) history :=
  ⟨trivial, fun _ => List.mem_cons_self⟩

theorem minds_now : Minds gatehouse (atDoor (Program.ask .now)) (fun _ _ => True) history :=
  ⟨trivial, fun _ => trivial⟩

/-- The calls that need no evidence. -/
def QuietCall : CredentialCall → Prop
  | .account (.createSession _ _ _) | .account (.mergeUserInto _ _) => False
  | .updatePassword _ newHash => newHash ≠ serviceAccountPasswordHash
  | _ => True

theorem QuietCall.careful {request : CredentialCall} (quiet : QuietCall request) (events : SignInHistory) :
    CarefulCall events gatehouse request := by
  unfold CarefulCall
  split
  · exact quiet.elim
  · exact quiet.elim
  · exact fun same => absurd same quiet
  · trivial

def QuietRequest : CredentialRequest → Prop
  | .repo request => QuietCall request
  | _ => True

/-- A program of such calls minds whatever it is asked to. -/
theorem minds_quiet {program : Program CredentialRequest CredentialRequest.Answer Error Value}
    (quiet : program.Only QuietRequest fun _ _ => True) :
    Minds gatehouse (onCredentials program) (fun _ _ => True) history := by
  have among : (onCredentials program).Only (fun request => ∀ events, Careful events gatehouse request)
      fun _ _ => True := by
    refine quiet.beside fun request allowed events => ?_
    cases request with
    | repo request => exact QuietCall.careful allowed events
    | now | random => trivial
  exact (among history).mono (fun events request careful => careful events) (fun _ _ held => held)
    fun _ _ held => held

theorem only_credentialRepo {request : CredentialCall} (quiet : QuietCall request) :
    (credentialRepo request).Only QuietRequest fun _ _ => True :=
  Program.Only.bind (Program.Only.ask quiet) fun _ => Program.Only.ofExcept fun _ _ _ => trivial

end Rules

section Modes

variable {gatehouse : Gatehouse} {history : SignInHistory}

theorem minds_getAuthMode :
    Minds gatehouse (onCredentials getAuthMode) (fun events mode =>
      ∃ stored, Answered events (.account (.getSetting "auth_mode")) stored ∧ mode = modeOf stored)
      history := by
  rw [getAuthMode, Program.bind_eq, onCredentials_bind]
  refine (minds_credentialRepo (by exact trivial)).seq fun events stored _ answered => ?_
  exact minds_done ⟨stored, answered, rfl⟩

theorem only_getAuthMode : getAuthMode.Only QuietRequest fun _ _ => True :=
  (only_credentialRepo (by exact trivial)).bind fun _ => .done _

theorem only_signInSource : signInSource.Only QuietRequest fun _ _ => True := by
  refine only_getAuthMode.bind fun mode => Program.Only.bind ?_ fun _ => .done _
  cases mode with
  | disabled => exact (only_credentialRepo (by exact trivial)).bind fun _ => .done _
  | _ => exact .done _

theorem only_getConfig {Config : Type} {key kind : String} {read : String → Except String Config} :
    (ProviderForms.getConfig key kind read).Only QuietRequest fun _ _ => True := by
  refine (only_credentialRepo (by exact trivial)).bind fun stored => ?_
  cases stored with
  | none => exact .done _
  | some text => exact .ofExcept fun _ _ _ => trivial

end Modes

section Actors

variable {gatehouse : Gatehouse} {history : SignInHistory}

/-- What the directory's groups confer is a role that the store tells of one of them. -/
def ConferredBy (history : SignInHistory) (groupNames : List String) (role : String) : Prop :=
  ∃ groups group roles, Answered history (.account .listGroups) groups ∧ group ∈ groups ∧
    group.fromDirectory = true ∧ group.name ∈ groupNames ∧
      Answered history (.account (.listGroupRoles group.id)) roles ∧ role ∈ roles

theorem ConferredBy.mono {later : SignInHistory} {groupNames : List String} {role : String}
    (conferred : ConferredBy history groupNames role) (grown : history <:+ later) :
    ConferredBy later groupNames role := by
  obtain ⟨groups, group, roles, listed, held, directory, named, given, among⟩ := conferred
  exact ⟨groups, group, roles, listed.mono grown, held, directory, named, given.mono grown, among⟩

theorem mem_foldl_conferred {conferred roles : List String} {role : String}
    (held : role ∈ conferred.foldl
      (fun roles role => if role ∈ roles then roles else roles ++ [role]) roles) :
    role ∈ roles ∨ role ∈ conferred := by
  induction conferred generalizing roles with
  | nil => exact .inl held
  | cons first rest ih =>
      obtain earlier | later := ih held
      · dsimp only at earlier
        split at earlier
        · exact .inl earlier
        · obtain before | here := List.mem_append.mp earlier
          · exact .inl before
          · exact .inr (List.mem_singleton.mp here ▸ List.mem_cons_self)
      · exact .inr (List.mem_cons_of_mem _ later)

theorem minds_rolesFromDirectory (groupNames : List String) :
    Minds gatehouse (atDoor (rolesFromDirectory groupNames)) (fun events roles =>
      ∀ role ∈ roles, ConferredBy events groupNames role) history := by
  unfold rolesFromDirectory
  split
  · exact minds_done fun role among => by cases among
  · rw [Program.bind_eq, atDoor_bind]
    refine (minds_accountRepo (by exact trivial)).seq fun events groups _ listed => ?_
    rw [Program.bind_eq, atDoor_bind, atDoor_foldEach]
    refine Minds.via (fun events roles => ∀ role ∈ roles, ConferredBy events groupNames role)
      ?_ fun later roles _ conferred => minds_done fun role among =>
        conferred role ((List.mem_insertionSort _).mp among)
    refine (Program.along_foldEach (fun _ roles later => events <:+ later ∧
      ∀ role ∈ roles, ConferredBy later groupNames role) ⟨List.suffix_refl _, fun role among => by cases among⟩
      fun before group roles later part held => ?_).mono (fun _ _ held => held)
        (fun _ _ held => held.2) fun _ _ held => held
    obtain ⟨grown, conferred⟩ := held
    split
    · exact minds_done ⟨grown, conferred⟩
    · rename_i directory
      rw [Program.bind_eq, atDoor_bind]
      refine (minds_accountRepo (by exact trivial)).grown.seq fun last given more told => ?_
      refine minds_done ⟨grown.trans more, fun role among => ?_⟩
      obtain earlier | now := mem_foldl_conferred among
      · exact (conferred role earlier).mono more
      · simp only [Bool.or_eq_true, Bool.not_eq_true', not_or, Bool.not_eq_false] at directory
        exact ⟨groups, group, given, listed.mono (grown.trans more),
          part.subset (List.mem_append_right _ List.mem_cons_self), directory.1,
          List.contains_iff_mem.mp directory.2, told.2, now⟩

theorem minds_resolveActor (user : User) (groupNames : List String) :
    Minds gatehouse (atDoor (resolveActor gatehouse.rootUsers user groupNames)) (fun events actor =>
      ReadActor events gatehouse.rootUsers actor ∧ actor.userId = user.id ∧ actor.username = user.username)
      history := by
  rw [resolveActor, Program.bind_eq, atDoor_bind]
  refine (minds_accountRepo (by exact trivial)).seq fun events stored _ told => ?_
  rw [Program.bind_eq, atDoor_bind]
  refine (minds_rolesFromDirectory groupNames).seq fun later conferred grown from' => ?_
  refine minds_done ⟨⟨rfl, fun role among => ?_⟩, rfl, rfl⟩
  have parsed := List.contains_iff_mem.mp (List.mem_filter.mp among).2
  obtain ⟨text, held, reads⟩ := List.mem_filterMap.mp parsed
  obtain rfl := Role.asStr_of_parse reads
  obtain own | group := List.mem_append.mp held
  · exact .inl ⟨stored, told.mono grown, own⟩
  · exact .inr (from' _ group)

theorem minds_unknownActor (username : String) (groupNames : List String) :
    Minds gatehouse (onCredentials (unknownActor gatehouse username groupNames)) (fun events actor =>
      ReadActor events gatehouse.rootUsers actor ∧ actor.userId = 0 ∧ actor.username = username)
      history := by
  rw [unknownActor, Program.bind_eq, onCredentials_bind]
  refine (minds_rolesFromDirectory groupNames).seq fun events conferred _ from' => ?_
  refine minds_done ⟨⟨rfl, fun role among => ?_⟩, rfl, rfl⟩
  obtain ⟨text, held, reads⟩ := List.mem_filterMap.mp among
  obtain rfl := Role.asStr_of_parse reads
  exact .inr (from' _ held)

/-- The actor that signs in under a name: that of its account, or of the name itself. -/
def SigningIn (username : String) (existing : Option User) (actor : Actor) : Prop :=
  (∀ user, existing = some user → actor.userId = user.id ∧ actor.username = user.username) ∧
    (existing = none → actor.userId = 0 ∧ actor.username = username)

/-- Who may sign in as an administrator is an actor that configures the sign-in. -/
theorem minds_maySignInAsAdmin (username : String) (existing : Option User) (groupNames : List String) :
    Minds gatehouse (onCredentials (maySignInAsAdmin gatehouse username existing groupNames))
      (fun events may => may = true → ∃ actor, SigningIn username existing actor ∧
        ReadActor events gatehouse.rootUsers actor ∧ actor.hasPermission .manageAuthConfig = true)
      history := by
  rw [maySignInAsAdmin, Program.bind_eq, onCredentials_bind]
  cases existing with
  | some user =>
      refine (minds_resolveActor user groupNames).seq fun events actor _ read => minds_done fun may => ?_
      exact ⟨actor, ⟨fun _ same => Option.some.inj same ▸ read.2, by simp⟩, read.1, may⟩
  | none =>
      refine (minds_unknownActor username groupNames).seq fun events actor _ read => minds_done fun may => ?_
      exact ⟨actor, ⟨by simp, fun _ => read.2⟩, read.1, may⟩

end Actors

end Sanshain.Guarantees
