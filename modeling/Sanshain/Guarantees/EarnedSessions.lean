import Sanshain.Guarantees.SignInEvidence

namespace Sanshain.Guarantees

open Sanshain.Domain Sanshain.Effects Sanshain.Application Sanshain.Text

section Sessions

variable {gatehouse : Gatehouse} {history : SignInHistory}

theorem atDoor_forEach {Element : Type} (body : Element → AccountUseCase Unit) (elements : List Element) :
    atDoor (Program.forEach body elements) =
      Program.forEach (fun element => atDoor (body element)) elements := by
  induction elements with
  | nil => rfl
  | cons element rest ih => simp only [Program.forEach, atDoor_bind, ih]

/-- A session is opened for whoever has earned it. -/
theorem minds_openSession {userId : Nat} (earned : Earned history gatehouse userId)
    (method : SignInMethod) :
    Minds gatehouse (atDoor (openSession userId method)) (fun _ _ => True) history := by
  simp only [openSession, Program.bind_eq, atDoor_bind]
  refine minds_now.seq fun events now grown _ => ?_
  refine minds_random.seq fun events' token grown' _ => ?_
  refine (minds_accountRepo (by exact earned.mono (grown.trans grown'))).seq fun _ session _ _ => ?_
  refine (minds_accountRepo (by exact trivial)).seq fun _ _ _ _ => ?_
  refine (minds_accountRepo (by exact trivial)).seq fun _ _ _ _ => ?_
  exact minds_done trivial

theorem minds_refreshProviderIdentity (gravatarKey : String → String) (userId : Nat)
    (identity : AuthenticatedUser) :
    Minds gatehouse (atDoor (refreshProviderIdentity gravatarKey userId identity)) (fun _ _ => True)
      history := by
  simp only [refreshProviderIdentity, Program.bind_eq, atDoor_bind]
  refine (minds_accountRepo (by exact trivial)).seq fun _ _ _ _ => ?_
  exact (minds_accountRepo (by exact trivial)).mono fun _ _ _ => trivial

end Sessions

section Directory

variable {gatehouse : Gatehouse} {history : SignInHistory} {rootUsers : RootUsers} {canonical : String}
  {target : User}

theorem minds_foldInto (person : Person history target.id) (others : List User) :
    Minds gatehouse (atDoor (foldInto rootUsers canonical target others)) (fun _ _ => True) history := by
  rw [foldInto, atDoor_forEach]
  refine minds_forEach fun other events grown => ?_
  split
  · simp only [Program.bind_eq, atDoor_bind]
    refine (minds_accountRepo (by exact person.mono grown)).seq fun _ _ _ _ => ?_
    exact (minds_accountRepo (by exact trivial)).mono fun _ _ _ => trivial
  · exact minds_done trivial

theorem minds_takeName :
    Minds gatehouse (atDoor (takeName rootUsers canonical target)) (fun _ named => named.id = target.id)
      history := by
  rw [takeName, Program.bind_eq, atDoor_bind]
  refine (minds_accountRepo (by exact trivial)).seq fun events holder _ _ => ?_
  split
  · simp only [Program.bind_eq, atDoor_bind]
    refine (minds_accountRepo (by exact trivial)).seq fun _ _ _ _ => ?_
    refine (minds_accountRepo (by exact trivial)).seq fun _ _ _ _ => ?_
    exact minds_done rfl
  · exact minds_done rfl

theorem minds_takeDirectoryId (directoryId : Option String) :
    Minds gatehouse (atDoor (takeDirectoryId target directoryId)) (fun _ _ => True) history := by
  cases directoryId with
  | none => exact minds_done trivial
  | some directoryId =>
      rw [takeDirectoryId, Program.bind_eq, atDoor_bind]
      refine (minds_accountRepo (by exact trivial)).seq fun _ holder _ _ => ?_
      split
      · exact (minds_accountRepo (by exact trivial)).mono fun _ _ _ => trivial
      · exact minds_done trivial

variable {identity : AuthenticatedUser} {typed : String}

theorem minds_shadowAccount :
    Minds gatehouse (atDoor (shadowAccount identity)) (fun events user =>
      MadeUnder events identity.username user) history := by
  rw [shadowAccount, Program.bind_eq, atDoor_bind]
  refine minds_random.seq fun events hash _ random => ?_
  rw [Program.bind_eq, atDoor_bind]
  refine (minds_accountRepo (by exact trivial)).grown.seq fun later user _ created => ?_
  have made : MadeUnder later identity.username user :=
    ⟨hash, true, created.1.subset random, created.2⟩
  cases identity.directoryId with
  | none => exact minds_done made
  | some directoryId =>
      simp only [Program.bind_eq, atDoor_bind]
      refine (minds_accountRepo (by exact trivial)).seq fun last _ grown _ => ?_
      exact minds_done (made.mono grown)

/-- The account of an entry is one that the entry has, whatever its name is by now. -/
def IsOfEntry (history : SignInHistory) (typed : String) (identity : AuthenticatedUser) (user : User) : Prop :=
  ∃ account, OfEntry history typed identity account ∧ account.id = user.id

theorem minds_settleAccount {candidates : List User}
    (known : ∀ user ∈ candidates, OfEntry history typed identity user) :
    Minds gatehouse (atDoor (settleAccount rootUsers identity candidates)) (fun events user =>
      IsOfEntry events typed identity user) history := by
  rw [settleAccount]
  cases chosen : chooseTarget identity.username candidates with
  | none => exact minds_shadowAccount.mono fun events user made => ⟨user, .made made, rfl⟩
  | some target =>
      have account := known target (mem_of_chooseTarget chosen)
      simp only [Program.bind_eq, atDoor_bind]
      refine (minds_foldInto account.person _).seq fun events _ grown _ => ?_
      refine minds_takeName.seq fun events' named grown' same => ?_
      refine (minds_takeDirectoryId _).seq fun events'' _ grown'' _ => ?_
      exact minds_done ⟨target, account.mono ((grown.trans grown').trans grown''), same.symm⟩

/-- Whoever is considered is a person. -/
theorem person_of_consider {candidates : List User} {found : Option User} {user : User}
    (people : ∀ other ∈ candidates, other.isServiceAccount = false)
    (held : user ∈ consider candidates found) : user.isServiceAccount = false := by
  cases found with
  | none => exact people user held
  | some other =>
      rw [consider] at held
      split at held
      · exact people user held
      · rename_i fresh
        obtain earlier | last := List.mem_append.mp held
        · exact people user earlier
        · rw [List.mem_singleton] at last
          subst last
          simp only [Bool.or_eq_true, not_or] at fresh
          exact Bool.eq_false_iff.mpr fresh.1

theorem person_of_foldl_consider {founds : List (Option User)} {candidates : List User} {user : User}
    (people : ∀ other ∈ candidates, other.isServiceAccount = false)
    (held : user ∈ founds.foldl consider candidates) : user.isServiceAccount = false := by
  induction founds generalizing candidates with
  | nil => exact people user held
  | cons found rest ih => exact ih (fun other among => person_of_consider people among) held

theorem minds_accountOfId (directoryId : Option String) :
    Minds gatehouse (atDoor (accountOfId directoryId)) (fun events found => ∀ user, found = some user →
      ∃ id, directoryId = some id ∧
        Answered events (.account (.findUserByDirectoryId id)) (some user)) history := by
  cases directoryId with
  | none => exact minds_done fun user found => by cases found
  | some id => exact (minds_accountRepo (by exact trivial)).mono fun events found told user same =>
      ⟨id, rfl, same ▸ told⟩

theorem minds_accountOfEmail (email : Option String) :
    Minds gatehouse (atDoor (accountOfEmail email)) (fun events found => ∀ user, found = some user →
      ∃ given, email = some given ∧
        Answered events (.account (.findUser (trim given))) (some user)) history := by
  cases email with
  | none => exact minds_done fun user found => by cases found
  | some given => exact (minds_accountRepo (by exact trivial)).mono fun events found told user same =>
      ⟨given, rfl, same ▸ told⟩

theorem minds_directoryAccount {existing : Option User}
    (found : ∀ user, existing = some user → FoundUnder history typed user) :
    Minds gatehouse (atDoor (directoryAccount rootUsers existing identity)) (fun events user =>
      IsOfEntry events typed identity user) history := by
  simp only [directoryAccount, Program.bind_eq, atDoor_bind]
  refine (minds_accountOfId _).seq fun events byId grown toldId => ?_
  refine (minds_accountRepo (by exact trivial)).seq fun events' byName grown' toldName => ?_
  refine (minds_accountOfEmail _).seq fun events'' byEmail grown'' toldEmail => ?_
  refine minds_settleAccount fun user among => ?_
  have person := person_of_foldl_consider (fun _ out => absurd out List.not_mem_nil) among
  obtain out | found' := mem_foldl_consider among
  · exact absurd out List.not_mem_nil
  · simp only [List.mem_cons, List.not_mem_nil, or_false] at found'
    obtain same | same | same | same := found'
    · obtain ⟨id, bound, told⟩ := toldId user same.symm
      exact .byId bound ⟨told.mono (grown'.trans grown''), person⟩
    · subst same
      exact .byName ⟨toldName.mono grown'', person⟩
    · exact .byTyped ((found user same.symm).mono ((grown.trans grown').trans grown''))
    · obtain ⟨given, email, told⟩ := toldEmail user same.symm
      exact .byEmail email ⟨told, person⟩

end Directory

section Logins

variable {gatehouse : Gatehouse} {history : SignInHistory}

/-- How a password has been verified that was given with a name. -/
def VerifiedAs (history : SignInHistory) (username : String) : Verified → Prop
  | .local user => ∃ password ≠ "", FoundUnder history username user ∧ user.approved = true ∧
      Confirmed history (.verifyPassword password user.passwordHash) (.ok true)
  | .directory existing identity => ∃ config, ∃ password ≠ "",
      Confirmed history (.authenticate config username password) (.ok identity) ∧
        ∀ user, existing = some user → FoundUnder history username user

theorem VerifiedAs.mono {later : SignInHistory} {username : String} {verified : Verified}
    (shown : VerifiedAs history username verified) (grown : history <:+ later) :
    VerifiedAs later username verified := by
  cases verified with
  | «local» user =>
      obtain ⟨password, given, found, approved, right⟩ := shown
      exact ⟨password, given, found.mono grown, approved, right.mono grown⟩
  | directory existing identity =>
      obtain ⟨config, password, given, accepted, found⟩ := shown
      exact ⟨config, password, given, accepted.mono grown, fun user same => (found user same).mono grown⟩

theorem minds_verifyPassword (password hash : String) :
    Minds gatehouse (verifyPassword password hash) (fun events right =>
      Confirmed events (.verifyPassword password hash) (.ok right)) history := by
  refine minds_askIdentity.seq fun events answer _ told => minds_ofExcept fun right same => ?_
  exact same ▸ told

theorem minds_checkLocally (password : String) (existing : Option User) :
    Minds gatehouse (checkLocally password existing) (fun events checked => ∀ user, checked = .ok user →
      existing = some user ∧ user.approved = true ∧
        Confirmed events (.verifyPassword password user.passwordHash) (.ok true)) history := by
  cases existing with
  | none => exact minds_done fun user same => by cases same
  | some held =>
      refine (minds_verifyPassword password held.passwordHash).seq fun events right _ told =>
        minds_done fun user same => ?_
      cases right with
      | false => cases same
      | true =>
          cases approved : held.approved with
          | false => simp [approved] at same
          | true =>
              simp only [Bool.not_true, Bool.false_eq_true, if_false, approved] at same
              cases same
              exact ⟨rfl, approved, told⟩

theorem minds_verifyPasswordLocalFirst (directory : Option LdapConfig) (username password : String) :
    Minds gatehouse (verifyPasswordLocalFirst directory username password) (fun events verified =>
      VerifiedAs events username verified) history := by
  unfold verifyPasswordLocalFirst
  split
  · exact minds_fail
  · rename_i given
    refine (minds_credentialRepo (by exact trivial)).seq fun events existing _ told => ?_
    split
    · exact minds_fail
    · rename_i human
      have people : ∀ user, existing = some user → FoundUnder events username user := by
        intro user same
        subst same
        exact ⟨told, by simpa using human⟩
      refine (minds_checkLocally password existing).seq fun later checked grown right => ?_
      cases checked with
      | ok user =>
          obtain ⟨found, approved, right⟩ := right user rfl
          exact minds_done ⟨password, given, (people user found).mono grown, approved, right⟩
      | error refusal =>
          cases directory with
          | none => exact minds_fail
          | some config =>
              refine minds_askIdentity.seq fun last answer more accepted => ?_
              cases answer with
              | error reason => exact minds_fail
              | ok identity =>
                  exact minds_done ⟨config, password, given, accepted, fun user same =>
                    (people user same).mono (grown.trans more)⟩

/-- Who a mode admits that does not admit everybody has passed the check. -/
theorem minds_admits {mode : AuthMode} {check : CredentialUseCase Bool} {passes : SignInHistory → Prop}
    (checks : Minds gatehouse (onCredentials check) (fun events may => may = true → passes events) history) :
    Minds gatehouse (onCredentials (admits mode check)) (fun events may =>
      may = true → adminsOnly mode = true → passes events) history := by
  unfold admits
  split
  · exact checks.mono fun _ _ held yes _ => held yes
  · rename_i isOpen
    exact minds_done fun _ closed => absurd closed isOpen

/-- A verified password that is admitted earns a session. -/
theorem minds_startSession (gravatarKey : String → String) {username : String} {verified : Verified}
    (shown : VerifiedAs history username verified)
    (admitted : Admitted history gatehouse.rootUsers (SigningIn username verified.existing)) :
    Minds gatehouse (atDoor (startSession gravatarKey gatehouse.rootUsers verified)) (fun _ _ => True)
      history := by
  cases verified with
  | «local» user =>
      obtain ⟨password, given, found, approved, right⟩ := shown
      exact minds_openSession (.password given found approved right
        (admitted.mono (List.suffix_refl _) fun actor same => same.1 user rfl)) _
  | directory existing identity =>
      obtain ⟨config, password, given, accepted, found⟩ := shown
      simp only [startSession, Program.bind_eq, atDoor_bind]
      refine (minds_directoryAccount found).seq fun events user grown ofEntry => ?_
      refine (minds_refreshProviderIdentity _ _ _).seq fun later _ grown' _ => ?_
      obtain ⟨account, entry, same⟩ := ofEntry
      have named : ∀ actor, SigningIn username existing actor → ActorNamed later username actor := by
        rintro actor ⟨known, unknown⟩
        cases existing with
        | none => exact .inl (unknown rfl)
        | some user => exact .inr ⟨user, ((found user rfl).mono (grown.trans grown')).1, known user rfl⟩
      exact minds_openSession (same ▸ .directory given (accepted.mono (grown.trans grown'))
        (entry.mono grown') (admitted.mono (grown.trans grown') named)) _

/-- The login opens sessions that are earned. -/
theorem minds_authLogin (forms : ProviderForms) (gravatarKey : String → String)
    (username password : String) :
    Minds gatehouse (authLogin gatehouse forms gravatarKey username password) (fun _ _ => True) history := by
  refine minds_getAuthMode.seq fun events mode _ read => ?_
  refine (minds_quiet only_signInSource).seq fun events₁ source grown₁ _ => ?_
  refine Minds.via (fun _ _ => True) ?_ fun events₂ directory grown₂ _ => ?_
  · refine minds_quiet ?_
    cases source with
    | ldap => exact only_getConfig
    | _ => exact .done _
  · refine (minds_verifyPasswordLocalFirst directory username password).seq
      fun events₃ verified grown₃ shown => ?_
    obtain ⟨stored, told, same⟩ := read
    refine (minds_admits (minds_maySignInAsAdmin username verified.existing _)).grown.seq
        fun events₄ may grown₄ admitted => ?_
    split
    · exact minds_fail
    · rename_i passed
      exact minds_startSession gravatarKey (shown.mono grown₄)
        ⟨stored, told.mono (((grown₁.trans grown₂).trans grown₃).trans grown₄), fun closed =>
          admitted.2 (by simpa using passed) (same ▸ closed)⟩

end Logins

section Providers

variable {gatehouse : Gatehouse} {history : SignInHistory}

theorem only_requireOidcConfig {forms : ProviderForms} :
    (requireOidcConfig forms).Only QuietRequest fun _ _ => True := by
  refine only_getConfig.bind fun config => ?_
  cases config with
  | none => exact .fail fun _ => trivial
  | some config => exact .done _

theorem only_oidcMustBeTheSource : oidcMustBeTheSource.Only QuietRequest fun _ _ => True := by
  refine only_signInSource.bind fun source => ?_
  split
  · exact .fail fun _ => trivial
  · exact .done _

theorem minds_oidcAccount (username : String) :
    Minds gatehouse (atDoor (oidcAccount username)) (fun events user =>
      FoundUnder events username user ∨ MadeUnder events username user) history := by
  simp only [oidcAccount, Program.bind_eq, atDoor_bind]
  refine (minds_accountRepo (by exact trivial)).seq fun events found _ told => ?_
  cases found with
  | some user =>
      dsimp only
      split
      · exact minds_fail
      · rename_i human
        exact minds_done (.inl ⟨told, by simpa using human⟩)
  | none =>
      simp only [atDoor_bind]
      refine minds_random.seq fun later hash _ random => ?_
      exact (minds_accountRepo (by exact trivial)).grown.mono fun last user created =>
        .inr ⟨hash, true, created.1.subset random, created.2⟩

/-- An identity that the provider has confirmed earns a session, where the mode admits it. -/
theorem minds_loginOidc (gravatarKey : String → String) {config : OidcConfig} {claims : OidcClaims}
    {code verifier nonce : String}
    (confirmed : Confirmed history (.exchangeAndVerify config code verifier nonce) (.ok claims))
    (admitted : inAdminGroup config.adminGroup claims.groups = true ∨
      Admitted history gatehouse.rootUsers (ActorNamed history claims.username)) :
    Minds gatehouse (atDoor (loginOidc gravatarKey claims config.adminGroup)) (fun _ _ => True)
      history := by
  simp only [loginOidc, Program.bind_eq, atDoor_bind]
  refine (minds_oidcAccount claims.username).seq fun events user grown account => ?_
  refine Minds.via (fun _ _ => True) ?_ fun events' _ grown' _ => ?_
  · rw [grantByGroup]
    split
    · exact (minds_accountRepo (by exact trivial)).mono fun _ _ _ => trivial
    · exact minds_done trivial
  · refine (minds_refreshProviderIdentity _ _ _).seq fun events'' _ grown'' _ => ?_
    have whole := (grown.trans grown').trans grown''
    refine minds_openSession (.provider (confirmed.mono whole) ?_ ?_) _
    · exact account.imp (·.mono (grown'.trans grown'')) (·.mono (grown'.trans grown''))
    · exact admitted.imp id fun admitted => admitted.mono whole fun _ named => named.mono whole

theorem minds_mayCompleteAsAdmin (config : OidcConfig) (claims : OidcClaims) :
    Minds gatehouse (onCredentials (mayCompleteAsAdmin gatehouse config claims)) (fun events may =>
      may = true → inAdminGroup config.adminGroup claims.groups = true ∨
        ∃ actor, ActorNamed events claims.username actor ∧ ReadActor events gatehouse.rootUsers actor ∧
          actor.hasPermission .manageAuthConfig = true) history := by
  rw [mayCompleteAsAdmin, Program.bind_eq, onCredentials_bind]
  refine (minds_credentialRepo (by exact trivial)).seq fun events existing _ told => ?_
  split
  · exact minds_done fun _ => .inl ‹_›
  · refine (minds_maySignInAsAdmin claims.username existing []).grown.mono fun later may held yes => .inr ?_
    obtain ⟨actor, ⟨known, unknown⟩, read, permitted⟩ := held.2 yes
    refine ⟨actor, ?_, read, permitted⟩
    cases existing with
    | none => exact .inl (unknown rfl)
    | some user => exact .inr ⟨user, told.mono held.1, known user rfl⟩

/-- The callback of the provider opens sessions that are earned. -/
theorem minds_oidcCallback (forms : ProviderForms) (gravatarKey : String → String)
    (cookies : Option String) (query : OidcCallbackQuery) :
    Minds gatehouse (oidcCallback gatehouse forms gravatarKey cookies query) (fun _ _ => True) history := by
  refine Minds.via (fun _ _ => True) (minds_ofExcept fun _ _ => trivial) fun events read _ _ => ?_
  unfold oidcComplete
  split
  · exact minds_fail
  · refine (minds_quiet only_oidcMustBeTheSource).seq fun events₁ _ _ _ => ?_
    refine (minds_quiet only_requireOidcConfig).seq fun events₂ config _ _ => ?_
    refine minds_askIdentity.seq fun events₃ answer _ told => ?_
    refine Minds.via (fun events claims => Confirmed events (.exchangeAndVerify config read.1
      read.2.2.pkceVerifier read.2.2.nonce) (.ok claims)) (minds_ofExcept fun claims same => same ▸ told)
        fun events₄ claims _ confirmed => ?_
    refine minds_getAuthMode.seq fun events₅ mode grown₅ asked => ?_
    refine (minds_admits (minds_mayCompleteAsAdmin config claims)).grown.seq
      fun events₆ may grown₆ admitted => ?_
    split
    · exact minds_fail
    · rename_i passed
      obtain ⟨stored, answered, rfl⟩ := asked
      refine minds_loginOidc gravatarKey (confirmed.mono (grown₅.trans grown₆)) ?_
      by_cases member : inAdminGroup config.adminGroup claims.groups = true
      · exact .inl member
      · exact .inr ⟨stored, answered.mono grown₆, fun closed =>
          (admitted.2 (by simpa using passed) closed).resolve_left member⟩

end Providers

section Changes

variable {gatehouse : Gatehouse} {history : SignInHistory}

theorem minds_sessionOf (token : String) :
    Minds gatehouse (onCredentials (sessionOf token)) (fun events opened => ∀ user session,
      opened = some (user, session) → Answered events (.validateSession token) (some (user, session)))
      history := by
  refine ⟨trivial, fun answer => ?_⟩
  intro user session opened
  cases answer with
  | error error => cases opened
  | ok found =>
      cases found with
      | none => cases opened
      | some pair =>
          cases opened
          exact List.mem_cons_self

theorem minds_attachCaller (user : User) :
    Minds gatehouse (onCredentials (attachCaller gatehouse user)) (fun events caller =>
      caller.1 = user ∧ ReadActor events gatehouse.rootUsers caller.2 ∧ caller.2.userId = user.id ∧
        caller.2.username = user.username) history := by
  rw [attachCaller, Program.bind_eq, onCredentials_bind, onCredentials_attempt]
  refine (minds_attempt (minds_resolveActor user _)).seq fun events outcome _ read => ?_
  cases outcome with
  | ok actor => exact minds_done ⟨rfl, read actor rfl⟩
  | error error => exact minds_fail

theorem minds_refuseUnlessAdminMaySignIn {actor : Actor} :
    Minds gatehouse (onCredentials (refuseUnlessAdminMaySignIn actor)) (fun events _ =>
      ∃ stored, Answered events (.account (.getSetting "auth_mode")) stored ∧
        (adminsOnly (modeOf stored) = true → actor.hasPermission .manageAuthConfig = true)) history := by
  rw [refuseUnlessAdminMaySignIn, Program.bind_eq, onCredentials_bind, onCredentials_attempt]
  refine (minds_attempt minds_getAuthMode).seq fun events outcome _ read => ?_
  cases outcome with
  | error error => exact minds_fail
  | ok mode =>
      obtain ⟨stored, answered, rfl⟩ := read _ rfl
      dsimp only
      split
      · rename_i passes
        refine minds_done ⟨stored, answered, fun closed => ?_⟩
        simpa [closed] using passes
      · exact minds_fail

/-- Who is signed in has a session, and is admitted. -/
theorem minds_authenticatedAuth (authHeader : Option String) :
    Minds gatehouse (onCredentials (authenticatedAuth gatehouse authHeader)) (fun events caller =>
      (∃ token session, Answered events (.validateSession token) (some (caller.1, session))) ∧
        Admitted events gatehouse.rootUsers fun actor =>
          actor.userId = caller.1.id ∧ actor.username = caller.1.username) history := by
  unfold authenticatedAuth
  cases authHeader.bind (stripPrefix "Bearer ") with
  | none => exact minds_fail
  | some token =>
      simp only [Program.bind_eq, onCredentials_bind]
      refine (minds_sessionOf token).seq fun events opened _ told => ?_
      cases opened with
      | none => exact minds_fail
      | some pair =>
          obtain ⟨user, session⟩ := pair
          simp only [onCredentials_bind]
          refine (minds_attachCaller user).seq fun later caller grown attached => ?_
          obtain ⟨rfl, read, sameId, sameName⟩ := attached
          refine minds_refuseUnlessAdminMaySignIn.grown.seq fun last _ _ admitted => ?_
          obtain ⟨grown', stored, answered, permits⟩ := admitted
          exact minds_done ⟨⟨token, session, (told _ session rfl).mono (grown.trans grown')⟩,
            stored, answered, fun closed =>
              ⟨caller.2, ⟨sameId, sameName⟩, read.mono grown', permits closed⟩⟩

/-- A changed password opens a session that is earned. -/
theorem minds_authChangePassword (authHeader : Option String) (oldPassword newPassword : String) :
    Minds gatehouse (authChangePassword gatehouse authHeader oldPassword newPassword) (fun _ _ => True)
      history := by
  refine (minds_authenticatedAuth authHeader).seq fun events caller _ known => ?_
  obtain ⟨⟨token, session, signedIn⟩, admitted⟩ := known
  refine Minds.via (fun _ _ => True) (minds_orRefuse ?_) fun later opened _ _ => ?_
  · refine (minds_verifyPassword _ _).seq fun events₁ right grown₁ told => ?_
    cases right with
    | false => exact minds_fail
    | true =>
        refine Minds.via (fun events newHash =>
          Confirmed events (.hashPassword newPassword) (.ok newHash)) ?_ fun events₂ newHash grown₂ hashed => ?_
        · exact minds_askIdentity.seq fun _ _ _ hashed => minds_ofExcept fun _ same => same ▸ hashed
        · refine (minds_credentialRepo (by exact fun _ => .inr ⟨newPassword, hashed⟩)).seq
            fun events₃ _ grown₃ _ => ?_
          cases authHeader.bind (stripPrefix "Bearer ") with
          | none => exact minds_done trivial
          | some current =>
              refine (minds_credentialRepo (by exact trivial)).seq fun events₄ _ grown₄ _ => ?_
              have later := (grown₂.trans grown₃).trans grown₄
              refine (minds_openSession (.changed (signedIn.mono (grown₁.trans later)) (told.mono later)
                (admitted.mono (grown₁.trans later) fun _ same => same)) _).seq fun _ _ _ _ => ?_
              exact minds_done trivial
  · cases opened with
    | none => exact minds_fail
    | some opened =>
        refine (minds_orRefuse (minds_quiet ?_)).seq fun _ _ _ _ => minds_done trivial
        exact (Program.Only.ask (by exact trivial)).bind fun _ => .ofExcept fun _ _ _ => trivial

end Changes

end Sanshain.Guarantees
