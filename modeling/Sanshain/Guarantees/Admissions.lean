import Sanshain.Application.Admission
import Sanshain.Guarantees.CredentialLives

namespace Sanshain.Guarantees

open Sanshain.Domain Sanshain.Effects Sanshain.History Sanshain.Infrastructure Sanshain.Application
open Sanshain.Text

section Doors

/-- The ways into the service that ask for a credential. -/
inductive Door where
  | api (access : ApiAccess)
  | administrative (routeGuard : RouteGuard) (credentials : AdminCredentials)
  | signedIn
  | mcp

/-- Who is let in, with this header. -/
def Door.knock (gatehouse : Gatehouse) : Door → Option String → Guard User
  | .api access, header => (authenticateApi gatehouse access header).bind fun caller => .done caller.1
  | .administrative routeGuard credentials, header =>
      (permissionAuthWith gatehouse routeGuard credentials header).bind fun caller => .done caller.1
  | .signedIn, header => (authenticatedAuth gatehouse header).bind fun caller => .done caller.1
  | .mcp, header => (mcpAuth gatehouse header).bind fun caller => .done caller.user

/-- The token that a door reads from a header: the API takes it also without its scheme. -/
def Door.reads : Door → String → Option String
  | .api _, header => some ((stripPrefix "Bearer " header).getD header)
  | .mcp, header => (stripPrefix "Bearer " header).map trim
  | _, header => stripPrefix "Bearer " header

/-- Whether a door opens to an API token of a scope. -/
def Door.opensTo : Door → ApiTokenScope → Bool
  | .api .read, _ | .mcp, _ => true
  | .api .write, scope | .administrative _ .sessionOrApiToken, scope => scope = .full
  | .administrative _ .sessionOnly, _ | .signedIn, _ => false

end Doors

section Shut

variable {digest : String → String} {opens : ApiTokenScope → Bool} {credentials : Credentials}

/-- No credential of this token that opens lasts beyond the instant. -/
structure Shut (digest : String → String) (opens : ApiTokenScope → Bool) (instant : Instant)
    (token : String) (credentials : Credentials) : Prop where
  session : ∀ row ∈ credentials.accounts.sessions, ¬ (row.token = digest token ∧ instant < row.expiresAt)
  apiToken : ∀ row ∈ credentials.apiTokens,
    ¬ (row.tokenHash = digest token ∧ instant < row.expiresAt ∧ opens row.readScope = true)

/-- A call that issues no credential of this token that opens. -/
def Spares (digest : String → String) (opens : ApiTokenScope → Bool) (token : String) :
    CredentialCall → Prop
  | .account (.createSession _ other _) => digest other ≠ digest token
  | .createApiToken new => ¬ (new.tokenHash = digest token ∧ opens new.scope = true)
  | _ => True

theorem openedSession_spares {token : String} {request : CredentialCall} {row : SessionRow}
    (spares : Spares digest opens token request)
    (opened : openedSession digest credentials request = some row) : row.token ≠ digest token := by
  unfold openedSession at opened
  split at opened
  · split at opened <;> cases opened
    exact spares
  · cases opened

theorem createdApiToken_spares {token : String} {request : CredentialCall} {row : StoredApiToken}
    (spares : Spares digest opens token request)
    (created : createdApiToken credentials request = some row) :
    ¬ (row.tokenHash = digest token ∧ opens row.readScope = true) := by
  unfold createdApiToken at created
  split at created
  · split at created <;> cases created
    rw [StoredApiToken.readScope_ofNew]
    exact spares
  · cases created

/-- What is shut stays so, as long as no credential that opens is issued. -/
theorem Shut.run {instant : Instant} {token : String} (shut : Shut digest opens instant token credentials)
    {calls : List CredentialStep} (spared : ∀ call ∈ calls, Spares digest opens token call.2) :
    Shut digest opens instant token (runSteps (Credentials.step digest) credentials calls) where
  session row held := by
    refine (sessionRegister digest).never_again
      (fun row => row.token = digest token ∧ instant < row.expiresAt) ?_ shut.session ?_ held
    · intro state call row after kept has
      obtain ⟨sameToken, sameEnd⟩ := Prod.mk.inj (sessionFate_keeps kept)
      rwa [sameToken, sameEnd] at has
    · intro state call among start opened has
      exact openedSession_spares (spared call among) opened has.1
  apiToken row held := by
    refine (apiTokenRegister digest).never_again
      (fun row => row.tokenHash = digest token ∧ instant < row.expiresAt ∧ opens row.readScope = true)
      ?_ shut.apiToken ?_ held
    · intro state call row after kept has
      have same := apiTokenFate_keeps kept
      simp only [Prod.mk.injEq] at same
      obtain ⟨-, sameHash, sameScope, sameEnd⟩ := same
      rwa [sameHash, sameEnd, StoredApiToken.readScope, sameScope] at has
    · intro state call among start created has
      exact createdApiToken_spares (spared call among) created ⟨has.1, has.2.2⟩

/-- What no sign-in and no API token opens now, is shut from now on. -/
theorem SoundCredentials.shut (sound : SoundCredentials credentials) {instant : Instant} {token : String}
    (session : (credentials.perform digest instant (.validateSession token)).2 = .ok none)
    (apiToken : (credentials.perform digest instant (.validateApiToken (digest token))).2 = .ok none) :
    Shut digest opens instant token credentials where
  session row held bad := by
    obtain ⟨user, among, own⟩ := List.mem_map.mp (sound.accounts.sessionsKnown row held)
    have valid := (validateSession_eq sound).mpr ⟨row, held, bad.1, bad.2, among, own, rfl⟩
    cases session.symm.trans valid
  apiToken row held bad := by
    obtain ⟨user, among, own⟩ := List.mem_map.mp (sound.apiTokensKnown row held)
    have valid : (credentials.perform digest instant (.validateApiToken (digest token))).2 =
        .ok (some ⟨row.id, row.readScope, row.lastUsedAt, user⟩) :=
      (validateApiToken_eq sound).mpr ⟨row, held, bad.1, bad.2.1, among, own, rfl⟩
    cases apiToken.symm.trans valid

/-- No session is found where it is shut. -/
theorem Shut.noSession {instant now : Instant} {token : String}
    (shut : Shut digest opens instant token credentials) (later : instant ≤ now) :
    (credentials.perform digest now (.validateSession token)).2 = .ok none := by
  have absent : credentials.accounts.sessions.find? (fun row =>
      row.token = digest token ∧ now < row.expiresAt) = none := by
    refine List.find?_eq_none.mpr fun row held valid => shut.session row held ?_
    obtain ⟨own, live⟩ := of_decide_eq_true valid
    exact ⟨own, later.trans_lt live⟩
  simp only [Credentials.perform, absent, Option.bind_none]

/-- An API token that is found where it is shut does not open. -/
theorem Shut.identity {instant now : Instant} {token : String} {identity : ApiTokenIdentity}
    (shut : Shut digest opens instant token credentials) (later : instant ≤ now)
    (found : (credentials.perform digest now (.validateApiToken (digest token))).2 = .ok (some identity)) :
    opens identity.scope = false := by
  simp only [Credentials.perform, Except.ok.injEq, Option.bind_eq_some_iff, Option.map_eq_some_iff]
    at found
  obtain ⟨row, among, user, -, rfl⟩ := found
  have met := List.find?_some among
  obtain ⟨own, live⟩ := of_decide_eq_true met
  refine Bool.eq_false_iff.mpr fun admits => ?_
  exact shut.apiToken row (List.mem_of_find?_eq_some among) ⟨own, later.trans_lt live, admits⟩

end Shut

section Waiting

variable {gatehouse : Gatehouse} {environment : Environment} {opens : ApiTokenScope → Bool}
  {token : String} {world : CredentialWorld}

/-- The store behind the doors. -/
abbrev behindDoors (gatehouse : Gatehouse) (environment : Environment) :
    Handler CredentialWorld CredentialRequest CredentialRequest.Answer :=
  CredentialWorld.handle gatehouse.digest environment

/-- The store is shut from an instant that the clock does not go back behind. -/
def Waiting (gatehouse : Gatehouse) (environment : Environment) (opens : ApiTokenScope → Bool)
    (token : String) (world : CredentialWorld) : Prop :=
  ∃ instant, Shut gatehouse.digest opens instant token world.credentials ∧
    ∀ step, world.steps ≤ step → instant ≤ environment.clock step

/-- A call either fails by a fault and changes nothing, or is the store's own. -/
theorem credentials_handle (gatehouse : Gatehouse) (environment : Environment) (world : CredentialWorld)
    (request : CredentialCall) :
    (∃ reason, behindDoors gatehouse environment world (.repo request) =
        (⟨world.credentials, world.steps + 1⟩, .error (.internal reason))) ∨
      behindDoors gatehouse environment world (.repo request) =
        (⟨(world.credentials.perform gatehouse.digest (environment.clock world.steps) request).1,
            world.steps + 1⟩,
          (world.credentials.perform gatehouse.digest (environment.clock world.steps) request).2) := by
  cases faulty : environment.fault world.steps with
  | some reason => exact .inl ⟨reason, by simp [CredentialWorld.handle, faulty]⟩
  | none => exact .inr (by simp [CredentialWorld.handle, faulty])

/-- A call of a use case meets a fault and changes nothing, or the store answers it at its instant. -/
theorem ensures_credentialRepo {digest : String → String} {request : CredentialCall}
    {returns : request.Result → CredentialWorld → Prop} {fails : CredentialWorld → Prop}
    (faulty : fails ⟨world.credentials, world.steps + 1⟩)
    (refused : ∀ now, fails ⟨(world.credentials.perform digest now request).1, world.steps + 1⟩)
    (answered : ∀ now answer, (world.credentials.perform digest now request).2 = .ok answer →
      returns answer ⟨(world.credentials.perform digest now request).1, world.steps + 1⟩) :
    (credentialRepo request).Ensures (CredentialWorld.handle digest environment) returns
      (fun _ => fails) world := by
  unfold credentialRepo tryCredentials
  refine .call ?_
  simp only [CredentialWorld.handle]
  cases environment.fault world.steps with
  | some reason => exact .fail faulty
  | none =>
      dsimp only
      cases told : (world.credentials.perform digest (environment.clock world.steps) request).2 with
      | error error => exact .fail (refused _)
      | ok answer => exact .done (answered _ answer told)

theorem Waiting.asked (waiting : Waiting gatehouse environment opens token world)
    {request : CredentialCall} (spares : Spares gatehouse.digest opens token request) :
    Waiting gatehouse environment opens token
      (behindDoors gatehouse environment world (.repo request)).1 := by
  obtain ⟨instant, shut, onward⟩ := waiting
  have later : ∀ step, world.steps + 1 ≤ step → instant ≤ environment.clock step :=
    fun step after => onward step (Nat.le_of_succ_le after)
  obtain ⟨reason, failed⟩ | told := credentials_handle gatehouse environment world request
  · rw [failed]
    exact ⟨instant, shut, later⟩
  · rw [told]
    refine ⟨instant, ?_, later⟩
    have spared : ∀ call ∈ [(environment.clock world.steps, request)],
        Spares gatehouse.digest opens token call.2 := by
      intro call among
      rw [List.mem_singleton.mp among]
      exact spares
    exact shut.run spared

theorem Waiting.getAuthMode (waiting : Waiting gatehouse environment opens token world) :
    (getAuthMode.attempt : Guard (Except AppError AuthMode)).Returns (behindDoors gatehouse environment)
      (fun _ => Waiting gatehouse environment opens token) world := by
  have kept : Waiting gatehouse environment opens token
      (behindDoors gatehouse environment world (.repo (.account (.getSetting "auth_mode")))).1 :=
    waiting.asked (by exact trivial)
  change Program.Returns _ _ (Program.attempt (Program.bind (Program.ofExcept _) _)) (behindDoors _ _ _ _).1
  cases (behindDoors gatehouse environment world (.repo (.account (.getSetting "auth_mode")))).2 with
  | error error => exact .done kept
  | ok stored => exact .done kept

theorem Waiting.sessionOf (waiting : Waiting gatehouse environment opens token world) :
    (sessionOf token).Returns (behindDoors gatehouse environment)
      (fun found after => found = none ∧ Waiting gatehouse environment opens token after) world := by
  refine ⟨_, _, rfl, ?_, waiting.asked (by exact trivial)⟩
  obtain ⟨instant, shut, onward⟩ := waiting
  obtain ⟨reason, failed⟩ | told :=
    credentials_handle gatehouse environment world (.validateSession token)
  · rw [failed]
    rfl
  · rw [told, shut.noSession (onward _ le_rfl)]
    rfl

theorem Waiting.answered (waiting : Waiting gatehouse environment opens token world)
    {identity : ApiTokenIdentity}
    (found : (behindDoors gatehouse environment world
      (.repo (.validateApiToken (gatehouse.digest token)))).2 = .ok (some identity)) :
    opens identity.scope = false := by
  obtain ⟨instant, shut, onward⟩ := waiting
  obtain ⟨reason, failed⟩ | told :=
    credentials_handle gatehouse environment world (.validateApiToken (gatehouse.digest token))
  · rw [failed] at found
    cases found
  · rw [told] at found
    exact shut.identity (onward _ le_rfl) found

theorem Waiting.identityOf (waiting : Waiting gatehouse environment opens token world) :
    (identityOf gatehouse token).Returns (behindDoors gatehouse environment)
      (fun found _ => ∀ identity, found = some identity → opens identity.scope = false) world := by
  change Program.Returns _ _
    (Program.bind (Program.attempt (Program.bind (Program.ofExcept _) _)) _) (behindDoors _ _ _ _).1
  cases answered : (behindDoors gatehouse environment world
      (.repo (.validateApiToken (gatehouse.digest token)))).2 with
  | error error => exact .done fun identity same => by cases same
  | ok found =>
      cases found with
      | none => exact .done fun identity same => by cases same
      | some identity =>
          have closed := waiting.answered answered
          simp only [Except.mapError, Program.ofExcept_ok, Program.done_bind, Program.bind_eq,
            Program.ask_bind]
          change Program.Returns _ _ (Program.bind (Program.attempt _) _)
            (behindDoors _ _ (behindDoors _ _ _ _).1 _).1
          dsimp only
          split
          · refine ⟨_, _, rfl, fun other same => ?_⟩
            cases same
            exact closed
          · refine ⟨_, _, rfl, fun other same => ?_⟩
            cases same
            exact closed

end Waiting

section Knocking

variable {gatehouse : Gatehouse} {environment : Environment} {token : String} {world : CredentialWorld}

theorem Waiting.refuses_api {access : ApiAccess} {header : String}
    (reads : (stripPrefix "Bearer " header).getD header = token)
    (waiting : Waiting gatehouse environment (Door.api access).opensTo token world) :
    (authenticateApi gatehouse access (some header)).Refuses (behindDoors gatehouse environment)
      (fun _ _ => True) world := by
  refine waiting.getAuthMode.bind_refuses fun mode reached kept => ?_
  dsimp only
  split
  · exact .fail trivial
  subst reads
  refine kept.sessionOf.bind_refuses fun found reached kept => ?_
  obtain ⟨rfl, kept⟩ := kept
  refine kept.identityOf.bind_refuses fun found reached shut => ?_
  cases found with
  | none => exact .fail trivial
  | some identity =>
      have closed := shut identity rfl
      dsimp only
      split
      · exact .fail trivial
      · rename_i admitted
        cases access with
        | read => cases closed
        | write =>
            cases scope : identity.scope with
            | full => simp [Door.opensTo, scope] at closed
            | readOnly => exact absurd ⟨rfl, scope⟩ admitted

theorem Waiting.refuses_administrative {routeGuard : RouteGuard} {credentials : AdminCredentials}
    (waiting : Waiting gatehouse environment (Door.administrative routeGuard credentials).opensTo token
      world) :
    (administrativeCaller gatehouse credentials token).Refuses (behindDoors gatehouse environment)
      (fun _ _ => True) world := by
  refine waiting.sessionOf.bind_refuses fun found reached kept => ?_
  obtain ⟨rfl, kept⟩ := kept
  dsimp only
  split
  · rename_i accepted
    subst accepted
    refine kept.identityOf.bind_refuses fun found reached shut => ?_
    cases found with
    | none => exact .fail trivial
    | some identity =>
        have closed := shut identity rfl
        dsimp only
        split
        · exact .fail trivial
        · rename_i scope
          cases same : identity.scope with
          | full => simp [Door.opensTo, same] at closed
          | readOnly => exact absurd same scope
  · exact .fail trivial

theorem Waiting.refuses_mcp {value : String}
    (waiting : Waiting gatehouse environment Door.mcp.opensTo (trim value) world) {header : String}
    (reads : stripPrefix "Bearer " header = some value) :
    (mcpAuth gatehouse (some header)).Refuses (behindDoors gatehouse environment)
      (fun _ _ => True) world := by
  refine waiting.getAuthMode.bind_refuses fun mode reached kept => ?_
  dsimp only
  split
  · exact .fail trivial
  rw [reads]
  refine kept.identityOf.bind_refuses fun found reached shut => ?_
  cases found with
  | none => exact .fail trivial
  | some identity => cases shut identity rfl

/-- Where no credential of a token opens a door, whoever knocks with it is refused. -/
theorem Waiting.refuses_knock {door : Door} {header : String} (reads : door.reads header = some token)
    (waiting : Waiting gatehouse environment door.opensTo token world) :
    (door.knock gatehouse (some header)).Refuses (behindDoors gatehouse environment)
      (fun _ _ => True) world := by
  cases door with
  | api access => exact (waiting.refuses_api (Option.some.inj reads)).bind
  | administrative routeGuard credentials =>
      refine Program.Refuses.bind ?_
      unfold permissionAuthWith
      rw [Option.bind_some, show stripPrefix "Bearer " header = some token from reads]
      exact waiting.refuses_administrative.bind
  | signedIn =>
      refine Program.Refuses.bind ?_
      unfold authenticatedAuth
      rw [Option.bind_some, show stripPrefix "Bearer " header = some token from reads]
      refine waiting.sessionOf.bind_refuses fun found reached kept => ?_
      obtain ⟨rfl, -⟩ := kept
      exact .fail trivial
  | mcp =>
      obtain ⟨value, stripped, rfl⟩ := Option.map_eq_some_iff.mp reads
      exact (waiting.refuses_mcp stripped).bind

end Knocking

section Results

/-- A token that neither signs in nor identifies anybody at an instant is refused at every door from then
on, whatever else happens to the credentials, as long as none is issued that has this token again. -/
theorem refused_token_stays_refused (gatehouse : Gatehouse) (environment : Environment) (door : Door)
    {header : String} (token : String) (reads : door.reads header = some token)
    (earlier later : List CredentialStep) (instant : Instant) (steps : Nat)
    (session : ((credentialsAfter gatehouse.digest earlier).perform gatehouse.digest instant
      (.validateSession token)).2 = .ok none)
    (apiToken : ((credentialsAfter gatehouse.digest earlier).perform gatehouse.digest instant
      (.validateApiToken (gatehouse.digest token))).2 = .ok none)
    (spared : ∀ call ∈ later, Spares gatehouse.digest door.opensTo token call.2)
    (onward : ∀ step, steps ≤ step → instant ≤ environment.clock step) :
    ∃ refusal after, (door.knock gatehouse (some header)).run (behindDoors gatehouse environment)
      ⟨credentialsAfter gatehouse.digest (earlier ++ later), steps⟩ = some (.error refusal, after) := by
  have shut : Shut gatehouse.digest door.opensTo instant token
      (credentialsAfter gatehouse.digest earlier) :=
    (soundCredentials_after gatehouse.digest earlier).shut session apiToken
  have waiting : Waiting gatehouse environment door.opensTo token
      ⟨credentialsAfter gatehouse.digest (earlier ++ later), steps⟩ := by
    refine ⟨instant, ?_, onward⟩
    rw [credentialsAfter_append]
    exact shut.run spared
  obtain ⟨refusal, after, ran, -⟩ := waiting.refuses_knock reads
  exact ⟨refusal, after, ran⟩

/-- A deployment whose API is open to its Producers and Consumers. -/
def openGatehouse : Gatehouse where
  digest token := "digest of " ++ token
  devModeGateOpen := false
  devUser := none
  rootUsers := []
  directoryGroups _ := []
  requireProducerPermission _ _ := .error .forbidden

/-- A clock that goes on, in a store that does not fail. -/
def ticking : Environment where
  fault _ := none
  clock step := 1000 + step
  uuid _ := ""

/-- A token of one account, with its digest and its scope. -/
def tokenOf (id name token : String) (scope : ApiTokenScope) : CredentialStep :=
  (10, .createApiToken ⟨id, 1, name, openGatehouse.digest token, scope, 10, 100000, none⟩)

def firstAccount : CredentialStep := (1, .account (.createUser "ada" "" true))

/-- A revoked token is refused, also when another one has taken its name. -/
theorem refused_token_stays_refused_revoked :
    ∃ refusal after, ((Door.api .read).knock openGatehouse (some "Bearer first")).run
      (behindDoors openGatehouse ticking)
      ⟨credentialsAfter openGatehouse.digest
        ([firstAccount, tokenOf "t1" "ci" "first" .full, (20, .deleteApiToken "t1" 1)] ++
          [tokenOf "t2" "ci" "second" .full]), 0⟩ = some (.error refusal, after) :=
  refused_token_stays_refused openGatehouse ticking (.api .read) "first" (by decide) _ _ 1000 0 rfl rfl
    (by simp [Spares, tokenOf, openGatehouse]) (fun _ _ => Nat.le_add_right _ _)

/-- A token that was only ever issued in scopes that a door does not open to, and never as a session, is
refused at that door in every state. -/
theorem narrow_token_refused (gatehouse : Gatehouse) (environment : Environment) (door : Door)
    {header : String} (token : String) (reads : door.reads header = some token)
    (calls : List CredentialStep) (steps : Nat) (spared : ∀ call ∈ calls, Spares gatehouse.digest door.opensTo token call.2) :
    ∃ refusal after, (door.knock gatehouse (some header)).run (behindDoors gatehouse environment)
      ⟨credentialsAfter gatehouse.digest calls, steps⟩ = some (.error refusal, after) := by
  have empty : Shut gatehouse.digest door.opensTo 0 token ⟨{}, []⟩ :=
    { session := fun row held => by cases held
      apiToken := fun row held => by cases held }
  have waiting : Waiting gatehouse environment door.opensTo token
      ⟨credentialsAfter gatehouse.digest calls, steps⟩ :=
    ⟨0, empty.run spared, fun _ _ => Nat.zero_le _⟩
  obtain ⟨refusal, after, ran, -⟩ := waiting.refuses_knock reads
  exact ⟨refusal, after, ran⟩

/-- A read-only token does not change the catalog. -/
theorem narrow_token_refused_write :
    ∃ refusal after, ((Door.api .write).knock openGatehouse (some "Bearer first")).run
      (behindDoors openGatehouse ticking)
      ⟨credentialsAfter openGatehouse.digest [firstAccount, tokenOf "t1" "ci" "first" .readOnly], 0⟩ =
        some (.error refusal, after) :=
  narrow_token_refused openGatehouse ticking (.api .write) "first" (by decide) _ 0
    (by simp [Spares, firstAccount, tokenOf, Door.opensTo])

end Results

end Sanshain.Guarantees
