import Mathlib.Logic.Relation
import Sanshain.Effects.Evidence
import Sanshain.Guarantees.CredentialLives
import Sanshain.Guarantees.SessionVisits
import Sanshain.Infrastructure.Identities

namespace Sanshain.Guarantees

open Sanshain.Domain Sanshain.Effects Sanshain.Infrastructure Sanshain.Application

abbrev SignInEvent := Event SignInRequest SignInRequest.Answer

abbrev Visitor := Client SignInRequest SignInRequest.Answer Application.Refusal Unit

abbrev SignInPool := Pool CredentialWorld SignInRequest SignInRequest.Answer Application.Refusal Unit

section Calls

/-- A call by which the credentials of one account went to another. -/
def MergedInto (source target : Nat) (event : SignInEvent) : Prop :=
  event = ⟨.inl (.repo (.account (.mergeUserInto source target))), .ok ()⟩

/-- A call that opened a session, kept under the digest of its token. -/
inductive OpenedAs (digest : String → String) (userId : Nat) (row : SessionRow) : SignInEvent → Prop
  | mk {raw : String} {session : Session} (kept : digest raw = row.token) :
      OpenedAs digest userId row
        ⟨.inl (.repo (.account (.createSession userId raw row.expiresAt))), .ok session⟩

variable {digest : String → String} {credentials : Credentials} {environment : Environment}
  {identities : Identities} {world : CredentialWorld}

/-- A session changes its owner by a merge alone. -/
theorem sessionFate_owner {request : CredentialCall} {old row : SessionRow}
    (kept : sessionFate digest credentials request old = some row) :
    old.userId = row.userId ∨
      (request = .account (.mergeUserInto old.userId row.userId) ∧
        ∃ after, credentials.loaded.mergeUserInto old.userId row.userId = .ok after) := by
  unfold sessionFate at kept
  split at kept
  · split at kept <;> cases kept
    exact .inl rfl
  · split at kept <;> cases kept
    exact .inl rfl
  · split at kept <;> cases kept
    exact .inl rfl
  · cases kept
    left
    split <;> rfl
  · obtain ⟨owner, moved, rfl⟩ := Option.map_eq_some_iff.mp kept
    unfold ownerFate at moved
    split at moved
    · split at moved <;> cases moved
      exact .inl rfl
    · rename_i source target owner'
      split at moved
      · cases moved
        exact .inl rfl
      · rename_i after merged
        split at moved
        · cases moved
          exact .inl rfl
        · rename_i own
          split at moved <;> cases moved
          have same := not_not.mp own
          exact .inr ⟨by rw [same], after, by rw [same]; exact merged⟩
    · split at moved <;> cases moved
      exact .inl rfl
    · split at moved <;> cases moved
      exact .inl rfl
    · cases moved
      exact .inl rfl

/-- A session is opened by one call, which answers it. -/
theorem openedSession_call {request : CredentialCall} {row : SessionRow}
    (opened : openedSession digest credentials request = some row) (now : Instant) :
    ∃ raw, digest raw = row.token ∧
      request = .account (.createSession row.userId raw row.expiresAt) ∧
      (credentials.perform digest now (.account (.createSession row.userId raw row.expiresAt))).2 =
        .ok ⟨raw, row.userId, row.expiresAt⟩ := by
  unfold openedSession at opened
  split at opened
  · rename_i userId raw expiresAt
    split at opened
    · cases opened
    · rename_i free
      cases opened
      have new : digest raw ∉ credentials.loaded.sessions.map (·.token) := (not_or.mp free).1
      have known : ¬ ¬ credentials.loaded.hasUser userId := (not_or.mp free).2
      refine ⟨raw, rfl, rfl, ?_⟩
      simp only [Credentials.perform, Credentials.performAccount, Accounts.perform]
      rw [if_neg new, if_neg known]
      rfl
  · cases opened

/-- A session after a call is one from before, it has moved by a merge, or the call has opened it. -/
theorem session_before {request : SignInRequest} {row : SessionRow}
    (held : row ∈ (world.greet digest environment identities request).1.credentials.accounts.sessions) :
    (∃ old ∈ world.credentials.accounts.sessions, old.token = row.token ∧ old.expiresAt = row.expiresAt ∧
      (old.userId = row.userId ∨ MergedInto old.userId row.userId
        ⟨request, (world.greet digest environment identities request).2⟩)) ∨
    OpenedAs digest row.userId row ⟨request, (world.greet digest environment identities request).2⟩ := by
  have kept : row ∈ world.credentials.accounts.sessions →
      ∃ old ∈ world.credentials.accounts.sessions, old.token = row.token ∧
        old.expiresAt = row.expiresAt ∧ (old.userId = row.userId ∨ MergedInto old.userId row.userId
          ⟨request, (world.greet digest environment identities request).2⟩) :=
    fun among => ⟨row, among, rfl, rfl, .inl rfl⟩
  obtain ⟨unchanged, -⟩ | ⟨call, performed, event⟩ :=
    greet_cases digest environment identities world request
  · rw [unchanged] at held
    exact .inl (kept held)
  · rw [performed, sessions_perform] at held
    rw [event]
    obtain stayed | added := List.mem_append.mp held
    · obtain ⟨old, among, fate⟩ := List.mem_filterMap.mp stayed
      have same := Prod.mk.inj (sessionFate_keeps fate)
      refine .inl ⟨old, among, same.1.symm, same.2.symm, ?_⟩
      obtain own | ⟨rfl, after, merged⟩ := sessionFate_owner fate
      · exact .inl own
      · right
        simp only [MergedInto, Credentials.perform, Credentials.performAccount, Accounts.perform, merged]
    · obtain ⟨raw, stored, rfl, answered⟩ :=
        openedSession_call (Option.mem_toList.mp added) (environment.clock world.steps)
      rw [answered]
      exact .inr (.mk stored)

end Calls

section Pools

/-- Visitors at the doors, none of whom has asked for anything yet. -/
def arriving (world : CredentialWorld) (visits : List (Entrance × Visit)) : SignInPool :=
  ⟨world, visits.map fun visit => ⟨visit.2.program visit.1, []⟩⟩

/-- A visitor minds the gatehouse of the door it came to. -/
def Orderly (visits : List (Entrance × Visit)) (place : Nat)
    (client : Visitor) : Prop :=
  ∃ entrance visit, visits[place]? = some (entrance, visit) ∧
    client.Keeps (fun events => Careful events entrance.gatehouse) (fun _ _ => True) fun _ _ => True

/-- One account has been folded into another, which was known to be a person's. -/
def Folded (pool : SignInPool) (source target : Nat) : Prop :=
  pool.Happened fun _ earlier event => Person earlier target ∧ MergedInto source target event

/-- A visitor who has earned it opened the session, for an account whose credentials the owner has got. -/
def EarnedHere (digest : String → String) (visits : List (Entrance × Visit)) (pool : SignInPool)
    (row : SessionRow) : Prop :=
  ∃ userId, Relation.ReflTransGen (Folded pool) userId row.userId ∧
    pool.Happened fun place earlier event => OpenedAs digest userId row event ∧
      ∃ entrance visit, visits[place]? = some (entrance, visit) ∧ Earned earlier entrance.gatehouse userId

variable {digest : String → String} {environment : Environment} {identities : Identities}
  {visits : List (Entrance × Visit)} {pool : SignInPool}

theorem orderly_arriving (world : CredentialWorld) (visits : List (Entrance × Visit)) :
    (arriving world visits).Holds (fun _ => True) (Orderly visits) := by
  refine ⟨trivial, fun place client found => ?_⟩
  rw [arriving, List.getElem?_map, Option.map_eq_some_iff] at found
  obtain ⟨⟨entrance, visit⟩, there, rfl⟩ := found
  exact ⟨entrance, visit, there, minds_visit entrance visit []⟩

theorem orderly_turn {handle : Handler CredentialWorld SignInRequest SignInRequest.Answer}
    (orderly : pool.Holds (fun _ => True) (Orderly visits)) (place : Nat) :
    (pool.turn handle place).Holds (fun _ => True) (Orderly visits) := by
  refine orderly.turn (fun state place client request rest _ fits issued => ⟨trivial, ?_⟩) place
  obtain ⟨entrance, visit, there, keeps⟩ := fits
  exact ⟨entrance, visit, there, (keeps.turn issued _).2⟩

/-- The call that a visitor issues is careful at the door it came to. -/
theorem careful_of_orderly (orderly : pool.Holds (fun _ => True) (Orderly visits)) {place : Nat}
    {client : Visitor} {request : SignInRequest}
    {rest : request.Answer → VisitProgram}
    (found : pool.clients[place]? = some client) (issued : client.program = .call request rest) :
    ∃ entrance visit, visits[place]? = some (entrance, visit) ∧
      Careful client.history entrance.gatehouse request := by
  obtain ⟨entrance, visit, there, keeps⟩ := orderly.clients place client found
  rw [Client.Keeps, issued] at keeps
  exact ⟨entrance, visit, there, keeps.1⟩

/-- What a call does to sessions keeps them earned. -/
theorem EarnedHere.turn {row old : SessionRow} (earned : EarnedHere digest visits pool old)
    (token : old.token = row.token) (ends : old.expiresAt = row.expiresAt)
    {handle : Handler CredentialWorld SignInRequest SignInRequest.Answer} {place : Nat}
    (goes : old.userId = row.userId ∨ Folded (pool.turn handle place) old.userId row.userId) :
    EarnedHere digest visits (pool.turn handle place) row := by
  obtain ⟨userId, chain, opened⟩ := earned
  have grown : Relation.ReflTransGen (Folded (pool.turn handle place)) userId old.userId :=
    Relation.ReflTransGen.mono (fun _ _ folded => folded.turn place) _ _ chain
  refine ⟨userId, ?_, (opened.turn place).imp fun other earlier event fits => ?_⟩
  · obtain same | folded := goes
    · exact same ▸ grown
    · exact grown.tail folded
  · obtain ⟨⟨kept⟩, shown⟩ := fits
    rw [ends]
    exact ⟨.mk (kept.trans token), shown⟩

/-- The visitors are orderly, and every session since the start is earned. -/
structure AllEarned (digest : String → String) (visits : List (Entrance × Visit)) (world : CredentialWorld)
    (pool : SignInPool) : Prop where
  orderly : pool.Holds (fun _ => True) (Orderly visits)
  sessions : ∀ row ∈ pool.state.credentials.accounts.sessions,
    row.token ∈ world.credentials.accounts.sessions.map (·.token) ∨ EarnedHere digest visits pool row

theorem AllEarned.turn {world : CredentialWorld} (earned : AllEarned digest visits world pool) {place : Nat}
    {client : Visitor} {request : SignInRequest}
    {rest : request.Answer → VisitProgram}
    (found : pool.clients[place]? = some client) (issued : client.program = .call request rest) :
    AllEarned digest visits world (pool.turn (CredentialWorld.greet digest environment identities) place) := by
  refine ⟨orderly_turn earned.orderly place, fun row held => ?_⟩
  obtain ⟨entrance, visit, there, careful⟩ := careful_of_orderly earned.orderly found issued
  rw [Pool.turn_eq found issued] at held
  obtain ⟨old, among, token, ends, goes⟩ | opened := session_before held
  · refine (earned.sessions old among).imp (fun kept => token ▸ kept) fun before =>
      before.turn token ends (goes.imp id fun merged => ?_)
    refine Pool.happened_turn found issued ⟨?_, merged⟩
    obtain ⟨rfl, -⟩ := Event.mk.inj merged
    exact careful
  · refine .inr ⟨row.userId, .refl, Pool.happened_turn found issued ⟨opened, entrance, visit, there, ?_⟩⟩
    generalize (CredentialWorld.greet digest environment identities pool.state request).2 = answer at opened
    cases opened
    exact careful

/-- Every session is earned: however the visits to the doors interleave, each session that was not there
before them was opened for somebody who had confirmed a password, or whom the directory or the provider had
confirmed, for that account, and whom the mode admits; it belongs to that account, or to the person's
account that it was folded into. -/
theorem sessions_are_earned (digest : String → String) (environment : Environment)
    (identities : Identities) (world : CredentialWorld) (visits : List (Entrance × Visit))
    (schedule : List Nat) :
    ∀ row ∈ ((arriving world visits).run (CredentialWorld.greet digest environment identities)
        schedule).state.credentials.accounts.sessions,
      row.token ∈ world.credentials.accounts.sessions.map (·.token) ∨
        EarnedHere digest visits ((arriving world visits).run
          (CredentialWorld.greet digest environment identities) schedule) row := by
  have start : AllEarned digest visits world (arriving world visits) :=
    ⟨orderly_arriving world visits, fun row held => .inl (List.mem_map_of_mem held)⟩
  have ran : AllEarned digest visits world ((arriving world visits).run
      (CredentialWorld.greet digest environment identities) schedule) :=
    Pool.run_keeps start (fun _ _ _ _ _ earned found issued => earned.turn found issued) schedule
  exact ran.sessions

end Pools

section Machines

variable {digest : String → String} {environment : Environment} {identities : Identities}
  {world : CredentialWorld} {history : SignInHistory} {gatehouse : Gatehouse}

/-- An answer of the store that tells of an account. -/
inductive Tells (user : User) : SignInEvent → Prop
  | named {username : String} : Tells user ⟨.inl (.repo (.account (.findUser username))), .ok (some user)⟩
  | bound {directoryId : String} :
      Tells user ⟨.inl (.repo (.account (.findUserByDirectoryId directoryId))), .ok (some user)⟩
  | created {username hash : String} {approved : Bool} :
      Tells user ⟨.inl (.repo (.account (.createUser username hash approved))), .ok user⟩
  | signedIn {token : String} {session : Session} :
      Tells user ⟨.inl (.repo (.validateSession token)), .ok (some (user, session))⟩

/-- What a deployment never answers, where the mark of an account that never signs in is no hash. -/
inductive Dishonest : SignInEvent → Prop
  | random : Dishonest ⟨.inl .random, serviceAccountPasswordHash⟩
  | hashed {password : String} : Dishonest ⟨.inr (.hashPassword password), .ok serviceAccountPasswordHash⟩
  | matched {password : String} :
      Dishonest ⟨.inr (.verifyPassword password serviceAccountPasswordHash), .ok true⟩
  | other {username hash : String} {approved : Bool} {user : User} (differs : user.passwordHash ≠ hash) :
      Dishonest ⟨.inl (.repo (.account (.createUser username hash approved))), .ok user⟩

/-- Whoever has earned a session is a person. -/
theorem Earned.person (honest : ∀ event ∈ history, ¬ Dishonest event) {userId : Nat}
    (earned : Earned history gatehouse userId) : Person history userId := by
  cases earned with
  | password given found approved right admitted => exact .under found
  | directory given accepted account admitted => exact account.person
  | provider confirmed account admitted =>
      obtain found | made := account
      · exact .under found
      · exact .made made
  | changed signedIn right admitted =>
      refine .signedIn signedIn (Bool.eq_false_iff.mpr fun machine => ?_)
      rw [Confirmed, eq_of_beq machine] at right
      exact honest _ right .matched

/-- A person's account is one that the store has told of. -/
theorem Person.told (honest : ∀ event ∈ history, ¬ Dishonest event) {userId : Nat}
    (person : Person history userId) :
    ∃ user, user.id = userId ∧ user.isServiceAccount = false ∧ ∃ event ∈ history, Tells user event := by
  cases person with
  | under found => exact ⟨_, rfl, found.2, _, found.1, .named⟩
  | bound found => exact ⟨_, rfl, found.2, _, found.1, .bound⟩
  | signedIn answered human => exact ⟨_, rfl, human, _, answered, .signedIn⟩
  | made made =>
      rename_i username user
      obtain ⟨hash, approved, random, created⟩ := made
      refine ⟨_, rfl, Bool.eq_false_iff.mpr fun machine => ?_, _, created, .created⟩
      by_cases same : user.passwordHash = hash
      · rw [← same, eq_of_beq machine] at random
        exact honest _ random .random
      · exact honest _ created (.other same)

/-- The operation that tells of an account leaves it in the tables. -/
theorem told_of_perform {credentials : Credentials} {now : Instant} {request : CredentialCall} {user : User}
    (told : Tells user ⟨.inl (.repo request), (credentials.perform digest now request).2⟩) :
    user ∈ (credentials.perform digest now request).1.accounts.users := by
  generalize answered : (credentials.perform digest now request).2 = answer at told
  cases told with
  | named => exact List.mem_of_find?_eq_some (Except.ok.inj answered)
  | bound =>
      obtain ⟨profile, -, found⟩ := Option.bind_eq_some_iff.mp (Except.ok.inj answered)
      exact List.mem_of_find?_eq_some found
  | created =>
      simp only [Credentials.perform, Credentials.performAccount, Accounts.perform] at answered ⊢
      split at answered
      · cases answered
      · rename_i free
        rw [if_neg free, ← Except.ok.inj answered]
        exact List.mem_append_right _ (List.mem_singleton.mpr rfl)
  | signedIn =>
      obtain ⟨row, -, found⟩ := Option.bind_eq_some_iff.mp (Except.ok.inj answered)
      obtain ⟨owner, there, same⟩ := Option.map_eq_some_iff.mp found
      obtain ⟨rfl, -⟩ := Prod.mk.inj same
      exact List.mem_of_find?_eq_some there

theorem told_user {request : SignInRequest} {user : User}
    (told : Tells user ⟨request, (world.greet digest environment identities request).2⟩) :
    user ∈ (world.greet digest environment identities request).1.credentials.accounts.users := by
  obtain ⟨-, silent⟩ | ⟨call, performed, event⟩ :=
    greet_cases digest environment identities world request
  · generalize same : (⟨request, (world.greet digest environment identities request).2⟩ : SignInEvent) =
      event at told silent
    cases told <;> exact absurd rfl (silent _ _)
  · rw [performed]
    rw [event] at told
    exact told_of_perform told

/-- No deployment whose mark is no hash answers so. -/
theorem honest_greet (mark : MarkIsNoHash environment identities) (request : SignInRequest) :
    ¬ Dishonest ⟨request, (world.greet digest environment identities request).2⟩ := by
  intro dishonest
  generalize answered : (world.greet digest environment identities request).2 = answer at dishonest
  cases dishonest with
  | random => exact mark.random _ answered
  | hashed => exact mark.hashed _ _ answered
  | matched => exact mark.unmatched _ _ answered
  | other differs =>
      rename_i username hash approved user
      obtain ⟨⟨reason, failed⟩, -⟩ | ⟨-, told⟩ := greet_repo digest environment identities world
        (.account (.createUser username hash approved))
      · rw [answered] at failed
        cases failed
      · rw [answered] at told
        simp only [Credentials.perform, Credentials.performAccount, Accounts.perform] at told
        split at told
        · cases told
        · exact differs (Except.ok.inj told ▸ rfl)

theorem greet_integrity (sound : world.credentials.accounts.Integrity) (request : SignInRequest) :
    (world.greet digest environment identities request).1.credentials.accounts.Integrity := by
  obtain ⟨unchanged, -⟩ | ⟨call, performed, -⟩ := greet_cases digest environment identities world request
  · rw [unchanged]
    exact sound
  · rw [performed]
    exact Credentials.perform_integrity sound digest _ call

/-- A call that locks an account: it gets the mark for a password. -/
def LockedBy (userId : Nat) (event : SignInEvent) : Prop :=
  event = ⟨.inl (.repo (.updatePassword userId serviceAccountPasswordHash)), .ok ()⟩

/-- An account that never signs in after a call was one before, the call locked it, or it is new. -/
theorem machine_greeted {request : SignInRequest} {user : User}
    (held : user ∈ (world.greet digest environment identities request).1.credentials.accounts.users)
    (machine : user.isServiceAccount = true) :
    (∃ old ∈ world.credentials.accounts.users, old.id = user.id ∧ old.isServiceAccount = true) ∨
      LockedBy user.id ⟨request, (world.greet digest environment identities request).2⟩ ∨
        user.id = world.credentials.accounts.nextUserId := by
  obtain ⟨unchanged, -⟩ | ⟨call, performed, event⟩ :=
    greet_cases digest environment identities world request
  · rw [unchanged] at held
    exact .inl ⟨user, held, rfl, machine⟩
  · rw [performed] at held
    rw [event]
    obtain before | rfl | new := machine_before held machine
    · exact .inl before
    · exact .inr (.inl rfl)
    · exact .inr (.inr new)

theorem nextUserId_greet (request : SignInRequest) :
    world.credentials.accounts.nextUserId ≤
      (world.greet digest environment identities request).1.credentials.accounts.nextUserId := by
  obtain ⟨unchanged, -⟩ | ⟨call, performed, -⟩ := greet_cases digest environment identities world request
  · rw [unchanged]
  · rw [performed]
    exact nextUserId_le call

/-- The account of dev mode was found to have a password, and was locked. -/
def LockedHere (pool : SignInPool) (userId : Nat) : Prop :=
  pool.Happened fun _ earlier event => FoundDevUser earlier userId ∧ LockedBy userId event

/-- An account that exists or did, and never signs in only since it was locked. -/
structure Humane (pool : SignInPool) (userId : Nat) : Prop where
  known : userId < pool.state.credentials.accounts.nextUserId
  person : ∀ user ∈ pool.state.credentials.accounts.users, user.id = userId →
    user.isServiceAccount = true → LockedHere pool userId

/-- Whoever the visitors have been told of as a person is one, and so is whoever has a session. -/
structure NoMachines (visits : List (Entrance × Visit)) (pool : SignInPool) : Prop where
  orderly : pool.Holds (fun _ => True) (Orderly visits)
  sound : pool.state.credentials.accounts.Integrity
  honest : ∀ (place : Nat) client, pool.clients[place]? = some client →
    ∀ event ∈ client.history, ¬ Dishonest event
  told : ∀ (place : Nat) client, pool.clients[place]? = some client → ∀ event ∈ client.history,
    ∀ user, Tells user event → user.isServiceAccount = false → Humane pool user.id
  sessions : ∀ row ∈ pool.state.credentials.accounts.sessions, Humane pool row.userId

section Turns

variable {visits : List (Entrance × Visit)} {pool : SignInPool} {place : Nat}
  {client : Visitor} {request : SignInRequest}
  {rest : request.Answer → VisitProgram}

theorem NoMachines.humane (none : NoMachines visits pool) (found : pool.clients[place]? = some client)
    {userId : Nat} (person : Person client.history userId) : Humane pool userId := by
  obtain ⟨user, rfl, human, event, among, tells⟩ := person.told (none.honest place client found)
  exact none.told place client found event among user tells human

/-- A person stays one, unless the account is that of dev mode and the call locks it. -/
theorem Humane.turn {userId : Nat} (humane : Humane pool userId) (none : NoMachines visits pool)
    (found : pool.clients[place]? = some client) (issued : client.program = .call request rest) :
    Humane (pool.turn (CredentialWorld.greet digest environment identities) place) userId := by
  refine ⟨?_, fun user held own machine => ?_⟩
  · rw [Pool.turn_eq found issued]
    exact humane.known.trans_le (nextUserId_greet request)
  · rw [Pool.turn_eq found issued] at held
    obtain ⟨old, among, same, marked⟩ | locked | new := machine_greeted held machine
    · exact (humane.person old among (same.trans own) marked).turn place
    · rw [own] at locked
      obtain ⟨entrance, visit, there, careful⟩ := careful_of_orderly none.orderly found issued
      refine Pool.happened_turn found issued ⟨?_, locked⟩
      obtain ⟨rfl, -⟩ := Event.mk.inj locked
      obtain dev | ⟨password, hashed⟩ := careful rfl
      · exact dev
      · exact absurd .hashed (none.honest place client found _ hashed)
    · exact absurd (own ▸ new) humane.known.ne

/-- What a visitor is told of by a call is known after it. -/
theorem humane_told (none : NoMachines visits pool) (found : pool.clients[place]? = some client)
    (issued : client.program = .call request rest) {user : User}
    (tells : Tells user ⟨request, (CredentialWorld.greet digest environment identities pool.state request).2⟩)
    (human : user.isServiceAccount = false) :
    Humane (pool.turn (CredentialWorld.greet digest environment identities) place) user.id := by
  have sound : (CredentialWorld.greet digest environment identities pool.state
      request).1.credentials.accounts.Integrity := greet_integrity none.sound request
  have among := told_user tells
  refine ⟨?_, fun other held own machine => ?_⟩
  · rw [Pool.turn_eq found issued]
    exact sound.userBelow user among
  · rw [Pool.turn_eq found issued] at held
    rw [List.inj_on_of_nodup_map sound.userIds held among own, human] at machine
    cases machine

theorem NoMachines.turn (mark : MarkIsNoHash environment identities) (none : NoMachines visits pool)
    (found : pool.clients[place]? = some client) (issued : client.program = .call request rest) :
    NoMachines visits (pool.turn (CredentialWorld.greet digest environment identities) place) := by
  refine ⟨orderly_turn none.orderly place, ?_, fun other later there event among => ?_,
    fun other later there event among user tells human => ?_, fun row held => ?_⟩
  · rw [Pool.turn_eq found issued]
    exact greet_integrity none.sound request
  · obtain rfl | ⟨earlier, known, held⟩ := Pool.recorded_before found issued there among
    · exact honest_greet mark request
    · exact none.honest other earlier known event held
  · obtain rfl | ⟨earlier, known, held⟩ := Pool.recorded_before found issued there among
    · exact humane_told none found issued tells human
    · exact (none.told other earlier known event held user tells human).turn none found issued
  · rw [Pool.turn_eq found issued] at held
    obtain ⟨entrance, visit, there, careful⟩ := careful_of_orderly none.orderly found issued
    obtain ⟨old, among, -, -, same | merged⟩ | opened := session_before held
    · exact same ▸ (none.sessions old among).turn none found issued
    · obtain ⟨rfl, -⟩ := Event.mk.inj merged
      exact (none.humane found careful).turn none found issued
    · generalize (CredentialWorld.greet digest environment identities pool.state request).2 = answer
        at opened
      cases opened
      have person := Earned.person (none.honest place client found) careful
      exact (none.humane found person).turn none found issued

end Turns

/-- Accounts that never sign in hold no session: however the visits to the doors interleave, where they
held none before, a session of such an account is one of the account of dev mode, which one of the visits
found to have a password, and locked. -/
theorem machine_accounts_hold_no_sessions (digest : String → String) (environment : Environment)
    (identities : Identities) (mark : MarkIsNoHash environment identities) (world : CredentialWorld)
    (sound : world.credentials.accounts.Integrity)
    (free : ∀ row ∈ world.credentials.accounts.sessions, ∀ user ∈ world.credentials.accounts.users,
      user.id = row.userId → user.isServiceAccount = false)
    (visits : List (Entrance × Visit)) (schedule : List Nat) :
    let after := (arriving world visits).run (CredentialWorld.greet digest environment identities) schedule
    ∀ row ∈ after.state.credentials.accounts.sessions, ∀ user ∈ after.state.credentials.accounts.users,
      user.id = row.userId → user.isServiceAccount = true → LockedHere after row.userId := by
  have fresh : ∀ (place : Nat) client, (arriving world visits).clients[place]? = some client →
      client.history = [] := by
    intro place client found
    rw [arriving, List.getElem?_map, Option.map_eq_some_iff] at found
    obtain ⟨-, -, rfl⟩ := found
    rfl
  have start : NoMachines visits (arriving world visits) := by
    refine ⟨orderly_arriving world visits, sound, fun place client found event among => ?_,
      fun place client found event among => ?_, fun row held => ⟨?_, fun user among own machine => ?_⟩⟩
    · rw [fresh place client found] at among
      cases among
    · rw [fresh place client found] at among
      cases among
    · obtain ⟨user, among, own⟩ := List.mem_map.mp (sound.sessionsKnown row held)
      rw [← own]
      exact sound.userBelow user among
    · rw [free row held user among own] at machine
      cases machine
  have ran : NoMachines visits ((arriving world visits).run
      (CredentialWorld.greet digest environment identities) schedule) :=
    Pool.run_keeps start (fun _ _ _ _ _ none found issued => none.turn mark found issued) schedule
  exact fun row held user among own machine => (ran.sessions row held).person user among own machine

end Machines

section Runs

/-- Passwords that are kept as they were hashed, and no provider. -/
def plainIdentities : Identities where
  answer _ request := match request with
    | .hashPassword password => .ok ("hash of " ++ password)
    | .verifyPassword password hash => .ok (hash == "hash of " ++ password)
    | .authenticate _ _ _ => .error "no directory"
    | .authorizeUrl _ | .exchangeAndVerify _ _ _ _ => .error .unauthorized

/-- An instance in dev mode that still has the password of the account of dev mode. -/
def oldDevWorld : CredentialWorld where
  credentials :=
    { accounts :=
        { users := [⟨1, devUserName, "hash of dev", true⟩]
          nextUserId := 2
          roles := [(1, "admin")]
          settings := [("auth_mode", "dev")] } }

def devEntrance : Entrance where
  gatehouse := { openGatehouse with devModeGateOpen := true }
  forms := ⟨fun _ => .error "none", fun _ => .error "none"⟩
  gravatarKey := id
  tokenForms := plainForms

/-- Somebody signs in with that password before the API locks the account. -/
def devVisits : List (Entrance × Visit) :=
  [(devEntrance, .login devUserName "dev"), (devEntrance, .api .read none)]

def devSchedule : List Nat := List.replicate 20 0 ++ List.replicate 9 1

def devSession : SessionRow := ⟨"digest of ", 1, 605805, some .local⟩

theorem sessions_are_earned_dev :
    EarnedHere openGatehouse.digest devVisits ((arriving oldDevWorld devVisits).run
      (CredentialWorld.greet openGatehouse.digest ticking plainIdentities) devSchedule) devSession :=
  (sessions_are_earned openGatehouse.digest ticking plainIdentities oldDevWorld devVisits devSchedule
    devSession (by decide)).resolve_left (by decide)

/-- No plain hash begins like the mark. -/
theorem plainIdentities_mark : MarkIsNoHash ticking plainIdentities where
  random _ := by simp [ticking, serviceAccountPasswordHash]
  hashed step password same := by
    have begins := congrArg (fun text => text.toList.head?) (Except.ok.inj same)
    simp [serviceAccountPasswordHash] at begins
  unmatched step password same := by
    have begins := congrArg (fun text => text.toList.head?) (eq_of_beq (Except.ok.inj same))
    simp [serviceAccountPasswordHash] at begins

theorem oldDevWorld_integrity : oldDevWorld.credentials.accounts.Integrity := by
  constructor <;> simp [oldDevWorld]

theorem machine_accounts_hold_no_sessions_dev :
    LockedHere ((arriving oldDevWorld devVisits).run
      (CredentialWorld.greet openGatehouse.digest ticking plainIdentities) devSchedule) 1 :=
  machine_accounts_hold_no_sessions openGatehouse.digest ticking plainIdentities plainIdentities_mark
    oldDevWorld oldDevWorld_integrity (by decide) devVisits devSchedule devSession (by decide)
    ⟨1, devUserName, serviceAccountPasswordHash, true⟩ (by decide) rfl rfl

end Runs

end Sanshain.Guarantees
