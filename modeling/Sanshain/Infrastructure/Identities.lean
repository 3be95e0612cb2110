import Sanshain.Effects.Beside
import Sanshain.Infrastructure.Credentials

namespace Sanshain.Infrastructure

open Sanshain.Domain Sanshain.Effects

/-- Passwords and providers, whose answers may differ from call to call. -/
structure Identities where
  answer : Nat → (request : IdentityCall) → request.Answer

/-- A call at the door: on the credential tables, or to whoever knows an identity. -/
def CredentialWorld.greet (digest : String → String) (environment : Environment)
    (identities : Identities) : Handler CredentialWorld SignInRequest SignInRequest.Answer :=
  (CredentialWorld.handle digest environment).beside fun world request =>
    (⟨world.credentials, world.steps + 1⟩, identities.answer world.steps request)

/-- The mark of an account that never signs in is no hash: no password is given it, and none matches it. -/
structure MarkIsNoHash (environment : Environment) (identities : Identities) : Prop where
  random : ∀ step, environment.uuid step ≠ serviceAccountPasswordHash
  hashed : ∀ step password, identities.answer step (.hashPassword password) ≠ .ok serviceAccountPasswordHash
  unmatched : ∀ step password,
    identities.answer step (.verifyPassword password serviceAccountPasswordHash) ≠ .ok true

section Calls

/-- A call of the store either fails and changes nothing, or is performed at its instant. -/
theorem greet_repo (digest : String → String) (environment : Environment) (identities : Identities)
    (world : CredentialWorld) (request : CredentialCall) :
    ((∃ reason, (world.greet digest environment identities (.inl (.repo request))).2 =
        .error (.internal reason)) ∧
      (world.greet digest environment identities (.inl (.repo request))).1.credentials =
        world.credentials) ∨
    ((world.greet digest environment identities (.inl (.repo request))).1.credentials =
        (world.credentials.perform digest (environment.clock world.steps) request).1 ∧
      (world.greet digest environment identities (.inl (.repo request))).2 =
        (world.credentials.perform digest (environment.clock world.steps) request).2) := by
  simp only [CredentialWorld.greet, Handler.beside, CredentialWorld.handle]
  cases environment.fault world.steps with
  | some reason => exact .inl ⟨⟨reason, rfl⟩, rfl⟩
  | none => exact .inr ⟨rfl, rfl⟩

/-- A call leaves the tables, and the store has answered nothing, or it is performed at its instant. -/
theorem greet_cases (digest : String → String) (environment : Environment) (identities : Identities)
    (world : CredentialWorld) (request : SignInRequest) :
    ((world.greet digest environment identities request).1.credentials = world.credentials ∧
      ∀ call value, (⟨request, (world.greet digest environment identities request).2⟩ :
        Event SignInRequest SignInRequest.Answer) ≠ ⟨.inl (.repo call), .ok value⟩) ∨
    ∃ call,
      (world.greet digest environment identities request).1.credentials =
        (world.credentials.perform digest (environment.clock world.steps) call).1 ∧
      (⟨request, (world.greet digest environment identities request).2⟩ :
        Event SignInRequest SignInRequest.Answer) =
          ⟨.inl (.repo call), (world.credentials.perform digest (environment.clock world.steps) call).2⟩ := by
  cases request with
  | inr asked => exact .inl ⟨rfl, fun call value same => by cases same⟩
  | inl request =>
      cases request with
      | now | random => exact .inl ⟨rfl, fun call value same => by cases same⟩
      | repo call =>
          obtain ⟨⟨reason, failed⟩, unchanged⟩ | ⟨performed, answered⟩ :=
            greet_repo digest environment identities world call
          · refine .inl ⟨unchanged, fun other value same => ?_⟩
            rw [failed] at same
            cases same
          · exact .inr ⟨call, performed, by rw [answered]⟩

end Calls

section Users

namespace Accounts

theorem mem_users_deleteUsers {gone : List Nat} {accounts : Accounts} {user : User}
    (held : user ∈ (gone.foldl deleteUser accounts).users) : user ∈ accounts.users := by
  induction gone generalizing accounts with
  | nil => exact held
  | cons userId rest ih => exact List.mem_of_mem_filter (ih held)

/-- An account after an operation on accounts is as it was but for its name, or it is new. -/
theorem user_before {accounts : Accounts} {request : AccountCall} {user : User}
    (held : user ∈ (accounts.perform request).1.users) :
    (∃ old ∈ accounts.users, old.id = user.id ∧ old.passwordHash = user.passwordHash) ∨
      user.id = accounts.nextUserId := by
  have kept : user ∈ accounts.users →
      (∃ old ∈ accounts.users, old.id = user.id ∧ old.passwordHash = user.passwordHash) ∨
        user.id = accounts.nextUserId := fun among => .inl ⟨user, among, rfl, rfl⟩
  cases request with
  | createUser username passwordHash approved =>
      simp only [perform] at held
      split at held
      · exact kept held
      · obtain among | made := List.mem_append.mp held
        · exact kept among
        · rw [List.mem_singleton] at made
          subst made
          exact .inr rfl
  | deleteUser userId => exact kept (List.mem_of_mem_filter held)
  | renameUser userId username =>
      simp only [perform] at held
      split at held
      · exact kept held
      · obtain ⟨old, among, rfl⟩ := List.mem_map.mp held
        refine .inl ⟨old, among, ?_⟩
        split <;> exact ⟨rfl, rfl⟩
  | mergeUserInto source target =>
      simp only [perform] at held
      split at held
      · rename_i after merged
        rw [mergeUserInto_ok merged] at held
        exact kept (List.mem_of_mem_filter held)
      · exact kept held
  | setDirectoryId | setDisplayName | setAvatarHash | recordUserSignIn | createSession | grantUserRole
  | createGroup | renameGroup | setGroupRoles | addGroupMember =>
      simp only [perform] at held
      split at held <;> first
        | exact kept held
        | (split at held <;> exact kept held)
  | _ => exact kept held

theorem nextUserId_deleteUsers (gone : List Nat) (accounts : Accounts) :
    (gone.foldl deleteUser accounts).nextUserId = accounts.nextUserId := by
  induction gone generalizing accounts with
  | nil => rfl
  | cons userId rest ih => exact ih (accounts.deleteUser userId)

/-- An identifier is given to one account in all. -/
theorem nextUserId_perform (accounts : Accounts) (request : AccountCall) :
    accounts.nextUserId ≤ (accounts.perform request).1.nextUserId := by
  cases request with
  | createUser username passwordHash approved =>
      simp only [perform]
      split
      · exact Nat.le_refl _
      · exact Nat.le_succ _
  | mergeUserInto source target =>
      simp only [perform]
      split
      · rename_i after merged
        rw [mergeUserInto_ok merged]
        exact Nat.le_refl _
      · exact Nat.le_refl _
  | renameUser | setDirectoryId | setDisplayName | setAvatarHash | recordUserSignIn | createSession
  | grantUserRole | createGroup | renameGroup | setGroupRoles | addGroupMember =>
      simp only [perform]
      split <;> first
        | exact Nat.le_refl _
        | (split <;> exact Nat.le_refl _)
  | _ => exact Nat.le_refl _

end Accounts

variable {digest : String → String} {now : Instant} {credentials : Credentials}

theorem nextUserId_le (request : CredentialCall) :
    credentials.accounts.nextUserId ≤
      (credentials.perform digest now request).1.accounts.nextUserId := by
  cases request with
  | account operation =>
      cases operation with
      | createSession userId token expiresAt =>
          exact credentials.loaded.nextUserId_perform (.createSession userId (digest token) expiresAt)
      | setSessionSignIn token method =>
          exact credentials.loaded.nextUserId_perform (.setSessionSignIn (digest token) method)
      | _ => exact credentials.loaded.nextUserId_perform _
  | createApiToken token =>
      simp only [Credentials.perform]
      split
      · exact Nat.le_refl _
      · split <;> exact Nat.le_refl _
  | deleteNonAdminUsers spare => exact (Accounts.nextUserId_deleteUsers _ _).ge
  | nukeDatabase keep =>
      have same := Accounts.nextUserId_deleteUsers (credentials.userIds.filter fun userId => some userId ≠ keep)
        { credentials.accounts with
          maintainers := []
          groupMaintainers := []
          sessions := credentials.accounts.sessions.filter fun row => some row.userId = keep }
      exact same.ge
  | _ => exact Nat.le_refl _

/-- Nobody becomes an account that never signs in but by the mark, or by being made so. -/
theorem machine_before {request : CredentialCall} {user : User}
    (held : user ∈ (credentials.perform digest now request).1.accounts.users)
    (machine : user.isServiceAccount = true) :
    (∃ old ∈ credentials.accounts.users, old.id = user.id ∧ old.isServiceAccount = true) ∨
      request = .updatePassword user.id serviceAccountPasswordHash ∨
        user.id = credentials.accounts.nextUserId := by
  have kept : user ∈ credentials.accounts.users →
      (∃ old ∈ credentials.accounts.users, old.id = user.id ∧ old.isServiceAccount = true) ∨
        request = .updatePassword user.id serviceAccountPasswordHash ∨
          user.id = credentials.accounts.nextUserId := fun among => .inl ⟨user, among, rfl, machine⟩
  have operated {operation : AccountCall} (there : user ∈ (credentials.loaded.perform operation).1.users) :
      (∃ old ∈ credentials.accounts.users, old.id = user.id ∧ old.isServiceAccount = true) ∨
        request = .updatePassword user.id serviceAccountPasswordHash ∨
          user.id = credentials.accounts.nextUserId := by
    obtain ⟨old, among, same, hash⟩ | new := Accounts.user_before there
    · refine .inl ⟨old, among, same, ?_⟩
      rw [User.isServiceAccount, hash]
      exact machine
    · exact .inr (.inr new)
  cases request with
  | account operation =>
      cases operation with
      | createSession userId token expiresAt =>
          exact @operated (.createSession userId (digest token) expiresAt) held
      | setSessionSignIn token method => exact @operated (.setSessionSignIn (digest token) method) held
      | _ => exact operated held
  | approveUser userId =>
      obtain ⟨old, among, rfl⟩ := List.mem_map.mp held
      refine .inl ⟨old, among, ?_⟩
      split at machine <;> split <;> exact ⟨rfl, machine⟩
  | updatePassword userId newHash =>
      obtain ⟨old, among, rfl⟩ := List.mem_map.mp held
      split at machine
      · rename_i same
        rw [if_pos same]
        exact .inr (.inl (by rw [← eq_of_beq machine, same]))
      · rename_i other
        rw [if_neg other]
        exact .inl ⟨old, among, rfl, machine⟩
  | createApiToken token =>
      simp only [Credentials.perform] at held
      split at held
      · exact kept held
      · split at held <;> exact kept held
  | deleteNonAdminUsers spare => exact kept (Accounts.mem_users_deleteUsers held)
  | nukeDatabase keep =>
      have among := Accounts.mem_users_deleteUsers held
      exact kept among
  | _ => exact kept held

end Users

end Sanshain.Infrastructure
