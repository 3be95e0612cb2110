import Sanshain.History.Register
import Sanshain.Infrastructure.Credentials

namespace Sanshain.Guarantees

open Sanshain.Domain Sanshain.Effects Sanshain.History Sanshain.Infrastructure

/-- A call of the credential store at its instant. -/
abbrev CredentialStep := Instant × CredentialCall

section Fates

variable (digest : String → String) (credentials : Credentials)

/-- Where an account's credentials go: along with the account, or to the one it is merged into. -/
def ownerFate : CredentialCall → Nat → Option Nat
  | .account (.deleteUser userId), owner => if owner = userId then none else some owner
  | .account (.mergeUserInto source target), owner =>
      match credentials.loaded.mergeUserInto source target with
      | .error _ => some owner
      | .ok _ => if owner ≠ source then some owner else if target ≠ source then some target else none
  | .deleteNonAdminUsers spare, owner => if credentials.doomed spare owner then none else some owner
  | .nukeDatabase keep, owner => if some owner = keep then some owner else none
  | _, owner => some owner

/-- What a call makes of one session. -/
def sessionFate : CredentialCall → SessionRow → Option SessionRow
  | .deleteSession token, row => if row.token = digest token then none else some row
  | .deleteExpiredSessions cutoff, row => if row.expiresAt < cutoff then none else some row
  | .deleteNonAdminSessions spare, row =>
      if credentials.doomed spare row.userId then none else some row
  | .account (.setSessionSignIn token method), row =>
      some (if row.token = digest token then { row with signIn := some method } else row)
  | request, row =>
      (ownerFate credentials request row.userId).map fun owner => { row with userId := owner }

/-- The session that a call opens. -/
def openedSession : CredentialCall → Option SessionRow
  | .account (.createSession userId token expiresAt) =>
      if digest token ∈ credentials.accounts.sessions.map (·.token) ∨
          ¬ credentials.accounts.hasUser userId then none
      else some ⟨digest token, userId, expiresAt, none⟩
  | _ => none

/-- What a call makes of one API token. -/
def apiTokenFate : CredentialCall → StoredApiToken → Option StoredApiToken
  | .deleteApiToken tokenId userId, row =>
      if row.id = tokenId ∧ row.userId = userId then none else some row
  | .deleteExpiredApiTokens cutoff, row => if row.expiresAt < cutoff then none else some row
  | .deleteNonAdminApiTokens spare, row =>
      if credentials.doomed spare row.userId then none else some row
  | .touchApiToken tokenId usedAt, row =>
      some (if row.id = tokenId then { row with lastUsedAt := some usedAt } else row)
  | request, row =>
      (ownerFate credentials request row.userId).map fun owner => { row with userId := owner }

/-- The API token that a call creates. -/
def createdApiToken : CredentialCall → Option StoredApiToken
  | .createApiToken token =>
      if credentials.tokenTaken token ∨ ¬ credentials.accounts.hasUser token.userId then none
      else some (StoredApiToken.ofNew token)
  | _ => none

end Fates

section Laws

variable {Row : Type} {rows : List Row} {fate : Row → Option Row}

/-- A step that leaves the rows as they are. -/
theorem rows_kept {after : List Row} (same : after = rows) (keeps : ∀ row, fate row = some row) :
    after = rows.filterMap fate ++ [] := by
  rw [List.append_nil, funext keeps, List.filterMap_some, same]

/-- A step that drops rows. -/
theorem rows_filtered {keep : Row → Bool}
    (same : ∀ row ∈ rows, fate row = if keep row then some row else none) :
    rows.filter keep = rows.filterMap fate ++ [] := by
  rw [List.append_nil, List.filterMap_congr same, ← List.filterMap_eq_filter]
  rfl

/-- A step that changes rows. -/
theorem rows_changed {change : Row → Row} (same : ∀ row, fate row = some (change row)) :
    rows.map change = rows.filterMap fate ++ [] := by
  rw [List.append_nil, funext same, ← List.filterMap_eq_map]
  rfl

/-- A step that changes rows and then drops some. -/
theorem rows_moved {change : Row → Row} {keep : Row → Bool}
    (same : ∀ row, fate row = if keep (change row) then some (change row) else none) :
    (rows.map change).filter keep = rows.filterMap fate ++ [] := by
  rw [List.append_nil, ← List.filterMap_eq_filter, List.filterMap_map]
  exact congrArg (rows.filterMap ·) (funext same).symm

theorem deleteUsers_sessions (gone : List Nat) (accounts : Accounts) :
    (gone.foldl Accounts.deleteUser accounts).sessions =
      accounts.sessions.filter (·.userId ∉ gone) := by
  induction gone generalizing accounts with
  | nil => simp
  | cons userId rest ih =>
      rw [List.foldl_cons, ih, Accounts.deleteUser, List.filter_filter]
      refine List.filter_congr fun row _ => ?_
      by_cases own : row.userId = userId <;> simp [own]

variable {credentials : Credentials}

theorem mem_doomed {spare : List String} {owner : Nat} :
    owner ∈ credentials.userIds.filter (credentials.doomed spare) ↔
      credentials.doomed spare owner = true := by
  rw [List.mem_filter, and_iff_right_iff_imp]
  intro doomed
  obtain ⟨user, among, own⟩ := List.any_eq_true.mp doomed
  simp only [Bool.and_eq_true, decide_eq_true_eq] at own
  exact List.mem_map.mpr ⟨user, among, own.1.1⟩

/-- Most operations on accounts leave the sessions. -/
theorem sessions_frame (accounts : Accounts) {request : AccountCall}
    (creates : ∀ userId token expiresAt, request ≠ .createSession userId token expiresAt)
    (signs : ∀ token method, request ≠ .setSessionSignIn token method)
    (deletes : ∀ userId, request ≠ .deleteUser userId)
    (merges : ∀ source target, request ≠ .mergeUserInto source target) :
    (accounts.perform request).1.sessions = accounts.sessions := by
  cases request with
  | createSession userId token expiresAt => exact absurd rfl (creates userId token expiresAt)
  | setSessionSignIn token method => exact absurd rfl (signs token method)
  | deleteUser userId => exact absurd rfl (deletes userId)
  | mergeUserInto source target => exact absurd rfl (merges source target)
  | setDirectoryId userId directoryId =>
      simp only [Accounts.perform]
      split
      · rfl
      · split <;> rfl
  | createUser | renameUser | setDisplayName | setAvatarHash | recordUserSignIn | grantUserRole
  | createGroup | renameGroup | setGroupRoles | addGroupMember =>
      simp only [Accounts.perform]
      split <;> rfl
  | _ => rfl

/-- The sessions after an operation on accounts. -/
theorem sessions_performAccount (digest : String → String) (request : AccountCall) :
    (Credentials.performAccount digest credentials.loaded request).1.sessions =
      credentials.accounts.sessions.filterMap (sessionFate digest credentials (.account request)) ++
        (openedSession digest credentials (.account request)).toList := by
  cases request with
  | createSession userId token expiresAt =>
      have kept : credentials.accounts.sessions.filterMap (sessionFate digest credentials
          (.account (.createSession userId token expiresAt))) = credentials.accounts.sessions :=
        List.filterMap_some
      rw [kept]
      simp only [Credentials.performAccount, Accounts.perform, openedSession]
      change (if digest token ∈ credentials.accounts.sessions.map (·.token) then _ else
        if ¬ credentials.accounts.hasUser userId then _ else _ :
          Accounts × Except RepositoryError Session).1.sessions = _
      by_cases taken : digest token ∈ credentials.accounts.sessions.map (·.token)
      · rw [if_pos taken, if_pos (.inl taken)]
        exact (List.append_nil _).symm
      · by_cases known : credentials.accounts.hasUser userId
        · rw [if_neg taken, if_neg (not_not.mpr known),
            if_neg (not_or.mpr ⟨taken, not_not.mpr known⟩)]
          rfl
        · rw [if_neg taken, if_pos known, if_pos (.inr known)]
          exact (List.append_nil _).symm
  | setSessionSignIn token method => exact rows_changed fun row => rfl
  | deleteUser userId =>
      refine rows_filtered fun row _ => ?_
      by_cases own : row.userId = userId <;> simp [sessionFate, ownerFate, own]
  | mergeUserInto source target =>
      simp only [Credentials.performAccount, Accounts.perform]
      cases merged : credentials.loaded.mergeUserInto source target with
      | error error => exact rows_kept rfl fun row => by simp [sessionFate, ownerFate, merged]
      | ok after =>
          rw [Accounts.mergeUserInto_ok merged]
          refine rows_moved fun row => ?_
          simp only [sessionFate, ownerFate, merged]
          by_cases own : row.userId = source
          · by_cases same : target = source <;> simp [own, same]
          · simp [own]
  | _ =>
      exact rows_kept (sessions_frame _ (fun _ _ _ same => by cases same) (fun _ _ same => by cases same)
        (fun _ same => by cases same) (fun _ _ same => by cases same)) fun row => rfl

/-- The sessions after a call: what it makes of each, and the one it opens. -/
theorem sessions_perform (digest : String → String) (now : Instant) (request : CredentialCall) :
    (credentials.perform digest now request).1.accounts.sessions =
      credentials.accounts.sessions.filterMap (sessionFate digest credentials request) ++
        (openedSession digest credentials request).toList := by
  cases request with
  | account request => exact sessions_performAccount digest request
  | deleteSession token =>
      refine rows_filtered fun row _ => ?_
      by_cases own : row.token = digest token <;> simp [sessionFate, own]
  | deleteExpiredSessions cutoff =>
      refine rows_filtered fun row _ => ?_
      by_cases expired : row.expiresAt < cutoff <;> simp [sessionFate, expired]
  | deleteNonAdminSessions spare =>
      refine rows_filtered fun row _ => ?_
      cases gone : credentials.doomed spare row.userId <;> simp [sessionFate, gone]
  | deleteNonAdminUsers spare =>
      refine (deleteUsers_sessions _ _).trans (rows_filtered fun row _ => ?_)
      simp only [sessionFate, ownerFate, mem_doomed]
      cases credentials.doomed spare row.userId <;> simp
  | nukeDatabase keep =>
      refine (deleteUsers_sessions _ _).trans ?_
      rw [List.filter_filter]
      refine rows_filtered fun row _ => ?_
      simp only [sessionFate, ownerFate]
      by_cases kept : some row.userId = keep
      · subst kept
        simp
      · simp [kept]
  | createApiToken token =>
      refine rows_kept ?_ fun row => rfl
      simp only [Credentials.perform]
      split
      · rfl
      · split <;> rfl
  | _ => exact rows_kept rfl fun row => rfl

/-- API tokens move with their account. -/
theorem apiTokens_account (digest : String → String) (now : Instant) (request : AccountCall) :
    (credentials.perform digest now (.account request)).1.apiTokens =
      credentials.apiTokens.filterMap (apiTokenFate credentials (.account request)) ++ [] := by
  cases request with
  | deleteUser userId =>
      refine rows_filtered fun row _ => ?_
      by_cases own : row.userId = userId <;> simp [apiTokenFate, ownerFate, own]
  | mergeUserInto source target =>
      simp only [Credentials.perform, Credentials.apiTokensAfter]
      cases merged : credentials.loaded.mergeUserInto source target with
      | error error => exact rows_kept rfl fun row => by simp [apiTokenFate, ownerFate, merged]
      | ok after =>
          refine rows_moved fun row => ?_
          simp only [apiTokenFate, ownerFate, merged]
          by_cases own : row.userId = source
          · by_cases same : target = source <;> simp [own, same]
          · simp [own]
  | _ => exact rows_kept rfl fun row => rfl

/-- The API tokens after a call: what it makes of each, and the one it creates. -/
theorem apiTokens_perform (digest : String → String) (now : Instant) (request : CredentialCall) :
    (credentials.perform digest now request).1.apiTokens =
      credentials.apiTokens.filterMap (apiTokenFate credentials request) ++
        (createdApiToken credentials request).toList := by
  cases request with
  | account request => exact apiTokens_account digest now request
  | createApiToken token =>
      have kept : credentials.apiTokens.filterMap (apiTokenFate credentials (.createApiToken token)) =
          credentials.apiTokens := List.filterMap_some
      rw [kept]
      simp only [Credentials.perform, createdApiToken]
      by_cases taken : credentials.tokenTaken token = true
      · rw [if_pos taken, if_pos (.inl taken)]
        exact (List.append_nil _).symm
      · by_cases known : credentials.accounts.hasUser token.userId
        · rw [if_neg taken, if_neg (not_not.mpr known),
            if_neg (not_or.mpr ⟨taken, not_not.mpr known⟩)]
          rfl
        · rw [if_neg taken, if_pos known, if_pos (.inr known)]
          exact (List.append_nil _).symm
  | deleteApiToken tokenId userId =>
      refine rows_filtered fun row _ => ?_
      by_cases own : row.id = tokenId ∧ row.userId = userId <;> simp [apiTokenFate, own]
  | touchApiToken tokenId usedAt => exact rows_changed fun row => rfl
  | deleteExpiredApiTokens cutoff =>
      refine rows_filtered fun row _ => ?_
      by_cases expired : row.expiresAt < cutoff <;> simp [apiTokenFate, expired]
  | deleteNonAdminApiTokens spare =>
      refine rows_filtered fun row _ => ?_
      cases gone : credentials.doomed spare row.userId <;> simp [apiTokenFate, gone]
  | deleteNonAdminUsers spare =>
      refine rows_filtered fun row _ => ?_
      simp only [apiTokenFate, ownerFate, mem_doomed]
      cases credentials.doomed spare row.userId <;> simp
  | nukeDatabase keep =>
      simp only [Credentials.perform, Credentials.nuke, Credentials.deleteUsers]
      rw [List.filter_filter]
      refine rows_filtered fun row _ => ?_
      simp only [apiTokenFate, ownerFate]
      by_cases kept : some row.userId = keep
      · subst kept
        simp
      · simp [kept]
  | _ => exact rows_kept rfl fun row => rfl

end Laws

section Registers

/-- The sessions, over runs of calls. -/
def sessionRegister (digest : String → String) : Register Credentials CredentialStep SessionRow where
  step := Credentials.step digest
  rows credentials := credentials.accounts.sessions
  fate credentials call := sessionFate digest credentials call.2
  added credentials call := openedSession digest credentials call.2
  law _ call := sessions_perform digest call.1 call.2

/-- The API tokens, over runs of calls. -/
def apiTokenRegister (digest : String → String) :
    Register Credentials CredentialStep StoredApiToken where
  step := Credentials.step digest
  rows credentials := credentials.apiTokens
  fate credentials call := apiTokenFate credentials call.2
  added credentials call := createdApiToken credentials call.2
  law _ call := apiTokens_perform digest call.1 call.2

variable {digest : String → String} {credentials : Credentials}

/-- A session keeps its token and its end, whoever it belongs to. -/
theorem sessionFate_keeps {request : CredentialCall} {row after : SessionRow}
    (kept : sessionFate digest credentials request row = some after) :
    (after.token, after.expiresAt) = (row.token, row.expiresAt) := by
  unfold sessionFate at kept
  split at kept
  · split at kept <;> cases kept
    rfl
  · split at kept <;> cases kept
    rfl
  · split at kept <;> cases kept
    rfl
  · cases kept
    split <;> rfl
  · obtain ⟨owner, -, rfl⟩ := Option.map_eq_some_iff.mp kept
    rfl

/-- An API token keeps its identifier, its digest, its scope and its end. -/
theorem apiTokenFate_keeps {request : CredentialCall} {row after : StoredApiToken}
    (kept : apiTokenFate credentials request row = some after) :
    (after.id, after.tokenHash, after.scope, after.expiresAt) =
      (row.id, row.tokenHash, row.scope, row.expiresAt) := by
  unfold apiTokenFate at kept
  split at kept
  · split at kept <;> cases kept
    rfl
  · split at kept <;> cases kept
    rfl
  · split at kept <;> cases kept
    rfl
  · cases kept
    split <;> rfl
  · obtain ⟨owner, -, rfl⟩ := Option.map_eq_some_iff.mp kept
    rfl

/-- An API token that is created has an identifier and a digest of its own. -/
theorem createdApiToken_fresh {request : CredentialCall} {row : StoredApiToken}
    (created : createdApiToken credentials request = some row) :
    row.id ∉ credentials.apiTokens.map (·.id) ∧ row.tokenHash ∉ credentials.apiTokens.map (·.tokenHash) := by
  unfold createdApiToken at created
  split at created
  · split at created
    · cases created
    · rename_i token free
      cases created
      have untaken := List.any_eq_false.mp (Bool.not_eq_true _ ▸ (not_or.mp free).1)
      constructor
      · rintro held
        obtain ⟨other, there, same⟩ := List.mem_map.mp held
        exact untaken other there (by simp [same, StoredApiToken.ofNew])
      · rintro held
        obtain ⟨other, there, same⟩ := List.mem_map.mp held
        exact untaken other there (by simp [same, StoredApiToken.ofNew])
  · cases created

end Registers

section Owners

variable {digest : String → String} {credentials : Credentials}

theorem hasUser_deleteUsers (gone : List Nat) (accounts : Accounts) (owner : Nat) :
    (gone.foldl Accounts.deleteUser accounts).hasUser owner ↔ accounts.hasUser owner ∧ owner ∉ gone := by
  induction gone generalizing accounts with
  | nil => simp
  | cons userId rest ih =>
      rw [List.foldl_cons, ih]
      simp only [Accounts.hasUser, Accounts.deleteUser, List.mem_map, List.mem_filter, List.mem_cons]
      constructor
      · rintro ⟨⟨user, ⟨among, stays⟩, rfl⟩, absent⟩
        exact ⟨⟨user, among, rfl⟩, not_or.mpr ⟨by simpa using stays, absent⟩⟩
      · rintro ⟨⟨user, among, rfl⟩, absent⟩
        exact ⟨⟨user, ⟨among, by simpa using (not_or.mp absent).1⟩, rfl⟩, (not_or.mp absent).2⟩

theorem hasUser_map {accounts : Accounts} {change : User → User}
    (ids : ∀ user, (change user).id = user.id) {owner : Nat} (known : accounts.hasUser owner) :
    ({ accounts with users := accounts.users.map change } : Accounts).hasUser owner := by
  obtain ⟨user, among, rfl⟩ := List.mem_map.mp known
  exact List.mem_map.mpr ⟨change user, List.mem_map_of_mem among, ids user⟩

/-- An operation on accounts leaves the accounts that credentials go along with. -/
theorem hasUser_account {request : AccountCall} {owner other : Nat}
    (known : credentials.accounts.hasUser owner)
    (goes : ownerFate credentials (.account request) owner = some other) :
    (Credentials.performAccount digest credentials.loaded request).1.hasUser other := by
  have loaded : credentials.loaded.hasUser owner := known
  cases request with
  | deleteUser userId =>
      simp only [ownerFate] at goes
      split at goes
      · cases goes
      · rename_i differs
        cases goes
        exact (hasUser_deleteUsers [userId] credentials.loaded owner).mpr ⟨known, by simpa using differs⟩
  | mergeUserInto source target =>
      simp only [Credentials.performAccount, Accounts.perform]
      simp only [ownerFate] at goes
      cases merged : credentials.loaded.mergeUserInto source target with
      | error error =>
          rw [merged] at goes
          cases goes
          exact known
      | ok after =>
          rw [merged] at goes
          dsimp only at goes
          rw [Accounts.mergeUserInto_ok merged]
          refine (hasUser_deleteUsers [source] (credentials.loaded.moved source target) other).mpr ?_
          rw [List.mem_singleton]
          split at goes
          · rename_i differs
            cases goes
            exact ⟨known, differs⟩
          · split at goes
            · rename_i differs
              cases goes
              refine ⟨?_, differs⟩
              unfold Accounts.mergeUserInto at merged
              split at merged
              · cases merged
              · rename_i there
                exact not_not.mp there
            · cases goes
  | createUser username passwordHash approved =>
      cases goes
      simp only [Credentials.performAccount, Accounts.perform]
      split
      · exact known
      · obtain ⟨user, among, rfl⟩ := List.mem_map.mp known
        exact List.mem_map.mpr ⟨user, List.mem_append_left _ among, rfl⟩
  | renameUser userId username =>
      cases goes
      simp only [Credentials.performAccount, Accounts.perform]
      split
      · exact known
      · refine hasUser_map (fun user => ?_) loaded
        split <;> rfl
  | createSession userId token expiresAt =>
      cases goes
      simp only [Credentials.performAccount, Accounts.perform]
      split
      · exact known
      · split <;> exact known
  | setDirectoryId userId directoryId =>
      cases goes
      simp only [Credentials.performAccount, Accounts.perform]
      split
      · exact known
      · split <;> exact known
  | setDisplayName | setAvatarHash | recordUserSignIn | grantUserRole | createGroup | renameGroup
  | setGroupRoles | addGroupMember =>
      cases goes
      simp only [Credentials.performAccount, Accounts.perform]
      split <;> exact known
  | _ =>
      cases goes
      exact known

/-- A call leaves the accounts that credentials go along with. -/
theorem hasUser_perform (now : Instant) {request : CredentialCall} {owner other : Nat}
    (known : credentials.accounts.hasUser owner)
    (goes : ownerFate credentials request owner = some other) :
    (credentials.perform digest now request).1.accounts.hasUser other := by
  cases request with
  | account request => exact hasUser_account known goes
  | approveUser userId =>
      cases goes
      refine hasUser_map (fun user => ?_) known
      split <;> rfl
  | updatePassword userId newHash =>
      cases goes
      refine hasUser_map (fun user => ?_) known
      split <;> rfl
  | deleteNonAdminUsers spare =>
      simp only [ownerFate] at goes
      split at goes
      · cases goes
      · rename_i spared
        cases goes
        exact (hasUser_deleteUsers _ _ _).mpr ⟨known, fun gone => spared (mem_doomed.mp gone)⟩
  | nukeDatabase keep =>
      simp only [ownerFate] at goes
      split at goes
      · rename_i kept
        cases goes
        exact (hasUser_deleteUsers _ _ _).mpr ⟨known, by simp [kept]⟩
      · cases goes
  | createApiToken token =>
      cases goes
      simp only [Credentials.perform]
      split
      · exact known
      · split <;> exact known
  | _ =>
      cases goes
      exact known

/-- An API token that stays goes where its account's credentials go. -/
theorem apiTokenFate_owner {request : CredentialCall} {row after : StoredApiToken}
    (kept : apiTokenFate credentials request row = some after) :
    ownerFate credentials request row.userId = some after.userId := by
  unfold apiTokenFate at kept
  split at kept
  · split at kept <;> cases kept
    rfl
  · split at kept <;> cases kept
    rfl
  · split at kept <;> cases kept
    rfl
  · cases kept
    split <;> rfl
  · obtain ⟨owner, goes, rfl⟩ := Option.map_eq_some_iff.mp kept
    exact goes

/-- An API token is created for an account that is there. -/
theorem createdApiToken_known {request : CredentialCall} {row : StoredApiToken}
    (created : createdApiToken credentials request = some row) (now : Instant) :
    (credentials.perform digest now request).1.accounts.hasUser row.userId := by
  unfold createdApiToken at created
  split at created
  · split at created
    · cases created
    · rename_i free
      cases created
      exact hasUser_perform now (not_not.mp (not_or.mp free).2) rfl
  · cases created

end Owners

section Soundness

/-- The constraints of the credential tables. -/
structure SoundCredentials (credentials : Credentials) : Prop where
  accounts : credentials.accounts.Integrity
  apiTokenIds : (credentials.apiTokens.map (·.id)).Nodup
  apiTokenHashes : (credentials.apiTokens.map (·.tokenHash)).Nodup
  apiTokensKnown : ∀ row ∈ credentials.apiTokens, credentials.accounts.hasUser row.userId

theorem soundCredentials_empty : SoundCredentials ⟨{}, []⟩ :=
  ⟨.empty, .nil, .nil, fun _ held => by cases held⟩

variable {digest : String → String} {credentials : Credentials}

theorem SoundCredentials.step (sound : SoundCredentials credentials) (call : CredentialStep) :
    SoundCredentials (credentials.step digest call) where
  accounts := credentials.perform_integrity sound.accounts digest call.1 call.2
  apiTokenIds := (apiTokenRegister digest).distinct_step
    (fun _ _ _ _ kept => congrArg (·.1) (apiTokenFate_keeps kept))
    (fun _ _ _ created => (createdApiToken_fresh created).1) sound.apiTokenIds call
  apiTokenHashes := (apiTokenRegister digest).distinct_step
    (fun _ _ _ _ kept => congrArg (·.2.1) (apiTokenFate_keeps kept))
    (fun _ _ _ created => (createdApiToken_fresh created).2) sound.apiTokenHashes call
  apiTokensKnown row held := by
    have after : row ∈ (apiTokenRegister digest).rows ((apiTokenRegister digest).step credentials call) :=
      held
    obtain ⟨before, there, kept⟩ | created := Register.mem_step.mp after
    · exact hasUser_perform call.1 (sound.apiTokensKnown before there) (apiTokenFate_owner kept)
    · exact createdApiToken_known created call.1

theorem SoundCredentials.run (sound : SoundCredentials credentials) (calls : List CredentialStep) :
    SoundCredentials (runSteps (Credentials.step digest) credentials calls) := by
  induction calls generalizing credentials with
  | nil => exact sound
  | cons call rest ih => exact ih (sound.step call)

/-- Among rows with keys of their own, a lookup finds the one that is wanted. -/
theorem find?_eq_some_of_distinct {Row Key : Type} [DecidableEq Key] {rows : List Row} {key : Row → Key}
    (distinct : (rows.map key).Nodup) {wanted : Key} {good : Row → Prop} [DecidablePred good] {row : Row} :
    rows.find? (fun row => key row = wanted ∧ good row) = some row ↔
      row ∈ rows ∧ key row = wanted ∧ good row := by
  constructor
  · intro found
    have met := List.find?_some found
    exact ⟨List.mem_of_find?_eq_some found, of_decide_eq_true met⟩
  · rintro ⟨among, own, fine⟩
    cases found : rows.find? (fun row => key row = wanted ∧ good row) with
    | none => exact absurd (decide_eq_true ⟨own, fine⟩) (List.find?_eq_none.mp found row among)
    | some other =>
        have met := List.find?_some found
        obtain ⟨same, -⟩ := of_decide_eq_true met
        rw [List.inj_on_of_nodup_map distinct (List.mem_of_find?_eq_some found) among (same.trans own.symm)]

/-- A session is valid of one row: of its token, not yet over, whose account is there. -/
theorem validateSession_eq (sound : SoundCredentials credentials) {now : Instant} {token : String}
    {user : User} {session : Session} :
    (credentials.perform digest now (.validateSession token)).2 = .ok (some (user, session)) ↔
      ∃ row ∈ credentials.accounts.sessions, row.token = digest token ∧ now < row.expiresAt ∧
        user ∈ credentials.accounts.users ∧ user.id = row.userId ∧
          session = ⟨token, user.id, row.expiresAt⟩ := by
  simp only [Credentials.perform, Except.ok.injEq, Option.bind_eq_some_iff,
    find?_eq_some_of_distinct sound.accounts.sessionTokens, Option.map_eq_some_iff,
    Credentials.userOf?_eq_some sound.accounts, Prod.mk.injEq]
  constructor
  · rintro ⟨row, ⟨among, own, live⟩, other, ⟨there, same⟩, rfl, rfl⟩
    exact ⟨row, among, own, live, there, same, rfl⟩
  · rintro ⟨row, among, own, live, there, same, rfl⟩
    exact ⟨row, ⟨among, own, live⟩, user, ⟨there, same⟩, rfl, rfl⟩

/-- An API token is valid of one row: of its digest, not yet over, whose account is there. -/
theorem validateApiToken_eq (sound : SoundCredentials credentials) {now : Instant} {tokenHash : String}
    {identity : ApiTokenIdentity} :
    (credentials.perform digest now (.validateApiToken tokenHash)).2 = .ok (some identity) ↔
      ∃ row ∈ credentials.apiTokens, row.tokenHash = tokenHash ∧ now < row.expiresAt ∧
        identity.user ∈ credentials.accounts.users ∧ identity.user.id = row.userId ∧
          identity = ⟨row.id, row.readScope, row.lastUsedAt, identity.user⟩ := by
  simp only [Credentials.perform, Except.ok.injEq, Option.bind_eq_some_iff,
    find?_eq_some_of_distinct sound.apiTokenHashes, Option.map_eq_some_iff,
    Credentials.userOf?_eq_some sound.accounts]
  constructor
  · rintro ⟨row, ⟨among, own, live⟩, other, ⟨there, same⟩, rfl⟩
    exact ⟨row, among, own, live, there, same, rfl⟩
  · rintro ⟨row, among, own, live, there, same, told⟩
    exact ⟨row, ⟨among, own, live⟩, identity.user, ⟨there, same⟩, told.symm⟩

end Soundness

section Lives

variable (digest : String → String)

/-- The tables after calls on an empty store. -/
def credentialsAfter (calls : List CredentialStep) : Credentials :=
  runSteps (Credentials.step digest) ⟨{}, []⟩ calls

theorem credentialsAfter_append (earlier later : List CredentialStep) :
    credentialsAfter digest (earlier ++ later) =
      runSteps (Credentials.step digest) (credentialsAfter digest earlier) later :=
  List.foldl_append

theorem soundCredentials_after (calls : List CredentialStep) :
    SoundCredentials (credentialsAfter digest calls) := soundCredentials_empty.run calls

/-- A session is valid exactly as long as one that was opened with its token has neither been closed,
nor cleaned up, nor gone with its account, nor come to its end; it is a session of the account that it
was opened for, or of the one which that was merged into. -/
theorem session_valid_iff (calls : List CredentialStep) (now : Instant) (token : String) (user : User)
    (session : Session) :
    ((credentialsAfter digest calls).perform digest now (.validateSession token)).2 =
        .ok (some (user, session)) ↔
      ∃ row, (sessionRegister digest).AddedOnTheWay ⟨{}, []⟩ calls row ∧ row.token = digest token ∧
        now < row.expiresAt ∧ user ∈ (credentialsAfter digest calls).accounts.users ∧
          user.id = row.userId ∧ session = ⟨token, user.id, row.expiresAt⟩ := by
  rw [validateSession_eq (soundCredentials_after digest calls)]
  exact exists_congr fun row => and_congr_left fun _ => (sessionRegister digest).mem_after_empty rfl

/-- An API token is valid exactly as long as the one that was created with its digest has neither been
revoked, nor cleaned up, nor gone with its account, nor come to its end; its scope and its identifier are
those it was created with. -/
theorem apiToken_valid_iff (calls : List CredentialStep) (now : Instant) (tokenHash : String)
    (identity : ApiTokenIdentity) :
    ((credentialsAfter digest calls).perform digest now (.validateApiToken tokenHash)).2 =
        .ok (some identity) ↔
      ∃ row, (apiTokenRegister digest).AddedOnTheWay ⟨{}, []⟩ calls row ∧ row.tokenHash = tokenHash ∧
        now < row.expiresAt ∧ identity.user ∈ (credentialsAfter digest calls).accounts.users ∧
          identity.user.id = row.userId ∧
            identity = ⟨row.id, row.readScope, row.lastUsedAt, identity.user⟩ := by
  rw [validateApiToken_eq (soundCredentials_after digest calls)]
  exact exists_congr fun row => and_congr_left fun _ => (apiTokenRegister digest).mem_after_empty rfl

end Lives

end Sanshain.Guarantees
