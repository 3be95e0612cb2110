import Sanshain.Infrastructure.Accounts

namespace Sanshain.Infrastructure

open Sanshain.Domain

namespace Accounts

/-- What the keys and the references of the account tables guarantee. -/
structure Integrity (accounts : Accounts) : Prop where
  userIds : (accounts.users.map (·.id)).Nodup
  usernames : (accounts.users.map (·.username)).Nodup
  userBelow : ∀ user ∈ accounts.users, user.id < accounts.nextUserId
  groupIds : (accounts.groups.map (·.id)).Nodup
  groupBelow : ∀ group ∈ accounts.groups, group.id < accounts.nextGroupId
  groupRolesKnown : ∀ row ∈ accounts.groupRoles, accounts.hasGroup row.1
  profileUsers : (accounts.profiles.map (·.userId)).Nodup
  profilesKnown : ∀ profile ∈ accounts.profiles, accounts.hasUser profile.userId
  directoryIds : ∀ first ∈ accounts.profiles, ∀ second ∈ accounts.profiles,
    ∀ directoryId, first.directoryId = some directoryId → second.directoryId = some directoryId →
      first = second
  sessionsKnown : ∀ row ∈ accounts.sessions, accounts.hasUser row.userId
  sessionTokens : (accounts.sessions.map (·.token)).Nodup

theorem Integrity.empty : Integrity {} := by
  constructor <;> simp

/-- What a change of the profile of one account leaves as it was. -/
theorem mem_upsertProfile {accounts : Accounts} {userId : Nat} {change : ProfileRow → ProfileRow}
    (keeps : ∀ profile, (change profile).userId = profile.userId)
    {profile : ProfileRow} (held : profile ∈ accounts.upsertProfile userId change) :
    (profile.userId ≠ userId ∧ profile ∈ accounts.profiles) ∨
      (profile.userId = userId ∧
        ((∃ old ∈ accounts.profiles, old.userId = userId ∧ profile = change old) ∨
          (userId ∉ accounts.profiles.map (·.userId) ∧
            profile = change ⟨userId, none, none, none, none⟩))) := by
  unfold upsertProfile at held
  split at held
  · obtain ⟨old, there, rfl⟩ := List.mem_map.mp held
    split
    · rename_i own
      exact .inr ⟨(keeps old).trans own, .inl ⟨old, there, own, rfl⟩⟩
    · rename_i other
      exact .inl ⟨other, there⟩
  · rename_i absent
    obtain there | made := List.mem_append.mp held
    · have other : profile.userId ≠ userId := by
        rintro rfl
        exact absent (List.mem_map_of_mem there)
      exact .inl ⟨other, there⟩
    · rw [List.mem_singleton] at made
      subst made
      exact .inr ⟨keeps _, .inr ⟨absent, rfl⟩⟩

/-- The accounts that have a profile, and perhaps the one that is changed. -/
theorem upsertProfile_userIds {accounts : Accounts} {userId : Nat}
    {change : ProfileRow → ProfileRow} (keeps : ∀ profile, (change profile).userId = profile.userId) :
    (accounts.upsertProfile userId change).map (·.userId) =
      if userId ∈ accounts.profiles.map (·.userId) then accounts.profiles.map (·.userId)
      else accounts.profiles.map (·.userId) ++ [userId] := by
  unfold upsertProfile
  split
  · rw [List.map_map]
    refine List.map_congr_left fun profile _ => ?_
    simp only [Function.comp_apply]
    split
    · exact keeps profile
    · rfl
  · simp [keeps]

namespace Integrity

variable {accounts : Accounts}

/-- A change of one profile keeps the keys when what it binds is bound by no other account. -/
theorem upsert (sound : Integrity accounts) {userId : Nat} (known : accounts.hasUser userId)
    {change : ProfileRow → ProfileRow} (keeps : ∀ profile, (change profile).userId = profile.userId)
    (free : ∀ own, own.userId = userId → (own ∈ accounts.profiles ∨ own.directoryId = none) →
      ∀ other ∈ accounts.profiles, other.userId ≠ userId → ∀ directoryId,
      (change own).directoryId = some directoryId → other.directoryId ≠ some directoryId) :
    Integrity { accounts with profiles := accounts.upsertProfile userId change } := by
  have changed : ∀ {profile : ProfileRow}, profile ∈ accounts.upsertProfile userId change →
      profile.userId = userId → ∃ own, own.userId = userId ∧
        (own ∈ accounts.profiles ∨ own.directoryId = none) ∧ profile = change own := by
    intro profile held own
    obtain ⟨other, -⟩ | ⟨-, ⟨old, there, same, rfl⟩ | ⟨-, rfl⟩⟩ := mem_upsertProfile keeps held
    · exact absurd own other
    · exact ⟨old, same, .inl there, rfl⟩
    · exact ⟨_, rfl, .inr rfl, rfl⟩
  have distinct : ((accounts.upsertProfile userId change).map (·.userId)).Nodup := by
    rw [upsertProfile_userIds keeps]
    split
    · exact sound.profileUsers
    · rename_i absent
      exact List.nodup_append.mpr ⟨sound.profileUsers, by simp, by
        rintro id there other hit rfl
        rw [List.mem_singleton] at hit
        exact absent (hit ▸ there)⟩
  refine { sound with
    profileUsers := distinct
    profilesKnown := fun profile held => ?_
    directoryIds := fun first one second two directoryId bound same => ?_ }
  · obtain ⟨-, there⟩ | ⟨own, -⟩ := mem_upsertProfile keeps held
    · exact sound.profilesKnown profile there
    · exact own ▸ known
  · have sameUser : first.userId = second.userId := by
      by_cases firstOwn : first.userId = userId <;> by_cases secondOwn : second.userId = userId
      · exact firstOwn.trans secondOwn.symm
      · obtain ⟨own, ownId, from', rfl⟩ := changed one firstOwn
        obtain ⟨-, there⟩ | ⟨hit, -⟩ := mem_upsertProfile keeps two
        · exact absurd same (free own ownId from' second there secondOwn directoryId bound)
        · exact absurd hit secondOwn
      · obtain ⟨own, ownId, from', rfl⟩ := changed two secondOwn
        obtain ⟨-, there⟩ | ⟨hit, -⟩ := mem_upsertProfile keeps one
        · exact absurd bound (free own ownId from' first there firstOwn directoryId same)
        · exact absurd hit firstOwn
      · obtain ⟨-, there⟩ | ⟨hit, -⟩ := mem_upsertProfile keeps one
        · obtain ⟨-, other⟩ | ⟨hit, -⟩ := mem_upsertProfile keeps two
          · rw [sound.directoryIds first there second other directoryId bound same]
          · exact absurd hit secondOwn
        · exact absurd hit firstOwn
    exact List.inj_on_of_nodup_map distinct one two sameUser

/-- A change of a profile that leaves what it is bound to keeps the keys. -/
theorem upsert_same (sound : Integrity accounts) {userId : Nat} (known : accounts.hasUser userId)
    {change : ProfileRow → ProfileRow} (keeps : ∀ profile, (change profile).userId = profile.userId)
    (same : ∀ profile, (change profile).directoryId = profile.directoryId) :
    Integrity { accounts with profiles := accounts.upsertProfile userId change } := by
  refine sound.upsert known keeps fun own ownId from' other there differs directoryId bound taken => ?_
  rw [same] at bound
  obtain held | unbound := from'
  · have equal := sound.directoryIds own held other there directoryId bound taken
    exact differs (equal ▸ ownId)
  · rw [unbound] at bound
    cases bound

theorem deleteUser (sound : Integrity accounts) (userId : Nat) :
    Integrity (accounts.deleteUser userId) := by
  have stays : ∀ {other : Nat}, accounts.hasUser other → other ≠ userId →
      (accounts.deleteUser userId).hasUser other := by
    intro other known differs
    obtain ⟨user, there, rfl⟩ := List.mem_map.mp known
    exact List.mem_map_of_mem (List.mem_filter.mpr ⟨there, by simpa using differs⟩)
  refine { sound with
    userIds := sound.userIds.sublist (List.filter_sublist.map _)
    usernames := sound.usernames.sublist (List.filter_sublist.map _)
    userBelow := fun user held => sound.userBelow user (List.mem_of_mem_filter held)
    profileUsers := sound.profileUsers.sublist (List.filter_sublist.map _)
    profilesKnown := fun profile held => ?_
    directoryIds := fun first one second two => sound.directoryIds first (List.mem_of_mem_filter one)
      second (List.mem_of_mem_filter two)
    sessionsKnown := fun row held => ?_
    sessionTokens := sound.sessionTokens.sublist (List.filter_sublist.map _) }
  · have kept := List.mem_filter.mp held
    exact stays (sound.profilesKnown profile kept.1) (by simpa using kept.2)
  · have kept := List.mem_filter.mp held
    exact stays (sound.sessionsKnown row kept.1) (by simpa using kept.2)

theorem moved (sound : Integrity accounts) {source target : Nat} (known : accounts.hasUser target) :
    Integrity (accounts.moved source target) := by
  have tokens : (accounts.moved source target).sessions.map (·.token) =
      accounts.sessions.map (·.token) := by
    simp only [Accounts.moved, List.map_map]
    refine List.map_congr_left fun row _ => ?_
    simp only [Function.comp_apply]
    split <;> rfl
  refine { sound with
    sessionsKnown := fun row held => ?_
    sessionTokens := tokens ▸ sound.sessionTokens }
  obtain ⟨old, there, rfl⟩ := List.mem_map.mp held
  split
  · exact known
  · exact sound.sessionsKnown old there

theorem renameUser (sound : Integrity accounts) {userId : Nat} {username : String}
    (free : ∀ user ∈ accounts.users, user.username = username → user.id = userId) :
    Integrity { accounts with users := accounts.users.map fun user =>
      if user.id = userId then { user with username := username } else user } := by
  have ids : (accounts.users.map fun user =>
      if user.id = userId then { user with username := username } else user).map (·.id) =
        accounts.users.map (·.id) := by
    rw [List.map_map]
    refine List.map_congr_left fun user _ => ?_
    simp only [Function.comp_apply]
    split <;> rfl
  have known : ∀ {other : Nat}, accounts.hasUser other →
      ({ accounts with users := accounts.users.map fun user =>
        if user.id = userId then { user with username := username } else user } : Accounts).hasUser
          other := by
    intro other there
    rw [hasUser, ids]
    exact there
  refine { sound with
    userIds := ids ▸ sound.userIds
    usernames := ?_
    userBelow := fun user held => ?_
    profilesKnown := fun profile held => known (sound.profilesKnown profile held)
    sessionsKnown := fun row held => known (sound.sessionsKnown row held) }
  · refine (List.nodup_map_iff_inj_on (List.Nodup.of_map _ (ids ▸ sound.userIds))).mpr ?_
    intro first one second two same
    obtain ⟨old, there, rfl⟩ := List.mem_map.mp one
    obtain ⟨other, where', rfl⟩ := List.mem_map.mp two
    have equal : old = other := by
      by_cases renamed : old.id = userId <;> by_cases also : other.id = userId
      · exact List.inj_on_of_nodup_map sound.userIds there where' (renamed.trans also.symm)
      · rw [if_pos renamed, if_neg also] at same
        exact absurd (free other where' same.symm) also
      · rw [if_neg renamed, if_pos also] at same
        exact absurd (free old there same) renamed
      · rw [if_neg renamed, if_neg also] at same
        exact List.inj_on_of_nodup_map sound.usernames there where' same
    rw [equal]
  · obtain ⟨old, there, rfl⟩ := List.mem_map.mp held
    have below := sound.userBelow old there
    split <;> exact below

theorem createUser (sound : Integrity accounts) {username passwordHash : String} (approved : Bool)
    (free : username ∉ accounts.users.map (·.username)) :
    Integrity { accounts with
      users := accounts.users ++ [⟨accounts.nextUserId, username, passwordHash, approved⟩]
      nextUserId := accounts.nextUserId + 1 } := by
  have known : ∀ {userId : Nat}, accounts.hasUser userId → userId ∈
      (accounts.users ++
        [(⟨accounts.nextUserId, username, passwordHash, approved⟩ : User)]).map (·.id) := by
    intro userId there
    rw [List.map_append]
    exact List.mem_append_left _ there
  refine { sound with
    userIds := ?_
    usernames := ?_
    userBelow := fun user held => ?_
    profilesKnown := fun profile held => known (sound.profilesKnown profile held)
    sessionsKnown := fun row held => known (sound.sessionsKnown row held) }
  · rw [List.map_append]
    refine List.nodup_append.mpr ⟨sound.userIds, by simp, ?_⟩
    intro id there other hit
    obtain ⟨user, held, rfl⟩ := List.mem_map.mp there
    have below := sound.userBelow user held
    simp only [List.map_cons, List.map_nil, List.mem_singleton] at hit
    omega
  · rw [List.map_append]
    refine List.nodup_append.mpr ⟨sound.usernames, by simp, ?_⟩
    rintro name there other hit rfl
    simp only [List.map_cons, List.map_nil, List.mem_singleton] at hit
    exact free (hit ▸ there)
  · obtain there | made := List.mem_append.mp held
    · exact Nat.lt_succ_of_lt (sound.userBelow user there)
    · rw [List.mem_singleton] at made
      subst made
      exact Nat.lt_succ_self _

theorem createSession (sound : Integrity accounts) {userId : Nat} {token : String}
    (expiresAt : Instant) (free : token ∉ accounts.sessions.map (·.token))
    (known : accounts.hasUser userId) :
    Integrity { accounts with sessions := accounts.sessions ++ [⟨token, userId, expiresAt, none⟩] } := by
  refine { sound with sessionsKnown := fun row held => ?_, sessionTokens := ?_ }
  · obtain there | made := List.mem_append.mp held
    · exact sound.sessionsKnown row there
    · rw [List.mem_singleton] at made
      subst made
      exact known
  · rw [List.map_append]
    refine List.nodup_append.mpr ⟨sound.sessionTokens, by simp, ?_⟩
    rintro other there again hit rfl
    simp only [List.map_cons, List.map_nil, List.mem_singleton] at hit
    exact free (hit ▸ there)

theorem setSessionSignIn (sound : Integrity accounts) (token : String) (method : SignInMethod) :
    Integrity { accounts with sessions := accounts.sessions.map fun row =>
      if row.token = token then { row with signIn := some method } else row } := by
  have tokens : (accounts.sessions.map fun row =>
      if row.token = token then { row with signIn := some method } else row).map (·.token) =
        accounts.sessions.map (·.token) := by
    rw [List.map_map]
    refine List.map_congr_left fun row _ => ?_
    simp only [Function.comp_apply]
    split <;> rfl
  refine { sound with sessionsKnown := fun row held => ?_, sessionTokens := tokens ▸ sound.sessionTokens }
  obtain ⟨old, there, rfl⟩ := List.mem_map.mp held
  have known := sound.sessionsKnown old there
  split <;> exact known

theorem createGroup (sound : Integrity accounts) (name : String) (fromDirectory : Bool) :
    Integrity { accounts with
      groups := accounts.groups ++ [⟨accounts.nextGroupId, name, fromDirectory⟩]
      nextGroupId := accounts.nextGroupId + 1 } := by
  refine { sound with
    groupIds := ?_
    groupBelow := fun group held => ?_
    groupRolesKnown := fun row held => ?_ }
  · rw [List.map_append]
    refine List.nodup_append.mpr ⟨sound.groupIds, by simp, ?_⟩
    intro id there other hit
    obtain ⟨group, held, rfl⟩ := List.mem_map.mp there
    have below := sound.groupBelow group held
    simp only [List.map_cons, List.map_nil, List.mem_singleton] at hit
    omega
  · obtain there | made := List.mem_append.mp held
    · exact Nat.lt_succ_of_lt (sound.groupBelow group there)
    · rw [List.mem_singleton] at made
      subst made
      exact Nat.lt_succ_self _
  · have known := sound.groupRolesKnown row held
    rw [hasGroup, List.map_append]
    exact List.mem_append_left _ known

theorem renameGroup (sound : Integrity accounts) (groupId : Nat) (name : String) :
    Integrity { accounts with groups := accounts.groups.map fun group =>
      if group.id = groupId then { group with name := name } else group } := by
  have ids : (accounts.groups.map fun group =>
      if group.id = groupId then { group with name := name } else group).map (·.id) =
        accounts.groups.map (·.id) := by
    rw [List.map_map]
    refine List.map_congr_left fun group _ => ?_
    simp only [Function.comp_apply]
    split <;> rfl
  refine { sound with
    groupIds := ids ▸ sound.groupIds
    groupBelow := fun group held => ?_
    groupRolesKnown := fun row held => ?_ }
  · obtain ⟨old, there, rfl⟩ := List.mem_map.mp held
    have below := sound.groupBelow old there
    split <;> exact below
  · have known := sound.groupRolesKnown row held
    rw [hasGroup, ids]
    exact known

theorem deleteGroup (sound : Integrity accounts) (groupId : Nat) :
    Integrity (accounts.perform (.deleteGroup groupId)).1 := by
  refine { sound with
    groupIds := sound.groupIds.sublist (List.filter_sublist.map _)
    groupBelow := fun group held => sound.groupBelow group (List.mem_of_mem_filter held)
    groupRolesKnown := fun row held => ?_ }
  have kept := List.mem_filter.mp held
  obtain ⟨group, there, same⟩ := List.mem_map.mp (sound.groupRolesKnown row kept.1)
  have differs : group.id ≠ groupId := by simpa [same] using kept.2
  exact same ▸ List.mem_map_of_mem (List.mem_filter.mpr ⟨there, by simpa using differs⟩)

theorem setGroupRoles (sound : Integrity accounts) (groupId : Nat) (roles : List String)
    (known : accounts.hasGroup groupId ∨ roles = []) :
    Integrity { accounts with
      groupRoles := accounts.groupRoles.filter (·.1 ≠ groupId) ++
        roles.dedup.map fun role => (groupId, role) } := by
  refine { sound with groupRolesKnown := fun row held => ?_ }
  obtain there | made := List.mem_append.mp held
  · exact sound.groupRolesKnown row (List.mem_of_mem_filter there)
  · obtain ⟨role, listed, rfl⟩ := List.mem_map.mp made
    obtain known | rfl := known
    · exact known
    · exact absurd listed List.not_mem_nil

/-- Every operation keeps the keys and the references. -/
theorem perform (sound : Integrity accounts) (request : AccountCall) :
    Integrity (accounts.perform request).1 := by
  cases request with
  | createUser username passwordHash approved =>
      simp only [Accounts.perform]
      split
      · exact sound
      · rename_i free
        exact sound.createUser approved free
  | deleteUser userId => exact sound.deleteUser userId
  | renameUser userId username =>
      simp only [Accounts.perform]
      split
      · exact sound
      · rename_i free
        by_cases known : accounts.hasUser userId
        · refine sound.renameUser fun user held named => ?_
          by_contra differs
          exact free ⟨known, List.any_eq_true.mpr ⟨user, held, by simp [named, differs]⟩⟩
        · have unchanged : (accounts.users.map fun user =>
              if user.id = userId then { user with username := username } else user) =
                accounts.users := by
            conv_rhs => rw [← List.map_id accounts.users]
            refine List.map_congr_left fun user held => if_neg ?_
            rintro rfl
            exact known (List.mem_map_of_mem held)
          rw [unchanged]
          exact sound
  | mergeUserInto source target =>
      simp only [Accounts.perform]
      split
      · rename_i after merged
        unfold Accounts.mergeUserInto at merged
        split at merged
        · cases merged
        · rename_i known
          split at merged
          · cases merged
          · cases merged
            exact (sound.moved (not_not.mp known)).deleteUser source
      · exact sound
  | setDirectoryId userId directoryId =>
      simp only [Accounts.perform]
      split
      · exact sound
      · rename_i known
        split
        · exact sound
        · rename_i free
          refine sound.upsert (not_not.mp known) (fun _ => rfl) ?_
          intro own ownId from' other there differs bound same taken
          cases same
          exact free (List.any_eq_true.mpr ⟨other, there, by simp [taken, differs]⟩)
  | setDisplayName userId displayName =>
      simp only [Accounts.perform]
      split
      · exact sound
      · rename_i known
        exact sound.upsert_same (not_not.mp known) (fun _ => rfl) (fun _ => rfl)
  | setAvatarHash userId avatarHash =>
      simp only [Accounts.perform]
      split
      · exact sound
      · rename_i known
        exact sound.upsert_same (not_not.mp known) (fun _ => rfl) (fun _ => rfl)
  | recordUserSignIn userId method =>
      simp only [Accounts.perform]
      split
      · exact sound
      · rename_i known
        exact sound.upsert_same (not_not.mp known) (fun _ => rfl) (fun _ => rfl)
  | createSession userId token expiresAt =>
      simp only [Accounts.perform]
      split
      · exact sound
      · rename_i free
        split
        · exact sound
        · rename_i known
          exact sound.createSession expiresAt free (not_not.mp known)
  | setSessionSignIn token method => exact sound.setSessionSignIn token method
  | insertAuditLog username log => exact { sound with }
  | grantUserRole userId role =>
      simp only [Accounts.perform]
      split
      · exact sound
      · exact { sound with }
  | revokeUserRole userId role => exact { sound with }
  | createGroup name fromDirectory =>
      simp only [Accounts.perform]
      split
      · exact sound
      · exact sound.createGroup name fromDirectory
  | renameGroup groupId name =>
      simp only [Accounts.perform]
      split
      · exact sound
      · exact sound.renameGroup groupId name
  | deleteGroup groupId => exact sound.deleteGroup groupId
  | setGroupRoles groupId roles =>
      simp only [Accounts.perform]
      split
      · exact sound
      · rename_i known
        refine sound.setGroupRoles groupId roles ?_
        by_cases held : accounts.hasGroup groupId
        · exact .inl held
        · exact .inr (not_not.mp fun some' => known ⟨held, some'⟩)
  | addGroupMember groupId userId =>
      simp only [Accounts.perform]
      split
      · exact sound
      · exact { sound with }
  | removeGroupMember groupId userId => exact { sound with }
  | findUser username => exact sound
  | listUsers => exact sound
  | findUserByDirectoryId directoryId => exact sound
  | getSetting key => exact sound
  | effectiveStoredRoles userId => exact sound
  | listGroups => exact sound
  | listGroupRoles groupId => exact sound

end Integrity
end Accounts

/-- Account tables whose constraints hold: no others can be built or reached. -/
structure AccountDatabase where
  accounts : Accounts
  sound : accounts.Integrity

def AccountDatabase.empty : AccountDatabase := ⟨{}, .empty⟩

def AccountDatabase.perform (database : AccountDatabase) (request : AccountCall) :
    AccountDatabase × Except RepositoryError request.Result :=
  (⟨(database.accounts.perform request).1, database.sound.perform request⟩,
    (database.accounts.perform request).2)

/-- The account tables and how many calls they have answered. -/
structure AccountWorld where
  database : AccountDatabase
  steps : Nat := 0

namespace AccountWorld

abbrev accounts (world : AccountWorld) : Accounts := world.database.accounts

/-- One call: a fault answers an internal error and changes nothing. -/
def handle (environment : Environment) :
    Effects.Handler AccountWorld AccountRequest AccountRequest.Answer
  | world, .now => (⟨world.database, world.steps + 1⟩, environment.clock world.steps)
  | world, .random => (⟨world.database, world.steps + 1⟩, environment.uuid world.steps)
  | world, .repo request =>
      match environment.fault world.steps with
      | some reason => (⟨world.database, world.steps + 1⟩, .error (.internal reason))
      | none =>
          let outcome := world.database.perform request
          (⟨outcome.1, world.steps + 1⟩, outcome.2)

/-- A store call either fails by a fault and changes nothing, or is the tables' own. -/
theorem handle_repo (environment : Environment) (world : AccountWorld) (request : AccountCall) :
    (∃ reason, handle environment world (.repo request) =
        (⟨world.database, world.steps + 1⟩, .error (.internal reason))) ∨
      handle environment world (.repo request) =
        (⟨(world.database.perform request).1, world.steps + 1⟩,
          (world.database.perform request).2) := by
  cases faulty : environment.fault world.steps with
  | some reason => exact .inl ⟨reason, by simp [handle, faulty]⟩
  | none => exact .inr (by simp [handle, faulty])

end AccountWorld
end Sanshain.Infrastructure
