import Sanshain.Effects.Steps
import Sanshain.Guarantees.Rights

namespace Sanshain.Guarantees

open Sanshain.Domain Sanshain.Effects Sanshain.Application Sanshain.Infrastructure

/-- The account is bound to the identifier of a directory entry. -/
def Bound (accounts : Accounts) (userId : Nat) (directoryId : String) : Prop :=
  ∃ profile ∈ accounts.profiles, profile.userId = userId ∧ profile.directoryId = some directoryId

instance (accounts : Accounts) (userId : Nat) (directoryId : String) :
    Decidable (Bound accounts userId directoryId) :=
  inferInstanceAs (Decidable (∃ profile ∈ accounts.profiles, _))

section Binding

variable {accounts : Accounts} {userId : Nat} {directoryId : String}

/-- An account is bound to one entry. -/
theorem Bound.unique (sound : accounts.Integrity) {other : String}
    (one : Bound accounts userId directoryId) (two : Bound accounts userId other) :
    directoryId = other := by
  obtain ⟨first, held, rfl, bound⟩ := one
  obtain ⟨second, there, same, bound'⟩ := two
  have equal := List.inj_on_of_nodup_map sound.profileUsers there held same
  rw [equal, bound] at bound'
  exact Option.some.inj bound'

theorem Bound.hasUser (sound : accounts.Integrity) (bound : Bound accounts userId directoryId) :
    accounts.hasUser userId := by
  obtain ⟨profile, held, rfl, -⟩ := bound
  exact sound.profilesKnown profile held

/-- A profile that is changed otherwise is bound as before. -/
theorem bound_upsert {target : Nat} {change : ProfileRow → ProfileRow}
    (keeps : ∀ profile, (change profile).userId = profile.userId)
    (same : ∀ profile, (change profile).directoryId = profile.directoryId) :
    Bound { accounts with profiles := accounts.upsertProfile target change } userId directoryId ↔
      Bound accounts userId directoryId := by
  unfold Bound Accounts.upsertProfile
  split
  · constructor
    · rintro ⟨profile, held, own, bound⟩
      obtain ⟨old, there, rfl⟩ := List.mem_map.mp held
      refine ⟨old, there, ?_⟩
      split at own
      · rename_i changed
        rw [if_pos changed, same] at bound
        rw [keeps] at own
        exact ⟨own, bound⟩
      · rename_i stays
        rw [if_neg stays] at bound
        exact ⟨own, bound⟩
    · rintro ⟨profile, held, own, bound⟩
      refine ⟨_, List.mem_map_of_mem held, ?_⟩
      split
      · exact ⟨(keeps profile).trans own, (same profile).trans bound⟩
      · exact ⟨own, bound⟩
  · constructor
    · rintro ⟨profile, held, own, bound⟩
      obtain there | made := List.mem_append.mp held
      · exact ⟨profile, there, own, bound⟩
      · rw [List.mem_singleton] at made
        rw [made, same] at bound
        cases bound
    · rintro ⟨profile, held, facts⟩
      exact ⟨profile, List.mem_append_left _ held, facts⟩

/-- Binding an account says nothing of the others. -/
theorem bound_set {target : Nat} {taken : String} :
    Bound { accounts with profiles := accounts.upsertProfile target fun profile =>
        { profile with directoryId := some taken } } userId directoryId ↔
      if userId = target then directoryId = taken else Bound accounts userId directoryId := by
  have keeps : ∀ profile : ProfileRow,
      ({ profile with directoryId := some taken } : ProfileRow).userId = profile.userId :=
    fun _ => rfl
  constructor
  · rintro ⟨profile, held, own, bound⟩
    obtain ⟨other, there⟩ | ⟨hit, ⟨old, -, -, rfl⟩ | ⟨-, rfl⟩⟩ := Accounts.mem_upsertProfile keeps held
    · rw [if_neg (own ▸ other)]
      exact ⟨profile, there, own, bound⟩
    · rw [if_pos (own.symm.trans hit)]
      exact (Option.some.inj bound).symm
    · rw [if_pos (own.symm.trans hit)]
      exact (Option.some.inj bound).symm
  · intro claimed
    by_cases own : userId = target
    · rw [if_pos own] at claimed
      have listed : target ∈ (accounts.upsertProfile target fun profile =>
          { profile with directoryId := some taken }).map (·.userId) := by
        rw [Accounts.upsertProfile_userIds keeps]
        split
        · assumption
        · exact List.mem_append_right _ (List.mem_singleton_self _)
      obtain ⟨profile, held, hit⟩ := List.mem_map.mp listed
      refine ⟨profile, held, hit.trans own.symm, ?_⟩
      obtain ⟨other, -⟩ | ⟨-, ⟨old, -, -, rfl⟩ | ⟨-, rfl⟩⟩ := Accounts.mem_upsertProfile keeps held
      · exact absurd hit other
      · exact claimed ▸ rfl
      · exact claimed ▸ rfl
    · rw [if_neg own] at claimed
      obtain ⟨profile, held, hit, bound⟩ := claimed
      have stays : profile ∈ accounts.upsertProfile target fun profile =>
          { profile with directoryId := some taken } := by
        unfold Accounts.upsertProfile
        split
        · exact List.mem_map.mpr ⟨profile, held, if_neg (hit ▸ own)⟩
        · exact List.mem_append_left _ held
      exact ⟨profile, stays, hit, bound⟩

/-- Marking a sign-in binds and frees no account. -/
theorem bound_marks {request : AccountCall} (marks : AccountCall.marks request = true) :
    Bound (accounts.perform request).1 userId directoryId ↔ Bound accounts userId directoryId := by
  cases request with
  | setDisplayName other displayName =>
      simp only [Accounts.perform]
      split
      · exact Iff.rfl
      · exact bound_upsert (fun _ => rfl) (fun _ => rfl)
  | setAvatarHash other avatarHash =>
      simp only [Accounts.perform]
      split
      · exact Iff.rfl
      · exact bound_upsert (fun _ => rfl) (fun _ => rfl)
  | recordUserSignIn other method =>
      simp only [Accounts.perform]
      split
      · exact Iff.rfl
      · exact bound_upsert (fun _ => rfl) (fun _ => rfl)
  | setSessionSignIn token method => exact Iff.rfl
  | createSession other token expiresAt =>
      simp only [Accounts.perform]
      split
      · exact Iff.rfl
      · split <;> exact Iff.rfl
  | _ => cases marks

variable {canonical : String} {target : User}

/-- Who is folded away is bound to nothing, and all others as they were. -/
theorem bound_absorbAll {others : List User} :
    Bound (absorbAll canonical target accounts others) userId directoryId ↔
      Bound accounts userId directoryId ∧ userId ∉ others.map (·.id) := by
  induction others generalizing accounts with
  | nil => simp [absorbAll]
  | cons other rest ih =>
      have once : Bound (absorb canonical target accounts other) userId directoryId ↔
          Bound accounts userId directoryId ∧ userId ≠ other.id := by
        simp only [Bound, absorb, Accounts.deleteUser, Accounts.moved, List.mem_filter,
          decide_eq_true_eq]
        constructor
        · rintro ⟨profile, ⟨held, differs⟩, rfl, bound⟩
          exact ⟨⟨profile, held, rfl, bound⟩, differs⟩
        · rintro ⟨⟨profile, held, rfl, bound⟩, differs⟩
          exact ⟨profile, ⟨held, differs⟩, rfl, bound⟩
      rw [absorbAll, List.foldl_cons, ← absorbAll, ih, once, List.map_cons, List.mem_cons, not_or,
        and_assoc]

theorem bound_renamed {rootUsers : RootUsers} :
    Bound (renamed rootUsers canonical target accounts) userId directoryId ↔
      Bound accounts userId directoryId := by
  unfold renamed
  split <;> exact Iff.rfl

end Binding

/-- The sessions that entries of the directory opened, each with the entry's identifier. -/
abbrev SessionLog := List (String × String)

/-- Every session of an entry is of the account that is bound to the entry. -/
def EntriesBound (opened : SessionLog) (accounts : Accounts) : Prop :=
  ∀ entry ∈ opened, Stands accounts (.session entry.1) ∧
    ∀ userId, Holds accounts userId (.session entry.1) → Bound accounts userId entry.2

/-- Accounts of other entries are bound as they were. -/
def OthersBound (directoryId : Option String) (before after : Accounts) : Prop :=
  ∀ userId other, directoryId ≠ some other → Bound before userId other → Bound after userId other

section Steps

variable {opened : SessionLog} {rootUsers : RootUsers} {accounts before after : Accounts}
  {typed : Option User} {identity : AuthenticatedUser} {target : User}

theorem EntriesBound.of_same (held : EntriesBound opened before) (same : SameRights before after)
    (bound : ∀ userId directoryId, Bound before userId directoryId → Bound after userId directoryId) :
    EntriesBound opened after := by
  intro entry listed
  obtain ⟨stands, owned⟩ := held entry listed
  refine ⟨same.known _ stands, fun userId has => ?_⟩
  exact bound _ _ (owned userId ((same.holds _ stands userId).mp has))

/-- What a sign-in may meet: none of the accounts it folds together is bound to another entry, the
account bound to the entry is among them, and no folding is refused. -/
structure Untangled (rootUsers : RootUsers) (accounts : Accounts) (typed : Option User)
    (identity : AuthenticatedUser) (target : User) : Prop where
  foldsAll : FoldsAll rootUsers accounts typed identity target
  targetFree : ∀ profile ∈ accounts.profiles, profile.userId = target.id → ∀ i ∈ identity.directoryId,
    ∀ j ∈ profile.directoryId, j = i
  foldedFree : ∀ profile ∈ accounts.profiles,
    profile.userId ∈ (foldedBy rootUsers accounts typed identity target).map (·.id) →
      ∀ j ∈ profile.directoryId, identity.directoryId = some j
  holderFolded : ∀ profile ∈ accounts.profiles, ∀ i ∈ profile.directoryId,
    identity.directoryId = some i → profile.userId = target.id ∨
      profile.userId ∈ (foldedBy rootUsers accounts typed identity target).map (·.id)

instance : Decidable (Untangled rootUsers accounts typed identity target) :=
  decidable_of_iff
    (FoldsAll rootUsers accounts typed identity target ∧
      (∀ profile ∈ accounts.profiles, profile.userId = target.id → ∀ i ∈ identity.directoryId,
        ∀ j ∈ profile.directoryId, j = i) ∧
      (∀ profile ∈ accounts.profiles,
        profile.userId ∈ (foldedBy rootUsers accounts typed identity target).map (·.id) →
          ∀ j ∈ profile.directoryId, identity.directoryId = some j) ∧
      ∀ profile ∈ accounts.profiles, ∀ i ∈ profile.directoryId,
        identity.directoryId = some i → profile.userId = target.id ∨
          profile.userId ∈ (foldedBy rootUsers accounts typed identity target).map (·.id))
    ⟨fun ⟨all, own, folded, holder⟩ => ⟨all, own, folded, holder⟩,
      fun untangled => ⟨untangled.foldsAll, untangled.targetFree, untangled.foldedFree,
        untangled.holderFolded⟩⟩

namespace Untangled

variable (untangled : Untangled rootUsers accounts typed identity target)
include untangled

/-- Afterwards the target alone has changed what it is bound to, if the entry has an identifier. -/
theorem bound_settled {userId : Nat} {directoryId : String} :
    Bound (settledTables rootUsers accounts typed identity target) userId directoryId ↔
      if userId = target.id ∧ identity.directoryId ≠ none then identity.directoryId = some directoryId
      else Bound accounts userId directoryId ∧
        userId ∉ (foldedBy rootUsers accounts typed identity target).map (·.id) := by
  rw [settledTables]
  cases taken : identity.directoryId with
  | none =>
      rw [bound, bound_renamed, foldedTables, bound_absorbAll]
      simp
  | some taken' =>
      have free : ((renamed rootUsers identity.username target
          (foldedTables rootUsers accounts typed identity target)).userByDirectoryId? taken').all
            (·.id = target.id) = true := by
        cases found : (renamed rootUsers identity.username target
            (foldedTables rootUsers accounts typed identity target)).userByDirectoryId? taken' with
        | none => rfl
        | some user =>
            obtain ⟨profile, search, there⟩ := Option.bind_eq_some_iff.mp found
            have hit : profile.directoryId = some taken' := by simpa using List.find?_some search
            have own : user.id = profile.userId := by simpa using List.find?_some there
            have holds : Bound (renamed rootUsers identity.username target
                (foldedTables rootUsers accounts typed identity target)) profile.userId taken' :=
              ⟨profile, List.mem_of_find?_eq_some search, rfl, hit⟩
            rw [bound_renamed, foldedTables, bound_absorbAll] at holds
            obtain ⟨⟨old, held, same, bound'⟩, out⟩ := holds
            obtain target' | among := untangled.holderFolded old held taken' bound' taken
            · rw [Option.all_some, decide_eq_true_eq, own, ← same, target']
            · exact absurd (same ▸ among) out
      rw [bound, if_pos free, bound_set, bound_renamed, foldedTables, bound_absorbAll]
      by_cases own : userId = target.id
      · simp [own, eq_comm]
      · simp [own]

theorem othersBound :
    OthersBound identity.directoryId accounts
      (settledTables rootUsers accounts typed identity target) := by
  intro userId other differs held
  obtain ⟨profile, there, rfl, bound'⟩ := held
  rw [untangled.bound_settled]
  split
  · rename_i own
    obtain ⟨taken, some'⟩ := Option.ne_none_iff_exists'.mp own.2
    have same := untangled.targetFree profile there own.1 taken some' other bound'
    exact absurd (same ▸ some') differs
  · refine ⟨⟨profile, there, rfl, bound'⟩, fun among => ?_⟩
    exact differs (untangled.foldedFree profile there among other bound')

/-- The sessions of the entries go where their accounts go. -/
theorem entriesBound (held : EntriesBound opened accounts) :
    EntriesBound opened (settledTables rootUsers accounts typed identity target) := by
  intro entry listed
  obtain ⟨stands, owned⟩ := held entry listed
  have folded := @absorbAll_known identity.username target accounts _
    (@target_not_folded rootUsers accounts typed identity target) _ stands
  refine ⟨settled_known _ folded, fun userId has => ?_⟩
  rw [settled_holds] at has
  obtain ⟨out, own | ⟨rfl, source, among, own⟩⟩ := (@absorbAll_moves identity.username target accounts _
    (@target_not_folded rootUsers accounts typed identity target) userId (.session entry.1)).mp has
  · obtain ⟨profile, there, rfl, bound'⟩ := owned userId own
    rw [untangled.bound_settled]
    split
    · rename_i taking
      obtain ⟨taken, some'⟩ := Option.ne_none_iff_exists'.mp taking.2
      exact untangled.targetFree profile there taking.1 taken some' entry.2 bound' ▸ some'
    · exact ⟨⟨profile, there, rfl, bound'⟩, out⟩
  · obtain ⟨profile, there, rfl, bound'⟩ := owned source own
    have taken := untangled.foldedFree profile there among entry.2 bound'
    rw [untangled.bound_settled, if_pos ⟨rfl, by simp [taken]⟩]
    exact taken

theorem bound_target {directoryId : String} (taken : identity.directoryId = some directoryId) :
    Bound (settledTables rootUsers accounts typed identity target) target.id directoryId := by
  rw [untangled.bound_settled, if_pos ⟨rfl, by simp [taken]⟩]
  exact taken

end Untangled

/-- The entry's account is settled: bound to the entry, with every other binding as it was and every
session of an entry where it belongs. -/
structure Settled (opened : SessionLog) (directoryId : Option String) (base : Accounts) (userId : Nat)
    (accounts : Accounts) : Prop where
  entries : EntriesBound opened accounts
  others : OthersBound directoryId base accounts
  own : ∀ i ∈ directoryId, Bound accounts userId i

/-- The session is the account's. -/
structure Opens (accounts : Accounts) (userId : Nat) (token : String) : Prop where
  stands : Stands accounts (.session token)
  owned : ∀ other, Holds accounts other (.session token) → other = userId

variable {directoryId : Option String} {base : Accounts} {userId : Nat}

theorem Settled.marks {request : AccountCall} (marks : AccountCall.marks request = true)
    (settled : Settled opened directoryId base userId accounts) :
    Settled opened directoryId base userId (accounts.perform request).1 where
  entries := settled.entries.of_same (perform_sameRights marks) fun _ _ => (bound_marks marks).mpr
  others := fun other i differs held => (bound_marks marks).mpr (settled.others other i differs held)
  own := fun i among => (bound_marks marks).mpr (settled.own i among)

theorem Opens.marks {request : AccountCall} {token : String} (opens : Opens accounts userId token)
    (done : after = (accounts.perform request).1) (marks : AccountCall.marks request = true) :
    Opens after userId token where
  stands := done ▸ (perform_sameRights marks).known _ opens.stands
  owned := fun other has =>
    opens.owned other (((perform_sameRights marks).holds _ opens.stands other).mp (done ▸ has))

/-- A session that was made under a new token is the account's. -/
theorem opens_createSession {token : String} {expiresAt : Instant} {session : Session}
    (made : (accounts.perform (.createSession userId token expiresAt)).2 = .ok session) :
    session = ⟨token, userId, expiresAt⟩ ∧
      Opens (accounts.perform (.createSession userId token expiresAt)).1 userId token := by
  simp only [Accounts.perform] at made ⊢
  split at made
  · cases made
  · rename_i free
    rw [if_neg free]
    split at made
    · cases made
    · rename_i there
      rw [if_neg there]
      cases made
      refine ⟨rfl, List.mem_map.mpr ⟨_, List.mem_append_right _ (List.mem_singleton_self _), rfl⟩, ?_⟩
      rintro other ⟨row, held, rfl, same⟩
      obtain earlier | last := List.mem_append.mp held
      · exact absurd (List.mem_map.mpr ⟨row, earlier, same⟩) free
      · rw [List.mem_singleton] at last
        rw [last]

variable {environment : Environment} {world : AccountWorld}

theorem ensures_settled (reliable : environment.Reliable) (request : AccountCall)
    (marks : AccountCall.marks request = true)
    (settled : Settled opened directoryId base userId world.accounts) :
    (accountRepo request).Ensures (AccountWorld.handle environment)
      (fun value after => (world.accounts.perform request).2 = .ok value ∧
        after.accounts = (world.accounts.perform request).1 ∧
        Settled opened directoryId base userId after.accounts)
      (fun _ after => Settled opened directoryId base userId after.accounts) world := by
  refine ensures_reliable reliable (fun value after answered done => ?_) fun _ after _ done => ?_
  · exact ⟨answered, done, done ▸ settled.marks marks⟩
  · exact done ▸ settled.marks marks

theorem ensures_openSession (reliable : environment.Reliable) (method : SignInMethod)
    (settled : Settled opened directoryId base userId world.accounts) :
    (openSession userId method).Ensures (AccountWorld.handle environment)
      (fun session after => Settled opened directoryId base userId after.accounts ∧
        Opens after.accounts userId session.token)
      (fun _ after => Settled opened directoryId base userId after.accounts) world := by
  rw [openSession]
  refine Program.Ensures.call (Program.Ensures.call ?_)
  rw [Program.done_bind, Program.bind_eq]
  refine Program.Ensures.bind (ensures_settled reliable (.createSession userId _ _) rfl ?_)
    fun session made created => ?_
  · exact settled
  obtain ⟨answered, done, settled⟩ := created
  obtain ⟨rfl, opens⟩ := opens_createSession answered
  rw [← done] at opens
  rw [Program.bind_eq]
  refine (ensures_settled reliable (.setSessionSignIn _ method) rfl settled).bind
    fun _ marked read => ?_
  obtain ⟨-, done, settled⟩ := read
  have opens := opens.marks done rfl
  rw [Program.bind_eq]
  refine (ensures_settled reliable (.recordUserSignIn _ method) rfl settled).bind
    fun _ recorded read => ?_
  obtain ⟨-, done, settled⟩ := read
  have opens := opens.marks done rfl
  exact .done ⟨settled, opens⟩

theorem ensures_refresh (reliable : environment.Reliable) (gravatarKey : String → String)
    (identity : AuthenticatedUser)
    (settled : Settled opened directoryId base userId world.accounts) :
    (refreshProviderIdentity gravatarKey userId identity).Ensures (AccountWorld.handle environment)
      (fun _ after => Settled opened directoryId base userId after.accounts)
      (fun _ after => Settled opened directoryId base userId after.accounts) world := by
  rw [refreshProviderIdentity, Program.bind_eq]
  refine (ensures_settled reliable (.setDisplayName userId _) rfl settled).bind fun _ _ named => ?_
  exact (ensures_settled reliable (.setAvatarHash userId _) rfl named.2.2).mono
    (fun _ _ pictured => pictured.2.2) fun _ _ failed => failed

/-- The number of the next account is bound to nothing. -/
theorem not_bound_next (sound : accounts.Integrity) (i : String) :
    ¬ Bound accounts accounts.nextUserId i := by
  intro bound'
  obtain ⟨user, there, same⟩ := List.mem_map.mp (bound'.hasUser sound)
  have below := sound.userBelow user there
  rw [same] at below
  exact absurd below (Nat.lt_irrefl _)

/-- Where neither profiles nor sessions change, entries have the accounts that they had. -/
theorem entries_untouched (held : EntriesBound opened before)
    (profiles : after.profiles = before.profiles) (sessions : after.sessions = before.sessions) :
    EntriesBound opened after ∧ OthersBound directoryId before after := by
  refine ⟨fun entry listed => ?_, fun other i _ bound' => ?_⟩
  · simp only [Stands, Holds, Bound, profiles, sessions]
    exact held entry listed
  · simp only [Bound, profiles]
    exact bound'

theorem perform_createUser {username hash : String} {approved : Bool} {user : User}
    (made : (accounts.perform (.createUser username hash approved)).2 = .ok user)
    (done : after = (accounts.perform (.createUser username hash approved)).1) :
    user.id = accounts.nextUserId ∧ after.hasUser user.id ∧
      after.profiles = accounts.profiles ∧ after.sessions = accounts.sessions := by
  simp only [Accounts.perform] at made done
  split at made
  · cases made
  · rename_i free
    rw [if_neg free] at done
    cases made
    subst done
    exact ⟨rfl, by simp [Accounts.hasUser], rfl, rfl⟩

theorem perform_createUser_error {username hash : String} {approved : Bool} {error : RepositoryError}
    (refused : (accounts.perform (.createUser username hash approved)).2 = .error error) :
    (accounts.perform (.createUser username hash approved)).1 = accounts := by
  simp only [Accounts.perform] at refused ⊢
  split at refused
  · rename_i clash
    rw [if_pos clash]
  · cases refused

theorem perform_setDirectoryId {i : String}
    (answered : (accounts.perform (.setDirectoryId userId i)).2 = .ok ()) :
    (accounts.perform (.setDirectoryId userId i)).1 = { accounts with
      profiles := accounts.upsertProfile userId fun profile =>
        { profile with directoryId := some i } } := by
  simp only [Accounts.perform] at answered ⊢
  split at answered
  · cases answered
  · rename_i there
    rw [if_neg there]
    split at answered
    · cases answered
    · rename_i free
      rw [if_neg free]

theorem perform_setDirectoryId_error {i : String} {error : RepositoryError}
    (refused : (accounts.perform (.setDirectoryId userId i)).2 = .error error) :
    (accounts.perform (.setDirectoryId userId i)).1 = accounts := by
  simp only [Accounts.perform] at refused ⊢
  split at refused
  · rename_i absent
    rw [if_pos absent]
  · rename_i there
    rw [if_neg there]
    split at refused
    · rename_i clash
      rw [if_pos clash]
    · cases refused

/-- An account that is bound to nothing is bound to the entry. -/
theorem settled_of_bound {i : String} (free : ∀ j, ¬ Bound before userId j)
    (entries : EntriesBound opened before) (others : OthersBound (some i) base before) :
    Settled opened (some i) base userId { before with
      profiles := before.upsertProfile userId fun profile =>
        { profile with directoryId := some i } } := by
  have stays : ∀ {other j}, Bound before other j → Bound { before with
      profiles := before.upsertProfile userId fun profile =>
        { profile with directoryId := some i } } other j := by
    intro other j bound'
    have apart : other ≠ userId := fun same => free j (same ▸ bound')
    rw [bound_set, if_neg apart]
    exact bound'
  refine ⟨fun entry listed => ?_, fun other j differs held => stays (others other j differs held), ?_⟩
  · obtain ⟨stands, owned⟩ := entries entry listed
    exact ⟨stands, fun other has => stays (owned other has)⟩
  · intro j among
    rw [bound_set, if_pos rfl]
    exact (Option.some.inj among).symm

/-- A first sign-in makes an account that was bound to nothing. -/
theorem ensures_shadowAccount (reliable : environment.Reliable) (identity : AuthenticatedUser)
    (start : world.accounts = base) (held : EntriesBound opened base) :
    (shadowAccount identity).Ensures (AccountWorld.handle environment)
      (fun user after => Settled opened identity.directoryId base user.id after.accounts)
      (fun _ after => EntriesBound opened after.accounts ∧
        OthersBound identity.directoryId base after.accounts) world := by
  have sound : base.Integrity := start ▸ world.database.sound
  rw [shadowAccount]
  refine Program.Ensures.call ?_
  rw [Program.done_bind, Program.bind_eq]
  generalize (AccountWorld.handle environment world .random).2 = hash
  have here : (AccountWorld.handle environment world .random).1.accounts = base := start
  generalize (AccountWorld.handle environment world .random).1 = reached at here ⊢
  subst here
  refine (ensures_reliable reliable (fun user after made done => perform_createUser made done)
    fun error after refused done => ?_).bind fun user made read => ?_
  · rw [done, perform_createUser_error refused]
    exact entries_untouched held rfl rfl
  obtain ⟨fresh, there, profiles, sessions⟩ := read
  have untouched : EntriesBound opened made.accounts ∧
      OthersBound identity.directoryId reached.accounts made.accounts :=
    entries_untouched held profiles sessions
  cases taken : identity.directoryId with
  | none =>
      rw [taken] at untouched
      exact .done ⟨untouched.1, untouched.2, fun _ out => by cases out⟩
  | some i =>
      rw [taken] at untouched
      dsimp only
      rw [Program.bind_eq]
      refine (ensures_reliable reliable (fun _ after answered done => ?_)
        fun error after refused done => ?_).bind fun _ after
          (settled : Settled opened (some i) reached.accounts user.id after.accounts) => .done settled
      · have free : ∀ j, ¬ Bound made.accounts user.id j := by
          intro j
          simp only [Bound, profiles, fresh]
          exact not_bound_next sound j
        rw [done, perform_setDirectoryId answered]
        exact settled_of_bound free untouched.1 untouched.2
      · rw [done, perform_setDirectoryId_error refused]
        exact untouched

end Steps

/-- What happens to the accounts: an entry of the directory signs in under the name it types, or
somebody registers. -/
inductive AccountEvent where
  | signIn (typedName : String) (identity : AuthenticatedUser)
  | register (username : String)

/-- The entry that signs in, if it has an identifier. -/
def AccountEvent.entryId : AccountEvent → Option String
  | .signIn _ identity => identity.directoryId
  | .register _ => none

/-- The tables, and the sessions that entries opened. -/
structure Registry where
  world : AccountWorld
  opened : SessionLog := []

/-- One more session of an entry, if the entry has an identifier. -/
def note (opened : SessionLog) (token : String) : Option String → SessionLog
  | none => opened
  | some directoryId => (token, directoryId) :: opened

/-- What is fixed while people sign in. -/
structure SignInSetup where
  clock : Nat → Instant
  uuid : Nat → String
  gravatarKey : String → String
  rootUsers : RootUsers

def SignInSetup.handle (setup : SignInSetup) :
    Handler AccountWorld AccountRequest AccountRequest.Answer :=
  AccountWorld.handle (withoutFaults setup.clock setup.uuid)

/-- The registry after one event. -/
def afterEvent (setup : SignInSetup) (registry : Registry) : AccountEvent → Registry
  | .signIn typedName identity =>
      match (signInByDirectory setup.gravatarKey setup.rootUsers typedName identity).run setup.handle
          registry.world with
      | some (.ok session, after) => ⟨after, note registry.opened session.token identity.directoryId⟩
      | some (.error _, after) => ⟨after, registry.opened⟩
      | none => registry
  | .register username =>
      match (registerUser setup.rootUsers username).run setup.handle registry.world with
      | some (_, after) => ⟨after, registry.opened⟩
      | none => registry

/-- Entries of different identifiers are not signed in as one account. -/
def Apart (registry : Registry) : Prop :=
  ∀ first ∈ registry.opened, ∀ second ∈ registry.opened, ∀ userId,
    Holds registry.world.accounts userId (.session first.1) →
      Holds registry.world.accounts userId (.session second.1) → first.2 = second.2

/-- A sign-in that meets only what belongs to its entry. -/
def Admissible (rootUsers : RootUsers) (accounts : Accounts) : AccountEvent → Prop
  | .signIn typedName identity =>
      ∀ target ∈ chooseTarget identity.username
          (candidatesOf accounts (accounts.userNamed? typedName) identity),
        Untangled rootUsers accounts (accounts.userNamed? typedName) identity target
  | .register _ => True

instance (rootUsers : RootUsers) (accounts : Accounts) :
    (event : AccountEvent) → Decidable (Admissible rootUsers accounts event)
  | .signIn _ _ => inferInstanceAs (Decidable (∀ target ∈ chooseTarget _ _, _))
  | .register _ => .isTrue trivial

section Runs

variable {setup : SignInSetup} {opened : SessionLog} {world : AccountWorld} {base : Accounts}

theorem EntriesBound.note {accounts : Accounts} {userId : Nat} {directoryId : Option String}
    {token : String} (settled : Settled opened directoryId base userId accounts)
    (opens : Opens accounts userId token) :
    EntriesBound (Guarantees.note opened token directoryId) accounts := by
  cases directoryId with
  | none => exact settled.entries
  | some i =>
      intro entry listed
      obtain rfl | earlier := List.mem_cons.mp listed
      · exact ⟨opens.stands, fun other has => opens.owned other has ▸ settled.own i rfl⟩
      · exact settled.entries entry earlier

theorem ensures_signIn {environment : Environment} (reliable : environment.Reliable)
    (gravatarKey : String → String) {rootUsers : RootUsers} {typedName : String}
    {identity : AuthenticatedUser}
    (admissible : Admissible rootUsers world.accounts (.signIn typedName identity))
    (held : EntriesBound opened world.accounts) :
    (signInByDirectory gravatarKey rootUsers typedName identity).Ensures
      (AccountWorld.handle environment)
      (fun session after =>
        EntriesBound (note opened session.token identity.directoryId) after.accounts ∧
          OthersBound identity.directoryId world.accounts after.accounts)
      (fun _ after => EntriesBound opened after.accounts ∧
        OthersBound identity.directoryId world.accounts after.accounts) world := by
  rw [signInByDirectory, Program.bind_eq]
  refine (ensures_ok reliable rfl).bind fun typed reached read => ?_
  obtain ⟨rfl, same⟩ := read
  have same : reached.accounts = world.accounts := same
  have known : ∀ user ∈ world.accounts.userNamed? typedName, user ∈ reached.accounts.users :=
    fun user found => same ▸ List.mem_of_find?_eq_some found
  have untouched : EntriesBound opened reached.accounts ∧
      OthersBound identity.directoryId world.accounts reached.accounts :=
    entries_untouched held (same ▸ rfl) (same ▸ rfl)
  split
  · exact .fail untouched
  rw [startSession, Program.bind_eq]
  have account : (directoryAccount rootUsers (world.accounts.userNamed? typedName) identity).Ensures
      (AccountWorld.handle environment)
      (fun user after => Settled opened identity.directoryId world.accounts user.id after.accounts)
      (fun _ after => EntriesBound opened after.accounts ∧
        OthersBound identity.directoryId world.accounts after.accounts) reached := by
    cases chosen : chooseTarget identity.username
        (candidatesOf world.accounts (world.accounts.userNamed? typedName) identity) with
    | none =>
        refine ensures_candidates reliable fun reached' same' => ?_
        rw [settleAccount, same, chosen]
        exact ensures_shadowAccount reliable identity (same'.trans same) held
    | some target =>
        have untangled := admissible target chosen
        have found : chooseTarget identity.username (candidatesOf reached.accounts
            (world.accounts.userNamed? typedName) identity) = some target := by
          rw [same]
          exact chosen
        refine (ensures_directoryAccount reliable known found).mono
          (fun user after done => ?_) fun error after failed => ?_
        · obtain ⟨own, settled, -⟩ := done
          rw [settled, own, same]
          exact ⟨untangled.entriesBound held, untangled.othersBound,
            fun i taken => untangled.bound_target taken⟩
        · have refused := failed.2
          rw [same] at refused
          exact absurd untangled.foldsAll refused
  refine account.bind fun user reached' settled => ?_
  rw [Program.bind_eq]
  refine ((ensures_refresh reliable gravatarKey identity settled).mono (fun _ _ kept => kept)
    fun _ _ kept => ⟨kept.entries, kept.others⟩).bind fun _ refreshed settled => ?_
  refine (ensures_openSession reliable .ldap settled).mono (fun session after done => ?_)
    fun _ _ kept => ⟨kept.entries, kept.others⟩
  exact ⟨EntriesBound.note done.1 done.2, done.1.others⟩

/-- Registering makes an account that is bound to nothing. -/
theorem ensures_register {environment : Environment} (reliable : environment.Reliable)
    (rootUsers : RootUsers) (username : String) (held : EntriesBound opened world.accounts) :
    (registerUser rootUsers username).Ensures (AccountWorld.handle environment)
      (fun _ after => EntriesBound opened after.accounts ∧ OthersBound none world.accounts after.accounts)
      (fun _ after => EntriesBound opened after.accounts ∧ OthersBound none world.accounts after.accounts)
      world := by
  have untouched : ∀ after : AccountWorld, after.accounts = world.accounts →
      EntriesBound opened after.accounts ∧ OthersBound none world.accounts after.accounts :=
    fun after same => entries_untouched held (same ▸ rfl) (same ▸ rfl)
  have mode : (registrationOpen).Ensures (AccountWorld.handle environment)
      (fun _ after => after.accounts = world.accounts) (fun _ after => EntriesBound opened after.accounts ∧
        OthersBound none world.accounts after.accounts) world := by
    rw [registrationOpen, Program.bind_eq]
    refine (ensures_ok reliable rfl).bind fun stored reached read => ?_
    dsimp only
    split
    · rw [Program.bind_eq]
      exact (ensures_ok reliable rfl).bind fun _ _ read' => .done (Eq.trans read'.2 read.2)
    · exact .done read.2
  rw [registerUser, Program.bind_eq]
  refine mode.bind fun isOpen reached same => ?_
  split
  · exact .fail (untouched _ same)
  split
  · exact .fail (untouched _ same)
  rw [Program.bind_eq]
  refine (ensures_ok reliable rfl).bind fun existing found read => ?_
  have same' : found.accounts = world.accounts := Eq.trans read.2 same
  split
  · exact .fail (untouched _ same')
  rw [Program.bind_eq]
  refine Program.Ensures.call ?_
  rw [Program.done_bind, Program.bind_eq]
  refine (ensures_ok reliable rfl).bind fun stored asked read => ?_
  have same'' : asked.accounts = world.accounts := Eq.trans read.2 same'
  rw [Program.bind_eq]
  refine (ensures_reliable reliable (fun user after made done => perform_createUser made done)
    fun error after refused done => ?_).bind fun user made read => .done ?_
  · rw [done, perform_createUser_error refused]
    exact untouched _ same''
  · exact entries_untouched held (read.2.2.1.trans (same'' ▸ rfl)) (read.2.2.2.trans (same'' ▸ rfl))

/-- An event that meets only what belongs to its entry keeps every entry where it belongs. -/
theorem afterEvent_bound (setup : SignInSetup) (registry : Registry) (event : AccountEvent)
    (admissible : Admissible setup.rootUsers registry.world.accounts event)
    (held : EntriesBound registry.opened registry.world.accounts) :
    EntriesBound (afterEvent setup registry event).opened
        (afterEvent setup registry event).world.accounts ∧
      OthersBound event.entryId registry.world.accounts
        (afterEvent setup registry event).world.accounts := by
  have reliable : (withoutFaults setup.clock setup.uuid).Reliable := fun _ => rfl
  have stays : OthersBound event.entryId registry.world.accounts registry.world.accounts :=
    fun _ _ _ bound' => bound'
  cases event with
  | signIn typedName identity =>
      have ensured := ensures_signIn reliable setup.gravatarKey admissible held
      cases ran : (signInByDirectory setup.gravatarKey setup.rootUsers typedName identity).run
          setup.handle registry.world with
      | none =>
          simp only [afterEvent, ran]
          exact ⟨held, stays⟩
      | some ended =>
          obtain ⟨outcome, after⟩ := ended
          cases outcome with
          | ok session =>
              simp only [afterEvent, ran]
              exact ensured.1 session after ran
          | error error =>
              simp only [afterEvent, ran]
              exact ensured.2 error after ran
  | register username =>
      cases ran : (registerUser setup.rootUsers username).run setup.handle registry.world with
      | none =>
          simp only [afterEvent, ran]
          exact ⟨held, stays⟩
      | some ended =>
          obtain ⟨outcome, after⟩ := ended
          simp only [afterEvent, ran]
          exact (ensures_register reliable setup.rootUsers username held).always ran

theorem EntriesBound.apart {registry : Registry}
    (held : EntriesBound registry.opened registry.world.accounts) : Apart registry := by
  intro first one second two userId here there
  exact ((held first one).2 userId here).unique registry.world.database.sound
    ((held second two).2 userId there)

end Runs

/-- In every run whose sign-ins meet only what belongs to their entry, entries of different
identifiers are never signed in as one account, and an account that is bound to an entry is neither
merged nor bound again by another. -/
theorem one_account_per_person (setup : SignInSetup) (database : AccountDatabase)
    (events : List AccountEvent)
    (admissible : EveryStep (afterEvent setup)
      (fun registry event => Admissible setup.rootUsers registry.world.accounts event)
      ⟨⟨database, 0⟩, []⟩ events) :
    EveryStep (afterEvent setup)
      (fun registry event => Apart (afterEvent setup registry event) ∧
        OthersBound event.entryId registry.world.accounts
          (afterEvent setup registry event).world.accounts)
      ⟨⟨database, 0⟩, []⟩ events := by
  refine admissible.of_invariant
    (fun registry => EntriesBound registry.opened registry.world.accounts)
    (fun _ out => absurd out List.not_mem_nil) fun registry event held met => ?_
  obtain ⟨kept, others⟩ := afterEvent_bound setup registry event met held
  exact ⟨kept, kept.apart, others⟩

section Examples

def signInSetup : SignInSetup := ⟨id, fun step => toString step, id, ["root"]⟩

def emptyRegistry : Registry := ⟨⟨.empty, 0⟩, []⟩

/-- Two sessions of different entries are of one account. -/
def sharesAccount (registry : Registry) : Bool :=
  registry.opened.any fun first => registry.opened.any fun second => first.2 ≠ second.2 &&
    registry.world.accounts.sessions.any fun row => registry.world.accounts.sessions.any fun other =>
      row.token = first.1 && other.token = second.1 && row.userId = other.userId

theorem not_apart_of_shares {registry : Registry} (shares : sharesAccount registry = true) :
    ¬ Apart registry := by
  intro apart
  simp only [sharesAccount, List.any_eq_true, Bool.and_eq_true, decide_eq_true_eq] at shares
  obtain ⟨first, one, second, two, differ, row, held, other, there, ⟨same, same'⟩, together⟩ := shares
  exact differ (apart first one second two row.userId ⟨row, held, rfl, same⟩
    ⟨other, there, together.symm, same'⟩)

/-- A person leaves, and another entry of the directory takes the username over. -/
def reusedName : List AccountEvent :=
  [.signIn "axel" { username := "axel", directoryId := some "uuid:1" },
    .signIn "axel" { username := "axel", directoryId := some "uuid:2" }]

/-- The second entry signs in as the account of the first. -/
theorem reused_name_shares_account :
    ¬ Apart (runSteps (afterEvent signInSetup) emptyRegistry reusedName) :=
  not_apart_of_shares (by decide +kernel)

/-- Two people sign in, one of them is renamed, and a registration is refused. -/
theorem one_account_per_person_renamed :
    EveryStep (afterEvent signInSetup)
      (fun registry event => Apart (afterEvent signInSetup registry event) ∧
        OthersBound event.entryId registry.world.accounts
          (afterEvent signInSetup registry event).world.accounts)
      emptyRegistry
      [.signIn "axel.s" { username := "axel.s", directoryId := some "uuid:1" },
        .signIn "bea" { username := "bea", directoryId := some "uuid:2" }, .register "cleo",
        .signIn "axel" { username := "axel", directoryId := some "uuid:1" }] :=
  one_account_per_person signInSetup .empty _ (by decide +kernel)

end Examples
end Sanshain.Guarantees
