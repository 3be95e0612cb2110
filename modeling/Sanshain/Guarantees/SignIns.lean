import Sanshain.Application.SignIn
import Sanshain.Infrastructure.AccountIntegrity

namespace Sanshain.Guarantees

open Sanshain.Domain Sanshain.Effects Sanshain.Application Sanshain.Infrastructure Sanshain.Text

/-- An environment in which no call fails but for the tables' own reasons. -/
def withoutFaults (clock : Nat → Instant) (uuid : Nat → String) : Environment :=
  ⟨clock, uuid, fun _ => none⟩

/-- The accounts that a directory entry may be of. -/
def candidatesOf (accounts : Accounts) (typed : Option User) (identity : AuthenticatedUser) :
    List User :=
  [identity.directoryId.bind accounts.userByDirectoryId?, accounts.userNamed? identity.username,
    typed, identity.email.bind fun email => accounts.userNamed? (trim email)].foldl consider []

section Effects

variable (rootUsers : RootUsers) (canonical : String) (target : User)

/-- The tables once the other account is folded into the target. -/
def absorb (accounts : Accounts) (other : User) : Accounts :=
  { (accounts.moved other.id target.id).deleteUser other.id with
    auditLogs := accounts.auditLogs ++ [(target.username, mergeLog canonical target other)] }

/-- The accounts that are folded into the target: all that may be, up to one that is refused. -/
def folded : Accounts → List User → List User
  | _, [] => []
  | accounts, other :: rest =>
      if mergeable rootUsers target other then
        if (accounts.mergeUserInto other.id target.id).isOk then
          other :: folded (absorb canonical target accounts other) rest
        else []
      else folded accounts rest

/-- The tables once all these are folded into the target. -/
def absorbAll (accounts : Accounts) (others : List User) : Accounts :=
  others.foldl (absorb canonical target) accounts

/-- The account takes the name of the entry. -/
def renames (accounts : Accounts) : Bool :=
  target.username ≠ canonical && !((accounts.userNamed? canonical).any (·.id ≠ target.id)) &&
    !rootUsers.contains target.username && !rootUsers.contains canonical

/-- The tables once the account has the name that it gets. -/
def renamed (accounts : Accounts) : Accounts :=
  if renames rootUsers canonical target accounts then
    { accounts with
      users := accounts.users.map fun user =>
        if user.id = target.id then { user with username := canonical } else user
      auditLogs := accounts.auditLogs ++ [(canonical, renameLog canonical target)] }
  else accounts

/-- The tables once the account has the identifier of the entry, if it gets it. -/
def bound (accounts : Accounts) : Option String → Accounts
  | none => accounts
  | some directoryId =>
      if (accounts.userByDirectoryId? directoryId).all (·.id = target.id) then
        { accounts with profiles := accounts.upsertProfile target.id fun profile =>
            { profile with directoryId := some directoryId } }
      else accounts

end Effects

section Candidates

theorem mem_consider {candidates : List User} {found : Option User} {user : User}
    (held : user ∈ consider candidates found) : user ∈ candidates ∨ found = some user := by
  cases found with
  | none => exact .inl held
  | some other =>
      rw [consider] at held
      split at held
      · exact .inl held
      · obtain earlier | last := List.mem_append.mp held
        · exact .inl earlier
        · exact .inr (congrArg some (List.mem_singleton.mp last).symm)

theorem mem_foldl_consider {founds : List (Option User)} {candidates : List User} {user : User}
    (held : user ∈ founds.foldl consider candidates) :
    user ∈ candidates ∨ some user ∈ founds := by
  induction founds generalizing candidates with
  | nil => exact .inl held
  | cons found rest ih =>
      obtain earlier | later := ih held
      · obtain before | here := mem_consider earlier
        · exact .inl before
        · exact .inr (here ▸ List.mem_cons_self)
      · exact .inr (List.mem_cons_of_mem _ later)

variable {accounts : Accounts} {typed : Option User} {identity : AuthenticatedUser} {target : User}

/-- Candidates are accounts. -/
theorem mem_users_of_candidate (known : ∀ user ∈ typed, user ∈ accounts.users) {user : User}
    (held : user ∈ candidatesOf accounts typed identity) : user ∈ accounts.users := by
  obtain out | found := mem_foldl_consider held
  · exact absurd out List.not_mem_nil
  · simp only [List.mem_cons, List.not_mem_nil, or_false] at found
    obtain byId | byName | byTyped | byEmail := found
    · obtain ⟨directoryId, -, search⟩ := Option.bind_eq_some_iff.mp byId.symm
      obtain ⟨profile, -, there⟩ := Option.bind_eq_some_iff.mp search
      exact List.mem_of_find?_eq_some there
    · exact List.mem_of_find?_eq_some byName.symm
    · exact known user byTyped.symm
    · obtain ⟨email, -, search⟩ := Option.bind_eq_some_iff.mp byEmail.symm
      exact List.mem_of_find?_eq_some search

theorem mem_of_chooseTarget {canonical : String} {candidates : List User}
    (chosen : chooseTarget canonical candidates = some target) : target ∈ candidates := by
  unfold chooseTarget at chosen
  cases named : candidates.find? (·.username = canonical) with
  | some user =>
      rw [named, Option.some_or] at chosen
      cases chosen
      exact List.mem_of_find?_eq_some named
  | none =>
      rw [named, Option.none_or] at chosen
      exact List.mem_of_mem_head? chosen

end Candidates

section Absorption

variable {canonical : String} {target : User} {accounts : Accounts}

/-- Who is folded away is no account any more, and all others are as they were. -/
theorem absorbAll_users (others : List User) :
    (absorbAll canonical target accounts others).users =
      accounts.users.filter fun user => user.id ∉ others.map (·.id) := by
  induction others generalizing accounts with
  | nil => simp [absorbAll]
  | cons other rest ih =>
      rw [absorbAll, List.foldl_cons, ← absorbAll, ih]
      simp only [absorb, Accounts.deleteUser, Accounts.moved, List.filter_filter]
      congr 1
      funext user
      simp only [List.map_cons, List.mem_cons, not_or, Bool.decide_and, Bool.and_comm]

theorem absorbAll_hasUser {others : List User} {userId : Nat} :
    (absorbAll canonical target accounts others).hasUser userId ↔
      accounts.hasUser userId ∧ userId ∉ others.map (·.id) := by
  simp only [Accounts.hasUser, absorbAll_users, List.mem_map, List.mem_filter, decide_eq_true_eq]
  constructor
  · rintro ⟨user, ⟨held, out⟩, rfl⟩
    exact ⟨⟨user, held, rfl⟩, out⟩
  · rintro ⟨⟨user, held, rfl⟩, out⟩
    exact ⟨user, ⟨held, out⟩, rfl⟩

theorem folded_subset {rootUsers : RootUsers} {others : List User} :
    ∀ other ∈ folded rootUsers canonical target accounts others,
      other ∈ others ∧ mergeable rootUsers target other = true := by
  induction others generalizing accounts with
  | nil => exact fun _ out => absurd out List.not_mem_nil
  | cons first rest ih =>
      intro other held
      unfold folded at held
      split at held
      · rename_i may
        split at held
        · obtain rfl | later := List.mem_cons.mp held
          · exact ⟨List.mem_cons_self, may⟩
          · exact ⟨List.mem_cons_of_mem _ (ih other later).1, (ih other later).2⟩
        · exact absurd held List.not_mem_nil
      · exact ⟨List.mem_cons_of_mem _ (ih other held).1, (ih other held).2⟩

theorem renamed_hasUser {rootUsers : RootUsers} {userId : Nat} :
    (renamed rootUsers canonical target accounts).hasUser userId ↔ accounts.hasUser userId := by
  unfold renamed
  split
  · have ids : (accounts.users.map fun user =>
        if user.id = target.id then { user with username := canonical } else user).map (·.id) =
          accounts.users.map (·.id) := by
      rw [List.map_map]
      refine List.map_congr_left fun user _ => ?_
      simp only [Function.comp_apply]
      split <;> rfl
    rw [Accounts.hasUser, ids]
    rfl
  · rfl

end Absorption

section Programs

variable {environment : Environment} {world : AccountWorld}

/-- Without faults a call does what the tables do. -/
theorem ensures_reliable (reliable : environment.Reliable) {request : AccountCall}
    {returns : request.Result → AccountWorld → Prop} {fails : AppError → AccountWorld → Prop}
    (good : ∀ value after, (world.accounts.perform request).2 = .ok value →
      after.accounts = (world.accounts.perform request).1 → returns value after)
    (bad : ∀ error after, (world.accounts.perform request).2 = .error error →
      after.accounts = (world.accounts.perform request).1 → fails error.toAppError after) :
    (accountRepo request).Ensures (AccountWorld.handle environment) returns fails world := by
  have performed : AccountWorld.handle environment world (.repo request) =
      (⟨(world.database.perform request).1, world.steps + 1⟩, (world.database.perform request).2) := by
    simp [AccountWorld.handle, reliable world.steps]
  refine Program.Ensures.call ?_
  rw [performed]
  cases answer : (world.database.perform request).2 with
  | ok value => exact Program.Ensures.done (good value _ answer rfl)
  | error error => exact Program.Ensures.fail (bad error _ answer rfl)

/-- A call that the tables carry out. -/
theorem ensures_ok (reliable : environment.Reliable) {request : AccountCall} {value : request.Result}
    (answered : (world.accounts.perform request).2 = .ok value)
    {fails : AppError → AccountWorld → Prop} :
    (accountRepo request).Ensures (AccountWorld.handle environment)
      (fun value' after => value' = value ∧ after.accounts = (world.accounts.perform request).1)
      fails world := by
  refine ensures_reliable reliable (fun value' after given done => ?_) fun error after given _ => ?_
  · rw [answered] at given
    cases given
    exact ⟨rfl, done⟩
  · rw [answered] at given
    cases given

variable {rootUsers : RootUsers} {canonical : String} {target : User}

/-- Merging goes on until one account cannot be merged. -/
theorem ensures_foldInto (reliable : environment.Reliable) (others : List User) :
    (foldInto rootUsers canonical target others).Ensures (AccountWorld.handle environment)
      (fun _ after => after.accounts = absorbAll canonical target world.accounts
          (folded rootUsers canonical target world.accounts others) ∧
        folded rootUsers canonical target world.accounts others =
          others.filter (mergeable rootUsers target))
      (fun _ after => after.accounts = absorbAll canonical target world.accounts
          (folded rootUsers canonical target world.accounts others) ∧
        folded rootUsers canonical target world.accounts others ≠
          others.filter (mergeable rootUsers target)) world := by
  induction others generalizing world with
  | nil => exact .done ⟨rfl, rfl⟩
  | cons other rest ih =>
      rw [foldInto, Program.forEach]
      by_cases may : mergeable rootUsers target other = true
      · rw [if_pos may, Program.bind_eq, Program.bind_assoc]
        simp only [folded, if_pos may, List.filter_cons_of_pos may]
        cases merged : world.accounts.mergeUserInto other.id target.id with
        | error error =>
            rw [if_neg (by simp [Except.isOk, Except.toBool])]
            refine (ensures_reliable reliable (fun value after given done => ?_)
              fun error after given done => ?_).bind
                (fun _ _ (out : False) => out.elim)
            · simp [Accounts.perform, merged] at given
            · rw [done]
              simp [Accounts.perform, merged, absorbAll]
        | ok moved =>
            rw [if_pos (by simp [Except.isOk, Except.toBool])]
            have answered : (world.accounts.perform (.mergeUserInto other.id target.id)).2 = .ok () := by
              simp [Accounts.perform, merged]
            refine (ensures_ok reliable answered).bind fun _ reached done => ?_
            refine (ensures_ok reliable rfl).bind fun _ logged done' => ?_
            have settled : logged.accounts = absorb canonical target world.accounts other := by
              rw [done'.2]
              simp only [Accounts.perform, done.2, merged, Accounts.mergeUserInto_ok merged, absorb]
              rfl
            rw [← settled]
            refine (@ih logged).mono (fun _ after kept => ?_) fun error after kept => ?_
            · rw [absorbAll, List.foldl_cons, ← settled]
              exact ⟨kept.1, congrArg _ kept.2⟩
            · rw [absorbAll, List.foldl_cons, ← settled]
              exact ⟨kept.1, fun same => kept.2 (List.cons.inj same).2⟩
      · rw [if_neg may]
        simp only [folded, if_neg may, List.filter_cons_of_neg may]
        exact ih

/-- The name is taken unless another account or a root has it, so the tables take it too. -/
theorem ensures_takeName (reliable : environment.Reliable)
    {fails : AppError → AccountWorld → Prop} :
    (takeName rootUsers canonical target).Ensures (AccountWorld.handle environment)
      (fun user after => user.id = target.id ∧
        after.accounts = renamed rootUsers canonical target world.accounts) fails world := by
  rw [takeName, Program.bind_eq]
  refine (ensures_ok reliable rfl).bind fun holder reached read => ?_
  obtain ⟨rfl, same⟩ := read
  have same : reached.accounts = world.accounts := same
  by_cases taken : renames rootUsers canonical target world.accounts = true
  · rw [if_pos (by simpa [renames] using taken)]
    have free : ¬ (reached.accounts.hasUser target.id ∧ reached.accounts.users.any
        (fun user => user.username = canonical && user.id ≠ target.id) = true) := by
      rintro ⟨-, clash⟩
      obtain ⟨user, held, hit⟩ := List.any_eq_true.mp clash
      rw [Bool.and_eq_true, decide_eq_true_eq, decide_eq_true_eq] at hit
      cases found : world.accounts.userNamed? canonical with
      | none =>
          have absent := List.find?_eq_none.mp found user (same ▸ held)
          exact absent (by simpa using hit.1)
      | some holder =>
          simp only [renames, found, Option.any_some, Bool.and_eq_true] at taken
          have named := List.find?_some found
          have stored : user ∈ world.accounts.users := same ▸ held
          have equal : holder = user := List.inj_on_of_nodup_map world.database.sound.usernames
            (List.mem_of_find?_eq_some found) stored (by simpa [hit.1] using named)
          simp [equal, hit.2] at taken
    have performed : reached.accounts.perform (.renameUser target.id canonical) =
        ({ reached.accounts with users := reached.accounts.users.map fun user =>
          if user.id = target.id then { user with username := canonical } else user }, .ok ()) := by
      rw [Accounts.perform, if_neg free]
    rw [Program.bind_eq]
    refine (ensures_ok reliable (congrArg Prod.snd performed)).bind fun _ named done => ?_
    rw [Program.bind_eq]
    refine (ensures_ok reliable rfl).bind fun _ logged done' => ?_
    refine .done ⟨rfl, ?_⟩
    rw [done'.2, renamed, if_pos taken]
    simp only [Accounts.perform]
    rw [done.2, performed, same]
  · rw [if_neg (by simpa [renames] using taken)]
    refine .done ⟨rfl, ?_⟩
    rw [renamed, if_neg taken, same]

/-- An identifier that another profile has belongs to the account of that profile. -/
theorem userByDirectoryId?_eq_some {accounts : Accounts} (sound : accounts.Integrity)
    {directoryId : String} {profile : ProfileRow} (held : profile ∈ accounts.profiles)
    (bound : profile.directoryId = some directoryId) :
    ∃ user ∈ accounts.users, accounts.userByDirectoryId? directoryId = some user ∧
      user.id = profile.userId := by
  obtain ⟨user, there, same⟩ := List.mem_map.mp (sound.profilesKnown profile held)
  have found : accounts.profiles.find? (·.directoryId = some directoryId) = some profile := by
    cases search : accounts.profiles.find? (·.directoryId = some directoryId) with
    | none =>
        have absent := List.find?_eq_none.mp search profile held
        exact absurd (by simpa using bound) absent
    | some other =>
        have hit : other.directoryId = some directoryId := by simpa using List.find?_some search
        rw [sound.directoryIds other (List.mem_of_find?_eq_some search) profile held _ hit bound]
  cases search : accounts.users.find? (·.id = profile.userId) with
  | none =>
      have absent := List.find?_eq_none.mp search user there
      exact absurd (by simpa using same) absent
  | some other =>
      refine ⟨other, List.mem_of_find?_eq_some search, ?_, by simpa using List.find?_some search⟩
      rw [Accounts.userByDirectoryId?, found, Option.bind_some, search]

/-- The identifier is taken unless another account holds it, so the tables take it too. -/
theorem ensures_takeDirectoryId (reliable : environment.Reliable)
    (known : world.accounts.hasUser target.id) (directoryId : Option String)
    {fails : AppError → AccountWorld → Prop} :
    (takeDirectoryId target directoryId).Ensures (AccountWorld.handle environment)
      (fun _ after => after.accounts = bound target world.accounts directoryId) fails world := by
  cases directoryId with
  | none => exact .done rfl
  | some directoryId =>
      rw [takeDirectoryId, Program.bind_eq]
      refine (ensures_ok reliable rfl).bind fun holder reached read => ?_
      obtain ⟨rfl, same⟩ := read
      have same : reached.accounts = world.accounts := same
      dsimp only [bound]
      split
      · rename_i own
        have free : ¬ (reached.accounts.profiles.any fun profile =>
            profile.directoryId = some directoryId && profile.userId ≠ target.id) = true := by
          intro clash
          obtain ⟨profile, held, hit⟩ := List.any_eq_true.mp clash
          rw [Bool.and_eq_true, decide_eq_true_eq, decide_eq_true_eq] at hit
          have stored : profile ∈ world.accounts.profiles := same ▸ held
          obtain ⟨user, -, found, id⟩ := userByDirectoryId?_eq_some world.database.sound stored hit.1
          rw [found, Option.all_some, decide_eq_true_eq, id] at own
          exact hit.2 own
        have performed : reached.accounts.perform (.setDirectoryId target.id directoryId) =
            ({ reached.accounts with
              profiles := reached.accounts.upsertProfile target.id fun profile =>
                { profile with directoryId := some directoryId } }, .ok ()) := by
          rw [Accounts.perform, if_neg (not_not.mpr (same ▸ known)), if_neg free]
        refine (ensures_ok reliable (congrArg Prod.snd performed)).mono (fun _ after done => ?_)
          fun _ _ failed => failed
        rw [done.2, performed, same]
      · exact .done same

theorem ensures_accountOfId (reliable : environment.Reliable) (directoryId : Option String)
    {fails : AppError → AccountWorld → Prop} :
    (accountOfId directoryId).Ensures (AccountWorld.handle environment)
      (fun found after => found = directoryId.bind world.accounts.userByDirectoryId? ∧
        after.accounts = world.accounts) fails world := by
  cases directoryId with
  | none => exact .done ⟨rfl, rfl⟩
  | some directoryId =>
      exact @ensures_ok environment world reliable (.findUserByDirectoryId directoryId) _ rfl fails

theorem ensures_accountOfEmail (reliable : environment.Reliable) (email : Option String)
    {fails : AppError → AccountWorld → Prop} :
    (accountOfEmail email).Ensures (AccountWorld.handle environment)
      (fun found after => found = (email.bind fun email => world.accounts.userNamed? (trim email)) ∧
        after.accounts = world.accounts) fails world := by
  cases email with
  | none => exact .done ⟨rfl, rfl⟩
  | some email =>
      exact @ensures_ok environment world reliable (.findUser (trim email)) _ rfl fails

variable {typed : Option User} {identity : AuthenticatedUser}

/-- The other candidates beside the target. -/
def othersOf (accounts : Accounts) (typed : Option User) (identity : AuthenticatedUser)
    (target : User) : List User :=
  (candidatesOf accounts typed identity).filter (·.id ≠ target.id)

/-- The accounts that a sign-in folds into the target. -/
def foldedBy (rootUsers : RootUsers) (accounts : Accounts) (typed : Option User)
    (identity : AuthenticatedUser) (target : User) : List User :=
  folded rootUsers identity.username target accounts (othersOf accounts typed identity target)

/-- No account that may be folded into the target is refused. -/
def FoldsAll (rootUsers : RootUsers) (accounts : Accounts) (typed : Option User)
    (identity : AuthenticatedUser) (target : User) : Prop :=
  foldedBy rootUsers accounts typed identity target =
    (othersOf accounts typed identity target).filter (mergeable rootUsers target)

instance (rootUsers : RootUsers) (accounts : Accounts) (typed : Option User)
    (identity : AuthenticatedUser) (target : User) :
    Decidable (FoldsAll rootUsers accounts typed identity target) :=
  inferInstanceAs (Decidable (_ = _))

/-- The tables once the sign-in has folded what it folds. -/
def foldedTables (rootUsers : RootUsers) (accounts : Accounts) (typed : Option User)
    (identity : AuthenticatedUser) (target : User) : Accounts :=
  absorbAll identity.username target accounts (foldedBy rootUsers accounts typed identity target)

/-- The tables once the sign-in has settled which account the entry has. -/
def settledTables (rootUsers : RootUsers) (accounts : Accounts) (typed : Option User)
    (identity : AuthenticatedUser) (target : User) : Accounts :=
  bound target (renamed rootUsers identity.username target
    (foldedTables rootUsers accounts typed identity target)) identity.directoryId

theorem foldedTables_hasTarget (rootUsers : RootUsers) {accounts : Accounts}
    (held : target ∈ accounts.users) :
    (foldedTables rootUsers accounts typed identity target).hasUser target.id := by
  refine absorbAll_hasUser.mpr ⟨List.mem_map_of_mem held, fun among => ?_⟩
  obtain ⟨other, listed, same⟩ := List.mem_map.mp among
  have differs := (List.mem_filter.mp (folded_subset other listed).1).2
  exact absurd same (by simpa using differs)

/-- What is found for the entry are its candidates. -/
theorem ensures_candidates (reliable : environment.Reliable) {returns : User → AccountWorld → Prop}
    {fails : AppError → AccountWorld → Prop}
    (rest : ∀ reached, reached.accounts = world.accounts →
      (settleAccount rootUsers identity (candidatesOf world.accounts typed identity)).Ensures
        (AccountWorld.handle environment) returns fails reached) :
    (directoryAccount rootUsers typed identity).Ensures (AccountWorld.handle environment)
      returns fails world := by
  rw [directoryAccount, Program.bind_eq]
  refine (ensures_accountOfId reliable identity.directoryId).bind fun byId first read => ?_
  obtain ⟨rfl, same⟩ := read
  rw [Program.bind_eq]
  refine (ensures_ok reliable rfl).bind fun byName second read => ?_
  obtain ⟨rfl, same'⟩ := read
  have same' : second.accounts = world.accounts := Eq.trans same' same
  rw [Program.bind_eq]
  refine (ensures_accountOfEmail reliable identity.email).bind fun byEmail third read => ?_
  obtain ⟨rfl, same''⟩ := read
  rw [same', same]
  exact rest third (same''.trans same')

/-- Where there is a candidate, the entry has the account of the target. -/
theorem ensures_directoryAccount (reliable : environment.Reliable)
    (known : ∀ user ∈ typed, user ∈ world.accounts.users)
    (chosen : chooseTarget identity.username (candidatesOf world.accounts typed identity) = some target) :
    (directoryAccount rootUsers typed identity).Ensures (AccountWorld.handle environment)
      (fun user after => user.id = target.id ∧
        after.accounts = settledTables rootUsers world.accounts typed identity target ∧
        FoldsAll rootUsers world.accounts typed identity target)
      (fun _ after => after.accounts = foldedTables rootUsers world.accounts typed identity target ∧
        ¬ FoldsAll rootUsers world.accounts typed identity target) world := by
  have held : target ∈ world.accounts.users := mem_users_of_candidate known (mem_of_chooseTarget chosen)
  refine ensures_candidates reliable fun reached same => ?_
  rw [settleAccount, chosen]
  dsimp only
  rw [Program.bind_eq]
  refine ((ensures_foldInto reliable _).mono (fun _ after done => done)
    fun error after failed => ?_).bind fun _ folded' done => ?_
  · rw [same] at failed
    exact ⟨failed.1, failed.2⟩
  rw [same] at done
  rw [Program.bind_eq]
  refine (ensures_takeName reliable).bind fun user named' named => ?_
  have there : named'.accounts.hasUser target.id := by
    rw [named.2, renamed_hasUser, done.1]
    exact foldedTables_hasTarget rootUsers held
  rw [Program.bind_eq]
  refine (ensures_takeDirectoryId reliable there identity.directoryId).bind fun _ settled taken => ?_
  refine .done ⟨named.1, ?_, done.2⟩
  rw [taken, named.2, done.1]
  rfl

end Programs
end Sanshain.Guarantees
