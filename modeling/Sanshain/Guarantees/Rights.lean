import Sanshain.Application.Provide
import Sanshain.Guarantees.SignIns

namespace Sanshain.Guarantees

open Sanshain.Domain Sanshain.Effects Sanshain.Application Sanshain.Infrastructure

/-- What an account has under its number. -/
inductive Right where
  | role (name : String)
  | group (groupId : Nat)
  | maintains (serviceId : Nat)
  | apiToken (id name : String)
  | session (token : String)

/-- The account has the right. -/
def Holds (accounts : Accounts) (userId : Nat) : Right → Prop
  | .role name => (userId, name) ∈ accounts.roles
  | .group groupId => (groupId, userId) ∈ accounts.members
  | .maintains serviceId => (serviceId, userId) ∈ accounts.maintainers
  | .apiToken id name => ∃ row ∈ accounts.apiTokens, row.userId = userId ∧ (row.id, row.name) = (id, name)
  | .session token => ∃ row ∈ accounts.sessions, row.userId = userId ∧ row.token = token

/-- All but a session that is not there yet. -/
def Stands (accounts : Accounts) : Right → Prop
  | .session token => token ∈ accounts.sessions.map (·.token)
  | _ => True

section Moving

variable {Key Row : Type}

/-- What was held by those who are gone is held by the target, and everything else as before. -/
def MovesTo (target : Nat) (gone : List Nat) (before after : Nat → Key → Prop) : Prop :=
  ∀ userId key, after userId key ↔ userId ∉ gone ∧
    (before userId key ∨ userId = target ∧ ∃ source ∈ gone, before source key)

theorem MovesTo.nil (target : Nat) (held : Nat → Key → Prop) : MovesTo target [] held held := by
  intro userId key
  simp

/-- One move after another is a move of all. -/
theorem MovesTo.cons {target source : Nat} {gone : List Nat} {first second third : Nat → Key → Prop}
    (stays : target ∉ source :: gone) (one : MovesTo target [source] first second)
    (rest : MovesTo target gone second third) : MovesTo target (source :: gone) first third := by
  simp only [List.mem_cons, not_or] at stays
  intro userId key
  have moved : ∀ userId, second userId key ↔ userId ≠ source ∧
      (first userId key ∨ userId = target ∧ first source key) := by
    intro userId
    simpa using one userId key
  rw [rest userId key]
  simp only [moved, List.mem_cons, not_or]
  constructor
  · rintro ⟨out, ⟨differs, held⟩ | ⟨rfl, other, among, -, held⟩⟩
    · refine ⟨⟨differs, out⟩, held.imp_right fun ⟨same, held⟩ => ⟨same, source, .inl rfl, held⟩⟩
    · obtain held | ⟨rfl, -⟩ := held
      · exact ⟨stays, .inr ⟨rfl, other, .inr among, held⟩⟩
      · exact absurd among out
  · rintro ⟨⟨differs, out⟩, held | ⟨rfl, other, rfl | among, held⟩⟩
    · exact ⟨out, .inl ⟨differs, .inl held⟩⟩
    · exact ⟨out, .inl ⟨differs, .inr ⟨rfl, held⟩⟩⟩
    · by_cases same : other = source
      · exact ⟨out, .inl ⟨differs, .inr ⟨rfl, same ▸ held⟩⟩⟩
      · exact ⟨out, .inr ⟨rfl, other, among, same, .inl held⟩⟩

/-- Rows of one owner are given to another, unless the other has them; what is left of the first
owner goes. -/
theorem moves_rows {rows : List Row} {owner : Row → Nat} {key : Row → Key} {assign : Row → Row}
    {moves : Row → Prop} [DecidablePred moves] {source target : Nat} (differs : source ≠ target)
    (given : ∀ row, owner (assign row) = target) (same : ∀ row, key (assign row) = key row)
    (had : ∀ row, ¬ moves row → ∃ other ∈ rows, owner other = target ∧ key other = key row) :
    MovesTo target [source]
      (fun userId k => ∃ row ∈ rows, owner row = userId ∧ key row = k)
      (fun userId k => ∃ row ∈ (rows.map fun row =>
          if owner row = source ∧ moves row then assign row else row).filter (owner · ≠ source),
        owner row = userId ∧ key row = k) := by
  intro userId k
  simp only [List.mem_filter, List.mem_map, decide_eq_true_eq, List.mem_singleton, exists_eq_left]
  constructor
  · rintro ⟨_, ⟨⟨row, held, rfl⟩, kept⟩, own, hit⟩
    split at kept
    · rename_i moved
      rw [if_pos moved] at own hit
      rw [given] at own
      rw [same] at hit
      exact ⟨own ▸ differs.symm, .inr ⟨own.symm, row, held, moved.1, hit⟩⟩
    · rename_i stays
      rw [if_neg stays] at own hit
      exact ⟨own ▸ kept, .inl ⟨row, held, own, hit⟩⟩
  · rintro ⟨other, ⟨row, held, own, hit⟩ | ⟨rfl, row, held, own, hit⟩⟩
    · have stays : ¬ (owner row = source ∧ moves row) := fun moved => other (own ▸ moved.1)
      exact ⟨row, ⟨⟨row, held, if_neg stays⟩, own ▸ other⟩, own, hit⟩
    · by_cases moved : moves row
      · refine ⟨assign row, ⟨⟨row, held, if_pos ⟨own, moved⟩⟩, ?_⟩, given row, (same row).trans hit⟩
        exact (given row).symm ▸ other
      · obtain ⟨twin, there, ownTwin, hitTwin⟩ := had row moved
        have stays : ¬ (owner twin = source ∧ moves twin) := fun moved => other (ownTwin ▸ moved.1)
        exact ⟨twin, ⟨⟨twin, there, if_neg stays⟩, ownTwin ▸ other⟩, ownTwin, hitTwin.trans hit⟩

/-- Rows move but for those that the target has already. -/
theorem moves_moveRows [DecidableEq Key] {rows : List Row} {owner : Row → Nat} {key : Row → Key}
    {assign : Row → Row} {source target : Nat} (differs : source ≠ target)
    (given : ∀ row, owner (assign row) = target) (same : ∀ row, key (assign row) = key row) :
    MovesTo target [source]
      (fun userId k => ∃ row ∈ rows, owner row = userId ∧ key row = k)
      (fun userId k => ∃ row ∈ (Accounts.moveRows rows owner key assign source target).filter
        (owner · ≠ source), owner row = userId ∧ key row = k) := by
  refine moves_rows differs given same fun row stays => ?_
  obtain ⟨other, kept, hit⟩ := List.mem_map.mp (not_not.mp stays)
  have found := List.mem_filter.mp kept
  exact ⟨other, found.1, by simpa using found.2, hit⟩

end Moving

section Absorption

variable {canonical : String} {target : User} {accounts : Accounts}

/-- One account is folded into the target with all it has. -/
theorem absorb_moves {other : User} (differs : other.id ≠ target.id) :
    MovesTo target.id [other.id] (Holds accounts) (Holds (absorb canonical target accounts other)) := by
  intro userId right
  cases right with
  | role name =>
      have moved := @moves_moveRows String (Nat × String) _ accounts.roles Prod.fst Prod.snd
        (fun row => (target.id, row.2)) other.id target.id differs (fun _ => rfl) (fun _ => rfl)
        userId name
      simpa [Holds, absorb, Accounts.deleteUser, Accounts.moved] using moved
  | group groupId =>
      have moved := @moves_moveRows Nat (Nat × Nat) _ accounts.members Prod.snd Prod.fst
        (fun row => (row.1, target.id)) other.id target.id differs (fun _ => rfl) (fun _ => rfl)
        userId groupId
      simpa [Holds, absorb, Accounts.deleteUser, Accounts.moved, and_comm] using moved
  | maintains serviceId =>
      have moved := @moves_moveRows Nat (Nat × Nat) _ accounts.maintainers Prod.snd Prod.fst
        (fun row => (row.1, target.id)) other.id target.id differs (fun _ => rfl) (fun _ => rfl)
        userId serviceId
      simpa [Holds, absorb, Accounts.deleteUser, Accounts.moved, and_comm] using moved
  | apiToken id name =>
      have moved := @moves_rows (String × String) ApiTokenRow accounts.apiTokens (·.userId)
        (fun row => (row.id, row.name)) (fun row => { row with userId := target.id })
        (fun _ => True) _ other.id target.id differs (fun _ => rfl) (fun _ => rfl)
        (fun _ stays => absurd trivial stays) userId (id, name)
      simpa only [Holds, absorb, Accounts.deleteUser, Accounts.moved, and_true] using moved
  | session token =>
      have moved := @moves_rows String SessionRow accounts.sessions (·.userId) (·.token)
        (fun row => { row with userId := target.id }) (fun _ => True) _ other.id target.id differs
        (fun _ => rfl) (fun _ => rfl) (fun _ stays => absurd trivial stays) userId token
      simpa [Holds, absorb, Accounts.deleteUser, Accounts.moved] using moved

theorem absorbAll_moves {others : List User} (differ : target.id ∉ others.map (·.id)) :
    MovesTo target.id (others.map (·.id)) (Holds accounts)
      (Holds (absorbAll canonical target accounts others)) := by
  induction others generalizing accounts with
  | nil => exact .nil _ _
  | cons other rest ih =>
      have apart : other.id ≠ target.id := fun same => differ (same ▸ List.mem_cons_self)
      rw [absorbAll, List.foldl_cons]
      exact .cons differ (absorb_moves apart) (ih fun among => differ (List.mem_cons_of_mem _ among))

theorem absorbAll_known {others : List User} (differ : target.id ∉ others.map (·.id)) {right : Right}
    (known : Stands accounts right) : Stands (absorbAll canonical target accounts others) right := by
  cases right with
  | session token =>
      obtain ⟨row, held, same⟩ := List.mem_map.mp known
      have moves := @absorbAll_moves canonical target accounts others differ
      by_cases gone : row.userId ∈ others.map (·.id)
      · have kept := (moves target.id (.session token)).mpr
          ⟨differ, .inr ⟨rfl, row.userId, gone, row, held, rfl, same⟩⟩
        obtain ⟨row', there, -, same'⟩ := kept
        exact List.mem_map.mpr ⟨row', there, same'⟩
      · have kept := (moves row.userId (.session token)).mpr ⟨gone, .inl ⟨row, held, rfl, same⟩⟩
        obtain ⟨row', there, -, same'⟩ := kept
        exact List.mem_map.mpr ⟨row', there, same'⟩
  | _ => trivial

end Absorption

/-- The same accounts, with the same of the rights that there were. -/
structure SameRights (before after : Accounts) : Prop where
  users : after.users = before.users
  known : ∀ right, Stands before right → Stands after right
  holds : ∀ right, Stands before right → ∀ userId, Holds after userId right ↔ Holds before userId right

namespace SameRights

theorem refl (accounts : Accounts) : SameRights accounts accounts :=
  ⟨rfl, fun _ known => known, fun _ _ _ => Iff.rfl⟩

theorem trans {first second third : Accounts} (one : SameRights first second)
    (two : SameRights second third) : SameRights first third where
  users := two.users.trans one.users
  known := fun right known => two.known right (one.known right known)
  holds := fun right known userId =>
    (two.holds right (one.known right known) userId).trans (one.holds right known userId)

/-- Tables that differ in no right are of the same rights. -/
theorem of_tables {before after : Accounts} (users : after.users = before.users)
    (roles : after.roles = before.roles) (members : after.members = before.members)
    (maintainers : after.maintainers = before.maintainers)
    (apiTokens : after.apiTokens = before.apiTokens) (sessions : after.sessions = before.sessions) :
    SameRights before after := by
  refine ⟨users, fun right known => ?_, fun right _ userId => ?_⟩
  · cases right with
    | session token =>
        rw [Stands, sessions]
        exact known
    | _ => trivial
  · cases right <;> simp only [Holds, roles, members, maintainers, apiTokens, sessions]

/-- Marking sessions leaves whose they are. -/
theorem of_sessions {before : Accounts} {change : SessionRow → SessionRow}
    (owner : ∀ row, (change row).userId = row.userId) (token : ∀ row, (change row).token = row.token) :
    SameRights before { before with sessions := before.sessions.map change } := by
  refine ⟨rfl, fun right known => ?_, fun right _ userId => ?_⟩
  · cases right with
    | session name =>
        obtain ⟨row, held, same⟩ := List.mem_map.mp known
        exact List.mem_map.mpr ⟨change row, List.mem_map_of_mem held, (token row).trans same⟩
    | _ => trivial
  · cases right with
    | session name => simp [Holds, owner, token]
    | _ => exact Iff.rfl

/-- A session that is added is no session that there was. -/
theorem of_added {before : Accounts} {row : SessionRow} (free : row.token ∉ before.sessions.map (·.token)) :
    SameRights before { before with sessions := before.sessions ++ [row] } := by
  refine ⟨rfl, fun right known => ?_, fun right known userId => ?_⟩
  · cases right with
    | session name =>
        obtain ⟨other, held, same⟩ := List.mem_map.mp known
        exact List.mem_map.mpr ⟨other, List.mem_append_left _ held, same⟩
    | _ => trivial
  · cases right with
    | session name =>
        constructor
        · rintro ⟨other, held, own, same⟩
          obtain there | made := List.mem_append.mp held
          · exact ⟨other, there, own, same⟩
          · rw [List.mem_singleton] at made
            subst made
            exact absurd (same ▸ known) free
        · rintro ⟨other, held, facts⟩
          exact ⟨other, List.mem_append_left _ held, facts⟩
    | _ => exact Iff.rfl

end SameRights

/-- The calls of a sign-in that leave all rights but the new session. -/
def AccountCall.marks : AccountCall → Bool
  | .setDisplayName _ _ | .setAvatarHash _ _ | .recordUserSignIn _ _ | .setSessionSignIn _ _
  | .createSession _ _ _ => true
  | _ => false

theorem perform_sameRights {accounts : Accounts} {request : AccountCall}
    (marks : AccountCall.marks request = true) : SameRights accounts (accounts.perform request).1 := by
  cases request with
  | setDisplayName userId displayName =>
      simp only [Accounts.perform]
      split
      · exact .refl _
      · exact .of_tables rfl rfl rfl rfl rfl rfl
  | setAvatarHash userId avatarHash =>
      simp only [Accounts.perform]
      split
      · exact .refl _
      · exact .of_tables rfl rfl rfl rfl rfl rfl
  | recordUserSignIn userId method =>
      simp only [Accounts.perform]
      split
      · exact .refl _
      · exact .of_tables rfl rfl rfl rfl rfl rfl
  | setSessionSignIn token method =>
      refine .of_sessions (fun row => ?_) fun row => ?_ <;> split <;> rfl
  | createSession userId token expiresAt =>
      simp only [Accounts.perform]
      split
      · exact .refl _
      · rename_i free
        split
        · exact .refl _
        · exact .of_added free
  | _ => cases marks

section Programs

variable {environment : Environment} {base : Accounts} {Value Result : Type}

/-- However the program ends, every right is where it was. -/
def KeepsRights (environment : Environment) (base : Accounts) (program : AccountUseCase Value)
    (world : AccountWorld) : Prop :=
  program.Ensures (AccountWorld.handle environment) (fun _ after => SameRights base after.accounts)
    (fun _ after => SameRights base after.accounts) world

theorem keepsRights_marks (reliable : environment.Reliable) (request : AccountCall)
    (marks : AccountCall.marks request = true) {world : AccountWorld}
    (start : SameRights base world.accounts) :
    KeepsRights environment base (accountRepo request) world := by
  refine ensures_reliable reliable (fun _ after _ done => ?_) fun _ after _ done => ?_
  · rw [done]
    exact start.trans (perform_sameRights marks)
  · rw [done]
    exact start.trans (perform_sameRights marks)

theorem keepsRights_openSession (reliable : environment.Reliable) (userId : Nat)
    (method : SignInMethod) {world : AccountWorld} (start : SameRights base world.accounts) :
    KeepsRights environment base (openSession userId method) world := by
  rw [openSession]
  refine Program.Ensures.call (Program.Ensures.call ?_)
  rw [Program.done_bind, Program.bind_eq]
  refine Program.Ensures.bind (keepsRights_marks reliable (.createSession userId _ _) rfl ?_)
    fun session _ opened => ?_
  · exact start
  rw [Program.bind_eq]
  refine (keepsRights_marks reliable (.setSessionSignIn _ method) rfl opened).bind
    fun _ _ marked => ?_
  rw [Program.bind_eq]
  exact (keepsRights_marks reliable (.recordUserSignIn _ method) rfl marked).bind
    fun _ _ recorded => .done recorded

theorem keepsRights_refresh (reliable : environment.Reliable) (gravatarKey : String → String)
    (userId : Nat) (identity : AuthenticatedUser) {world : AccountWorld}
    (start : SameRights base world.accounts) :
    KeepsRights environment base (refreshProviderIdentity gravatarKey userId identity) world := by
  rw [refreshProviderIdentity, Program.bind_eq]
  exact (keepsRights_marks reliable (.setDisplayName userId _) rfl start).bind fun _ _ named =>
    keepsRights_marks reliable (.setAvatarHash userId _) rfl named

end Programs

section SignIn

variable (rootUsers : RootUsers) (accounts : Accounts) (typed : Option User)
  (identity : AuthenticatedUser) (target : User)

/-- The name that the surviving account has afterwards. -/
def nameKept : String :=
  if FoldsAll rootUsers accounts typed identity target ∧ renames rootUsers identity.username target
      (foldedTables rootUsers accounts typed identity target) then identity.username
  else target.username

/-- The names that no account of the entry has any more: of those folded away, and the one that a
rename replaces. -/
def namesGivenUp : List String :=
  (foldedBy rootUsers accounts typed identity target).map (·.username) ++
    if FoldsAll rootUsers accounts typed identity target ∧ renames rootUsers identity.username target
      (foldedTables rootUsers accounts typed identity target) then [target.username] else []

/-- Where the sign-in leaves the accounts: folded, named, and with the rights they then have. -/
structure LeavesAt (after : Accounts) : Prop where
  users : ∀ user, user ∈ after.users ↔
    ∃ old ∈ (foldedTables rootUsers accounts typed identity target).users,
      user = if old.id = target.id then
        { old with username := nameKept rootUsers accounts typed identity target } else old
  holds : ∀ right, Stands (foldedTables rootUsers accounts typed identity target) right → ∀ userId,
    Holds after userId right ↔ Holds (foldedTables rootUsers accounts typed identity target) userId right

variable {rootUsers accounts typed identity target}

/-- The account under the target's number is the target until it is renamed. -/
theorem eq_target (sound : accounts.Integrity) (held : target ∈ accounts.users) {user : User}
    (there : user ∈ (foldedTables rootUsers accounts typed identity target).users)
    (same : user.id = target.id) : user = target := by
  rw [foldedTables, absorbAll_users] at there
  exact List.inj_on_of_nodup_map sound.userIds (List.mem_of_mem_filter there) held same

theorem leavesAt_folded (sound : accounts.Integrity) (held : target ∈ accounts.users)
    (partly : ¬ FoldsAll rootUsers accounts typed identity target) :
    LeavesAt rootUsers accounts typed identity target
      (foldedTables rootUsers accounts typed identity target) := by
  refine ⟨fun user => ?_, fun _ _ _ => Iff.rfl⟩
  have name : nameKept rootUsers accounts typed identity target = target.username := by
    rw [nameKept, if_neg fun both => partly both.1]
  rw [name]
  have unchanged : ∀ old ∈ (foldedTables rootUsers accounts typed identity target).users,
      (if old.id = target.id then { old with username := target.username } else old) = old := by
    intro old there
    split
    · rename_i same
      rw [eq_target sound held there same]
    · rfl
  constructor
  · exact fun there => ⟨user, there, (unchanged user there).symm⟩
  · rintro ⟨old, there, rfl⟩
    exact (unchanged old there).symm ▸ there

/-- Taking a name and an identifier moves no right. -/
theorem settled_holds {userId : Nat} {right : Right} :
    Holds (settledTables rootUsers accounts typed identity target) userId right ↔
      Holds (foldedTables rootUsers accounts typed identity target) userId right := by
  have bound_holds : ∀ (tables : Accounts) (directoryId : Option String),
      Holds (bound target tables directoryId) userId right ↔ Holds tables userId right := by
    intro tables directoryId
    cases directoryId with
    | none => rfl
    | some directoryId =>
        rw [bound]
        split <;> cases right <;> rfl
  rw [settledTables, bound_holds, renamed]
  split
  · cases right <;> rfl
  · rfl

theorem leavesAt_settled (sound : accounts.Integrity) (held : target ∈ accounts.users)
    (all : FoldsAll rootUsers accounts typed identity target) :
    LeavesAt rootUsers accounts typed identity target
      (settledTables rootUsers accounts typed identity target) := by
  have bound_users : ∀ (tables : Accounts) (directoryId : Option String),
      (bound target tables directoryId).users = tables.users := by
    intro tables directoryId
    cases directoryId with
    | none => rfl
    | some directoryId =>
        rw [bound]
        split <;> rfl
  refine ⟨fun user => ?_, fun right _ userId => ?_⟩
  · rw [settledTables, bound_users, renamed, nameKept]
    by_cases takes : renames rootUsers identity.username target
        (foldedTables rootUsers accounts typed identity target) = true
    · rw [if_pos takes, if_pos ⟨all, takes⟩, List.mem_map]
      exact exists_congr fun old => and_congr_right fun _ => eq_comm
    · rw [if_neg takes, if_neg fun both => takes both.2]
      constructor
      · intro there
        refine ⟨user, there, ?_⟩
        split
        · rename_i same
          rw [eq_target sound held there same]
        · rfl
      · rintro ⟨old, there, rfl⟩
        split
        · rename_i same
          have own := eq_target sound held there same
          subst own
          exact there
        · exact there
  · exact settled_holds

theorem LeavesAt.of_same {before after : Accounts}
    (leaves : LeavesAt rootUsers accounts typed identity target before)
    (knows : ∀ right, Stands (foldedTables rootUsers accounts typed identity target) right →
      Stands before right) (same : SameRights before after) :
    LeavesAt rootUsers accounts typed identity target after where
  users user := by
    rw [same.users]
    exact leaves.users user
  holds right known userId :=
    (same.holds right (knows right known) userId).trans (leaves.holds right known userId)

theorem settled_known (right : Right)
    (known : Stands (foldedTables rootUsers accounts typed identity target) right) :
    Stands (settledTables rootUsers accounts typed identity target) right := by
  cases right with
  | session token =>
      rw [Stands] at known ⊢
      rw [settledTables]
      cases identity.directoryId with
      | none =>
          rw [bound, renamed]
          split <;> exact known
      | some directoryId =>
          rw [bound]
          split <;> (rw [renamed]; split <;> exact known)
  | _ => trivial

/-- However a sign-in with a candidate ends, it leaves the accounts so. -/
theorem ensures_startSession {environment : Environment} (reliable : environment.Reliable)
    (gravatarKey : String → String) {world : AccountWorld}
    (known : ∀ user ∈ typed, user ∈ world.accounts.users)
    (chosen : chooseTarget identity.username (candidatesOf world.accounts typed identity) = some target) :
    (startSession gravatarKey rootUsers (.directory typed identity)).Ensures
      (AccountWorld.handle environment)
      (fun _ after => LeavesAt rootUsers world.accounts typed identity target after.accounts)
      (fun _ after => LeavesAt rootUsers world.accounts typed identity target after.accounts) world := by
  have held : target ∈ world.accounts.users := mem_users_of_candidate known (mem_of_chooseTarget chosen)
  have sound := world.database.sound
  rw [startSession, Program.bind_eq]
  refine ((ensures_directoryAccount reliable known chosen).mono (fun _ _ done => done)
    fun error after failed => ?_).bind fun user reached done => ?_
  · rw [failed.1]
    exact leavesAt_folded sound held failed.2
  · obtain ⟨-, settled, all⟩ := done
    have leaves : ∀ after, SameRights reached.accounts after →
        LeavesAt rootUsers world.accounts typed identity target after := by
      intro after same
      rw [settled] at same
      exact (leavesAt_settled sound held all).of_same settled_known same
    rw [Program.bind_eq]
    refine Program.Ensures.mono ((keepsRights_refresh reliable gravatarKey user.id identity (.refl _)).bind
      fun _ _ refreshed => keepsRights_openSession reliable user.id .ldap refreshed) ?_ ?_
    · exact fun _ after same => leaves _ same
    · exact fun _ after same => leaves _ same

end SignIn

/-- The account was there, and is not any more. -/
def Gone (before after : Accounts) (userId : Nat) : Prop :=
  before.hasUser userId ∧ ¬ after.hasUser userId

/-- The rights of all that are gone are the survivor's, and every other right is where it was. -/
def RightsFollow (before after : Accounts) (survivor : Nat) : Prop :=
  ∀ right, Stands before right → ∀ userId, Holds after userId right ↔ ¬ Gone before after userId ∧
    (Holds before userId right ∨
      userId = survivor ∧ ∃ source, Gone before after source ∧ Holds before source right)

/-- A snapshot that one of the accounts of the entry provided. -/
def ProvidedByEntry (before after : Accounts) (survivor : Nat) (entry : SpecVersionMeta) : Prop :=
  entry.stability = .snapshot ∧ entry.providedBy ≠ "" ∧ ∃ owner ∈ before.users,
    owner.username = entry.providedBy ∧ (owner.id = survivor ∨ Gone before after owner.id)

/-- The survivor may overwrite what the accounts of the entry provided, and under no other name may
anyone. -/
def SnapshotsFollow (store : Store) (before after : Accounts) (survivor : Nat) : Prop :=
  ∀ row ∈ store.specVersions, ProvidedByEntry before after survivor row.entry →
    ∀ user ∈ after.users, user.id = survivor →
      ∀ username, ownedByOther (some username) row.entry = false ↔ username = user.username

section SignIn

variable {rootUsers : RootUsers} {accounts after : Accounts} {typed : Option User}
  {identity : AuthenticatedUser} {target : User}

theorem foldedBy_subset {other : User}
    (listed : other ∈ foldedBy rootUsers accounts typed identity target) :
    other ∈ candidatesOf accounts typed identity ∧ other.id ≠ target.id := by
  have among := List.mem_filter.mp (folded_subset other listed).1
  exact ⟨among.1, by simpa using among.2⟩

theorem target_not_folded :
    target.id ∉ (foldedBy rootUsers accounts typed identity target).map (·.id) := by
  intro among
  obtain ⟨other, listed, same⟩ := List.mem_map.mp among
  exact (foldedBy_subset listed).2 same

namespace LeavesAt

theorem hasUser (leaves : LeavesAt rootUsers accounts typed identity target after) {userId : Nat} :
    after.hasUser userId ↔ (foldedTables rootUsers accounts typed identity target).hasUser userId := by
  simp only [Accounts.hasUser, List.mem_map]
  constructor
  · rintro ⟨user, held, rfl⟩
    obtain ⟨old, there, rfl⟩ := (leaves.users user).mp held
    refine ⟨old, there, ?_⟩
    split <;> rfl
  · rintro ⟨old, there, rfl⟩
    refine ⟨_, (leaves.users _).mpr ⟨old, there, rfl⟩, ?_⟩
    split <;> rfl

/-- Gone is who was folded away. -/
theorem gone_iff (leaves : LeavesAt rootUsers accounts typed identity target after)
    (known : ∀ user ∈ typed, user ∈ accounts.users) {userId : Nat} :
    Gone accounts after userId ↔
      userId ∈ (foldedBy rootUsers accounts typed identity target).map (·.id) := by
  rw [Gone, leaves.hasUser, foldedTables, absorbAll_hasUser, not_and, not_not]
  constructor
  · exact fun both => both.2 both.1
  · intro among
    obtain ⟨other, listed, rfl⟩ := List.mem_map.mp among
    have there := mem_users_of_candidate known (foldedBy_subset listed).1
    exact ⟨List.mem_map_of_mem there, fun _ => among⟩

theorem rightsFollow (leaves : LeavesAt rootUsers accounts typed identity target after)
    (known : ∀ user ∈ typed, user ∈ accounts.users) : RightsFollow accounts after target.id := by
  intro right there userId
  rw [leaves.holds right (absorbAll_known target_not_folded there) userId]
  have moved := @absorbAll_moves identity.username target accounts
    (foldedBy rootUsers accounts typed identity target) target_not_folded userId right
  simp only [leaves.gone_iff known]
  exact moved

/-- The survivor's name is the one that it keeps or takes. -/
theorem username (leaves : LeavesAt rootUsers accounts typed identity target after)
    {user : User} (held : user ∈ after.users) (same : user.id = target.id) :
    user.username = nameKept rootUsers accounts typed identity target := by
  obtain ⟨old, -, rfl⟩ := (leaves.users user).mp held
  split
  · rfl
  · rename_i differs
    rw [if_neg differs] at same
    exact absurd same differs

theorem survivor (leaves : LeavesAt rootUsers accounts typed identity target after)
    (held : target ∈ accounts.users) : ∃ user ∈ after.users, user.id = target.id := by
  have there : after.hasUser target.id := leaves.hasUser.mpr (foldedTables_hasTarget rootUsers held)
  exact List.mem_map.mp there

end LeavesAt

/-- A name given up is one of an account of the entry, and not the one that the survivor keeps. -/
theorem mem_namesGivenUp_iff (sound : accounts.Integrity)
    (known : ∀ user ∈ typed, user ∈ accounts.users)
    (chosen : chooseTarget identity.username (candidatesOf accounts typed identity) = some target)
    {owner : User} (held : owner ∈ accounts.users)
    (entry : owner.id = target.id ∨
      owner.id ∈ (foldedBy rootUsers accounts typed identity target).map (·.id)) :
    owner.username ∈ namesGivenUp rootUsers accounts typed identity target ↔
      owner.username ≠ nameKept rootUsers accounts typed identity target := by
  have candidate := mem_of_chooseTarget chosen
  have there : target ∈ accounts.users := mem_users_of_candidate known candidate
  have named : ∀ {first second : User}, first ∈ accounts.users → second ∈ accounts.users →
      first.username = second.username → first = second :=
    fun one two same => List.inj_on_of_nodup_map sound.usernames one two same
  -- A candidate of the canonical name would have been the target.
  have canonical : ∀ other ∈ candidatesOf accounts typed identity,
      other.username = identity.username → target.username = identity.username := by
    intro other listed same
    unfold chooseTarget at chosen
    cases found : (candidatesOf accounts typed identity).find? (·.username = identity.username) with
    | some user =>
        rw [found, Option.some_or] at chosen
        cases chosen
        simpa using List.find?_some found
    | none => exact absurd (by simpa using same) (List.find?_eq_none.mp found other listed)
  have folded : ∀ other ∈ foldedBy rootUsers accounts typed identity target,
      other.username ≠ nameKept rootUsers accounts typed identity target := by
    intro other listed same
    obtain ⟨among, differs⟩ := foldedBy_subset listed
    have stored := mem_users_of_candidate known among
    unfold nameKept at same
    split at same
    · exact differs (congrArg User.id (named stored there (same.trans (canonical other among same).symm)))
    · exact differs (congrArg User.id (named stored there same))
  constructor
  · intro given
    obtain among | own := List.mem_append.mp given
    · obtain ⟨other, listed, same⟩ := List.mem_map.mp among
      exact same ▸ folded other listed
    · split at own
      · rename_i takes
        rw [List.mem_singleton] at own
        rw [own, nameKept, if_pos takes]
        have differs := takes.2
        simp only [renames, Bool.and_eq_true, decide_eq_true_eq] at differs
        exact differs.1.1.1
      · exact absurd own List.not_mem_nil
  · intro differs
    obtain own | among := entry
    · have equal : owner = target := List.inj_on_of_nodup_map sound.userIds held there own
      subst equal
      unfold nameKept at differs
      split at differs
      · rename_i takes
        exact List.mem_append_right _ (by rw [if_pos takes]; exact List.mem_singleton_self _)
      · exact absurd rfl differs
    · obtain ⟨other, listed, same⟩ := List.mem_map.mp among
      have stored := mem_users_of_candidate known (foldedBy_subset listed).1
      have equal : other = owner := List.inj_on_of_nodup_map sound.userIds stored held same
      exact List.mem_append_left _ (List.mem_map_of_mem (equal ▸ listed))

/-- A name given up is that of an account of the entry. -/
theorem owner_of_namesGivenUp (known : ∀ user ∈ typed, user ∈ accounts.users)
    (there : target ∈ accounts.users) {name : String}
    (given : name ∈ namesGivenUp rootUsers accounts typed identity target) :
    ∃ owner ∈ accounts.users, owner.username = name ∧ (owner.id = target.id ∨
      owner.id ∈ (foldedBy rootUsers accounts typed identity target).map (·.id)) := by
  obtain among | own := List.mem_append.mp given
  · obtain ⟨other, listed, same⟩ := List.mem_map.mp among
    exact ⟨other, mem_users_of_candidate known (foldedBy_subset listed).1, same,
      .inr (List.mem_map_of_mem listed)⟩
  · split at own
    · rw [List.mem_singleton] at own
      exact ⟨target, there, own.symm, .inl rfl⟩
    · exact absurd own List.not_mem_nil

theorem ownedByOther_eq_false {entry : SpecVersionMeta} (provided : entry.providedBy ≠ "")
    {username : String} : ownedByOther (some username) entry = false ↔ username = entry.providedBy := by
  simp [ownedByOther, provided]

/-- A sign-in that leaves an account's rights where they belong leaves its snapshots there exactly
when none was provided under a name that is given up. -/
theorem LeavesAt.snapshotsFollow_iff (sound : accounts.Integrity)
    (known : ∀ user ∈ typed, user ∈ accounts.users)
    (chosen : chooseTarget identity.username (candidatesOf accounts typed identity) = some target)
    (leaves : LeavesAt rootUsers accounts typed identity target after) (store : Store) :
    SnapshotsFollow store accounts after target.id ↔
      ∀ row ∈ store.specVersions, row.entry.stability = .snapshot → row.entry.providedBy ≠ "" →
        row.entry.providedBy ∉ namesGivenUp rootUsers accounts typed identity target := by
  have there : target ∈ accounts.users := mem_users_of_candidate known (mem_of_chooseTarget chosen)
  constructor
  · intro follows row held snapshot provided given
    obtain ⟨owner, stored, same, entry⟩ := owner_of_namesGivenUp known there given
    obtain ⟨user, kept, own⟩ := leaves.survivor there
    have byEntry : ProvidedByEntry accounts after target.id row.entry :=
      ⟨snapshot, provided, owner, stored, same, entry.imp_right (leaves.gone_iff known).mpr⟩
    have name := (follows row held byEntry user kept own row.entry.providedBy).mp
      ((ownedByOther_eq_false provided).mpr rfl)
    rw [leaves.username kept own, ← same] at name
    exact (mem_namesGivenUp_iff sound known chosen stored entry).mp (same ▸ given) name
  · intro clear row held byEntry user kept own username
    obtain ⟨snapshot, provided, owner, stored, same, entry⟩ := byEntry
    have entry := entry.imp_right (leaves.gone_iff known).mp
    have name : owner.username = nameKept rootUsers accounts typed identity target := by
      by_contra differs
      exact clear row held snapshot provided
        (same ▸ (mem_namesGivenUp_iff sound known chosen stored entry).mpr differs)
    rw [ownedByOther_eq_false provided, ← same, name, leaves.username kept own]

end SignIn

/-- However a directory sign-in ends, the rights of the accounts it folds together are the
survivor's and nobody else's, snapshots included, exactly when no snapshot was provided under a name
that the sign-in gives up. -/
theorem rights_follow_iff (clock : Nat → Instant) (uuid : Nat → String)
    (gravatarKey : String → String) (rootUsers : RootUsers) (store : Store)
    (database : AccountDatabase) (typedName : String) (identity : AuthenticatedUser) (target : User)
    (outcome : Except AppError Session) (after : AccountWorld)
    (chosen : chooseTarget identity.username
      (candidatesOf database.accounts (database.accounts.userNamed? typedName) identity) = some target)
    (ran : (startSession gravatarKey rootUsers
        (.directory (database.accounts.userNamed? typedName) identity)).run
      (AccountWorld.handle (withoutFaults clock uuid)) ⟨database, 0⟩ = some (outcome, after)) :
    (RightsFollow database.accounts after.accounts target.id ∧
        SnapshotsFollow store database.accounts after.accounts target.id) ↔
      ∀ row ∈ store.specVersions, row.entry.stability = .snapshot → row.entry.providedBy ≠ "" →
        row.entry.providedBy ∉ namesGivenUp rootUsers database.accounts
          (database.accounts.userNamed? typedName) identity target := by
  have known : ∀ user ∈ database.accounts.userNamed? typedName, user ∈ database.accounts.users :=
    fun user found => List.mem_of_find?_eq_some found
  have reliable : (withoutFaults clock uuid).Reliable := fun _ => rfl
  have leaves : LeavesAt rootUsers database.accounts (database.accounts.userNamed? typedName)
      identity target after.accounts :=
    (@ensures_startSession rootUsers _ identity target _ reliable gravatarKey ⟨database, 0⟩ known
      chosen).always ran
  rw [← leaves.snapshotsFollow_iff database.sound known chosen store]
  exact and_iff_right (leaves.rightsFollow known)

section Examples

/-- A person whom the directory renames from `axel.s` to `axel`. -/
def axelEntry : AuthenticatedUser := { username := "axel", directoryId := some "uuid:1" }

def axelAccount : User := ⟨1, "axel.s", "hash", true⟩

/-- The person's account, an administrator's and a member of no group. -/
def axelDatabase : AccountDatabase :=
  ((AccountDatabase.empty.perform (.createUser "axel.s" "hash" true)).1.perform
    (.grantUserRole 1 "admin")).1

/-- A snapshot that was provided under the name. -/
def snapshotBy (username : String) : SpecVersionRow :=
  ⟨⟨1, 1, .openApi, ⟨1, 3, 0⟩, .snapshot, "hash", username, 1, 1, none, none⟩, "", []⟩

def storeBy (username : String) : Store := { specVersions := [snapshotBy username] }

def axelSignsIn : Option (Except AppError Session × AccountWorld) :=
  (startSession id [] (.directory (axelDatabase.accounts.userNamed? "axel.s") axelEntry)).run
    (AccountWorld.handle (withoutFaults id fun step => toString step)) ⟨axelDatabase, 0⟩

theorem axel_chosen : chooseTarget axelEntry.username
    (candidatesOf axelDatabase.accounts (axelDatabase.accounts.userNamed? "axel.s") axelEntry) =
      some axelAccount := by
  decide +kernel

/-- The person signs in under the new name, and the snapshot that they provided is not theirs to
overwrite any more. -/
theorem renamed_loses_snapshot : ∃ session after, axelSignsIn = some (.ok session, after) ∧
    ¬ SnapshotsFollow (storeBy "axel.s") axelDatabase.accounts after.accounts axelAccount.id := by
  have ended : Program.returnedWith (fun _ after => after.accounts.users.contains
      { axelAccount with username := "axel" }) axelSignsIn = true := by
    decide +kernel
  obtain ⟨session, after, ran, named⟩ := Program.returnedWith_spec ended
  refine ⟨session, after, ran, fun follows => ?_⟩
  have provided : ProvidedByEntry axelDatabase.accounts after.accounts axelAccount.id
      (snapshotBy "axel.s").entry :=
    ⟨rfl, by decide, axelAccount, by decide +kernel, rfl, .inl rfl⟩
  have overwrites := (follows (snapshotBy "axel.s") List.mem_cons_self provided
    { axelAccount with username := "axel" } (List.contains_iff_mem.mp named) rfl "axel").mpr rfl
  exact absurd overwrites (by decide)

/-- A snapshot that was provided under the name the person takes stays theirs. -/
theorem rights_follow_rename : ∃ session after, axelSignsIn = some (.ok session, after) ∧
    RightsFollow axelDatabase.accounts after.accounts axelAccount.id ∧
      SnapshotsFollow (storeBy "axel") axelDatabase.accounts after.accounts axelAccount.id := by
  have ended : Program.returnedWith (fun _ _ => true) axelSignsIn = true := by decide +kernel
  obtain ⟨session, after, ran, -⟩ := Program.returnedWith_spec ended
  have clear : ∀ row ∈ (storeBy "axel").specVersions, row.entry.stability = .snapshot →
      row.entry.providedBy ≠ "" → row.entry.providedBy ∉ namesGivenUp [] axelDatabase.accounts
        (axelDatabase.accounts.userNamed? "axel.s") axelEntry axelAccount := by
    decide +kernel
  exact ⟨session, after, ran, (rights_follow_iff id (fun step => toString step) id [] (storeBy "axel")
    axelDatabase "axel.s" axelEntry axelAccount _ after axel_chosen ran).mpr clear⟩

end Examples
end Sanshain.Guarantees
