import Sanshain.Application.Authz
import Sanshain.Effects.Steps
import Sanshain.Infrastructure.AccountIntegrity

namespace Sanshain.Guarantees

open Sanshain.Domain Sanshain.Effects Sanshain.Application Sanshain.Infrastructure

/-- The accounts with the guarded roles they hold by what is stored. -/
def guardedHolders (accounts : Accounts) : Set (Nat × Role) :=
  {pair | pair.2 ∈ Role.adminGuarded ∧ pair.2.asStr ∈ accounts.effectiveStoredRoles pair.1}

/-- The names of directory groups with the guarded roles they confer. -/
def guardedDirectoryGroups (accounts : Accounts) : Set (String × Role) :=
  {pair | pair.2 ∈ Role.adminGuarded ∧ ∃ group ∈ accounts.groups, group.fromDirectory = true ∧
    group.name = pair.1 ∧ (group.id, pair.2.asStr) ∈ accounts.groupRoles}

/-- The guarded roles are where they were. -/
structure SameGuarded (before after : Accounts) : Prop where
  holders : guardedHolders after = guardedHolders before
  directory : guardedDirectoryGroups after = guardedDirectoryGroups before

namespace SameGuarded

theorem refl (accounts : Accounts) : SameGuarded accounts accounts := ⟨rfl, rfl⟩

theorem trans {first second third : Accounts} (one : SameGuarded first second)
    (two : SameGuarded second third) : SameGuarded first third :=
  ⟨two.holders.trans one.holders, two.directory.trans one.directory⟩

/-- Guarded roles stay where they are when every account and every directory group keeps its own. -/
theorem of_iff {before after : Accounts}
    (holders : ∀ userId, ∀ role ∈ Role.adminGuarded, role.asStr ∈ after.effectiveStoredRoles userId ↔
      role.asStr ∈ before.effectiveStoredRoles userId)
    (directory : ∀ name, ∀ role ∈ Role.adminGuarded,
      (∃ group ∈ after.groups, group.fromDirectory = true ∧ group.name = name ∧
        (group.id, role.asStr) ∈ after.groupRoles) ↔
      ∃ group ∈ before.groups, group.fromDirectory = true ∧ group.name = name ∧
        (group.id, role.asStr) ∈ before.groupRoles) : SameGuarded before after := by
  constructor
  · ext ⟨userId, role⟩
    exact and_congr_right fun guarded => holders userId role guarded
  · ext ⟨name, role⟩
    exact and_congr_right fun guarded => directory name role guarded

end SameGuarded

/-- A text that names no guarded role. -/
def Unguarded (role : String) : Prop := ∀ guarded ∈ Role.adminGuarded, guarded.asStr ≠ role

section Writes

variable {accounts : Accounts} {groupId userId : Nat}

theorem grantUserRole_same {role : String} (unguarded : Unguarded role) :
    SameGuarded accounts (accounts.perform (.grantUserRole userId role)).1 := by
  simp only [Accounts.perform]
  split
  · exact .refl accounts
  · refine .of_iff (fun other guarded among => ?_) fun _ _ _ => Iff.rfl
    have differs := unguarded guarded among
    simp [Accounts.mem_effectiveStoredRoles, differs]

theorem revokeUserRole_same {role : String} (unguarded : Unguarded role) :
    SameGuarded accounts (accounts.perform (.revokeUserRole userId role)).1 := by
  refine .of_iff (fun other guarded among => ?_) fun _ _ _ => Iff.rfl
  have differs := unguarded guarded among
  simp [Accounts.mem_effectiveStoredRoles, Accounts.perform, differs]

/-- A group that is made holds no role, since no role refers to its number yet. -/
theorem createGroup_same (sound : accounts.Integrity) (name : String) (fromDirectory : Bool) :
    SameGuarded accounts (accounts.perform (.createGroup name fromDirectory)).1 := by
  simp only [Accounts.perform]
  split
  · exact .refl accounts
  · refine .of_iff (fun _ _ _ => Iff.rfl) fun other role among => ?_
    constructor
    · rintro ⟨group, held, facts⟩
      obtain there | made := List.mem_append.mp held
      · exact ⟨group, there, facts⟩
      · rw [List.mem_singleton] at made
        subst made
        obtain ⟨known, there, same⟩ := List.mem_map.mp (sound.groupRolesKnown _ facts.2.2)
        exact absurd (sound.groupBelow known there) (by simp [same])
    · rintro ⟨group, held, facts⟩
      exact ⟨group, List.mem_append_left _ held, facts⟩

theorem renameGroup_same {name : String}
    (native : ∀ group ∈ accounts.groups, group.id = groupId → group.fromDirectory = false) :
    SameGuarded accounts (accounts.perform (.renameGroup groupId name)).1 := by
  simp only [Accounts.perform]
  split
  · exact .refl accounts
  · refine .of_iff (fun _ _ _ => Iff.rfl) fun other role among => ?_
    constructor
    · rintro ⟨group, held, directory, facts⟩
      obtain ⟨old, there, rfl⟩ := List.mem_map.mp held
      by_cases renamed : old.id = groupId
      · simp [renamed, native old there renamed] at directory
      · rw [if_neg renamed] at directory facts
        exact ⟨old, there, directory, facts⟩
    · rintro ⟨group, held, directory, facts⟩
      have kept : group.id ≠ groupId := by
        intro renamed
        exact absurd directory (by simp [native group held renamed])
      exact ⟨group, List.mem_map.mpr ⟨group, held, if_neg kept⟩, directory, facts⟩

/-- Only guarded roles count, so a group without one may go. -/
theorem deleteGroup_same (plain : ∀ role, (groupId, role) ∈ accounts.groupRoles → Unguarded role) :
    SameGuarded accounts (accounts.perform (.deleteGroup groupId)).1 := by
  have other : ∀ {id : Nat}, ∀ guarded ∈ Role.adminGuarded, (id, guarded.asStr) ∈ accounts.groupRoles →
      id ≠ groupId := by
    rintro id guarded among held rfl
    exact plain _ held guarded among rfl
  refine .of_iff (fun holder guarded among => ?_) fun name guarded among => ?_
  · simp only [Accounts.mem_effectiveStoredRoles, Accounts.perform, List.mem_filter,
      decide_eq_true_eq]
    apply or_congr_right
    constructor
    · rintro ⟨id, role, member⟩
      exact ⟨id, role.1, member.1⟩
    · rintro ⟨id, role, member⟩
      have differs := other guarded among role
      exact ⟨id, ⟨role, differs⟩, member, differs⟩
  · simp only [Accounts.perform, List.mem_filter, decide_eq_true_eq]
    constructor
    · rintro ⟨group, held, directory, named, role⟩
      exact ⟨group, held.1, directory, named, role.1⟩
    · rintro ⟨group, held, directory, named, role⟩
      have differs := other guarded among role
      exact ⟨group, ⟨held, differs⟩, directory, named, role, differs⟩

/-- A group whose guarded roles are put on it again confers what it did. -/
theorem setGroupRoles_same {roles : List String}
    (same : ∀ guarded ∈ Role.adminGuarded, guarded.asStr ∈ roles ↔
      (groupId, guarded.asStr) ∈ accounts.groupRoles) :
    SameGuarded accounts (accounts.perform (.setGroupRoles groupId roles)).1 := by
  simp only [Accounts.perform]
  split
  · exact .refl accounts
  · have held : ∀ id, ∀ guarded ∈ Role.adminGuarded,
        (id, guarded.asStr) ∈ accounts.groupRoles.filter (·.1 ≠ groupId) ++
          roles.dedup.map (fun role => (groupId, role)) ↔ (id, guarded.asStr) ∈ accounts.groupRoles := by
      intro id guarded among
      by_cases own : id = groupId
      · subst own
        simp [same guarded among]
      · have differs : groupId ≠ id := fun equal => own equal.symm
        simp [own, differs]
    refine .of_iff (fun holder guarded among => ?_) fun name guarded among => ?_
    · simp only [Accounts.mem_effectiveStoredRoles, held _ guarded among]
    · simp only [held _ guarded among]

theorem addGroupMember_same
    (plain : ∀ role, (groupId, role) ∈ accounts.groupRoles → Unguarded role) :
    SameGuarded accounts (accounts.perform (.addGroupMember groupId userId)).1 := by
  simp only [Accounts.perform]
  split
  · exact .refl accounts
  · refine .of_iff (fun holder guarded among => ?_) fun _ _ _ => Iff.rfl
    simp only [Accounts.mem_effectiveStoredRoles, Accounts.mem_addRow]
    apply or_congr_right
    constructor
    · rintro ⟨id, role, member | added⟩
      · exact ⟨id, role, member⟩
      · cases added
        exact absurd rfl (plain _ role guarded among)
    · rintro ⟨id, role, member⟩
      exact ⟨id, role, .inl member⟩

theorem removeGroupMember_same
    (plain : ∀ role, (groupId, role) ∈ accounts.groupRoles → Unguarded role) :
    SameGuarded accounts (accounts.perform (.removeGroupMember groupId userId)).1 := by
  refine .of_iff (fun holder guarded among => ?_) fun _ _ _ => Iff.rfl
  simp only [Accounts.mem_effectiveStoredRoles, Accounts.perform, List.mem_filter, decide_eq_true_eq]
  apply or_congr_right
  constructor
  · rintro ⟨id, role, member⟩
    exact ⟨id, role, member.1⟩
  · rintro ⟨id, role, member⟩
    refine ⟨id, role, member, ?_⟩
    intro same
    cases same
    exact plain _ role guarded among rfl

/-- An account without a guarded role may go. -/
theorem deleteUser_same
    (plain : ∀ role ∈ accounts.effectiveStoredRoles userId, Unguarded role) :
    SameGuarded accounts (accounts.perform (.deleteUser userId)).1 := by
  refine .of_iff (fun holder guarded among => ?_) fun _ _ _ => Iff.rfl
  constructor
  · simp only [Accounts.mem_effectiveStoredRoles, Accounts.perform, Accounts.deleteUser,
      List.mem_filter]
    rintro (⟨direct, -⟩ | ⟨id, role, member, -⟩)
    · exact .inl direct
    · exact .inr ⟨id, role, member⟩
  · intro holds
    have differs : holder ≠ userId := by
      rintro rfl
      exact plain _ holds guarded among rfl
    rw [Accounts.mem_effectiveStoredRoles] at holds
    simp only [Accounts.mem_effectiveStoredRoles, Accounts.perform, Accounts.deleteUser,
      List.mem_filter, decide_eq_true_eq]
    obtain direct | ⟨id, role, member⟩ := holds
    · exact .inl ⟨direct, differs⟩
    · exact .inr ⟨id, role, member, differs⟩

end Writes

/-- However the program ends, the guarded roles are where they were when it began. -/
def KeepsGuarded (environment : Environment) {Value : Type} (program : AccountUseCase Value)
    (world : AccountWorld) : Prop :=
  program.Ensures (AccountWorld.handle environment)
    (fun _ after => SameGuarded world.accounts after.accounts)
    (fun _ after => SameGuarded world.accounts after.accounts) world

section Programs

variable {environment : Environment} {Value Result : Type} {world : AccountWorld}
  {actor : Option Actor} {rootUsers : RootUsers}

/-- A store call answers for the tables as they are, or fails; what it does is on the tables. -/
theorem ensures_accountRepo {request : AccountCall}
    {returns : request.Result → AccountWorld → Prop} {fails : AppError → AccountWorld → Prop}
    (good : ∀ value after, (world.accounts.perform request).2 = .ok value →
      after.accounts = (world.accounts.perform request).1 → returns value after)
    (bad : ∀ error after, after.accounts = world.accounts ∨
      after.accounts = (world.accounts.perform request).1 → fails error after) :
    (accountRepo request).Ensures (AccountWorld.handle environment) returns fails world := by
  obtain ⟨reason, failed⟩ | performed := AccountWorld.handle_repo environment world request
  · refine Program.Ensures.call ?_
    rw [failed]
    exact Program.Ensures.fail (bad _ _ (.inl rfl))
  · refine Program.Ensures.call ?_
    rw [performed]
    refine Program.Ensures.ofExcept (fun value given => ?_) fun error _ => bad error _ (.inr rfl)
    cases answer : (world.database.perform request).2 with
    | ok found =>
        rw [answer] at given
        cases given
        exact good value _ answer rfl
    | error error =>
        rw [answer] at given
        cases given

theorem keeps_done (value : Value) : KeepsGuarded environment (.done value) world :=
  Program.Ensures.done (.refl _)

theorem keeps_fail (error : AppError) :
    KeepsGuarded environment (.fail error : AccountUseCase Value) world :=
  Program.Ensures.fail (.refl _)

theorem keeps_write {request : AccountCall}
    (same : SameGuarded world.accounts (world.accounts.perform request).1) :
    KeepsGuarded environment (accountRepo request) world := by
  refine ensures_accountRepo (fun value after _ done => ?_) fun error after done => ?_
  · rw [done]
    exact same
  · obtain done | done := done
    · rw [done]
      exact .refl _
    · rw [done]
      exact same

/-- What is read leaves the tables, and answers as they are. -/
theorem ensures_read {request : AccountCall} (reads : request.readsOnly = true) :
    (accountRepo request).Ensures (AccountWorld.handle environment)
      (fun value after => after.accounts = world.accounts ∧
        (world.accounts.perform request).2 = .ok value)
      (fun _ after => after.accounts = world.accounts) world := by
  have unchanged := Accounts.perform_readsOnly world.accounts request reads
  refine ensures_accountRepo (fun value after answered done => ⟨done.trans unchanged, answered⟩) ?_
  intro error after done
  obtain done | done := done
  · exact done
  · exact done.trans unchanged

/-- What keeps the guarded roles from equal tables on keeps them from these on. -/
theorem KeepsGuarded.from_equal {program : AccountUseCase Value} {reached : AccountWorld}
    (kept : KeepsGuarded environment program reached) (same : reached.accounts = world.accounts) :
    program.Ensures (AccountWorld.handle environment)
      (fun _ after => SameGuarded world.accounts after.accounts)
      (fun _ after => SameGuarded world.accounts after.accounts) reached := by
  rw [KeepsGuarded, same] at kept
  exact kept

/-- What is read is so when the rest begins. -/
theorem keeps_read {request : AccountCall} (reads : request.readsOnly = true)
    {next : request.Result → AccountUseCase Result}
    (rest : ∀ value reached, reached.accounts = world.accounts →
      (reached.accounts.perform request).2 = .ok value → KeepsGuarded environment (next value) reached) :
    KeepsGuarded environment ((accountRepo request).bind next) world := by
  refine ((ensures_read reads).mono (fun value after read => read) fun error after same => ?_).bind
    fun value reached read => ?_
  · rw [same]
    exact .refl _
  · obtain ⟨same, answered⟩ := read
    exact (rest value reached same (by rw [same]; exact answered)).from_equal same

theorem keeps_then {program : AccountUseCase Value} {result : Result}
    (kept : KeepsGuarded environment program world) :
    KeepsGuarded environment (program.bind fun _ => .done result) world :=
  Program.Ensures.bind kept fun _ _ same => Program.Ensures.done same

theorem keeps_ofExcept {outcome : Except AppError Value} {next : Value → AccountUseCase Result}
    (rest : ∀ value, outcome = .ok value → KeepsGuarded environment (next value) world) :
    KeepsGuarded environment ((Program.ofExcept outcome).bind next) world := by
  cases outcome with
  | ok value => exact rest value rfl
  | error error => exact keeps_fail error

/-- Behind the guard, one who is no administrator touches no guarded role. -/
theorem keeps_guard (outsider : isAdministrator actor = false) {roles : List String}
    {next : Unit → AccountUseCase Result}
    (rest : (∀ role ∈ roles, Unguarded role) → KeepsGuarded environment (next ()) world) :
    KeepsGuarded environment ((requireAdminForGuardedRoles actor roles).bind next) world := by
  unfold requireAdminForGuardedRoles
  split
  · rename_i untouched
    refine rest fun role listed guarded among same => ?_
    subst same
    have touched : (Role.adminGuarded.any fun guarded => roles.contains guarded.asStr) = true :=
      List.any_eq_true.mpr ⟨guarded, among, by simpa using listed⟩
    rw [touched] at untouched
    cases untouched
  · rw [if_neg (by simp [outsider])]
    exact keeps_fail _

/-- A filtered list of roles without a guarded one is that of a list without. -/
theorem unguarded_of_filter {roles : List String}
    (plain : ∀ role ∈ roles.filter (fun role => Role.adminGuarded.any fun guarded =>
      guarded.asStr == role), Unguarded role) : ∀ role ∈ roles, Unguarded role := by
  intro role listed guarded among same
  subst same
  refine plain guarded.asStr (List.mem_filter.mpr ⟨listed, ?_⟩) guarded among rfl
  exact List.any_eq_true.mpr ⟨guarded, among, beq_self_eq_true _⟩

theorem keeps_guardedGroup (outsider : isAdministrator actor = false) {groupId : Nat}
    {next : Unit → AccountUseCase Result}
    (rest : ∀ reached, reached.accounts = world.accounts →
      (∀ role, (groupId, role) ∈ reached.accounts.groupRoles → Unguarded role) →
        KeepsGuarded environment (next ()) reached) :
    KeepsGuarded environment ((requireAdminForGuardedGroup actor groupId).bind next) world := by
  rw [requireAdminForGuardedGroup, Program.bind_eq, Program.bind_assoc]
  refine keeps_read rfl fun roles reached same answered => ?_
  cases answered
  refine keeps_guard outsider fun plain => rest reached same fun role held => ?_
  exact unguarded_of_filter plain role (Accounts.mem_groupRolesOf.mpr held)

/-- The group that is found is stored, under the number it was asked by. -/
theorem keeps_requireGroup {groupId : Nat} {next : Group → AccountUseCase Result}
    (rest : ∀ group reached, reached.accounts = world.accounts → group ∈ reached.accounts.groups →
      group.id = groupId → KeepsGuarded environment (next group) reached) :
    KeepsGuarded environment ((requireGroup groupId).bind next) world := by
  rw [requireGroup, Program.bind_eq, Program.bind_assoc]
  refine keeps_read rfl fun groups reached same answered => ?_
  cases answered
  split
  · exact keeps_fail _
  · rename_i group found
    have stored : group ∈ reached.accounts.groups :=
      (List.mem_insertionSort _).mp (List.mem_of_find?_eq_some found)
    exact rest group reached same stored (by simpa using List.find?_some found)

theorem keeps_requireNativeGroup {groupId : Nat} {next : Group → AccountUseCase Result}
    (rest : ∀ group reached, reached.accounts = world.accounts → group.id = groupId →
      KeepsGuarded environment (next group) reached) :
    KeepsGuarded environment ((requireNativeGroup groupId).bind next) world := by
  rw [requireNativeGroup, Program.bind_eq, Program.bind_assoc]
  refine keeps_requireGroup fun group reached same _ numbered => ?_
  split
  · exact keeps_fail _
  · exact rest group reached same numbered

/-- Nothing that one who is no administrator asks for moves a guarded role. -/
theorem keeps_program (outsider : isAdministrator actor = false) (operation : RoleOperation) :
    KeepsGuarded environment (operation.program rootUsers actor) world := by
  cases operation with
  | grantUserRole userId role =>
      refine keeps_ofExcept fun parsed _ => keeps_guard outsider fun plain => ?_
      exact keeps_write (grantUserRole_same (plain _ (List.mem_singleton_self _)))
  | revokeUserRole userId role =>
      refine keeps_then ?_
      unfold revokeUserRole
      split
      · exact keeps_fail _
      · rename_i parsed _
        refine keeps_guard outsider fun plain => ?_
        exact keeps_write (revokeUserRole_same (plain _ (List.mem_singleton_self _)))
  | createNativeGroup name =>
      refine keeps_then (keeps_ofExcept fun trimmed _ => ?_)
      exact keeps_write (createGroup_same world.database.sound trimmed false)
  | addDirectoryGroup dn =>
      refine keeps_then ?_
      unfold addDirectoryGroup
      dsimp only
      split
      · exact keeps_fail _
      · refine keeps_read rfl fun groups reached _ _ => ?_
        split
        · exact keeps_done _
        · exact keeps_write (createGroup_same reached.database.sound _ true)
  | renameGroup groupId name =>
      refine keeps_then (keeps_requireGroup fun group reached _ stored numbered => ?_)
      split
      · exact keeps_fail _
      · rename_i native
        refine keeps_ofExcept fun trimmed _ => keeps_write (renameGroup_same fun other held same => ?_)
        have equal : other = group := List.inj_on_of_nodup_map reached.database.sound.groupIds held
          stored (same.trans numbered.symm)
        rw [equal]
        simpa using native
  | deleteGroup groupId =>
      refine keeps_then (keeps_guardedGroup outsider fun reached _ plain => ?_)
      exact keeps_write (deleteGroup_same plain)
  | setGroupRoles groupId roles =>
      refine keeps_requireGroup fun group reached _ _ _ => keeps_ofExcept fun parsed _ => ?_
      refine keeps_read rfl fun current reached' _ answered => ?_
      cases answered
      refine keeps_guard outsider fun plain => keeps_write (setGroupRoles_same fun guarded among => ?_)
      by_contra differs
      -- A guarded role on one side alone is among the touched ones.
      refine plain guarded.asStr (List.mem_map_of_mem (List.mem_filter.mpr ⟨among, ?_⟩)) guarded among rfl
      rw [bne_iff_ne, ne_eq, Bool.eq_iff_iff, List.contains_iff_mem, List.contains_iff_mem,
        Accounts.mem_groupRolesOf]
      exact differs
  | addGroupMember groupId userId =>
      refine keeps_requireNativeGroup fun group reached _ _ => ?_
      refine keeps_guardedGroup outsider fun reached' _ plain => ?_
      exact keeps_write (addGroupMember_same plain)
  | removeGroupMember groupId userId =>
      refine keeps_then (keeps_requireNativeGroup fun group reached _ _ => ?_)
      refine keeps_guardedGroup outsider fun reached' _ plain => ?_
      exact keeps_write (removeGroupMember_same plain)
  | adminDeleteUser userId =>
      refine keeps_then ?_
      rw [adminDeleteUser, requireAdminToDeleteUser, Program.bind_eq, Program.bind_eq,
        Program.bind_assoc]
      refine keeps_read rfl fun users reached _ _ => ?_
      split
      · refine keeps_guard outsider fun plain => ?_
        exact absurd rfl (plain _ (List.mem_singleton_self _) .admin (by decide))
      · rw [Program.bind_eq, Program.bind_assoc]
        refine keeps_read rfl fun stored reached' _ answered => ?_
        cases answered
        refine keeps_guard outsider fun plain => ?_
        exact keeps_write (deleteUser_same (unguarded_of_filter plain))

end Programs

/-- The role is one of a directory group that the caller is in. -/
def ConferredByDirectory (accounts : Accounts) (groupNames : List String) (role : String) : Prop :=
  ∃ group ∈ accounts.groups, group.fromDirectory = true ∧ group.name ∈ groupNames ∧
    (group.id, role) ∈ accounts.groupRoles

/-- The tables are these, and the roles gathered from them are of the caller's directory groups. -/
def Gathered (accounts : Accounts) (groupNames : List String) (roles : List String)
    (world : AccountWorld) : Prop :=
  world.accounts = accounts ∧ ∀ role ∈ roles, ConferredByDirectory accounts groupNames role

/-- The caller is root, or holds the role of an administrator now. -/
def Administers (rootUsers : RootUsers) (accounts : Accounts) : Caller → Prop
  | .nobody => False
  | .account user groupNames => user.username ∈ rootUsers ∨
      Role.admin.asStr ∈ accounts.effectiveStoredRoles user.id ∨
      ConferredByDirectory accounts groupNames Role.admin.asStr

section Callers

variable {environment : Environment} {world : AccountWorld} {rootUsers : RootUsers}

/-- New roles are gathered behind those that are there. -/
theorem forall_mem_foldl {held : String → Prop} {gathered conferred : List String}
    (start : ∀ role ∈ gathered, held role) (each : ∀ role ∈ conferred, held role) :
    ∀ role ∈ conferred.foldl (fun roles role => if role ∈ roles then roles else roles ++ [role])
      gathered, held role := by
  induction conferred generalizing gathered with
  | nil => exact start
  | cons first rest ih =>
      refine ih ?_ fun role among => each role (List.mem_cons_of_mem _ among)
      dsimp only
      split
      · exact start
      · intro role within
        obtain earlier | last := List.mem_append.mp within
        · exact start role earlier
        · rw [List.mem_singleton] at last
          exact last ▸ each first List.mem_cons_self

theorem ensures_rolesFromDirectory (groupNames : List String) :
    (rolesFromDirectory groupNames).Ensures (AccountWorld.handle environment)
      (Gathered world.accounts groupNames) (fun _ after => after.accounts = world.accounts) world := by
  unfold rolesFromDirectory
  split
  · exact .done ⟨rfl, fun _ out => absurd out List.not_mem_nil⟩
  · rw [Program.bind_eq]
    refine (ensures_read rfl).bind fun groups reached held => ?_
    obtain ⟨same, answered⟩ := held
    cases answered
    have start : Gathered world.accounts groupNames [] reached :=
      ⟨same, fun _ out => absurd out List.not_mem_nil⟩
    refine Program.Ensures.bind (Program.Ensures.foldEach ?_ start) fun roles reached' kept => ?_
    · intro roles state group listed kept
      split
      · exact .done kept
      · rename_i matching
        have fromDirectory : group.fromDirectory = true ∧ group.name ∈ groupNames := by
          simpa using matching
        rw [Program.bind_eq]
        refine ((ensures_read rfl).mono (fun value after read => read) fun error after read =>
          read.trans kept.1).bind fun conferred after read => ?_
        obtain ⟨same', answered⟩ := read
        cases answered
        refine .done ⟨same'.trans kept.1, ?_⟩
        have each : ∀ role ∈ state.accounts.groupRolesOf group.id,
            ConferredByDirectory world.accounts groupNames role := by
          intro role conferred
          rw [kept.1] at conferred
          exact ⟨group, (List.mem_insertionSort _).mp listed, fromDirectory.1, fromDirectory.2,
            Accounts.mem_groupRolesOf.mp conferred⟩
        exact forall_mem_foldl kept.2 each
    · refine .done ⟨kept.1, fun role listed => kept.2 role ((List.mem_insertionSort _).mp listed)⟩

/-- One who does not administer is not resolved to an administrator. -/
theorem ensures_resolveActor {user : User} {groupNames : List String}
    (outsider : ¬ Administers rootUsers world.accounts (.account user groupNames)) :
    (resolveActor rootUsers user groupNames).Ensures (AccountWorld.handle environment)
      (fun actor after => after.accounts = world.accounts ∧ isAdministrator (some actor) = false)
      (fun _ after => after.accounts = world.accounts) world := by
  simp only [Administers, not_or] at outsider
  rw [resolveActor, Program.bind_eq]
  refine (ensures_read rfl).bind fun stored reached held => ?_
  obtain ⟨same, answered⟩ := held
  cases answered
  rw [Program.bind_eq]
  refine ((ensures_rolesFromDirectory groupNames).mono (fun roles after read => read)
    fun error after read => read.trans same).bind fun fromDirectory reached' read => ?_
  rw [same] at read
  refine .done ⟨read.1, ?_⟩
  rw [isAdministrator, Option.any_some, Bool.or_eq_false_iff]
  refine ⟨by simpa using outsider.1, ?_⟩
  rw [← Bool.not_eq_true, List.contains_iff_mem, List.mem_filter, List.contains_iff_mem,
    List.mem_filterMap]
  rintro ⟨-, role, listed, parsed⟩
  obtain own | directory := List.mem_append.mp listed
  · exact outsider.2.1 (Role.asStr_of_parse parsed ▸ own)
  · exact outsider.2.2 (Role.asStr_of_parse parsed ▸ read.2 role directory)

/-- What one who does not administer asks for keeps the guarded roles. -/
theorem keeps_callAs {caller : Caller} (outsider : ¬ Administers rootUsers world.accounts caller)
    (operation : RoleOperation) : KeepsGuarded environment (callAs rootUsers operation caller) world := by
  cases caller with
  | nobody => exact keeps_program rfl operation
  | account user groupNames =>
      rw [callAs, Program.bind_eq]
      refine ((ensures_resolveActor outsider).mono (fun actor after read => read)
        fun error after same => ?_).bind fun actor reached read => ?_
      · rw [same]
        exact .refl _
      · exact (keeps_program read.2 operation).from_equal read.1

end Callers

/-- A caller and what they ask for. -/
abbrev RoleCall := Caller × RoleOperation

/-- The tables after one call. -/
def afterCall (environment : Environment) (rootUsers : RootUsers) (world : AccountWorld)
    (call : RoleCall) : AccountWorld :=
  (((callAs rootUsers call.2 call.1).run (AccountWorld.handle environment) world).map Prod.snd).getD world

section Calls

variable {environment : Environment} {rootUsers : RootUsers}

theorem afterCall_same {world : AccountWorld} {call : RoleCall}
    (outsider : ¬ Administers rootUsers world.accounts call.1) :
    SameGuarded world.accounts (afterCall environment rootUsers world call).accounts := by
  unfold afterCall
  cases ran : (callAs rootUsers call.2 call.1).run (AccountWorld.handle environment) world with
  | none => exact .refl _
  | some ended => exact (keeps_callAs outsider call.2).always ran

/-- A call of one who does not administer at that moment keeps the guarded roles, and so does a run
of such calls. -/
theorem guarded_roles_kept (environment : Environment) (rootUsers : RootUsers) (world : AccountWorld)
    (calls : List RoleCall) :
    EveryStep (afterCall environment rootUsers)
        (fun world call => Administers rootUsers world.accounts call.1 ∨
          SameGuarded world.accounts (afterCall environment rootUsers world call).accounts)
        world calls ∧
      (EveryStep (afterCall environment rootUsers)
          (fun world call => ¬ Administers rootUsers world.accounts call.1) world calls →
        SameGuarded world.accounts
          (runSteps (afterCall environment rootUsers) world calls).accounts) := by
  constructor
  · induction calls generalizing world with
    | nil => trivial
    | cons call rest ih =>
        refine ⟨?_, ih _⟩
        by_cases administers : Administers rootUsers world.accounts call.1
        · exact .inl administers
        · exact .inr (afterCall_same administers)
  · intro outsiders
    induction calls generalizing world with
    | nil => exact .refl _
    | cons call rest ih =>
        obtain ⟨outsider, later⟩ := outsiders
        exact (afterCall_same outsider).trans (ih _ later)

end Calls
end Sanshain.Guarantees
