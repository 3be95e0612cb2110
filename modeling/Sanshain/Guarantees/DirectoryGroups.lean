import Sanshain.Application.Admin
import Sanshain.Guarantees.Clients
import Sanshain.Guarantees.GuardedRoles
import Sanshain.Guarantees.Recordings

namespace Sanshain.Guarantees

open Sanshain.Data Sanshain.Domain Sanshain.Effects Sanshain.Application Sanshain.Infrastructure
open Sanshain.Text

section Running

variable {environment : Environment}

theorem returns_accountRepo (reliable : environment.Reliable) {world : AccountWorld}
    (request : AccountCall) {result : request.Result} (reads : request.readsOnly = true)
    (answers : (world.accounts.perform request).2 = .ok result) :
    (accountRepo request).Returns (AccountWorld.handle environment)
      (fun found after => found = result ∧ after.accounts = world.accounts) world := by
  refine ⟨result, ⟨(world.database.perform request).1, world.steps + 1⟩, ?_, rfl,
    Accounts.perform_readsOnly world.accounts request reads⟩
  have handled : AccountWorld.handle environment world (.repo request) =
      (⟨(world.database.perform request).1, world.steps + 1⟩, (world.accounts.perform request).2) := by
    simp only [AccountWorld.handle, reliable world.steps]
    rfl
  change (Program.ofExcept ((AccountWorld.handle environment world (.repo request)).2.mapError _)).run _
    (AccountWorld.handle environment world (.repo request)).1 = _
  rw [handled, answers]
  rfl

theorem mem_foldl_gathered (conferred gathered : List String) (role : String) :
    role ∈ conferred.foldl (fun roles role => if role ∈ roles then roles else roles ++ [role]) gathered ↔
      role ∈ gathered ∨ role ∈ conferred := by
  induction conferred generalizing gathered with
  | nil => simp
  | cons first rest ih =>
      rw [List.foldl_cons, ih]
      split
      · rename_i held
        constructor
        · exact Or.imp_right (List.mem_cons_of_mem _)
        · rintro (there | there)
          · exact .inl there
          · obtain rfl | later := List.mem_cons.mp there
            · exact .inl held
            · exact .inr later
      · simp [or_assoc]

/-- The roles of the directory are those put on the stored groups of exactly these names. -/
theorem returns_rolesFromDirectory (reliable : environment.Reliable) (world : AccountWorld)
    (names : List String) :
    (rolesFromDirectory names).Returns (AccountWorld.handle environment)
      (fun roles _ => ∀ role, role ∈ roles ↔ ConferredByDirectory world.accounts names role) world := by
  unfold rolesFromDirectory
  split
  · rename_i none
    rw [List.isEmpty_iff] at none
    refine .done fun role => ?_
    simp [none, ConferredByDirectory]
  · refine (returns_accountRepo reliable .listGroups rfl rfl).bind ?_
    rintro _ reached ⟨rfl, same⟩
    have gathered := @Program.Returns.foldEach AccountWorld AccountRequest AccountRequest.Answer AppError
      (List String) (AccountWorld.handle environment) reached Group (fun roles group =>
        if !group.fromDirectory || !names.contains group.name then .done roles
        else do
          let conferred ← accountRepo (.listGroupRoles group.id)
          .done (conferred.foldl (fun roles role => if role ∈ roles then roles else roles ++ [role])
            roles))
      (fun past roles state => state.accounts = world.accounts ∧ ∀ role, role ∈ roles ↔
        ∃ group ∈ past, group.fromDirectory = true ∧ group.name ∈ names ∧
          (group.id, role) ∈ world.accounts.groupRoles) ?_ []
      (world.accounts.groups.insertionSort Accounts.groupOrder) [] ⟨same, by simp⟩
    · refine gathered.bind ?_
      rintro roles after ⟨-, gathered⟩
      refine .done fun role => ?_
      rw [List.mem_insertionSort, gathered role, ConferredByDirectory]
      simp only [List.nil_append, List.mem_insertionSort]
    · rintro past roles state group ⟨kept, gathered⟩
      split
      · rename_i apart
        refine .done ⟨kept, fun role => ?_⟩
        rw [gathered role]
        have out : ¬(group.fromDirectory = true ∧ group.name ∈ names) := by
          rintro ⟨directory, named⟩
          simp [directory, named] at apart
        constructor
        · rintro ⟨other, among, facts⟩
          exact ⟨other, List.mem_append_left _ among, facts⟩
        · rintro ⟨other, among, directory, named, held⟩
          obtain among | last := List.mem_append.mp among
          · exact ⟨other, among, directory, named, held⟩
          · rw [List.mem_singleton.mp last] at directory named
            exact absurd ⟨directory, named⟩ out
      · rename_i matching
        have named : group.fromDirectory = true ∧ group.name ∈ names := by simpa using matching
        refine (returns_accountRepo reliable (.listGroupRoles group.id) rfl rfl).bind ?_
        rintro _ after ⟨rfl, later⟩
        refine .done ⟨later.trans kept, fun role => ?_⟩
        rw [mem_foldl_gathered, gathered role, Accounts.mem_groupRolesOf, kept]
        constructor
        · rintro (⟨other, among, facts⟩ | held)
          · exact ⟨other, List.mem_append_left _ among, facts⟩
          · exact ⟨group, by simp, named.1, named.2, held⟩
        · rintro ⟨other, among, facts⟩
          obtain among | last := List.mem_append.mp among
          · exact .inl ⟨other, among, facts⟩
          · rw [List.mem_singleton.mp last] at facts
            exact .inr facts.2.2

/-- A stored group of the directory under exactly one of these names maintains the Producer. -/
def MaintainsByDirectory (store : Store) (names : List String) (serviceId : ℕ) : Prop :=
  ∃ group ∈ store.groups, group.fromDirectory = true ∧ group.name ∈ names ∧
    (group.id, serviceId) ∈ store.groupMaintainers

/-- The account maintains the Producer itself, or as a member of a group of Sanshain's own. -/
def MaintainsByAccount (store : Store) (userId serviceId : ℕ) : Prop :=
  (userId, serviceId) ∈ store.userMaintainers ∨
    ∃ row ∈ store.groupMaintainers, row.2 = serviceId ∧ (row.1, userId) ∈ store.groupMembers

theorem returns_directoryMaintainerGroupIds (reliable : environment.Reliable) (world : World)
    (actor : Actor) :
    (directoryMaintainerGroupIds actor).Returns (World.handle environment)
      (fun ids after => StoreKept world after ∧ ∀ id, id ∈ ids ↔ ∃ group ∈ world.store.groups,
        group.fromDirectory = true ∧ group.name ∈ actor.directoryGroups ∧ group.id = id) world := by
  unfold directoryMaintainerGroupIds
  split
  · rename_i none
    rw [List.isEmpty_iff] at none
    exact .done ⟨⟨rfl, le_rfl⟩, by simp [none]⟩
  · refine (returns_reads reliable .listGroups rfl rfl).bind ?_
    rintro _ reached ⟨rfl, kept⟩
    refine .done ⟨kept, fun id => ?_⟩
    simp only [List.mem_map, List.mem_filter, Bool.and_eq_true, List.contains_iff_mem]
    constructor
    · rintro ⟨group, ⟨among, directory, named⟩, same⟩
      exact ⟨group, among, directory, named, same⟩
    · rintro ⟨group, among, directory, named, same⟩
      exact ⟨group, ⟨among, directory, named⟩, same⟩

/-- Who maintains a Producer: root, an account, or a directory group of exactly this name. -/
theorem returns_maintainsProducer (reliable : environment.Reliable) (world : World) (actor : Actor)
    {producer : String} {service : ServiceRow}
    (named : world.store.serviceNamed? producer = some service) :
    (maintainsProducer actor producer).Returns (World.handle environment)
      (fun answer _ => answer = true ↔ actor.isRoot = true ∨
        MaintainsByAccount world.store actor.userId service.id ∨
        MaintainsByDirectory world.store actor.directoryGroups service.id) world := by
  unfold maintainsProducer
  split
  · rename_i root
    exact .done (by simp [root])
  · rename_i plain
    refine (returns_reads reliable (.findService producer) rfl rfl).bind ?_
    rintro _ found ⟨rfl, kept⟩
    rw [named]
    refine (returns_reads reliable (.maintainsProducer actor.userId service.id) rfl rfl).bind ?_
    rintro _ asked ⟨rfl, later⟩
    rw [kept.1]
    have kept := kept.trans later
    have account : ((decide ((actor.userId, service.id) ∈ world.store.userMaintainers) ||
        world.store.groupMaintainers.any fun row => row.2 = service.id &&
          (row.1, actor.userId) ∈ world.store.groupMembers) = true) ↔
        MaintainsByAccount world.store actor.userId service.id := by
      simp [MaintainsByAccount]
    split
    · rename_i own
      exact .done (by simp [account.mp own])
    · rename_i apart
      have apart : ¬MaintainsByAccount world.store actor.userId service.id :=
        fun own => apart (account.mpr own)
      refine (returns_directoryMaintainerGroupIds reliable asked actor).bind ?_
      rintro ids listed ⟨later, among⟩
      rw [kept.1] at among
      have kept := kept.trans later
      split
      · rename_i none
        rw [List.isEmpty_iff] at none
        refine .done ?_
        have nobody : ¬MaintainsByDirectory world.store actor.directoryGroups service.id := by
          rintro ⟨group, there, directory, spelled, -⟩
          have := (among group.id).mpr ⟨group, there, directory, spelled, rfl⟩
          rw [none] at this
          cases this
        simp [plain, apart, nobody]
      · refine (returns_reads reliable (.listGroupMaintainerIds service.id) rfl rfl).bind ?_
        rintro _ after ⟨rfl, -⟩
        refine .done ?_
        rw [kept.1]
        simp only [plain, apart, false_or, Bool.false_eq_true, List.any_eq_true, List.mem_map,
          List.mem_filter, decide_eq_true_eq, List.contains_iff_mem, among]
        constructor
        · rintro ⟨id, ⟨row, ⟨held, ofService⟩, rfl⟩, group, there, directory, spelled, same⟩
          have row : row = (group.id, service.id) := Prod.ext same.symm ofService
          exact ⟨group, there, directory, spelled, row ▸ held⟩
        · rintro ⟨group, there, directory, spelled, held⟩
          exact ⟨group.id, ⟨(group.id, service.id), ⟨held, rfl⟩, rfl⟩, group, there, directory, spelled,
            rfl⟩

/-- The stored directory group of a name, whatever the case of its ASCII letters. -/
def directoryGroupOf (accounts : Accounts) (dn : String) : Option Group :=
  (accounts.groups.insertionSort Accounts.groupOrder).find? fun group =>
    group.fromDirectory && eqIgnoreAsciiCase group.name dn

/-- A group that no stored one is up to case is a new one. -/
theorem createGroup_fresh {accounts : Accounts} (sound : accounts.Integrity) {dn : String}
    (unknown : directoryGroupOf accounts dn = none) {group : Group}
    (created : (accounts.perform (.createGroup dn true)).2 = .ok group) : group ∉ accounts.groups := by
  have other : accounts.groups.find? (fun group => group.name = dn ∧ group.fromDirectory = true) =
      none := by
    rw [List.find?_eq_none]
    intro group among same
    obtain ⟨named, directory⟩ := of_decide_eq_true same
    have apart := List.find?_eq_none.mp unknown group ((List.mem_insertionSort _).mpr among)
    simp [named, directory, eqIgnoreAsciiCase] at apart
  simp only [Accounts.perform, other] at created
  cases created
  intro among
  exact absurd (sound.groupBelow _ among) (lt_irrefl _)

theorem returns_addDirectoryGroup (reliable : environment.Reliable) {world : AccountWorld}
    {dn : String} {group : Group} (named : trim dn ≠ "")
    (known : directoryGroupOf world.accounts (trim dn) = some group) :
    (addDirectoryGroup dn).Returns (AccountWorld.handle environment) (fun found _ => found = group)
      world := by
  unfold addDirectoryGroup
  dsimp only
  rw [if_neg named]
  refine (returns_accountRepo reliable .listGroups rfl rfl).bind ?_
  rintro _ reached ⟨rfl, -⟩
  rw [directoryGroupOf] at known
  rw [known]
  exact .done rfl

theorem ensures_addDirectoryGroup {world : AccountWorld} {dn : String}
    (unknown : trim dn ≠ "" → directoryGroupOf world.accounts (trim dn) = none) :
    (addDirectoryGroup dn).Ensures (AccountWorld.handle environment)
      (fun made _ => made ∉ world.accounts.groups) (fun _ _ => True) world := by
  unfold addDirectoryGroup
  dsimp only
  split
  · exact .fail trivial
  · rename_i named
    have unknown := unknown named
    refine ((ensures_read rfl).mono (fun _ _ read => read) fun _ _ _ => trivial).bind ?_
    rintro groups reached ⟨same, answered⟩
    cases answered
    have absent := unknown
    rw [directoryGroupOf] at absent
    rw [absent]
    change (accountRepo (.createGroup (trim dn) true)).Ensures _ _ _ reached
    refine ensures_accountRepo (fun made _ created _ => ?_) fun _ _ _ => trivial
    rw [same] at created
    exact createGroup_fresh world.database.sound unknown created

/-- Adding a directory group answers a stored one exactly when one has its name up to case. -/
theorem addDirectoryGroup_known_iff (reliable : environment.Reliable) (world : AccountWorld)
    (dn : String) (group : Group) :
    ((∃ after, (addDirectoryGroup dn).run (AccountWorld.handle environment) world =
        some (.ok group, after)) ∧ group ∈ world.accounts.groups) ↔
      trim dn ≠ "" ∧ directoryGroupOf world.accounts (trim dn) = some group := by
  constructor
  · rintro ⟨⟨after, ran⟩, among⟩
    by_cases known : trim dn ≠ "" ∧ (directoryGroupOf world.accounts (trim dn)).isSome
    · obtain ⟨other, found⟩ := Option.isSome_iff_exists.mp known.2
      obtain ⟨value, same, rfl⟩ := (returns_addDirectoryGroup reliable known.1 found).outcome ran
      cases same
      exact ⟨known.1, found⟩
    · have unknown (named : trim dn ≠ "") : directoryGroupOf world.accounts (trim dn) = none :=
        Option.not_isSome_iff_eq_none.mp fun found => known ⟨named, found⟩
      exact absurd among ((ensures_addDirectoryGroup unknown).1 group after ran)
  · rintro ⟨named, known⟩
    obtain ⟨found, after, ran, rfl⟩ := returns_addDirectoryGroup reliable named known
    exact ⟨⟨after, ran⟩, (List.mem_insertionSort _).mp (List.mem_of_find?_eq_some known)⟩

/-- A search needs the directory's configuration. -/
def Configured (accounts : Accounts) : Prop :=
  (accounts.settings.find? (·.1 = "ldap_config")).isSome

/-- A search of the directory marks each hit as the stored group of its name up to case. -/
theorem ensures_searchDirectoryGroups (directory : GroupDirectory) (text : String)
    (world : AccountWorld) :
    (searchDirectoryGroups directory text).Ensures (AccountWorld.handle environment)
      (fun hits _ => Configured world.accounts ∧ ∀ hit ∈ hits,
        hit.groupId = (directoryGroupOf world.accounts hit.dn).map (·.id)) (fun _ _ => True) world := by
  have config : (getLdapConfig directory).Ensures (AccountWorld.handle environment)
      (fun config after => after.accounts = world.accounts ∧ (config.isSome → Configured world.accounts))
      (fun _ _ => True) world := by
    refine ((ensures_read rfl).mono (fun _ _ read => read) fun _ _ _ => trivial).bind ?_
    rintro stored reached ⟨same, answered⟩
    cases answered
    cases stored : world.accounts.settings.find? (·.1 = "ldap_config") with
    | none => exact .done ⟨same, by simp⟩
    | some setting =>
        refine .ofExcept (fun _ _ => ⟨same, fun _ => ?_⟩) fun _ _ => trivial
        rw [Configured, stored]
        rfl
  refine config.bind ?_
  rintro config reached ⟨same, configured⟩
  cases config with
  | none => exact .fail trivial
  | some config =>
      refine Program.Ensures.ofExcept_bind (fun found _ => ?_) fun _ _ => trivial
      refine ((ensures_read rfl).mono (fun _ _ read => read) fun _ _ _ => trivial).bind ?_
      rintro known after ⟨-, answered⟩
      cases answered
      refine .done ⟨configured rfl, fun hit among => ?_⟩
      obtain ⟨group, -, rfl⟩ := List.mem_map.mp among
      rw [same, directoryGroupOf]

/-- A directory that finds one group for any text. -/
def directoryOf (dn : String) : GroupDirectory where
  Config := Unit
  readConfig _ := .ok (some ())
  findGroups _ _ _ := .ok [⟨dn, dn⟩]

theorem returns_searchDirectoryGroups (reliable : environment.Reliable) {world : AccountWorld}
    (configured : Configured world.accounts) (dn : String) :
    (searchDirectoryGroups (directoryOf dn) dn).Returns (AccountWorld.handle environment)
      (fun hits _ => ∃ hit ∈ hits, hit.dn = dn) world := by
  obtain ⟨setting, found⟩ := Option.isSome_iff_exists.mp configured
  have config : (getLdapConfig (directoryOf dn)).Returns (AccountWorld.handle environment)
      (fun config after => config = some () ∧ after.accounts = world.accounts) world := by
    refine (returns_accountRepo reliable (.getSetting "ldap_config") rfl rfl).bind ?_
    rintro _ reached ⟨rfl, same⟩
    rw [found]
    exact .done ⟨rfl, same⟩
  refine config.bind ?_
  rintro _ reached ⟨rfl, same⟩
  refine (returns_accountRepo reliable .listGroups rfl rfl).bind ?_
  rintro _ after ⟨rfl, -⟩
  exact .done ⟨_, List.mem_singleton_self _, rfl⟩

end Running

section Identity

/-- What it means that a name of the directory is a stored group: those the directory puts into it
hold its roles and maintain its Producers, and a search finds it. -/
structure IsGroup (environment : Environment) (accounts : AccountWorld) (world : World) (dn : String)
    (group : Group) : Prop where
  roles : ∀ names roles after, dn ∈ names →
    (rolesFromDirectory names).run (AccountWorld.handle environment) accounts =
      some (.ok roles, after) →
    ∀ role, (group.id, role) ∈ accounts.accounts.groupRoles → role ∈ roles
  maintains : ∀ (actor : Actor) producer service answer after, dn ∈ actor.directoryGroups →
    world.store.serviceNamed? producer = some service →
    (group.id, service.id) ∈ world.store.groupMaintainers →
    (maintainsProducer actor producer).run (World.handle environment) world =
      some (.ok answer, after) → answer = true
  marked : ∀ directory text hits after,
    (searchDirectoryGroups directory text).run (AccountWorld.handle environment) accounts =
      some (.ok hits, after) → ∀ hit ∈ hits, hit.dn = dn → hit.groupId = some group.id

/-- The rights of the group are those of groups stored under exactly this name, and without the
blanks around it the name means the same group. -/
structure SpelledSo (accounts : Accounts) (store : Store) (dn : String) (group : Group) : Prop where
  roles : ∀ role, (group.id, role) ∈ accounts.groupRoles → ConferredByDirectory accounts [dn] role
  maintains : ∀ producer service, store.serviceNamed? producer = some service →
    (group.id, service.id) ∈ store.groupMaintainers → MaintainsByDirectory store [dn] service.id
  unpadded : Configured accounts →
    (directoryGroupOf accounts dn).map (·.id) = some group.id

variable {environment : Environment} {accounts : AccountWorld} {world : World} {dn : String}
  {group : Group}

theorem ConferredByDirectory.mono {tables : Accounts} {names more : List String} {role : String}
    (within : ∀ name ∈ names, name ∈ more) (conferred : ConferredByDirectory tables names role) :
    ConferredByDirectory tables more role := by
  obtain ⟨group, among, directory, named, held⟩ := conferred
  exact ⟨group, among, directory, within _ named, held⟩

theorem MaintainsByDirectory.mono {store : Store} {names more : List String} {serviceId : ℕ}
    (within : ∀ name ∈ names, name ∈ more) (maintains : MaintainsByDirectory store names serviceId) :
    MaintainsByDirectory store more serviceId := by
  obtain ⟨group, among, directory, named, held⟩ := maintains
  exact ⟨group, among, directory, within _ named, held⟩

theorem IsGroup.of_spelled (reliable : environment.Reliable)
    (spelled : SpelledSo accounts.accounts world.store dn group) :
    IsGroup environment accounts world dn group where
  roles names roles after named ran role held := by
    obtain ⟨found, same, conferred⟩ := (returns_rolesFromDirectory reliable accounts names).outcome ran
    cases same
    refine (conferred role).mpr ((spelled.roles role held).mono ?_)
    rintro name among
    rw [List.mem_singleton.mp among]
    exact named
  maintains actor producer service answer after named there held ran := by
    obtain ⟨found, same, iff⟩ := (returns_maintainsProducer reliable world actor there).outcome ran
    cases same
    refine iff.mpr (.inr (.inr ((spelled.maintains producer service there held).mono ?_)))
    rintro name among
    rw [List.mem_singleton.mp among]
    exact named
  marked directory text hits after ran hit among named := by
    obtain ⟨configured, marks⟩ := (ensures_searchDirectoryGroups directory text accounts).1 hits after ran
    rw [marks hit among, named]
    exact spelled.unpadded configured

theorem SpelledSo.of_isGroup (reliable : environment.Reliable)
    (identical : IsGroup environment accounts world dn group) :
    SpelledSo accounts.accounts world.store dn group where
  roles role held := by
    obtain ⟨roles, after, ran, conferred⟩ := returns_rolesFromDirectory reliable accounts [dn]
    exact (conferred role).mp
      (identical.roles [dn] roles after (List.mem_singleton_self dn) ran role held)
  maintains producer service there held := by
    -- an account of a number that no table has maintains nothing itself
    obtain ⟨stranger, unused⟩ := Infinite.exists_notMem_finset
      ((world.store.userMaintainers.map Prod.fst ++ world.store.groupMembers.map Prod.snd).toFinset)
    rw [List.mem_toFinset, List.mem_append, not_or] at unused
    let actor : Actor := { userId := stranger, username := "", directoryGroups := [dn] }
    obtain ⟨answer, after, ran, iff⟩ := returns_maintainsProducer reliable world actor there
    have granted := identical.maintains actor producer service answer after
      (List.mem_singleton_self dn) there held ran
    obtain root | own | directory := iff.mp granted
    · cases root
    · obtain own | ⟨row, -, -, member⟩ := own
      · exact absurd (List.mem_map_of_mem own) unused.1
      · exact absurd (List.mem_map_of_mem member) unused.2
    · exact directory
  unpadded configured := by
    obtain ⟨hits, after, ran, hit, among, named⟩ := returns_searchDirectoryGroups reliable configured dn
    have marks := ((ensures_searchDirectoryGroups _ dn accounts).1 hits after ran).2 hit among
    rw [identical.marked _ dn hits after ran hit among named, named] at marks
    exact marks.symm

/-- A name of the directory that is answered as a stored group is that group everywhere exactly when
the group's rights are those of groups stored under this very spelling. -/
theorem directory_group_is_one_iff (environment : Environment) (accounts : AccountWorld) (world : World)
    (reliable : environment.Reliable) (dn : String) :
    (∀ group after, (addDirectoryGroup dn).run (AccountWorld.handle environment) accounts =
        some (.ok group, after) → group ∈ accounts.accounts.groups →
        IsGroup environment accounts world dn group) ↔
      ∀ group, trim dn ≠ "" → directoryGroupOf accounts.accounts (trim dn) = some group →
        SpelledSo accounts.accounts world.store dn group := by
  constructor
  · intro identical group named known
    obtain ⟨⟨after, ran⟩, among⟩ :=
      (addDirectoryGroup_known_iff reliable accounts dn group).mpr ⟨named, known⟩
    exact .of_isGroup reliable (identical group after ran among)
  · intro spelled group after ran among
    obtain ⟨named, known⟩ :=
      (addDirectoryGroup_known_iff reliable accounts dn group).mp ⟨⟨after, ran⟩, among⟩
    exact .of_spelled reliable (spelled group named known)

section Examples

/-- The directory group "cn=Team" may view. -/
def teamAccounts : AccountWorld :=
  ⟨[.createGroup "cn=Team" true, .setGroupRoles 1 ["viewer"]].foldl
    (fun database request => (AccountDatabase.perform database request).1) .empty, 0⟩

theorem steady_reliable : steadyEnvironment.Reliable := fun _ => rfl

theorem team_known (dn : String)
    (known : (trim dn ≠ "" && directoryGroupOf teamAccounts.accounts (trim dn) ==
      some ⟨1, "cn=Team", true⟩) = true) :
    trim dn ≠ "" ∧ directoryGroupOf teamAccounts.accounts (trim dn) = some ⟨1, "cn=Team", true⟩ := by
  simpa using known

/-- Under the spelling it is stored by, a directory group is the same everywhere. -/
theorem directory_group_is_one_stored :
    ∃ after, (addDirectoryGroup "cn=Team").run (AccountWorld.handle steadyEnvironment) teamAccounts =
        some (.ok ⟨1, "cn=Team", true⟩, after) ∧
      IsGroup steadyEnvironment teamAccounts emptyWorld "cn=Team" ⟨1, "cn=Team", true⟩ := by
  have known := team_known "cn=Team" (by decide +kernel)
  obtain ⟨⟨after, ran⟩, among⟩ :=
    (addDirectoryGroup_known_iff steady_reliable teamAccounts "cn=Team" _).mpr known
  refine ⟨after, ran, (directory_group_is_one_iff steadyEnvironment teamAccounts emptyWorld
    steady_reliable "cn=Team").mpr (fun group _ found => ?_) _ after ran among⟩
  cases known.2.symm.trans found
  refine ⟨fun role held => ⟨⟨1, "cn=Team", true⟩, among, rfl, List.mem_singleton_self _, held⟩, ?_, ?_⟩
  · intro producer service there
    cases there
  · intro configured
    decide +kernel

/-- Under another case the group is answered as the stored one, and confers nothing. -/
theorem other_case_confers_nothing :
    ∃ group after, (addDirectoryGroup "cn=team").run (AccountWorld.handle steadyEnvironment)
        teamAccounts = some (.ok group, after) ∧ group ∈ teamAccounts.accounts.groups ∧
      ¬IsGroup steadyEnvironment teamAccounts emptyWorld "cn=team" group := by
  have known := team_known "cn=team" (by decide +kernel)
  obtain ⟨⟨after, ran⟩, among⟩ :=
    (addDirectoryGroup_known_iff steady_reliable teamAccounts "cn=team" _).mpr known
  refine ⟨_, after, ran, among, fun identical => ?_⟩
  have spelled := SpelledSo.of_isGroup steady_reliable identical
  obtain ⟨group, there, -, named, -⟩ := spelled.roles "viewer" (by decide +kernel)
  have other : ∀ group ∈ teamAccounts.accounts.groups, group.name ≠ "cn=team" := by decide +kernel
  exact other group there (List.mem_singleton.mp named)

end Examples

end Identity
end Sanshain.Guarantees
