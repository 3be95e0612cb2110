import Sanshain.Infrastructure.Store

namespace Sanshain.Infrastructure

open Sanshain.Data Sanshain.Domain

/-- The tables of the store, each with its counter where it has one. -/
inductive Table where
  | services
  | serviceTags
  | specVersions
  | origins
  | clients
  | dependencies
  | trunkPins
  | branchPins
  | trunkMembers
  | branches
  | branchMembers
  | contracts
  | harvested
  | periphery
  | systemContexts
  | webhooks
  | outbox
  | deliveries
  | auditLogs
  | settings
  | groups
  | groupMembers
  | userMaintainers
  | groupMaintainers
  deriving DecidableEq, Repr

abbrev Table.Contents : Table → Type
  | .services => List ServiceRow × Nat
  | .serviceTags => List (Nat × String)
  | .specVersions => List SpecVersionRow × Nat
  | .origins => List OriginRow
  | .clients => List (Nat × String) × Nat
  | .dependencies => List DependencyRow
  | .trunkPins => List PinRow
  | .branchPins => List (Nat × PinRow)
  | .trunkMembers => List MemberRow
  | .branches => List BranchInfo × Nat
  | .branchMembers => List (Nat × MemberRow)
  | .contracts => List ChannelMessageContract
  | .harvested => List HarvestedRow
  | .periphery => List PeripheryRow
  | .systemContexts => Entries String SystemContext
  | .webhooks => List Webhook
  | .outbox => List NewWebhookEvent
  | .deliveries => List DeliveryRow
  | .auditLogs => List AuditRow
  | .settings => List (String × String)
  | .groups => List Group
  | .groupMembers => List (Nat × Nat)
  | .userMaintainers => List (Nat × Nat)
  | .groupMaintainers => List (Nat × Nat)

def Store.table (store : Store) : (table : Table) → table.Contents
  | .services => (store.services, store.nextServiceId)
  | .serviceTags => store.serviceTags
  | .specVersions => (store.specVersions, store.nextSpecVersionId)
  | .origins => store.origins
  | .clients => (store.clients, store.nextClientId)
  | .dependencies => store.dependencies
  | .trunkPins => store.trunkPins
  | .branchPins => store.branchPins
  | .trunkMembers => store.trunkMembers
  | .branches => (store.branches, store.nextBranchId)
  | .branchMembers => store.branchMembers
  | .contracts => store.contracts
  | .harvested => store.harvested
  | .periphery => store.periphery
  | .systemContexts => store.systemContexts
  | .webhooks => store.webhooks
  | .outbox => store.outbox
  | .deliveries => store.deliveries
  | .auditLogs => store.auditLogs
  | .settings => store.settings
  | .groups => store.groups
  | .groupMembers => store.groupMembers
  | .userMaintainers => store.userMaintainers
  | .groupMaintainers => store.groupMaintainers

/-- The tables an operation may write; every other one it leaves as it is. -/
def writes : RepoCall → List Table
  | .ensureService _ => [.services]
  | .addServiceTags _ _ | .removeServiceTag _ _ => [.serviceTags]
  | .upsertSpecVersion _ => [.specVersions, .outbox, .deliveries]
  | .touchSpecVersionProvided _ _ | .touchSpecVersionRequired _ _ => [.specVersions]
  | .touchSpecVersionTrunk _ _ => [.specVersions, .trunkMembers]
  | .deleteExpiredSnapshots _ => [.specVersions, .dependencies, .origins]
  | .deleteSpecVersion _ => [.specVersions, .dependencies, .origins, .trunkMembers]
  | .closeExpiredTrunkData _ _ => [.trunkPins, .specVersions, .trunkMembers]
  | .insertBranch _ _ _ _ _ _ => [.branches, .outbox, .deliveries]
  | .renameBranch _ _ => [.branches]
  | .deleteBranch _ => [.branches, .branchPins, .branchMembers, .periphery]
  | .copyTrunkPinsToBranch _ _ _ | .copyBranchPinsToBranch _ _ _ _ => [.branchPins]
  | .copyTrunkPeripheryToBranch _ _ _ | .copyBranchPeripheryToBranch _ _ _ _ => [.periphery]
  | .reconcilePeriphery _ _ _ _ _ => [.periphery, .outbox, .deliveries]
  | .upsertSystemContext _ _ _ | .deleteSystemContext _ => [.systemContexts]
  | .deleteConsumer _ => [.dependencies, .trunkPins, .clients, .harvested]
  | .deleteAllServices => [.services, .serviceTags, .specVersions, .origins, .dependencies, .contracts,
      .harvested, .userMaintainers, .groupMaintainers]
  | .deleteAllClients => [.clients, .dependencies, .harvested]
  | .nukeDatabase => [.services, .serviceTags, .specVersions, .origins, .clients, .dependencies,
      .trunkMembers, .branches, .branchPins, .branchMembers, .contracts, .harvested, .periphery,
      .systemContexts, .webhooks, .outbox, .deliveries, .userMaintainers, .groupMaintainers]
  | .setVersionOrigin _ _ _ => [.origins]
  | .recordBranchMemberVersion _ _ _ _ _ => [.branchMembers]
  | .ensureClient _ => [.clients]
  | .recordDependenciesBulk _ _ => [.dependencies, .outbox, .deliveries]
  | .recordTrunkPins _ => [.trunkPins]
  | .recordBranchPins _ _ => [.branchPins]
  | .closeTrunkPinsForServiceApi _ _ _ => [.trunkPins, .trunkMembers]
  | .upsertChannelMessageContract _ | .deleteChannelMessageContract _ _ => [.contracts]
  | .reconcileHarvestedSubscriptions _ _ _ _ _ => [.harvested]
  | .insertAuditLog _ _ => [.auditLogs]
  | .insertWebhookEvents _ => [.outbox, .deliveries]
  | .deleteProducer _ => [.services, .serviceTags, .specVersions, .origins, .dependencies, .trunkPins,
      .trunkMembers, .contracts, .harvested, .userMaintainers, .groupMaintainers]
  | _ => []

namespace Store

section Outcomes

variable {Result : Type} {store : Store}

/-- A failed write changes nothing, and a successful one is its outcome. -/
theorem tried_cases (store : Store) (outcome : Except RepositoryError (Store × Result)) :
    (∃ error, outcome = .error error ∧ store.tried outcome = (store, .error error)) ∨
      ∃ after result, outcome = .ok (after, result) ∧ store.tried outcome = (after, .ok result) := by
  cases outcome with
  | error error => exact .inl ⟨error, rfl, rfl⟩
  | ok done => exact .inr ⟨done.1, done.2, rfl, rfl⟩

theorem triedUnit_cases (store : Store) (outcome : Except RepositoryError Store) :
    (∃ error, outcome = .error error ∧ store.triedUnit outcome = (store, .error error)) ∨
      ∃ after, outcome = .ok after ∧ store.triedUnit outcome = (after, .ok ()) := by
  cases outcome with
  | error error => exact .inl ⟨error, rfl, rfl⟩
  | ok after => exact .inr ⟨after, rfl, rfl⟩

theorem ok_of_map {Value : Type} {outcome : Except RepositoryError Value} {change : Value → Result}
    {result : Result} (mapped : outcome.map change = .ok result) :
    ∃ value, outcome = .ok value ∧ result = change value := by
  cases outcome with
  | error error => cases mapped
  | ok value =>
      cases mapped
      exact ⟨value, rfl, rfl⟩

theorem table_tried {table : Table} {outcome : Except RepositoryError (Store × Result)}
    (kept : ∀ after result, outcome = .ok (after, result) → after.table table = store.table table) :
    (store.tried outcome).1.table table = store.table table := by
  obtain ⟨error, -, same⟩ | ⟨after, result, done, same⟩ := tried_cases store outcome
  · rw [same]
  · rw [same]
    exact kept after result done

/-- What a successful write keeps is kept by the attempt. -/
theorem table_triedUnit {table : Table} {outcome : Except RepositoryError Store}
    (kept : ∀ after, outcome = .ok after → after.table table = store.table table) :
    (store.triedUnit outcome).1.table table = store.table table := by
  obtain ⟨error, -, same⟩ | ⟨after, done, same⟩ := triedUnit_cases store outcome
  · rw [same]
  · rw [same]
    exact kept after done

end Outcomes

section Frames

variable {table : Table}

theorem table_ensureService (store : Store) (name : String) (other : table ≠ .services) :
    (store.ensureService name).1.table table = store.table table := by
  unfold ensureService
  split
  · rfl
  · cases table <;> first | rfl | exact absurd rfl other

theorem table_ensureClient (store : Store) (name : String) (other : table ≠ .clients) :
    (store.ensureClient name).1.table table = store.table table := by
  unfold ensureClient
  split
  · rfl
  · cases table <;> first | rfl | exact absurd rfl other

theorem table_addServiceTags {store after : Store} {serviceId : Nat} {tags : List String}
    (added : store.addServiceTags serviceId tags = .ok after) (other : table ≠ .serviceTags) :
    after.table table = store.table table := by
  unfold addServiceTags at added
  split at added
  · cases added
  · cases added
    cases table <;> first | rfl | exact absurd rfl other

theorem table_writeOutbox {store after : Store} {events : List NewWebhookEvent}
    (written : store.writeOutbox events = .ok after)
    (other : table ≠ .outbox) (another : table ≠ .deliveries) :
    after.table table = store.table table := by
  induction events generalizing store with
  | nil =>
      cases written
      rfl
  | cons event rest ih =>
      rw [writeOutbox] at written
      split at written
      · cases written
      · split at written
        · cases written
        · rw [ih written]
          cases table <;> first | rfl | exact absurd rfl other | exact absurd rfl another

theorem table_writeVersionRow {store after : Store} {params : UpsertSpecVersion}
    (written : store.writeVersionRow params = .ok after) (other : table ≠ .specVersions) :
    after.table table = store.table table := by
  unfold writeVersionRow at written
  split at written
  · split at written
    · cases written
    · cases written
      cases table <;> first | rfl | exact absurd rfl other
  · split at written
    · cases written
      cases table <;> first | rfl | exact absurd rfl other
    · cases written

/-- A successful write is the row, the events and the identity of the row. -/
theorem upsertSpecVersion_cases {store after : Store} {params : UpsertSpecVersion} {id : Nat}
    (written : store.upsertSpecVersion params = .ok (after, id)) :
    ∃ middle row, store.writeVersionRow params = .ok middle ∧
      middle.specVersion? (UpsertSpecVersion.key params) = some row ∧
      (params.endpoints.map endpointKey).Nodup ∧
      middle.writeOutbox params.outbox = .ok after ∧ id = row.entry.id := by
  unfold upsertSpecVersion at written
  split at written
  · cases written
  · rename_i middle wrote
    split at written
    · cases written
    · rename_i row found
      split at written
      · rename_i distinct
        cases emitted : middle.writeOutbox params.outbox with
        | error error =>
            rw [emitted] at written
            cases written
        | ok last =>
            rw [emitted] at written
            cases written
            exact ⟨middle, row, wrote, found, distinct, emitted, rfl⟩
      · cases written

theorem table_upsertSpecVersion {store after : Store} {params : UpsertSpecVersion} {id : Nat}
    (written : store.upsertSpecVersion params = .ok (after, id)) (other : table ≠ .specVersions)
    (another : table ≠ .outbox) (third : table ≠ .deliveries) :
    after.table table = store.table table := by
  obtain ⟨middle, row, wrote, -, -, emitted, -⟩ := upsertSpecVersion_cases written
  rw [table_writeOutbox emitted another third, table_writeVersionRow wrote other]

theorem table_touchTrunk (store : Store) (specVersionId : Nat) (now : Instant)
    (other : table ≠ .specVersions) (another : table ≠ .trunkMembers) :
    (store.touchTrunk specVersionId now).table table = store.table table := by
  unfold touchTrunk
  split
  · cases table <;> first | rfl | exact absurd rfl other
  · cases table <;> first | rfl | exact absurd rfl other | exact absurd rfl another

theorem table_recordBranchMember {store after : Store} {branchId serviceId : Nat}
    {apiType : ApiType} {version : SemVer} {now : Instant}
    (recorded : store.recordBranchMember branchId serviceId apiType version now = .ok after)
    (other : table ≠ .branchMembers) : after.table table = store.table table := by
  unfold recordBranchMember at recorded
  dsimp only at recorded
  split at recorded
  · cases recorded
    cases table <;> first | rfl | exact absurd rfl other
  · split at recorded
    · cases recorded
    · split at recorded
      · cases recorded
        cases table <;> first | rfl | exact absurd rfl other
      · cases recorded

theorem table_recordDependenciesBulk {store after : Store} {now : Instant}
    {params : List RecordDependencyParams} {outbox : List NewWebhookEvent}
    (recorded : store.recordDependenciesBulk now params outbox = .ok after)
    (other : table ≠ .dependencies) (another : table ≠ .outbox) (third : table ≠ .deliveries) :
    after.table table = store.table table := by
  unfold recordDependenciesBulk at recorded
  split at recorded
  · cases recorded
  · rw [table_writeOutbox recorded another third]
    cases table <;> first | rfl | exact absurd rfl other

/-- Recording pins in trunk changes nothing but the pins of trunk. -/
theorem recordTrunkPins_cases {store after : Store} {pins : List RecordPinParams}
    (recorded : store.recordTrunkPins pins = .ok after) :
    ∃ rows, pins.foldlM store.recordPin store.trunkPins = .ok rows ∧
      after = { store with trunkPins := rows } :=
  ok_of_map recorded

/-- Recording pins in a branch changes nothing but the pins of that branch. -/
theorem recordBranchPins_cases {store after : Store} {branchId : Nat} {pins : List RecordPinParams}
    (recorded : store.recordBranchPins branchId pins = .ok after) :
    (pins = [] ∨ store.hasBranch branchId) ∧
      ∃ rows, pins.foldlM store.recordPin (store.branchPinsOf branchId) = .ok rows ∧
        after = store.setBranchPins branchId rows := by
  unfold recordBranchPins at recorded
  split at recorded
  · cases recorded
  · rename_i possible
    have there : pins = [] ∨ store.hasBranch branchId := by
      by_contra missing
      rw [not_or] at missing
      exact possible missing
    exact ⟨there, ok_of_map recorded⟩

/-- A new branch has a new identity, and its name is its own. -/
theorem insertBranch_cases {store after : Store} {name createdBy source : String}
    {createdAt asOf : Instant} {outbox : List NewWebhookEvent} {branchId : Nat}
    (inserted : store.insertBranch name createdAt createdBy source asOf outbox = .ok (after, branchId)) :
    name ∉ store.branches.map (·.name) ∧ branchId = store.nextBranchId ∧
      ({ store with
        branches := store.branches ++
          [⟨store.nextBranchId, name, createdAt, createdBy, source, asOf⟩]
        nextBranchId := store.nextBranchId + 1 } : Store).writeOutbox outbox = .ok after := by
  unfold insertBranch at inserted
  split at inserted
  · cases inserted
  · rename_i free
    obtain ⟨written, emitted, same⟩ := ok_of_map inserted
    obtain ⟨rfl, rfl⟩ := Prod.mk.inj same
    exact ⟨free, rfl, emitted⟩

/-- Copied pins are added to the branch, whose open keys stay distinct. -/
theorem copyPins_cases {store after : Store} {branchId : Nat} {rows : List PinRow} {now : Instant}
    (copied : store.copyPins branchId rows now = .ok after) :
    (((store.branchPinsOf branchId).filter (·.validTo = none) ++
        rows.map (copiedPin now)).map PinRow.key).Nodup ∧
      after = { store with
        branchPins := store.branchPins ++ (rows.map (copiedPin now)).map fun row => (branchId, row) } := by
  unfold copyPins at copied
  dsimp only at copied
  split at copied
  · rename_i distinct
    split at copied
    · cases copied
    · cases copied
      exact ⟨distinct, rfl⟩
  · cases copied

theorem copyPeriphery_cases {store after : Store} {branchId : Nat} {rows : List PeripheryRow}
    {now : Instant} (copied : store.copyPeriphery branchId rows now = .ok after) :
    after = { store with
      periphery := store.periphery ++ rows.map (copiedPeriphery branchId now) } := by
  unfold copyPeriphery at copied
  dsimp only at copied
  split at copied
  · split at copied
    · cases copied
    · cases copied
      rfl
  · cases copied

theorem renameBranch_cases {store after : Store} {branchId : Nat} {newName : String}
    (renamed : store.renameBranch branchId newName = .ok after) :
    after = { store with
      branches := store.branches.map fun branch =>
        if branch.id = branchId then { branch with name := newName } else branch } := by
  unfold renameBranch at renamed
  split at renamed
  · cases renamed
  · cases renamed
    rfl

theorem reconcilePeriphery_cases {store after : Store} {system : String} {trunk changed : Bool}
    {resources : List String} {now : Instant} {outbox : List NewWebhookEvent}
    (reconciled : store.reconcilePeriphery system trunk resources now outbox = .ok (after, changed)) :
    ({ store with
      periphery := (peripheryTracks trunk).foldl (reconcileTrack system resources now)
        store.periphery } : Store).writeOutbox outbox = .ok after := by
  obtain ⟨written, emitted, same⟩ := ok_of_map reconciled
  obtain ⟨rfl, -⟩ := Prod.mk.inj same
  exact emitted

theorem table_upsertContract {store after : Store} {contract : ChannelMessageContract}
    (written : store.upsertContract contract = .ok after) (other : table ≠ .contracts) :
    after.table table = store.table table := by
  unfold upsertContract at written
  split at written
  · cases written
  · split at written <;>
      · cases written
        cases table <;> first | rfl | exact absurd rfl other

theorem table_reconcileHarvested {store after : Store} {clientId : Nat} {clientName : String}
    {trunk : Bool} {subs : List HarvestedSubInput} {now : Instant}
    (written : store.reconcileHarvested clientId clientName trunk subs now = .ok after)
    (other : table ≠ .harvested) : after.table table = store.table table := by
  unfold reconcileHarvested at written
  dsimp only at written
  split at written
  · cases written
    cases table <;> first | rfl | exact absurd rfl other
  · cases written

/-- A table outside an operation's writes is left as it was. -/
theorem perform_frame (store : Store) (now : Instant) {request : RepoCall}
    (outside : table ∉ writes request) :
    ((store.perform now request).1).table table = store.table table := by
  cases request with
  | ensureService name =>
      exact table_ensureService store name (by simpa [writes] using outside)
  | addServiceTags serviceId tags =>
      exact table_triedUnit fun after added =>
        table_addServiceTags added (by simpa [writes] using outside)
  | upsertSpecVersion params =>
      simp only [writes, List.mem_cons, List.not_mem_nil, or_false, not_or] at outside
      obtain ⟨other, another, third⟩ := outside
      exact table_tried fun after id done => table_upsertSpecVersion done other another third
  | touchSpecVersionTrunk specVersionId now' =>
      simp only [writes, List.mem_cons, List.not_mem_nil, or_false, not_or] at outside
      exact table_touchTrunk store specVersionId now' outside.1 outside.2
  | recordBranchMemberVersion branchId serviceId apiType version now' =>
      exact table_triedUnit fun after recorded =>
        table_recordBranchMember recorded (by simpa [writes] using outside)
  | ensureClient name =>
      exact table_ensureClient store name (by simpa [writes] using outside)
  | recordDependenciesBulk params outbox =>
      simp only [writes, List.mem_cons, List.not_mem_nil, or_false, not_or] at outside
      exact table_triedUnit fun after recorded =>
        table_recordDependenciesBulk recorded outside.1 outside.2.1 outside.2.2
  | recordTrunkPins pins =>
      apply table_triedUnit
      intro after recorded
      obtain ⟨rows, -, rfl⟩ := recordTrunkPins_cases recorded
      cases table <;> first | rfl | exact absurd (by simp [writes]) outside
  | recordBranchPins branchId pins =>
      apply table_triedUnit
      intro after recorded
      obtain ⟨-, rows, -, rfl⟩ := recordBranchPins_cases recorded
      cases table <;> first | rfl | exact absurd (by simp [writes]) outside
  | insertBranch name createdAt createdBy source asOf outbox =>
      simp only [writes, List.mem_cons, List.not_mem_nil, or_false, not_or] at outside
      apply table_tried
      intro after branchId inserted
      obtain ⟨-, -, emitted⟩ := insertBranch_cases inserted
      rw [table_writeOutbox emitted outside.2.1 outside.2.2]
      cases table <;> first | rfl | exact absurd rfl outside.1
  | renameBranch branchId newName =>
      apply table_triedUnit
      intro after renamed
      rw [renameBranch_cases renamed]
      cases table <;> first | rfl | exact absurd (by simp [writes]) outside
  | copyTrunkPinsToBranch branchId asOf nowIso =>
      apply table_triedUnit
      intro after copied
      rw [(copyPins_cases copied).2]
      cases table <;> first | rfl | exact absurd (by simp [writes]) outside
  | copyBranchPinsToBranch targetId sourceId asOf nowIso =>
      apply table_triedUnit
      intro after copied
      rw [(copyPins_cases copied).2]
      cases table <;> first | rfl | exact absurd (by simp [writes]) outside
  | copyTrunkPeripheryToBranch branchId asOf nowIso =>
      apply table_triedUnit
      intro after copied
      rw [copyPeriphery_cases copied]
      cases table <;> first | rfl | exact absurd (by simp [writes]) outside
  | copyBranchPeripheryToBranch targetId sourceId asOf nowIso =>
      apply table_triedUnit
      intro after copied
      rw [copyPeriphery_cases copied]
      cases table <;> first | rfl | exact absurd (by simp [writes]) outside
  | reconcilePeriphery system trunk resources nowIso outbox =>
      simp only [writes, List.mem_cons, List.not_mem_nil, or_false, not_or] at outside
      apply table_tried
      intro after changed reconciled
      rw [table_writeOutbox (reconcilePeriphery_cases reconciled) outside.2.1 outside.2.2]
      cases table <;> first | rfl | exact absurd rfl outside.1
  | upsertSystemContext system context nowIso =>
      change (store.upsertSystemContext system context).1.table table = _
      unfold upsertSystemContext
      split
      · rfl
      · cases table <;> first | rfl | exact absurd (by simp [writes]) outside
  | deleteSpecVersion specVersionId =>
      change (store.deleteSpecVersion now specVersionId).1.table table = _
      unfold deleteSpecVersion
      split <;> cases table <;> first | rfl | exact absurd (by simp [writes]) outside
  | deleteConsumer name =>
      change (store.deleteConsumer now name).1.table table = _
      unfold deleteConsumer
      split
      · rfl
      · cases table <;> first | rfl | exact absurd (by simp [writes]) outside
  | closeExpiredTrunkData cutoff now' =>
      change (store.closeExpiredTrunkData cutoff now').1.table table = _
      cases table <;> first | rfl | exact absurd (by simp [writes]) outside
  | deleteAllServices =>
      change store.deleteAllServices.1.table table = _
      cases table <;> first | rfl | exact absurd (by simp [writes]) outside
  | deleteAllClients =>
      change store.deleteAllClients.1.table table = _
      cases table <;> first | rfl | exact absurd (by simp [writes]) outside
  | upsertChannelMessageContract contract =>
      exact table_triedUnit fun after written =>
        table_upsertContract written (by simpa [writes] using outside)
  | reconcileHarvestedSubscriptions clientId clientName trunk subs now' =>
      exact table_triedUnit fun after written =>
        table_reconcileHarvested written (by simpa [writes] using outside)
  | insertWebhookEvents events =>
      simp only [writes, List.mem_cons, List.not_mem_nil, or_false, not_or] at outside
      exact table_triedUnit fun after written => table_writeOutbox written outside.1 outside.2
  | deleteProducer name =>
      change (store.deleteProducer now name).1.table table = _
      unfold deleteProducer
      split
      · rfl
      · cases table <;> first | rfl | exact absurd (by simp [writes]) outside
  | deleteExpiredSnapshots cutoff =>
      change (store.deleteExpiredSnapshots cutoff).1.table table = _
      cases table <;> first | rfl | exact absurd (by simp [writes]) outside
  | closeTrunkPinsForServiceApi serviceId apiType now' =>
      change (store.closeTrunkPins serviceId apiType now').1.table table = _
      cases table <;> first | rfl | exact absurd (by simp [writes]) outside
  | _ => cases table <;> first | rfl | exact absurd (by simp [writes]) outside

end Frames
end Store
end Sanshain.Infrastructure
