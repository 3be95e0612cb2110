import Sanshain.Infrastructure.World

namespace Sanshain.Infrastructure

open Sanshain.Data Sanshain.Domain

namespace Store

variable {store after : Store}

section Services

/-- A Producer that is known is left as it is. -/
theorem ensureService_known {name : String} {service : ServiceRow}
    (known : store.serviceNamed? name = some service) :
    store.ensureService name = (store, service.id) := by
  rw [ensureService, known]

/-- Whatever was known before, the Producer is there afterwards under the answered identity. -/
theorem ensureService_mem (store : Store) (name : String) :
    ∃ row ∈ (store.ensureService name).1.services,
      row.name = name ∧ row.id = (store.ensureService name).2 := by
  unfold ensureService
  split
  · rename_i row found
    obtain ⟨among, named⟩ := mem_of_serviceNamed? found
    exact ⟨row, among, named, rfl⟩
  · exact ⟨_, List.mem_append_right _ List.mem_cons_self, rfl, rfl⟩

theorem ensureService_grows (store : Store) (name : String) {row : ServiceRow}
    (among : row ∈ store.services) : row ∈ (store.ensureService name).1.services := by
  unfold ensureService
  split
  · exact among
  · exact List.mem_append_left _ among

/-- Adding one tag leaves the store alone where the tag is there already. -/
theorem addServiceTags_known {serviceId : Nat} {tag : String}
    (known : (serviceId, tag) ∈ store.serviceTags) :
    (store.triedUnit (store.addServiceTags serviceId [tag])).1 = store := by
  unfold addServiceTags
  split
  · rfl
  · simp [triedUnit, tried, Except.map, known]

theorem addServiceTags_mem {serviceId : Nat} {tag : String}
    (added : store.addServiceTags serviceId [tag] = .ok after) :
    (serviceId, tag) ∈ after.serviceTags ∧ ∀ held ∈ store.serviceTags, held ∈ after.serviceTags := by
  unfold addServiceTags at added
  split at added
  · cases added
  · cases added
    simp only [List.foldl_cons, List.foldl_nil]
    split
    · rename_i known
      exact ⟨known, fun _ held => held⟩
    · exact ⟨List.mem_append_right _ List.mem_cons_self, fun _ held => List.mem_append_left _ held⟩

/-- The Producer of a name is one. -/
theorem Integrity.serviceNamed?_of_mem (sound : store.Integrity) {row : ServiceRow}
    (among : row ∈ store.services) : store.serviceNamed? row.name = some row := by
  cases found : store.serviceNamed? row.name with
  | none => simpa using List.find?_eq_none.mp found row among
  | some other =>
      obtain ⟨there, named⟩ := mem_of_serviceNamed? found
      exact congrArg some (List.inj_on_of_nodup_map sound.serviceNames there among named)

end Services

section Conflicts

theorem tried_error {Result : Type} {outcome : Except RepositoryError (Store × Result)}
    {error : RepositoryError} (failed : (store.tried outcome).2 = .error error) :
    outcome = .error error := by
  obtain ⟨reason, same, answer⟩ | ⟨after, result, -, answer⟩ := tried_cases store outcome
  · rw [answer] at failed
    cases failed
    exact same
  · rw [answer] at failed
    cases failed

theorem triedUnit_error {outcome : Except RepositoryError Store} {error : RepositoryError}
    (failed : (store.triedUnit outcome).2 = .error error) : outcome = .error error := by
  obtain ⟨reason, same, answer⟩ | ⟨after, -, answer⟩ := triedUnit_cases store outcome
  · rw [answer] at failed
    cases failed
    exact same
  · rw [answer] at failed
    cases failed

theorem error_of_map {Value Result : Type} {outcome : Except RepositoryError Value}
    {change : Value → Result} {error : RepositoryError} (failed : outcome.map change = .error error) :
    outcome = .error error := by
  cases outcome with
  | ok value => cases failed
  | error reason =>
      cases failed
      rfl

/-- Only a constraint fails the write of events. -/
theorem writeOutbox_internal {events : List NewWebhookEvent} {error : RepositoryError}
    (failed : store.writeOutbox events = .error error) : ∃ message, error = .internal message := by
  induction events generalizing store with
  | nil => cases failed
  | cons event rest ih =>
      rw [writeOutbox] at failed
      split at failed
      · cases failed
        exact ⟨_, rfl⟩
      · split at failed
        · cases failed
          exact ⟨_, rfl⟩
        · exact ih failed

/-- Only a missing participant fails the recording of pins. -/
theorem recordPins_internal {rows : List PinRow} {pins : List RecordPinParams}
    {error : RepositoryError} (failed : pins.foldlM store.recordPin rows = .error error) :
    ∃ message, error = .internal message := by
  induction pins generalizing rows with
  | nil => cases failed
  | cons pin rest ih =>
      rw [List.foldlM_cons] at failed
      unfold recordPin at failed
      split at failed
      · exact ih failed
      · split at failed
        · exact ih failed
        · cases failed
          exact ⟨_, rfl⟩

theorem recordDependenciesBulk_internal {now : Instant} {params : List RecordDependencyParams}
    {outbox : List NewWebhookEvent} {error : RepositoryError}
    (failed : store.recordDependenciesBulk now params outbox = .error error) :
    ∃ message, error = .internal message := by
  unfold recordDependenciesBulk at failed
  split at failed
  · cases failed
    exact ⟨_, rfl⟩
  · exact writeOutbox_internal failed

theorem recordBranchPins_internal {branchId : Nat} {pins : List RecordPinParams}
    {error : RepositoryError} (failed : store.recordBranchPins branchId pins = .error error) :
    ∃ message, error = .internal message := by
  unfold recordBranchPins at failed
  split at failed
  · cases failed
    exact ⟨_, rfl⟩
  · exact recordPins_internal (error_of_map failed)

theorem copyPins_conflict {branchId : Nat} {rows : List PinRow} {now : Instant} :
    store.copyPins branchId rows now ≠ .error .conflict := by
  unfold copyPins
  dsimp only
  split
  · split <;> exact fun same => by cases same
  · exact fun same => by cases same

theorem copyPeriphery_conflict {branchId : Nat} {rows : List PeripheryRow} {now : Instant} :
    store.copyPeriphery branchId rows now ≠ .error .conflict := by
  unfold copyPeriphery
  dsimp only
  split
  · split <;> exact fun same => by cases same
  · exact fun same => by cases same

theorem not_conflict {error : RepositoryError} (inner : ∃ message, error = .internal message) :
    error ≠ .conflict := by
  obtain ⟨message, rfl⟩ := inner
  exact fun same => by cases same

/-- Unless it names a branch, only the write of a line's entry meets a conflict. -/
theorem perform_conflict {now : Instant} {request : RepoCall} (plain : request.administers = false)
    (conflict : (store.perform now request).2 = .error .conflict) : request.writesVersion = true := by
  cases request with
  | upsertSpecVersion params => rfl
  | addServiceTags serviceId tags =>
      have failed := triedUnit_error conflict
      unfold addServiceTags at failed
      split at failed <;> cases failed
  | recordBranchMemberVersion branchId serviceId apiType version nowIso =>
      have failed := triedUnit_error conflict
      unfold recordBranchMember at failed
      dsimp only at failed
      split at failed
      · cases failed
      · split at failed
        · cases failed
        · split at failed <;> cases failed
  | recordDependenciesBulk params outbox =>
      exact absurd rfl (not_conflict (recordDependenciesBulk_internal (triedUnit_error conflict)))
  | recordBranchPins branchId pins =>
      exact absurd rfl (not_conflict (recordBranchPins_internal (triedUnit_error conflict)))
  | recordTrunkPins pins =>
      exact absurd rfl (not_conflict (recordPins_internal (error_of_map (triedUnit_error conflict))))
  | insertBranch name createdAt createdBy source asOf outbox => cases plain
  | renameBranch branchId newName => cases plain
  | copyTrunkPinsToBranch branchId asOf nowIso =>
      exact absurd (triedUnit_error conflict) copyPins_conflict
  | copyBranchPinsToBranch targetId sourceId asOf nowIso =>
      exact absurd (triedUnit_error conflict) copyPins_conflict
  | copyTrunkPeripheryToBranch branchId asOf nowIso =>
      exact absurd (triedUnit_error conflict) copyPeriphery_conflict
  | copyBranchPeripheryToBranch targetId sourceId asOf nowIso =>
      exact absurd (triedUnit_error conflict) copyPeriphery_conflict
  | reconcilePeriphery system trunk resources nowIso outbox =>
      exact absurd rfl (not_conflict (writeOutbox_internal (error_of_map (tried_error conflict))))
  | upsertChannelMessageContract contract =>
      have failed := triedUnit_error conflict
      unfold upsertContract at failed
      split at failed
      · cases failed
      · split at failed <;> cases failed
  | reconcileHarvestedSubscriptions clientId clientName trunk subs nowIso =>
      have failed := triedUnit_error conflict
      unfold reconcileHarvested at failed
      dsimp only at failed
      split at failed <;> cases failed
  | insertWebhookEvents events => exact absurd rfl (not_conflict (writeOutbox_internal (triedUnit_error conflict)))
  | _ => cases conflict

end Conflicts
end Store

namespace World

/-- A table that a call does not write is left as it was. -/
theorem handle_frame (environment : Environment) (world : World) {table : Table} {request : RepoCall}
    (outside : table ∉ writes request) :
    (handle environment world (.repo request)).1.store.table table = world.store.table table := by
  obtain ⟨reason, failed, -⟩ | performed := handle_repo environment world request
  · rw [failed]
  · rw [performed]
    exact Store.perform_frame world.store _ outside

theorem handle_services (environment : Environment) (world : World) {request : RepoCall}
    (outside : .services ∉ writes request) :
    (handle environment world (.repo request)).1.store.services = world.store.services :=
  (Prod.mk.inj (handle_frame environment world outside)).1

theorem handle_serviceTags (environment : Environment) (world : World) {request : RepoCall}
    (outside : .serviceTags ∉ writes request) :
    (handle environment world (.repo request)).1.store.serviceTags = world.store.serviceTags :=
  handle_frame environment world outside

/-- Unless it names a branch, only the write of a line's entry meets a conflict. -/
theorem handle_conflict {environment : Environment} {world : World} {request : RepoCall}
    (plain : request.administers = false)
    (conflict : (handle environment world (.repo request)).2 = .error .conflict) :
    request.writesVersion = true := by
  obtain ⟨reason, failed, -⟩ | performed := handle_repo environment world request
  · rw [failed] at conflict
    cases conflict
  · rw [performed] at conflict
    exact Store.perform_conflict plain conflict

theorem handle_upsert_failed {environment : Environment} {world : World}
    {params : UpsertSpecVersion} {error : RepositoryError}
    (refused : (handle environment world (.repo (.upsertSpecVersion params))).2 = .error error) :
    (handle environment world (.repo (.upsertSpecVersion params))).1.store = world.store := by
  obtain ⟨reason, failed, -⟩ | performed := handle_repo environment world (.upsertSpecVersion params)
  · rw [failed]
  · rw [performed] at refused ⊢
    change (world.store.tried (world.store.upsertSpecVersion params)).2 = _ at refused
    change (world.store.tried (world.store.upsertSpecVersion params)).1 = _
    obtain ⟨reason, -, same⟩ | ⟨after, id, -, same⟩ :=
      Store.tried_cases world.store (world.store.upsertSpecVersion params)
    · rw [same]
    · rw [same] at refused
      cases refused

end World
end Sanshain.Infrastructure
