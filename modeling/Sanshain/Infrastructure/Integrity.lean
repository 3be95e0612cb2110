import Sanshain.Infrastructure.Frame

namespace Sanshain.Infrastructure

open Sanshain.Data Sanshain.Domain

/-- The constraints the schema enforces on the tables the rules rely on. -/
structure Store.Integrity (store : Store) : Prop where
  serviceIds : (store.services.map (·.id)).Nodup
  serviceNames : (store.services.map (·.name)).Nodup
  serviceFresh : ∀ row ∈ store.services, 0 < row.id ∧ row.id < store.nextServiceId
  serviceNext : 0 < store.nextServiceId
  versionIds : (store.specVersions.map (·.entry.id)).Nodup
  versionKeys : (store.specVersions.map SpecVersionRow.key).Nodup
  versionFresh : ∀ row ∈ store.specVersions, row.entry.id < store.nextSpecVersionId
  versionService : ∀ row ∈ store.specVersions, (store.serviceName? row.entry.serviceId).isSome
  endpointKeys : ∀ row ∈ store.specVersions, (row.endpoints.map endpointKey).Nodup
  contractKeys : (store.contracts.map fun row => (row.channel, row.messageName)).Nodup
  contractOwner : ∀ row ∈ store.contracts, (store.serviceName? row.ownerServiceId).isSome

namespace Store

theorem Integrity.empty : ({} : Store).Integrity := by
  constructor <;> simp

/-- The constraints speak of three tables only. -/
theorem Integrity.of_tables {store after : Store} (sound : store.Integrity)
    (services : after.table .services = store.table .services)
    (specVersions : after.table .specVersions = store.table .specVersions)
    (contracts : after.table .contracts = store.table .contracts) : after.Integrity := by
  simp only [table, Prod.mk.injEq] at services specVersions contracts
  obtain ⟨services, nextService⟩ := services
  obtain ⟨versions, nextVersion⟩ := specVersions
  have names : ∀ id, after.serviceName? id = store.serviceName? id := by
    intro id
    simp only [serviceName?, services]
  exact
    { serviceIds := by rw [services]; exact sound.serviceIds
      serviceNames := by rw [services]; exact sound.serviceNames
      serviceFresh := by rw [services, nextService]; exact sound.serviceFresh
      serviceNext := by rw [nextService]; exact sound.serviceNext
      versionIds := by rw [versions]; exact sound.versionIds
      versionKeys := by rw [versions]; exact sound.versionKeys
      versionFresh := by rw [versions, nextVersion]; exact sound.versionFresh
      versionService := by simpa only [versions, names] using sound.versionService
      endpointKeys := by rw [versions]; exact sound.endpointKeys
      contractKeys := by rw [contracts]; exact sound.contractKeys
      contractOwner := by simpa only [contracts, names] using sound.contractOwner }

section Lookups

variable {store : Store}

theorem serviceName?_isSome_iff (store : Store) (serviceId : Nat) :
    (store.serviceName? serviceId).isSome ↔ ∃ row ∈ store.services, row.id = serviceId := by
  simp [serviceName?]

/-- A row is what its key finds. -/
theorem Integrity.specVersion?_of_mem (sound : store.Integrity) {row : SpecVersionRow}
    (among : row ∈ store.specVersions) : store.specVersion? row.key = some row := by
  have distinct := sound.versionKeys
  unfold specVersion?
  revert among distinct
  generalize store.specVersions = rows
  intro among distinct
  induction rows with
  | nil => cases among
  | cons first rest ih =>
      rw [List.map_cons, List.nodup_cons] at distinct
      rcases List.mem_cons.mp among with rfl | later
      · simp
      · have away : first.key ≠ row.key := fun same =>
          distinct.1 (same ▸ List.mem_map_of_mem later)
        rw [List.find?_cons_of_neg (by simpa using away)]
        exact ih later distinct.2

theorem mem_of_specVersion? {key : Nat × ApiType × SemVer} {row : SpecVersionRow}
    (found : store.specVersion? key = some row) : row ∈ store.specVersions ∧ row.key = key :=
  ⟨List.mem_of_find?_eq_some found, by simpa using List.find?_some found⟩

theorem mem_of_specVersionById? {id : Nat} {row : SpecVersionRow}
    (found : store.specVersionById? id = some row) : row ∈ store.specVersions ∧ row.entry.id = id :=
  ⟨List.mem_of_find?_eq_some found, by simpa using List.find?_some found⟩

/-- A row is what its identity finds. -/
theorem Integrity.specVersionById?_of_mem (sound : store.Integrity) {row : SpecVersionRow}
    (among : row ∈ store.specVersions) : store.specVersionById? row.entry.id = some row := by
  cases found : store.specVersionById? row.entry.id with
  | none =>
      have missing := List.find?_eq_none.mp found row among
      simp at missing
  | some other =>
      obtain ⟨there, same⟩ := mem_of_specVersionById? found
      rw [List.inj_on_of_nodup_map sound.versionIds there among same]

theorem mem_of_contract? {channel name : String} {row : ChannelMessageContract}
    (found : store.contract? channel name = some row) :
    row ∈ store.contracts ∧ row.channel = channel ∧ row.messageName = name :=
  ⟨List.mem_of_find?_eq_some found, by simpa using List.find?_some found⟩

theorem mem_of_serviceNamed? {name : String} {row : ServiceRow}
    (found : store.serviceNamed? name = some row) : row ∈ store.services ∧ row.name = name :=
  ⟨List.mem_of_find?_eq_some found, by simpa using List.find?_some found⟩

/-- A name is that of one Producer. -/
theorem Integrity.serviceId_unique (sound : store.Integrity) {first second : Nat} {name : String}
    (here : store.serviceName? first = some name) (there : store.serviceName? second = some name) :
    first = second := by
  rw [serviceName?, Option.map_eq_some_iff] at here there
  obtain ⟨one, found, named⟩ := here
  obtain ⟨other, found', named'⟩ := there
  have same := List.inj_on_of_nodup_map sound.serviceNames (List.mem_of_find?_eq_some found)
    (List.mem_of_find?_eq_some found') (named.trans named'.symm)
  have first' : one.id = first := by simpa using List.find?_some found
  have second' : other.id = second := by simpa using List.find?_some found'
  rw [← first', ← second', same]

/-- Two rows with one key are one row. -/
theorem Integrity.row_unique (sound : store.Integrity) {first second : SpecVersionRow}
    (one : first ∈ store.specVersions) (other : second ∈ store.specVersions)
    (same : first.key = second.key) : first = second := by
  have found := sound.specVersion?_of_mem one
  rw [same, sound.specVersion?_of_mem other] at found
  exact (Option.some.inj found).symm

theorem mem_listSpecVersions {serviceId : Nat} {entry : SpecVersionMeta} :
    entry ∈ store.listSpecVersions serviceId ↔
      ∃ row ∈ store.specVersions, row.entry.serviceId = serviceId ∧ row.entry = entry := by
  simp only [listSpecVersions, List.mem_insertionSort, List.mem_map, List.mem_filter,
    decide_eq_true_eq]
  constructor
  · rintro ⟨row, ⟨among, mine⟩, rfl⟩
    exact ⟨row, among, mine, rfl⟩
  · rintro ⟨row, among, mine, rfl⟩
    exact ⟨row, ⟨among, mine⟩, rfl⟩

end Lookups

section Preservation

variable {store after : Store}

/-- Rewriting rows without moving their identities or keys keeps the constraints. -/
theorem Integrity.map_versions (sound : store.Integrity) (change : SpecVersionRow → SpecVersionRow)
    (ids : ∀ row ∈ store.specVersions, (change row).entry.id = row.entry.id)
    (keys : ∀ row ∈ store.specVersions, (change row).key = row.key)
    (endpoints : ∀ row ∈ store.specVersions, ((change row).endpoints.map endpointKey).Nodup) :
    ({ store with specVersions := store.specVersions.map change } : Store).Integrity := by
  have sameIds : (store.specVersions.map change).map (·.entry.id) =
      store.specVersions.map (·.entry.id) := by
    rw [List.map_map]
    exact List.map_congr_left ids
  have sameKeys : (store.specVersions.map change).map SpecVersionRow.key =
      store.specVersions.map SpecVersionRow.key := by
    rw [List.map_map]
    exact List.map_congr_left keys
  exact
    { sound with
      versionIds := by
        change ((store.specVersions.map change).map _).Nodup
        rw [sameIds]
        exact sound.versionIds
      versionKeys := by
        change ((store.specVersions.map change).map _).Nodup
        rw [sameKeys]
        exact sound.versionKeys
      versionFresh := by
        intro row among
        obtain ⟨old, held, rfl⟩ := List.mem_map.mp among
        rw [ids old held]
        exact sound.versionFresh old held
      versionService := by
        intro row among
        obtain ⟨old, held, rfl⟩ := List.mem_map.mp among
        have sameService : (change old).entry.serviceId = old.entry.serviceId :=
          congrArg Prod.fst (keys old held)
        rw [sameService]
        exact sound.versionService old held
      endpointKeys := by
        intro row among
        obtain ⟨old, held, rfl⟩ := List.mem_map.mp among
        exact endpoints old held }

theorem Integrity.filter_versions (sound : store.Integrity) (keep : SpecVersionRow → Bool) :
    ({ store with specVersions := store.specVersions.filter keep } : Store).Integrity :=
  { sound with
    versionIds := sound.versionIds.sublist (List.filter_sublist.map _)
    versionKeys := sound.versionKeys.sublist (List.filter_sublist.map _)
    versionFresh := fun row among => sound.versionFresh row (List.mem_filter.mp among).1
    versionService := fun row among => sound.versionService row (List.mem_filter.mp among).1
    endpointKeys := fun row among => sound.endpointKeys row (List.mem_filter.mp among).1 }

theorem Integrity.touch (sound : store.Integrity) (specVersionId : Nat)
    (change : SpecVersionMeta → SpecVersionMeta)
    (ids : ∀ entry, (change entry).id = entry.id)
    (keys : ∀ entry, ((change entry).serviceId, (change entry).apiType, (change entry).version) =
      (entry.serviceId, entry.apiType, entry.version)) :
    (store.touch specVersionId change).Integrity := by
  refine sound.map_versions _ ?_ ?_ ?_
  · intro row _
    split
    · exact ids row.entry
    · rfl
  · intro row _
    split
    · exact keys row.entry
    · rfl
  · intro row among
    split <;> exact sound.endpointKeys row among

theorem Integrity.ensureService (sound : store.Integrity) (name : String) :
    (store.ensureService name).1.Integrity := by
  unfold Store.ensureService
  split
  · exact sound
  · rename_i unknown
    have fresh : ∀ row ∈ store.services, row.name ≠ name := by
      simpa [serviceNamed?] using unknown
    have kept : ∀ id, (store.serviceName? id).isSome →
        (({ store with
          services := store.services ++ [⟨store.nextServiceId, name⟩]
          nextServiceId := store.nextServiceId + 1 } : Store).serviceName? id).isSome := by
      intro id known
      rw [serviceName?_isSome_iff] at known ⊢
      obtain ⟨row, among, same⟩ := known
      exact ⟨row, List.mem_append_left _ among, same⟩
    exact
      { sound with
        serviceIds := by
          rw [List.map_append]
          refine sound.serviceIds.append (List.nodup_singleton _) ?_
          simp only [List.map_cons, List.map_nil, List.disjoint_singleton, List.mem_map, not_exists,
            not_and]
          intro row among same
          exact absurd (sound.serviceFresh row among).2 (by omega)
        serviceNames := by
          rw [List.map_append]
          refine sound.serviceNames.append (List.nodup_singleton _) ?_
          simpa using fresh
        serviceFresh := by
          intro row among
          rcases List.mem_append.mp among with old | new
          · obtain ⟨positive, below⟩ := sound.serviceFresh row old
            exact ⟨positive, by change row.id < store.nextServiceId + 1; omega⟩
          · cases List.mem_singleton.mp new
            exact ⟨sound.serviceNext, Nat.lt_succ_self _⟩
        serviceNext := Nat.succ_pos _
        versionService := fun row among => kept _ (sound.versionService row among)
        contractOwner := fun row among => kept _ (sound.contractOwner row among) }

theorem Integrity.writeVersionRow (sound : store.Integrity) {params : UpsertSpecVersion}
    (distinct : (params.endpoints.map endpointKey).Nodup)
    (written : store.writeVersionRow params = .ok after) : after.Integrity := by
  unfold Store.writeVersionRow at written
  split at written
  · rename_i fresh
    split at written
    · cases written
    · rename_i known
      cases written
      have absent : ∀ row ∈ store.specVersions, row.key ≠ UpsertSpecVersion.key params := by
        simpa [specVersion?] using fresh.2
      exact
        { sound with
          versionIds := by
            rw [List.map_append]
            refine sound.versionIds.append (List.nodup_singleton _) ?_
            simp only [List.map_cons, List.map_nil, List.disjoint_singleton, List.mem_map,
              not_exists, not_and]
            intro row among same
            have below := sound.versionFresh row among
            simp only [newRow] at same
            omega
          versionKeys := by
            rw [List.map_append]
            refine sound.versionKeys.append (List.nodup_singleton _) ?_
            simp only [List.map_cons, List.map_nil, List.disjoint_singleton, List.mem_map,
              not_exists, not_and]
            exact absent
          versionFresh := by
            intro row among
            rcases List.mem_append.mp among with old | new
            · exact Nat.lt_succ_of_lt (sound.versionFresh row old)
            · cases List.mem_singleton.mp new
              exact Nat.lt_succ_self _
          versionService := by
            intro row among
            rcases List.mem_append.mp among with old | new
            · exact sound.versionService row old
            · cases List.mem_singleton.mp new
              exact Option.isSome_iff_ne_none.mpr known
          endpointKeys := by
            intro row among
            rcases List.mem_append.mp among with old | new
            · exact sound.endpointKeys row old
            · cases List.mem_singleton.mp new
              exact distinct }
  · split at written
    · cases written
      refine sound.map_versions _ ?_ ?_ ?_
      · intro row _
        split <;> rfl
      · intro row _
        split <;> rfl
      · intro row among
        split
        · exact distinct
        · exact sound.endpointKeys row among
    · cases written

theorem Integrity.upsertSpecVersion (sound : store.Integrity) {params : UpsertSpecVersion} {id : Nat}
    (written : store.upsertSpecVersion params = .ok (after, id)) : after.Integrity := by
  obtain ⟨middle, row, wrote, -, distinct, emitted, -⟩ := upsertSpecVersion_cases written
  exact (sound.writeVersionRow distinct wrote).of_tables
    (table_writeOutbox emitted (by decide) (by decide))
    (table_writeOutbox emitted (by decide) (by decide))
    (table_writeOutbox emitted (by decide) (by decide))

theorem Integrity.upsertContract (sound : store.Integrity) {contract : ChannelMessageContract}
    (written : store.upsertContract contract = .ok after) : after.Integrity := by
  unfold Store.upsertContract at written
  split at written
  · cases written
  · rename_i known
    have owned : (store.serviceName? contract.ownerServiceId).isSome :=
      Option.isSome_iff_ne_none.mpr known
    split at written
    · cases written
      exact
        { sound with
          contractKeys := by
            have same : (store.contracts.map fun row =>
                if row.channel = contract.channel ∧ row.messageName = contract.messageName then
                  contract else row).map (fun row => (row.channel, row.messageName)) =
                store.contracts.map fun row => (row.channel, row.messageName) := by
              rw [List.map_map]
              refine List.map_congr_left fun row _ => ?_
              by_cases here : row.channel = contract.channel ∧ row.messageName = contract.messageName
              · simp [here]
              · simp [here]
            exact same ▸ sound.contractKeys
          contractOwner := by
            intro row among
            obtain ⟨old, held, rfl⟩ := List.mem_map.mp among
            split
            · exact owned
            · exact sound.contractOwner old held }
    · rename_i fresh
      cases written
      have absent : ∀ row ∈ store.contracts,
          ¬ (row.channel = contract.channel ∧ row.messageName = contract.messageName) := by
        simpa [contract?] using fresh
      exact
        { sound with
          contractKeys := by
            rw [List.map_append]
            refine sound.contractKeys.append (List.nodup_singleton _) ?_
            simp only [List.map_cons, List.map_nil, List.disjoint_singleton, List.mem_map,
              not_exists, not_and]
            intro row among same
            exact absent row among (Prod.mk.inj same)
          contractOwner := by
            intro row among
            rcases List.mem_append.mp among with old | new
            · exact sound.contractOwner row old
            · cases List.mem_singleton.mp new
              exact owned }

theorem Integrity.deleteContract (sound : store.Integrity) (channel messageName : String) :
    (store.deleteContract channel messageName).Integrity :=
  { sound with
    contractKeys := sound.contractKeys.sublist (List.filter_sublist.map _)
    contractOwner := fun row among => sound.contractOwner row (List.mem_filter.mp among).1 }

theorem Integrity.deleteProducer (sound : store.Integrity) (now : Instant) (name : String) :
    (store.deleteProducer now name).1.Integrity := by
  unfold Store.deleteProducer
  split
  · exact sound
  · rename_i service found
    have kept : ∀ id, id ≠ service.id → (store.serviceName? id).isSome →
        ∃ row ∈ store.services.filter (·.id ≠ service.id), row.id = id := by
      intro id other known
      obtain ⟨row, among, same⟩ := (serviceName?_isSome_iff store id).mp known
      exact ⟨row, List.mem_filter.mpr ⟨among, by simpa [same] using other⟩, same⟩
    exact
      { serviceIds := sound.serviceIds.sublist (List.filter_sublist.map _)
        serviceNames := sound.serviceNames.sublist (List.filter_sublist.map _)
        serviceFresh := fun row among => sound.serviceFresh row (List.mem_filter.mp among).1
        serviceNext := sound.serviceNext
        versionIds := sound.versionIds.sublist (List.filter_sublist.map _)
        versionKeys := sound.versionKeys.sublist (List.filter_sublist.map _)
        versionFresh := fun row among => sound.versionFresh row (List.mem_filter.mp among).1
        versionService := by
          intro row among
          obtain ⟨held, other⟩ := List.mem_filter.mp among
          rw [serviceName?_isSome_iff]
          exact kept _ (by simpa using other) (sound.versionService row held)
        endpointKeys := fun row among => sound.endpointKeys row (List.mem_filter.mp among).1
        contractKeys := sound.contractKeys.sublist (List.filter_sublist.map _)
        contractOwner := by
          intro row among
          obtain ⟨held, other⟩ := List.mem_filter.mp among
          rw [serviceName?_isSome_iff]
          exact kept _ (by simpa using other) (sound.contractOwner row held) }

/-- Without services there is nothing that the constraints could be broken by. -/
theorem Integrity.emptied (sound : store.Integrity) (services : after.services = [])
    (versions : after.specVersions = []) (contracts : after.contracts = [])
    (nextService : after.nextServiceId = store.nextServiceId) : after.Integrity := by
  have positive : 0 < after.nextServiceId := nextService ▸ sound.serviceNext
  constructor <;> simp [services, versions, contracts, positive]

theorem Integrity.triedUnit (sound : store.Integrity) {outcome : Except RepositoryError Store}
    (kept : ∀ after, outcome = .ok after → after.Integrity) :
    (store.triedUnit outcome).1.Integrity := by
  obtain ⟨error, -, same⟩ | ⟨after, done, same⟩ := triedUnit_cases store outcome
  · rw [same]
    exact sound
  · rw [same]
    exact kept after done

/-- Every call of the store keeps its constraints. -/
theorem Integrity.perform (sound : store.Integrity) (now : Instant) (request : RepoCall) :
    (store.perform now request).1.Integrity := by
  cases request with
  | ensureService name => exact sound.ensureService name
  | upsertSpecVersion params =>
      change (store.tried (store.upsertSpecVersion params)).1.Integrity
      obtain ⟨error, -, same⟩ | ⟨after, id, done, same⟩ :=
        tried_cases store (store.upsertSpecVersion params)
      · rw [same]
        exact sound
      · rw [same]
        exact sound.upsertSpecVersion done
  | touchSpecVersionProvided specVersionId now' =>
      change (store.touch specVersionId fun entry => { entry with updatedAt := now' }).Integrity
      exact sound.touch specVersionId _ (fun _ => rfl) fun _ => rfl
  | touchSpecVersionRequired specVersionId now' =>
      change (store.touch specVersionId
        fun entry => { entry with lastRequiredAt := some now' }).Integrity
      exact sound.touch specVersionId _ (fun _ => rfl) fun _ => rfl
  | touchSpecVersionTrunk specVersionId now' =>
      have marked : (store.touch specVersionId
          fun entry => { entry with trunkProvidedAt := some now' }).Integrity :=
        sound.touch specVersionId _ (fun _ => rfl) fun _ => rfl
      change (store.touchTrunk specVersionId now').Integrity
      unfold touchTrunk
      split
      · exact marked
      · exact marked.of_tables rfl rfl rfl
  | deleteExpiredSnapshots cutoff =>
      exact (sound.filter_versions _).of_tables rfl rfl rfl
  | upsertChannelMessageContract contract =>
      exact sound.triedUnit fun after written => sound.upsertContract written
  | deleteChannelMessageContract channel messageName => exact sound.deleteContract channel messageName
  | deleteProducer name => exact sound.deleteProducer now name
  | deleteSpecVersion specVersionId =>
      change (store.deleteSpecVersion now specVersionId).1.Integrity
      unfold deleteSpecVersion
      split
      · exact sound.of_tables rfl rfl rfl
      · exact (sound.filter_versions _).of_tables rfl rfl rfl
  | closeExpiredTrunkData cutoff now' =>
      have cleared : ({ store with
          specVersions := store.specVersions.map (clearMarker cutoff) } : Store).Integrity := by
        apply sound.map_versions
        · intro row _
          unfold clearMarker
          split <;> rfl
        · intro row _
          unfold clearMarker
          split <;> rfl
        · intro row among
          unfold clearMarker
          split <;> exact sound.endpointKeys row among
      exact cleared.of_tables rfl rfl rfl
  | deleteAllServices => exact sound.emptied rfl rfl rfl rfl
  | nukeDatabase => exact sound.emptied rfl rfl rfl rfl
  | _ =>
      exact sound.of_tables (perform_frame store now (by simp [writes]))
        (perform_frame store now (by simp [writes])) (perform_frame store now (by simp [writes]))

end Preservation
end Store

end Sanshain.Infrastructure
