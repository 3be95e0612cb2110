import Sanshain.Infrastructure.Outbox

namespace Sanshain.Infrastructure

open Sanshain.Data Sanshain.Domain Sanshain.Effects

/-- What the schema and the fan-out keep of the outbox: an event is there once, a delivery belongs to
an event, and there is one of it for each hook. -/
structure OutboxSound (store : Store) : Prop where
  hooks : (store.webhooks.map (·.id)).Nodup
  events : (store.outbox.map (·.id)).Nodup
  known : ∀ row ∈ store.deliveries, row.eventId ∈ store.outbox.map (·.id)
  once : (store.deliveries.map fun row => (row.hookId, row.eventId)).Nodup

/-- The event is in the outbox once, and its deliveries are one for each decided hook, due at once. -/
structure Emitted (event : NewWebhookEvent) (store : Store) : Prop where
  row : store.outbox.filter (·.id = event.id) = [event]
  deliveries : store.deliveries.filter (·.eventId = event.id) =
    event.hookIds.map fun hook => ⟨hook, event.id, event.occurredAt⟩
  once : event.hookIds.Nodup

theorem OutboxSound.of_tables {store after : Store} (sound : OutboxSound store)
    (hooks : after.webhooks = store.webhooks) (events : after.outbox = store.outbox)
    (deliveries : after.deliveries = store.deliveries) : OutboxSound after := by
  constructor
  · rw [hooks]
    exact sound.hooks
  · rw [events]
    exact sound.events
  · rw [deliveries, events]
    exact sound.known
  · rw [deliveries]
    exact sound.once

theorem Emitted.of_tables {event : NewWebhookEvent} {store after : Store}
    (emitted : Emitted event store) (events : after.outbox = store.outbox)
    (deliveries : after.deliveries = store.deliveries) : Emitted event after := by
  refine ⟨?_, ?_, emitted.once⟩
  · rw [events]
    exact emitted.row
  · rw [deliveries]
    exact emitted.deliveries

theorem Emitted.mem {event : NewWebhookEvent} {store : Store} (emitted : Emitted event store) :
    event.id ∈ store.outbox.map (·.id) := by
  have there : event ∈ store.outbox.filter (·.id = event.id) :=
    emitted.row.symm ▸ List.mem_singleton_self event
  exact List.mem_map_of_mem (List.mem_filter.mp there).1

section Write

variable {store after : Store} {event : NewWebhookEvent}

/-- The store with one event and its deliveries. -/
def Store.withEvent (store : Store) (event : NewWebhookEvent) : Store :=
  { store with
    outbox := store.outbox ++ [event]
    deliveries := store.deliveries ++ event.hookIds.map fun hook =>
      ⟨hook, event.id, event.occurredAt⟩ }

theorem writeOutbox_cons {rest : List NewWebhookEvent}
    (written : store.writeOutbox (event :: rest) = .ok after) :
    event.id ∉ store.outbox.map (·.id) ∧ (store.withEvent event).writeOutbox rest = .ok after := by
  rw [Store.writeOutbox] at written
  split at written
  · cases written
  · rename_i unused
    split at written
    · cases written
    · exact ⟨unused, written⟩

/-- A new event has no delivery yet. -/
theorem OutboxSound.undelivered (sound : OutboxSound store)
    (unused : event.id ∉ store.outbox.map (·.id)) :
    ∀ row ∈ store.deliveries, row.eventId ≠ event.id :=
  fun row there same => unused (same ▸ sound.known row there)

theorem OutboxSound.withEvent (sound : OutboxSound store)
    (unused : event.id ∉ store.outbox.map (·.id)) (distinct : event.hookIds.Nodup) :
    OutboxSound (store.withEvent event) where
  hooks := sound.hooks
  events := by
    unfold Store.withEvent
    rw [List.map_append]
    refine List.nodup_append.mpr ⟨sound.events, List.nodup_singleton _, ?_⟩
    rintro id there _ last rfl
    have same : id = event.id := List.mem_singleton.mp last
    exact unused (same ▸ there)
  known row there := by
    unfold Store.withEvent at there ⊢
    rw [List.map_append]
    obtain old | new := List.mem_append.mp there
    · exact List.mem_append_left _ (sound.known row old)
    · obtain ⟨hook, -, rfl⟩ := List.mem_map.mp new
      exact List.mem_append_right _ (List.mem_singleton_self _)
  once := by
    unfold Store.withEvent
    rw [List.map_append, List.map_map]
    refine List.nodup_append.mpr ⟨sound.once, ?_, ?_⟩
    · refine distinct.map_on fun hook _ other _ same => ?_
      exact (Prod.mk.inj same).1
    · rintro pair there _ new rfl
      obtain ⟨row, held, same⟩ := List.mem_map.mp there
      obtain ⟨hook, -, again⟩ := List.mem_map.mp new
      have both : (row.hookId, row.eventId) = (hook, event.id) := same.trans again.symm
      exact sound.undelivered unused row held (Prod.mk.inj both).2

theorem emitted_withEvent (sound : OutboxSound store) (unused : event.id ∉ store.outbox.map (·.id))
    (distinct : event.hookIds.Nodup) : Emitted event (store.withEvent event) := by
  constructor
  · unfold Store.withEvent
    have none : store.outbox.filter (fun other => decide (other.id = event.id)) = [] := by
      refine List.filter_eq_nil_iff.mpr fun other there same => unused ?_
      exact List.mem_map.mpr ⟨other, there, of_decide_eq_true same⟩
    rw [List.filter_append, none]
    simp
  · unfold Store.withEvent
    have none : store.deliveries.filter (fun row => decide (row.eventId = event.id)) = [] :=
      List.filter_eq_nil_iff.mpr fun row there same =>
        sound.undelivered unused row there (of_decide_eq_true same)
    rw [List.filter_append, none, List.nil_append]
    refine List.filter_eq_self.mpr fun row there => ?_
    obtain ⟨hook, -, rfl⟩ := List.mem_map.mp there
    simp
  · exact distinct

/-- Another event leaves an emitted one as it is. -/
theorem Emitted.withEvent {other : NewWebhookEvent} (emitted : Emitted event store)
    (unused : other.id ∉ store.outbox.map (·.id)) : Emitted event (store.withEvent other) := by
  have different : other.id ≠ event.id := fun same => unused (same ▸ emitted.mem)
  constructor
  · unfold Store.withEvent
    rw [List.filter_append, emitted.row]
    simp [different]
  · unfold Store.withEvent
    rw [List.filter_append, emitted.deliveries]
    refine (congrArg (_ ++ ·) (List.filter_eq_nil_iff.mpr fun row there => ?_)).trans
      (List.append_nil _)
    obtain ⟨hook, -, rfl⟩ := List.mem_map.mp there
    simp [different]
  · exact emitted.once

theorem Emitted.writeOutbox {events : List NewWebhookEvent} (emitted : Emitted event store)
    (written : store.writeOutbox events = .ok after) : Emitted event after := by
  induction events generalizing store with
  | nil =>
      cases written
      exact emitted
  | cons other rest ih =>
      obtain ⟨unused, rest'⟩ := writeOutbox_cons written
      exact ih (emitted.withEvent unused) rest'

/-- A write of the outbox that succeeds has emitted each of its events, all of them new. -/
theorem OutboxSound.writeOutbox {events : List NewWebhookEvent} (sound : OutboxSound store)
    (distinct : ∀ event ∈ events, event.hookIds.Nodup)
    (written : store.writeOutbox events = .ok after) :
    OutboxSound after ∧
      ∀ event ∈ events, event.id ∉ store.outbox.map (·.id) ∧ Emitted event after := by
  induction events generalizing store with
  | nil =>
      cases written
      exact ⟨sound, fun _ there => absurd there List.not_mem_nil⟩
  | cons first rest ih =>
      obtain ⟨unused, later⟩ := writeOutbox_cons written
      have single := distinct first List.mem_cons_self
      obtain ⟨kept, emitted⟩ := ih (sound.withEvent unused single)
        (fun event there => distinct event (List.mem_cons_of_mem _ there)) later
      refine ⟨kept, fun event there => ?_⟩
      obtain rfl | among := List.mem_cons.mp there
      · exact ⟨unused, (emitted_withEvent sound unused single).writeOutbox later⟩
      · obtain ⟨new, done⟩ := emitted event among
        refine ⟨fun before => new ?_, done⟩
        unfold Store.withEvent
        rw [List.map_append]
        exact List.mem_append_left _ before

end Write

/-- The fact of a write is in the store. -/
def FactWrite.Recorded (now : Instant) (store : Store) : FactWrite → Prop
  | .upsertSpecVersion params =>
      ∃ row ∈ store.specVersions, row.key = UpsertSpecVersion.key params ∧
        row.content = params.content ∧ row.endpoints = params.endpoints ∧
        row.entry.stability = params.stability ∧ row.entry.contentHash = params.contentHash ∧
        row.entry.providedBy = params.providedBy ∧ row.entry.updatedAt = params.nowIso
  | .recordDependenciesBulk params _ =>
      ∀ param ∈ params, ∃ row ∈ store.dependencies, row.params.clientId = param.clientId ∧
        row.params.specVersionId = param.specVersionId ∧ row.params.apiType = param.apiType ∧
        row.params.path = param.path ∧ row.params.method = param.method ∧ row.lastSeenAt = now
  | .reconcilePeriphery system trunk resources _ _ =>
      ∀ track ∈ Store.peripheryTracks trunk, ∀ resource,
        resource ∈ Store.openResources track system store.periphery ↔ resource ∈ resources
  | .insertBranch name createdAt createdBy source asOf _ =>
      ∃ branch ∈ store.branches, branch.name = name ∧ branch.createdAt = createdAt ∧
        branch.createdBy = createdBy ∧ branch.source = source ∧ branch.asOf = asOf

section Facts

variable {store after : Store} {now : Instant}

theorem recorded_upsert {params : UpsertSpecVersion} (written : store.writeVersionRow params = .ok after) :
    (FactWrite.upsertSpecVersion params).Recorded now after := by
  unfold FactWrite.Recorded
  obtain ⟨-, -, appended⟩ | ⟨⟨row, held, reached⟩, rewritten⟩ := Store.writeVersionRow_cases written
  · rw [appended]
    exact ⟨store.newRow params, List.mem_append_right _ (List.mem_singleton_self _), rfl, rfl, rfl,
      rfl, rfl, rfl, rfl⟩
  · rw [rewritten]
    refine ⟨Store.overwrite params row, List.mem_map.mpr ⟨row, held, if_pos reached⟩, ?_, rfl, rfl,
      rfl, rfl, rfl, rfl⟩
    unfold Store.updatable at reached
    simp only [Bool.and_eq_true, decide_eq_true_eq] at reached
    exact reached.1.1

/-- A row of a dependency that was seen now. -/
def SeenNow (now : Instant) (param : RecordDependencyParams) (rows : List DependencyRow) : Prop :=
  ∃ row ∈ rows, row.params.clientId = param.clientId ∧
    row.params.specVersionId = param.specVersionId ∧ row.params.apiType = param.apiType ∧
    row.params.path = param.path ∧ row.params.method = param.method ∧ row.lastSeenAt = now

theorem seenNow_recordDependency (rows : List DependencyRow) (param : RecordDependencyParams) :
    SeenNow now param (Store.recordDependency now rows param) := by
  unfold Store.recordDependency SeenNow
  dsimp only
  split
  · rename_i found
    obtain ⟨row, there, same⟩ := List.any_eq_true.mp found
    have same := of_decide_eq_true same
    refine ⟨_, List.mem_map.mpr ⟨row, there, if_pos same⟩, ?_⟩
    obtain ⟨client, version, apiType, path, method⟩ := same
    exact ⟨client, version, apiType, path, method, rfl⟩
  · exact ⟨_, List.mem_append_right _ (List.mem_singleton_self _), rfl, rfl, rfl, rfl, rfl, rfl⟩

theorem SeenNow.recordDependency {rows : List DependencyRow} {param : RecordDependencyParams}
    (seen : SeenNow now param rows) (other : RecordDependencyParams) :
    SeenNow now param (Store.recordDependency now rows other) := by
  obtain ⟨row, there, client, version, apiType, path, method, last⟩ := seen
  unfold Store.recordDependency SeenNow
  dsimp only
  split
  · refine ⟨_, List.mem_map_of_mem there, ?_⟩
    split
    · exact ⟨client, version, apiType, path, method, rfl⟩
    · exact ⟨client, version, apiType, path, method, last⟩
  · exact ⟨row, List.mem_append_left _ there, client, version, apiType, path, method, last⟩

theorem seenNow_all (params : List RecordDependencyParams) (rows : List DependencyRow) :
    ∀ param ∈ params, SeenNow now param (params.foldl (Store.recordDependency now) rows) := by
  have kept : ∀ (rest : List RecordDependencyParams) (rows : List DependencyRow)
      (param : RecordDependencyParams), SeenNow now param rows →
        SeenNow now param (rest.foldl (Store.recordDependency now) rows) := by
    intro rest
    induction rest with
    | nil => exact fun _ _ seen => seen
    | cons first rest ih => exact fun rows param seen => ih _ param (seen.recordDependency first)
  induction params generalizing rows with
  | nil => exact fun _ there => absurd there List.not_mem_nil
  | cons first rest ih =>
      intro param there
      obtain rfl | later := List.mem_cons.mp there
      · exact kept rest _ param (seenNow_recordDependency rows param)
      · exact ih _ param later

theorem mem_openResources {track : PeripheryTrack} {system resource : String}
    {rows : List PeripheryRow} :
    resource ∈ Store.openResources track system rows ↔
      ∃ row ∈ rows, row.track = track ∧ row.system = system ∧ row.validTo = none ∧
        row.resource = resource := by
  unfold Store.openResources
  simp only [List.mem_map, List.mem_filter, decide_eq_true_eq]
  constructor
  · rintro ⟨row, ⟨there, track, system, opens⟩, same⟩
    exact ⟨row, there, track, system, opens, same⟩
  · rintro ⟨row, there, track, system, opens, same⟩
    exact ⟨row, ⟨there, track, system, opens⟩, same⟩

/-- After its reconciliation a track has the declared resources open. -/
theorem openResources_reconcileTrack (system : String) (resources : List String)
    (rows : List PeripheryRow) (track : PeripheryTrack) (resource : String) :
    resource ∈ Store.openResources track system
        (Store.reconcileTrack system resources now rows track) ↔ resource ∈ resources := by
  rw [mem_openResources]
  unfold Store.reconcileTrack
  dsimp only
  constructor
  · rintro ⟨row, there, sameTrack, sameSystem, opens, rfl⟩
    obtain old | new := List.mem_append.mp there
    · obtain ⟨before, held, rfl⟩ := List.mem_map.mp old
      by_cases leaves : before.track = track ∧ before.system = system ∧ before.validTo = none ∧
          before.resource ∉ resources
      · rw [if_pos leaves] at opens
        cases opens
      · rw [if_neg leaves] at sameTrack sameSystem opens ⊢
        by_contra undeclared
        exact leaves ⟨sameTrack, sameSystem, opens, undeclared⟩
    · obtain ⟨declared, among, rfl⟩ := List.mem_map.mp new
      exact (List.mem_filter.mp (List.mem_dedup.mp among)).1
  · intro declared
    by_cases held : resource ∈ Store.openResources track system rows
    · obtain ⟨row, there, sameTrack, sameSystem, opens, rfl⟩ := mem_openResources.mp held
      refine ⟨row, List.mem_append_left _ (List.mem_map.mpr ⟨row, there, if_neg ?_⟩), sameTrack,
        sameSystem, opens, rfl⟩
      exact fun leaves => leaves.2.2.2 declared
    · refine ⟨⟨track, system, resource, now, none⟩, List.mem_append_right _ ?_, rfl, rfl, rfl, rfl⟩
      refine List.mem_map.mpr ⟨resource, List.mem_dedup.mpr (List.mem_filter.mpr ⟨declared, ?_⟩), rfl⟩
      simpa using held

/-- A track's resources are not those of another. -/
theorem openResources_reconcile_other {track other : PeripheryTrack} (different : other ≠ track)
    (system : String) (resources : List String) (rows : List PeripheryRow) (resource : String) :
    resource ∈ Store.openResources track system
        (Store.reconcileTrack system resources now rows other) ↔
      resource ∈ Store.openResources track system rows := by
  rw [mem_openResources, mem_openResources]
  unfold Store.reconcileTrack
  dsimp only
  constructor
  · rintro ⟨row, there, sameTrack, sameSystem, opens, rfl⟩
    obtain old | new := List.mem_append.mp there
    · obtain ⟨before, held, rfl⟩ := List.mem_map.mp old
      by_cases leaves : before.track = other ∧ before.system = system ∧ before.validTo = none ∧
          before.resource ∉ resources
      · rw [if_pos leaves] at opens
        cases opens
      · rw [if_neg leaves] at sameTrack sameSystem opens ⊢
        exact ⟨before, held, sameTrack, sameSystem, opens, rfl⟩
    · obtain ⟨declared, -, rfl⟩ := List.mem_map.mp new
      exact absurd sameTrack different
  · rintro ⟨row, there, sameTrack, sameSystem, opens, rfl⟩
    refine ⟨row, List.mem_append_left _ (List.mem_map.mpr ⟨row, there, if_neg ?_⟩), sameTrack,
      sameSystem, opens, rfl⟩
    exact fun leaves => different (leaves.1.symm.trans sameTrack)

theorem recorded_periphery (system : String) (trunk : Bool) (resources : List String)
    (rows : List PeripheryRow) :
    ∀ track ∈ Store.peripheryTracks trunk, ∀ resource,
      resource ∈ Store.openResources track system
          ((Store.peripheryTracks trunk).foldl (Store.reconcileTrack system resources now) rows) ↔
        resource ∈ resources := by
  intro track there resource
  cases trunk with
  | false =>
      obtain rfl := List.mem_singleton.mp there
      exact openResources_reconcileTrack system resources rows _ resource
  | true =>
      obtain rfl | last := List.mem_cons.mp there
      · refine (openResources_reconcile_other (by simp) system resources _ resource).trans ?_
        exact openResources_reconcileTrack system resources rows _ resource
      · obtain rfl := List.mem_singleton.mp last
        exact openResources_reconcileTrack system resources _ _ resource

/-- The statements of a fact record it, and leave the outbox and the hooks alone. -/
theorem FactWrite.recorded_factStatements (write : FactWrite)
    (done : inSequence (write.factStatements now) store = .ok after) :
    write.Recorded now after ∧ ∀ table, table = .webhooks ∨ table = .outbox ∨ table = .deliveries →
      after.table table = store.table table := by
  cases write with
  | upsertSpecVersion params =>
      cases wrote : store.writeVersionRow params with
      | error error =>
          simp only [factStatements, inSequence, upsertVersionStatement, wrote] at done
          cases done
      | ok middle =>
          simp only [factStatements, inSequence, upsertVersionStatement, wrote,
            selectVersionStatement, insertEndpointsStatement] at done
          split at done
          · rename_i selected found
            split at found
            · cases found
              split at done
              · rename_i inserted distinct
                split at distinct
                · cases distinct
                  cases done
                  refine ⟨recorded_upsert wrote, fun table those => ?_⟩
                  apply Store.table_writeVersionRow wrote
                  rintro rfl
                  simp at those
                · cases distinct
              · cases done
            · cases found
          · cases done
  | recordDependenciesBulk params outbox =>
      have same : after = { store with
          dependencies := params.foldl (Store.recordDependency now) store.dependencies } := by
        cases params with
        | nil =>
            cases done
            rfl
        | cons first rest =>
            simp only [factStatements, List.isEmpty_cons, Bool.false_eq_true, if_false, inSequence,
              insertDependenciesStatement] at done
            split at done
            · rename_i written recorded
              split at recorded
              · cases recorded
              · cases recorded
                cases done
                rfl
            · cases done
      rw [same]
      refine ⟨seenNow_all params store.dependencies, fun table those => ?_⟩
      obtain rfl | rfl | rfl := those <;> rfl
  | reconcilePeriphery system trunk resources nowIso outbox =>
      obtain rfl := Except.ok.inj
        ((inSequence_reconcileTracks system resources nowIso _ store).symm.trans done)
      refine ⟨recorded_periphery system trunk resources store.periphery, fun table those => ?_⟩
      obtain rfl | rfl | rfl := those <;> rfl
  | insertBranch name createdAt createdBy source asOf outbox =>
      simp only [factStatements, inSequence, insertBranchStatement] at done
      split at done
      · rename_i inserted opened
        split at opened
        · cases opened
        · cases opened
          cases done
          refine ⟨⟨_, List.mem_append_right _ (List.mem_singleton_self _), rfl, rfl, rfl, rfl, rfl⟩,
            fun table those => ?_⟩
          obtain rfl | rfl | rfl := those <;> rfl
      · cases done

theorem FactWrite.Recorded.writeOutbox {write : FactWrite} {events : List NewWebhookEvent}
    (recorded : write.Recorded now store) (written : store.writeOutbox events = .ok after) :
    write.Recorded now after := by
  have kept : ∀ table : Table, table ≠ .outbox → table ≠ .deliveries →
      after.table table = store.table table :=
    fun table other another => Store.table_writeOutbox written other another
  cases write with
  | upsertSpecVersion params =>
      have same : after.specVersions = store.specVersions :=
        congrArg Prod.fst (kept .specVersions (by simp) (by simp))
      unfold Recorded
      rw [same]
      exact recorded
  | recordDependenciesBulk params outbox =>
      have same : after.dependencies = store.dependencies :=
        kept .dependencies (by simp) (by simp)
      unfold Recorded
      rw [same]
      exact recorded
  | reconcilePeriphery system trunk resources nowIso outbox =>
      have same : after.periphery = store.periphery := kept .periphery (by simp) (by simp)
      unfold Recorded
      rw [same]
      exact recorded
  | insertBranch name createdAt createdBy source asOf outbox =>
      have same : after.branches = store.branches :=
        congrArg Prod.fst (kept .branches (by simp) (by simp))
      unfold Recorded
      rw [same]
      exact recorded

/-- A write whose statements all went through has recorded its fact and emitted its events. -/
theorem FactWrite.recorded_and_emitted (write : FactWrite) (sound : OutboxSound store)
    (distinct : ∀ event ∈ write.outbox, event.hookIds.Nodup)
    (done : inSequence (write.statements now) store = .ok after) :
    write.Recorded now after ∧ OutboxSound after ∧
      ∀ event ∈ write.outbox, event.id ∉ store.outbox.map (·.id) ∧ Emitted event after := by
  unfold statements at done
  rw [inSequence_append] at done
  cases fact : inSequence (write.factStatements now) store with
  | error error =>
      rw [fact] at done
      cases done
  | ok middle =>
      rw [fact] at done
      dsimp only at done
      rw [inSequence_writeOutbox] at done
      obtain ⟨recorded, kept⟩ := write.recorded_factStatements fact
      have events : middle.outbox = store.outbox := kept .outbox (by simp)
      have before : OutboxSound middle :=
        sound.of_tables (kept .webhooks (by simp)) events (kept .deliveries (by simp))
      obtain ⟨after, emitted⟩ := before.writeOutbox distinct done
      rw [events] at emitted
      exact ⟨recorded.writeOutbox done, after, emitted⟩

end Facts
end Sanshain.Infrastructure
