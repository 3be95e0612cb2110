import Sanshain.Application.Require
import Sanshain.Effects.Ensures
import Sanshain.Infrastructure.Records

namespace Sanshain.Guarantees

open Sanshain.Data Sanshain.Domain Sanshain.Document Sanshain.Effects Sanshain.Application
open Sanshain.Infrastructure Sanshain.History
open OpenApiDocument (lookupPath)

section Running

variable {environment : Environment}

/-- The store is as it was, and time has not gone back. -/
def StoreKept (before after : World) : Prop := after.store = before.store ∧ before.steps ≤ after.steps

theorem StoreKept.trans {before middle after : World} (first : StoreKept before middle)
    (second : StoreKept middle after) : StoreKept before after :=
  ⟨second.1.trans first.1, first.2.trans second.2⟩

/-- A call that the store answers is one that returns. -/
theorem returns_repo (reliable : environment.Reliable) {world : World} {request : RepoCall}
    {result : request.Result} {post : request.Result → World → Prop}
    (answers : (world.store.perform (environment.clock world.steps) request).2 = .ok result)
    (met : post result
      ⟨(world.database.perform (environment.clock world.steps) request).1, world.steps + 1⟩) :
    (repo request).Returns (World.handle environment) post world := by
  refine ⟨result, _, ?_, met⟩
  have handled : World.handle environment world (.repo request) =
      (⟨(world.database.perform (environment.clock world.steps) request).1, world.steps + 1⟩,
        (world.store.perform (environment.clock world.steps) request).2) := by
    simp only [World.handle, reliable world.steps]
    rfl
  change (Program.ofExcept ((World.handle environment world (.repo request)).2.mapError _)).run _
    (World.handle environment world (.repo request)).1 = _
  rw [handled, answers]
  rfl

theorem returns_reads (reliable : environment.Reliable) {world : World} (request : RepoCall)
    {result : request.Result} (reads : request.readsOnly = true)
    (answers : (world.store.perform (environment.clock world.steps) request).2 = .ok result) :
    (repo request).Returns (World.handle environment)
      (fun found after => found = result ∧ StoreKept world after) world :=
  returns_repo reliable answers ⟨rfl, Store.perform_readsOnly world.store _ reads, Nat.le_succ _⟩

/-- A call that the store carries out. -/
theorem returns_writes (reliable : environment.Reliable) {world : World} {request : RepoCall}
    {result : request.Result} {after : Store}
    (performed : world.store.perform (environment.clock world.steps) request = (after, .ok result)) :
    (repo request).Returns (World.handle environment)
      (fun found reached => found = result ∧ reached.store = after ∧
        reached.steps = world.steps + 1) world := by
  refine returns_repo reliable (by rw [performed]) ⟨rfl, ?_, rfl⟩
  change (world.store.perform (environment.clock world.steps) request).1 = after
  rw [performed]

theorem triedUnit_ok {store after : Store} {outcome : Except RepositoryError Store}
    (written : outcome = .ok after) : store.triedUnit outcome = (after, .ok ()) := by
  rw [written]
  rfl

theorem returns_nowIso (world : World) :
    nowIso.Returns (World.handle environment) (fun _ after => StoreKept world after) world :=
  ⟨_, _, rfl, rfl, Nat.le_succ _⟩

/-- The stream of a require is fixed by the branches there are. -/
theorem returns_resolveStream (reliable : environment.Reliable) (branches : List BranchInfo)
    (trunk : Bool) (tag : Option String) :
    ∃ stream : ResolvedStream, (∀ branch, stream.branch = some branch → branch ∈ branches) ∧
      ∀ world : World, world.store.branches = branches →
        (resolveStream trunk tag).Returns (World.handle environment)
          (fun found after => found = stream ∧ StoreKept world after) world := by
  have still (world : World) : StoreKept world world := ⟨rfl, le_rfl⟩
  unfold resolveStream
  cases tag with
  | none => exact ⟨_, by simp, fun world _ => .done ⟨rfl, still world⟩⟩
  | some name =>
      cases trunk with
      | true => exact ⟨_, by simp, fun world _ => .done ⟨rfl, still world⟩⟩
      | false =>
          cases found : branches.find? (·.name = name) with
          | some branch =>
              refine ⟨⟨false, some branch, []⟩, ?_, fun world same => ?_⟩
              · intro other held
                cases held
                exact List.mem_of_find?_eq_some found
              · refine (returns_reads reliable (.findBranch name) rfl rfl).bind ?_
                rintro answer after ⟨rfl, kept⟩
                rw [same, found]
                exact .done ⟨rfl, kept⟩
          | none =>
              refine ⟨⟨false, none,
                [s!"no sanshain-branch '{name}' - this build was not recorded in a release graph"]⟩,
                by simp, fun world same => ?_⟩
              refine (returns_reads reliable (.findBranch name) rfl rfl).bind ?_
              rintro answer after ⟨rfl, kept⟩
              rw [same, found]
              exact .done ⟨rfl, kept⟩

variable (params : RequireParams)

/-- The entry a require pins. -/
def pinnedRow (store : Store) : Option SpecVersionRow :=
  (store.serviceNamed? params.producername).bind fun service =>
    store.specVersion? (service.id, params.apiType, params.version)

theorem returns_resolvePin (reliable : environment.Reliable) {world : World} {row : SpecVersionRow}
    (pinned : pinnedRow params world.store = some row) :
    (resolvePin params.producername params.apiType params.version).Returns (World.handle environment)
      (fun found after => found.2 = row.entry ∧ StoreKept world after) world := by
  obtain ⟨service, named, found⟩ := Option.bind_eq_some_iff.mp pinned
  refine (returns_reads reliable (.findService params.producername) rfl rfl).bind ?_
  rintro answer reached ⟨rfl, kept⟩
  rw [named]
  refine (returns_reads reliable (.findSpecVersion service.id params.apiType params.version)
    rfl rfl).bind ?_
  rintro answer after ⟨rfl, later⟩
  rw [kept.1, found]
  exact .done ⟨rfl, kept.trans later⟩

theorem refuses_resolvePin (reliable : environment.Reliable) {world : World}
    (unpinned : pinnedRow params world.store = none) :
    (resolvePin params.producername params.apiType params.version).Refuses (World.handle environment)
      (fun _ after => StoreKept world after) world := by
  refine (returns_reads reliable (.findService params.producername) rfl rfl).bind_refuses ?_
  rintro answer reached ⟨rfl, kept⟩
  cases named : world.store.serviceNamed? params.producername with
  | none => exact .fail kept
  | some service =>
      rw [pinnedRow, named, Option.bind_some] at unpinned
      refine (returns_reads reliable
        (.findSpecVersion service.id params.apiType params.version) rfl rfl).bind_refuses ?_
      rintro answer after ⟨rfl, later⟩
      rw [kept.1, unpinned]
      exact .fail (kept.trans later)

end Running

section Recording

variable {environment : Environment}

/-- Generated identifiers are all different, and those still to come are not in use. -/
def FreshIds (environment : Environment) (world : World) : Prop :=
  Function.Injective environment.uuid ∧
    ∀ step, world.steps ≤ step → environment.uuid step ∉ world.store.outbox.map (·.id)

theorem FreshIds.keep {world after : World} (fresh : FreshIds environment world)
    (kept : StoreKept world after) : FreshIds environment after := by
  refine ⟨fresh.1, fun step future => ?_⟩
  rw [kept.1]
  exact fresh.2 step (kept.2.trans future)

/-- The events that one require writes: at most one, under an identifier of its own, for hooks
that there are. -/
def PlannedBetween (environment : Environment) (store : Store) (first last : ℕ)
    (outbox : List NewWebhookEvent) : Prop :=
  outbox = [] ∨ ∃ event step, outbox = [event] ∧ first ≤ step ∧ step < last ∧
    event.id = environment.uuid step ∧ ∀ hook ∈ event.hookIds, hook ∈ store.webhooks.map (·.id)

variable {deployment : Deployment} {params : RequireParams}

theorem returns_heldEdges (reliable : environment.Reliable) (world : World) (entry : SpecVersionMeta)
    (stream : ResolvedStream) :
    (heldEdges params entry stream).Returns (World.handle environment)
      (fun _ after => StoreKept world after) world := by
  unfold heldEdges
  split
  · refine (returns_reads reliable (.listBranchPins _ _) rfl rfl).bind ?_
    intro pins after found
    exact .done found.2
  · refine (returns_reads reliable .listCurrentTrunkPins rfl rfl).bind ?_
    intro pins after found
    exact .done found.2
  · refine (returns_reads reliable (.listConsumerEndpoints _) rfl rfl).bind ?_
    intro edges after found
    exact .done found.2

theorem returns_edgeConsumers (reliable : environment.Reliable) (world : World)
    (audience : EventAudience) :
    (edgeConsumers audience).Returns (World.handle environment) (fun _ after => StoreKept world after)
      world := by
  unfold edgeConsumers
  split
  · refine (returns_reads reliable (.findService _) rfl rfl).bind ?_
    rintro answer reached ⟨rfl, kept⟩
    cases (world.store.serviceNamed? _).map (·.id) with
    | none => exact .done kept
    | some serviceId =>
        refine (returns_reads reliable (.listCurrentConsumersOf serviceId) rfl rfl).mono ?_
        intro consumers after found
        exact kept.trans found.2
  · exact .done ⟨rfl, le_rfl⟩

theorem returns_fanOut (reliable : environment.Reliable) (world : World) (eventType : WebhookEventType)
    (audience : EventAudience) :
    (fanOut deployment eventType audience).Returns (World.handle environment)
      (fun hookIds after => (∀ hook ∈ hookIds, hook ∈ world.store.webhooks.map (·.id)) ∧
        StoreKept world after) world := by
  unfold fanOut
  split
  · refine (returns_reads reliable .listWebhooks rfl rfl).bind ?_
    rintro hooks reached ⟨rfl, kept⟩
    split
    · exact .done ⟨by simp, kept⟩
    · refine (returns_edgeConsumers reliable reached audience).bind ?_
      intro consumers after later
      refine .done ⟨fun hook among => ?_, kept.trans later⟩
      obtain ⟨wanted, held, rfl⟩ := List.mem_map.mp among
      exact List.mem_map_of_mem (List.mem_of_mem_filter held)
  · exact .done ⟨by simp, rfl, le_rfl⟩

theorem returns_planEvent (reliable : environment.Reliable) (world : World)
    (eventType : WebhookEventType) (audience : EventAudience) (data : Value) :
    (planEvent deployment eventType audience data).Returns (World.handle environment)
      (fun event after =>
        PlannedBetween environment world.store world.steps after.steps event.toList ∧
          StoreKept world after) world := by
  refine (returns_fanOut reliable world eventType audience).bind ?_
  rintro hookIds middle ⟨known, kept⟩
  unfold eventFor
  split
  · exact .done ⟨.inl rfl, kept⟩
  · refine ⟨_, _, rfl, .inr ⟨_, middle.steps, rfl, kept.2, ?_, rfl, known⟩, kept.1, ?_⟩
    · exact Nat.lt_succ_of_lt (Nat.lt_succ_self _)
    · exact kept.2.trans (Nat.le_add_right _ 2)

/-- The event of a require is planned without touching the store. -/
theorem returns_planDependencyEvent (reliable : environment.Reliable) (world : World)
    (entry : SpecVersionMeta) (endpoints : List (String × String)) (stream : ResolvedStream) :
    (planDependencyEvent deployment params entry endpoints stream).Returns (World.handle environment)
      (fun outbox after => PlannedBetween environment world.store world.steps after.steps outbox ∧
        StoreKept world after) world := by
  unfold planDependencyEvent
  split
  · refine (returns_heldEdges reliable world entry stream).bind ?_
    intro held reached kept
    dsimp only
    split
    · exact .done ⟨.inl rfl, kept⟩
    · refine (returns_planEvent reliable reached _ _ _).bind ?_
      rintro event after ⟨planned, later⟩
      refine .done ⟨?_, kept.trans later⟩
      rw [← kept.1]
      refine planned.imp_right ?_
      rintro ⟨event, step, single, first, rest⟩
      exact ⟨event, step, single, kept.2.trans first, rest⟩
  · exact .done ⟨.inl rfl, rfl, le_rfl⟩

/-- Planned events are written, and identifiers still to come stay unused. -/
theorem PlannedBetween.written {store planned : Store} {first last : ℕ}
    {outbox : List NewWebhookEvent} (events : PlannedBetween environment planned first last outbox)
    (hooks : store.webhooks = planned.webhooks) (distinct : Function.Injective environment.uuid)
    (fresh : ∀ step, first ≤ step → environment.uuid step ∉ store.outbox.map (·.id)) :
    ∃ written deliveries, store.writeOutbox outbox =
        .ok { store with outbox := written, deliveries := deliveries } ∧
      ∀ step, first ≤ step → last ≤ step → environment.uuid step ∉ written.map (·.id) := by
  obtain rfl | ⟨event, step, rfl, later, before, named, known⟩ := events
  · exact ⟨store.outbox, store.deliveries, rfl, fun step from_ _ => fresh step from_⟩
  · have unused : event.id ∉ store.outbox.map (·.id) := by
      rw [named]
      exact fresh step later
    have hooked : ¬(event.hookIds.any fun hook => hook ∉ store.webhooks.map (·.id)) = true := by
      rw [List.any_eq_true, hooks]
      rintro ⟨hook, among, missing⟩
      exact of_decide_eq_true missing (known hook among)
    refine ⟨store.outbox ++ [event], store.deliveries ++ event.hookIds.map fun hook =>
      ⟨hook, event.id, event.occurredAt⟩, ?_, ?_⟩
    · rw [Store.writeOutbox, if_neg unused, if_neg hooked]
      rfl
    · intro other from_ past
      rw [List.map_append, List.mem_append, not_or]
      refine ⟨fresh other from_, ?_⟩
      rw [List.map_singleton, List.mem_singleton, named]
      intro same
      have := distinct same
      omega

/-- A pin of a client as it is put under its key. -/
def barePut (store : Store) (clientId : Nat) (entry : SpecVersionMeta) (endpoint : String × String) :
    PinPut :=
  ((clientId, entry.serviceId, entry.apiType, lookupPath entry.apiType endpoint.1, endpoint.2),
    entry.version, ((store.clientName? clientId).getD "", (store.serviceName? entry.serviceId).getD "",
      endpoint.1))

/-- What a require that is not a dry run records of an entry. -/
def wantedOf (params : RequireParams) (endpoints : List (String × String)) : List (String × String) :=
  if params.dryRun then [] else endpoints

/-- The records of a require beside those there were. -/
def requiredIn (params : RequireParams) (store : Store) (entry : SpecVersionMeta)
    (stream : ResolvedStream) (endpoints : List (String × String)) : Records → Records :=
  let clientId := (store.ensureClient params.consumername).2
  Records.require stream (dependencyRows clientId entry (wantedOf params endpoints))
    ((firstSpellings entry.apiType [] (wantedOf params endpoints)).map
      (barePut (store.ensureClient params.consumername).1 clientId entry))

/-- What a require leaves behind. -/
structure Required (environment : Environment) (params : RequireParams)
    (record : Records → Records) (before : Store) (after : World) : Prop where
  records : after.store.records = record before.records
  resolves : Store.Resolves params.consumername before after.store
  fresh : FreshIds environment after

/-- The dependencies of a require are recorded with its events. -/
theorem returns_recordDependencies (reliable : environment.Reliable) {world : World} {planned : Store}
    {first last : ℕ} {outbox : List NewWebhookEvent} {rows : List RecordDependencyParams}
    (events : PlannedBetween environment planned first last outbox)
    (hooks : world.store.webhooks = planned.webhooks)
    (distinct : Function.Injective environment.uuid)
    (fresh : ∀ step, first ≤ step → environment.uuid step ∉ world.store.outbox.map (·.id))
    (known : ∀ row ∈ rows, (world.store.clientName? row.clientId).isSome ∧
      (world.store.specVersionById? row.specVersionId).isSome) :
    (repo (.recordDependenciesBulk rows outbox)).Returns (World.handle environment)
      (fun _ after => ∃ written deliveries, after.store = { world.store with
          dependencies := rows.foldl (Store.recordDependency (environment.clock world.steps))
            world.store.dependencies
          outbox := written
          deliveries := deliveries } ∧ after.steps = world.steps + 1 ∧
        ∀ step, first ≤ step → last ≤ step → environment.uuid step ∉ written.map (·.id)) world := by
  have referenced : ¬(rows.any fun row => (world.store.clientName? row.clientId).isNone ||
      (world.store.specVersionById? row.specVersionId).isNone) = true := by
    rw [List.any_eq_true]
    rintro ⟨row, among, missing⟩
    obtain ⟨client, version⟩ := known row among
    rw [Option.isSome_iff_ne_none] at client version
    simp [client, version] at missing
  obtain ⟨written, deliveries, wrote, unused⟩ :=
    @PlannedBetween.written environment { world.store with
      dependencies := rows.foldl (Store.recordDependency (environment.clock world.steps))
        world.store.dependencies } planned first last outbox events hooks distinct fresh
  have recorded : world.store.recordDependenciesBulk (environment.clock world.steps) rows outbox =
      .ok { world.store with
        dependencies := rows.foldl (Store.recordDependency (environment.clock world.steps))
          world.store.dependencies
        outbox := written
        deliveries := deliveries } := by
    rw [Store.recordDependenciesBulk, if_neg referenced]
    exact wrote
  have performed : world.store.perform (environment.clock world.steps)
      (.recordDependenciesBulk rows outbox) = (_, .ok ()) := triedUnit_ok recorded
  refine (returns_writes reliable performed).mono ?_
  rintro _ after ⟨-, same, steps⟩
  exact ⟨written, deliveries, same, steps, unused⟩

theorem records_setBranchPins {store : Store} {branch : BranchInfo} {stream : ResolvedStream}
    {batch : List RecordPinParams} {rows : List PinRow}
    (folded : batch.foldlM store.recordPin (store.branchPinsOf branch.id) = .ok rows)
    (chosen : stream.branch = some branch) :
    (store.setBranchPins branch.id rows).records =
      store.records.require stream [] (batch.map store.pinPut) := by
  refine Records.ext rfl ?_ ?_
  · rw [Records.require, chosen]
    rfl
  · funext branchId
    change ((store.setBranchPins branch.id rows).branchPinsOf branchId).map PinRow.bare = _
    rw [Records.require, chosen]
    by_cases here : branch.id = branchId
    · subst here
      rw [Store.branchPinsOf_setBranchPins, Store.bare_recordPins folded]
      simp [Store.records]
    · rw [Store.branchPinsOf_setBranchPins_other store (Ne.symm here)]
      simp [here, Store.records]

theorem records_setTrunkPins {store : Store} {stream : ResolvedStream}
    {batch : List RecordPinParams} {rows : List PinRow}
    (folded : batch.foldlM store.recordPin store.trunkPins = .ok rows)
    (apart : stream.branch = none) (trunk : stream.trunk = true) :
    ({ store with trunkPins := rows } : Store).records =
      store.records.require stream [] (batch.map store.pinPut) := by
  refine Records.ext rfl ?_ ?_
  · change rows.map PinRow.bare = _
    rw [Store.bare_recordPins folded]
    simp [Records.require, apart, trunk, Store.records]
  · funext branchId
    simp only [Records.require, apart]
    rfl

/-- The pins of a stream are put into its own graph, and nothing else changes. -/
theorem returns_recordStreamPins (reliable : environment.Reliable) {world : World} {clientId : Nat}
    {entry : SpecVersionMeta} {stream : ResolvedStream} (endpoints : List (String × String))
    (client : (world.store.clientName? clientId).isSome)
    (service : (world.store.serviceName? entry.serviceId).isSome)
    (branches : ∀ branch, stream.branch = some branch → branch ∈ world.store.branches) :
    (recordStreamPins clientId entry endpoints stream).Returns (World.handle environment)
      (fun _ after => ∃ trunkPins branchPins,
        after.store = { world.store with trunkPins := trunkPins, branchPins := branchPins } ∧
        world.steps ≤ after.steps ∧
        after.store.records = world.store.records.require stream []
          ((firstSpellings entry.apiType [] endpoints).map (barePut world.store clientId entry)))
      world := by
  have known (now : Instant) : ∀ pin ∈ pinRows clientId entry now endpoints,
      (world.store.clientName? pin.clientId).isSome ∧ (world.store.serviceName? pin.serviceId).isSome := by
    intro pin among
    obtain ⟨endpoint, -, rfl⟩ := List.mem_map.mp among
    exact ⟨client, service⟩
  have puts (now : Instant) : (pinRows clientId entry now endpoints).map world.store.pinPut =
      (firstSpellings entry.apiType [] endpoints).map (barePut world.store clientId entry) := by
    rw [pinRows, List.map_map]
    rfl
  unfold recordStreamPins
  split
  · rename_i branch chosen
    refine (returns_nowIso world).bind ?_
    intro now reached kept
    obtain ⟨rows, folded⟩ := Store.recordPins_succeeds (world.store.branchPinsOf branch.id) (known now)
    have there : world.store.hasBranch branch.id := List.mem_map_of_mem (branches branch chosen)
    have recorded : reached.store.recordBranchPins branch.id (pinRows clientId entry now endpoints) =
        .ok (world.store.setBranchPins branch.id rows) := by
      rw [kept.1, Store.recordBranchPins, if_neg (by rintro ⟨-, missing⟩; exact missing there), folded]
      rfl
    have performed : reached.store.perform (environment.clock reached.steps)
        (.recordBranchPins branch.id (pinRows clientId entry now endpoints)) = (_, .ok ()) :=
      triedUnit_ok recorded
    refine (returns_writes reliable performed).mono ?_
    rintro _ after ⟨-, same, steps⟩
    refine ⟨_, _, same, ?_, ?_⟩
    · rw [steps]
      exact Nat.le_succ_of_le kept.2
    · rw [same, ← puts now]
      exact records_setBranchPins folded chosen
  · rename_i noBranch trunk
    refine (returns_nowIso world).bind ?_
    intro now reached kept
    obtain ⟨rows, folded⟩ := Store.recordPins_succeeds world.store.trunkPins (known now)
    have recorded : reached.store.recordTrunkPins (pinRows clientId entry now endpoints) =
        .ok { world.store with trunkPins := rows } := by
      rw [kept.1, Store.recordTrunkPins, folded]
      rfl
    have performed : reached.store.perform (environment.clock reached.steps)
        (.recordTrunkPins (pinRows clientId entry now endpoints)) = (_, .ok ()) :=
      triedUnit_ok recorded
    refine (returns_writes reliable performed).mono ?_
    rintro _ after ⟨-, same, steps⟩
    refine ⟨_, _, same, ?_, ?_⟩
    · rw [steps]
      exact Nat.le_succ_of_le kept.2
    · rw [same, ← puts now]
      exact records_setTrunkPins folded noBranch trunk
  · rename_i noBranch trunk
    refine .done ⟨_, _, rfl, le_rfl, Records.ext rfl ?_ ?_⟩
    · simp [Records.require, noBranch, trunk]
    · simp [Records.require, noBranch]

/-- What a require records of an entry that there is. -/
theorem returns_recordPins (reliable : environment.Reliable) {world : World}
    {entry : SpecVersionMeta} {stream : ResolvedStream} (endpoints : List (String × String))
    (fresh : FreshIds environment world)
    (service : (world.store.serviceName? entry.serviceId).isSome)
    (version : (world.store.specVersionById? entry.id).isSome)
    (branches : ∀ branch, stream.branch = some branch → branch ∈ world.store.branches) :
    (recordPins deployment params entry endpoints stream).Returns (World.handle environment)
      (fun _ after => Required environment params
        (requiredIn params world.store entry stream endpoints) world.store after) world := by
  unfold recordPins
  split
  · rename_i dry
    refine .done ⟨?_, .refl _, fresh⟩
    simp [requiredIn, wantedOf, dry, dependencyRows, firstSpellings]
  · rename_i wet
    have wanted : wantedOf params endpoints = endpoints := if_neg wet
    refine (returns_planDependencyEvent reliable world entry endpoints stream).bind ?_
    rintro outbox planned ⟨events, kept⟩
    have enrolled : planned.store.perform (environment.clock planned.steps)
        (.ensureClient params.consumername) =
          ((world.store.ensureClient params.consumername).1,
            .ok (world.store.ensureClient params.consumername).2) := by
      rw [kept.1]
      rfl
    refine (returns_writes reliable enrolled).bind ?_
    rintro clientId joined ⟨rfl, same, steps⟩
    have resolved := world.store.resolves_ensureClient params.consumername
    have outboxes : joined.store.outbox = world.store.outbox := by
      rw [same]
      unfold Store.ensureClient
      split <;> rfl
    have versions : joined.store.specVersions = world.store.specVersions := by
      rw [same]
      unfold Store.ensureClient
      split <;> rfl
    have client : (joined.store.clientName? (world.store.ensureClient params.consumername).2).isSome := by
      rw [same]
      exact world.store.clientName?_ensured params.consumername
    have recorded := @returns_recordDependencies environment reliable joined _ _ _ outbox
      (dependencyRows (world.store.ensureClient params.consumername).2 entry endpoints) events
      (by rw [same]; exact resolved.webhooks) fresh.1 (by rw [outboxes]; exact fresh.2) (by
        intro row among
        obtain ⟨endpoint, -, rfl⟩ := List.mem_map.mp among
        refine ⟨client, ?_⟩
        rw [Store.specVersionById?, versions]
        exact version)
    refine recorded.bind ?_
    rintro _ noted ⟨written, deliveries, linked, later, unused⟩
    refine (returns_nowIso noted).bind ?_
    intro now timed still
    have touched : timed.store.perform (environment.clock timed.steps)
        (.touchSpecVersionRequired entry.id now) = (_, .ok ()) := rfl
    refine (returns_writes reliable touched).bind ?_
    rintro _ asked ⟨-, marked, last⟩
    rw [still.1, linked, same] at marked
    refine (returns_recordStreamPins reliable endpoints ?_ ?_ ?_).mono ?_
    · rw [marked]
      exact world.store.clientName?_ensured params.consumername
    · rw [marked]
      change (Store.serviceName? (world.store.ensureClient params.consumername).1 _).isSome
      rw [Store.serviceName?, resolved.services]
      exact service
    · intro branch chosen
      rw [marked]
      change branch ∈ (world.store.ensureClient params.consumername).1.branches
      rw [resolved.branches]
      exact branches branch chosen
    · rintro _ after ⟨trunkPins, branchPins, pinned, steps', records⟩
      have begun : asked.store.records = { world.store.records with
          dependencies := (dependencyRows (world.store.ensureClient params.consumername).2 entry
            endpoints).foldl putDependency world.store.records.dependencies } := by
        rw [marked, ← world.store.records_ensureClient params.consumername]
        exact Records.ext (Store.params_recordDependencies _ _ _) rfl rfl
      have puts : barePut asked.store = barePut (world.store.ensureClient params.consumername).1 := by
        rw [marked]
        rfl
      rw [marked] at pinned
      refine ⟨?_, ?_, fresh.1, ?_⟩
      · rw [records, begun, puts, requiredIn, wanted]
        rfl
      · refine resolved.trans ?_
        rw [pinned]
        exact .of_tables rfl rfl rfl (Store.lasting_touched _ entry.id now) rfl rfl
      · intro step future
        rw [pinned]
        have := kept.2
        have := still.2
        exact unused step (by omega) (by omega)

end Recording
end Sanshain.Guarantees
