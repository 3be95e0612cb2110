import Sanshain.Application.Require
import Sanshain.Guarantees.Cuts

namespace Sanshain.Guarantees

open Sanshain.Data Sanshain.Domain Sanshain.Effects Sanshain.Application Sanshain.Infrastructure

/-- What a require into a branch asks of the store. -/
inductive IntoBranch (branchId : Nat) : RepoCall → Prop
  | reads {request : RepoCall} (reads : request.readsOnly = true) : IntoBranch branchId request
  | client (name : String) : IntoBranch branchId (.ensureClient name)
  | dependencies (rows : List RecordDependencyParams) (outbox : List NewWebhookEvent)
      (quiet : ∀ event ∈ outbox, event.eventType = .dependencyRecorded) :
      IntoBranch branchId (.recordDependenciesBulk rows outbox)
  | required (specVersionId : Nat) (now : Instant) :
      IntoBranch branchId (.touchSpecVersionRequired specVersionId now)
  | pins (pins : List RecordPinParams) : IntoBranch branchId (.recordBranchPins branchId pins)

/-- The events of cuts in the outbox. -/
def cutEvents (store : Store) : List NewWebhookEvent :=
  store.outbox.filter (·.eventType = .branchCut)

def pinsElsewhere (store : Store) (branchId : Nat) : List (Nat × PinRow) :=
  store.branchPins.filter (·.1 ≠ branchId)

section Sparing

/-- What the calls of a require into a branch leave alone. -/
structure Spared (branchId : Nat) (before after : Store) : Prop where
  branches : after.branches = before.branches
  trunkPins : after.trunkPins = before.trunkPins
  elsewhere : pinsElsewhere after branchId = pinsElsewhere before branchId
  periphery : after.periphery = before.periphery
  events : cutEvents after = cutEvents before

variable {branchId : Nat} {store after : Store}

theorem Spared.refl (branchId : Nat) (store : Store) : Spared branchId store store :=
  ⟨rfl, rfl, rfl, rfl, rfl⟩

theorem Spared.trans {middle : Store} (first : Spared branchId store middle)
    (second : Spared branchId middle after) : Spared branchId store after where
  branches := second.branches.trans first.branches
  trunkPins := second.trunkPins.trans first.trunkPins
  elsewhere := second.elsewhere.trans first.elsewhere
  periphery := second.periphery.trans first.periphery
  events := second.events.trans first.events

/-- Events of another kind are no cuts'. -/
theorem writeOutbox_events {events : List NewWebhookEvent}
    (written : store.writeOutbox events = .ok after) : after.outbox = store.outbox ++ events := by
  induction events generalizing store with
  | nil =>
      cases written
      rw [List.append_nil]
  | cons event rest ih =>
      rw [Store.writeOutbox] at written
      split at written
      · cases written
      · split at written
        · cases written
        · rw [ih written, List.append_assoc, List.singleton_append]

theorem cutEvents_writeOutbox {events : List NewWebhookEvent}
    (written : store.writeOutbox events = .ok after) :
    cutEvents after = cutEvents store ++ events.filter (·.eventType = .branchCut) := by
  rw [cutEvents, writeOutbox_events written, List.filter_append, cutEvents]

/-- A call that writes none of these tables spares them. -/
theorem spared_of_frame (now : Instant) {request : RepoCall}
    (outside : ∀ table ∈ [Table.branches, .trunkPins, .branchPins, .periphery, .outbox],
      table ∉ writes request) : Spared branchId store (store.perform now request).1 := by
  have kept : ∀ table ∈ [Table.branches, .trunkPins, .branchPins, .periphery, .outbox],
      (store.perform now request).1.table table = store.table table :=
    fun table among => Store.perform_frame store now (outside table among)
  have branches := kept .branches (by simp)
  have trunkPins := kept .trunkPins (by simp)
  have branchPins := kept .branchPins (by simp)
  have periphery := kept .periphery (by simp)
  have outbox := kept .outbox (by simp)
  exact ⟨congrArg Prod.fst branches, trunkPins, congrArg (List.filter _) branchPins, periphery,
    congrArg (List.filter _) outbox⟩

theorem spared_of_intoBranch (now : Instant) {request : RepoCall}
    (into : IntoBranch branchId request) : Spared branchId store (store.perform now request).1 := by
  cases into with
  | reads reads =>
      rw [Store.perform_readsOnly store now reads]
      exact .refl branchId store
  | client name => exact spared_of_frame now (by simp [writes])
  | required specVersionId instant => exact spared_of_frame now (by simp [writes])
  | dependencies rows outbox quiet =>
      change Spared branchId store (store.triedUnit (store.recordDependenciesBulk now rows outbox)).1
      obtain ⟨_, -, same⟩ | ⟨written, recorded, same⟩ :=
        Store.triedUnit_cases store (store.recordDependenciesBulk now rows outbox)
      · rw [same]
        exact .refl branchId store
      · rw [same]
        unfold Store.recordDependenciesBulk at recorded
        split at recorded
        · cases recorded
        · have none : outbox.filter (·.eventType = .branchCut) = [] := by
            rw [List.filter_eq_nil_iff]
            intro event among
            simp [quiet event among]
          have frame := fun table => @Store.table_writeOutbox table _ _ _ recorded
          have branches := frame .branches (by simp) (by simp)
          have trunkPins := frame .trunkPins (by simp) (by simp)
          have branchPins := frame .branchPins (by simp) (by simp)
          have periphery := frame .periphery (by simp) (by simp)
          have events := cutEvents_writeOutbox recorded
          rw [none, List.append_nil] at events
          exact ⟨congrArg Prod.fst branches, trunkPins, congrArg (List.filter _) branchPins, periphery,
            events⟩
  | pins pins =>
      change Spared branchId store (store.triedUnit (store.recordBranchPins branchId pins)).1
      obtain ⟨_, -, same⟩ | ⟨written, recorded, same⟩ :=
        Store.triedUnit_cases store (store.recordBranchPins branchId pins)
      · rw [same]
        exact .refl branchId store
      · rw [same]
        obtain ⟨-, rows, -, rfl⟩ := Store.recordBranchPins_cases recorded
        refine ⟨rfl, rfl, ?_, rfl, rfl⟩
        simp [pinsElsewhere, Store.setBranchPins, List.filter_append]

/-- Any number of requires into a branch spares the rest. -/
theorem spared_of_joined {others : List (Instant × RepoCall)} {world : World}
    (into : ∀ call ∈ others, IntoBranch branchId call.2) :
    Spared branchId world.store (joined others world).store := by
  obtain ⟨database, steps⟩ := world
  induction others generalizing database with
  | nil => exact .refl branchId database.store
  | cons call rest ih =>
      have first : Spared branchId database.store (database.after call).store :=
        spared_of_intoBranch call.1 (into call List.mem_cons_self)
      exact first.trans (ih (fun later among => into later (List.mem_cons_of_mem _ among))
        (database.after call))

/-- The pins of another graph are spared. -/
theorem Spared.branchPinsOf (spared : Spared branchId store after) {other : Nat}
    (apart : other ≠ branchId) : after.branchPinsOf other = store.branchPinsOf other := by
  have only : ∀ rows : List (Nat × PinRow),
      rows.filter (·.1 = other) = (rows.filter (·.1 ≠ branchId)).filter (·.1 = other) := by
    intro rows
    rw [List.filter_filter]
    refine List.filter_congr fun row _ => ?_
    by_cases same : row.1 = other
    · simp [same, apart]
    · simp [same]
  have elsewhere := spared.elsewhere
  unfold pinsElsewhere at elsewhere
  rw [Store.branchPinsOf, Store.branchPinsOf, only, elsewhere, ← only]

end Sparing

section Requires

variable {deployment : Deployment} {forms : AnswerForms} {params : RequireParams} {branchId : Nat}

/-- A call that a require into the branch may issue. -/
def Into (branchId : Nat) (request : Call) : Prop :=
  request.readsOnly = true ∨ ∃ wanted, request = .repo wanted ∧ IntoBranch branchId wanted

theorem into_of_reads {Value : Type} {program : UseCase Value} {fails : Calls → AppError → Prop}
    (reads : program.Only (fun request => request.readsOnly = true) fails) :
    program.Only (Into branchId) fun _ _ => True :=
  reads.mono (fun _ reads => .inl reads) fun _ _ _ => trivial

theorem into_repo {request : RepoCall} (into : IntoBranch branchId request) :
    (repo request).Only (Into branchId) fun _ _ => True :=
  (only_repo (.inr ⟨request, rfl, into⟩)).mono (fun _ among => among) fun _ _ _ => trivial

theorem kinds_of_planEvent (eventType : WebhookEventType) (audience : EventAudience)
    (data : Document.Value) (events : Calls) :
    (planEvent deployment eventType audience data).Along (fun _ request => request.readsOnly = true)
      (fun _ event => ∀ planned ∈ event.toList, planned.eventType = eventType) (fun _ _ => True)
      events := by
  refine ((reads_fanOut deployment eventType audience events).mono (fun _ _ reads => reads)
    (fun _ _ held => held) fun _ _ _ => trivial).seq fun later hookIds _ _ => ?_
  unfold eventFor
  split
  · exact fun planned among => absurd among List.not_mem_nil
  · refine ⟨rfl, fun id => ⟨rfl, fun now => ?_⟩⟩
    intro planned among
    obtain rfl := List.mem_singleton.mp among
    rfl

/-- The event of a require is no cut's. -/
theorem kinds_of_planDependencyEvent (entry : SpecVersionMeta) (endpoints : List (String × String))
    (stream : ResolvedStream) (events : Calls) :
    (planDependencyEvent deployment params entry endpoints stream).Along
      (fun _ request => request.readsOnly = true)
      (fun _ outbox => ∀ event ∈ outbox, event.eventType = .dependencyRecorded) (fun _ _ => True)
      events := by
  have none : ∀ event ∈ ([] : List NewWebhookEvent), event.eventType = .dependencyRecorded :=
    fun event among => absurd among List.not_mem_nil
  unfold planDependencyEvent
  split
  · refine ((reads_heldEdges params entry stream events).mono (fun _ _ reads => reads)
      (fun _ _ held => held) fun _ _ _ => trivial).seq fun later held _ _ => ?_
    dsimp only
    split
    · exact none
    · exact (kinds_of_planEvent _ _ _ later).seq fun _ event _ kinds => kinds
  · exact none

/-- Pins that are recorded for a tagged build go into its branch. -/
theorem into_recordPins {stream : ResolvedStream} {branch : BranchInfo}
    (tagged : stream.branch = some branch) (entry : SpecVersionMeta)
    (endpoints : List (String × String)) :
    (recordPins deployment params entry endpoints stream).Only (Into branch.id) fun _ _ => True := by
  have clocks : nowIso.Only (Into branch.id) fun _ _ => True := only_nowIso (.inl rfl)
  have records : ∀ clientId, (recordStreamPins clientId entry endpoints stream).Only (Into branch.id)
      fun _ _ => True := by
    intro clientId
    unfold recordStreamPins
    rw [tagged]
    exact clocks.bind fun now => into_repo (.pins _)
  unfold recordPins
  split
  · exact .done ()
  · intro events
    refine ((kinds_of_planDependencyEvent entry endpoints stream events).mono
      (fun _ _ reads => .inl reads) (fun _ _ held => held) fun _ _ failed => failed).seq
        fun later outbox _ quiet => ?_
    have rest : ∀ clientId, ((repo (.recordDependenciesBulk (dependencyRows clientId entry endpoints)
        outbox)).bind fun _ => nowIso.bind fun now => (repo (.touchSpecVersionRequired entry.id now)).bind
          fun _ => recordStreamPins clientId entry endpoints stream).Only (Into branch.id)
            fun _ _ => True :=
      fun clientId => (into_repo (.dependencies _ outbox quiet)).bind fun _ => clocks.bind fun now =>
        (into_repo (.required entry.id now)).bind fun _ => records clientId
    exact ((into_repo (.client params.consumername)).bind fun clientId => rest clientId) later

theorem into_resolvePin (producername : String) (apiType : ApiType) (version : SemVer) :
    (resolvePin producername apiType version).Only (Into branchId) fun _ _ => True := by
  refine (into_of_reads (reads_repo rfl)).bind fun found => ?_
  cases found with
  | none => exact .fail fun _ => trivial
  | some serviceId =>
      refine (into_of_reads (reads_repo rfl)).bind fun entry => ?_
      cases entry with
      | none => exact .fail fun _ => trivial
      | some entry => exact .done _

/-- A require whose tag stands for a branch asks of the store what a require into it may. -/
theorem requireBundle_into (endpoints : List (String × String)) :
    ∃ rest, requireBundle deployment forms params endpoints =
        (resolveStream params.trunk params.tag).bind rest ∧
      ∀ stream branch, stream.branch = some branch →
        (rest stream).Only (Into branch.id) fun _ _ => True := by
  refine ⟨_, rfl, fun stream branch tagged => ?_⟩
  split
  · exact .fail fun _ => trivial
  · refine (into_resolvePin _ _ _).bind fun found => ?_
    refine (into_of_reads (reads_repo rfl)).bind fun bulk => ?_
    dsimp only
    split
    · exact .fail fun _ => trivial
    · refine Program.Only.bind ?_ fun yaml => (into_recordPins tagged _ _).bind fun _ => .done _
      unfold bundleAnswer
      split
      · exact .ofExcept fun _ _ _ => trivial
      · exact .ofExcept fun _ _ _ => trivial
      · exact .done _

theorem requireEndpoint_into (path method : String) :
    ∃ rest, requireEndpoint deployment forms params path method =
        (resolveStream params.trunk params.tag).bind rest ∧
      ∀ stream branch, stream.branch = some branch →
        (rest stream).Only (Into branch.id) fun _ _ => True := by
  refine ⟨_, rfl, fun stream branch tagged => ?_⟩
  refine (into_resolvePin _ _ _).bind fun found => ?_
  refine (into_of_reads (reads_repo rfl)).bind fun endpoint => ?_
  cases endpoint with
  | none => exact .fail fun _ => trivial
  | some endpoint =>
      refine Program.Only.bind ?_ fun yaml => (into_recordPins tagged _ _).bind fun _ => .done _
      unfold endpointAnswer
      split
      · exact .done _
      · exact .ofExcept fun _ _ _ => trivial

end Requires

end Sanshain.Guarantees
