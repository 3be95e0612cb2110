import Sanshain.Guarantees.Operators
import Sanshain.Guarantees.Runs

namespace Sanshain.Guarantees

open Sanshain.Data Sanshain.Domain Sanshain.Effects Sanshain.Application Sanshain.Infrastructure

/-- The open resources of a system. -/
def openPeriphery (store : Store) (system : String) : List PeripheryRow :=
  store.periphery.filter fun row => row.system = system ∧ row.validTo = none

def contextOf (store : Store) (system : String) : Option SystemContext :=
  store.systemContexts.get? system

/-- The resources that are not in a branch. -/
def inStreams (row : PeripheryRow) : Bool := row.track = .dev || row.track = .trunk

def Participant (store : Store) (system : String) : Prop :=
  system ∈ store.listProducers ∨ system ∈ store.listConsumers

/-- Nothing of the system is open in dev or trunk, and its context is not told. -/
structure Forgotten (store : Store) (system : String) : Prop where
  periphery : ∀ row ∈ openPeriphery store system, inStreams row = false
  context : contextOf store system = none

structure Untouched (before after : Store) (system : String) : Prop where
  periphery : openPeriphery after system = openPeriphery before system
  context : contextOf after system = contextOf before system

/-- Who has departed leaves nothing behind, and the others keep what they have. -/
structure DepartsClean (before after : Store) : Prop where
  departed : ∀ system, Participant before system → ¬ Participant after system → Forgotten after system
  kept : ∀ system, Participant after system ∨ ¬ Participant before system →
    Untouched before after system

/-- A Consumer, and no Producer, that depends on nothing but this Producer. -/
structure Stranded (store : Store) (service : ServiceRow) (system : String) : Prop where
  consumer : system ∈ store.listConsumers
  noProducer : system ∉ store.listProducers
  dependent : ∀ client ∈ store.clients, client.2 = system → ∀ row ∈ store.dependencies,
    row.params.clientId = client.1 → ∃ version ∈ store.specVersions,
      version.entry.id = row.params.specVersionId ∧ version.entry.serviceId = service.id

/-- The Consumers that depend on nothing but a deleted Producer have nothing open, and neither has
a deleted client that is no participant. -/
def CatalogSafe (store : Store) : Operation → Prop
  | .act (.deleteProducer name) => ∀ service, store.serviceNamed? name = some service →
      ∀ system, Stranded store service system → Forgotten store system
  | .deleteConsumer name =>
      (store.clientNamed? name).isSome → ¬ Participant store name → Forgotten store name
  | _ => True

/-- The operations that delete participants. -/
def deletesParticipants : Operation → Bool
  | .act (.deleteProducer _) | .deleteConsumer _ | .deleteAllServices | .deleteAllClients => true
  | _ => false

section Forgetting

/-- What is forgotten of the systems that leave, and what stays of the store. -/
structure Forgetting (leaves : String → Prop) (before after : Store) : Prop where
  services : after.services = before.services
  clients : after.clients = before.clients
  dependencies : after.dependencies = before.dependencies
  periphery : ∀ system, leaves system →
    openPeriphery after system = (openPeriphery before system).filter fun row => !inStreams row
  context : ∀ system, leaves system → contextOf after system = none
  kept : ∀ system, ¬ leaves system → Untouched before after system

variable {before middle after : Store} {leaves later : String → Prop}

theorem Forgetting.refl (none : ∀ system, ¬ leaves system) : Forgetting leaves before before where
  services := rfl
  clients := rfl
  dependencies := rfl
  periphery system left := absurd left (none system)
  context system left := absurd left (none system)
  kept _ _ := ⟨rfl, rfl⟩

theorem Forgetting.trans (first : Forgetting leaves before middle)
    (second : Forgetting later middle after) :
    Forgetting (fun system => leaves system ∨ later system) before after where
  services := second.services.trans first.services
  clients := second.clients.trans first.clients
  dependencies := second.dependencies.trans first.dependencies
  periphery := by
    intro system left
    by_cases again : later system
    · rw [second.periphery system again]
      by_cases once : leaves system
      · rw [first.periphery system once, List.filter_filter]
        simp
      · rw [(first.kept system once).periphery]
    · rw [(second.kept system again).periphery]
      exact first.periphery system (left.resolve_right again)
  context := by
    intro system left
    by_cases again : later system
    · exact second.context system again
    · rw [(second.kept system again).context]
      exact first.context system (left.resolve_right again)
  kept := by
    intro system stays
    obtain ⟨one, other⟩ := not_or.mp stays
    have earlier := first.kept system one
    have last := second.kept system other
    exact ⟨last.periphery.trans earlier.periphery, last.context.trans earlier.context⟩

theorem Forgetting.congr (forgetting : Forgetting leaves before after)
    (same : ∀ system, leaves system ↔ later system) : Forgetting later before after := by
  have equal : leaves = later := funext fun system => propext (same system)
  rwa [← equal]

theorem Forgetting.participant (forgetting : Forgetting leaves before after) (system : String) :
    Participant after system ↔ Participant before system := by
  simp only [Participant, Store.listProducers, Store.listConsumers, forgetting.services,
    forgetting.clients, forgetting.dependencies]

theorem Forgetting.forgotten (forgetting : Forgetting leaves before after) {system : String}
    (left : leaves system) : Forgotten after system where
  periphery row among := by
    rw [forgetting.periphery system left, List.mem_filter] at among
    simpa using among.2
  context := forgetting.context system left

/-- What was forgotten before is not touched by forgetting it. -/
theorem Forgetting.untouched (forgetting : Forgetting leaves before after) {system : String}
    (nothing : Forgotten before system) : Untouched before after system := by
  by_cases left : leaves system
  · constructor
    · rw [forgetting.periphery system left, List.filter_eq_self]
      intro row among
      simp [nothing.periphery row among]
    · rw [forgetting.context system left, nothing.context]
  · exact forgetting.kept system left

/-- A rewriting that leaves alone what is kept, and adds nothing to it. -/
theorem filter_map_settled {Row : Type} {rows : List Row} {keep : Row → Bool} {change : Row → Row}
    (same : ∀ row, keep (change row) = true → change row = row) (kept : Row → Bool)
    (stays : ∀ row, keep (change row) = (keep row && kept row)) :
    (rows.map change).filter keep = (rows.filter keep).filter kept := by
  induction rows with
  | nil => rfl
  | cons row rest ih =>
      rw [List.map_cons, List.filter_filter, List.filter_cons, List.filter_cons, stays row, ih,
        List.filter_filter, Bool.and_comm]
      split
      · rename_i holds
        rw [same row (by rw [stays row, Bool.and_comm]; exact holds)]
      · rfl

end Forgetting

section Runs

variable {environment : Environment} {world after : World}

/-- Closing what a system holds in one track leaves everything else of the open rows. -/
theorem open_reconcileTrack (rows : List PeripheryRow) (system other : String) (now : Instant)
    (track : PeripheryTrack) :
    (Store.reconcileTrack system [] now rows track).filter
        (fun row => decide (row.system = other ∧ row.validTo = none)) =
      (rows.filter fun row => decide (row.system = other ∧ row.validTo = none)).filter
        fun row => !decide (row.track = track ∧ row.system = system) := by
  unfold Store.reconcileTrack
  simp only [List.filter_nil, List.dedup_nil, List.map_nil, List.append_nil, List.not_mem_nil,
    not_false_eq_true, and_true]
  apply filter_map_settled
  · intro row stays
    split
    · rename_i closes
      rw [if_pos closes] at stays
      simp at stays
    · rfl
  · intro row
    by_cases closes : row.track = track ∧ row.system = system ∧ row.validTo = none
    · rw [if_pos closes]
      simp [closes.1, closes.2.1]
    · rw [if_neg closes]
      by_cases opened : row.validTo = none
      · simp [opened] at closes ⊢
        tauto
      · simp [opened]

/-- Forgetting a system closes what it holds in dev and trunk, and takes its context. -/
theorem ran_forgetSystem {now : Instant} {system : String}
    (ran : (forgetSystem now system).run (World.handle environment) world = some (.ok (), after)) :
    Forgetting (· = system) world.store after.store := by
  obtain ⟨changed, middle, closed, deleted⟩ := Program.run_bind_ok ran
  obtain ⟨_, reconciled, closes⟩ := ran_repo closed
  obtain ⟨_, -, forgets⟩ := ran_repo deleted
  change (Store.tried _ (Store.reconcilePeriphery _ _ _ _ _ _)).2 = _ at reconciled
  change middle.store = (Store.tried _ (Store.reconcilePeriphery _ _ _ _ _ _)).1 at closes
  change after.store = middle.store.deleteSystemContext system at forgets
  have rows : middle.store = { world.store with
      periphery := (Store.peripheryTracks true).foldl (Store.reconcileTrack system [] now)
        world.store.periphery } := by
    rw [closes]
    rfl
  have opened : ∀ other, openPeriphery after.store other =
      (openPeriphery world.store other).filter
        fun row => !decide (row.system = system) || !inStreams row := by
    intro other
    have kept : after.store.periphery = Store.reconcileTrack system [] now
        (Store.reconcileTrack system [] now world.store.periphery .dev) .trunk := by
      rw [forgets]
      change middle.store.periphery = _
      rw [rows]
      rfl
    rw [openPeriphery, kept, open_reconcileTrack, open_reconcileTrack, List.filter_filter,
      List.filter_filter, openPeriphery, List.filter_filter]
    apply List.filter_congr
    intro row _
    by_cases mine : row.system = system <;> simp [mine, inStreams, Bool.and_comm]
  have told : after.store.systemContexts =
      world.store.systemContexts.filter (·.1 ≠ system) := by
    rw [forgets]
    change middle.store.systemContexts.filter _ = _
    rw [rows]
  constructor
  · rw [forgets]
    change middle.store.services = _
    rw [rows]
  · rw [forgets]
    change middle.store.clients = _
    rw [rows]
  · rw [forgets]
    change middle.store.dependencies = _
    rw [rows]
  · rintro other rfl
    rw [opened]
    apply List.filter_congr
    intro row among
    have mine : row.system = other := by
      have fits := (List.mem_filter.mp among).2
      simp only [decide_eq_true_eq] at fits
      exact fits.1
    simp [mine]
  · rintro other rfl
    rw [contextOf, told, Entries.get?, Option.map_eq_none_iff, List.find?_eq_none]
    intro entry among
    simpa using (List.mem_filter.mp among).2
  · intro other away
    constructor
    · rw [opened, List.filter_eq_self]
      intro row among
      have theirs := (List.mem_filter.mp among).2
      simp only [decide_eq_true_eq] at theirs
      simp [theirs.1, away]
    · rw [contextOf, contextOf, told, Entries.get?, Entries.get?, List.find?_filter]
      congr 1
      apply List.find?_congr
      intro entry _
      by_cases same : entry.1 = other <;> simp [same, away]

theorem mem_participants {names : List String} {middle : World}
    (ran : participants.run (World.handle environment) world = some (.ok names, middle)) :
    middle.store = world.store ∧ ∀ system, system ∈ names ↔ Participant world.store system := by
  obtain ⟨producers, second, first, ran⟩ := Program.run_bind_ok ran
  obtain ⟨consumers, third, next, ran⟩ := Program.run_bind_ok ran
  obtain ⟨⟨_, listed⟩, same⟩ := ran_reading rfl first
  obtain ⟨⟨_, listed'⟩, same'⟩ := ran_reading rfl next
  cases ran
  cases listed
  cases listed'
  refine ⟨same'.trans same, fun system => ?_⟩
  rw [Document.OpenApiDocument.sortedSet, List.mem_insertionSort, List.mem_dedup, List.mem_append,
    same]
  exact Iff.rfl

/-- The candidates that are no participants are forgotten, and nobody else. -/
theorem ran_closeCatalogOfDeparted {candidates : List String}
    (ran : (closeCatalogOfDeparted candidates).run (World.handle environment) world =
      some (.ok (), after)) :
    Forgetting (fun system => system ∈ candidates ∧ ¬ Participant world.store system) world.store
      after.store := by
  obtain ⟨remaining, second, first, ran⟩ := Program.run_bind_ok ran
  obtain ⟨now, third, clocked, ran⟩ := Program.run_bind_ok ran
  obtain ⟨same, listed⟩ := mem_participants first
  have looped := Program.run_forEach_ok
    (fun elements (before : World) (later : World) =>
      Forgetting (fun system => system ∈ elements ∧ system ∉ remaining) before.store later.store)
    (fun _ => .refl (by simp)) ?_ ran
  · rw [ran_nowIso clocked, same] at looped
    exact looped.congr fun system => by rw [listed]
  · intro element rest state middle last ran forgetting
    split at ran
    · rename_i remains
      cases ran
      apply forgetting.congr
      intro system
      constructor
      · exact fun left => ⟨List.mem_cons_of_mem _ left.1, left.2⟩
      · rintro ⟨among, gone⟩
        rcases List.mem_cons.mp among with rfl | behind
        · exact absurd remains gone
        · exact ⟨behind, gone⟩
    · rename_i gone
      apply ((ran_forgetSystem ran).trans forgetting).congr
      intro system
      constructor
      · rintro (rfl | left)
        · exact ⟨List.mem_cons_self, gone⟩
        · exact ⟨List.mem_cons_of_mem _ left.1, left.2⟩
      · rintro ⟨among, left⟩
        rcases List.mem_cons.mp among with rfl | behind
        · exact .inl rfl
        · exact .inr ⟨behind, left⟩

/-- What a removal that touches no catalog, and forgetting the departed among its candidates, leaves
is clean where the candidates are all that departed, and no candidate was without a role. -/
theorem clean_of_forgetting {before removed final : Store} {candidates : List String}
    (forgetting : Forgetting (fun system => system ∈ candidates ∧ ¬ Participant removed system)
      removed final)
    (catalog : ∀ system, Untouched before removed system)
    (others : ∀ system, Participant before system → ¬ Participant removed system →
      system ∉ candidates → Forgotten before system)
    (roles : ∀ system ∈ candidates, ¬ Participant removed system → ¬ Participant before system →
      Forgotten before system) : DepartsClean before final where
  departed := by
    intro system was gone
    rw [forgetting.participant] at gone
    by_cases candidate : system ∈ candidates
    · exact forgetting.forgotten ⟨candidate, gone⟩
    · have nothing := others system was gone candidate
      have kept := forgetting.kept system fun left => candidate left.1
      constructor
      · rw [kept.periphery, (catalog system).periphery]
        exact nothing.periphery
      · rw [kept.context, (catalog system).context]
        exact nothing.context
  kept := by
    intro system stays
    rw [forgetting.participant] at stays
    have still : Untouched removed final system := by
      by_cases left : system ∈ candidates ∧ ¬ Participant removed system
      · apply forgetting.untouched
        have never := stays.resolve_left left.2
        have nothing := roles system left.1 left.2 never
        constructor
        · rw [(catalog system).periphery]
          exact nothing.periphery
        · rw [(catalog system).context]
          exact nothing.context
      · exact forgetting.kept system left
    exact ⟨still.periphery.trans (catalog system).periphery,
      still.context.trans (catalog system).context⟩

end Runs

section Participants

variable {database : Database} {name system : String}

theorem mem_listProducers {store : Store} :
    system ∈ store.listProducers ↔ ∃ service ∈ store.services, service.name = system := by
  rw [Store.listProducers, List.mem_insertionSort, List.mem_map]

theorem mem_listConsumers {store : Store} :
    system ∈ store.listConsumers ↔ ∃ client ∈ store.clients, client.2 = system ∧
      ∃ row ∈ store.dependencies, row.params.clientId = client.1 := by
  rw [Store.listConsumers, List.mem_insertionSort, List.mem_map]
  constructor
  · rintro ⟨client, held, rfl⟩
    obtain ⟨among, depends⟩ := List.mem_filter.mp held
    obtain ⟨row, there, same⟩ := List.any_eq_true.mp depends
    exact ⟨client, among, rfl, row, there, of_decide_eq_true same⟩
  · rintro ⟨client, among, rfl, row, there, same⟩
    exact ⟨client, List.mem_filter.mpr ⟨among, List.any_eq_true.mpr ⟨row, there, by simp [same]⟩⟩, rfl⟩

/-- A Producer is a participant no more, and neither is who depended on it alone. -/
theorem participant_deleteProducer {service : ServiceRow} (now : Instant)
    (found : database.store.serviceNamed? name = some service) (other : system ≠ name) :
    (Participant database.store system ∧
        ¬ Participant (database.store.deleteProducer now name).1 system) ↔
      Stranded database.store service system := by
  have named := (Store.mem_of_serviceNamed? found).2
  have removed : (database.store.deleteProducer now name).1.services =
      database.store.services.filter (·.id ≠ service.id) := by
    rw [Store.deleteProducer, found]
  have clients : (database.store.deleteProducer now name).1.clients = database.store.clients := by
    rw [Store.deleteProducer, found]
  have dependencies : (database.store.deleteProducer now name).1.dependencies =
      database.store.dependencies.filter (·.params.specVersionId ∉
        (database.store.specVersions.filter (·.entry.serviceId = service.id)).map (·.entry.id)) := by
    rw [Store.deleteProducer, found]
  have producers : system ∈ (database.store.deleteProducer now name).1.listProducers ↔
      system ∈ database.store.listProducers := by
    rw [mem_listProducers, mem_listProducers, removed]
    constructor
    · rintro ⟨row, held, rfl⟩
      exact ⟨row, (List.mem_filter.mp held).1, rfl⟩
    · rintro ⟨row, held, rfl⟩
      refine ⟨row, List.mem_filter.mpr ⟨held, ?_⟩, rfl⟩
      rw [decide_eq_true_iff]
      intro same
      have one := List.inj_on_of_nodup_map database.sound.serviceIds held
        (Store.mem_of_serviceNamed? found).1 same
      exact other (one ▸ named)
  have gone : ∀ row : DependencyRow, row.params.specVersionId ∈
        (database.store.specVersions.filter (·.entry.serviceId = service.id)).map (·.entry.id) ↔
      ∃ version ∈ database.store.specVersions, version.entry.id = row.params.specVersionId ∧
        version.entry.serviceId = service.id := by
    intro row
    simp only [List.mem_map, List.mem_filter, decide_eq_true_eq]
    exact ⟨fun ⟨version, held, same⟩ => ⟨version, held.1, same, held.2⟩,
      fun ⟨version, held, same, own⟩ => ⟨version, ⟨held, own⟩, same⟩⟩
  constructor
  · rintro ⟨was, is⟩
    obtain ⟨noProducer, noConsumer⟩ := not_or.mp is
    rw [producers] at noProducer
    refine ⟨was.resolve_left noProducer, noProducer, ?_⟩
    intro client among same row held own
    rw [← gone row]
    by_contra kept
    apply noConsumer
    rw [mem_listConsumers, clients, dependencies]
    exact ⟨client, among, same, row, List.mem_filter.mpr ⟨held, by simpa using kept⟩, own⟩
  · intro stranded
    refine ⟨.inr stranded.consumer, ?_⟩
    rintro (produces | consumes)
    · exact stranded.noProducer (producers.mp produces)
    · rw [mem_listConsumers, clients, dependencies] at consumes
      obtain ⟨client, among, same, row, kept, own⟩ := consumes
      obtain ⟨held, stays⟩ := List.mem_filter.mp kept
      rw [decide_eq_true_iff] at stays
      exact stays ((gone row).mpr (stranded.dependent client among same row held own))

/-- A deleted client takes nobody else along. -/
theorem participant_deleteConsumer {client : Nat × String} (now : Instant)
    (found : database.store.clientNamed? name = some client) (other : system ≠ name) :
    Participant (database.store.deleteConsumer now name).1 system ↔
      Participant database.store system := by
  have among := List.mem_of_find?_eq_some found
  have named : client.2 = name := by simpa using List.find?_some found
  have services : (database.store.deleteConsumer now name).1.services = database.store.services := by
    rw [Store.deleteConsumer, found]
  have clients : (database.store.deleteConsumer now name).1.clients =
      database.store.clients.filter (·.1 ≠ client.1) := by
    rw [Store.deleteConsumer, found]
  have dependencies : (database.store.deleteConsumer now name).1.dependencies =
      database.store.dependencies.filter (·.params.clientId ≠ client.1) := by
    rw [Store.deleteConsumer, found]
  have consumers : system ∈ (database.store.deleteConsumer now name).1.listConsumers ↔
      system ∈ database.store.listConsumers := by
    rw [mem_listConsumers, mem_listConsumers, clients, dependencies]
    constructor
    · rintro ⟨one, held, same, row, there, own⟩
      exact ⟨one, (List.mem_filter.mp held).1, same, row, (List.mem_filter.mp there).1, own⟩
    · rintro ⟨one, held, same, row, there, own⟩
      have away : one.1 ≠ client.1 := by
        intro equal
        have both := List.inj_on_of_nodup_map database.linked.clientIds held among equal
        exact other (by rw [← same, both, named])
      exact ⟨one, List.mem_filter.mpr ⟨held, by simpa using away⟩, same, row,
        List.mem_filter.mpr ⟨there, by simpa [own] using away⟩, own⟩
  simp only [Participant, Store.listProducers, services]
  exact or_congr Iff.rfl consumers

end Participants

section Deletes

variable {setup : Setup} {environment : Environment} {world after : World}

/-- A delete that answers Ok has removed the participant, and forgets it if it has no other role. -/
theorem ran_removeParticipant {name : String} {role : ParticipantRole} {remove : UseCase Bool}
    {deleted : Bool}
    (ran : (removeParticipant name role remove).run (World.handle environment) world =
      some (.ok deleted, after)) :
    ∃ checked removed : World, checked.store = world.store ∧
      remove.run (World.handle environment) checked = some (.ok deleted, removed) ∧
      (deleted = false ∧ after.store = removed.store ∨
        deleted = true ∧ Forgetting (fun system => system ∈ [name] ∧
          ¬ Participant removed.store system) removed.store after.store) := by
  obtain ⟨_, checked, refused, ran⟩ := Program.run_bind_ok ran
  obtain ⟨deleted', removed, removes, ran⟩ := Program.run_bind_ok ran
  have same := ran_only_reads (only_refuseIfAReleaseGraphNeedsIt name role) refused
  refine ⟨checked, removed, same, ?_⟩
  cases deleted' with
  | false =>
      cases ran
      exact ⟨removes, .inl ⟨rfl, rfl⟩⟩
  | true =>
      obtain ⟨_, forgotten, closed, ran⟩ := Program.run_bind_ok ran
      cases ran
      exact ⟨removes, .inr ⟨rfl, ran_closeCatalogOfDeparted closed⟩⟩

theorem clean_of_same {before final : Store} (same : final = before) : DepartsClean before final := by
  subst same
  exact ⟨fun _ was gone => absurd was gone, fun _ _ => ⟨rfl, rfl⟩⟩

/-- The dependents of a deleted Producer are the others that may depart. -/
theorem deleteProducer_clean_iff {name : String} {deleted : Bool}
    (ran : (Application.deleteProducer name).run (World.handle environment) world =
      some (.ok deleted, after)) :
    DepartsClean world.store after.store ↔ CatalogSafe world.store (.act (.deleteProducer name)) := by
  obtain ⟨checked, removed, same, removes, ended⟩ := ran_removeParticipant ran
  obtain ⟨now, answered, performed⟩ := ran_repo removes
  change Except.ok (checked.store.deleteProducer now name).2 = .ok deleted at answered
  change removed.store = (checked.store.deleteProducer now name).1 at performed
  rw [same] at answered performed
  cases found : world.store.serviceNamed? name with
  | none =>
      have unchanged : world.store.deleteProducer now name = (world.store, false) := by
        rw [Store.deleteProducer, found]
      rw [unchanged] at answered performed
      cases answered
      obtain ⟨-, kept⟩ | ⟨done, -⟩ := ended
      · refine ⟨fun _ service known => ?_, fun _ => clean_of_same (kept.trans performed)⟩
        rw [found] at known
        cases known
      · cases done
  | some service =>
      have done : deleted = true := by
        rw [Store.deleteProducer, found] at answered
        cases answered
        rfl
      have forgetting : Forgetting (fun system => system ∈ [name] ∧
          ¬ Participant (world.store.deleteProducer now name).1 system)
          (world.store.deleteProducer now name).1 after.store := by
        obtain ⟨undone, -⟩ | ⟨-, forgetting⟩ := ended
        · rw [done] at undone
          cases undone
        · rwa [performed] at forgetting
      have catalog : ∀ system, Untouched world.store (world.store.deleteProducer now name).1 system := by
        intro system
        rw [Store.deleteProducer, found]
        exact ⟨rfl, rfl⟩
      have produces : name ∈ world.store.listProducers :=
        mem_listProducers.mpr ⟨service, Store.mem_of_serviceNamed? found⟩
      have stranding : ∀ system, system ≠ name →
          ((Participant world.store system ∧
              ¬ Participant (world.store.deleteProducer now name).1 system) ↔
            Stranded world.store service system) := fun system other =>
        @participant_deleteProducer world.database name system service now found other
      constructor
      · intro clean service' known system stranded
        rw [found] at known
        cases known
        have other : system ≠ name := fun equal => stranded.noProducer (equal ▸ produces)
        obtain ⟨was, gone⟩ := (stranding system other).mpr stranded
        have nothing := clean.departed system was fun still =>
          gone ((forgetting.participant system).mp still)
        have kept := forgetting.kept system fun left => other (List.mem_singleton.mp left.1)
        constructor
        · rw [← (catalog system).periphery, ← kept.periphery]
          exact nothing.periphery
        · rw [← (catalog system).context, ← kept.context]
          exact nothing.context
      · intro safe
        refine clean_of_forgetting forgetting catalog ?_ ?_
        · intro system was gone other
          have away : system ≠ name := fun equal => other (equal ▸ List.mem_singleton_self _)
          exact safe service found system ((stranding system away).mp ⟨was, gone⟩)
        · intro system among _ never
          rw [List.mem_singleton.mp among] at never
          exact absurd (.inl produces) never

theorem deleteConsumer_clean_iff {name : String} {deleted : Bool}
    (ran : (Application.deleteConsumer name).run (World.handle environment) world =
      some (.ok deleted, after)) :
    DepartsClean world.store after.store ↔ CatalogSafe world.store (.deleteConsumer name) := by
  obtain ⟨checked, removed, same, removes, ended⟩ := ran_removeParticipant ran
  obtain ⟨now, answered, performed⟩ := ran_repo removes
  change Except.ok (checked.store.deleteConsumer now name).2 = .ok deleted at answered
  change removed.store = (checked.store.deleteConsumer now name).1 at performed
  rw [same] at answered performed
  cases found : world.store.clientNamed? name with
  | none =>
      have unchanged : world.store.deleteConsumer now name = (world.store, false) := by
        rw [Store.deleteConsumer, found]
      rw [unchanged] at answered performed
      cases answered
      obtain ⟨-, kept⟩ | ⟨done, -⟩ := ended
      · refine ⟨fun _ known => ?_, fun _ => clean_of_same (kept.trans performed)⟩
        rw [found] at known
        cases known
      · cases done
  | some client =>
      have done : deleted = true := by
        rw [Store.deleteConsumer, found] at answered
        cases answered
        rfl
      have forgetting : Forgetting (fun system => system ∈ [name] ∧
          ¬ Participant (world.store.deleteConsumer now name).1 system)
          (world.store.deleteConsumer now name).1 after.store := by
        obtain ⟨undone, -⟩ | ⟨-, forgetting⟩ := ended
        · rw [done] at undone
          cases undone
        · rwa [performed] at forgetting
      have catalog : ∀ system, Untouched world.store (world.store.deleteConsumer now name).1 system := by
        intro system
        rw [Store.deleteConsumer, found]
        exact ⟨rfl, rfl⟩
      have others : ∀ system, system ≠ name →
          (Participant (world.store.deleteConsumer now name).1 system ↔
            Participant world.store system) := fun system other =>
        @participant_deleteConsumer world.database name system client now found other
      have shrinks : Participant (world.store.deleteConsumer now name).1 name →
          Participant world.store name := by
        rw [Store.deleteConsumer, found]
        rintro (produces | consumes)
        · exact .inl produces
        · obtain ⟨one, held, same, row, there, own⟩ := mem_listConsumers.mp consumes
          exact .inr (mem_listConsumers.mpr ⟨one, (List.mem_filter.mp held).1, same, row,
            (List.mem_filter.mp there).1, own⟩)
      constructor
      · intro clean _ never
        have gone : ¬ Participant (world.store.deleteConsumer now name).1 name :=
          fun still => never (shrinks still)
        have nothing := forgetting.forgotten ⟨List.mem_singleton_self name, gone⟩
        have kept := clean.kept name (.inr never)
        constructor
        · rw [← kept.periphery]
          exact nothing.periphery
        · rw [← kept.context]
          exact nothing.context
      · intro safe
        refine clean_of_forgetting forgetting catalog ?_ ?_
        · intro system was gone other
          have away : system ≠ name := fun equal => other (equal ▸ List.mem_singleton_self _)
          exact absurd ((others system away).mpr was) gone
        · intro system among _ never
          rw [List.mem_singleton.mp among] at never ⊢
          exact safe (by simp [found]) never

/-- A sweep forgets everyone it sends away. -/
theorem clean_of_sweep {before removed final : Store} {names : List String}
    (listed : ∀ system, system ∈ names ↔ Participant before system)
    (catalog : ∀ system, Untouched before removed system)
    (forgetting : Forgetting (fun system => system ∈ names ∧ ¬ Participant removed system) removed
      final) : DepartsClean before final := by
  refine clean_of_forgetting forgetting catalog ?_ ?_
  · intro system was _ other
    exact absurd ((listed system).mpr was) other
  · intro system among _ never
    exact absurd ((listed system).mp among) never

theorem deleteAllServices_clean {count : Nat}
    (ran : Application.deleteAllServices.run (World.handle environment) world =
      some (.ok count, after)) : DepartsClean world.store after.store := by
  obtain ⟨names, read, first, ran⟩ := Program.run_bind_ok ran
  obtain ⟨deleted, removed, removes, ran⟩ := Program.run_bind_ok ran
  obtain ⟨_, forgotten, closed, ran⟩ := Program.run_bind_ok ran
  cases ran
  obtain ⟨same, listed⟩ := mem_participants first
  obtain ⟨now, -, performed⟩ := ran_repo removes
  rw [same] at performed
  refine clean_of_sweep listed (fun system => ?_) (ran_closeCatalogOfDeparted closed)
  rw [performed]
  exact ⟨rfl, rfl⟩

theorem deleteAllClients_clean {count : Nat}
    (ran : Application.deleteAllClients.run (World.handle environment) world =
      some (.ok count, after)) : DepartsClean world.store after.store := by
  obtain ⟨names, read, first, ran⟩ := Program.run_bind_ok ran
  obtain ⟨deleted, removed, removes, ran⟩ := Program.run_bind_ok ran
  obtain ⟨_, forgotten, closed, ran⟩ := Program.run_bind_ok ran
  cases ran
  obtain ⟨same, listed⟩ := mem_participants first
  obtain ⟨now, -, performed⟩ := ran_repo removes
  rw [same] at performed
  refine clean_of_sweep listed (fun system => ?_) (ran_closeCatalogOfDeparted closed)
  rw [performed]
  exact ⟨rfl, rfl⟩

/-- A delete that answers Ok leaves nothing of those who departed, and all of the others, exactly
when the Consumers that depended on the deleted Producer alone had nothing open, and neither had a
deleted client that was no participant. -/
theorem departed_leave_nothing_iff (operation : Operation)
    (deletes : deletesParticipants operation = true) {reply : Reply}
    (ran : (operation.program setup.deployment setup.forms setup.format).run
      (World.handle environment) world = some (.ok reply, after)) :
    DepartsClean world.store after.store ↔ CatalogSafe world.store operation := by
  cases operation with
  | act action =>
      cases action with
      | deleteProducer name =>
          obtain ⟨outcome, _, ran, last⟩ := Program.run_bind_ok ran
          obtain ⟨deleted, _, ran, done⟩ := Program.run_bind_ok ran
          cases last
          cases done
          exact deleteProducer_clean_iff ran
      | _ => cases deletes
  | deleteConsumer name =>
      obtain ⟨deleted, _, ran, last⟩ := Program.run_bind_ok ran
      cases last
      exact deleteConsumer_clean_iff ran
  | deleteAllServices =>
      obtain ⟨count, _, ran, last⟩ := Program.run_bind_ok ran
      cases last
      exact ⟨fun _ => trivial, fun _ => deleteAllServices_clean ran⟩
  | deleteAllClients =>
      obtain ⟨count, _, ran, last⟩ := Program.run_bind_ok ran
      cases last
      exact ⟨fun _ => trivial, fun _ => deleteAllClients_clean ran⟩
  | _ => cases deletes

end Deletes

section Examples

/-- A Consumer that depends on one Producer and has declared a resource of its own. -/
def shopDatabase : Database :=
  [(1, .ensureService "p"),
    (2, .upsertSpecVersion ⟨1, .proto, ⟨1, 0, 0⟩, .ga, "", "", "rel", none, 2, [], []⟩),
    (3, .ensureClient "shop"),
    (4, .recordDependenciesBulk [⟨1, 1, .proto, "/p.S/Get", "/p.S/Get", "RPC"⟩] []),
    (5, .reconcilePeriphery "shop" false ["db"] 5 [])].foldl Database.after .empty

def ranOnShop (operation : Operation) : Option (Except AppError Reply × World) :=
  (operation.program quietSetup.deployment quietSetup.forms quietSetup.format).run
    (World.handle steadyEnvironment) ⟨shopDatabase, 10⟩

theorem departed_leave_nothing_swept :
    ∃ reply after, ranOnShop .deleteAllServices = some (.ok reply, after) ∧
      DepartsClean shopDatabase.store after.store := by
  have ended : answeredWith (fun _ => true) (ranOnShop .deleteAllServices) = true := by
    decide +kernel
  obtain ⟨reply, after, ran, -⟩ := answeredWith_spec ended
  have safe : CatalogSafe shopDatabase.store .deleteAllServices := trivial
  exact ⟨reply, after, ran,
    (@departed_leave_nothing_iff quietSetup steadyEnvironment ⟨shopDatabase, 10⟩ after
      .deleteAllServices rfl reply ran).mpr safe⟩

def keepsShop (world : World) : Bool :=
  world.store.services.isEmpty && world.store.dependencies.isEmpty &&
    (openPeriphery world.store "shop").any inStreams

/-- The only dependent of a deleted Producer is no participant, and its resource stays open. -/
theorem stranded_system_left :
    ∃ reply after, ranOnShop (.act (.deleteProducer "p")) = some (.ok reply, after) ∧
      ¬ DepartsClean shopDatabase.store after.store := by
  have ended : answeredWith keepsShop (ranOnShop (.act (.deleteProducer "p"))) = true := by
    decide +kernel
  obtain ⟨reply, after, ran, kept⟩ := answeredWith_spec ended
  refine ⟨reply, after, ran, fun clean => ?_⟩
  simp only [keepsShop, Bool.and_eq_true, List.isEmpty_iff, List.any_eq_true] at kept
  obtain ⟨⟨services, dependencies⟩, row, held, inStream⟩ := kept
  have was : Participant shopDatabase.store "shop" := by
    refine .inr (mem_listConsumers.mpr ?_)
    decide +kernel
  have gone : ¬ Participant after.store "shop" := by
    rintro (produces | consumes)
    · obtain ⟨service, there, -⟩ := mem_listProducers.mp produces
      rw [services] at there
      cases there
    · obtain ⟨client, -, -, row, there, -⟩ := mem_listConsumers.mp consumes
      rw [dependencies] at there
      cases there
  have nothing := (clean.departed "shop" was gone).periphery row held
  rw [inStream] at nothing
  cases nothing

end Examples
end Sanshain.Guarantees
