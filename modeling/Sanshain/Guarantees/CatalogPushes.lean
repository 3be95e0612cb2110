import Sanshain.Application.CatalogPush
import Sanshain.Guarantees.Departures
import Sanshain.Infrastructure.Holdings

namespace Sanshain.Guarantees

open Sanshain.Application Sanshain.Data Sanshain.Document Sanshain.Domain Sanshain.Effects Sanshain.History
  Sanshain.Infrastructure Sanshain.Text
open Sanshain.Infrastructure.Store (peripheryTracks openResources holdings_reconciled heldBy_holdings
  mem_listPeriphery_at mem_listPeriphery_now)

/-- The database, and the icon and domain of each Producer. -/
abbrev CatalogState := World × Entries String (Option String × Option String)

/-- The Producers as the detailed list shows them. -/
def detailed (store : Store) (metadata : Entries String (Option String × Option String)) :
    List ProducerSummary :=
  store.listProducers.map fun name =>
    ⟨name, ((metadata.get? name).getD (none, none)).1, ((metadata.get? name).getD (none, none)).2⟩

/-- The calls on what is told of Producers; a fault answers an internal error and changes nothing. -/
def tellProducers (environment : Environment) : Handler CatalogState MetadataCall MetadataCall.Answer
  | (world, metadata), .listProducersDetailed =>
      ((⟨world.database, world.steps + 1⟩, metadata),
        match environment.fault world.steps with
        | some reason => .error (.internal reason)
        | none => .ok (detailed world.store metadata))
  | (world, metadata), .updateProducerMetadata serviceName icon domain =>
      match environment.fault world.steps with
      | some reason => ((⟨world.database, world.steps + 1⟩, metadata), .error (.internal reason))
      | none =>
          ((⟨world.database, world.steps + 1⟩,
            if serviceName ∈ world.store.listProducers then metadata.insert serviceName (icon, domain)
            else metadata), .ok ())

def handleCatalog (environment : Environment) :
    Handler CatalogState (Call ⊕ MetadataCall) (Sum.elim Call.Answer MetadataCall.Answer) :=
  (World.handle environment).onFirst.beside (tellProducers environment)

/-- The domain that is shown of a Producer. -/
def shownDomain (state : CatalogState) (system : String) : Option String :=
  ((detailed state.1.store state.2).find? (·.name = system)).bind (·.domain)

/-- What a track holds now. -/
def currentPeriphery (state : CatalogState) (track : PeripheryTrack) : Set PeripheralDependency :=
  {dependency | dependency ∈ state.1.store.listPeriphery track none}

/-- The dev set, the trunk set, the contexts and the domains are what they were. -/
structure SameCatalog (before after : CatalogState) : Prop where
  dev : currentPeriphery after .dev = currentPeriphery before .dev
  trunk : currentPeriphery after .trunk = currentPeriphery before .trunk
  context : ∀ system, contextOf after.1.store system = contextOf before.1.store system
  domain : ∀ system, shownDomain after system = shownDomain before system

/-- What an operation tells of the periphery: a push what it read, if it could, and a cleanup who
has left. -/
inductive CatalogAct where
  | pushed (system : String) (trunk : Bool) (refs : Option (List String))
  | departed (systems : List String)
  deriving DecidableEq, Repr

/-- The periphery that a push tells of. -/
def pushAct (readers : CatalogReaders) (system yaml : String) (trunk : Bool) : CatalogAct :=
  .pushed (trim system) trunk ((Backstage.readComponent readers yaml (trim system)).toOption.map peripheryRefs)

/-- What an operation says that a system holds in a track: the dev set is that of every push that
was read, the trunk set that of those from trunk, and who has left holds nothing. -/
def CatalogAct.declared (track : PeripheryTrack) (system : String) : CatalogAct → Option (List String)
  | .pushed pusher trunk refs =>
      if pusher = system ∧ (track = .dev ∨ trunk = true ∧ track = .trunk) then refs else none
  | .departed systems => if system ∈ systems then some [] else none

/-- What the last operation with a say on it says that a system holds; nothing before the first. -/
def lastSaid (track : PeripheryTrack) (system : String) (log : List (Instant × CatalogAct)) :
    List String :=
  (log.reverse.findSome? fun entry => entry.2.declared track system).getD []

/-- The operations since the table was blank, with their instants: pushes that are answered, cleanups
after a delete, and whatever else leaves the rows of dev and trunk alone. -/
inductive CatalogRun (environment : Environment) (deployment : Deployment) (readers : CatalogReaders) :
    List (Instant × CatalogAct) → CatalogState → Prop
  | start {state : CatalogState}
      (blank : ∀ track ∈ peripheryTracks true, state.1.store.peripheryOf track = []) :
      CatalogRun environment deployment readers [] state
  | push {log : List (Instant × CatalogAct)} {before after : CatalogState} {system yaml : String}
      {trunk : Bool} {result : CatalogPushResult}
      (run : CatalogRun environment deployment readers log before)
      (ran : (pushCatalog deployment readers system yaml trunk).run (handleCatalog environment) before =
        some (.ok result, after)) :
      CatalogRun environment deployment readers
        (log ++ [(environment.clock before.1.steps, pushAct readers system yaml trunk)]) after
  | depart {log : List (Instant × CatalogAct)} {before : CatalogState} {after : World}
      {candidates departed : List String}
      (run : CatalogRun environment deployment readers log before)
      (ran : (closeCatalogOfDeparted candidates).run (World.handle environment) before.1 =
        some (.ok (), after))
      (gone : ∀ system, system ∈ departed ↔
        system ∈ candidates ∧ ¬ Participant before.1.store system) :
      CatalogRun environment deployment readers
        (log ++ [(environment.clock (before.1.steps + 2), .departed departed)]) (after, before.2)
  | other {log : List (Instant × CatalogAct)} {before after : CatalogState}
      (run : CatalogRun environment deployment readers log before)
      (kept : ∀ track ∈ peripheryTracks true,
        after.1.store.peripheryOf track = before.1.store.peripheryOf track) :
      CatalogRun environment deployment readers log after

/-- The periphery of dev and trunk is the history of the operations. -/
structure PushHistory (log : List (Instant × CatalogAct)) (store : Store) (track : PeripheryTrack) :
    Prop where
  oneOpen : ∀ (first second : Nat) (one other : PeripheryRow),
    (store.peripheryOf track)[first]? = some one → (store.peripheryOf track)[second]? = some other →
      one.system = other.system → one.resource = other.resource → one.validTo = none →
        other.validTo = none → first = second
  current : ∀ system resource, ⟨system, resource⟩ ∈ store.listPeriphery track none ↔
    resource ∈ lastSaid track system log
  past : ∀ instant system resource, ⟨system, resource⟩ ∈ store.listPeriphery track (some instant) ↔
    resource ∈ lastSaid track system (log.filter (·.1 ≤ instant))
  once : ∀ instant, (store.listPeriphery track instant).Nodup

section Reading

variable {environment : Environment} {deployment : Deployment} {readers : CatalogReaders}
  {metadata : Entries String (Option String × Option String)}

theorem find?_detailed (store : Store) (system : String) :
    (detailed store metadata).find? (·.name = system) =
      if system ∈ store.listProducers then
        some ⟨system, ((metadata.get? system).getD (none, none)).1,
          ((metadata.get? system).getD (none, none)).2⟩
      else none := by
  rw [detailed]
  induction store.listProducers with
  | nil => rfl
  | cons name rest ih =>
      rw [List.map_cons, List.find?_cons]
      by_cases here : name = system
      · simp [here]
      · simpa [here, Ne.symm here] using ih

theorem shownDomain_eq (state : CatalogState) (system : String) :
    shownDomain state system =
      if system ∈ state.1.store.listProducers then ((state.2.get? system).getD (none, none)).2 else none := by
  rw [shownDomain, find?_detailed]
  split <;> rfl

/-- A use case without calls on metadata runs on the database. -/
theorem ran_besideMetadata {Value : Type} {program : UseCase Value} {outcome : Except AppError Value}
    {state last : CatalogState}
    (ran : (program.beside : CatalogUseCase Value).run (handleCatalog environment) state =
      some (outcome, last)) :
    program.run (World.handle environment) state.1 = some (outcome, last.1) ∧ last.2 = state.2 := by
  obtain ⟨world, metadata⟩ := state
  rw [handleCatalog, Program.run_beside, Program.run_onFirst, Option.map_eq_some_iff] at ran
  obtain ⟨⟨_, _⟩, alone, same⟩ := ran
  cases same
  exact ⟨alone, rfl⟩

theorem ran_listProducersDetailed {state after : CatalogState} {producers : List ProducerSummary}
    (ran : listProducersDetailed.run (handleCatalog environment) state = some (.ok producers, after)) :
    producers = detailed state.1.store state.2 ∧ after.1.store = state.1.store ∧ after.2 = state.2 := by
  obtain ⟨world, metadata⟩ := state
  change (Program.ofExcept ((tellProducers environment (world, metadata)
    .listProducersDetailed).2.mapError RepositoryError.toAppError)).run _ _ = _ at ran
  rw [tellProducers] at ran
  cases faulty : environment.fault world.steps with
  | some reason =>
      rw [faulty] at ran
      cases ran
  | none =>
      rw [faulty] at ran
      cases ran
      exact ⟨rfl, rfl, rfl⟩

theorem ran_updateProducerMetadata {state after : CatalogState} {name : String}
    {icon domain : Option String}
    (ran : (updateProducerMetadata name icon domain).run (handleCatalog environment) state =
      some (.ok (), after)) :
    after.1.store = state.1.store ∧ after.2 =
      if name ∈ state.1.store.listProducers then state.2.insert name (icon, domain) else state.2 := by
  obtain ⟨world, metadata⟩ := state
  change (Program.ofExcept ((tellProducers environment (world, metadata)
    (.updateProducerMetadata name icon domain)).2.mapError RepositoryError.toAppError)).run _
    (tellProducers environment (world, metadata) (.updateProducerMetadata name icon domain)).1 = _ at ran
  rw [tellProducers] at ran
  cases faulty : environment.fault world.steps with
  | some reason =>
      rw [faulty] at ran
      cases ran
  | none =>
      rw [faulty] at ran
      cases ran
      exact ⟨rfl, rfl⟩

/-- Filling a domain changes what is shown of the system, or nothing at all. -/
theorem ran_fillDomainFromSystem {state after : CatalogState} {system : String} {domain : Option String}
    {filled : Bool} (told : ∀ name ∈ domain, trim name ≠ "")
    (ran : (fillDomainFromSystem system domain).run (handleCatalog environment) state =
      some (.ok filled, after)) :
    after.1.store = state.1.store ∧
      (filled = true ↔ ¬ ∀ other, shownDomain after other = shownDomain state other) := by
  have unfilled : after.1.store = state.1.store → after.2 = state.2 → filled = false →
      after.1.store = state.1.store ∧
        (filled = true ↔ ¬ ∀ other, shownDomain after other = shownDomain state other) := by
    intro store metadata none
    refine ⟨store, ?_⟩
    simp [none, shownDomain, store, metadata]
  cases domain with
  | none =>
      cases ran
      exact unfilled rfl rfl rfl
  | some domain =>
      obtain ⟨found, first, sought, ran⟩ := Program.run_bind_ok ran
      obtain ⟨sought, kept⟩ := ran_besideMetadata sought
      have same := (ran_reading rfl sought).2
      cases found with
      | none =>
          cases ran
          exact unfilled same kept rfl
      | some serviceId =>
          obtain ⟨producers, second, listed, ran⟩ := Program.run_bind_ok ran
          obtain ⟨rfl, same', kept'⟩ := ran_listProducersDetailed listed
          rw [find?_detailed] at ran
          by_cases known : system ∈ first.1.store.listProducers
          · rw [if_pos known] at ran
            dsimp only at ran
            split at ran
            · cases ran
              exact unfilled (same'.trans same) (kept'.trans kept) rfl
            · rename_i blank
              obtain ⟨_, third, updated, ran⟩ := Program.run_bind_ok ran
              obtain ⟨same'', kept''⟩ := ran_updateProducerMetadata updated
              cases ran
              refine ⟨same''.trans (same'.trans same), ?_⟩
              simp only [true_iff]
              intro unchanged
              have shown := unchanged system
              rw [same', if_pos known] at kept''
              rw [shownDomain_eq, shownDomain_eq, same'', same', same, kept'', Entries.get?_insert,
                if_pos rfl] at shown
              rw [same] at known
              rw [if_pos known, if_pos known, ← kept] at shown
              apply blank
              rw [← shown]
              simpa [hasDomain] using told domain rfl
          · rw [if_neg known] at ran
            cases ran
            exact unfilled (same'.trans same) (kept'.trans kept) rfl

end Reading

section Pushing

variable {environment : Environment} {deployment : Deployment} {readers : CatalogReaders}
  {world after : World} {system : String} {trunk : Bool} {component : CatalogComponent}

/-- What recording a Component does, and when it says that something changed. -/
structure CatalogRecorded (now : Instant) (system : String) (trunk : Bool) (component : CatalogComponent)
    (changed : Bool) (before after : Store) : Prop where
  periphery : after.periphery = (peripheryTracks trunk).foldl
    (Store.reconcileTrack system (peripheryRefs component) now) before.periphery
  services : after.services = before.services
  context : ∀ other, contextOf after other =
    if system = other then some component.context else contextOf before other
  changed_iff : changed = true ↔
    (∃ track ∈ peripheryTracks trunk,
      ¬ ∀ resource, resource ∈ openResources track system before.periphery ↔
        resource ∈ peripheryRefs component) ∨
    contextOf before system ≠ some component.context

theorem differs_iff {held declared : List String} :
    (held.any (· ∉ declared) || declared.any (· ∉ held)) = true ↔
      ¬ ∀ resource, resource ∈ held ↔ resource ∈ declared := by
  rw [Bool.or_eq_true, List.any_eq_true, List.any_eq_true]
  constructor
  · intro differs same
    cases differs with
    | inl gone =>
        obtain ⟨resource, among, missing⟩ := gone
        exact of_decide_eq_true missing ((same resource).mp among)
    | inr new =>
        obtain ⟨resource, among, missing⟩ := new
        exact of_decide_eq_true missing ((same resource).mpr among)
  · intro differs
    by_contra same
    apply differs
    intro resource
    constructor
    · intro among
      by_contra missing
      exact same (.inl ⟨resource, among, decide_eq_true missing⟩)
    · intro among
      by_contra missing
      exact same (.inr ⟨resource, among, decide_eq_true missing⟩)

theorem reconciled_cases {store after : Store} {refs : List String} {now : Instant}
    {outbox : List NewWebhookEvent} {changed : Bool}
    (reconciled : store.reconcilePeriphery system trunk refs now outbox = .ok (after, changed)) :
    after.periphery = (peripheryTracks trunk).foldl (Store.reconcileTrack system refs now) store.periphery ∧
      after.services = store.services ∧ after.systemContexts = store.systemContexts ∧
      (changed = true ↔ ∃ track ∈ peripheryTracks trunk,
        ¬ ∀ resource, resource ∈ openResources track system store.periphery ↔ resource ∈ refs) := by
  have written := Store.reconcilePeriphery_cases reconciled
  obtain ⟨_, -, same⟩ := Store.ok_of_map reconciled
  have flag := congrArg Prod.snd same
  have kept : ∀ table : Table, table ≠ .outbox → table ≠ .deliveries → after.table table = _ :=
    fun table other another => Store.table_writeOutbox written other another
  refine ⟨kept .periphery (by simp) (by simp), congrArg Prod.fst (kept .services (by simp) (by simp)),
    kept .systemContexts (by simp) (by simp), ?_⟩
  dsimp only at flag
  rw [flag, List.any_eq_true]
  simp only [differs_iff]

theorem contextOf_upserted (store : Store) (system : String) (context : SystemContext) :
    (∀ other, contextOf (store.upsertSystemContext system context).1 other =
        if system = other then some context else contextOf store other) ∧
      ((store.upsertSystemContext system context).2 = true ↔ contextOf store system ≠ some context) ∧
      (store.upsertSystemContext system context).1.periphery = store.periphery ∧
      (store.upsertSystemContext system context).1.services = store.services := by
  by_cases told : store.systemContexts.get? system = some context
  · rw [Store.upsertSystemContext, if_pos told]
    refine ⟨?_, by simp [contextOf, told], rfl, rfl⟩
    intro other
    split
    · rename_i here
      rw [← here]
      exact told
    · rfl
  · rw [Store.upsertSystemContext, if_neg told]
    refine ⟨?_, by simpa [contextOf] using told, rfl, rfl⟩
    intro other
    exact Entries.get?_insert store.systemContexts system other context

theorem ran_recordCatalog {changed : Bool}
    (ran : (recordCatalog deployment system trunk component).run (World.handle environment) world =
      some (.ok changed, after)) :
    CatalogRecorded (environment.clock world.steps) system trunk component changed world.store
      after.store := by
  obtain ⟨now, first, clocked, ran⟩ := Program.run_bind_ok ran
  obtain rfl : now = environment.clock world.steps := by
    cases clocked
    rfl
  obtain ⟨event, second, planned, ran⟩ := Program.run_bind_ok ran
  obtain ⟨peripheryChanged, third, reconciled, ran⟩ := Program.run_bind_ok ran
  obtain ⟨contextChanged, last, upserted, ran⟩ := Program.run_bind_ok ran
  cases ran
  have same : second.store = world.store :=
    (ran_only_reads (reads_catalogEvent deployment system _) planned).trans (ran_nowIso clocked)
  obtain ⟨_, answered, written⟩ := ran_repo reconciled
  obtain ⟨_, told, stored⟩ := ran_repo upserted
  rw [same] at answered written
  change (Store.tried _ (Store.reconcilePeriphery _ _ _ _ _ _)).2 = _ at answered
  change third.store = (Store.tried _ (Store.reconcilePeriphery _ _ _ _ _ _)).1 at written
  change Except.ok (Store.upsertSystemContext _ _ _).2 = _ at told
  change after.store = (Store.upsertSystemContext _ _ _).1 at stored
  obtain ⟨error, -, failed⟩ | ⟨reached, flag, done, tried⟩ := Store.tried_cases world.store
    (world.store.reconcilePeriphery system trunk (peripheryRefs component)
      (environment.clock world.steps) event.toList)
  · rw [failed] at answered
    cases answered
  · rw [tried] at answered written
    cases answered
    obtain ⟨rows, services, contexts, changed⟩ := reconciled_cases done
    obtain ⟨context, contextChanged', rows', services'⟩ :=
      contextOf_upserted third.store system component.context
    have before : ∀ other, contextOf third.store other = contextOf world.store other := by
      intro other
      rw [contextOf, written, contexts, contextOf]
    constructor
    · rw [stored, rows', written, rows]
    · rw [stored, services', written, services]
    · intro other
      rw [stored, context, before]
    · rw [← Except.ok.inj told, Bool.or_eq_true, changed, contextChanged', before]

/-- What a push has open afterwards. -/
theorem mem_openResources_reconciled {rows : List PeripheryRow} {refs : List String} {now : Instant}
    {track : PeripheryTrack} (stream : track ∈ peripheryTracks true) {other resource : String} :
    resource ∈ openResources track other
        ((peripheryTracks trunk).foldl (Store.reconcileTrack system refs now) rows) ↔
      if track ∈ peripheryTracks trunk ∧ system = other then resource ∈ refs
      else resource ∈ openResources track other rows := by
  rw [← heldBy_holdings, holdings_reconciled trunk stream]
  by_cases pushed : track ∈ peripheryTracks trunk
  · rw [if_pos pushed, mem_heldBy_apply]
    simp only [pushed, true_and, heldBy_holdings]
  · rw [if_neg pushed, if_neg fun both => pushed both.1, heldBy_holdings]

/-- The set of a track stays when the push is not about it, or declares what is there. -/
theorem currentPeriphery_reconciled {before last : CatalogState} {refs : List String} {now : Instant}
    {track : PeripheryTrack} (stream : track ∈ peripheryTracks true)
    (rows : last.1.store.periphery =
      (peripheryTracks trunk).foldl (Store.reconcileTrack system refs now) before.1.store.periphery) :
    currentPeriphery last track = currentPeriphery before track ↔
      (track ∈ peripheryTracks trunk → ∀ resource,
        resource ∈ openResources track system before.1.store.periphery ↔ resource ∈ refs) := by
  have told : ∀ other resource, (⟨other, resource⟩ : PeripheralDependency) ∈ currentPeriphery last track ↔
      if track ∈ peripheryTracks trunk ∧ system = other then resource ∈ refs
      else (⟨other, resource⟩ : PeripheralDependency) ∈ currentPeriphery before track := by
    intro other resource
    change _ ∈ last.1.store.listPeriphery track none ↔ if _ then _ else _ ∈ before.1.store.listPeriphery track none
    rw [mem_listPeriphery_now, mem_listPeriphery_now, rows, mem_openResources_reconciled stream]
  constructor
  · intro same pushed resource
    have mine := told system resource
    rw [same, if_pos ⟨pushed, rfl⟩] at mine
    rw [← mine]
    exact mem_listPeriphery_now.symm
  · intro declared
    ext ⟨other, resource⟩
    rw [told]
    split
    · rename_i mine
      obtain ⟨pushed, rfl⟩ := mine
      rw [← declared pushed resource]
      exact mem_listPeriphery_now.symm
    · exact Iff.rfl

/-- Recording a Component says that something changed exactly when a set or the context did. -/
theorem CatalogRecorded.changed_iff_differs {now : Instant} {changed : Bool} {before last : CatalogState}
    (recorded : CatalogRecorded now system trunk component changed before.1.store last.1.store) :
    changed = true ↔ ¬ (currentPeriphery last .dev = currentPeriphery before .dev ∧
      currentPeriphery last .trunk = currentPeriphery before .trunk ∧
      ∀ other, contextOf last.1.store other = contextOf before.1.store other) := by
  rw [recorded.changed_iff, currentPeriphery_reconciled (by simp [peripheryTracks]) recorded.periphery,
    currentPeriphery_reconciled (by simp [peripheryTracks]) recorded.periphery]
  have context : (∀ other, contextOf last.1.store other = contextOf before.1.store other) ↔
      contextOf before.1.store system = some component.context := by
    constructor
    · intro same
      rw [← same, recorded.context, if_pos rfl]
    · intro told other
      rw [recorded.context]
      split
      · rename_i here
        rw [← here, told]
      · rfl
  rw [context]
  cases trunk with
  | false =>
      simp only [peripheryTracks, Bool.false_eq_true, if_false, List.mem_singleton, exists_eq_left,
        reduceCtorEq, forall_const, IsEmpty.forall_iff, true_and, not_and_or, ne_eq]
  | true =>
      simp only [peripheryTracks, if_true, List.mem_cons, List.not_mem_nil, or_false, or_true,
        exists_eq_or_imp, exists_eq_left, reduceCtorEq, forall_const, not_and_or, or_assoc, ne_eq]

/-- What is shown of the catalog comes from three tables and the metadata. -/
theorem sameCatalog_of_tables {before last : CatalogState}
    (periphery : last.1.store.periphery = before.1.store.periphery)
    (contexts : last.1.store.systemContexts = before.1.store.systemContexts)
    (services : last.1.store.services = before.1.store.services) (metadata : last.2 = before.2) :
    SameCatalog before last where
  dev := by simp only [currentPeriphery, Store.listPeriphery, Store.peripheryOf, periphery]
  trunk := by simp only [currentPeriphery, Store.listPeriphery, Store.peripheryOf, periphery]
  context := by simp only [contextOf, contexts, implies_true]
  domain := by simp only [shownDomain, detailed, Store.listProducers, services, metadata, implies_true]

theorem ran_warnUnread {warning : String} {result : CatalogPushResult}
    (ran : (warnUnread deployment system trunk warning).run (World.handle environment) world =
      some (.ok result, after)) :
    result.changed = false ∧ after.store.periphery = world.store.periphery ∧
      after.store.systemContexts = world.store.systemContexts ∧
      after.store.services = world.store.services := by
  obtain ⟨event, middle, planned, ran⟩ := Program.run_bind_ok ran
  have same := ran_only_reads (reads_catalogEvent deployment system _) planned
  cases event with
  | none =>
      cases ran
      rw [same]
      exact ⟨rfl, rfl, rfl, rfl⟩
  | some event =>
      obtain ⟨_, last, inserted, ran⟩ := Program.run_bind_ok ran
      cases ran
      obtain ⟨now, -, stored⟩ := ran_repo inserted
      have kept : ∀ table, table ∉ writes (.insertWebhookEvents [event]) →
          after.store.table table = world.store.table table := by
        intro table outside
        rw [stored, Store.perform_frame middle.store now outside, same]
      exact ⟨rfl, kept .periphery (by simp [writes]), kept .systemContexts (by simp [writes]),
        congrArg Prod.fst (kept .services (by simp [writes]))⟩

/-- A push that is answered: a file that is not read changes nothing that is shown, and one that is
read records its Component and may fill the domain. -/
theorem ran_pushCatalog {yaml : String} {before last : CatalogState} {result : CatalogPushResult}
    (ran : (pushCatalog deployment readers system yaml trunk).run (handleCatalog environment) before =
      some (.ok result, last)) :
    (∃ error, Backstage.readComponent readers yaml (trim system) = .error error ∧
        result.changed = false ∧ last.1.store.periphery = before.1.store.periphery ∧
        SameCatalog before last) ∨
      ∃ component recordedChanged domainChanged,
        Backstage.readComponent readers yaml (trim system) = .ok component ∧
        CatalogRecorded (environment.clock before.1.steps) (trim system) trunk component recordedChanged
          before.1.store last.1.store ∧
        (domainChanged = true ↔ ¬ ∀ other, shownDomain last other = shownDomain before other) ∧
        result.changed = (recordedChanged || domainChanged) := by
  change Program.run _ (if trim system = "" then _ else _) _ = _ at ran
  by_cases blank : trim system = ""
  · rw [if_pos blank] at ran
    cases ran
  rw [if_neg blank] at ran
  cases told : Backstage.readComponent readers yaml (trim system) with
  | error error =>
      rw [told] at ran
      obtain ⟨alone, metadata⟩ := ran_besideMetadata ran
      obtain ⟨unchanged, periphery, contexts, services⟩ := ran_warnUnread alone
      exact .inl ⟨error, rfl, unchanged, periphery,
        sameCatalog_of_tables periphery contexts services metadata⟩
  | ok component =>
      rw [told] at ran
      obtain ⟨recordedChanged, middle, recording, ran⟩ := Program.run_bind_ok ran
      obtain ⟨domainChanged, final, filling, ran⟩ := Program.run_bind_ok ran
      cases ran
      obtain ⟨alone, metadata⟩ := ran_besideMetadata recording
      have recorded := ran_recordCatalog alone
      obtain ⟨same, filled⟩ := ran_fillDomainFromSystem
        (fun name named => Backstage.trim_readComponent readers told named) filling
      have shown : ∀ other, shownDomain middle other = shownDomain before other := by
        intro other
        simp only [shownDomain, detailed, Store.listProducers, recorded.services, metadata]
      simp only [shown] at filled
      rw [← same] at recorded
      exact .inr ⟨component, recordedChanged, domainChanged, rfl, recorded, filled, rfl⟩

/-- A push answers that something changed exactly when something that is shown is no longer what it
was. -/
theorem push_changed {yaml : String} {before last : CatalogState} {result : CatalogPushResult}
    (ran : (pushCatalog deployment readers system yaml trunk).run (handleCatalog environment) before =
      some (.ok result, last)) :
    result.changed = true ↔ ¬ SameCatalog before last := by
  obtain ⟨_, -, unchanged, -, same⟩ |
    ⟨component, recordedChanged, domainChanged, -, recorded, filled, changed⟩ := ran_pushCatalog ran
  · simp [unchanged, same]
  · rw [changed, Bool.or_eq_true, recorded.changed_iff_differs, filled, ← not_and_or]
    apply not_congr
    constructor
    · intro ⟨⟨dev, trunk, context⟩, domain⟩
      exact ⟨dev, trunk, context, domain⟩
    · intro same
      exact ⟨⟨same.dev, same.trunk, same.context⟩, same.domain⟩

end Pushing

section Departing

variable {environment : Environment} {world after : World} {track : PeripheryTrack} {now : Instant}

theorem steps_repo {request : RepoCall} {result : request.Result}
    (ran : (repo request).run (World.handle environment) world = some (.ok result, after)) :
    after.steps = world.steps + 1 := by
  obtain ⟨answer, middle, asked, ran⟩ := Program.run_bind_ok ran
  have stepped : middle.steps = world.steps + 1 := by
    cases asked
    obtain ⟨reason, failed, -⟩ | performed := World.handle_repo environment world request
    · rw [failed]
    · rw [performed]
  cases answer with
  | error reason => cases ran
  | ok value =>
      cases ran
      exact stepped

/-- A system that leaves declares nothing, in dev and in trunk. -/
theorem holdings_forgetSystem {system : String}
    (ran : (forgetSystem now system).run (World.handle environment) world = some (.ok (), after))
    (stream : track ∈ peripheryTracks true) :
    holdings track after.store.periphery =
      Declaration.apply (holdings track world.store.periphery) ⟨now, system, []⟩ := by
  obtain ⟨changed, middle, closed, deleted⟩ := Program.run_bind_ok ran
  obtain ⟨_, reconciled, closes⟩ := ran_repo closed
  obtain ⟨_, -, forgets⟩ := ran_repo deleted
  change middle.store = (Store.tried _ (Store.reconcilePeriphery _ _ _ _ _ _)).1 at closes
  change after.store = middle.store.deleteSystemContext system at forgets
  have rows : after.store.periphery = (peripheryTracks true).foldl (Store.reconcileTrack system [] now)
      world.store.periphery := by
    rw [forgets]
    change middle.store.periphery = _
    rw [closes]
    rfl
  rw [rows, holdings_reconciled true stream, if_pos stream]

/-- A cleanup closes what those who have left hold, at one instant. -/
theorem recounts_closeCatalogOfDeparted {candidates departed : List String}
    {account : Account String String Instant} {last : Instant}
    (ran : (closeCatalogOfDeparted candidates).run (World.handle environment) world =
      some (.ok (), after))
    (gone : ∀ system, system ∈ departed ↔ system ∈ candidates ∧ ¬ Participant world.store system)
    (stream : track ∈ peripheryTracks true) (order : last ≤ environment.clock (world.steps + 2))
    (recounts : Recounts (holdings track world.store.periphery) account last) :
    Recounts (holdings track after.store.periphery)
      (fun instant system =>
        if environment.clock (world.steps + 2) ≤ instant ∧ system ∈ departed then []
        else account instant system)
      (environment.clock (world.steps + 2)) := by
  obtain ⟨remaining, second, first, ran⟩ := Program.run_bind_ok ran
  obtain ⟨now, third, clocked, ran⟩ := Program.run_bind_ok ran
  obtain ⟨same, listed⟩ := mem_participants first
  have steps : second.steps = world.steps + 2 := by
    obtain ⟨producers, middle, one, first⟩ := Program.run_bind_ok first
    obtain ⟨consumers, final, two, first⟩ := Program.run_bind_ok first
    cases first
    rw [steps_repo two, steps_repo one]
  have instant : now = environment.clock (world.steps + 2) := by
    rw [← steps]
    cases clocked
    rfl
  have looped := Program.run_forEach_ok
    (fun elements (before : World) (later : World) => ∀ account,
      Recounts (holdings track before.store.periphery) account now →
        Recounts (holdings track later.store.periphery)
          (fun instant system =>
            if now ≤ instant ∧ system ∈ elements ∧ system ∉ remaining then [] else account instant system)
          now) ?_ ?_ ran
  · rw [ran_nowIso clocked, same] at looped
    have told := looped account (recounts.mono (instant ▸ order))
    rw [instant] at told
    have left : ∀ system, system ∈ departed ↔ system ∈ candidates ∧ system ∉ remaining := by
      intro system
      rw [gone, listed]
    simpa only [left] using told
  · intro state account recounts
    simpa using recounts
  · intro element rest state middle last ran loop account recounts
    split at ran
    · rename_i remains
      cases ran
      have told := loop account recounts
      apply told.congr
      intro instant system
      by_cases here : system = element
      · simp [here, remains]
      · simp [here]
    · rename_i gone
      have declared : Recounts (Declaration.apply (holdings track state.store.periphery) ⟨now, element, []⟩)
          (Declaration.amend account ⟨now, element, []⟩) now := recounts.declare le_rfl
      rw [← holdings_forgetSystem ran stream] at declared
      apply (loop _ declared).congr
      intro instant system
      by_cases reached : now ≤ instant
      · by_cases here : system = element
        · simp [here, gone, reached, Declaration.amend]
        · simp [here, Ne.symm here, Declaration.amend]
      · simp [reached, Declaration.amend]

end Departing

section Runs

variable {environment : Environment} {deployment : Deployment} {readers : CatalogReaders}
  {log : List (Instant × CatalogAct)} {state : CatalogState} {track : PeripheryTrack}

/-- What had been said by an instant. -/
def saidBy (track : PeripheryTrack) (log : List (Instant × CatalogAct)) : Account String String Instant :=
  fun instant system => lastSaid track system (log.filter (·.1 ≤ instant))

theorem lastSaid_concat (log : List (Instant × CatalogAct)) (entry : Instant × CatalogAct)
    (system : String) :
    lastSaid track system (log ++ [entry]) =
      (entry.2.declared track system).getD (lastSaid track system log) := by
  rw [lastSaid, List.reverse_append, List.reverse_singleton, List.singleton_append, List.findSome?_cons]
  cases entry.2.declared track system <;> rfl

theorem saidBy_concat (log : List (Instant × CatalogAct)) (entry : Instant × CatalogAct)
    (instant : Instant) (system : String) :
    saidBy track (log ++ [entry]) instant system =
      if entry.1 ≤ instant then (entry.2.declared track system).getD (saidBy track log instant system)
      else saidBy track log instant system := by
  rw [saidBy, List.filter_append]
  by_cases reached : entry.1 ≤ instant
  · rw [if_pos reached, List.filter_cons_of_pos (by simpa using reached), List.filter_nil,
      lastSaid_concat, saidBy]
  · rw [if_neg reached, List.filter_cons_of_neg (by simpa using reached), List.filter_nil,
      List.append_nil, saidBy]

theorem mem_peripheryTracks {trunk : Bool} :
    track ∈ peripheryTracks trunk ↔ track = .dev ∨ trunk = true ∧ track = .trunk := by
  cases trunk <;> simp [peripheryTracks]

/-- One push: the rows go on recounting the log. -/
theorem recounts_push {before after : CatalogState} {system yaml : String} {trunk : Bool}
    {result : CatalogPushResult} (stream : track ∈ peripheryTracks true)
    (ran : (pushCatalog deployment readers system yaml trunk).run (handleCatalog environment) before =
      some (.ok result, after))
    (recounts : Recounts (holdings track before.1.store.periphery) (saidBy track log)
      (environment.clock before.1.steps)) :
    Recounts (holdings track after.1.store.periphery)
      (saidBy track (log ++ [(environment.clock before.1.steps, pushAct readers system yaml trunk)]))
      (environment.clock before.1.steps) := by
  obtain ⟨error, unread, -, rows, -⟩ | ⟨component, _, _, read, recorded, -, -⟩ := ran_pushCatalog ran
  · rw [rows]
    apply recounts.congr
    intro instant other
    rw [saidBy_concat, pushAct, unread]
    simp [CatalogAct.declared, Except.toOption]
  · rw [recorded.periphery, holdings_reconciled trunk stream]
    split
    · rename_i pushed
      have streams := mem_peripheryTracks.mp pushed
      apply (recounts.declare le_rfl).congr
      intro instant other
      rw [saidBy_concat, pushAct, read, Declaration.amend]
      by_cases reached : environment.clock before.1.steps ≤ instant
      · by_cases own : trim system = other
        · simp [reached, own, streams, CatalogAct.declared, Except.toOption]
        · simp [own, CatalogAct.declared]
      · simp [reached]
    · rename_i outside
      have streams : ¬ (track = .dev ∨ trunk = true ∧ track = .trunk) :=
        fun there => outside (mem_peripheryTracks.mpr there)
      apply recounts.congr
      intro instant other
      rw [saidBy_concat, pushAct]
      simp [CatalogAct.declared, streams]

/-- The rows recount the log in every state of a run. -/
theorem CatalogRun.recounts (run : CatalogRun environment deployment readers log state)
    (ordered : log.Pairwise fun earlier later => earlier.1 ≤ later.1)
    (stream : track ∈ peripheryTracks true) (last : Instant) (reached : ∀ entry ∈ log, entry.1 ≤ last) :
    Recounts (holdings track state.1.store.periphery) (saidBy track log) last := by
  induction run generalizing last with
  | start blank =>
      rename_i state
      have empty : holdings track state.1.store.periphery = [] := by
        change (state.1.store.peripheryOf track).map PeripheryRow.holding = []
        rw [blank track stream, List.map_nil]
      rw [empty]
      exact recounts_nil last
  | push run ran ih =>
      obtain ⟨earlier, -, before⟩ := List.pairwise_append.mp ordered
      have recounts := recounts_push stream ran
        (ih earlier _ fun entry among => before entry among _ List.mem_cons_self)
      exact recounts.mono (reached _ (List.mem_append_right _ List.mem_cons_self))
  | depart run ran gone ih =>
      obtain ⟨earlier, -, before⟩ := List.pairwise_append.mp ordered
      have recounts := recounts_closeCatalogOfDeparted ran gone stream le_rfl
        (ih earlier _ fun entry among => before entry among _ List.mem_cons_self)
      apply (recounts.mono (reached _ (List.mem_append_right _ List.mem_cons_self))).congr
      intro instant system
      rw [saidBy_concat, CatalogAct.declared, ite_and]
      congr 1
      split <;> rfl
  | other run kept ih =>
      rename_i log before after
      have same : holdings track after.1.store.periphery = holdings track before.1.store.periphery := by
        change (after.1.store.peripheryOf track).map PeripheryRow.holding = _
        rw [kept track stream]
        rfl
      rw [same]
      exact ih ordered last reached

/-- Rows that recount a log are its history. -/
theorem pushHistory_of_recounts {store : Store} {last : Instant}
    (recounts : Recounts (holdings track store.periphery) (saidBy track log) last)
    (reached : ∀ entry ∈ log, entry.1 ≤ last) : PushHistory log store track where
  oneOpen first second one other here there system resource fresh fresh' := by
    have held : ∀ (place : Nat) (row : PeripheryRow), (store.peripheryOf track)[place]? = some row →
        (holdings track store.periphery)[place]? = some row.holding := by
      intro place row there
      change ((store.peripheryOf track).map PeripheryRow.holding)[place]? = _
      rw [List.getElem?_map, there]
      rfl
    exact recounts.sound.open_unique (held first one here) (held second other there)
      (Prod.ext system resource) fresh fresh'
  current system resource := by
    have whole : log.filter (·.1 ≤ last) = log := by
      rw [List.filter_eq_self]
      intro entry among
      simpa using reached entry among
    rw [mem_listPeriphery_now, ← heldBy_holdings, recounts.held, saidBy, whole]
  past instant system resource := by
    rw [mem_listPeriphery_at, recounts.told, saidBy]
  once instant := by
    have keys : ((shown PeripheryRow.span (store.peripheryOf track) instant).map
        fun row => (row.system, row.resource)).Nodup := by
      cases instant with
      | none =>
          have once := recounts.sound.open_nodup
          rw [holdings, List.filter_map, List.map_map] at once
          exact once
      | some instant =>
          have once := recounts.sound.lasting_nodup instant
          rw [holdings, lasting, List.filter_map, List.map_map] at once
          exact once
    rw [Store.listPeriphery, (List.perm_insertionSort _ _).nodup_iff]
    apply List.Nodup.of_map fun dependency => (dependency.system, dependency.resource)
    rw [List.map_map]
    exact keys

/-- The periphery timeline is the history of the catalog pushes: after any run of pushes and cleanups,
with instants in order, the rows of dev and of trunk show for every instant what had last been said by
then, and a push answers that something changed exactly when something that is shown did. -/
theorem catalog_timeline (run : CatalogRun environment deployment readers log state)
    (ordered : log.Pairwise fun earlier later => earlier.1 ≤ later.1) :
    (∀ track ∈ peripheryTracks true, PushHistory log state.1.store track) ∧
      ∀ (system yaml : String) (trunk : Bool) (result : CatalogPushResult) (after : CatalogState),
        (pushCatalog deployment readers system yaml trunk).run (handleCatalog environment) state =
          some (.ok result, after) → (result.changed = true ↔ ¬ SameCatalog state after) := by
  constructor
  · intro track stream
    obtain ⟨last, reached⟩ : ∃ last, ∀ entry ∈ log, entry.1 ≤ last :=
      ⟨(log.map Prod.fst).foldr max 0, fun entry among =>
        List.le_max_of_le (List.mem_map_of_mem among) le_rfl⟩
    exact pushHistory_of_recounts (run.recounts ordered stream last reached) reached
  · intro system yaml trunk result after ran
    exact push_changed ran

end Runs

section Examples

def outcomeState {Value : Type} (start : CatalogState) :
    Option (Except AppError Value × CatalogState) → CatalogState
  | some (_, after) => after
  | none => start

def isAnswered {Value : Type} : Option (Except AppError Value × CatalogState) → Bool
  | some (.ok _, _) => true
  | _ => false

theorem exists_of_isAnswered {Value : Type} (start : CatalogState)
    {outcome : Option (Except AppError Value × CatalogState)} (answered : isAnswered outcome = true) :
    ∃ value, outcome = some (.ok value, outcomeState start outcome) := by
  match outcome, answered with
  | some (.ok value, after), _ => exact ⟨value, rfl⟩

/-- A file that names a database, one that names nothing, and no other. -/
def shopReaders : CatalogReaders where
  documents text :=
    if text = "db" then .ok [.object [("dependsOn", .array [.string "orders-db"])]]
    else if text = "none" then .ok [.object []] else .error "no document"
  entityOf spec := .ok ⟨"backstage.io/v1alpha1", "Component", ⟨"shop", none, none, none, none, none⟩, some spec⟩
  url _ := none
  toLowercase text := text

def quietDeployment : Deployment := ⟨Document.asciiPlatform ⟨[], [], []⟩, false⟩

def slowClock : Environment := ⟨fun steps => steps / 4, fun _ => "", fun _ => none⟩

def shopPush (state : CatalogState) (yaml : String) (trunk : Bool) :
    Option (Except AppError CatalogPushResult × CatalogState) :=
  (pushCatalog quietDeployment shopReaders " shop" yaml trunk).run (handleCatalog slowClock) state

def afterPush (state : CatalogState) (yaml : String) (trunk : Bool) : CatalogState :=
  outcomeState state (shopPush state yaml trunk)

def shopStart : CatalogState := (⟨.empty, 0⟩, [])
def shopTrunk : CatalogState := afterPush shopStart "db" true
def shopDev : CatalogState := afterPush shopTrunk "none" false
def shopUnread : CatalogState := afterPush shopDev "\x7b" true

/-- A push from trunk, one from dev in the same instant, and one that is not read. -/
def shopLog : List (Instant × CatalogAct) :=
  [(slowClock.clock shopStart.1.steps, pushAct shopReaders " shop" "db" true),
    (slowClock.clock shopTrunk.1.steps, pushAct shopReaders " shop" "none" false),
    (slowClock.clock shopDev.1.steps, pushAct shopReaders " shop" "\x7b" true)]

theorem shopRun : CatalogRun slowClock quietDeployment shopReaders shopLog shopUnread := by
  obtain ⟨_, first⟩ := exists_of_isAnswered shopStart
    (by decide +kernel : isAnswered (shopPush shopStart "db" true) = true)
  obtain ⟨_, second⟩ := exists_of_isAnswered shopTrunk
    (by decide +kernel : isAnswered (shopPush shopTrunk "none" false) = true)
  obtain ⟨_, third⟩ := exists_of_isAnswered shopDev
    (by decide +kernel : isAnswered (shopPush shopDev "\x7b" true) = true)
  exact .push (.push (.push (.start fun _ _ => rfl) first) second) third

theorem catalog_timeline_shop :
    PushHistory shopLog shopUnread.1.store .dev ∧ PushHistory shopLog shopUnread.1.store .trunk ∧
      lastSaid .dev "shop" shopLog = [] ∧
      lastSaid .trunk "shop" shopLog = ["resource:default/orders-db"] := by
  have histories := (catalog_timeline shopRun (by decide +kernel)).1
  exact ⟨histories .dev (by decide), histories .trunk (by decide), by decide +kernel, by decide +kernel⟩

end Examples
end Sanshain.Guarantees
