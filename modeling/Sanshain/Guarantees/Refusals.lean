import Sanshain.Guarantees.Clients
import Sanshain.Infrastructure.Registration

namespace Sanshain.Guarantees

open Sanshain.Data Sanshain.Domain Sanshain.Document Sanshain.Effects Sanshain.Application
open Sanshain.Infrastructure

/-- The answers of a Provide that a rule refuses. -/
inductive Refusal : AppError → Prop
  | unreleased (message : String) : Refusal (.forbiddenWithReason message)
  | version (message : String) (proposed : SemVer) : Refusal (.versionConflict message proposed)
  | conflict (message : String) : Refusal (.conflict message)
  | breaking (message : String) : Refusal (.breakingChange message)

/-- The tables that the telemetry of a refusal writes. -/
def telemetryTables : List Table := [.auditLogs, .outbox, .deliveries]

/-- A preview leaves the store as it was, and a refused Provide all but its telemetry. -/
def ChangesNothing (params : ProvideSpecParams) (before after : Store) : Prop :=
  if params.dryRun then after = before
  else ∀ table ∉ telemetryTables, after.table table = before.table table

/-- The Producer is there already, with the tag that goes with the API type. -/
def Known (params : ProvideSpecParams) (store : Store) : Prop :=
  ∃ service, store.serviceNamed? params.producername = some service ∧
    ∀ tag, params.autoTag = some tag → (service.id, tag) ∈ store.serviceTags

section Previews

variable {deployment : Deployment} {params : ProvideSpecParams} {environment : Environment}

/-- A preview only reads. -/
theorem preview_reads (preview : params.dryRun = true) {events : Calls} {request : Call}
    (allowed : ProvideAllows deployment params events request) : request.readsOnly = true := by
  have never : ¬ params.dryRun = false := by simp [preview]
  cases allowed with
  | reads reads => exact reads
  | prepare preparing prepares own =>
      cases prepares with
      | telemetry telemetry =>
          cases telemetry with
          | reads reads => exact reads
          | audit written => exact absurd written never
          | event written => exact absurd written never
      | service written => exact absurd written never
      | tag written => exact absurd written never
  | refresh written => exact absurd written never
  | upsert written => exact absurd written never
  | claim written => exact absurd written never
  | release written => exact absurd written never
  | follow written => exact absurd written never

theorem preview_store (preview : params.dryRun = true) {origin : VersionOrigin}
    {world after : World} {outcome : Except AppError ProvideResponse}
    (ran : (provideSpecInner deployment params origin).run (World.handle environment) world =
      some (outcome, after)) : after.store = world.store := by
  obtain ⟨events, replayed⟩ := Program.replay_of_run [] ran
  have along : (provideSpecInner deployment params origin).Along (ProvideAllows deployment params)
      (ProvideDone deployment params) (ProvideFailed deployment params) [] :=
    along_provideSpecInner deployment origin (by simp)
  refine (along.replay (fun state _ => state.store = world.store) ?_ rfl replayed).1
  intro state events request same allowed
  rw [World.handle_readsOnly environment state (preview_reads preview allowed)]
  exact same

end Previews

section Refusals

variable {deployment : Deployment} {params : ProvideSpecParams} {environment : Environment}

/-- Nothing but preparation, and at most writes that were refused for what the line holds. -/
def Quiet (params : ProvideSpecParams) (events : Calls) : Prop :=
  ∀ event ∈ events, Prepares params event.request ∨
    ∃ record, event = ⟨.repo (.upsertSpecVersion record), .error .conflict⟩

/-- Only the write of a line's entry was answered with Conflict. -/
def ConflictsAtWrites (events : Calls) : Prop :=
  ∀ request, (⟨.repo request, .error .conflict⟩ : Event Call Call.Answer) ∈ events →
    request.writesVersion = true

theorem quiet_of_preparing {events : Calls} (preparing : Preparing params events) : Quiet params events :=
  fun event among => .inl (preparing event among)

theorem Quiet.tail {event : Event Call Call.Answer} {events : Calls}
    (quiet : Quiet params (event :: events)) : Quiet params events :=
  fun other among => quiet other (List.mem_cons_of_mem _ among)

/-- Where a refusal leaves a Provide: denied before it registered anything, or registered. -/
theorem refused_quiet {events : Calls} {error : AppError}
    (failed : ProvideFailed deployment params events error) (refusal : Refusal error)
    (conflicts : ConflictsAtWrites events) :
    Quiet params events ∧ (params.mayRelease = false ∨
      ∃ serviceId line, params.mayRelease = true ∧ Served params serviceId line events) := by
  cases failed with
  | call called unrefused =>
      obtain ⟨request, reason, among, rfl⟩ := called
      cases reason with
      | conflict =>
          have writes := conflicts request among
          cases request with
          | upsertSpecVersion record => exact absurd among (unrefused record)
          | _ => cases writes
      | notFound => cases refusal
      | internal message => cases refusal
  | document message => cases refusal
  | unreleased message denied telemetry =>
      exact ⟨fun event among => .inl (.telemetry (telemetry event among)), .inl denied⟩
  | version message proposed released served preparing harvest free offends =>
      exact ⟨quiet_of_preparing preparing, .inr ⟨_, _, released, served⟩⟩
  | contract released served preparing kind =>
      exact ⟨quiet_of_preparing preparing, .inr ⟨_, _, released, served⟩⟩
  | lost record released served prepared conflict message =>
      refine ⟨fun event among => ?_, .inr ⟨_, _, released, served⟩⟩
      exact (prepared event among).imp_right fun same => ⟨record, same⟩

/-- A tag is added for the service that was answered. -/
theorem tag_own {events : Calls} {serviceId : Nat} {tags : List String}
    (allowed : ProvideAllows deployment params events (.repo (.addServiceTags serviceId tags))) :
    Heard events (.ensureService params.producername) serviceId := by
  cases allowed with
  | reads reads => cases reads
  | prepare preparing prepares own => exact own serviceId tags rfl
  | refresh written identical untried follows => cases follows
  | follow written admitted landed applied follows => cases follows

theorem serviceNamed?_of_table {before after : Store} (name : String)
    (same : after.table .services = before.table .services) :
    after.serviceNamed? name = before.serviceNamed? name := by
  have rows : after.services = before.services := (Prod.mk.inj same).1
  rw [Store.serviceNamed?, Store.serviceNamed?, rows]

/-- A call that only prepares leaves what it finds, where it finds everything it would add. -/
theorem prepares_undisturbed {before : Store} {state : World} {events : Calls} {request : Call}
    (known : params.mayRelease = false ∨ Known params before)
    (kept : ∀ table ∉ telemetryTables, state.store.table table = before.table table)
    (ensured : ∀ service, before.serviceNamed? params.producername = some service →
      ∀ id, Heard events (.ensureService params.producername) id → id = service.id)
    (prepares : Prepares params request) (allowed : ProvideAllows deployment params events request)
    (table : Table) (outside : table ∉ telemetryTables) :
    (World.handle environment state request).1.store.table table = state.store.table table := by
  have knows : params.mayRelease = true → Known params before := fun released =>
    known.resolve_left (by simp [released])
  cases prepares with
  | telemetry telemetry =>
      cases telemetry with
      | reads reads => rw [World.handle_readsOnly environment state reads]
      | audit written username log =>
          exact World.handle_frame environment state fun among => outside (by simp_all [writes, telemetryTables])
      | event written emitted =>
          exact World.handle_frame environment state fun among => outside (by
            simp only [writes, List.mem_cons, List.not_mem_nil, or_false] at among
            rcases among with rfl | rfl <;> simp [telemetryTables])
  | service written released =>
      obtain ⟨service, found, -⟩ := knows released
      have there := (serviceNamed?_of_table params.producername
        (kept .services (by simp [telemetryTables]))).trans found
      obtain ⟨reason, failed, -⟩ | performed :=
        World.handle_repo environment state (.ensureService params.producername)
      · rw [failed]
      · rw [performed]
        change (state.store.ensureService params.producername).1.table table = _
        rw [Store.ensureService_known there]
  | tag written released serviceId tag auto =>
      obtain ⟨service, found, tagged⟩ := knows released
      have own := ensured service found serviceId (tag_own allowed)
      have tags : state.store.serviceTags = before.serviceTags :=
        kept .serviceTags (by simp [telemetryTables])
      have there : (serviceId, tag) ∈ state.store.serviceTags := by
        rw [tags, own]
        exact tagged tag auto
      obtain ⟨reason, failed, -⟩ | performed :=
        World.handle_repo environment state (.addServiceTags serviceId [tag])
      · rw [failed]
      · rw [performed]
        change (state.store.triedUnit (state.store.addServiceTags serviceId [tag])).1.table table = _
        rw [Store.addServiceTags_known there]

/-- What a call that only prepares has registered stays registered, with what it registers. -/
theorem prepares_registered {state : World} {request : Call} (prepares : Prepares params request) :
    (∀ row ∈ state.store.services,
        row ∈ (World.handle environment state request).1.store.services) ∧
      ∀ held ∈ state.store.serviceTags,
        held ∈ (World.handle environment state request).1.store.serviceTags := by
  have framed : ∀ request : RepoCall, .services ∉ writes request → .serviceTags ∉ writes request →
      (∀ row ∈ state.store.services,
          row ∈ (World.handle environment state (.repo request)).1.store.services) ∧
        ∀ held ∈ state.store.serviceTags,
          held ∈ (World.handle environment state (.repo request)).1.store.serviceTags := by
    intro request services tags
    rw [World.handle_services environment state services,
      World.handle_serviceTags environment state tags]
    exact ⟨fun _ => id, fun _ => id⟩
  cases prepares with
  | telemetry telemetry =>
      cases telemetry with
      | reads reads =>
          rw [World.handle_readsOnly environment state reads]
          exact ⟨fun _ => id, fun _ => id⟩
      | audit written username log => exact framed _ (by simp [writes]) (by simp [writes])
      | event written emitted => exact framed _ (by simp [writes]) (by simp [writes])
  | service written released =>
      rw [World.handle_serviceTags environment state (by simp [writes])]
      refine ⟨fun row among => ?_, fun _ => id⟩
      obtain ⟨reason, failed, -⟩ | performed :=
        World.handle_repo environment state (.ensureService params.producername)
      · rw [failed]
        exact among
      · rw [performed]
        exact Store.ensureService_grows state.store _ among
  | tag written released serviceId tag auto =>
      rw [World.handle_services environment state (by simp [writes])]
      refine ⟨fun _ => id, fun held among => ?_⟩
      obtain ⟨reason, failed, -⟩ | performed :=
        World.handle_repo environment state (.addServiceTags serviceId [tag])
      · rw [failed]
        exact among
      · rw [performed]
        change held ∈ (state.store.triedUnit (state.store.addServiceTags serviceId [tag])).1.serviceTags
        obtain ⟨error, -, same⟩ | ⟨after, added, same⟩ :=
          Store.triedUnit_cases state.store (state.store.addServiceTags serviceId [tag])
        · rw [same]
          exact among
        · rw [same]
          exact (Store.addServiceTags_mem added).2 held among

/-- What holds of the store and the history of a Provide while it only prepares. -/
structure Watched (params : ProvideSpecParams) (before : Store) (state : World) (events : Calls) :
    Prop where
  conflicts : ConflictsAtWrites events
  kept : params.mayRelease = false ∨ Known params before → Quiet params events →
    ∀ table ∉ telemetryTables, state.store.table table = before.table table
  ensured : params.mayRelease = false ∨ Known params before → Quiet params events →
    ∀ service, before.serviceNamed? params.producername = some service →
      ∀ id, Heard events (.ensureService params.producername) id → id = service.id
  services : Quiet params events → ∀ id, Heard events (.ensureService params.producername) id →
    ∃ row ∈ state.store.services, row.name = params.producername ∧ row.id = id
  tags : Quiet params events → ∀ id tag, Heard events (.addServiceTags id [tag]) () →
    (id, tag) ∈ state.store.serviceTags

/-- The answer of the store when a Producer is registered. -/
theorem ensureService_answer {state : World} {name : String} {id : Nat}
    (answered : (World.handle environment state (.repo (.ensureService name))).2 = .ok id) :
    ∃ row ∈ (World.handle environment state (.repo (.ensureService name))).1.store.services,
      row.name = name ∧ row.id = id := by
  obtain ⟨reason, failed, -⟩ | performed := World.handle_repo environment state (.ensureService name)
  · rw [failed] at answered
    cases answered
  · rw [performed] at answered ⊢
    have same : (state.store.ensureService name).2 = id := Except.ok.inj answered
    exact same ▸ Store.ensureService_mem state.store name

theorem addServiceTags_answer {state : World} {id : Nat} {tag : String}
    (answered : (World.handle environment state (.repo (.addServiceTags id [tag]))).2 = .ok ()) :
    (id, tag) ∈ (World.handle environment state
      (.repo (.addServiceTags id [tag]))).1.store.serviceTags := by
  obtain ⟨reason, failed, -⟩ | performed :=
    World.handle_repo environment state (.addServiceTags id [tag])
  · rw [failed] at answered
    cases answered
  · rw [performed] at answered ⊢
    change (state.store.triedUnit (state.store.addServiceTags id [tag])).2 = _ at answered
    change (id, tag) ∈ (state.store.triedUnit (state.store.addServiceTags id [tag])).1.serviceTags
    obtain ⟨error, -, same⟩ | ⟨after, added, same⟩ :=
      Store.triedUnit_cases state.store (state.store.addServiceTags id [tag])
    · rw [same] at answered
      cases answered
    · rw [same]
      exact (Store.addServiceTags_mem added).1

/-- The event that a call leaves behind carries the answer of the store. -/
theorem answer_of_event {state : World} {request : Call} {other : RepoCall}
    {answer : Except RepositoryError other.Result}
    (same : (⟨.repo other, answer⟩ : Event Call Call.Answer) =
      ⟨request, (World.handle environment state request).2⟩) :
    request = .repo other ∧ (World.handle environment state (.repo other)).2 = answer := by
  injection same with asked answered
  subst asked
  exact ⟨rfl, (eq_of_heq answered).symm⟩

/-- A Provide meets a conflict only where it writes its line's entry. -/
theorem provide_conflict {state : World} {events : Calls} {request : Call} {other : RepoCall}
    (allowed : ProvideAllows deployment params events request)
    (same : (⟨.repo other, .error .conflict⟩ : Event Call Call.Answer) =
      ⟨request, (World.handle environment state request).2⟩) : other.writesVersion = true := by
  obtain ⟨rfl, conflict⟩ := answer_of_event same
  exact World.handle_conflict (provideAllows_plain allowed) conflict

/-- A call that only prepares keeps what is watched. -/
theorem Watched.prepared {before : Store} {state : World} {events : Calls} {request : Call}
    (watched : Watched params before state events)
    (allowed : ProvideAllows deployment params events request)
    (prepares : Prepares params request) :
    Watched params before (World.handle environment state request).1
      (⟨request, (World.handle environment state request).2⟩ :: events) := by
  have registered := @prepares_registered params environment state request prepares
  obtain ⟨services, tags⟩ := registered
  exact
    { conflicts := by
        intro other among
        rcases List.mem_cons.mp among with same | earlier
        · exact provide_conflict allowed same
        · exact watched.conflicts other earlier
      kept := by
        intro known quiet table outside
        have kept := watched.kept known quiet.tail
        rw [prepares_undisturbed known kept (watched.ensured known quiet.tail) prepares allowed table
          outside]
        exact kept table outside
      ensured := by
        intro known quiet service found id heard
        rcases List.mem_cons.mp heard with same | earlier
        · have there := (serviceNamed?_of_table params.producername
            (watched.kept known quiet.tail .services (by simp [telemetryTables]))).trans found
          have answered := (answer_of_event same).2
          obtain ⟨reason, failed, -⟩ | performed :=
            World.handle_repo environment state (.ensureService params.producername)
          · rw [failed] at answered
            cases answered
          · rw [performed] at answered
            have answered : (state.store.ensureService params.producername).2 = id :=
              Except.ok.inj answered
            rw [← answered, Store.ensureService_known there]
        · exact watched.ensured known quiet.tail service found id earlier
      services := by
        intro quiet id heard
        rcases List.mem_cons.mp heard with same | earlier
        · obtain ⟨rfl, answered⟩ := answer_of_event same
          exact ensureService_answer answered
        · obtain ⟨row, among, named⟩ := watched.services quiet.tail id earlier
          exact ⟨row, services row among, named⟩
      tags := by
        intro quiet id tag heard
        rcases List.mem_cons.mp heard with same | earlier
        · obtain ⟨rfl, answered⟩ := answer_of_event same
          exact addServiceTags_answer answered
        · exact tags _ (watched.tags quiet.tail id tag earlier) }

/-- A write that was refused for what the line holds keeps what is watched. -/
theorem Watched.refused {before : Store} {state : World} {events : Calls}
    {record : UpsertSpecVersion} (watched : Watched params before state events)
    (conflict : (World.handle environment state (.repo (.upsertSpecVersion record))).2 =
      .error .conflict) :
    Watched params before (World.handle environment state (.repo (.upsertSpecVersion record))).1
      (⟨.repo (.upsertSpecVersion record), .error .conflict⟩ :: events) := by
  have same := World.handle_upsert_failed conflict
  have heard : ∀ {request : RepoCall} {result : request.Result},
      Heard (⟨.repo (.upsertSpecVersion record), .error .conflict⟩ :: events) request result →
        Heard events request result := by
    intro request result heard
    rcases List.mem_cons.mp heard with now | earlier
    · injection now with asked answered
      cases asked
      cases answered
    · exact earlier
  exact
    { conflicts := by
        intro other among
        rcases List.mem_cons.mp among with now | earlier
        · injection now with asked answered
          cases asked
          rfl
        · exact watched.conflicts other earlier
      kept := fun known quiet => same ▸ watched.kept known quiet.tail
      ensured := fun known quiet service found id told =>
        watched.ensured known quiet.tail service found id (heard told)
      services := fun quiet id told => same ▸ watched.services quiet.tail id (heard told)
      tags := fun quiet id tag told => same ▸ watched.tags quiet.tail id tag (heard told) }

/-- Every allowed call keeps what is watched: one that does more than prepare ends the watch. -/
theorem Watched.step {before : Store} {state : World} {events : Calls} {request : Call}
    (watched : Watched params before state events)
    (allowed : ProvideAllows deployment params events request) :
    Watched params before (World.handle environment state request).1
      (⟨request, (World.handle environment state request).2⟩ :: events) := by
  by_cases prepares : Prepares params request
  · exact watched.prepared allowed prepares
  · by_cases refused : ∃ record, (⟨request, (World.handle environment state request).2⟩ :
        Event Call Call.Answer) = ⟨.repo (.upsertSpecVersion record), .error .conflict⟩
    · obtain ⟨record, same⟩ := refused
      obtain ⟨rfl, conflict⟩ := answer_of_event same.symm
      rw [conflict]
      exact watched.refused conflict
    · have loud : ¬ Quiet params
          (⟨request, (World.handle environment state request).2⟩ :: events) := fun quiet =>
        (quiet _ List.mem_cons_self).elim prepares refused
      exact
        { conflicts := by
            intro other among
            rcases List.mem_cons.mp among with same | earlier
            · exact provide_conflict allowed same
            · exact watched.conflicts other earlier
          kept := fun _ quiet => absurd quiet loud
          ensured := fun _ quiet => absurd quiet loud
          services := fun quiet => absurd quiet loud
          tags := fun quiet => absurd quiet loud }

theorem watched_start (params : ProvideSpecParams) (world : World) :
    Watched params world.store world [] where
  conflicts _ among := by cases among
  kept _ _ _ _ := rfl
  ensured _ _ _ _ _ heard := by cases heard
  services _ _ heard := by cases heard
  tags _ _ _ heard := by cases heard

/-- A preview changes nothing, and a Provide that a rule refuses changes nothing but telemetry
exactly when its caller may not release, or the Producer was there with its tag. -/
theorem refused_changes_nothing_iff (deployment : Deployment) (params : ProvideSpecParams)
    (origin : VersionOrigin) (environment : Environment) (world after : World)
    (outcome : Except AppError ProvideResponse)
    (ran : (provideSpecInner deployment params origin).run (World.handle environment) world =
      some (outcome, after))
    (refused : params.dryRun = true ∨ ∃ error, outcome = .error error ∧ Refusal error) :
    ChangesNothing params world.store after.store ↔
      params.dryRun = true ∨ params.mayRelease = false ∨ Known params world.store := by
  by_cases preview : params.dryRun = true
  · simp [ChangesNothing, preview, preview_store preview ran]
  · obtain ⟨error, rfl, refusal⟩ := refused.resolve_left preview
    have written : params.dryRun = false := by simpa using preview
    obtain ⟨events, replayed⟩ := Program.replay_of_run [] ran
    have along : (provideSpecInner deployment params origin).Along
        (ProvideAllows deployment params) (ProvideDone deployment params)
        (ProvideFailed deployment params) [] :=
      along_provideSpecInner deployment origin (by simp)
    obtain ⟨watched, -, failed⟩ := along.replay (Watched params world.store)
      (fun state events request watched allowed => watched.step allowed)
      (watched_start params world) replayed
    obtain ⟨quiet, ending⟩ := refused_quiet (failed error rfl) refusal watched.conflicts
    rw [ChangesNothing, if_neg preview]
    constructor
    · intro unchanged
      rcases ending with denied | ⟨serviceId, line, released, served⟩
      · exact .inr (.inl denied)
      · -- what was registered on the way was there before
        have services : after.store.services = world.store.services :=
          (Prod.mk.inj (unchanged .services (by simp [telemetryTables]))).1
        have tags : after.store.serviceTags = world.store.serviceTags :=
          unchanged .serviceTags (by simp [telemetryTables])
        obtain ⟨row, among, named, rfl⟩ := watched.services quiet serviceId (served.ensured written)
        rw [services] at among
        refine .inr (.inr ⟨row, named ▸ world.database.sound.serviceNamed?_of_mem among, ?_⟩)
        intro tag auto
        exact tags ▸ watched.tags quiet row.id tag (served.tagged written tag auto)
    · intro known
      exact watched.kept (known.resolve_left preview) quiet

/-- A release by a developer is refused and changes nothing. -/
theorem refused_changes_nothing_denied :
    ∃ error after, (provideSpecInner (quietService markerLibrary)
        { releaseOf "p" .proto "//sanshain-version:1" with caller := some (developer 2 "alice") }
        {}).run (World.handle steadyEnvironment) emptyWorld = some (.error error, after) ∧
      ChangesNothing { releaseOf "p" .proto "//sanshain-version:1" with
        caller := some (developer 2 "alice") } emptyWorld.store after.store := by
  have denied : refusedWith isForbidden (fun _ => true) ((provideSpecInner (quietService markerLibrary)
      { releaseOf "p" .proto "//sanshain-version:1" with caller := some (developer 2 "alice") }
      {}).run (World.handle steadyEnvironment) emptyWorld) = true := by decide +kernel
  obtain ⟨error, after, ran, forbidden, -⟩ := refusedWith_spec denied
  obtain ⟨message, rfl⟩ := (isForbidden_iff error).mp forbidden
  refine ⟨_, after, ran, ?_⟩
  exact (refused_changes_nothing_iff _ _ _ _ _ _ _ ran (.inr ⟨_, rfl, .unreleased message⟩)).mpr
    (.inr (.inl rfl))

/-- The service once "p" has released its message. -/
def releasedWorld : World :=
  ((opening (quietService channelLibrary) noForms emptyWorld messageRace).run
    (World.handle steadyEnvironment) (List.replicate 13 0)).state

/-- A Producer that is new stays registered when its first release is refused for a message of
another one. -/
theorem refused_producer_registered :
    ∃ message after, (provideSpecInner (quietService channelLibrary)
        (releaseOf "q" .asyncApi (channelText "integer")) {}).run (World.handle steadyEnvironment)
          releasedWorld = some (.error (.conflict message), after) ∧
      after.store.services ≠ releasedWorld.store.services ∧
      after.store.serviceTags ≠ releasedWorld.store.serviceTags := by
  have refused : refusedWith isConflict (fun after =>
      decide (after.store.services ≠ releasedWorld.store.services) &&
        decide (after.store.serviceTags ≠ releasedWorld.store.serviceTags))
      ((provideSpecInner (quietService channelLibrary)
        (releaseOf "q" .asyncApi (channelText "integer")) {}).run (World.handle steadyEnvironment)
          releasedWorld) = true := by decide +kernel
  obtain ⟨error, after, ran, conflict, changed⟩ := refusedWith_spec refused
  obtain ⟨message, rfl⟩ := (isConflict_iff error).mp conflict
  exact ⟨message, after, ran, by simpa using changed⟩

end Refusals
end Sanshain.Guarantees
