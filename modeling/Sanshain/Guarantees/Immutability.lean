import Sanshain.Guarantees.Clients

namespace Sanshain.Guarantees

open Sanshain.Data Sanshain.Domain Sanshain.Document Sanshain.Effects Sanshain.Application
open Sanshain.Infrastructure

section Concessions

/-- The answer that tells a writer it lost the race for its line. -/
def LostRace : (request : Call) → Call.Answer request → Prop
  | .repo (.upsertSpecVersion _), answer => answer = .error .conflict
  | _, _ => False

/-- What a writer that lost may still do, and how it ends. -/
abbrev GivesWay {Value : Type} (program : UseCase Value) : Prop :=
  program.Yields LostRace (fun request => request.readsOnly = true)
    fun error => ∃ message, error = .conflict message

variable {Value : Type} {deployment : Deployment} {params : ProvideSpecParams}

theorem givesWay_of_only {program : UseCase Value} {allowed : Call → Prop}
    {fails : Calls → AppError → Prop} (only : program.Only allowed fails)
    (other : ∀ record, ¬ allowed (.repo (.upsertSpecVersion record))) : GivesWay program := by
  refine Program.Along.yields (only []) fun events request answer among lost => ?_
  unfold LostRace at lost
  split at lost
  · exact other _ among
  · exact lost

theorem givesWay_of_reading {program : UseCase Value} {onDone : Calls → Value → Prop}
    {onFail : Calls → AppError → Prop}
    (along : program.Along (fun _ request => request.readsOnly = true) onDone onFail []) :
    GivesWay program := by
  refine along.yields fun events request answer reads lost => ?_
  unfold LostRace at lost
  split at lost
  · cases reads
  · exact lost

theorem givesWay_of_reads {program : UseCase Value} (reads : Reads program) : GivesWay program :=
  givesWay_of_reading (reads [])

theorem givesWay_repo {request : RepoCall} (other : request.writesVersion = false) :
    GivesWay (repo request) := by
  have only : (repo request).Only (fun asked => asked = .repo request) CallFailed := only_repo rfl
  refine givesWay_of_only only fun record same => ?_
  cases same
  cases other

theorem givesWay_of_telemetry {program : UseCase Value} {onDone : Calls → Value → Prop}
    {onFail : Calls → AppError → Prop}
    (along : program.Along (fun _ request => Telemetry params request) onDone onFail []) :
    GivesWay program := by
  refine along.yields fun events request answer told lost => ?_
  unfold LostRace at lost
  split at lost
  · cases told with
    | reads reads => cases reads
  · exact lost

theorem givesWay_of_follows {program : UseCase Value} {entryId : Nat}
    {fails : Calls → AppError → Prop} (only : program.Only (Application.Follows params entryId) fails) :
    GivesWay program := by
  refine givesWay_of_only only fun record => ?_
  rintro (reads | follows)
  · cases reads
  · cases follows

theorem givesWay_serviceFor (params : ProvideSpecParams) : GivesWay (serviceFor params) := by
  unfold serviceFor
  split
  · exact (givesWay_repo rfl).bind fun found => trivial
  · refine (givesWay_repo rfl).bind fun serviceId => ?_
    split
    · exact (givesWay_repo rfl).bind fun _ => trivial
    · trivial

theorem givesWay_applyContractOps (ops : List ContractOp) : GivesWay (applyContractOps ops) := by
  induction ops with
  | nil => trivial
  | cons op rest ih =>
      cases op <;> exact (givesWay_repo rfl).bind fun _ => ih

/-- A refused write is explained with one more read at most, and answers Conflict. -/
theorem explainRefusedWrite_concedes (record : UpsertSpecVersion) :
    (explainRefusedWrite record .conflict : UseCase Value).Concedes
      (fun request => request.readsOnly = true) fun error => ∃ message, error = .conflict message := by
  unfold explainRefusedWrite
  split
  · exact ⟨rfl, fun found => ⟨_, rfl, _, rfl⟩⟩
  · exact ⟨_, rfl⟩

theorem givesWay_explainRefusedWrite (record : UpsertSpecVersion) (error : RepositoryError) :
    GivesWay (explainRefusedWrite record error : UseCase Value) := by
  unfold explainRefusedWrite
  split
  · exact fun found => ⟨False.elim, trivial⟩
  · trivial

theorem givesWay_writeVersion (record : UpsertSpecVersion) : GivesWay (writeVersion record) := by
  intro answer
  constructor
  · intro lost
    cases lost
    exact explainRefusedWrite_concedes record
  · cases answer with
    | ok entryId => trivial
    | error error => exact givesWay_explainRefusedWrite record error

variable (submission : Submission deployment.external params)

theorem givesWay_recordProvided (origin : VersionOrigin) (serviceId : Nat) (harvest : Harvest)
    (existing : Option SpecVersionMeta) (ops : List ContractOp) (entryId : Nat) :
    GivesWay (recordProvided submission origin serviceId harvest existing ops entryId) := by
  refine (givesWay_applyContractOps ops).bind fun _ => ?_
  refine (givesWay_of_follows (only_recordOrigin submission origin existing entryId)).bind fun _ => ?_
  refine (givesWay_of_follows (only_touchTrunkOf submission entryId)).bind fun _ => ?_
  refine (givesWay_of_follows (only_recordMember submission serviceId entryId)).bind fun _ => ?_
  refine (givesWay_of_follows (only_auditPromotion submission existing entryId)).bind fun _ => ?_
  exact givesWay_of_follows (only_reconcile submission harvest entryId)

theorem givesWay_refreshIdentical (origin : VersionOrigin) (serviceId : Nat) (harvest : Harvest)
    (entry : SpecVersionMeta) : GivesWay (refreshIdentical submission origin serviceId harvest entry) := by
  unfold refreshIdentical
  split
  · trivial
  · refine (givesWay_of_follows (only_touchProvided params entry)).bind fun _ => ?_
    refine (givesWay_of_follows (only_touchTrunkOf submission entry.id)).bind fun _ => ?_
    refine (givesWay_of_follows (only_recordMember submission serviceId entry.id)).bind fun _ => ?_
    refine (givesWay_of_follows (only_reconcile submission harvest entry.id)).bind fun _ => ?_
    exact givesWay_of_follows (only_refreshOrigin submission origin entry)

theorem givesWay_provideFresh (origin : VersionOrigin) (serviceId : Nat)
    (line : List SpecVersionMeta) (harvest : Harvest) :
    GivesWay (provideFresh deployment submission origin serviceId line harvest) := by
  refine (givesWay_of_telemetry (along_gateNumber submission line [])).bind fun _ => ?_
  refine (givesWay_of_telemetry (along_gateCompatibility submission line [])).bind fun _ => ?_
  refine (givesWay_of_reads (reads_changesOf submission _)).bind fun changes => ?_
  refine (givesWay_of_telemetry (along_planContracts submission serviceId [])).bind fun ops => ?_
  dsimp only
  split
  · trivial
  · have written : GivesWay (writeProvided deployment submission origin serviceId line harvest ops) := by
      refine (givesWay_of_reads (reads_planProvideEvents origin line)).bind fun outbox => ?_
      refine (givesWay_of_reads reads_nowIso).bind fun now => ?_
      exact (givesWay_writeVersion _).bind fun entryId =>
        givesWay_recordProvided submission origin serviceId harvest _ ops entryId
    exact written.bind fun _ => trivial

theorem givesWay_provideSpecInner (deployment : Deployment) (params : ProvideSpecParams)
    (origin : VersionOrigin) : GivesWay (provideSpecInner deployment params origin) := by
  refine (givesWay_of_reads (reads_resolveStream _ _)).bind fun stream => ?_
  refine Program.Yields.ofExcept.bind fun submission => ?_
  refine (givesWay_of_telemetry (along_gateRelease submission [])).bind fun _ => ?_
  refine (givesWay_serviceFor params).bind fun serviceId => ?_
  refine (givesWay_of_reading (along_lineOf params.apiType serviceId [])).bind fun line => ?_
  refine (givesWay_of_telemetry (along_planHarvest submission [])).bind fun harvest => ?_
  split
  · exact (givesWay_refreshIdentical submission origin serviceId harvest _).bind fun _ => trivial
  · exact givesWay_provideFresh submission origin serviceId line harvest

/-- A writer that lost the race for its line answers Conflict after one more read at most. -/
theorem givesWay_program (deployment : Deployment) (forms : AnswerForms) (action : Action) :
    GivesWay (action.program deployment forms) := by
  have never : ∀ {program : UseCase Outcome} {allowed : Call → Prop}
      {fails : Calls → AppError → Prop}, program.Only allowed fails →
      (∀ record, ¬ allowed (.repo (.upsertSpecVersion record))) → GivesWay program :=
    fun only other => givesWay_of_only only other
  cases action with
  | provide params origin =>
      cases origin with
      | none => exact (givesWay_provideSpecInner deployment params {}).bind fun _ => trivial
      | some origin =>
          exact (Program.Yields.ofExcept.bind fun origin' =>
            givesWay_provideSpecInner deployment params origin').bind fun _ => trivial
  | promote producername apiType version caller =>
      have promoted : GivesWay (promoteVersion deployment producername apiType version caller) := by
        refine (givesWay_of_reading (along_findVersionEntry producername apiType version [])).bind
          fun entry => ?_
        refine (givesWay_repo rfl).bind fun content => ?_
        cases content with
        | none => trivial
        | some content => exact givesWay_provideSpecInner deployment _ {}
      exact promoted.bind fun _ => trivial
  | requireEndpoint params path method =>
      exact never ((only_requireEndpoint deployment forms params path method).bind fun _ => .done _)
        fun _ writes => by
          cases writes with
          | reads reads => cases reads
  | requireBundle params endpoints =>
      exact never ((only_requireBundle deployment forms params endpoints).bind fun _ => .done _)
        fun _ writes => by
          cases writes with
          | reads reads => cases reads
  | expireSnapshots =>
      refine never (only_cleanupExpiredSnapshots.bind fun _ => .done _) fun record => ?_
      rintro (reads | ⟨cutoff, same⟩)
      · cases reads
      · cases same
  | retire producer apiType caller dryRun =>
      have retired : GivesWay (retireProtocolFamily producer apiType caller dryRun) := by
        refine (along_retireProtocolFamily producer apiType caller dryRun).yields ?_
        intro events request answer allowed lost
        unfold LostRace at lost
        split at lost
        · cases allowed with
          | reads reads => cases reads
        · exact lost
      exact retired.bind fun _ => trivial
  | deleteProducer name =>
      exact never ((only_deleteProducer name).bind fun _ => .done _) fun record deletes => by
        cases deletes with
        | reads reads => cases reads
        | catalog forgets =>
            cases forgets with
            | reads reads => cases reads

end Concessions

section Immutability

variable {deployment : Deployment} {forms : AnswerForms} {environment : Environment} {world : World}
  {actions : List Action}

/-- Only the action that deletes a Producer administers. -/
theorem allows_plain {action : Action} (other : ∀ name, action ≠ .deleteProducer name)
    {events : Calls} {request : RepoCall} (allowed : action.Allows deployment events (.repo request)) :
    request.administers = false := by
  cases allowed with
  | reads reads => exact RepoCall.plain_of_readsOnly reads
  | submits params submits allowed => exact provideAllows_plain allowed
  | otherwise otherwise =>
      cases action with
      | deleteProducer deleted => exact absurd rfl (other deleted)
      | provide params origin => exact otherwise.elim
      | promote producername apiType version caller => exact otherwise.elim
      | requireEndpoint params path method =>
          cases otherwise with
          | reads reads => exact RepoCall.plain_of_readsOnly reads
          | _ => rfl
      | requireBundle params endpoints =>
          cases otherwise with
          | reads reads => exact RepoCall.plain_of_readsOnly reads
          | _ => rfl
      | expireSnapshots =>
          rcases otherwise with reads | ⟨cutoff, same⟩
          · exact RepoCall.plain_of_readsOnly reads
          · cases same
            rfl
      | retire producer apiType caller dryRun =>
          cases otherwise with
          | reads reads => exact RepoCall.plain_of_readsOnly reads
          | _ => rfl

/-- A released entry stands through every call that does not administer. -/
theorem handle_released (world : World) {request : Call}
    (plain : ∀ wanted, request = .repo wanted → wanted.administers = false) {standing : Standing}
    (released : standing.stability = .ga)
    (held : ∃ row ∈ world.store.specVersions, row.standing = standing) :
    ∃ row ∈ (World.handle environment world request).1.store.specVersions,
      row.standing = standing := by
  cases request with
  | repo request =>
      obtain ⟨reason, failed, -⟩ | performed := World.handle_repo environment world request
      · rw [failed]
        exact held
      · rw [performed]
        obtain ⟨row, among, rfl⟩ := held
        exact Store.released_stands world.store _ (plain request rfl) among released
  | _ => exact held

/-- A released entry stands as it is through every run of every other action. -/
theorem released_run (reached : Clients) (held : reached.Holds (fun _ => True)
    (Follows deployment actions)) (kept : ∀ name, Action.deleteProducer name ∉ actions)
    {row : SpecVersionRow} (among : row ∈ reached.state.store.specVersions)
    (released : row.entry.stability = .ga) (schedule : List Nat) :
    ∃ later ∈ (reached.run (World.handle environment) schedule).state.store.specVersions,
      later.standing = row.standing := by
  have start : reached.Holds (fun world => ∃ later ∈ world.store.specVersions,
      later.standing = row.standing) (Follows deployment actions) :=
    ⟨⟨row, among, rfl⟩, held.clients⟩
  refine (start.run ?_ schedule).state
  intro state place client request rest stands follows issued
  obtain ⟨action, there, allowed⟩ := follows.allows issued
  have other : ∀ name, action ≠ .deleteProducer name := by
    rintro name rfl
    exact kept name (List.mem_of_getElem? there)
  have plain : ∀ wanted, request = .repo wanted → wanted.administers = false := by
    rintro wanted rfl
    exact allows_plain other allowed
  exact ⟨handle_released state plain released stands, follows.turn issued _⟩

theorem reachable_follows (schedule : List Nat) :
    ((opening deployment forms world actions).run (World.handle environment) schedule).Holds
      (fun _ => True) (Follows deployment actions) :=
  reachable trivial (fun _ _ _ _ _ _ _ => trivial) schedule

theorem reachable_givesWay (schedule : List Nat) :
    ((opening deployment forms world actions).run (World.handle environment) schedule).Holds
      (fun _ => True) fun _ (client : ServiceClient) => GivesWay client.program := by
  have start : (opening deployment forms world actions).Holds (fun _ => True)
      fun _ (client : ServiceClient) => GivesWay client.program := by
    refine ⟨trivial, fun place client found => ?_⟩
    rw [opening, List.getElem?_map, Option.map_eq_some_iff] at found
    obtain ⟨action, -, rfl⟩ := found
    exact givesWay_program deployment forms action
  refine start.run ?_ schedule
  intro state place client request rest _ gives issued
  rw [issued] at gives
  exact ⟨trivial, (gives _).2⟩

/-- The store as a lost write leaves it, and the answer its writer is about to give. -/
theorem lost_turn {reached : Clients} (gives : ∀ (place : Nat) (client : ServiceClient),
    reached.clients[place]? = some client → GivesWay client.program) {place : Nat} {client : ServiceClient} {params : UpsertSpecVersion}
    (issues : reached.Issues place client (.repo (.upsertSpecVersion params)))
    (lost : reached.state.store.LostTo params) :
    (reached.turn (World.handle environment) place).state.store = reached.state.store ∧
      (environment.fault reached.state.steps = none →
        ∃ later, (reached.turn (World.handle environment) place).clients[place]? = some later ∧
          later.program.Concedes (fun request => request.readsOnly = true)
            fun error => ∃ message, error = .conflict message) := by
  obtain ⟨found, issued⟩ := issues
  obtain ⟨program, history⟩ := client
  have inside := (List.getElem?_eq_some_iff.mp found).1
  cases program with
  | call request rest =>
      cases issued
      have refused : (reached.state.database.perform (environment.clock reached.state.steps)
          (.upsertSpecVersion params)).2 = .error .conflict ∧
          (reached.state.database.perform (environment.clock reached.state.steps)
            (.upsertSpecVersion params)).1.store = reached.state.store := by
        have answered := Store.upsert_lost reached.state.database.sound lost
        change (Store.tried _ (Store.upsertSpecVersion _ params)).2 = _ ∧
          (Store.tried _ (Store.upsertSpecVersion _ params)).1 = _
        rw [answered]
        exact ⟨rfl, rfl⟩
      have moved : reached.turn (World.handle environment) place =
          ⟨(World.handle environment reached.state (.repo (.upsertSpecVersion params))).1,
            reached.clients.set place ⟨rest (World.handle environment reached.state
              (.repo (.upsertSpecVersion params))).2, ⟨.repo (.upsertSpecVersion params),
              (World.handle environment reached.state (.repo (.upsertSpecVersion params))).2⟩ ::
              history⟩⟩ := by
        simp [Pool.turn, found, Client.turn]
      rw [moved]
      constructor
      · obtain ⟨reason, failed, -⟩ | performed :=
          World.handle_repo environment reached.state (.upsertSpecVersion params)
        · rw [failed]
        · rw [performed]
          exact refused.2
      · intro reliable
        refine ⟨_, List.getElem?_set_self inside, ?_⟩
        refine (gives place _ found _).1 ?_
        change (World.handle environment reached.state (.repo (.upsertSpecVersion params))).2 =
          .error .conflict
        simp only [World.handle, reliable]
        exact refused.1
  | _ => cases issued

/-- However the steps of the clients interleave, a released entry is never changed or removed
again; and a writer that lost the race for its line leaves the store as it was, only reads on, and
has answered Conflict after its next turn at the latest. -/
theorem released_entries_stand (deployment : Deployment) (forms : AnswerForms)
    (environment : Environment) (world : World) (actions : List Action)
    (kept : ∀ name, Action.deleteProducer name ∉ actions) (before : List Nat) :
    let reached := (opening deployment forms world actions).run (World.handle environment) before
    (∀ row ∈ reached.state.store.specVersions, row.entry.stability = .ga → ∀ after,
      ∃ later ∈ (reached.run (World.handle environment) after).state.store.specVersions,
        later.standing = row.standing) ∧
    ∀ place client params, reached.Issues place client (.repo (.upsertSpecVersion params)) →
      reached.state.store.LostTo params →
        (reached.turn (World.handle environment) place).state.store = reached.state.store ∧
        (environment.fault reached.state.steps = none → ∀ after,
          let later := (reached.turn (World.handle environment) place).run
            (World.handle environment) after
          (later.turn (World.handle environment) place).state.store = later.state.store ∧
            (place ∈ after → ∃ loser message, later.clients[place]? = some loser ∧
              loser.outcome? = some (.error (.conflict message)))) := by
  intro reached
  constructor
  · intro row among released after
    exact released_run reached (reachable_follows before) kept among released after
  · intro place client params issues lost
    obtain ⟨same, conceding⟩ := lost_turn
      (reachable_givesWay before).clients issues lost
    refine ⟨same, fun reliable after => ?_⟩
    obtain ⟨loser, found, concedes⟩ := conceding reliable
    obtain ⟨last, there, conceded, ended⟩ := Pool.conceded_run found concedes after
    constructor
    · obtain still | ⟨other, request, rest, held, issued, moved⟩ :=
        Pool.turn_cases (World.handle environment) _ place
      · rw [still]
      · rw [moved]
        cases there.symm.trans held
        rw [issued] at conceded
        exact World.handle_readsOnly environment _ conceded.1
    · intro moves
      obtain ⟨error, failed⟩ := ended (.inl moves)
      rw [failed] at conceded
      obtain ⟨message, rfl⟩ := conceded
      exact ⟨last, message, there, by simp [Client.outcome?, failed]⟩

/-- Whether the next call of a client is a write that a released entry refuses. -/
def losesToRelease (pool : Clients) (place : Nat) : Bool :=
  match (pool.clients[place]?).bind Client.next? with
  | some (.repo (.upsertSpecVersion params)) =>
      (pool.state.store.specVersion? (UpsertSpecVersion.key params)).any (·.entry.stability = .ga)
  | _ => false

theorem losesToRelease_spec {pool : Clients} {place : Nat} (loses : losesToRelease pool place = true) :
    ∃ client params, pool.Issues place client (.repo (.upsertSpecVersion params)) ∧
      pool.state.store.LostTo params ∧
      ∃ row ∈ pool.state.store.specVersions, row.entry.stability = .ga := by
  unfold losesToRelease at loses
  split at loses
  · rename_i params next
    obtain ⟨client, found, issued⟩ := Option.bind_eq_some_iff.mp next
    obtain ⟨row, stored, released⟩ := (Option.any_eq_true _ _).mp loses
    rw [decide_eq_true_eq] at released
    exact ⟨client, params, ⟨found, issued⟩, .inl ⟨row, stored, released⟩, row,
      (Store.mem_of_specVersion? stored).1, released⟩
  · cases loses

/-- A release that listed an empty line loses to the one that landed first, which stands. -/
theorem released_entries_stand_race :
    let reached := (opening (quietService markerLibrary) noForms emptyWorld releaseRace).run
      (World.handle steadyEnvironment) [0, 0, 0, 0, 1, 1, 1, 1, 1]
    (∃ row ∈ reached.state.store.specVersions, row.entry.stability = .ga ∧ ∀ after,
      ∃ later ∈ (reached.run (World.handle steadyEnvironment) after).state.store.specVersions,
        later.standing = row.standing) ∧
    ∃ client params, reached.Issues 0 client (.repo (.upsertSpecVersion params)) ∧
      (reached.turn (World.handle steadyEnvironment) 0).state.store = reached.state.store ∧
      ∃ loser message, ((reached.turn (World.handle steadyEnvironment) 0).run
          (World.handle steadyEnvironment) [0]).clients[0]? = some loser ∧
        loser.outcome? = some (.error (.conflict message)) := by
  intro reached
  have kept : ∀ name, Action.deleteProducer name ∉ releaseRace := by
    simp [releaseRace]
  obtain ⟨stand, lose⟩ := released_entries_stand (quietService markerLibrary) noForms
    steadyEnvironment emptyWorld releaseRace kept [0, 0, 0, 0, 1, 1, 1, 1, 1]
  have loses : losesToRelease reached 0 = true := by decide +kernel
  obtain ⟨client, params, issues, lost, row, among, released⟩ := losesToRelease_spec loses
  refine ⟨⟨row, among, released, stand row among released⟩, client, params, issues, ?_⟩
  obtain ⟨same, later⟩ := lose 0 client params issues lost
  exact ⟨same, (later rfl [0]).2 (by simp)⟩

end Immutability
end Sanshain.Guarantees
