import Sanshain.Application.Origins
import Sanshain.Application.ProvideRules
import Sanshain.Effects.Ensures
import Sanshain.Guarantees.Clients
import Sanshain.Guarantees.Runs
import Sanshain.Infrastructure.Lines
import Sanshain.Infrastructure.Registration

namespace Sanshain.Guarantees

open Sanshain.Data Sanshain.Domain Sanshain.Document Sanshain.Effects Sanshain.Application
open Sanshain.Infrastructure

section Sparing

variable {environment : Environment} {Value : Type}

/-- A call that neither registers a Producer, nor writes an entry of a line, nor an origin. -/
def SparesOrigins : Call → Prop
  | .repo call => .services ∉ writes call ∧ .origins ∉ writes call ∧ call.writesVersion = false
  | .nowIso | .newUuid => True

/-- Under one key the entry has this identity. -/
def HasId (key : Nat × ApiType × SemVer) (id : Nat) (store : Store) : Prop :=
  ∀ row ∈ store.specVersions, row.key = key → row.entry.id = id

theorem writes_readsOnly {call : RepoCall} (reads : (Call.repo call).readsOnly = true) :
    writes call = [] := by
  cases call <;> first | rfl | cases reads

theorem sparesOrigins_reads {request : Call} (reads : request.readsOnly = true) :
    SparesOrigins request := by
  cases request with
  | repo call =>
      refine ⟨by simp [writes_readsOnly reads], by simp [writes_readsOnly reads], ?_⟩
      cases call <;> first | rfl | cases reads
  | nowIso => trivial
  | newUuid => trivial

theorem sparesOrigins_telemetry {params : ProvideSpecParams} {request : Call}
    (told : Telemetry params request) : SparesOrigins request := by
  cases told with
  | reads reads => exact sparesOrigins_reads reads
  | audit => exact ⟨by simp [writes], by simp [writes], rfl⟩
  | event => exact ⟨by simp [writes], by simp [writes], rfl⟩

/-- What a use case of such calls leaves as it was. -/
structure OriginsKept (before after : Store) : Prop where
  services : after.table .services = before.table .services
  origins : after.table .origins = before.table .origins
  ids : ∀ key id, HasId key id before → HasId key id after

theorem OriginsKept.refl (store : Store) : OriginsKept store store := ⟨rfl, rfl, fun _ _ held => held⟩

theorem OriginsKept.trans {before middle after : Store} (first : OriginsKept before middle)
    (second : OriginsKept middle after) : OriginsKept before after :=
  ⟨second.services.trans first.services, second.origins.trans first.origins,
    fun key id held => second.ids key id (first.ids key id held)⟩

theorem handle_spared (world : World) {request : Call} (spares : SparesOrigins request) :
    OriginsKept world.store (World.handle environment world request).1.store := by
  cases request with
  | nowIso => exact .refl _
  | newUuid => exact .refl _
  | repo call =>
      obtain ⟨services, origins, plain⟩ := spares
      refine ⟨World.handle_frame environment world services,
        World.handle_frame environment world origins, fun key id held row among same => ?_⟩
      obtain ⟨reason, failed, -⟩ | performed := World.handle_repo environment world call
      · rw [failed] at among
        exact held row among same
      · rw [performed] at among
        obtain ⟨earlier, there, stood⟩ | ⟨params, other, rfl, -, -⟩ :=
          Store.standing_before world.store (environment.clock world.steps) among
        · have keys : earlier.key = row.key := congrArg Standing.key stood
          have ids : earlier.entry.id = row.entry.id := congrArg Standing.id stood
          rw [← ids]
          exact held earlier there (keys.trans same)
        · cases plain

theorem ran_along_spared {program : UseCase Value} {onDone : Calls → Value → Prop}
    {onFail : Calls → AppError → Prop} {world after : World} {outcome : Except AppError Value}
    (along : program.Along (fun _ request => SparesOrigins request) onDone onFail [])
    (ran : program.run (World.handle environment) world = some (outcome, after)) :
    OriginsKept world.store after.store ∧
      ∀ value, outcome = .ok value → ∃ events, onDone events value := by
  obtain ⟨events, replayed⟩ := Program.replay_of_run [] ran
  obtain ⟨spared, done, -⟩ := along.replay (fun reached _ => OriginsKept world.store reached.store)
    (fun reached _ request kept spares => kept.trans (handle_spared reached spares)) (.refl _) replayed
  exact ⟨spared, fun value same => ⟨events, done value same⟩⟩

/-- A use case of such calls only. -/
abbrev Sparing (program : UseCase Value) : Prop := program.Only SparesOrigins fun _ _ => True

theorem ran_spared {program : UseCase Value} (sparing : Sparing program) {world after : World}
    {outcome : Except AppError Value}
    (ran : program.run (World.handle environment) world = some (outcome, after)) :
    OriginsKept world.store after.store :=
  (ran_along_spared (sparing []) ran).1

theorem sparing_repo {call : RepoCall} (spares : SparesOrigins (.repo call)) : Sparing (repo call) :=
  (only_repo spares).mono (fun _ held => held) fun _ _ _ => trivial

theorem sparing_nowIso : Sparing nowIso := only_nowIso trivial

theorem sparing_of_reads {program : UseCase Value} (reads : Reads program) : Sparing program :=
  reads.mono (fun _ => sparesOrigins_reads) fun _ _ _ => trivial

variable {external : External} {params : ProvideSpecParams} (submission : Submission external params)

theorem sparing_touchProvided (entry : SpecVersionMeta) : Sparing (touchProvided entry) := by
  unfold touchProvided
  split
  · exact sparing_nowIso.bind fun now => sparing_repo ⟨by simp [writes], by simp [writes], rfl⟩
  · exact .done ()

theorem sparing_touchTrunkOf (specVersionId : Nat) : Sparing (touchTrunkOf submission specVersionId) := by
  unfold touchTrunkOf
  split
  · exact sparing_nowIso.bind fun now => sparing_repo ⟨by simp [writes], by simp [writes], rfl⟩
  · exact .done ()

theorem sparing_recordMember (serviceId : Nat) : Sparing (recordMember submission serviceId) := by
  unfold recordMember
  split
  · exact sparing_nowIso.bind fun now => sparing_repo ⟨by simp [writes], by simp [writes], rfl⟩
  · exact .done ()

theorem sparing_auditPromotion (existing : Option SpecVersionMeta) :
    Sparing (auditPromotion submission existing) := by
  unfold auditPromotion
  split
  · exact (only_tryRepo ⟨by simp [writes], by simp [writes], rfl⟩).bind fun _ => .done ()
  · exact .done ()

theorem sparing_reconcile (harvest : Harvest) : Sparing (reconcile submission harvest) := by
  unfold reconcile
  split
  · refine (sparing_repo ⟨by simp [writes], by simp [writes], rfl⟩).bind fun clientId => ?_
    exact sparing_nowIso.bind fun now => sparing_repo ⟨by simp [writes], by simp [writes], rfl⟩
  · exact .done ()

theorem sparing_applyContractOps (ops : List ContractOp) : Sparing (applyContractOps ops) := by
  induction ops with
  | nil => exact .done ()
  | cons op rest ih =>
      cases op with
      | upsert contract =>
          exact (sparing_repo ⟨by simp [writes], by simp [writes], rfl⟩).bind fun _ => ih
      | delete channel messageName =>
          exact (sparing_repo ⟨by simp [writes], by simp [writes], rfl⟩).bind fun _ => ih

end Sparing

section Lines

variable {environment : Environment} {external : External} {params : ProvideSpecParams}
  {submission : Submission external params} {store : Store}

/-- The entry that stands on the line of a Provide under a number. -/
def standingRow (store : Store) (params : ProvideSpecParams) (version : SemVer) : Option SpecVersionRow :=
  (store.serviceNamed? params.producername).bind fun service =>
    store.specVersion? (service.id, params.apiType, version)

theorem standingRow_congr {before after : Store} (services : after.services = before.services)
    (rows : after.specVersions = before.specVersions) (params : ProvideSpecParams) (version : SemVer) :
    standingRow after params version = standingRow before params version := by
  unfold standingRow Store.serviceNamed? Store.specVersion?
  rw [services, rows]

theorem existing_listed (sound : store.Integrity) (serviceId : Nat) :
    submission.existing ((store.listSpecVersions serviceId).filter (·.apiType = params.apiType)) =
      (store.specVersion? (serviceId, params.apiType, submission.version)).map (·.entry) := by
  unfold Submission.existing
  cases found : ((store.listSpecVersions serviceId).filter (·.apiType = params.apiType)).find?
      (·.version = submission.version) with
  | some entry =>
      have number : entry.version = submission.version := by simpa using List.find?_some found
      obtain ⟨listed, kind⟩ := List.mem_filter.mp (List.mem_of_find?_eq_some found)
      obtain ⟨row, among, mine, rfl⟩ := Store.mem_listSpecVersions.mp listed
      have key : row.key = (serviceId, params.apiType, submission.version) := by
        rw [SpecVersionRow.key, mine, number, of_decide_eq_true kind]
      rw [← key, sound.specVersion?_of_mem among]
      rfl
  | none =>
      cases stored : store.specVersion? (serviceId, params.apiType, submission.version) with
      | none => rfl
      | some row =>
          obtain ⟨among, key⟩ := Store.mem_of_specVersion? stored
          simp only [SpecVersionRow.key, Prod.mk.injEq] at key
          have listed : row.entry ∈
              (store.listSpecVersions serviceId).filter (·.apiType = params.apiType) :=
            List.mem_filter.mpr ⟨Store.mem_listSpecVersions.mpr ⟨row, among, key.1, rfl⟩,
              decide_eq_true key.2.1⟩
          exact absurd (decide_eq_true key.2.2) (List.find?_eq_none.mp found _ listed)

/-- No entry stands under an identity that no Producer has. -/
theorem specVersion?_unknown (sound : store.Integrity) {serviceId : Nat}
    (unknown : ∀ service ∈ store.services, service.id ≠ serviceId) (apiType : ApiType)
    (version : SemVer) : store.specVersion? (serviceId, apiType, version) = none := by
  cases found : store.specVersion? (serviceId, apiType, version) with
  | none => rfl
  | some row =>
      obtain ⟨among, key⟩ := Store.mem_of_specVersion? found
      obtain ⟨service, there, same⟩ :=
        (Store.serviceName?_isSome_iff store _).mp (sound.versionService row among)
      simp only [SpecVersionRow.key, Prod.mk.injEq] at key
      exact absurd (same.trans key.1) (unknown service there)

/-- What a Provide knows when it has read its line. -/
structure OnLine (submission : Submission external params) (world reached : World) (serviceId : Nat)
    (line : List SpecVersionMeta) : Prop where
  origins : reached.store.table .origins = world.store.table .origins
  found : submission.existing line =
    (standingRow world.store params submission.version).map (·.entry)
  named : params.dryRun = false →
    (reached.store.serviceNamed? params.producername).map (·.id) = some serviceId

theorem origins_ensureService (store : Store) (name : String) :
    (store.ensureService name).1.table .origins = store.table .origins ∧
      (store.ensureService name).1.specVersions = store.specVersions :=
  ⟨Store.table_ensureService store name (by decide),
    (Prod.mk.inj (@Store.table_ensureService .specVersions store name (by decide))).1⟩

/-- The identity under which the line is read is that of the Producer, and else of nobody. -/
theorem ran_serviceFor {world reached : World} {serviceId : Nat}
    (ran : (serviceFor params).run (World.handle environment) world = some (.ok serviceId, reached)) :
    reached.store.table .origins = world.store.table .origins ∧
      reached.store.specVersions = world.store.specVersions ∧
      (∀ version, world.store.specVersion? (serviceId, params.apiType, version) =
        standingRow world.store params version) ∧
      (params.dryRun = false →
        (reached.store.serviceNamed? params.producername).map (·.id) = some serviceId) := by
  have sound := world.database.sound
  have fresh := sound.serviceFresh
  have lookup : ∀ id : Nat, (∀ service, world.store.serviceNamed? params.producername = some service →
      id = service.id) → (world.store.serviceNamed? params.producername = none →
      ∀ service ∈ world.store.services, service.id ≠ id) → ∀ version,
      world.store.specVersion? (id, params.apiType, version) = standingRow world.store params version := by
    intro id known unknown version
    unfold standingRow
    cases found : world.store.serviceNamed? params.producername with
    | some service => rw [known service found, Option.bind_some]
    | none => exact specVersion?_unknown sound (unknown found) _ _
  unfold serviceFor at ran
  split at ran
  · rename_i preview
    obtain ⟨found, middle, looked, rest⟩ := Program.run_bind_ok ran
    obtain ⟨⟨now, answered⟩, same⟩ := ran_reading rfl looked
    cases rest
    cases answered
    refine ⟨by rw [same], by rw [same], lookup _ ?_ ?_, fun written => by rw [preview] at written; cases written⟩
    · intro service named
      rw [named]
      rfl
    · intro named service among
      rw [named]
      exact (fresh service among).1.ne'
  · obtain ⟨id, middle, ensured, rest⟩ := Program.run_bind_ok ran
    obtain ⟨now, answered, same⟩ := ran_repo ensured
    have identity : id = (world.store.ensureService params.producername).2 := by
      cases answered
      rfl
    have store : middle.store = (world.store.ensureService params.producername).1 := same
    have kept : reached.store.table .origins = middle.store.table .origins ∧
        reached.store.specVersions = middle.store.specVersions ∧
        reached.store.services = middle.store.services ∧ serviceId = id := by
      split at rest
      · obtain ⟨_, last, tagged, rest⟩ := Program.run_bind_ok rest
        obtain ⟨now', -, same'⟩ := ran_repo tagged
        cases rest
        rw [same']
        refine ⟨Store.perform_frame _ _ (by simp [writes]), ?_, ?_, rfl⟩
        · exact Store.specVersions_of_frame (Store.perform_frame _ _ (by simp [writes]))
        · exact (Prod.mk.inj (@Store.perform_frame .services middle.store now' _ (by simp [writes]))).1
      · cases rest
        exact ⟨rfl, rfl, rfl, rfl⟩
    obtain ⟨origins, rows, services, rfl⟩ := kept
    rw [origins, rows, store]
    refine ⟨(origins_ensureService _ _).1, (origins_ensureService _ _).2, lookup _ ?_ ?_, fun _ => ?_⟩
    · intro service named
      rw [identity, Store.ensureService_known named]
    · intro named service among
      rw [identity, Store.ensureService, named]
      exact (fresh service among).2.ne
    · unfold Store.serviceNamed? at *
      rw [services, store, identity]
      unfold Store.ensureService Store.serviceNamed?
      cases named : world.store.services.find? (·.name = params.producername) with
      | some service => simp [named]
      | none => simp [List.find?_append, named]

end Lines

section Runs

variable {environment : Environment} {deployment : Deployment} {params : ProvideSpecParams}
  {origin : VersionOrigin} {world after : World} {response : ProvideResponse}

theorem trunk_resolveStream {trunk : Bool} {tag : Option String} {stream : ResolvedStream}
    (ran : (resolveStream trunk tag).run (World.handle environment) world = some (.ok stream, after)) :
    stream.trunk = (trunk && tag.isNone) := by
  unfold resolveStream at ran
  cases tag with
  | none =>
      cases ran
      simp
  | some name =>
      cases trunk with
      | true =>
          cases ran
          rfl
      | false =>
          obtain ⟨found, middle, -, rest⟩ := Program.run_bind_ok ran
          cases found <;> cases rest <;> rfl

theorem readSubmission_stream {external : External} {stream : ResolvedStream}
    {submission : Submission external params}
    (read : readSubmission external params stream = .ok submission) : submission.stream = stream := by
  unfold readSubmission at read
  split at read
  · cases read
    rfl
  · cases read

/-- A refusal is answered, whatever becomes of its record. -/
theorem ran_refuse {submission : Submission deployment.external params} {Value : Type} {reason text : String} {offered : Option SemVer} {error : AppError}
    {outcome : Except AppError Value}
    (ran : (refuse deployment submission reason text offered error).run (World.handle environment) world =
      some (outcome, after)) : outcome = .error error := by
  obtain ⟨failure, rfl, recorded⟩ | ⟨_, middle, -, ended⟩ := Program.run_bind_cases ran
  · obtain ⟨events, failed⟩ :=
      failed_along (only_recordVersionRejection deployment params _ []) recorded
    exact failed.elim
  · cases ended
    rfl

/-- A plan that ends well was not refused. -/
theorem ran_orRefuseContract {submission : Submission deployment.external params} {Value : Type}
    {plan : UseCase Value} {value : Value}
    (ran : (orRefuseContract deployment submission plan).run (World.handle environment) world =
      some (.ok value, after)) : plan.run (World.handle environment) world = some (.ok value, after) := by
  obtain ⟨outcome, middle, attempted, rest⟩ := Program.run_bind_ok ran
  rw [Program.run_attempt, Option.map_eq_some_iff] at attempted
  obtain ⟨ended, planned, same⟩ := attempted
  obtain ⟨first, last⟩ := ended
  cases same
  cases first with
  | ok found =>
      cases rest
      exact planned
  | error error =>
      cases error with
      | conflict text => cases ran_refuse rest
      | breakingChange text => cases ran_refuse rest
      | _ => cases rest

/-- Telemetry leaves the entries of the lines alone. -/
theorem ran_telemetry {Value : Type} {program : UseCase Value} {onDone : Calls → Value → Prop}
    {onFail : Calls → AppError → Prop} {outcome : Except AppError Value}
    (along : program.Along (fun _ request => Telemetry params request) onDone onFail [])
    (ran : program.run (World.handle environment) world = some (outcome, after)) :
    after.store.table .specVersions = world.store.table .specVersions := by
  obtain ⟨events, replayed⟩ := Program.replay_of_run [] ran
  refine (along.replay (fun reached _ => reached.store.table .specVersions =
    world.store.table .specVersions) ?_ rfl replayed).1
  intro reached _ request kept told
  cases told with
  | reads reads => rw [World.handle_readsOnly environment reached reads, kept]
  | audit => rw [World.handle_frame environment reached (by simp [writes]), kept]
  | event => rw [World.handle_frame environment reached (by simp [writes]), kept]

theorem ran_lineOf {serviceId : Nat} {line : List SpecVersionMeta}
    (ran : (lineOf params.apiType serviceId).run (World.handle environment) world =
      some (.ok line, after)) :
    after.store = world.store ∧ ∀ {external : External} (submission : Submission external params),
      submission.existing line =
        (world.store.specVersion? (serviceId, params.apiType, submission.version)).map (·.entry) := by
  unfold lineOf at ran
  split at ran
  · obtain ⟨entries, middle, listed, rest⟩ := Program.run_bind_ok ran
    obtain ⟨⟨now, answered⟩, same⟩ := ran_reading rfl listed
    cases rest
    cases answered
    exact ⟨same, fun submission => existing_listed world.database.sound serviceId⟩
  · rename_i nobody
    cases ran
    refine ⟨rfl, fun submission => ?_⟩
    have unknown : ∀ service ∈ world.store.services, service.id ≠ serviceId := by
      intro service among same
      exact nobody (same ▸ (world.database.sound.serviceFresh service among).1.ne')
    rw [specVersion?_unknown world.database.sound unknown]
    rfl

/-- What is known of the line once it was read and a harvest was planned. -/
theorem onLine_planned {first third fourth fifth reached : World}
    {submission : Submission deployment.external params} {serviceId : Nat}
    {line : List SpecVersionMeta} {harvest : Harvest} (kept : first.store = world.store)
    (gated : (gateRelease deployment submission).run (World.handle environment) first =
      some (.ok (), third))
    (served : (serviceFor params).run (World.handle environment) third = some (.ok serviceId, fourth))
    (listed : (lineOf params.apiType serviceId).run (World.handle environment) fourth =
      some (.ok line, fifth))
    (planned : (planHarvest deployment submission).run (World.handle environment) fifth =
      some (.ok harvest, reached)) : OnLine submission world reached serviceId line := by
  have gate := (ran_along_spared ((along_gateRelease submission []).mono
    (fun _ _ => sparesOrigins_telemetry) (fun _ _ held => held) fun _ _ failed => failed) gated).1
  have plan := (ran_along_spared ((along_planHarvest submission []).mono
    (fun _ _ => sparesOrigins_telemetry) (fun _ _ held => held) fun _ _ failed => failed) planned).1
  have rows := ran_telemetry (along_gateRelease submission []) gated
  obtain ⟨origins, versions, lookup, named⟩ := ran_serviceFor served
  obtain ⟨shown, found⟩ := ran_lineOf listed
  have standing : standingRow third.store params submission.version =
      standingRow world.store params submission.version := by
    refine standingRow_congr ?_ ?_ _ _
    · rw [(Prod.mk.inj gate.services).1, kept]
    · rw [(Prod.mk.inj rows).1, kept]
  refine ⟨?_, ?_, fun written => ?_⟩
  · rw [plan.origins, shown, origins, gate.origins, kept]
  · rw [found submission, ← standing, ← lookup, Store.specVersion?, Store.specVersion?, versions]
  · have same : reached.store.services = fourth.store.services :=
      (Prod.mk.inj plan.services).1.trans (by rw [shown])
    rw [Store.serviceNamed?, same]
    exact named written

/-- A Provide that was answered read its line, and went on from there. -/
theorem ran_provide
    (ran : (provideSpecInner deployment params origin).run (World.handle environment) world =
      some (.ok response, after)) :
    ∃ (submission : Submission deployment.external params) (serviceId : Nat)
      (line : List SpecVersionMeta) (harvest : Harvest) (reached : World),
      submission.stream.trunk = (params.trunk && params.tag.isNone) ∧
      OnLine submission world reached serviceId line ∧
      (match (submission.existing line).filter submission.isNoOp with
        | some entry => (refreshIdentical submission origin serviceId harvest entry).bind fun _ =>
            .done (identicalResponse submission harvest entry)
        | none => provideFresh deployment submission origin serviceId line harvest).run
          (World.handle environment) reached = some (.ok response, after) := by
  obtain ⟨stream, first, resolved, reading⟩ := Program.run_bind_ok ran
  obtain ⟨submission, second, read, gating⟩ := Program.run_bind_ok reading
  obtain ⟨_, third, gated, serving⟩ := Program.run_bind_ok gating
  obtain ⟨serviceId, fourth, served, listing⟩ := Program.run_bind_ok serving
  obtain ⟨line, fifth, listed, planning⟩ := Program.run_bind_ok listing
  obtain ⟨harvest, reached, planned, ends⟩ := Program.run_bind_ok planning
  have kept := ran_only_reads (reads_resolveStream _ _) resolved
  obtain ⟨taken, rfl⟩ := Program.run_ofExcept_ok read
  refine ⟨submission, serviceId, line, harvest, reached, ?_,
    onLine_planned kept gated served listed planned, ends⟩
  rw [readSubmission_stream taken, trunk_resolveStream resolved]

/-- The origin that is stored of an entry. -/
def originOf (store : Store) (specVersionId : Nat) : Option VersionOrigin :=
  (store.origins.find? (·.specVersionId = specVersionId)).map (·.origin)

theorem originOf_spared {before after : Store} (spared : OriginsKept before after) (specVersionId : Nat) :
    originOf after specVersionId = originOf before specVersionId := by
  have same : after.origins = before.origins := spared.origins
  rw [originOf, originOf, same]

theorem originOf_setVersionOrigin (store : Store) (specVersionId : Nat) (origin : VersionOrigin)
    (now : Instant) : originOf (store.setVersionOrigin specVersionId origin now) specVersionId =
      if origin.isEmpty then none else some origin := by
  have others : (store.origins.filter fun row => decide (row.specVersionId ≠ specVersionId)).find?
      (fun row => decide (row.specVersionId = specVersionId)) = none := by
    simp
  unfold originOf Store.setVersionOrigin
  dsimp only
  split
  · rw [others]
    rfl
  · rw [List.find?_append, others]
    simp

theorem ran_setVersionOrigin {specVersionId : Nat} {now : Instant}
    (ran : (repo (.setVersionOrigin specVersionId origin now)).run (World.handle environment) world =
      some (.ok (), after)) :
    originOf after.store specVersionId = if origin.isEmpty then none else some origin := by
  obtain ⟨now', -, same⟩ := ran_repo ran
  rw [same]
  exact originOf_setVersionOrigin world.store specVersionId origin now

theorem merged_speaks {stored : Option VersionOrigin} {incoming merged : VersionOrigin} {trunk : Bool}
    (speaks : incoming.isEmpty = false)
    (merges : originForIdenticalProvide stored incoming trunk = some merged) : merged.isEmpty = false := by
  unfold originForIdenticalProvide at merges
  dsimp only at merges
  split at merges
  · cases merges
    exact speaks
  · split at merges
    · rename_i linked
      cases merges
      rw [Bool.and_eq_true, Bool.and_eq_true, Option.isSome_iff_exists] at linked
      obtain ⟨⟨-, link, linked⟩, -⟩ := linked
      simp [VersionOrigin.isEmpty, linked]
    · cases merges

variable {submission : Submission deployment.external params} {entry : SpecVersionMeta}

theorem ran_refreshOrigin
    (ran : (refreshOrigin submission origin entry).run (World.handle environment) world =
      some (.ok (), after)) :
    originOf after.store entry.id =
      settle (originOf world.store entry.id) ⟨origin, submission.stream.trunk⟩ := by
  unfold refreshOrigin at ran
  split at ran
  · rename_i silent
    cases ran
    exact (settle_silent (by simp [Offer.speaks, silent]) _).symm
  · rename_i speaks
    have said : origin.isEmpty = false := Bool.eq_false_of_not_eq_true speaks
    obtain ⟨stored, middle, read, rest⟩ := Program.run_bind_ok ran
    obtain ⟨⟨now, answered⟩, same⟩ := ran_reading rfl read
    obtain rfl : stored = originOf world.store entry.id := (Except.ok.inj answered).symm
    rw [settle, if_pos (by simp [Offer.speaks, said])]
    cases merges : originForIdenticalProvide (originOf world.store entry.id) origin
        submission.stream.trunk with
    | none =>
        rw [merges] at rest
        cases rest
        rw [same]
        rfl
    | some merged =>
        rw [merges] at rest
        obtain ⟨instant, later, -, set⟩ := Program.run_bind_ok rest
        rw [ran_setVersionOrigin set, merged_speaks said merges]
        rfl

/-- A Provide of known bytes settles the origin with what it says. -/
theorem ran_refreshIdentical {serviceId : Nat} {harvest : Harvest}
    (stream : submission.stream.trunk = (params.trunk && params.tag.isNone))
    (ran : (refreshIdentical submission origin serviceId harvest entry).run (World.handle environment)
      world = some (.ok (), after)) :
    originOf after.store entry.id =
      settle (originOf world.store entry.id) (Offer.ofProvide params origin) := by
  unfold refreshIdentical at ran
  split at ran
  · rename_i preview
    cases ran
    exact (settle_silent (by simp [Offer.speaks, Offer.ofProvide, preview, VersionOrigin.isEmpty]) _).symm
  · rename_i written
    obtain ⟨_, first, provided, rest⟩ := Program.run_bind_ok ran
    obtain ⟨_, second, touched, rest⟩ := Program.run_bind_ok rest
    obtain ⟨_, third, recorded, rest⟩ := Program.run_bind_ok rest
    obtain ⟨_, fourth, reconciled, refreshed⟩ := Program.run_bind_ok rest
    have spared := (((ran_spared (sparing_touchProvided entry) provided).trans
      (ran_spared (sparing_touchTrunkOf submission entry.id) touched)).trans
      (ran_spared (sparing_recordMember submission serviceId) recorded)).trans
      (ran_spared (sparing_reconcile submission harvest) reconciled)
    rw [ran_refreshOrigin refreshed, originOf_spared spared, stream]
    simp [Offer.ofProvide, written]

/-- A write that went on landed, under the identity it answered. -/
theorem ran_writeVersion {record : UpsertSpecVersion} {id : Nat}
    (ran : (writeVersion record).run (World.handle environment) world = some (.ok id, after)) :
    after.store.table .services = world.store.table .services ∧
      HasId (UpsertSpecVersion.key record) id after.store := by
  obtain ⟨answer, middle, tried, rest⟩ := Program.run_bind_ok ran
  obtain ⟨-, ⟨result, rfl, written, -⟩ | ⟨reason, rfl, -, -⟩⟩ := tried_of_asked (fun _ => rfl) tried
  · cases rest
    obtain ⟨stored, row, -, found, -, emitted, rfl⟩ := Store.upsertSpecVersion_cases written
    obtain ⟨among, key⟩ := Store.mem_of_specVersion? found
    have rows : after.store.specVersions = stored.specVersions :=
      Store.specVersions_of_frame (Store.table_writeOutbox emitted (by decide) (by decide))
    refine ⟨Store.table_upsertSpecVersion written (by decide) (by decide) (by decide), ?_⟩
    intro other there same
    rw [after.database.sound.row_unique there (rows ▸ among) (same.trans key.symm)]
  · unfold explainRefusedWrite at rest
    dsimp only at rest
    split at rest
    · obtain ⟨found, last, -, failed⟩ := Program.run_bind_ok rest
      cases failed
    · cases rest

theorem ran_recordOrigin {existing : Option SpecVersionMeta} {id : Nat} (fresh : existing = none)
    (ran : (recordOrigin submission origin existing id).run (World.handle environment) world =
      some (.ok (), after)) :
    originOf after.store id = settle none ⟨origin, submission.stream.trunk⟩ ∧
      after.store.table .services = world.store.table .services ∧
      after.store.table .specVersions = world.store.table .specVersions := by
  unfold recordOrigin at ran
  rw [fresh] at ran
  obtain ⟨now, middle, clock, set⟩ := Program.run_bind_ok ran
  have same := ran_nowIso clock
  obtain ⟨now', -, stored⟩ := ran_repo set
  refine ⟨?_, ?_, ?_⟩
  · rw [ran_setVersionOrigin set]
    cases said : origin.isEmpty with
    | true =>
        rw [settle_silent (by simp [Offer.speaks, said])]
        exact if_pos said
    | false =>
        rw [settle_none (by simp [Offer.speaks, said])]
        exact if_neg (ne_true_of_eq_false said)
  · rw [stored, Store.perform_frame _ _ (by simp [writes]), same]
  · rw [stored, Store.perform_frame _ _ (by simp [writes]), same]

/-- A Provide that made an entry left what it says with it. -/
theorem ran_provideFresh {serviceId : Nat} {line : List SpecVersionMeta} {harvest : Harvest}
    (written : params.dryRun = false) (fresh : submission.existing line = none)
    (ran : (provideFresh deployment submission origin serviceId line harvest).run
      (World.handle environment) world = some (.ok response, after)) :
    ∃ id, after.store.table .services = world.store.table .services ∧
      HasId (serviceId, params.apiType, submission.version) id after.store ∧
      originOf after.store id = settle none ⟨origin, submission.stream.trunk⟩ := by
  have told {Value : Type} {program : UseCase Value} {onDone : Calls → Value → Prop}
      {onFail : Calls → AppError → Prop} {first last : World} {outcome : Except AppError Value}
      (along : program.Along (fun _ request => Telemetry params request) onDone onFail [])
      (ran : program.run (World.handle environment) first = some (outcome, last)) :
      OriginsKept first.store last.store :=
    (ran_along_spared (along.mono (fun _ _ => sparesOrigins_telemetry) (fun _ _ held => held)
      fun _ _ failed => failed) ran).1
  obtain ⟨_, first, numbered, rest⟩ := Program.run_bind_ok ran
  obtain ⟨_, second, compatible, rest⟩ := Program.run_bind_ok rest
  obtain ⟨changes, third, changed, rest⟩ := Program.run_bind_ok rest
  obtain ⟨ops, fourth, planned, rest⟩ := Program.run_bind_ok rest
  dsimp only at rest
  rw [written, if_neg Bool.false_ne_true] at rest
  obtain ⟨_, fifth, wrote, rest⟩ := Program.run_bind_ok rest
  cases rest
  obtain ⟨outbox, sixth, emitted, rest⟩ := Program.run_bind_ok wrote
  obtain ⟨now, seventh, clock, rest⟩ := Program.run_bind_ok rest
  obtain ⟨id, eighth, landed, rest⟩ := Program.run_bind_ok rest
  obtain ⟨_, ninth, claimed, rest⟩ := Program.run_bind_ok rest
  obtain ⟨_, tenth, recorded, rest⟩ := Program.run_bind_ok rest
  obtain ⟨_, eleventh, touched, rest⟩ := Program.run_bind_ok rest
  obtain ⟨_, twelfth, member, rest⟩ := Program.run_bind_ok rest
  obtain ⟨_, last, audited, reconciled⟩ := Program.run_bind_ok rest
  have before := ((((told (along_gateNumber submission line []) numbered).trans
    (told (along_gateCompatibility submission line []) compatible)).trans
    (ran_spared (sparing_of_reads (reads_changesOf submission _)) changed)).trans
    (told (along_planContracts submission serviceId []) planned)).trans
    ((ran_spared (sparing_of_reads (reads_planProvideEvents origin line)) emitted).trans
      (ran_spared sparing_nowIso clock))
  have claims := ran_spared (sparing_applyContractOps ops) claimed
  have afterwards := ((ran_spared (sparing_touchTrunkOf submission id) touched).trans
    (ran_spared (sparing_recordMember submission serviceId) member)).trans
    ((ran_spared (sparing_auditPromotion submission _) audited).trans
      (ran_spared (sparing_reconcile submission harvest) reconciled))
  obtain ⟨services, identity⟩ := ran_writeVersion landed
  obtain ⟨stored, kept, rows⟩ := ran_recordOrigin fresh recorded
  refine ⟨id, ?_, ?_, ?_⟩
  · rw [afterwards.services, kept, claims.services, services, before.services]
  · refine afterwards.ids _ _ fun row among same => ?_
    rw [Store.specVersions_of_frame rows] at among
    exact claims.ids _ _ identity row among same
  · rw [originOf_spared afterwards, stored]

end Runs

section Sequences

variable (deployment : Deployment) (environment : Environment)

/-- A Provide of bytes that an entry holds already, no release being asked for of a snapshot. -/
structure HoldsBytes (params : ProvideSpecParams) (store : Store) (id : Nat) : Prop where
  held : ∃ parsed row, parseSpec deployment.external params.apiType params.normalContent = .ok parsed ∧
    standingRow store params parsed.version = some row ∧ row.entry.id = id ∧
    row.entry.contentHash = parsed.hash ∧ ¬(row.entry.stability = .snapshot ∧ params.stability = .ga)

/-- An answered Provide that made an entry of its own. -/
structure Creates (params : ProvideSpecParams) (origin : VersionOrigin) (id : Nat)
    (world after : World) : Prop where
  written : params.dryRun = false
  answered : ∃ response, (provideSpecInner deployment params origin).run (World.handle environment)
    world = some (.ok response, after)
  made : ∃ parsed row, parseSpec deployment.external params.apiType params.normalContent = .ok parsed ∧
    standingRow world.store params parsed.version = none ∧
    standingRow after.store params parsed.version = some row ∧ row.entry.id = id

/-- Provides of known bytes one after another, each answered, with what they say. -/
inductive Repeats (id : Nat) : World → List Offer → World → Prop
  | none (world : World) : Repeats id world [] world
  | more {params : ProvideSpecParams} {origin : VersionOrigin} {response : ProvideResponse}
      {world middle last : World} {offers : List Offer}
      (known : HoldsBytes deployment params world.store id)
      (answered : (provideSpecInner deployment params origin).run (World.handle environment) world =
        some (.ok response, middle))
      (rest : Repeats id middle offers last) :
      Repeats id world (Offer.ofProvide params origin :: offers) last

variable {deployment environment} {params : ProvideSpecParams} {origin : VersionOrigin} {id : Nat}
  {world start after middle last : World}

theorem submission_parsed {external : External} (submission : Submission external params)
    {parsed : ParsedSpec} (parses : parseSpec external params.apiType params.normalContent = .ok parsed) :
    submission.version = parsed.version ∧ submission.hash = parsed.hash := by
  have same := submission.parses.symm.trans parses
  rw [Submission.version, Submission.hash, Except.ok.inj same]
  exact ⟨rfl, rfl⟩

theorem known_settles {response : ProvideResponse} (known : HoldsBytes deployment params world.store id)
    (answered : (provideSpecInner deployment params origin).run (World.handle environment) world =
      some (.ok response, after)) :
    originOf after.store id = settle (originOf world.store id) (Offer.ofProvide params origin) := by
  obtain ⟨submission, serviceId, line, harvest, reached, stream, online, ends⟩ := ran_provide answered
  obtain ⟨parsed, row, parses, standing, rfl, hash, settled⟩ := known.held
  obtain ⟨number, bytes⟩ := submission_parsed submission parses
  have found : (submission.existing line).filter submission.isNoOp = some row.entry := by
    rw [online.found, number, standing, Option.map_some, Option.filter_some, if_pos]
    rw [Submission.isNoOp, hash, bytes]
    simpa [← not_and_or] using settled
  rw [found] at ends
  obtain ⟨_, ended, refreshed, rest⟩ := Program.run_bind_ok ends
  cases rest
  have same : originOf reached.store row.entry.id = originOf world.store row.entry.id := by
    have origins : reached.store.origins = world.store.origins := online.origins
    rw [originOf, originOf, origins]
  rw [ran_refreshIdentical stream refreshed, same]

theorem created_settles (creates : Creates deployment environment params origin id world after) :
    originOf after.store id = settle none (Offer.ofProvide params origin) := by
  obtain ⟨response, answered⟩ := creates.answered
  obtain ⟨submission, serviceId, line, harvest, reached, stream, online, ends⟩ := ran_provide answered
  obtain ⟨parsed, row, parses, absent, stands, rfl⟩ := creates.made
  obtain ⟨number, -⟩ := submission_parsed submission parses
  have fresh : submission.existing line = none := by
    rw [online.found, number, absent]
    rfl
  rw [fresh] at ends
  obtain ⟨id, services, identity, stored⟩ := ran_provideFresh creates.written fresh ends
  obtain ⟨service, named, found⟩ := Option.bind_eq_some_iff.mp stands
  obtain ⟨among, key⟩ := Store.mem_of_specVersion? found
  have same : service.id = serviceId := by
    have known := online.named creates.written
    have rows : after.store.services = reached.store.services := (Prod.mk.inj services).1
    rw [Store.serviceNamed?, ← rows] at known
    rw [Store.serviceNamed?] at named
    rw [named] at known
    exact Option.some.inj known
  rw [← number, same] at key
  rw [identity row among key, stored, Offer.ofProvide, stream, creates.written]
  rfl

/-- A sequence settles the origin with one Provide after another. -/
theorem Repeats.settles {offers : List Offer}
    (repeats : Repeats deployment environment id start offers last) :
    originOf last.store id = offers.foldl settle (originOf start.store id) := by
  induction repeats with
  | none => rfl
  | more known answered rest ih => rw [ih, known_settles known answered, List.foldl_cons]

end Sequences

/-- What is stored of why a version was made only ever gains: a field that says something keeps
saying it, the build link is replaced once at most and by that of a trunk build, after which nothing
changes; and in the end the first Provide that says something decides, with the first trunk build
with a link after it unless it was one itself. -/
theorem origins_only_gain {deployment : Deployment} {environment : Environment}
    {params : ProvideSpecParams} {origin : VersionOrigin} {id : Nat} {world start middle last : World}
    {early later : List Offer} (creates : Creates deployment environment params origin id world start)
    (first : Repeats deployment environment id start early middle)
    (second : Repeats deployment environment id middle later last) :
    (∀ stored, originOf middle.store id = some stored →
      ∃ now, originOf last.store id = some now ∧ Gains later stored now) ∧
    (∀ stored held, originOf start.store id = some stored → originOf middle.store id = some held →
      held.buildUrl ≠ stored.buildUrl → originOf last.store id = some held) ∧
    originOf last.store id =
      decided (firstOffer (Offer.ofProvide params origin :: (early ++ later)))
        (laterTrunk (Offer.ofProvide params origin :: (early ++ later))) := by
  refine ⟨fun stored there => ?_, fun stored held there here replaced => ?_, ?_⟩
  · rw [second.settles, there]
    exact foldl_settle_gains later stored
  · obtain ⟨now, reached, gains⟩ := foldl_settle_gains early stored
    rw [first.settles, there, reached] at here
    cases here
    rw [second.settles, first.settles, there, reached]
    exact foldl_settle_final (gains.build replaced).1 later
  · rw [second.settles, first.settles, created_settles creates, ← List.foldl_append, ← List.foldl_cons,
      foldl_settle]

section Examples

variable {deployment : Deployment} {params : ProvideSpecParams} {id : Nat} {world after : World}

def isMade (deployment : Deployment) (params : ProvideSpecParams) (id : Nat) (world after : World) : Bool :=
  (parseSpec deployment.external params.apiType params.normalContent).toOption.any fun parsed =>
    (standingRow world.store params parsed.version).isNone &&
      (standingRow after.store params parsed.version).any fun row => row.entry.id = id

def holdsBytes (deployment : Deployment) (params : ProvideSpecParams) (id : Nat) (world : World) : Bool :=
  (parseSpec deployment.external params.apiType params.normalContent).toOption.any fun parsed =>
    (standingRow world.store params parsed.version).any fun row => row.entry.id = id &&
      row.entry.contentHash = parsed.hash && !(row.entry.stability = .snapshot && params.stability = .ga)

theorem made_of_isMade (holds : isMade deployment params id world after = true) :
    ∃ parsed row, parseSpec deployment.external params.apiType params.normalContent = .ok parsed ∧
      standingRow world.store params parsed.version = none ∧
      standingRow after.store params parsed.version = some row ∧ row.entry.id = id := by
  obtain ⟨parsed, parses, holds⟩ := (Option.any_eq_true _ _).mp holds
  rw [Bool.and_eq_true, Option.isNone_iff_eq_none] at holds
  obtain ⟨row, standing, same⟩ := (Option.any_eq_true _ _).mp holds.2
  exact ⟨parsed, row, ok_of_toOption parses, holds.1, standing, of_decide_eq_true same⟩

theorem holdsBytes_spec (holds : holdsBytes deployment params id world = true) :
    HoldsBytes deployment params world.store id := by
  obtain ⟨parsed, parses, holds⟩ := (Option.any_eq_true _ _).mp holds
  obtain ⟨row, standing, holds⟩ := (Option.any_eq_true _ _).mp holds
  simp only [Bool.and_eq_true, decide_eq_true_eq, Bool.not_eq_true', Bool.and_eq_false_iff,
    decide_eq_false_iff_not, ← not_and_or] at holds
  exact ⟨parsed, row, ok_of_toOption parses, standing, holds.1.1, holds.1.2, holds.2⟩

def branchBuild : VersionOrigin :=
  { buildUrl := some "https://ci/branch/9", changeUrl := some "https://git/pr/3" }

def mergedBuild : VersionOrigin :=
  { buildUrl := some "https://ci/main/41", changeUrl := some "https://git/commit/a", note := some "merged" }

/-- A release of a branch build, and the trunk build after its merge. -/
def mergedProvides : Option (Except AppError ProvideResponse × World) :=
  (provideSpecInner (quietService markerLibrary) (releaseOf "p" .proto "//sanshain-version:1")
    branchBuild).run (World.handle steadyEnvironment) emptyWorld

def isMerged (start : World) : Bool :=
  isMade (quietService markerLibrary) (releaseOf "p" .proto "//sanshain-version:1") 1 emptyWorld start &&
    holdsBytes (quietService markerLibrary) trunkRelease 1 start &&
    Program.returnedWith (fun _ _ => true) ((provideSpecInner (quietService markerLibrary) trunkRelease
      mergedBuild).run (World.handle steadyEnvironment) start)

end Examples

theorem origins_only_gain_merged :
    ∃ start last, Creates (quietService markerLibrary) steadyEnvironment
        (releaseOf "p" .proto "//sanshain-version:1") branchBuild 1 emptyWorld start ∧
      Repeats (quietService markerLibrary) steadyEnvironment 1 start
        [Offer.ofProvide trunkRelease mergedBuild] last ∧
      originOf last.store 1 = some
        { buildUrl := some "https://ci/main/41"
          changeUrl := some "https://git/pr/3"
          note := some "merged"
          trunkBuild := true } := by
  have ended : Program.returnedWith (fun _ start => isMerged start) mergedProvides = true := by
    decide +kernel
  obtain ⟨response, start, ran, merged⟩ := Program.returnedWith_spec ended
  rw [isMerged, Bool.and_eq_true, Bool.and_eq_true] at merged
  obtain ⟨⟨made, known⟩, answered⟩ := merged
  obtain ⟨again, last, ran', -⟩ := Program.returnedWith_spec answered
  have creates : Creates (quietService markerLibrary) steadyEnvironment
      (releaseOf "p" .proto "//sanshain-version:1") branchBuild 1 emptyWorld start :=
    ⟨rfl, ⟨response, ran⟩, made_of_isMade made⟩
  have repeats : Repeats (quietService markerLibrary) steadyEnvironment 1 start
      [Offer.ofProvide trunkRelease mergedBuild] last :=
    .more (holdsBytes_spec known) ran' (.none last)
  obtain ⟨-, -, final⟩ := origins_only_gain creates (.none start) repeats
  refine ⟨start, last, creates, repeats, ?_⟩
  rw [final]
  decide +kernel

end Sanshain.Guarantees
