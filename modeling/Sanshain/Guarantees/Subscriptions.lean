import Sanshain.Application.Graphs
import Sanshain.Guarantees.Origins
import Sanshain.Infrastructure.Subscriptions

namespace Sanshain.Guarantees

open Sanshain.Data Sanshain.Domain Sanshain.Document Sanshain.Effects Sanshain.Application
open Sanshain.Infrastructure

section Views

variable {store middle after : Store} {name : String} {trunk : Bool} {inputs : List HarvestedSubInput}

/-- The open rows of the client of a name. -/
def ownSubscriptions (store : Store) (name : String) : List HarvestedRow :=
  store.openHarvested.filter fun row => (store.clientNamed? name).map Prod.fst = some row.clientId

/-- The harvested edges of the live main view. -/
def mainEdges (store : Store) : List HarvestedSubscription :=
  scopeHarvestedSubscriptions (.main none) store.listCurrentHarvested

/-- What a row shows of itself. -/
def edgeOf (row : HarvestedRow) : HarvestedSubscription :=
  ⟨row.clientName, row.channel, row.messageName, row.ownerName, row.trunk⟩

theorem mainEdges_perm (store : Store) :
    (mainEdges store).Perm ((store.openHarvested.filter (·.trunk)).map edgeOf) := by
  unfold mainEdges scopeHarvestedSubscriptions Store.listCurrentHarvested
  refine ((List.perm_insertionSort _ _).filter _).trans (.of_eq ?_)
  rw [List.filter_map, Store.openHarvested]
  congr 2
  exact List.filter_congr fun row _ => by cases row.validTo <;> rfl

/-- The tables of the subscriptions are the same. -/
structure SameSubscriptions (before after : Store) : Prop where
  harvested : after.harvested = before.harvested
  clients : after.table .clients = before.table .clients

theorem SameSubscriptions.refl (store : Store) : SameSubscriptions store store := ⟨rfl, rfl⟩

theorem SameSubscriptions.trans (first : SameSubscriptions store middle)
    (second : SameSubscriptions middle after) : SameSubscriptions store after :=
  ⟨second.harvested.trans first.harvested, second.clients.trans first.clients⟩

theorem SameSubscriptions.open (same : SameSubscriptions store after) :
    after.openHarvested = store.openHarvested := by
  rw [Store.openHarvested, same.harvested, Store.openHarvested]

theorem SameSubscriptions.named (same : SameSubscriptions store after) (name : String) :
    after.clientNamed? name = store.clientNamed? name := by
  rw [Store.clientNamed?, (Prod.mk.inj same.clients).1, Store.clientNamed?]

theorem SameSubscriptions.own (same : SameSubscriptions store after) (name : String) :
    ownSubscriptions after name = ownSubscriptions store name := by
  rw [ownSubscriptions, same.open, same.named, ownSubscriptions]

theorem SameSubscriptions.subscribed (same : SameSubscriptions store after)
    (sound : store.Subscribed) : after.Subscribed := sound.of_tables same.harvested same.clients

/-- The client of a name is registered, and no more. -/
def Enrolled (name : String) (before after : Store) : Prop :=
  ∃ middle, SameSubscriptions before middle ∧ SameSubscriptions (middle.ensureClient name).1 after

/-- The subscriptions of a name are reconciled with what is declared. -/
def Reconciled (name : String) (trunk : Bool) (inputs : List HarvestedSubInput)
    (before after : Store) : Prop :=
  ∃ enrolled stored now, Enrolled name before enrolled ∧
    (∃ clientId, (enrolled.clientNamed? name).map Prod.fst = some clientId ∧
      enrolled.reconcileHarvested clientId name trunk inputs now = .ok stored) ∧
    SameSubscriptions stored after

theorem ensureClient_harvested (store : Store) (name : String) :
    (store.ensureClient name).1.harvested = store.harvested := by
  unfold Store.ensureClient
  split <;> rfl

theorem Enrolled.harvested (enrolled : Enrolled name store after) :
    after.harvested = store.harvested := by
  obtain ⟨middle, before, later⟩ := enrolled
  rw [later.harvested, ensureClient_harvested, before.harvested]

theorem Enrolled.subscribed (enrolled : Enrolled name store after) (sound : store.Subscribed) :
    after.Subscribed := by
  obtain ⟨middle, before, later⟩ := enrolled
  exact later.subscribed ((before.subscribed sound).perform 0 (.ensureClient name))

theorem Enrolled.open (enrolled : Enrolled name store after) :
    after.openHarvested = store.openHarvested := by
  rw [Store.openHarvested, enrolled.harvested, Store.openHarvested]

/-- A client that is new has no rows. -/
theorem Enrolled.own (enrolled : Enrolled name store after) (linked : store.Links)
    (sound : store.Subscribed) : ownSubscriptions after name = ownSubscriptions store name := by
  obtain ⟨middle, before, later⟩ := enrolled
  rw [later.own, ← before.own name, ownSubscriptions, ownSubscriptions, Store.openHarvested,
    ensureClient_harvested, ← Store.openHarvested, Store.clientNamed?_ensureClient]
  refine List.filter_congr fun row among => ?_
  cases named : middle.clientNamed? name with
  | some client => simp [Store.ensureClient, named]
  | none =>
      have there := (before.subscribed sound).known row (List.mem_filter.mp among).1
      obtain ⟨client, held, same⟩ := List.mem_map.mp there
      rw [(Prod.mk.inj before.clients).1] at held
      have below := linked.clientFresh client held
      have next : middle.nextClientId = store.nextClientId := (Prod.mk.inj before.clients).2
      simp only [Store.ensureClient, named, Option.map_none, Option.some.injEq, reduceCtorEq,
        decide_false, decide_eq_false_iff_not]
      omega

theorem Reconciled.subscribed (reconciled : Reconciled name trunk inputs store after)
    (sound : store.Subscribed) : after.Subscribed := by
  obtain ⟨enrolled, stored, now, known, ⟨clientId, -, done⟩, later⟩ := reconciled
  exact later.subscribed ((known.subscribed sound).reconcileHarvested done)

/-- The client of the name is the one whose rows are reconciled. -/
theorem Reconciled.own (reconciled : Reconciled name trunk inputs store after)
    (channel messageName : String) :
    (channel, messageName) ∈ (ownSubscriptions after name).map
        (fun row => (row.channel, row.messageName)) ↔
      ∃ sub ∈ inputs, sub.channel = channel ∧ sub.messageName = messageName := by
  obtain ⟨enrolled, stored, now, known, ⟨clientId, named, done⟩, later⟩ := reconciled
  rw [← Store.open_reconciled done, later.own, ownSubscriptions]
  have clients : (stored.clientNamed? name).map Prod.fst = some clientId := by
    obtain ⟨added, swept⟩ := Store.swept_of_reconciled done
    rw [Store.clientNamed?, swept.clients, ← Store.clientNamed?, named]
  rw [clients]
  constructor
  · intro shown
    obtain ⟨row, among, about⟩ := List.mem_map.mp shown
    obtain ⟨held, own⟩ := List.mem_filter.mp among
    obtain rfl : clientId = row.clientId := Option.some.inj (of_decide_eq_true own)
    exact ⟨row, held, congrArg (Prod.mk row.clientId) about⟩
  · rintro ⟨row, held, about⟩
    obtain ⟨own, rest⟩ := Prod.mk.inj about
    refine List.mem_map.mpr ⟨row, List.mem_filter.mpr ⟨held, ?_⟩, rest⟩
    exact decide_eq_true (congrArg some own.symm)

/-- No subscription is open twice. -/
theorem own_once (sound : store.Subscribed) (name : String) :
    ((ownSubscriptions store name).map fun row => (row.channel, row.messageName)).Nodup := by
  refine List.Nodup.map_on ?_ ((sound.openKeys.of_map).filter _)
  intro first one second other same
  obtain ⟨held, own⟩ := List.mem_filter.mp one
  obtain ⟨held', own'⟩ := List.mem_filter.mp other
  have clients : some first.clientId = some second.clientId :=
    (of_decide_eq_true own).symm.trans (of_decide_eq_true own')
  have keys : first.key = second.key := Prod.ext (Option.some.inj clients) same
  exact List.inj_on_of_nodup_map sound.openKeys held held' keys

/-- Outside trunk the main view loses exactly the name's own edges of trunk. -/
theorem Reconciled.onMain (reconciled : Reconciled name false inputs store after)
    (linked : store.Links) (sound : store.Subscribed) :
    (mainEdges after).length + ((ownSubscriptions store name).filter (·.trunk)).length =
      (mainEdges store).length ∧
    ((ownSubscriptions store name).filter (·.trunk) = [] → (mainEdges after).Perm (mainEdges store)) := by
  obtain ⟨enrolled, stored, now, known, ⟨clientId, named, done⟩, later⟩ := reconciled
  have left := Store.trunk_reconciled done
  rw [known.open, ← later.open] at left
  have mine : (ownSubscriptions store name).filter (·.trunk) =
      (store.openHarvested.filter (·.trunk)).filter (·.clientId = clientId) := by
    rw [← known.own linked sound, ownSubscriptions, named, known.open, List.filter_filter,
      List.filter_filter]
    refine List.filter_congr fun row _ => ?_
    rw [Bool.and_comm]
    congr 1
    simp only [Option.some.injEq, eq_comm]
  have gone := (mainEdges_perm after).length_eq
  have stood := (mainEdges_perm store).length_eq
  rw [List.length_map] at gone stood
  constructor
  · rw [gone, stood, left, mine, Nat.add_comm]
    have split := @List.length_eq_length_filter_add _ (store.openHarvested.filter (·.trunk))
      fun row => decide (row.clientId = clientId)
    rw [split]
    congr 2
    exact List.filter_congr fun row _ => by simp
  · intro none
    refine (mainEdges_perm after).trans (.trans (.of_eq ?_) (mainEdges_perm store).symm)
    rw [left, List.filter_eq_self.mpr]
    intro row among
    rw [mine, List.filter_eq_nil_iff] at none
    simpa using none row among

end Views

section Aside

variable {environment : Environment} {Value Result : Type} {start world : World}
  {program : UseCase Value} {external : External} {params : ProvideSpecParams}

/-- A call that writes neither a subscription nor a client. -/
def SparesSubscriptions : Call → Prop
  | .repo call => .harvested ∉ writes call ∧ .clients ∉ writes call
  | .nowIso | .newUuid => True

/-- A use case of such calls only. -/
abbrev Aside (program : UseCase Value) : Prop := program.Only SparesSubscriptions fun _ _ => True

theorem sparesSubscriptions_reads {request : Call} (reads : request.readsOnly = true) :
    SparesSubscriptions request := by
  cases request with
  | repo call => exact ⟨by simp [writes_readsOnly reads], by simp [writes_readsOnly reads]⟩
  | nowIso => trivial
  | newUuid => trivial

theorem aside_of_reads {fails : Calls → AppError → Prop}
    (reads : program.Only (fun request => request.readsOnly = true) fails) : Aside program :=
  reads.mono (fun _ => sparesSubscriptions_reads) fun _ _ _ => trivial

theorem aside_of_telemetry {onDone : Calls → Calls → Value → Prop} {onFail : Calls → AppError → Prop}
    (along : ∀ events, program.Along (fun _ request => Telemetry params request) (onDone events) onFail
      events) : Aside program := by
  refine fun events => (along events).mono (fun _ request told => ?_) (fun _ _ _ => trivial)
    fun _ _ _ => trivial
  cases told with
  | reads reads => exact sparesSubscriptions_reads reads
  | audit => exact ⟨by simp [writes], by simp [writes]⟩
  | event => exact ⟨by simp [writes], by simp [writes]⟩

theorem aside_repo {request : RepoCall} (spares : SparesSubscriptions (.repo request)) :
    Aside (repo request) :=
  (only_repo spares).mono (fun _ held => held) fun _ _ _ => trivial

theorem aside_nowIso : Aside nowIso := only_nowIso trivial

theorem handle_aside (world : World) {request : Call} (spares : SparesSubscriptions request) :
    SameSubscriptions world.store (World.handle environment world request).1.store := by
  cases request with
  | nowIso => exact .refl _
  | newUuid => exact .refl _
  | repo call =>
      exact ⟨@World.handle_frame environment world .harvested call spares.1,
        World.handle_frame environment world spares.2⟩

theorem ran_aside (aside : Aside program) {outcome : Except AppError Value} {after : World}
    (ran : program.run (World.handle environment) world = some (outcome, after)) :
    SameSubscriptions world.store after.store := by
  obtain ⟨events, replayed⟩ := Program.replay_of_run [] ran
  exact ((aside []).replay (fun reached _ => SameSubscriptions world.store reached.store)
    (fun reached _ request kept spares => kept.trans (handle_aside reached spares)) (.refl _)
    replayed).1

variable (submission : Submission external params)

theorem aside_serviceFor : Aside (serviceFor params) := by
  unfold serviceFor
  split
  · exact (aside_repo (sparesSubscriptions_reads rfl)).bind fun found => .done _
  · refine (aside_repo ⟨by simp [writes], by simp [writes]⟩).bind fun serviceId => ?_
    split
    · exact (aside_repo ⟨by simp [writes], by simp [writes]⟩).bind fun _ => .done _
    · exact .done _

theorem aside_lineOf (apiType : ApiType) (serviceId : Nat) : Aside (lineOf apiType serviceId) := by
  unfold lineOf
  split
  · exact (aside_repo (sparesSubscriptions_reads rfl)).bind fun entries => .done _
  · exact .done _

theorem aside_touchProvided (entry : SpecVersionMeta) : Aside (touchProvided entry) := by
  unfold touchProvided
  split
  · exact aside_nowIso.bind fun now => aside_repo ⟨by simp [writes], by simp [writes]⟩
  · exact .done ()

theorem aside_touchTrunkOf (specVersionId : Nat) : Aside (touchTrunkOf submission specVersionId) := by
  unfold touchTrunkOf
  split
  · exact aside_nowIso.bind fun now => aside_repo ⟨by simp [writes], by simp [writes]⟩
  · exact .done ()

theorem aside_recordMember (serviceId : Nat) : Aside (recordMember submission serviceId) := by
  unfold recordMember
  split
  · exact aside_nowIso.bind fun now => aside_repo ⟨by simp [writes], by simp [writes]⟩
  · exact .done ()

theorem aside_refreshOrigin (origin : VersionOrigin) (entry : SpecVersionMeta) :
    Aside (refreshOrigin submission origin entry) := by
  unfold refreshOrigin
  split
  · exact .done ()
  · refine (aside_repo (sparesSubscriptions_reads rfl)).bind fun stored => ?_
    split
    · exact .done ()
    · exact aside_nowIso.bind fun now => aside_repo ⟨by simp [writes], by simp [writes]⟩

theorem aside_recordOrigin (origin : VersionOrigin) (existing : Option SpecVersionMeta) (entryId : Nat) :
    Aside (recordOrigin submission origin existing entryId) := by
  unfold recordOrigin
  split
  · exact .done ()
  · exact aside_nowIso.bind fun now => aside_repo ⟨by simp [writes], by simp [writes]⟩

theorem aside_auditPromotion (existing : Option SpecVersionMeta) :
    Aside (auditPromotion submission existing) := by
  unfold auditPromotion
  split
  · exact (only_tryRepo ⟨by simp [writes], by simp [writes]⟩).bind fun _ => .done ()
  · exact .done ()

theorem aside_applyContractOps (ops : List ContractOp) : Aside (applyContractOps ops) := by
  induction ops with
  | nil => exact .done ()
  | cons op rest ih =>
      cases op with
      | upsert contract => exact (aside_repo ⟨by simp [writes], by simp [writes]⟩).bind fun _ => ih
      | delete channel messageName =>
          exact (aside_repo ⟨by simp [writes], by simp [writes]⟩).bind fun _ => ih

theorem aside_writeVersion (record : UpsertSpecVersion) : Aside (writeVersion record) := by
  refine Program.Only.bind (only_tryRepo ⟨by simp [writes], by simp [writes]⟩) fun answer => ?_
  cases answer with
  | ok entryId => exact .done entryId
  | error error =>
      change Aside (explainRefusedWrite record error)
      unfold explainRefusedWrite
      split
      · exact Program.Only.bind (only_tryRepo (sparesSubscriptions_reads rfl)) fun found =>
          .fail fun _ => trivial
      · exact .fail fun _ => trivial

end Aside

section Recording

variable {environment : Environment} {deployment : Deployment} {params : ProvideSpecParams}
  {Value Result : Type} {start : Store} {world : World} {harvest : Harvest} {middle after : Store}
  {submission : Submission deployment.external params}

/-- The harvest is recorded, where there is one to record. -/
def HarvestRecorded (submission : Submission deployment.external params) (harvest : Harvest)
    (before after : Store) : Prop :=
  if params.dryRun = false ∧ submission.harvests = true then
    Reconciled params.producername submission.stream.trunk harvest.1 before after
  else SameSubscriptions before after

/-- Of what a harvest does to the subscriptions, some is done or nothing. -/
inductive Partly (submission : Submission deployment.external params) (before after : Store) : Prop
  | same (same : SameSubscriptions before after)
  | enrolled (written : params.dryRun = false) (harvests : submission.harvests = true)
      (enrolled : Enrolled params.producername before after)
  | reconciled (inputs : List HarvestedSubInput) (written : params.dryRun = false)
      (harvests : submission.harvests = true)
      (reconciled : Reconciled params.producername submission.stream.trunk inputs before after)

theorem HarvestRecorded.partly (recorded : HarvestRecorded submission harvest middle after) :
    Partly submission middle after := by
  unfold HarvestRecorded at recorded
  split at recorded
  · rename_i done
    exact .reconciled _ done.1 done.2 recorded
  · exact .same recorded

theorem HarvestRecorded.grow (recorded : HarvestRecorded submission harvest start middle)
    (same : SameSubscriptions middle after) : HarvestRecorded submission harvest start after := by
  unfold HarvestRecorded at recorded ⊢
  split at recorded
  · rename_i done
    rw [if_pos done]
    obtain ⟨enrolled, stored, now, known, reconciled, later⟩ := recorded
    exact ⟨enrolled, stored, now, known, reconciled, later.trans same⟩
  · rename_i undone
    rw [if_neg undone]
    exact recorded.trans same

/-- A use case after which the harvest is recorded. -/
abbrev RecordsHarvest (environment : Environment) (submission : Submission deployment.external params)
    (harvest : Harvest) (start : Store) (program : UseCase Value) (world : World) : Prop :=
  program.Ensures (World.handle environment)
    (fun _ after => HarvestRecorded submission harvest start after.store)
    (fun _ after => Partly submission start after.store) world

theorem ensures_aside {program : UseCase Value} (aside : Aside program)
    (same : SameSubscriptions start world.store) :
    program.Ensures (World.handle environment)
      (fun _ after => SameSubscriptions start after.store)
      (fun _ after => SameSubscriptions start after.store) world :=
  ⟨fun _ _ ran => same.trans (ran_aside aside ran), fun _ _ ran => same.trans (ran_aside aside ran)⟩

/-- What is aside may come before. -/
theorem records_after {program : UseCase Value} {next : Value → UseCase Result} (aside : Aside program)
    (same : SameSubscriptions start world.store)
    (rest : ∀ value reached, SameSubscriptions start reached.store →
      RecordsHarvest environment submission harvest start (next value) reached) :
    RecordsHarvest environment submission harvest start (program.bind next) world := by
  have first : program.Ensures (World.handle environment)
      (fun _ reached => SameSubscriptions start reached.store)
      (fun _ after => Partly submission start after.store) world :=
    (ensures_aside aside same).mono (fun _ _ kept => kept) fun _ _ kept => .same kept
  exact first.bind rest

/-- A reconciliation that fails changes nothing. -/
theorem perform_reconcile_failed {store : Store} {clientId : Nat} {name : String} {trunk : Bool}
    {inputs : List HarvestedSubInput} {now nowIso : Instant} {reason : RepositoryError}
    (failed : (store.perform now (.reconcileHarvestedSubscriptions clientId name trunk inputs
      nowIso)).2 = .error reason) :
    (store.perform now (.reconcileHarvestedSubscriptions clientId name trunk inputs nowIso)).1 =
      store := by
  obtain ⟨error, -, same⟩ | ⟨stored, -, same⟩ :=
    Store.triedUnit_cases store (store.reconcileHarvested clientId name trunk inputs nowIso)
  · exact congrArg Prod.fst same
  · rw [show (store.perform now (.reconcileHarvestedSubscriptions clientId name trunk inputs
      nowIso)).2 = _ from congrArg Prod.snd same] at failed
    cases failed

theorem perform_reconcile_ok {store : Store} {clientId : Nat} {name : String} {trunk : Bool}
    {inputs : List HarvestedSubInput} {now nowIso : Instant}
    (answered : (store.perform now (.reconcileHarvestedSubscriptions clientId name trunk inputs
      nowIso)).2 = .ok ()) :
    store.reconcileHarvested clientId name trunk inputs nowIso = .ok
      (store.perform now (.reconcileHarvestedSubscriptions clientId name trunk inputs nowIso)).1 := by
  obtain ⟨error, -, same⟩ | ⟨stored, done, same⟩ :=
    Store.triedUnit_cases store (store.reconcileHarvested clientId name trunk inputs nowIso)
  · rw [show (store.perform now (.reconcileHarvestedSubscriptions clientId name trunk inputs
      nowIso)).2 = _ from congrArg Prod.snd same] at answered
    cases answered
  · rw [done]
    exact congrArg Except.ok (congrArg Prod.fst same).symm

theorem ensures_enrolled (same : SameSubscriptions start world.store) :
    (repo (.ensureClient params.producername)).Ensures (World.handle environment)
      (fun clientId reached => Enrolled params.producername start reached.store ∧
        (reached.store.clientNamed? params.producername).map Prod.fst = some clientId)
      (fun _ after => Partly submission start after.store) world := by
  refine ⟨fun clientId reached ran => ?_, fun error reached ran => ?_⟩
  · obtain ⟨now, answered, same'⟩ := ran_repo ran
    cases answered
    rw [same']
    exact ⟨⟨world.store, same, .refl _⟩, Store.clientNamed?_ensureClient _ _⟩
  · obtain kept | ⟨now, reason, failed, -⟩ := ran_repo_failed ran
    · rw [kept]
      exact .same same
    · cases failed

theorem records_reconcile (written : params.dryRun = false)
    (same : SameSubscriptions start world.store) :
    RecordsHarvest environment submission harvest start (reconcile submission harvest) world := by
  unfold reconcile
  split
  · rename_i harvests
    have recorded : params.dryRun = false ∧ submission.harvests = true := ⟨written, harvests⟩
    unfold reconcileHarvest
    refine (ensures_enrolled same).bind ?_
    rintro clientId reached ⟨enrolled, named⟩
    refine Program.Ensures.call ?_
    refine ⟨fun _ last ran => ?_, fun error last ran => ?_⟩
    · obtain ⟨at', answered, same'⟩ := ran_repo ran
      rw [HarvestRecorded, if_pos recorded, same']
      exact ⟨reached.store, _, _, enrolled, ⟨clientId, named, perform_reconcile_ok answered⟩, .refl _⟩
    · obtain same' | ⟨at', reason, failed, same'⟩ := ran_repo_failed ran
      · rw [same']
        exact .enrolled written harvests enrolled
      · rw [same', perform_reconcile_failed failed]
        exact .enrolled written harvests enrolled
  · rename_i none
    refine .done ?_
    rw [HarvestRecorded, if_neg fun done => none done.2]
    exact same

theorem records_refreshIdentical (origin : VersionOrigin) (serviceId : Nat) (entry : SpecVersionMeta)
    (same : SameSubscriptions start world.store) :
    RecordsHarvest environment submission harvest start
      (refreshIdentical submission origin serviceId harvest entry) world := by
  unfold refreshIdentical
  split
  · rename_i preview
    refine .done ?_
    rw [HarvestRecorded, if_neg fun done => by rw [preview] at done; cases done.1]
    exact same
  · rename_i written
    refine records_after (aside_touchProvided entry) same fun _ first same => ?_
    refine records_after (aside_touchTrunkOf submission entry.id) same fun _ second same => ?_
    refine records_after (aside_recordMember submission serviceId) same fun _ third same => ?_
    refine (records_reconcile (Bool.eq_false_iff.mpr written) same).bind fun _ fourth recorded => ?_
    have aside := aside_refreshOrigin submission origin entry
    exact ⟨fun _ last ran => recorded.grow (ran_aside aside ran),
      fun _ last ran => (recorded.grow (ran_aside aside ran)).partly⟩

theorem records_writeProvided (origin : VersionOrigin) (serviceId : Nat) (line : List SpecVersionMeta)
    (ops : List ContractOp) (written : params.dryRun = false)
    (same : SameSubscriptions start world.store) :
    RecordsHarvest environment submission harvest start
      (writeProvided deployment submission origin serviceId line harvest ops) world := by
  refine records_after (aside_of_reads (reads_planProvideEvents origin line)) same
    fun outbox first same => ?_
  refine records_after aside_nowIso same fun now second same => ?_
  refine records_after (aside_writeVersion _) same fun entryId third same => ?_
  refine records_after (aside_applyContractOps ops) same fun _ fourth same => ?_
  refine records_after (aside_recordOrigin submission origin _ entryId) same fun _ fifth same => ?_
  refine records_after (aside_touchTrunkOf submission entryId) same fun _ sixth same => ?_
  refine records_after (aside_recordMember submission serviceId) same fun _ seventh same => ?_
  refine records_after (aside_auditPromotion submission _) same fun _ last same => ?_
  exact records_reconcile written same

theorem records_provideFresh (origin : VersionOrigin) (serviceId : Nat) (line : List SpecVersionMeta)
    (same : SameSubscriptions start world.store) :
    RecordsHarvest environment submission harvest start
      (provideFresh deployment submission origin serviceId line harvest) world := by
  refine records_after (aside_of_telemetry (along_gateNumber submission line)) same
    fun _ first same => ?_
  refine records_after (aside_of_telemetry (along_gateCompatibility submission line)) same
    fun _ second same => ?_
  refine records_after (aside_of_reads (reads_changesOf submission _)) same fun changes third same => ?_
  refine records_after (aside_of_telemetry (along_planContracts submission serviceId)) same
    fun ops fourth same => ?_
  split
  · rename_i preview
    refine .done ?_
    rw [HarvestRecorded, if_neg fun done => by rw [preview] at done; cases done.1]
    exact same
  · rename_i written
    refine (records_writeProvided origin serviceId line ops (Bool.eq_false_iff.mpr written) same).bind ?_
    exact fun _ last recorded => .done recorded

end Recording

/-- Whether a Provide is one of trunk. -/
def onTrunk (params : ProvideSpecParams) : Bool := params.trunk && params.tag.isNone

/-- The branch that a Provide is recorded in. -/
def taggedBranch (store : Store) (params : ProvideSpecParams) : Option BranchInfo :=
  if params.trunk then none
  else params.tag.bind fun name => store.branches.find? (·.name = name)

/-- A name is subscribed, once each, to the messages that a document declares to receive. -/
structure SubscribesTo (external : External) (content : String) (store : Store) (name : String) :
    Prop where
  once : ((ownSubscriptions store name).map fun row => (row.channel, row.messageName)).Nodup
  declared : ∃ subs, AsyncApiDocument.extractSubMessages external content = .ok subs ∧
    ∀ channel messageName, (channel, messageName) ∈ (ownSubscriptions store name).map
        (fun row => (row.channel, row.messageName)) ↔
      ∃ sub ∈ subs, sub.channel = channel ∧ sub.messageName = messageName

section Providing

variable {environment : Environment} {deployment : Deployment} {params : ProvideSpecParams}
  {origin : VersionOrigin} {world after : World} {outcome : Except AppError ProvideResponse}
  {submission : Submission deployment.external params} {harvest : Harvest}

theorem ran_resolveStream {stream : ResolvedStream}
    (ran : (resolveStream params.trunk params.tag).run (World.handle environment) world =
      some (.ok stream, after)) :
    stream.trunk = onTrunk params ∧ stream.branch = taggedBranch world.store params := by
  refine ⟨trunk_resolveStream ran, ?_⟩
  unfold resolveStream at ran
  unfold taggedBranch
  split at ran
  · rename_i untagged
    cases ran
    simp [untagged]
  · rename_i name tagged
    split at ran
    · rename_i trunk
      cases ran
      rw [if_pos trunk]
    · rename_i dev
      obtain ⟨found, middle, asked, rest⟩ := Program.run_bind_ok ran
      obtain ⟨⟨now, answered⟩, -⟩ := ran_reading rfl asked
      cases answered
      rw [if_neg dev, tagged, Option.bind_some]
      cases found : world.store.branches.find? (·.name = name) with
      | some branch =>
          rw [found] at rest
          cases rest
          rfl
      | none =>
          rw [found] at rest
          cases rest
          rfl

/-- Of a planned subscription the channel and the message are those of the document. -/
theorem ran_harvestEach {external : External} {stability : Stability} {planned : Harvest}
    {subs : List AsyncApiDocument.PubMessage}
    (ran : (Program.foldEach (harvestSubscription external stability) planned subs).run
      (World.handle environment) world = some (.ok harvest, after)) :
    harvest.1.map (fun sub => (sub.channel, sub.messageName)) =
      planned.1.map (fun sub => (sub.channel, sub.messageName)) ++
        subs.map fun sub => (sub.channel, sub.messageName) := by
  induction subs generalizing planned world with
  | nil =>
      cases ran
      exact (List.append_nil _).symm
  | cons sub rest ih =>
      obtain ⟨next, middle, turn, later⟩ := Program.run_bind_ok ran
      obtain ⟨contract, first, -, turn⟩ := Program.run_bind_ok turn
      obtain ⟨owner, second, -, turn⟩ := Program.run_bind_ok turn
      obtain ⟨drift, third, -, turn⟩ := Program.run_bind_ok turn
      cases turn
      rw [ih later, List.map_append, List.append_assoc]
      rfl

theorem ran_planHarvest (harvests : submission.harvests = true)
    (ran : (planHarvest deployment submission).run (World.handle environment) world =
      some (.ok harvest, after)) :
    ∃ subs, AsyncApiDocument.extractSubMessages deployment.external params.normalContent = .ok subs ∧
      harvest.1.map (fun sub => (sub.channel, sub.messageName)) =
        subs.map fun sub => (sub.channel, sub.messageName) := by
  rw [planHarvest, if_pos harvests] at ran
  obtain ⟨subs, first, read, each⟩ := Program.run_bind_ok (ran_orRefuseContract ran)
  obtain ⟨extracted, rfl⟩ := Program.run_ofExcept_ok read
  refine ⟨subs, ?_, ran_harvestEach each⟩
  cases told : AsyncApiDocument.extractSubMessages deployment.external params.normalContent with
  | ok found =>
      rw [told] at extracted
      cases extracted
      rfl
  | error reason =>
      rw [told] at extracted
      cases extracted

/-- A Provide that answers has recorded the harvest it planned, and one that fails some of it. -/
theorem ran_provide_harvest
    (ran : (provideSpecInner deployment params origin).run (World.handle environment) world =
      some (outcome, after)) :
    (∃ error, outcome = .error error ∧ SameSubscriptions world.store after.store) ∨
    ∃ submission : Submission deployment.external params,
      submission.stream.trunk = onTrunk params ∧
      submission.stream.branch = taggedBranch world.store params ∧
      Partly submission world.store after.store ∧
      ∀ response, outcome = .ok response → ∃ harvest,
        HarvestRecorded submission harvest world.store after.store ∧
        (submission.harvests = true → ∃ subs,
          AsyncApiDocument.extractSubMessages deployment.external params.normalContent = .ok subs ∧
            harvest.1.map (fun sub => (sub.channel, sub.messageName)) =
              subs.map fun sub => (sub.channel, sub.messageName)) := by
  obtain ⟨error, rfl, failed⟩ | ⟨stream, first, resolved, reading⟩ := Program.run_bind_cases ran
  · exact .inl ⟨error, rfl, ran_aside (aside_of_reads (reads_resolveStream _ _)) failed⟩
  have same := ran_aside (aside_of_reads (reads_resolveStream _ _)) resolved
  obtain ⟨trunk, branch⟩ := ran_resolveStream resolved
  obtain ⟨error, rfl, failed⟩ | ⟨submission, second, read, gating⟩ := Program.run_bind_cases reading
  · refine .inl ⟨error, rfl, same.trans ?_⟩
    cases taken : readSubmission deployment.external params stream with
    | ok submission =>
        rw [taken] at failed
        cases failed
    | error reason =>
        rw [taken] at failed
        cases failed
        exact .refl _
  obtain ⟨taken, rfl⟩ := Program.run_ofExcept_ok read
  have own := readSubmission_stream taken
  refine .inr ⟨submission, by rw [own, trunk], by rw [own, branch], ?_⟩
  obtain ⟨error, rfl, failed⟩ | ⟨_, third, gated, serving⟩ := Program.run_bind_cases gating
  · exact ⟨.same (same.trans (ran_aside (aside_of_telemetry (along_gateRelease submission)) failed)),
      fun response answered => by cases answered⟩
  replace same := same.trans (ran_aside (aside_of_telemetry (along_gateRelease submission)) gated)
  obtain ⟨error, rfl, failed⟩ | ⟨serviceId, fourth, served, listing⟩ := Program.run_bind_cases serving
  · exact ⟨.same (same.trans (ran_aside aside_serviceFor failed)),
      fun response answered => by cases answered⟩
  replace same := same.trans (ran_aside aside_serviceFor served)
  obtain ⟨error, rfl, failed⟩ | ⟨line, fifth, listed, planning⟩ := Program.run_bind_cases listing
  · exact ⟨.same (same.trans (ran_aside (aside_lineOf _ _) failed)),
      fun response answered => by cases answered⟩
  replace same := same.trans (ran_aside (aside_lineOf _ _) listed)
  obtain ⟨error, rfl, failed⟩ | ⟨harvest, sixth, planned, ends⟩ := Program.run_bind_cases planning
  · exact ⟨.same (same.trans (ran_aside (aside_of_telemetry (along_planHarvest submission)) failed)),
      fun response answered => by cases answered⟩
  replace same := same.trans (ran_aside (aside_of_telemetry (along_planHarvest submission)) planned)
  have finish {program : UseCase ProvideResponse}
      (records : RecordsHarvest environment submission harvest world.store program sixth)
      (ended : program.run (World.handle environment) sixth = some (outcome, after)) :
      Partly submission world.store after.store ∧ ∀ response, outcome = .ok response → ∃ harvest,
        HarvestRecorded submission harvest world.store after.store ∧
          (submission.harvests = true → ∃ subs,
            AsyncApiDocument.extractSubMessages deployment.external params.normalContent = .ok subs ∧
              harvest.1.map (fun sub => (sub.channel, sub.messageName)) =
                subs.map fun sub => (sub.channel, sub.messageName)) := by
    cases outcome with
    | ok response =>
        have recorded := records.1 response after ended
        exact ⟨recorded.partly,
          fun _ _ => ⟨harvest, recorded, fun harvests => ran_planHarvest harvests planned⟩⟩
    | error error =>
        refine ⟨records.2 error after ended, fun response answered => ?_⟩
        cases answered
  split at ends
  · exact finish ((records_refreshIdentical origin serviceId _ same).bind
      fun _ _ recorded => .done recorded) ends
  · exact finish (records_provideFresh origin serviceId line same) ends

end Providing

/-- One Provide, from the world it met to the one it left. -/
structure ProvideStep (deployment : Deployment) where
  params : ProvideSpecParams
  origin : VersionOrigin
  environment : Environment
  before : World
  outcome : Except AppError ProvideResponse
  after : World
  ran : (provideSpecInner deployment params origin).run (World.handle environment) before =
    some (outcome, after)

namespace ProvideStep

variable {deployment : Deployment} {step : ProvideStep deployment}

/-- A Provide that was answered, was no preview and is in no branch has its Producer subscribed to
what the document declares. -/
def Follows (step : ProvideStep deployment) : Prop :=
  (∃ response, step.outcome = .ok response) → step.params.dryRun = false →
    taggedBranch step.before.store step.params = none →
      SubscribesTo deployment.external step.params.normalContent step.after.store
        step.params.producername

/-- A Provide that is not trunk's changes no edge of the live main view. -/
def Quiet (step : ProvideStep deployment) : Prop :=
  onTrunk step.params = false → (mainEdges step.after.store).Perm (mainEdges step.before.store)

/-- The Provide is trunk's, a preview or a branch's, or meets no open subscription of its Producer
that is trunk's. -/
def Spares (step : ProvideStep deployment) : Prop :=
  onTrunk step.params = true ∨ step.params.dryRun = true ∨
    (taggedBranch step.before.store step.params).isSome = true ∨
      ∀ row ∈ ownSubscriptions step.before.store step.params.producername, row.trunk = false

theorem mainEdges_congr {before after : Store} (same : after.harvested = before.harvested) :
    mainEdges after = mainEdges before := by
  rw [mainEdges, mainEdges, Store.listCurrentHarvested, Store.listCurrentHarvested, same]

theorem subscribed (sound : step.before.store.Subscribed) : step.after.store.Subscribed := by
  obtain ⟨error, -, same⟩ | ⟨submission, -, -, partly, -⟩ := ran_provide_harvest step.ran
  · exact same.subscribed sound
  · cases partly with
    | same same => exact same.subscribed sound
    | enrolled written harvests enrolled => exact enrolled.subscribed sound
    | reconciled inputs written harvests reconciled => exact reconciled.subscribed sound

theorem follows (sound : step.before.store.Subscribed) (channels : step.params.apiType = .asyncApi) :
    step.Follows := by
  rintro ⟨response, answered⟩ written untagged
  refine ⟨own_once (subscribed sound) _, ?_⟩
  obtain ⟨error, failed, -⟩ | ⟨submission, -, branch, -, recorded⟩ := ran_provide_harvest step.ran
  · rw [answered] at failed
    cases failed
  · obtain ⟨harvest, recorded, planned⟩ := recorded response answered
    have harvests : submission.harvests = true := by
      rw [Submission.harvests, branch, untagged, channels]
      rfl
    rw [HarvestRecorded, if_pos ⟨written, harvests⟩] at recorded
    obtain ⟨subs, extracted, same⟩ := planned harvests
    refine ⟨subs, extracted, fun channel messageName => ?_⟩
    rw [recorded.own]
    have wanted : (channel, messageName) ∈ harvest.1.map (fun sub => (sub.channel, sub.messageName)) ↔
        (channel, messageName) ∈ subs.map fun sub => (sub.channel, sub.messageName) := by rw [same]
    simpa [List.mem_map] using wanted

theorem quiet (sound : step.before.store.Subscribed) (spares : step.Spares) : step.Quiet := by
  intro dev
  obtain ⟨error, -, same⟩ | ⟨submission, trunk, branch, partly, -⟩ := ran_provide_harvest step.ran
  · exact .of_eq (mainEdges_congr same.harvested)
  · cases partly with
    | same same => exact .of_eq (mainEdges_congr same.harvested)
    | enrolled written harvests enrolled => exact .of_eq (mainEdges_congr enrolled.harvested)
    | reconciled inputs written harvests reconciled =>
        rw [trunk, dev] at reconciled
        rcases spares with onTrunk | preview | tagged | plain
        · rw [dev] at onTrunk
          cases onTrunk
        · rw [written] at preview
          cases preview
        · obtain ⟨found, known⟩ := Option.isSome_iff_exists.mp tagged
          rw [Submission.harvests, branch, known, Option.isNone_some, Bool.and_false] at harvests
          cases harvests
        · refine (reconciled.onMain step.before.database.linked sound).2 ?_
          exact List.filter_eq_nil_iff.mpr fun row among => by simp [plain row among]

/-- An answered Provide outside trunk takes the Producer's edges of trunk out of the main view. -/
theorem spares (sound : step.before.store.Subscribed) (channels : step.params.apiType = .asyncApi)
    (answered : ∃ response, step.outcome = .ok response) (quiet : step.Quiet) : step.Spares := by
  by_contra loud
  simp only [Spares, not_or, not_forall, Bool.not_eq_true, Bool.not_eq_false] at loud
  obtain ⟨dev, written, untagged, row, among, onTrunk⟩ := loud
  obtain ⟨response, answered⟩ := answered
  obtain ⟨error, failed, -⟩ | ⟨submission, trunk, branch, -, recorded⟩ := ran_provide_harvest step.ran
  · rw [answered] at failed
    cases failed
  · obtain ⟨harvest, recorded, -⟩ := recorded response answered
    have harvests : submission.harvests = true := by
      rw [Submission.harvests, branch, Option.isSome_eq_false_iff.mp untagged, channels]
      rfl
    rw [HarvestRecorded, if_pos ⟨written, harvests⟩, trunk, dev] at recorded
    have lost := (recorded.onMain step.before.database.linked sound).1
    have kept := (quiet dev).length_eq
    have held : 0 < ((ownSubscriptions step.before.store step.params.producername).filter
        (·.trunk)).length := List.length_pos_of_mem (List.mem_filter.mpr ⟨among, onTrunk⟩)
    omega

end ProvideStep

section Claims

variable {deployment : Deployment} {producer : String} {start last : World}
  {steps : List (ProvideStep deployment)}

/-- The channel documents that a Producer provides one after another. -/
inductive Provides (deployment : Deployment) (producer : String) (start : World) :
    List (ProvideStep deployment) → World → Prop
  | start : Provides deployment producer start [] start
  | provide {steps : List (ProvideStep deployment)} (step : ProvideStep deployment)
      (earlier : Provides deployment producer start steps step.before)
      (channels : step.params.apiType = .asyncApi) (named : step.params.producername = producer) :
      Provides deployment producer start (steps ++ [step]) step.after

/-- Every Provide of a run meets constraints that hold, and leaves them so. -/
theorem Provides.subscribed (run : Provides deployment producer start steps last)
    (sound : start.store.Subscribed) :
    last.store.Subscribed ∧
      ∀ step ∈ steps, step.before.store.Subscribed ∧ step.params.apiType = .asyncApi := by
  induction run with
  | start => exact ⟨sound, fun step among => by cases among⟩
  | provide step earlier channels named ih =>
      refine ⟨ProvideStep.subscribed ih.1, fun other among => ?_⟩
      obtain past | new := List.mem_append.mp among
      · exact ih.2 other past
      · cases List.mem_singleton.mp new
        exact ⟨ih.1, channels⟩

/-- A document that receives message "m" on channel "c". -/
def listeningRoot : Value :=
  .object [("asyncapi", .string "2.0.0"), ("info", .object [("version", .string "1")]),
    ("channels", .object [("c", .object [("subscribe", .object [("message",
      .object [("name", .string "m"), ("payload", payloadRoot "string")])])])])]

def listeningText : String :=
  "asyncapi: 2.0.0\ninfo:\n  version: '1'\nchannels:\n  c:\n    subscribe:\n      message:\n        name: m\n        payload:\n          type: string\n"

theorem listeningRoot_formed : listeningRoot.WellFormed := by
  simp [listeningRoot, payloadRoot, Value.WellFormed, Value.WellFormedEntries]

def listeningLibrary : Library where
  digests := [(listeningText, "25d493256d415734e73f99199657d80395646da1f9a8483fd76d095fc56a5aef")]
  documents := [(listeningText, ⟨listeningRoot, listeningRoot_formed⟩)]
  snippets := [(listeningRoot, listeningText), (payloadRoot "string", payloadText "string")]

def listeningService : Deployment := quietService listeningLibrary

/-- A snapshot of the receiving document, of trunk or not. -/
def listens (trunk : Bool) : ProvideSpecParams :=
  { snapshotOf .asyncApi (developer 2 "alice") listeningText with trunk := trunk }

/-- Two answered snapshots of the receiving document, one after the other. -/
structure ListensTwice (first second : ProvideStep listeningService) (early late : Bool) : Prop where
  run : Provides listeningService "p" emptyWorld [first, second] second.after
  early : first.params = listens early
  late : second.params = listens late
  answered : ∃ response, second.outcome = .ok response
  began : first.before = emptyWorld

theorem listensTwice_of_runs {early late : Bool} (property : World → World → Bool)
    (evaluated : answeredWith (fun middle => answeredWith (property middle)
      ((provideSpecInner listeningService (listens late) {}).run (World.handle steadyEnvironment) middle))
        ((provideSpecInner listeningService (listens early) {}).run (World.handle steadyEnvironment)
          emptyWorld) = true) :
    ∃ first second, ListensTwice first second early late ∧
      property second.before second.after = true := by
  obtain ⟨response, middle, ran, evaluated⟩ := answeredWith_spec evaluated
  obtain ⟨response', last, ran', holds⟩ := answeredWith_spec evaluated
  let first : ProvideStep listeningService :=
    ⟨listens early, {}, steadyEnvironment, emptyWorld, .ok response, middle, ran⟩
  let second : ProvideStep listeningService :=
    ⟨listens late, {}, steadyEnvironment, middle, .ok response', last, ran'⟩
  have once : Provides listeningService "p" emptyWorld [first] middle :=
    Provides.provide first .start rfl rfl
  exact ⟨first, second, ⟨Provides.provide second once rfl rfl, rfl, rfl, ⟨response', rfl⟩, rfl⟩, holds⟩

end Claims

end Sanshain.Guarantees
