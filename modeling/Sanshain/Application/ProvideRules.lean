import Sanshain.Application.ProvideCalls

namespace Sanshain.Application

open Sanshain.Data Sanshain.Domain Sanshain.Document Sanshain.Effects

section Refusals

variable {deployment : Deployment} {params : ProvideSpecParams} {Value : Type} {events : Calls}

/-- Recording a refusal never fails the Provide. -/
theorem only_emitRejection (deployment : Deployment) (written : params.dryRun = false)
    (rejection : VersionRejection) :
    (emitRejection deployment rejection).Only (Telemetry params) fun _ _ => False := by
  refine Program.Only.bind (Program.Only.attempt ((reads_planEvent deployment _ _ _).mono
    (fun _ reads => .reads reads) fun _ _ failed => failed)) fun planned => ?_
  split
  · exact (only_tryRepo (.event written _)).bind fun _ => .done ()
  · exact .done ()

theorem only_recordVersionRejection (deployment : Deployment) (params : ProvideSpecParams)
    (rejection : VersionRejection) :
    (recordVersionRejection deployment params.dryRun rejection).Only (Telemetry params)
      fun _ _ => False := by
  unfold recordVersionRejection
  split
  · exact .done ()
  · rename_i written
    have written : params.dryRun = false := by simpa using written
    refine Program.Only.bind (only_tryRepo (.reads rfl)) fun found => ?_
    split
    · exact (only_tryRepo (.audit written _ _)).bind fun _ =>
        only_emitRejection deployment written rejection
    · exact .done ()

variable (submission : Submission deployment.external params) {onDone : Calls → Value → Prop}

theorem along_refuse (reason message : String) (proposed : Option SemVer) (error : AppError) :
    (refuse deployment submission reason message proposed error).Along
      (fun _ request => Telemetry params request) onDone
      (fun later failure => events <:+ later ∧ failure = error) events := by
  refine ((only_recordVersionRejection deployment params _ events).mono (fun _ _ told => told)
    (fun _ _ held => held) fun _ _ => False.elim).seq fun later _ grown _ => ?_
  exact ⟨grown, rfl⟩

/-- How a version rule ends a Provide. -/
def RuleFailed (line : List SpecVersionMeta) (events : Calls) (error : AppError) : Prop :=
  CallFailed events error ∨ ∃ message proposed, error = .versionConflict message proposed ∧
    proposed ∉ line.map (·.version) ∧ Offends submission line events

theorem along_refuseVersion {line : List SpecVersionMeta} (reason message : String)
    {proposed : SemVer} (free : proposed ∉ line.map (·.version))
    (offends : Offends submission line events) :
    (refuseVersion deployment submission reason message proposed).Along
      (fun _ request => Telemetry params request) onDone (RuleFailed submission line) events := by
  refine (along_refuse submission reason message (some proposed) _).mono (fun _ _ told => told)
    (fun _ _ held => held) ?_
  rintro later _ ⟨grown, rfl⟩
  exact .inr ⟨message, proposed, rfl, free, offends.grow grown⟩

theorem along_refuseTakenByGa {line : List SpecVersionMeta} {entry : SpecVersionMeta}
    (found : submission.existing line = some entry) :
    (refuseTakenByGa deployment submission line entry).Along
      (fun _ request => Telemetry params request) onDone (RuleFailed submission line) events := by
  refine along_repo_bind (.reads rfl) (fun _ => .inl (callFailed_now _ _ _)) fun content => ?_
  refine along_repo_bind (.reads rfl) (fun _ => .inl (callFailed_now _ _ _)) fun stored => ?_
  refine (Program.along_bind _ _).mpr (along_orSpin.mpr fun impact _ => ?_)
  refine (Program.along_bind _ _).mpr (along_orSpin.mpr fun proposed free => ?_)
  split <;>
    exact along_refuseVersion submission _ _ (proposeFree_not_mem free) (.taken entry found)

theorem along_refuseOwned {line : List SpecVersionMeta} {entry : SpecVersionMeta}
    (found : submission.existing line = some entry) :
    (refuseOwned deployment submission line entry).Along
      (fun _ request => Telemetry params request) onDone (RuleFailed submission line) events := by
  refine (Program.along_bind _ _).mpr (along_orSpin.mpr fun proposed free => ?_)
  exact along_refuseVersion submission _ _ (proposeFreeMinor_not_mem free) (.taken entry found)

/-- An entry that passes is a snapshot which the caller may change. -/
theorem along_gateNumber (line : List SpecVersionMeta) (events : Calls) :
    (gateNumber deployment submission line).Along (fun _ request => Telemetry params request)
      (fun _ _ => ∀ entry, submission.existing line = some entry → entry.stability = .snapshot ∧
        (params.stability = .snapshot → ownedByOther params.username entry = false))
      (RuleFailed submission line) events := by
  unfold gateNumber
  split
  · rename_i unused
    intro entry found
    rw [unused] at found
    cases found
  · rename_i entry found
    split
    · exact along_refuseTakenByGa submission found
    · rename_i notReleased
      have snapshot : entry.stability = .snapshot := by
        cases stability : entry.stability with
        | snapshot => rfl
        | ga => exact absurd stability notReleased
      split
      · exact along_refuseOwned submission found
      · rename_i mine
        intro other same
        rw [found] at same
        cases same
        refine ⟨snapshot, fun declared => ?_⟩
        simpa [declared] using mine

theorem along_refuseBreaking {line : List SpecVersionMeta} {baseline : SpecVersionMeta}
    {reason : String} (offends : Offends submission line events) :
    (refuseBreaking deployment submission line baseline reason).Along
      (fun _ request => Telemetry params request) onDone (RuleFailed submission line) events := by
  refine (Program.along_bind _ _).mpr (along_orSpin.mpr fun proposed free => ?_)
  exact along_refuseVersion submission _ _ (proposeFree_not_mem free) offends

/-- A release that passes is compatible with the release below it in its major. -/
theorem along_gateCompatibility (line : List SpecVersionMeta) (events : Calls) :
    (gateCompatibility deployment submission line).Along
      (fun _ request => Telemetry params request)
      (fun later _ => params.stability = .ga → ∀ baseline,
        gaBaseline line submission.version = some baseline →
          submission.version.major ≤ baseline.version.major → ∃ found,
            Heard later (.getSpecContent baseline.id) found ∧ ∀ content, found = some content →
              checkCompatibility deployment.external params.apiType content
                params.normalContent = .pass)
      (RuleFailed submission line) events := by
  unfold gateCompatibility
  split
  · rename_i none
    intro _ baseline below
    rw [none] at below
    cases below
  · rename_i baseline below
    split
    · rename_i within
      refine along_repo_bind (.reads rfl) (fun _ => .inl (callFailed_now _ _ _)) fun found => ?_
      have heard := heard_now events (.getSpecContent baseline.id) found
      cases found with
      | none =>
          intro _ other same _
          cases below.symm.trans same
          exact ⟨none, heard, nofun⟩
      | some content =>
          cases verdict : checkCompatibility deployment.external params.apiType content
              params.normalContent with
          | pass =>
              simp only [verdict]
              intro _ other same _
              cases below.symm.trans same
              exact ⟨some content, heard, fun _ same => Option.some.inj same ▸ verdict⟩
          | refuse reason =>
              simp only [verdict]
              exact along_refuseBreaking submission
                (.breaking baseline content reason within.1 below within.2 heard verdict)
          | endless =>
              simp only [verdict]
              trivial
    · rename_i outside
      intro release other same within
      cases below.symm.trans same
      exact absurd ⟨release, within⟩ outside

theorem reads_changesOf (existing : Option SpecVersionMeta) :
    Reads (changesOf deployment submission existing) := by
  unfold changesOf
  cases existing with
  | none => exact .done _
  | some entry => exact (reads_repo rfl).bind fun stored => .done _

/-- A plan that fails is recorded where it is a refusal. -/
theorem along_orRefuseContract {plan : UseCase Value}
    (planned : plan.Along (fun _ request => request.readsOnly = true) onDone PlanFailed events) :
    (orRefuseContract deployment submission plan).Along (fun _ request => Telemetry params request)
      onDone PlanFailed events := by
  unfold orRefuseContract
  rw [Program.bind_eq, Program.along_bind, Program.along_attempt]
  refine planned.mono (fun _ _ reads => .reads reads) (fun _ _ held => held) ?_
  intro later error failed
  have recorded : ∀ message, (refuse deployment submission "message_contract_conflict" message none
      error).Along (fun _ request => Telemetry params request) onDone PlanFailed later := by
    intro message
    refine (along_refuse submission _ message none error).mono (fun _ _ told => told)
      (fun _ _ held => held) ?_
    rintro last _ ⟨grown, rfl⟩
    exact failed.grow grown
  cases error with
  | conflict message => exact recorded message
  | breakingChange message => exact recorded message
  | _ => exact failed

theorem along_planHarvest (events : Calls) :
    (planHarvest deployment submission).Along (fun _ request => Telemetry params request)
      (fun later _ => submission.harvests = true →
        HarvestPlanned deployment.external params.stability params.normalContent later)
      PlanFailed events := by
  unfold planHarvest
  split
  · exact along_orRefuseContract submission ((along_planSubscriptionHarvest _ _ _ events).mono
      (fun _ _ reads => reads) (fun _ _ planned _ => planned) fun _ _ failed => failed)
  · rename_i none
    intro harvests
    exact absurd harvests none

theorem along_planContracts (serviceId : Nat) (events : Calls) :
    (planContracts deployment submission serviceId).Along
      (fun _ request => Telemetry params request)
      (fun later ops => (params.apiType = .asyncApi → params.stability = .ga →
          ContractsPlanned deployment.external serviceId params.normalContent later ops) ∧
        (¬ (params.apiType = .asyncApi ∧ params.stability = .ga) → ops = []))
      PlanFailed events := by
  unfold planContracts
  split
  · rename_i release
    exact along_orRefuseContract submission ((along_planChannelMessageContracts _ _ _ events).mono
      (fun _ _ reads => reads) (fun _ _ planned => ⟨fun _ _ => planned, fun no => absurd release no⟩)
      fun _ _ failed => failed)
  · rename_i other
    exact ⟨fun channel release => absurd ⟨channel, release⟩ other, fun _ => rfl⟩

/-- Releasing without the permission ends here, before anything but telemetry. -/
theorem along_gateRelease (events : Calls) :
    (gateRelease deployment submission).Along (fun _ request => Telemetry params request)
      (fun _ _ => params.mayRelease = true)
      (fun _ error => params.mayRelease = false ∧ ∃ message, error = .forbiddenWithReason message)
      events := by
  unfold gateRelease
  split
  · rename_i allowed
    exact allowed
  · rename_i denied
    refine (along_refuse submission _ _ none _).mono (fun _ _ told => told) (fun _ _ held => held) ?_
    rintro later _ ⟨-, rfl⟩
    exact ⟨by simpa using denied, _, rfl⟩

end Refusals

section Preparation

variable {deployment : Deployment} {params : ProvideSpecParams} {Value : Type} {events : Calls}

theorem Preparing.cons (preparing : Preparing params events) {event : Event Call Call.Answer}
    (prepares : Prepares params event.request) : Preparing params (event :: events) := by
  intro other among
  rcases List.mem_cons.mp among with rfl | before
  · exact prepares
  · exact preparing other before

/-- While nothing has landed, what only records a refusal is a step of the preparation. -/
theorem along_prepare {program : UseCase Value} {onDone : Calls → Value → Prop}
    {onFail : Calls → AppError → Prop}
    (along : program.Along (fun _ request => Telemetry params request) onDone onFail events)
    (preparing : Preparing params events) :
    program.Along (ProvideAllows deployment params)
      (fun later value => events <:+ later ∧ Preparing params later ∧ onDone later value)
      (fun later error => events <:+ later ∧ Preparing params later ∧ onFail later error) events := by
  refine ((along.preserved (Preparing params) ?_ preparing).mono ?_ (fun _ _ held => held)
    fun _ _ failed => failed).grown
  · intro later request answer kept told
    exact kept.cons (.telemetry told)
  · rintro later request ⟨kept, told⟩
    refine .prepare kept (.telemetry told) ?_
    rintro serviceId tags rfl
    cases told with
    | reads reads => cases reads

theorem along_reading {program : UseCase Value} (reads : Reads program)
    (preparing : Preparing params events) :
    program.Along (ProvideAllows deployment params)
      (fun later _ => events <:+ later ∧ Preparing params later) (ProvideFailed deployment params)
      events := by
  have told : program.Along (fun _ request => Telemetry params request) (fun _ _ => True) CallFailed
      events := (reads events).mono (fun _ _ reads => .reads reads) (fun _ _ held => held)
    fun _ _ failed => failed
  exact (along_prepare told preparing).mono (fun _ _ allowed => allowed)
    (fun _ _ held => ⟨held.1, held.2.1⟩) fun _ _ failed => .call failed.2.2 failed.2.1.unrefused

theorem along_serviceFor (released : params.mayRelease = true) (preparing : Preparing params events) :
    (serviceFor params).Along (ProvideAllows deployment params)
      (fun later serviceId => Preparing params later ∧ Registered params serviceId later)
      (fun later error => Preparing params later ∧ CallFailed later error) events := by
  unfold serviceFor
  split
  · rename_i preview
    refine along_repo_bind (.reads rfl)
      (fun reason => ⟨preparing.cons (.telemetry (.reads rfl)), callFailed_now _ _ reason⟩)
      fun found => ?_
    refine ⟨preparing.cons (.telemetry (.reads rfl)), ?_⟩
    exact
      { previewed := fun _ => ⟨found, heard_now _ _ _, rfl⟩
        ensured := fun written => absurd preview (by simp [written])
        tagged := fun written => absurd preview (by simp [written]) }
  · rename_i notPreview
    have written : params.dryRun = false := by simpa using notPreview
    refine along_repo_bind (.prepare preparing (.service written released) nofun)
      (fun reason => ⟨preparing.cons (.service written released), callFailed_now _ _ reason⟩)
      fun serviceId => ?_
    have ensured := heard_now events (.ensureService params.producername) serviceId
    have prepared : Preparing params (⟨.repo (.ensureService params.producername), .ok serviceId⟩ ::
      events) := preparing.cons (.service written released)
    split
    · rename_i tag auto
      refine along_repo_bind (.prepare prepared (.tag written released serviceId tag auto) ?_)
        (fun reason =>
          ⟨prepared.cons (.tag written released serviceId tag auto), callFailed_now _ _ reason⟩)
        fun _ => ⟨prepared.cons (.tag written released serviceId tag auto), ?_⟩
      · rintro other tags same
        cases same
        exact ensured
      · exact
          { previewed := fun preview => absurd preview (by simp [written])
            ensured := fun _ => ensured.cons _
            tagged := fun _ other same => by
              cases auto.symm.trans same
              exact heard_now _ (.addServiceTags serviceId [tag]) () }
    · rename_i untagged
      refine ⟨prepared, ?_⟩
      exact
        { previewed := fun preview => absurd preview (by simp [written])
          ensured := fun _ => ensured
          tagged := fun _ tag auto => by
            rw [untagged] at auto
            cases auto }

theorem along_lineOf (apiType : ApiType) (serviceId : Nat) (events : Calls) :
    (lineOf apiType serviceId).Along (fun _ request => request.readsOnly = true)
      (fun later line => serviceId = 0 ∧ line = [] ∨ ∃ entries,
        Heard later (.listSpecVersions serviceId) entries ∧ line = entries.filter (·.apiType = apiType))
      CallFailed events := by
  unfold lineOf
  split
  · refine along_repo_bind rfl (callFailed_now _ _) fun entries => ?_
    exact .inr ⟨entries, heard_now _ _ _, rfl⟩
  · rename_i unknown
    exact .inl ⟨by simpa using unknown, rfl⟩

end Preparation

section Entry

variable {deployment : Deployment} {params : ProvideSpecParams} {events : Calls}
  {submission : Submission deployment.external params} {serviceId entryId : Nat}
  {line : List SpecVersionMeta} {ops : List ContractOp} {entry : SpecVersionMeta}
  {record : UpsertSpecVersion}

theorem FollowsUp.not_upsert {request : Call} (follows : FollowsUp params entryId request)
    (record : UpsertSpecVersion) : request ≠ .repo (.upsertSpecVersion record) := by
  rintro rfl
  cases follows

theorem FollowsUp.contractChange {event : Event Call Call.Answer}
    (follows : FollowsUp params entryId event.request) : contractChange event = none := by
  obtain ⟨request, answer⟩ := event
  cases follows <;> rfl

theorem contractChange_reads {event : Event Call Call.Answer} (reads : event.request.readsOnly = true) :
    contractChange event = none := by
  obtain ⟨request, answer⟩ := event
  unfold contractChange
  split
  · rename_i same
    simp only at same
    subst same
    cases reads
  · rename_i same
    simp only at same
    subst same
    cases reads
  · rfl

theorem not_upsert_reads {request : Call} (reads : request.readsOnly = true)
    (record : UpsertSpecVersion) : request ≠ .repo (.upsertSpecVersion record) := by
  rintro rfl
  cases reads

/-- What is read, or recorded of an entry. -/
abbrev Follows (params : ProvideSpecParams) (entryId : Nat) (request : Call) : Prop :=
  request.readsOnly = true ∨ FollowsUp params entryId request

theorem only_recordOrigin (submission : Submission deployment.external params) (origin : VersionOrigin)
    (existing : Option SpecVersionMeta) (entryId : Nat) :
    (recordOrigin submission origin existing entryId).Only (Follows params entryId) CallFailed := by
  unfold recordOrigin
  split
  · exact .done ()
  · exact (only_nowIso (.inl rfl)).bind fun now => only_repo (.inr (.origin _ now))

theorem only_touchTrunkOf (submission : Submission deployment.external params) (entryId : Nat) :
    (touchTrunkOf submission entryId).Only (Follows params entryId) CallFailed := by
  unfold touchTrunkOf
  split
  · exact (only_nowIso (.inl rfl)).bind fun now => only_repo (.inr (.trunk now))
  · exact .done ()

theorem only_recordMember (submission : Submission deployment.external params)
    (serviceId entryId : Nat) :
    (recordMember submission serviceId).Only (Follows params entryId) CallFailed := by
  unfold recordMember
  split
  · rename_i branch _
    exact (only_nowIso (.inl rfl)).bind fun now => only_repo (.inr (.member branch.id serviceId _ now))
  · exact .done ()

theorem only_auditPromotion (submission : Submission deployment.external params)
    (existing : Option SpecVersionMeta) (entryId : Nat) :
    (auditPromotion submission existing).Only (Follows params entryId) CallFailed := by
  unfold auditPromotion
  split
  · exact (only_tryRepo (.inr (.audit _ _))).bind fun _ => .done ()
  · exact .done ()

theorem only_reconcile (submission : Submission deployment.external params) (harvest : Harvest)
    (entryId : Nat) :
    (reconcile submission harvest).Only (Follows params entryId) CallFailed := by
  unfold reconcile
  split
  · exact (only_repo (.inr .client)).bind fun clientId => (only_nowIso (.inl rfl)).bind fun now =>
      only_repo (.inr (.harvest clientId _ _ now))
  · exact .done ()

theorem only_touchProvided (params : ProvideSpecParams) (entry : SpecVersionMeta) :
    (touchProvided entry).Only (Follows params entry.id) CallFailed := by
  unfold touchProvided
  split
  · exact (only_nowIso (.inl rfl)).bind fun now => only_repo (.inr (.provided now))
  · exact .done ()

theorem only_refreshOrigin (submission : Submission deployment.external params)
    (origin : VersionOrigin) (entry : SpecVersionMeta) :
    (refreshOrigin submission origin entry).Only (Follows params entry.id) CallFailed := by
  unfold refreshOrigin
  split
  · exact .done ()
  · refine (only_repo (.inl rfl)).bind fun stored => ?_
    split
    · exact .done ()
    · exact (only_nowIso (.inl rfl)).bind fun now => only_repo (.inr (.origin _ now))

/-- What follows a landed write keeps what is known of it. -/
theorem along_follow {program : UseCase Unit}
    (only : program.Only (Follows params entryId) CallFailed) {now : Instant}
    {outbox : List NewWebhookEvent} (written : params.dryRun = false)
    (admitted : Admitted submission serviceId line ops events)
    (landed : Landed (upsertRecord submission serviceId (submission.existing line) now outbox)
      entryId events)
    (applied : contractWrites events = ops) :
    program.Along (ProvideAllows deployment params)
      (fun later _ => Admitted submission serviceId line ops later ∧
        Landed (upsertRecord submission serviceId (submission.existing line) now outbox) entryId later ∧
        contractWrites later = ops)
      (ProvideFailed deployment params) events := by
  refine ((only events).preserved (fun later => Admitted submission serviceId line ops later ∧
      Landed (upsertRecord submission serviceId (submission.existing line) now outbox) entryId later ∧
      contractWrites later = ops) ?_ ⟨admitted, landed, applied⟩).mono ?_
    (fun _ _ held => held.1) fun _ _ failed => .call failed.2 failed.1.2.1.unrefused
  · rintro later request answer ⟨kept, landed, applied⟩ (reads | follows)
    · exact ⟨kept.grow (List.suffix_cons _ _), landed.cons (not_upsert_reads reads), by
        rw [contractWrites_cons, contractChange_reads reads, applied]
        simp⟩
    · exact ⟨kept.grow (List.suffix_cons _ _), landed.cons follows.not_upsert, by
        rw [contractWrites_cons, FollowsUp.contractChange follows, applied]
        simp⟩
  · rintro later request ⟨⟨kept, landed, applied⟩, reads | follows⟩
    · exact .reads reads
    · exact .follow written kept landed applied follows

/-- The changes are issued in their order, each one once. -/
theorem along_applyContractOps {now : Instant} {outbox : List NewWebhookEvent}
    (written : params.dryRun = false) (admitted : Admitted submission serviceId line ops events)
    (landed : Landed (upsertRecord submission serviceId (submission.existing line) now outbox)
      entryId events)
    (unwritten : contractWrites events = []) :
    (applyContractOps ops).Along (ProvideAllows deployment params)
      (fun later _ => Admitted submission serviceId line ops later ∧
        Landed (upsertRecord submission serviceId (submission.existing line) now outbox) entryId later ∧
        contractWrites later = ops)
      (ProvideFailed deployment params) events := by
  refine Program.along_forEach (fun before later => Admitted submission serviceId line ops later ∧
      Landed (upsertRecord submission serviceId (submission.existing line) now outbox) entryId later ∧
      contractWrites later = before) ⟨admitted, landed, unwritten⟩ ?_
  rintro before op later prefixed ⟨kept, landed, rfl⟩
  cases op with
  | upsert contract =>
      refine along_repo.mpr ⟨.claim written kept landed contract prefixed, fun _ => ?_,
        fun reason => .call (callFailed_now _ _ reason) (Landed.unrefused (landed.cons nofun))⟩
      exact ⟨kept.grow (List.suffix_cons _ _), landed.cons nofun, contractWrites_cons _ later⟩
  | delete channel messageName =>
      refine along_repo.mpr ⟨.release written kept landed channel messageName prefixed, fun _ => ?_,
        fun reason => .call (callFailed_now _ _ reason) (Landed.unrefused (landed.cons nofun))⟩
      exact ⟨kept.grow (List.suffix_cons _ _), landed.cons nofun, contractWrites_cons _ later⟩

theorem along_recordProvided (origin : VersionOrigin) (harvest : Harvest) {now : Instant}
    {outbox : List NewWebhookEvent} (written : params.dryRun = false)
    (admitted : Admitted submission serviceId line ops events)
    (landed : Landed (upsertRecord submission serviceId (submission.existing line) now outbox)
      entryId events)
    (unwritten : contractWrites events = []) :
    (recordProvided submission origin serviceId harvest (submission.existing line) ops entryId).Along
      (ProvideAllows deployment params)
      (fun later _ => Admitted submission serviceId line ops later ∧
        Landed (upsertRecord submission serviceId (submission.existing line) now outbox) entryId later ∧
        contractWrites later = ops)
      (ProvideFailed deployment params) events := by
  refine (along_applyContractOps written admitted landed unwritten).seq fun later _ _ held => ?_
  refine along_follow ?_ written held.1 held.2.1 held.2.2
  refine (only_recordOrigin submission origin _ entryId).bind fun _ => ?_
  refine (only_touchTrunkOf submission entryId).bind fun _ => ?_
  refine (only_recordMember submission serviceId entryId).bind fun _ => ?_
  exact (only_auditPromotion submission _ entryId).bind fun _ =>
    only_reconcile submission harvest entryId

/-- A refused write ends the Provide, with Conflict where the line refused it. -/
theorem along_explainRefusedWrite (preparing : Preparing params events)
    (released : params.mayRelease = true) (served : Served params serviceId line events)
    (error : RepositoryError) :
    (explainRefusedWrite record error : UseCase Nat).Along (ProvideAllows deployment params)
      (fun _ _ => False) (ProvideFailed deployment params)
      (⟨.repo (.upsertSpecVersion record), .error error⟩ :: events) := by
  have lost : ∀ later, events <:+ later →
      (∀ event ∈ later, Prepares params event.request ∨
        event = ⟨.repo (.upsertSpecVersion record), .error .conflict⟩) →
      (⟨.repo (.upsertSpecVersion record), .error .conflict⟩ : Event Call Call.Answer) ∈ later →
      ∀ message, ProvideFailed deployment params later (.conflict message) :=
    fun later grown prepared conflict message =>
      .lost record released (served.grow grown) prepared conflict message
  have now : ∀ event ∈ (⟨.repo (.upsertSpecVersion record), .error .conflict⟩ :
      Event Call Call.Answer) :: events, Prepares params event.request ∨
        event = ⟨.repo (.upsertSpecVersion record), .error .conflict⟩ := by
    intro event among
    rcases List.mem_cons.mp among with same | before
    · exact .inr same
    · exact .inl (preparing event before)
  unfold explainRefusedWrite
  split
  · rename_i conflict
    obtain ⟨rfl, -⟩ := conflict
    refine ⟨.reads rfl, fun found => ?_⟩
    refine lost _ ((List.suffix_cons _ _).trans (List.suffix_cons _ _)) ?_
      (List.mem_cons_of_mem _ List.mem_cons_self) _
    intro event among
    rcases List.mem_cons.mp among with rfl | before
    · exact .inl (.telemetry (.reads rfl))
    · exact now event before
  · by_cases conflict : error = .conflict
    · subst conflict
      exact lost _ (List.suffix_cons _ _) now List.mem_cons_self _
    · refine .call (callFailed_now _ _ error) fun other among => ?_
      rcases List.mem_cons.mp among with now | before
      · cases now
        exact conflict rfl
      · exact preparing.unrefused other before

theorem reads_classifyRelease (baseline : Option SpecVersionMeta) (publishedTo : List Nat) :
    Reads (classifyRelease deployment submission baseline publishedTo) := by
  unfold classifyRelease
  split
  · exact .done none
  · split
    · refine (reads_repo rfl).bind fun content => ?_
      cases content with
      | none => exact .done none
      | some old => exact (only_orSpin _).bind fun impact => .done _
    · exact .done none

theorem reads_previousEndpoints (baseline : Option SpecVersionMeta) :
    Reads (previousEndpoints baseline) := by
  unfold previousEndpoints
  cases baseline with
  | none => exact .done none
  | some baseline => exact (reads_repo rfl).bind fun endpoints => .done _

theorem reads_planDeprecation (previous : Option (List EndpointRecord)) :
    Reads (planDeprecation deployment submission previous) := by
  unfold planDeprecation
  split
  split
  · exact .done none
  · exact reads_planEvent deployment _ _ _

theorem reads_planProvideEvents (origin : VersionOrigin) (line : List SpecVersionMeta) :
    Reads (planProvideEvents deployment submission origin line) := by
  unfold planProvideEvents
  split
  · refine (reads_fanOut deployment _ _).bind fun publishedTo => ?_
    refine (reads_classifyRelease _ publishedTo).bind fun compatibility => ?_
    refine (reads_eventFor _ _ _ publishedTo).bind fun published => ?_
    refine (reads_previousEndpoints _).bind fun previous => ?_
    exact (reads_planDeprecation previous).bind fun deprecated => .done _
  · exact .done []

/-- An admitted submission is written once, then its changes are applied and recorded. -/
theorem along_writeProvided (origin : VersionOrigin) (harvest : Harvest)
    (written : params.dryRun = false) (preparing : Preparing params events)
    (admitted : Admitted submission serviceId line ops events) :
    (writeProvided deployment submission origin serviceId line harvest ops).Along
      (ProvideAllows deployment params)
      (fun later _ => ∃ entryId now outbox, Admitted submission serviceId line ops later ∧
        Landed (upsertRecord submission serviceId (submission.existing line) now outbox) entryId later ∧
        contractWrites later = ops)
      (ProvideFailed deployment params) events := by
  refine (along_reading (reads_planProvideEvents origin line) preparing).seq ?_
  rintro later outbox grown ⟨-, preparing⟩
  refine along_nowIso_bind (.reads rfl) fun now => ?_
  have preparing : Preparing params ((⟨.nowIso, now⟩ : Event Call Call.Answer) :: later) :=
    preparing.cons (.telemetry (.reads rfl))
  have admitted := (admitted.grow grown).grow (List.suffix_cons (⟨.nowIso, now⟩ : Event Call
    Call.Answer) later)
  rw [writeVersion, Program.bind_eq, Program.bind_eq, Program.bind_assoc]
  refine ⟨.upsert written preparing admitted now outbox, fun answer => ?_⟩
  cases answer with
  | ok entryId =>
      refine (along_recordProvided origin harvest written (admitted.grow (List.suffix_cons _ _))
        (landed_now preparing _ entryId) ?_).mono (fun _ _ allowed => allowed)
        (fun _ _ held => ⟨entryId, now, outbox, held⟩) fun _ _ failed => failed
      rw [contractWrites_cons, contractWrites_preparing preparing]
      rfl
  | error error =>
      exact (along_explainRefusedWrite preparing admitted.released admitted.served error).seq
        fun _ _ _ none => none.elim

end Entry

section Provide

variable {deployment : Deployment} {params : ProvideSpecParams} {events : Calls}
  {submission : Submission deployment.external params} {serviceId : Nat}
  {line : List SpecVersionMeta}

/-- Bytes that are new to the line end landed, previewed or refused. -/
theorem along_provideFresh (origin : VersionOrigin) (harvest : Harvest)
    (released : params.mayRelease = true) (served : Served params serviceId line events)
    (planned : submission.harvests = true →
      HarvestPlanned deployment.external params.stability params.normalContent events)
    (fresh : (submission.existing line).filter submission.isNoOp = none)
    (preparing : Preparing params events) :
    (provideFresh deployment submission origin serviceId line harvest).Along
      (ProvideAllows deployment params) (ProvideDone deployment params)
      (ProvideFailed deployment params) events := by
  have ruled : ∀ later error, events <:+ later → Preparing params later →
      RuleFailed submission line later error → ProvideFailed deployment params later error := by
    rintro later error grown prepared (call | ⟨message, proposed, rfl, free, offends⟩)
    · exact .call call prepared.unrefused
    · exact .version message proposed released (served.grow grown) prepared
        (fun harvests => (planned harvests).grow grown) free offends
  refine ((along_prepare (along_gateNumber submission line events) preparing).mono
    (fun _ _ allowed => allowed) (fun _ _ held => held)
    fun later error failed => ruled later error failed.1 failed.2.1 failed.2.2).seq ?_
  rintro second _ grown₁ ⟨-, prepared₁, number⟩
  refine ((along_prepare (along_gateCompatibility submission line second) prepared₁).mono
    (fun _ _ allowed => allowed) (fun _ _ held => held)
    fun later error failed => ruled later error (grown₁.trans failed.1) failed.2.1 failed.2.2).seq ?_
  rintro third _ grown₂ ⟨-, prepared₂, compatible⟩
  refine (along_reading (reads_changesOf submission _) prepared₂).seq ?_
  rintro fourth changes grown₃ ⟨-, prepared₃⟩
  refine ((along_prepare (along_planContracts submission serviceId fourth) prepared₃).mono
    (fun _ _ allowed => allowed) (fun _ _ held => held) ?_).seq ?_
  · rintro later error ⟨grown₄, prepared, failed⟩
    have served := served.grow (((grown₁.trans grown₂).trans grown₃).trans grown₄)
    rcases failed with call | ⟨message, rfl⟩ | conflict | breaking
    · exact .call call prepared.unrefused
    · exact .document message
    · exact .contract released served prepared (.inl conflict)
    · exact .contract released served prepared (.inr breaking)
  · rintro fifth ops grown₄ ⟨-, prepared₄, contracts, none⟩
    have grown := ((grown₁.trans grown₂).trans grown₃).trans grown₄
    have admitted : Admitted submission serviceId line ops fifth :=
      { released := released
        served := served.grow grown
        harvest := fun harvests => (planned harvests).grow grown
        fresh := fresh
        number := number
        compatible := by
          intro release baseline below within
          obtain ⟨found, heard, passes⟩ := compatible release baseline below within
          exact ⟨found, heard.grow (grown₃.trans grown₄), passes⟩
        planned := contracts
        unplanned := none }
    split
    · rename_i preview
      exact .previewed preview prepared₄ admitted
    · rename_i notPreview
      have written : params.dryRun = false := by simpa using notPreview
      refine (along_writeProvided origin harvest written prepared₄ admitted).seq ?_
      rintro later _ _ ⟨entryId, now, outbox, admitted, landed, applied⟩
      exact .landed written admitted landed applied

/-- A Provide of known bytes only records that they were provided. -/
theorem along_refreshIdentical (origin : VersionOrigin) (harvest : Harvest)
    {entry : SpecVersionMeta} (identical : Identical submission serviceId line entry events)
    (preparing : Preparing params events) :
    (refreshIdentical submission origin serviceId harvest entry).Along
      (ProvideAllows deployment params)
      (fun later _ => Identical submission serviceId line entry later ∧
        ∀ event ∈ later, ∀ record, event.request ≠ .repo (.upsertSpecVersion record))
      (ProvideFailed deployment params) events := by
  unfold refreshIdentical
  split
  · exact ⟨identical, preparing.untried⟩
  · rename_i notPreview
    have written : params.dryRun = false := by simpa using notPreview
    have only : (do
        touchProvided entry
        touchTrunkOf submission entry.id
        recordMember submission serviceId
        reconcile submission harvest
        refreshOrigin submission origin entry : UseCase Unit).Only (Follows params entry.id)
          CallFailed := by
      refine (only_touchProvided params entry).bind fun _ => ?_
      refine (only_touchTrunkOf submission entry.id).bind fun _ => ?_
      refine (only_recordMember submission serviceId entry.id).bind fun _ => ?_
      exact (only_reconcile submission harvest entry.id).bind fun _ =>
        only_refreshOrigin submission origin entry
    refine ((only events).preserved (fun later => Identical submission serviceId line entry later ∧
      ∀ event ∈ later, ∀ record, event.request ≠ .repo (.upsertSpecVersion record)) ?_
      ⟨identical, preparing.untried⟩).mono ?_ (fun _ _ held => held.1)
      fun _ _ failed => .call failed.2 fun record among => failed.1.2 _ among record rfl
    · rintro later request answer ⟨kept, untried⟩ follows
      refine ⟨kept.grow (List.suffix_cons _ _), fun event among record => ?_⟩
      rcases List.mem_cons.mp among with rfl | before
      · rcases follows with reads | follows
        · exact not_upsert_reads reads record
        · exact follows.not_upsert record
      · exact untried event before record
    · rintro later request ⟨⟨kept, untried⟩, reads | follows⟩
      · exact .reads reads
      · exact .refresh written kept untried follows

theorem along_provideOnLine (origin : VersionOrigin) (released : params.mayRelease = true)
    (served : Served params serviceId line events) (preparing : Preparing params events) :
    (provideOnLine deployment submission origin serviceId line).Along
      (ProvideAllows deployment params) (ProvideDone deployment params)
      (ProvideFailed deployment params) events := by
  refine ((along_prepare (along_planHarvest submission events) preparing).mono
    (fun _ _ allowed => allowed) (fun _ _ held => held) ?_).seq ?_
  · rintro later error ⟨grown, prepared, failed⟩
    rcases failed with call | ⟨message, rfl⟩ | conflict | breaking
    · exact .call call prepared.unrefused
    · exact .document message
    · exact .contract released (served.grow grown) prepared (.inl conflict)
    · exact .contract released (served.grow grown) prepared (.inr breaking)
  · rintro later harvest grown ⟨-, prepared, planned⟩
    split
    · rename_i entry found
      obtain ⟨held, same⟩ := Option.filter_eq_some_iff.mp found
      refine (along_refreshIdentical origin harvest
        ⟨released, served.grow grown, planned, held, same⟩ prepared).seq ?_
      rintro last _ _ ⟨identical, untried⟩
      exact .identical identical untried
    · rename_i fresh
      exact along_provideFresh origin harvest released (served.grow grown) planned fresh prepared

theorem along_provideSubmission (origin : VersionOrigin)
    (quiet : ∀ event ∈ events, Telemetry params event.request) :
    (provideSubmission deployment submission origin).Along (ProvideAllows deployment params)
      (ProvideDone deployment params) (ProvideFailed deployment params) events := by
  have preparing : Preparing params events := fun event among => .telemetry (quiet event among)
  have gate := (along_gateRelease submission events).preserved
    (fun later => ∀ event ∈ later, Telemetry params event.request) (by
      intro later request answer kept told event among
      rcases List.mem_cons.mp among with rfl | before
      · exact told
      · exact kept event before) quiet
  refine ((along_prepare (gate.mono (fun _ _ allowed => allowed.2) (fun _ _ held => held)
    fun _ _ failed => failed) preparing).mono (fun _ _ allowed => allowed) (fun _ _ held => held)
    ?_).seq ?_
  · rintro later error ⟨-, -, told, denied, message, rfl⟩
    exact .unreleased message denied told
  · rintro later _ _ ⟨-, prepared, -, released⟩
    refine ((along_serviceFor released prepared).mono (fun _ _ allowed => allowed)
      (fun _ _ held => held) fun _ _ failed => .call failed.2 failed.1.unrefused).seq ?_
    rintro third serviceId _ ⟨prepared, registered⟩
    refine ((along_prepare ((along_lineOf params.apiType serviceId third).mono
      (fun _ _ reads => .reads reads) (fun _ _ held => held) fun _ _ failed => failed) prepared).mono
      (fun _ _ allowed => allowed) (fun _ _ held => held)
      fun _ _ failed => .call failed.2.2 failed.2.1.unrefused).seq ?_
    rintro fourth line grown ⟨-, prepared, listed⟩
    exact along_provideOnLine origin released ⟨registered.grow grown, listed⟩ prepared

/-- Whatever the store answers, a Provide keeps to its rules. -/
theorem along_provideSpecInner (deployment : Deployment) (origin : VersionOrigin)
    (quiet : ∀ event ∈ events, Telemetry params event.request) :
    (provideSpecInner deployment params origin).Along (ProvideAllows deployment params)
      (ProvideDone deployment params) (ProvideFailed deployment params) events := by
  have quiet := ((reads_resolveStream params.trunk params.tag) events).preserved
    (fun later => ∀ event ∈ later, Telemetry params event.request) (by
      intro later request answer kept reads event among
      rcases List.mem_cons.mp among with rfl | before
      · exact .reads reads
      · exact kept event before) quiet
  refine (quiet.mono (fun _ _ allowed => .reads allowed.2) (fun _ _ held => held)
    fun _ _ failed => .call failed.2 fun record among => by
      cases failed.1 _ among with
      | reads reads => cases reads).seq ?_
  rintro later stream - ⟨told, -⟩
  rw [Program.bind_eq, Program.along_bind, Program.along_ofExcept]
  constructor
  · intro submission _
    exact along_provideSubmission origin told
  · intro error refused
    unfold readSubmission at refused
    split at refused
    · cases refused
    · rename_i unread
      cases refused
      obtain ⟨message, rfl⟩ := parseSpec_error unread
      exact .document message

theorem along_findVersionEntry (producer : String) (apiType : ApiType) (version : SemVer)
    (events : Calls) :
    (findVersionEntry producer apiType version).Along (fun _ request => request.readsOnly = true)
      (fun _ _ => True) (fun _ _ => True) events := by
  refine along_repo_bind rfl (fun _ => trivial) fun found => ?_
  cases found with
  | none => trivial
  | some serviceId =>
      refine along_repo_bind rfl (fun _ => trivial) fun entry => ?_
      cases entry <;> trivial

/-- Reading on leaves a history of reads. -/
theorem reads_cons {request : Call} {answer : Call.Answer request}
    (quiet : ∀ earlier ∈ events, earlier.request.readsOnly = true)
    (reads : request.readsOnly = true) :
    ∀ earlier ∈ (⟨request, answer⟩ : Event Call Call.Answer) :: events,
      earlier.request.readsOnly = true := by
  intro earlier among
  rcases List.mem_cons.mp among with rfl | before
  · exact reads
  · exact quiet earlier before

/-- A promotion is a Provide of what it read. -/
theorem along_promoteVersion (deployment : Deployment) (producername : String) (apiType : ApiType)
    (version : SemVer) (caller : Option Actor) :
    (promoteVersion deployment producername apiType version caller).Along
      (fun events request => request.readsOnly = true ∨ ∃ content,
        ProvideAllows deployment (promotion producername apiType content caller) events request)
      (fun events response => ∃ content,
        ProvideDone deployment (promotion producername apiType content caller) events response)
      (fun events error => (∀ event ∈ events, event.request.readsOnly = true) ∨
        ∃ content, ProvideFailed deployment (promotion producername apiType content caller) events
          error) [] := by
  have looked := (along_findVersionEntry producername apiType version []).preserved
    (fun later => ∀ event ∈ later, event.request.readsOnly = true) (fun _ _ _ => reads_cons) (by simp)
  refine (looked.mono (fun _ _ allowed => .inl allowed.2) (fun _ _ held => held)
    fun _ _ failed => .inl failed.1).seq ?_
  rintro later entry - ⟨quiet, -⟩
  refine along_repo_bind (.inl rfl) (fun _ => .inl (reads_cons quiet rfl)) fun content => ?_
  cases content with
  | none => exact .inl (reads_cons quiet rfl)
  | some content =>
      refine (along_provideSpecInner deployment {} ?_).mono
        (fun _ _ allowed => .inr ⟨content, allowed⟩) (fun _ _ held => ⟨content, held⟩)
        fun _ _ failed => .inr ⟨content, failed⟩
      exact fun event among => .reads (reads_cons quiet rfl event among)

end Provide
end Sanshain.Application
