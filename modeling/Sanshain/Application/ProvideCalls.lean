import Sanshain.Application.Provide

namespace Sanshain.Application

open Sanshain.Data Sanshain.Domain Sanshain.Document Sanshain.Effects

section Facts

/-- The calls that record a refusal, besides reading. -/
inductive Telemetry (params : ProvideSpecParams) : Call → Prop
  | reads {request : Call} (reads : request.readsOnly = true) : Telemetry params request
  | audit (written : params.dryRun = false) (username : String) (log : NewAuditLog) :
      Telemetry params (.repo (.insertAuditLog username log))
  | event (written : params.dryRun = false) (events : List NewWebhookEvent) :
      Telemetry params (.repo (.insertWebhookEvents events))

/-- The calls of a Provide before its line is written. -/
inductive Prepares (params : ProvideSpecParams) : Call → Prop
  | telemetry {request : Call} (telemetry : Telemetry params request) : Prepares params request
  | service (written : params.dryRun = false) (released : params.mayRelease = true) :
      Prepares params (.repo (.ensureService params.producername))
  | tag (written : params.dryRun = false) (released : params.mayRelease = true) (serviceId : Nat)
      (tag : String) (auto : params.autoTag = some tag) :
      Prepares params (.repo (.addServiceTags serviceId [tag]))

/-- Nothing but preparation has happened. -/
def Preparing (params : ProvideSpecParams) (events : Calls) : Prop :=
  ∀ event ∈ events, Prepares params event.request

/-- What a Provide was told of its Producer. -/
structure Registered (params : ProvideSpecParams) (serviceId : Nat) (events : Calls) : Prop where
  previewed : params.dryRun = true → ∃ found,
    Heard events (.findService params.producername) found ∧ serviceId = found.getD 0
  ensured : params.dryRun = false → Heard events (.ensureService params.producername) serviceId
  tagged : params.dryRun = false → ∀ tag, params.autoTag = some tag →
    Heard events (.addServiceTags serviceId [tag]) ()

/-- What a Provide was told of its Producer and of its line. -/
structure Served (params : ProvideSpecParams) (serviceId : Nat) (line : List SpecVersionMeta)
    (events : Calls) : Prop extends Registered params serviceId events where
  listed : serviceId = 0 ∧ line = [] ∨ ∃ entries,
    Heard events (.listSpecVersions serviceId) entries ∧
      line = entries.filter (·.apiType = params.apiType)

variable {deployment : Deployment} {params : ProvideSpecParams}

/-- The rule that a submission breaks on its line. -/
inductive Offends (submission : Submission deployment.external params)
    (line : List SpecVersionMeta) (events : Calls) : Prop
  | taken (entry : SpecVersionMeta) (found : submission.existing line = some entry)
  | breaking (baseline : SpecVersionMeta) (content reason : String)
      (release : params.stability = .ga)
      (below : gaBaseline line submission.version = some baseline)
      (within : submission.version.major ≤ baseline.version.major)
      (heard : Heard events (.getSpecContent baseline.id) (some content))
      (breaks : checkCompatibility deployment.external params.apiType content
        params.normalContent = .refuse reason)

/-- A submission that every rule lets onto its line, with the contract changes of its release. -/
structure Admitted (submission : Submission deployment.external params) (serviceId : Nat)
    (line : List SpecVersionMeta) (ops : List ContractOp) (events : Calls) : Prop where
  released : params.mayRelease = true
  served : Served params serviceId line events
  harvest : submission.harvests = true →
    HarvestPlanned deployment.external params.stability params.normalContent events
  fresh : (submission.existing line).filter submission.isNoOp = none
  number : ∀ entry, submission.existing line = some entry → entry.stability = .snapshot ∧
    (params.stability = .snapshot → ownedByOther params.username entry = false)
  compatible : params.stability = .ga → ∀ baseline,
    gaBaseline line submission.version = some baseline →
      submission.version.major ≤ baseline.version.major → ∃ found,
        Heard events (.getSpecContent baseline.id) found ∧ ∀ content, found = some content →
          checkCompatibility deployment.external params.apiType content params.normalContent = .pass
  planned : params.apiType = .asyncApi → params.stability = .ga →
    ContractsPlanned deployment.external serviceId params.normalContent events ops
  unplanned : ¬ (params.apiType = .asyncApi ∧ params.stability = .ga) → ops = []

/-- Contract changes come from the plan of a release of a channel document. -/
theorem Admitted.planned_of_mem {submission : Submission deployment.external params}
    {serviceId : Nat} {line : List SpecVersionMeta} {ops : List ContractOp} {events : Calls}
    (admitted : Admitted submission serviceId line ops events) {op : ContractOp} (among : op ∈ ops) :
    ContractsPlanned deployment.external serviceId params.normalContent events ops := by
  by_cases release : params.apiType = .asyncApi ∧ params.stability = .ga
  · exact admitted.planned release.1 release.2
  · rw [admitted.unplanned release] at among
    cases among

/-- A write that landed, and was the only one. -/
structure Landed (record : UpsertSpecVersion) (entryId : Nat) (events : Calls) : Prop where
  heard : Heard events (.upsertSpecVersion record) entryId
  alone : ∀ event ∈ events, ∀ other, event.request = .repo (.upsertSpecVersion other) →
    event = ⟨.repo (.upsertSpecVersion record), .ok entryId⟩

def contractChange (event : Event Call Call.Answer) : Option ContractOp :=
  match event.request with
  | .repo (.upsertChannelMessageContract contract) => some (.upsert contract)
  | .repo (.deleteChannelMessageContract channel messageName) => some (.delete channel messageName)
  | _ => none

/-- No write of a line was refused for what the line holds. -/
def Unrefused (events : Calls) : Prop :=
  ∀ record, (⟨.repo (.upsertSpecVersion record), .error .conflict⟩ : Event Call Call.Answer) ∉ events

/-- The contract changes issued so far, the first one first. -/
def contractWrites (events : Calls) : List ContractOp := events.reverse.filterMap contractChange

/-- The entry of a line that a Provide found to be what it submits. -/
structure Identical (submission : Submission deployment.external params) (serviceId : Nat)
    (line : List SpecVersionMeta) (entry : SpecVersionMeta) (events : Calls) : Prop where
  released : params.mayRelease = true
  served : Served params serviceId line events
  harvest : submission.harvests = true →
    HarvestPlanned deployment.external params.stability params.normalContent events
  found : submission.existing line = some entry
  same : submission.isNoOp entry = true

/-- What is recorded of an entry once it stands: no line and no contract changes. -/
inductive FollowsUp (params : ProvideSpecParams) (entryId : Nat) : Call → Prop
  | provided (now : Instant) : FollowsUp params entryId (.repo (.touchSpecVersionProvided entryId now))
  | trunk (now : Instant) : FollowsUp params entryId (.repo (.touchSpecVersionTrunk entryId now))
  | member (branchId serviceId : Nat) (version : SemVer) (now : Instant) :
      FollowsUp params entryId
        (.repo (.recordBranchMemberVersion branchId serviceId params.apiType version now))
  | origin (origin : VersionOrigin) (now : Instant) :
      FollowsUp params entryId (.repo (.setVersionOrigin entryId origin now))
  | audit (username : String) (log : NewAuditLog) :
      FollowsUp params entryId (.repo (.insertAuditLog username log))
  | client : FollowsUp params entryId (.repo (.ensureClient params.producername))
  | harvest (clientId : Nat) (trunk : Bool) (subs : List HarvestedSubInput) (now : Instant) :
      FollowsUp params entryId
        (.repo (.reconcileHarvestedSubscriptions clientId params.producername trunk subs now))

/-- Every call a Provide may issue, with what it knows when it does. -/
inductive ProvideAllows (deployment : Deployment) (params : ProvideSpecParams) (events : Calls) :
    Call → Prop
  | reads {request : Call} (reads : request.readsOnly = true) :
      ProvideAllows deployment params events request
  | prepare {request : Call} (preparing : Preparing params events) (prepares : Prepares params request)
      (own : ∀ serviceId tags, request = .repo (.addServiceTags serviceId tags) →
        Heard events (.ensureService params.producername) serviceId) :
      ProvideAllows deployment params events request
  | refresh {submission : Submission deployment.external params} {serviceId : Nat}
      {line : List SpecVersionMeta} {entry : SpecVersionMeta} {request : Call}
      (written : params.dryRun = false)
      (identical : Identical submission serviceId line entry events)
      (untried : ∀ event ∈ events, ∀ record, event.request ≠ .repo (.upsertSpecVersion record))
      (follows : FollowsUp params entry.id request) :
      ProvideAllows deployment params events request
  | upsert {submission : Submission deployment.external params} {serviceId : Nat}
      {line : List SpecVersionMeta} {ops : List ContractOp} (written : params.dryRun = false)
      (preparing : Preparing params events)
      (admitted : Admitted submission serviceId line ops events) (now : Instant)
      (outbox : List NewWebhookEvent) :
      ProvideAllows deployment params events (.repo (.upsertSpecVersion
        (upsertRecord submission serviceId (submission.existing line) now outbox)))
  | claim {submission : Submission deployment.external params} {serviceId entryId : Nat}
      {line : List SpecVersionMeta} {ops : List ContractOp} {now : Instant}
      {outbox : List NewWebhookEvent} (written : params.dryRun = false)
      (admitted : Admitted submission serviceId line ops events)
      (landed : Landed (upsertRecord submission serviceId (submission.existing line) now outbox)
        entryId events)
      (contract : ChannelMessageContract) (next : contractWrites events ++ [.upsert contract] <+: ops) :
      ProvideAllows deployment params events (.repo (.upsertChannelMessageContract contract))
  | release {submission : Submission deployment.external params} {serviceId entryId : Nat}
      {line : List SpecVersionMeta} {ops : List ContractOp} {now : Instant}
      {outbox : List NewWebhookEvent} (written : params.dryRun = false)
      (admitted : Admitted submission serviceId line ops events)
      (landed : Landed (upsertRecord submission serviceId (submission.existing line) now outbox)
        entryId events)
      (channel messageName : String)
      (next : contractWrites events ++ [.delete channel messageName] <+: ops) :
      ProvideAllows deployment params events (.repo (.deleteChannelMessageContract channel messageName))
  | follow {submission : Submission deployment.external params} {serviceId entryId : Nat}
      {line : List SpecVersionMeta} {ops : List ContractOp} {now : Instant}
      {outbox : List NewWebhookEvent} {request : Call} (written : params.dryRun = false)
      (admitted : Admitted submission serviceId line ops events)
      (landed : Landed (upsertRecord submission serviceId (submission.existing line) now outbox)
        entryId events)
      (applied : contractWrites events = ops) (follows : FollowsUp params entryId request) :
      ProvideAllows deployment params events request

theorem telemetry_plain {params : ProvideSpecParams} {request : RepoCall}
    (telemetry : Telemetry params (.repo request)) :
    request.administers = false := by
  cases telemetry with
  | reads reads => exact RepoCall.plain_of_readsOnly reads
  | _ => rfl

/-- A Provide neither removes what was registered nor names a branch. -/
theorem provideAllows_plain {deployment : Deployment} {params : ProvideSpecParams} {events : Calls} {request : RepoCall}
    (allowed : ProvideAllows deployment params events (.repo request)) :
    request.administers = false := by
  cases allowed with
  | reads reads => exact RepoCall.plain_of_readsOnly reads
  | prepare preparing prepares own =>
      cases prepares with
      | telemetry telemetry => exact telemetry_plain telemetry
      | _ => rfl
  | refresh written identical untried follows => cases follows <;> rfl
  | follow written admitted landed applied follows => cases follows <;> rfl
  | _ => rfl

/-- How a Provide that answers Ok has ended. -/
inductive ProvideDone (deployment : Deployment) (params : ProvideSpecParams) (events : Calls)
    (response : ProvideResponse) : Prop
  | identical {submission : Submission deployment.external params} {serviceId : Nat}
      {line : List SpecVersionMeta} {entry : SpecVersionMeta}
      (identical : Identical submission serviceId line entry events)
      (untried : ∀ event ∈ events, ∀ record, event.request ≠ .repo (.upsertSpecVersion record))
  | previewed {submission : Submission deployment.external params} {serviceId : Nat}
      {line : List SpecVersionMeta} {ops : List ContractOp} (preview : params.dryRun = true)
      (preparing : Preparing params events)
      (admitted : Admitted submission serviceId line ops events)
  | landed {submission : Submission deployment.external params} {serviceId entryId : Nat}
      {line : List SpecVersionMeta} {ops : List ContractOp} {now : Instant}
      {outbox : List NewWebhookEvent} (written : params.dryRun = false)
      (admitted : Admitted submission serviceId line ops events)
      (landed : Landed (upsertRecord submission serviceId (submission.existing line) now outbox)
        entryId events)
      (applied : contractWrites events = ops)

/-- Why a Provide that does not answer Ok has ended. -/
inductive ProvideFailed (deployment : Deployment) (params : ProvideSpecParams) (events : Calls) :
    AppError → Prop
  | call {error : AppError} (failed : CallFailed events error) (unrefused : Unrefused events) :
      ProvideFailed deployment params events error
  | document (message : String) : ProvideFailed deployment params events (.badRequest message)
  | unreleased (message : String) (denied : params.mayRelease = false)
      (telemetry : ∀ event ∈ events, Telemetry params event.request) :
      ProvideFailed deployment params events (.forbiddenWithReason message)
  | version {submission : Submission deployment.external params} {serviceId : Nat}
      {line : List SpecVersionMeta} (message : String) (proposed : SemVer)
      (released : params.mayRelease = true) (served : Served params serviceId line events)
      (preparing : Preparing params events)
      (harvest : submission.harvests = true →
        HarvestPlanned deployment.external params.stability params.normalContent events)
      (free : proposed ∉ line.map (·.version)) (offends : Offends submission line events) :
      ProvideFailed deployment params events (.versionConflict message proposed)
  | contract {serviceId : Nat} {line : List SpecVersionMeta} {error : AppError}
      (released : params.mayRelease = true) (served : Served params serviceId line events)
      (preparing : Preparing params events)
      (kind : (∃ message, error = .conflict message) ∨ ∃ message, error = .breakingChange message) :
      ProvideFailed deployment params events error
  | lost {serviceId : Nat} {line : List SpecVersionMeta} (record : UpsertSpecVersion)
      (released : params.mayRelease = true) (served : Served params serviceId line events)
      (prepared : ∀ event ∈ events, Prepares params event.request ∨
        event = ⟨.repo (.upsertSpecVersion record), .error .conflict⟩)
      (conflict : (⟨.repo (.upsertSpecVersion record), .error .conflict⟩ : Event Call Call.Answer) ∈
        events)
      (message : String) : ProvideFailed deployment params events (.conflict message)

section Growth

variable {submission : Submission deployment.external params} {serviceId entryId : Nat}
  {line : List SpecVersionMeta} {ops : List ContractOp} {entry : SpecVersionMeta}
  {record : UpsertSpecVersion} {events later : Calls}

theorem Registered.grow (known : Registered params serviceId events) (grown : events <:+ later) :
    Registered params serviceId later where
  previewed preview := by
    obtain ⟨found, heard, same⟩ := known.previewed preview
    exact ⟨found, heard.grow grown, same⟩
  ensured written := (known.ensured written).grow grown
  tagged written tag auto := (known.tagged written tag auto).grow grown

theorem Served.grow (served : Served params serviceId line events) (grown : events <:+ later) :
    Served params serviceId line later where
  toRegistered := served.toRegistered.grow grown
  listed := by
    rcases served.listed with unknown | ⟨entries, heard, same⟩
    · exact .inl unknown
    · exact .inr ⟨entries, heard.grow grown, same⟩

theorem Offends.grow (offends : Offends submission line events) (grown : events <:+ later) :
    Offends submission line later := by
  cases offends with
  | taken entry found => exact .taken entry found
  | breaking baseline content reason release below within heard breaks =>
      exact .breaking baseline content reason release below within (heard.grow grown) breaks

theorem Admitted.grow (admitted : Admitted submission serviceId line ops events)
    (grown : events <:+ later) : Admitted submission serviceId line ops later :=
  { admitted with
    served := admitted.served.grow grown
    harvest := fun harvests => (admitted.harvest harvests).grow grown
    compatible := by
      intro release baseline below within
      obtain ⟨found, heard, passes⟩ := admitted.compatible release baseline below within
      exact ⟨found, heard.grow grown, passes⟩
    planned := fun channel release => (admitted.planned channel release).grow grown }

theorem Identical.grow (identical : Identical submission serviceId line entry events)
    (grown : events <:+ later) : Identical submission serviceId line entry later :=
  { identical with
    served := identical.served.grow grown
    harvest := fun harvests => (identical.harvest harvests).grow grown }

/-- A call that writes no line leaves the landed write the only one. -/
theorem Landed.cons (landed : Landed record entryId events) {request : Call}
    {answer : Call.Answer request} (other : ∀ record, request ≠ .repo (.upsertSpecVersion record)) :
    Landed record entryId (⟨request, answer⟩ :: events) where
  heard := landed.heard.cons _
  alone earlier among another same := by
    rcases List.mem_cons.mp among with rfl | before
    · exact absurd same (other another)
    · exact landed.alone earlier before another same

theorem Prepares.not_upsert {request : Call} (prepares : Prepares params request)
    (record : UpsertSpecVersion) : request ≠ .repo (.upsertSpecVersion record) := by
  rintro rfl
  cases prepares with
  | telemetry telemetry =>
      cases telemetry with
      | reads reads => cases reads

theorem Preparing.untried (preparing : Preparing params events) :
    ∀ event ∈ events, ∀ record, event.request ≠ .repo (.upsertSpecVersion record) :=
  fun event among => (preparing event among).not_upsert

theorem Preparing.unrefused (preparing : Preparing params events) : Unrefused events :=
  fun record among => preparing.untried _ among record rfl

theorem Landed.unrefused (landed : Landed record entryId events) : Unrefused events := by
  intro other among
  have same := landed.alone _ among other rfl
  cases same

theorem landed_now (preparing : Preparing params events) (record : UpsertSpecVersion)
    (entryId : Nat) :
    Landed record entryId (⟨.repo (.upsertSpecVersion record), .ok entryId⟩ :: events) where
  heard := heard_now events (.upsertSpecVersion record) entryId
  alone event among other same := by
    rcases List.mem_cons.mp among with rfl | before
    · rfl
    · exact absurd same (preparing.untried event before other)

theorem Prepares.not_claim {request : Call} (prepares : Prepares params request)
    (contract : ChannelMessageContract) :
    request ≠ .repo (.upsertChannelMessageContract contract) := by
  rintro rfl
  cases prepares with
  | telemetry telemetry =>
      cases telemetry with
      | reads reads => cases reads

theorem Prepares.not_release {request : Call} (prepares : Prepares params request)
    (channel messageName : String) :
    request ≠ .repo (.deleteChannelMessageContract channel messageName) := by
  rintro rfl
  cases prepares with
  | telemetry telemetry =>
      cases telemetry with
      | reads reads => cases reads

theorem contractWrites_cons (event : Event Call Call.Answer) (events : Calls) :
    contractWrites (event :: events) = contractWrites events ++ (contractChange event).toList := by
  unfold contractWrites
  rw [List.reverse_cons, List.filterMap_append]
  cases change : contractChange event <;> simp [change]

theorem contractWrites_preparing (preparing : Preparing params events) :
    contractWrites events = [] := by
  rw [contractWrites, List.filterMap_eq_nil_iff]
  intro event among
  have prepares := preparing event (List.mem_reverse.mp among)
  unfold contractChange
  split
  · exact absurd ‹_› (prepares.not_claim _)
  · exact absurd ‹_› (prepares.not_release _ _)
  · rfl

end Growth
end Facts

end Sanshain.Application
