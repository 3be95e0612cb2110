import Sanshain.Application.Contracts
import Sanshain.Application.VersionRules
import Sanshain.Application.Webhooks

namespace Sanshain.Application

open Sanshain.Data Sanshain.Domain Sanshain.Document Sanshain.Effects
open OpenApiDocument (EndpointSpec)

structure ProvideSpecParams where
  producername : String
  apiType : ApiType
  content : String
  stability : Stability
  dryRun : Bool := false
  trunk : Bool := false
  tag : Option String := none
  caller : Option Actor := none
  requirePriorContentMatch : Bool := false

namespace ProvideSpecParams

/-- The one identity: authorization and attribution both come from the caller. -/
def username (params : ProvideSpecParams) : Option String := params.caller.map (·.username)

/-- Whether the caller may publish under the declared stability. -/
def mayRelease (params : ProvideSpecParams) : Bool :=
  params.stability = .snapshot || params.caller.any (·.hasPermission .releaseGa)

/-- The text that is hashed, compared, split and stored. -/
def normalContent (params : ProvideSpecParams) : String := normalizeSpecText params.content

/-- The capability tag that goes with an API type. -/
def autoTag (params : ProvideSpecParams) : Option String :=
  match params.apiType with
  | .asyncApi => some "messaging"
  | .proto => some "grpc"
  | .openApi => none

end ProvideSpecParams

/-- A Provide whose document was read: what the rules look at is what the document says. -/
structure Submission (external : External) (params : ProvideSpecParams) where
  stream : ResolvedStream
  parsed : ParsedSpec
  parses : parseSpec external params.apiType params.normalContent = .ok parsed

namespace Submission

variable {external : External} {params : ProvideSpecParams}

def version (submission : Submission external params) : SemVer := submission.parsed.version

def hash (submission : Submission external params) : String := submission.parsed.hash

def endpoints (submission : Submission external params) : List EndpointSpec :=
  submission.parsed.endpoints

def records (submission : Submission external params) : List EndpointRecord :=
  submission.endpoints.map fun endpoint =>
    ⟨params.apiType, endpoint.path, endpoint.normalizedPath, endpoint.method, endpoint.yamlContent,
      endpoint.deprecated⟩

/-- The compare-and-set hash is that of the very bytes being written. -/
def expectedPriorHash (submission : Submission external params) : Option String :=
  if params.requirePriorContentMatch then some submission.hash else none

/-- Subscriptions are harvested outside the branch graphs only. -/
def harvests (submission : Submission external params) : Bool :=
  params.apiType = .asyncApi && submission.stream.branch.isNone

def existing (submission : Submission external params) (line : List SpecVersionMeta) :
    Option SpecVersionMeta :=
  line.find? (·.version = submission.version)

/-- The stored entry is what is submitted, unless a release is asked for of a snapshot. -/
def isNoOp (submission : Submission external params) (entry : SpecVersionMeta) : Bool :=
  entry.contentHash = submission.hash && !(entry.stability = .snapshot && params.stability = .ga)

def promotes (_ : Submission external params) (entry : Option SpecVersionMeta) : Bool :=
  entry.map (·.stability) = some .snapshot && params.stability = .ga

/-- A promotion of the same bytes keeps the snapshot's provider. -/
def credited (submission : Submission external params) (entry : Option SpecVersionMeta) : String :=
  if submission.promotes entry && entry.any (·.contentHash = submission.hash) then
    (entry.map (·.providedBy)).getD ""
  else params.username.getD ""

end Submission

/-- The document is read before any rule looks at it. -/
def readSubmission (external : External) (params : ProvideSpecParams) (stream : ResolvedStream) :
    Except AppError (Submission external params) :=
  match parses : parseSpec external params.apiType params.normalContent with
  | .ok parsed => .ok ⟨stream, parsed, parses⟩
  | .error error => .error error

section Rejections

/-- What a refusal by a version rule is about. -/
structure VersionRejection where
  username : Option String
  producername : String
  apiType : ApiType
  version : SemVer
  reason : String
  message : String
  proposed : Option SemVer

def rejectionAudit (rejection : VersionRejection) : NewAuditLog :=
  { action := "VERSION_REJECTED"
    details := rejection.message
    service := some rejection.producername
    version := some rejection.version.display
    actionType := some "REJECT" }

def rejectionData (rejection : VersionRejection) : Value :=
  provideRejectedData ⟨rejection.producername, rejection.apiType, rejection.version,
    rejection.reason, rejection.message, rejection.proposed, rejection.username⟩

/-- The event of a refusal goes to the outbox on its own, if planning it does not fail. -/
def emitRejection (deployment : Deployment) (rejection : VersionRejection) : UseCase Unit := do
  match ← (planEvent deployment .provideRejected (.ofProducer rejection.producername)
    (rejectionData rejection)).attempt with
  | .ok (some event) => do
      let _ ← tryRepo (.insertWebhookEvents [event])
      .done ()
  | _ => .done ()

/-- Only known Producers are recorded, a preview never is, and no failure here is the caller's. -/
def recordVersionRejection (deployment : Deployment) (dryRun : Bool) (rejection : VersionRejection) :
    UseCase Unit :=
  if dryRun then .done ()
  else do
    match ← tryRepo (.findService rejection.producername) with
    | .ok (some _) => do
        let _ ← tryRepo (.insertAuditLog (rejection.username.getD devModeActor)
          (rejectionAudit rejection))
        emitRejection deployment rejection
    | _ => .done ()

variable (deployment : Deployment) {params : ProvideSpecParams}
  (submission : Submission deployment.external params)

/-- A refusal is recorded and then answered. -/
def refuse {Value : Type} (reason message : String) (proposed : Option SemVer) (error : AppError) :
    UseCase Value := do
  recordVersionRejection deployment params.dryRun
    ⟨params.username, params.producername, params.apiType, submission.version, reason, message,
      proposed⟩
  .fail error

def refuseVersion {Value : Type} (reason message : String) (proposed : SemVer) : UseCase Value :=
  refuse deployment submission reason message (some proposed) (.versionConflict message proposed)

/-- A contract refusal is a version-rule rejection; other errors are not. -/
def refuseContract {Value : Type} (error : AppError) : UseCase Value :=
  match error with
  | .conflict message | .breakingChange message =>
      refuse deployment submission "message_contract_conflict" message none error
  | _ => .fail error

/-- A contract plan that fails is recorded as a refusal. -/
def orRefuseContract {Value : Type} (plan : UseCase Value) : UseCase Value := do
  match ← plan.attempt with
  | .ok planned => .done planned
  | .error error => refuseContract deployment submission error

end Rejections

section Rules

variable (deployment : Deployment) {params : ProvideSpecParams}
  (submission : Submission deployment.external params)

/-- Releasing is a permission, whatever the release would change. -/
def gateRelease : UseCase Unit :=
  if params.mayRelease then .done ()
  else
    let message := s!"publishing GA for '{params.producername}' requires the 'releaser' role — publish as a snapshot, or ask an administrator to grant the role"
    refuse deployment submission "ga_requires_releaser" message none (.forbiddenWithReason message)

/-- The Producer's identity: a preview looks it up, zero standing for an unknown one. -/
def serviceFor (params : ProvideSpecParams) : UseCase Nat :=
  if params.dryRun then do
    let found ← repo (.findService params.producername)
    .done (found.getD 0)
  else do
    let serviceId ← repo (.ensureService params.producername)
    match params.autoTag with
    | some tag => do
        repo (.addServiceTags serviceId [tag])
        .done serviceId
    | none => .done serviceId

def lineOf (apiType : ApiType) (serviceId : Nat) : UseCase (List SpecVersionMeta) :=
  if serviceId ≠ 0 then do
    let entries ← repo (.listSpecVersions serviceId)
    .done (entries.filter (·.apiType = apiType))
  else .done []

def planHarvest : UseCase Harvest :=
  if submission.harvests then
    orRefuseContract deployment submission
      (planSubscriptionHarvest deployment.external params.normalContent params.stability)
  else .done ([], [])

/-- Bytes that differ while no endpoint does. -/
def cosmeticHint (changes : ProvideChanges) : String :=
  if changes.isEmpty then
    " (no endpoint content changed — the difference may be whitespace or comments; documents are compared byte-for-byte after line endings and a leading BOM are normalized)"
  else ""

/-- A released number carries neither another release nor a snapshot. -/
def refuseTakenByGa {Value : Type} (line : List SpecVersionMeta) (entry : SpecVersionMeta) :
    UseCase Value := do
  let oldContent ← repo (.getSpecContent entry.id)
  let stored ← repo (.getEndpointsForVersion entry.id)
  let changes := diffEndpoints stored submission.endpoints
  let impact ← orSpin (classifyChange deployment.external params.apiType (oldContent.getD "")
    params.normalContent changes.inserts)
  let proposed ← orSpin (proposeFree line (submission.version.increment impact))
  let hint := cosmeticHint changes
  let number := submission.version.display
  let other := proposed.display
  if params.stability = .ga then
    refuseVersion deployment submission "immutable_ga"
      s!"version {number} of {params.apiType.asStr} '{params.producername}' is GA and immutable, but the submitted content differs — did you forget to increment info's version? Publish as {other} instead{hint}"
      proposed
  else
    refuseVersion deployment submission "snapshot_on_ga"
      s!"version {number} of {params.apiType.asStr} '{params.producername}' is GA — a released number can never carry a snapshot again; bump your version to {other}{hint}"
      proposed

/-- Whether a snapshot belongs to someone else: without a caller nobody owns anything. -/
def ownedByOther (username : Option String) (entry : SpecVersionMeta) : Bool :=
  entry.providedBy ≠ "" && username.any (· ≠ entry.providedBy)

/-- A second line of work under one number is sent to the next free minor. -/
def refuseOwned {Value : Type} (line : List SpecVersionMeta) (entry : SpecVersionMeta) :
    UseCase Value := do
  let proposed ← orSpin (proposeFreeMinor line submission.version)
  let number := submission.version.display
  let other := proposed.display
  refuseVersion deployment submission "snapshot_owned"
    s!"version {number} of {params.apiType.asStr} '{params.producername}' is a snapshot provided by '{entry.providedBy}' — only they may change it; publish your work as {other} instead, or ask an administrator to delete the snapshot"
    proposed

/-- The rules on the entry that already has the number. -/
def gateNumber (line : List SpecVersionMeta) : UseCase Unit :=
  match submission.existing line with
  | none => .done ()
  | some entry =>
      if entry.stability = .ga then refuseTakenByGa deployment submission line entry
      else if params.stability = .snapshot && ownedByOther params.username entry then
        refuseOwned deployment submission line entry
      else .done ()

/-- The number after a breaking change: a new major that is free. -/
def refuseBreaking {Value : Type} (line : List SpecVersionMeta) (baseline : SpecVersionMeta)
    (reason : String) : UseCase Value := do
  let proposed ← orSpin (proposeFree line ⟨saturatingSucc baseline.version.major, 0, 0⟩)
  let number := submission.version.display
  let base := baseline.version.display
  let other := proposed.display
  refuseVersion deployment submission "breaking_without_major"
    s!"version {number} of {params.apiType.asStr} '{params.producername}' is breaking relative to GA {base} but does not bump the major — publish as {other} instead: {reason}"
    proposed

/-- A release within a major is compatible with the highest release below it. -/
def gateCompatibility (line : List SpecVersionMeta) : UseCase Unit :=
  match gaBaseline line submission.version with
  | none => .done ()
  | some baseline =>
      if params.stability = .ga ∧ submission.version.major ≤ baseline.version.major then do
        match ← repo (.getSpecContent baseline.id) with
        | none => .done ()
        | some content =>
            match checkCompatibility deployment.external params.apiType content
                params.normalContent with
            | .pass => .done ()
            | .refuse reason => refuseBreaking deployment submission line baseline reason
            | .endless => .spin
      else .done ()

def changesOf (existing : Option SpecVersionMeta) : UseCase ProvideChanges :=
  match existing with
  | none => .done { inserts := submission.endpoints.length }
  | some entry => do
      let stored ← repo (.getEndpointsForVersion entry.id)
      .done (diffEndpoints stored submission.endpoints)

/-- Only a release of a channel document claims its messages. -/
def planContracts (serviceId : Nat) : UseCase (List ContractOp) :=
  if params.apiType = .asyncApi ∧ params.stability = .ga then
    orRefuseContract deployment submission
      (planChannelMessageContracts deployment.external serviceId params.normalContent)
  else .done []

end Rules

section NoOp

/-- What a Provide of known bytes does to the stored origin: nothing known takes the new one,
and a trunk build takes over the build link of a branch build. -/
def originForIdenticalProvide (stored : Option VersionOrigin) (incoming : VersionOrigin)
    (trunk : Bool) : Option VersionOrigin :=
  let trunkLink := trunk && incoming.buildUrl.isSome
  match stored with
  | none => some { incoming with trunkBuild := trunkLink }
  | some stored =>
      if trunkLink && !stored.trunkBuild then
        some
          { buildUrl := incoming.buildUrl
            changeUrl := stored.changeUrl.or incoming.changeUrl
            tickets := if stored.tickets.isEmpty then incoming.tickets else stored.tickets
            note := stored.note.or incoming.note
            trunkBuild := true }
      else none

variable {external : External} {params : ProvideSpecParams} (submission : Submission external params)

def touchProvided (entry : SpecVersionMeta) : UseCase Unit :=
  if entry.stability = .snapshot then do
    let now ← nowIso
    repo (.touchSpecVersionProvided entry.id now)
  else .done ()

def touchTrunkOf (specVersionId : Nat) : UseCase Unit :=
  if submission.stream.trunk then do
    let now ← nowIso
    repo (.touchSpecVersionTrunk specVersionId now)
  else .done ()

def recordMember (serviceId : Nat) : UseCase Unit :=
  match submission.stream.branch with
  | some branch => do
      let now ← nowIso
      repo (.recordBranchMemberVersion branch.id serviceId params.apiType submission.version now)
  | none => .done ()

def reconcile (harvest : Harvest) : UseCase Unit :=
  if submission.harvests then
    reconcileHarvest params.producername submission.stream.trunk harvest.1
  else .done ()

def refreshOrigin (origin : VersionOrigin) (entry : SpecVersionMeta) : UseCase Unit :=
  if origin.isEmpty then .done ()
  else do
    let stored ← repo (.getVersionOrigin entry.id)
    match originForIdenticalProvide stored origin submission.stream.trunk with
    | none => .done ()
    | some merged => do
        let now ← nowIso
        repo (.setVersionOrigin entry.id merged now)

/-- Known bytes write no version, yet count as provided. -/
def refreshIdentical (origin : VersionOrigin) (serviceId : Nat) (harvest : Harvest)
    (entry : SpecVersionMeta) : UseCase Unit :=
  if params.dryRun then .done ()
  else do
    touchProvided entry
    touchTrunkOf submission entry.id
    recordMember submission serviceId
    reconcile submission harvest
    refreshOrigin submission origin entry

def identicalResponse (harvest : Harvest) (entry : SpecVersionMeta) : ProvideResponse :=
  { version := submission.version
    stability := entry.stability
    contentHash := submission.hash
    changes := {}
    promoted := false
    harvestedSubscriptions := harvest.2
    stream := submission.stream }

def freshResponse (harvest : Harvest) (existing : Option SpecVersionMeta)
    (changes : ProvideChanges) : ProvideResponse :=
  { version := submission.version
    stability := params.stability
    contentHash := submission.hash
    changes := changes
    promoted := submission.promotes existing
    harvestedSubscriptions := harvest.2
    stream := submission.stream }

end NoOp

section Events

variable (deployment : Deployment) {params : ProvideSpecParams}
  (submission : Submission deployment.external params)

/-- The full diff against the previous release, when a hook will see it. -/
def classifyRelease (baseline : Option SpecVersionMeta) (publishedTo : List Nat) :
    UseCase (Option (SemVer × Impact)) :=
  match baseline with
  | none => .done none
  | some baseline =>
      if params.stability = .ga ∧ publishedTo ≠ [] then do
        match ← repo (.getSpecContent baseline.id) with
        | none => .done none
        | some old => do
            let impact ← orSpin (classifyChange deployment.external params.apiType old
              params.normalContent submission.records.length)
            .done (some (baseline.version, impact))
      else .done none

def previousEndpoints (baseline : Option SpecVersionMeta) : UseCase (Option (List EndpointRecord)) :=
  match baseline with
  | none => .done none
  | some baseline => do
      let endpoints ← repo (.getEndpointsForVersion baseline.id)
      .done (some endpoints)

def publishedData (origin : VersionOrigin) (existing : Option SpecVersionMeta)
    (compatibility : Option (SemVer × Impact)) : Value :=
  versionPublishedData
    { producer := params.producername
      apiType := params.apiType
      version := submission.version
      stability := params.stability
      promoted := submission.promotes existing
      stream := submission.stream
      actor := params.username
      compatibility := compatibility
      origin := origin }

def planDeprecation (previous : Option (List EndpointRecord)) : UseCase (Option NewWebhookEvent) :=
  let (elements, whole) := newlyDeprecated submission.records previous
  if elements.isEmpty then .done none
  else planEvent deployment .versionDeprecated (.ofProducer params.producername)
    (versionDeprecatedData params.producername params.apiType submission.version params.stability
      elements whole)

/-- The outbox rows that are written with the entry. -/
def planProvideEvents (origin : VersionOrigin) (line : List SpecVersionMeta) :
    UseCase (List NewWebhookEvent) :=
  if deployment.emissionEnabled then do
    let publishedTo ← fanOut deployment .versionPublished (.ofProducer params.producername)
    let baseline := gaBaseline line submission.version
    let compatibility ← classifyRelease deployment submission baseline publishedTo
    let published ← eventFor .versionPublished (some params.producername)
      (publishedData deployment submission origin (submission.existing line) compatibility)
      publishedTo
    let previous ← previousEndpoints baseline
    let deprecated ← planDeprecation deployment submission previous
    .done (published.toList ++ deprecated.toList)
  else .done []

end Events

section Writing

variable {external : External} {params : ProvideSpecParams} (submission : Submission external params)

def upsertRecord (serviceId : Nat) (existing : Option SpecVersionMeta) (now : Instant)
    (outbox : List NewWebhookEvent) : UpsertSpecVersion :=
  { serviceId := serviceId
    apiType := params.apiType
    version := submission.version
    stability := params.stability
    content := params.normalContent
    contentHash := submission.hash
    providedBy := submission.credited existing
    expectedPriorHash := submission.expectedPriorHash
    nowIso := now
    endpoints := submission.records
    outbox := outbox }

/-- What a refused compare-and-set says, from what the line holds now. -/
def releaseConflict (version : SemVer) : Except RepositoryError (Option SpecVersionMeta) → String
  | .ok (some entry) =>
      if entry.stability = .ga then
        s!"version {version.display} was released concurrently — nothing left to do"
      else "the snapshot changed while releasing — reload and promote again"
  | .ok none => s!"version {version.display} was deleted while releasing — nothing left to promote"
  | .error _ => "the version moved while releasing — reload and retry"

/-- A refused compare-and-set is explained; the refusal itself is already decided. -/
def explainRefusedWrite {Value : Type} (record : UpsertSpecVersion) (error : RepositoryError) :
    UseCase Value :=
  if error = .conflict ∧ record.expectedPriorHash.isSome then do
    let found ← tryRepo (.findSpecVersion record.serviceId record.apiType record.version)
    .fail (.conflict (releaseConflict record.version found))
  else .fail error.toAppError

def writeVersion (record : UpsertSpecVersion) : UseCase Nat := do
  match ← tryRepo (.upsertSpecVersion record) with
  | .ok entryId => .done entryId
  | .error error => explainRefusedWrite record error

/-- The latest Provide's origin is the version's, but a silent promotion keeps the stored one. -/
def recordOrigin (origin : VersionOrigin) (existing : Option SpecVersionMeta) (entryId : Nat) :
    UseCase Unit :=
  if submission.promotes existing && origin.isEmpty then .done ()
  else do
    let now ← nowIso
    repo (.setVersionOrigin entryId
      { origin with trunkBuild := submission.stream.trunk && origin.buildUrl.isSome } now)

def promotionAudit : NewAuditLog :=
  { action := "VERSION_PROMOTED"
    details := s!"Promoted {params.apiType.asStr} {submission.version.display} of '{params.producername}' to GA — the number is permanently claimed"
    service := some params.producername
    version := some submission.version.display
    actionType := some "WRITE" }

/-- A promotion has an audit row of its own, best-effort. -/
def auditPromotion (existing : Option SpecVersionMeta) : UseCase Unit :=
  match submission.promotes existing, params.username with
  | true, some actor => do
      let _ ← tryRepo (.insertAuditLog actor (promotionAudit submission))
      .done ()
  | _, _ => .done ()

/-- What follows a landed write. -/
def recordProvided (origin : VersionOrigin) (serviceId : Nat) (harvest : Harvest)
    (existing : Option SpecVersionMeta) (ops : List ContractOp) (entryId : Nat) : UseCase Unit := do
  applyContractOps ops
  recordOrigin submission origin existing entryId
  touchTrunkOf submission entryId
  recordMember submission serviceId
  auditPromotion submission existing
  reconcile submission harvest

end Writing

section Provide

variable (deployment : Deployment) {params : ProvideSpecParams}
  (submission : Submission deployment.external params)

/-- The entry, its events, and what follows from them. -/
def writeProvided (origin : VersionOrigin) (serviceId : Nat) (line : List SpecVersionMeta)
    (harvest : Harvest) (ops : List ContractOp) : UseCase Unit := do
  let existing := submission.existing line
  let outbox ← planProvideEvents deployment submission origin line
  let now ← nowIso
  let entryId ← writeVersion (upsertRecord submission serviceId existing now outbox)
  recordProvided submission origin serviceId harvest existing ops entryId

/-- Bytes the line does not have under this number and stability yet: the rules, then the write. -/
def provideFresh (origin : VersionOrigin) (serviceId : Nat) (line : List SpecVersionMeta)
    (harvest : Harvest) : UseCase ProvideResponse := do
  gateNumber deployment submission line
  gateCompatibility deployment submission line
  let changes ← changesOf deployment submission (submission.existing line)
  let ops ← planContracts deployment submission serviceId
  let response := freshResponse submission harvest (submission.existing line) changes
  if params.dryRun then .done response
  else do
    writeProvided deployment submission origin serviceId line harvest ops
    .done response

/-- Everything after the document was read and the release allowed. -/
def provideOnLine (origin : VersionOrigin) (serviceId : Nat) (line : List SpecVersionMeta) :
    UseCase ProvideResponse := do
  let harvest ← planHarvest deployment submission
  match (submission.existing line).filter submission.isNoOp with
  | some entry => do
      refreshIdentical submission origin serviceId harvest entry
      .done (identicalResponse submission harvest entry)
  | none => provideFresh deployment submission origin serviceId line harvest

def provideSubmission (origin : VersionOrigin) : UseCase ProvideResponse := do
  gateRelease deployment submission
  let serviceId ← serviceFor params
  let line ← lineOf params.apiType serviceId
  provideOnLine deployment submission origin serviceId line

end Provide

def provideSpecInner (deployment : Deployment) (params : ProvideSpecParams) (origin : VersionOrigin) :
    UseCase ProvideResponse := do
  let stream ← resolveStream params.trunk params.tag
  let submission ← .ofExcept (readSubmission deployment.external params stream)
  provideSubmission deployment submission origin

/-- A Provide without an origin. -/
def provideSpec (deployment : Deployment) (params : ProvideSpecParams) : UseCase ProvideResponse :=
  provideSpecInner deployment params {}

/-- A Provide with the origin its build declared. -/
def provideSpecWithOrigin (deployment : Deployment) (params : ProvideSpecParams)
    (origin : VersionOrigin) : UseCase ProvideResponse := do
  let origin ← .ofExcept (origin.normalized.mapError fun reason => .badRequest s!"origin: {reason}")
  provideSpecInner deployment params origin

/-- A promotion provides stored content as a release, and lands only on those very bytes. -/
def promotion (producername : String) (apiType : ApiType) (content : String)
    (caller : Option Actor) : ProvideSpecParams :=
  { producername := producername
    apiType := apiType
    content := content
    stability := .ga
    caller := caller
    requirePriorContentMatch := true }

def promoteVersion (deployment : Deployment) (producername : String) (apiType : ApiType)
    (version : SemVer) (caller : Option Actor) : UseCase ProvideResponse := do
  let entry ← findVersionEntry producername apiType version
  match ← repo (.getSpecContent entry.id) with
  | none => .fail (.notFound "Version not found")
  | some content => provideSpec deployment (promotion producername apiType content caller)

end Sanshain.Application
