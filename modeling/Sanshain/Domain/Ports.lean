import Sanshain.Document.Value
import Sanshain.Domain.Models

namespace Sanshain.Domain

open Sanshain.Data Sanshain.Document

/-- One event for the outbox, with the hooks it goes to already decided. -/
structure NewWebhookEvent where
  id : String
  eventType : WebhookEventType
  producer : Option String
  occurredAt : Instant
  data : Value
  hookIds : List Nat

/-- One write of a version-line entry with its endpoints and its events. -/
structure UpsertSpecVersion where
  serviceId : Nat
  apiType : ApiType
  version : SemVer
  stability : Stability
  content : String
  contentHash : String
  providedBy : String
  expectedPriorHash : Option String
  nowIso : Instant
  endpoints : List EndpointRecord
  outbox : List NewWebhookEvent

structure RecordDependencyParams where
  clientId : Nat
  specVersionId : Nat
  apiType : ApiType
  path : String
  normalizedPath : String
  method : String
  deriving DecidableEq, Repr

structure RecordPinParams where
  clientId : Nat
  serviceId : Nat
  apiType : ApiType
  version : SemVer
  path : String
  normalizedPath : String
  method : String
  nowIso : Instant
  deriving DecidableEq, Repr

/-- A pin of a graph under the names of its participants. -/
structure PinInfo where
  client : String
  service : String
  apiType : ApiType
  version : SemVer
  path : String
  normalizedPath : String
  method : String
  validFrom : Instant
  lastRequiredAt : Instant
  deriving DecidableEq, Repr

structure ConsumerEndpointInfo where
  apiType : ApiType
  service : String
  version : SemVer
  path : String
  method : String
  deriving DecidableEq, Repr

structure Group where
  id : Nat
  name : String
  fromDirectory : Bool
  deriving DecidableEq, Repr

/-- The operations of the store that the use cases call. -/
inductive RepoCall where
  | findBranch (name : String)
  | listBranches
  | insertBranch (name : String) (createdAt : Instant) (createdBy source : String) (asOf : Instant)
      (outbox : List NewWebhookEvent)
  | renameBranch (branchId : Nat) (newName : String)
  | deleteBranch (branchId : Nat)
  | copyTrunkPinsToBranch (branchId : Nat) (asOf nowIso : Instant)
  | copyTrunkPeripheryToBranch (branchId : Nat) (asOf nowIso : Instant)
  | copyBranchPinsToBranch (targetId sourceId : Nat) (asOf nowIso : Instant)
  | copyBranchPeripheryToBranch (targetId sourceId : Nat) (asOf nowIso : Instant)
  | listGraphChangeDates (branchId : Option Nat)
  | findService (name : String)
  | ensureService (name : String)
  | getServiceNameById (serviceId : Nat)
  | addServiceTags (serviceId : Nat) (tags : List String)
  | removeServiceTag (serviceId : Nat) (tag : String)
  | listProducers
  | listConsumers
  | listSpecVersions (serviceId : Nat)
  | listAllSpecVersions
  | findSpecVersion (serviceId : Nat) (apiType : ApiType) (version : SemVer)
  | getSpecContent (specVersionId : Nat)
  | getEndpointsForVersion (specVersionId : Nat)
  | findEndpoint (specVersionId : Nat) (apiType : ApiType) (path method : String)
  | findEndpointsBulk (specVersionId : Nat) (apiType : ApiType) (endpoints : List (String × String))
  | upsertSpecVersion (params : UpsertSpecVersion)
  | touchSpecVersionProvided (specVersionId : Nat) (nowIso : Instant)
  | touchSpecVersionRequired (specVersionId : Nat) (nowIso : Instant)
  | touchSpecVersionTrunk (specVersionId : Nat) (nowIso : Instant)
  | deleteSpecVersion (specVersionId : Nat)
  | listVersionDependents (specVersionId : Nat)
  | deleteExpiredSnapshots (cutoff : Instant)
  | closeExpiredTrunkData (cutoff nowIso : Instant)
  | getVersionOrigin (specVersionId : Nat)
  | setVersionOrigin (specVersionId : Nat) (origin : VersionOrigin) (nowIso : Instant)
  | recordBranchMemberVersion (branchId serviceId : Nat) (apiType : ApiType) (version : SemVer)
      (nowIso : Instant)
  | listMemberVersions (track : MemberTrack) (instant : Option Instant)
  | listBranchMembershipsForService (serviceId : Nat)
  | listBranchesReferencing (serviceId : Nat) (apiType : ApiType) (version : SemVer)
  | ensureClient (name : String)
  | recordDependenciesBulk (params : List RecordDependencyParams) (outbox : List NewWebhookEvent)
  | recordTrunkPins (pins : List RecordPinParams)
  | recordBranchPins (branchId : Nat) (pins : List RecordPinParams)
  | listCurrentTrunkPins
  | listTrunkPinsAt (instant : Instant)
  | listBranchPins (branchId : Nat) (instant : Option Instant)
  | listConsumerEndpoints (name : String)
  | listCurrentConsumersOf (serviceId : Nat)
  | closeTrunkPinsForServiceApi (serviceId : Nat) (apiType : ApiType) (nowIso : Instant)
  | getChannelMessageContract (channel messageName : String)
  | listChannelMessageContracts
  | upsertChannelMessageContract (contract : ChannelMessageContract)
  | deleteChannelMessageContract (channel messageName : String)
  | reconcileHarvestedSubscriptions (clientId : Nat) (clientName : String) (trunk : Bool)
      (subs : List HarvestedSubInput) (nowIso : Instant)
  | listCurrentHarvestedSubscriptions
  | reconcilePeriphery (system : String) (trunk : Bool) (resources : List String) (nowIso : Instant)
      (outbox : List NewWebhookEvent)
  | listPeriphery (track : PeripheryTrack) (instant : Option Instant)
  | upsertSystemContext (system : String) (context : SystemContext) (nowIso : Instant)
  | listSystemContexts
  | deleteSystemContext (system : String)
  | insertAuditLog (username : String) (log : NewAuditLog)
  | listWebhooks
  | insertWebhookEvents (events : List NewWebhookEvent)
  | getSetting (key : String)
  | deleteProducer (name : String)
  | deleteConsumer (name : String)
  | deleteAllServices
  | deleteAllClients
  | nukeDatabase
  | maintainsProducer (userId serviceId : Nat)
  | listGroups
  | listGroupMaintainerIds (serviceId : Nat)

/-- What an operation answers when it succeeds. -/
abbrev RepoCall.Result : RepoCall → Type
  | .findBranch _ => Option BranchInfo
  | .listBranches => List BranchInfo
  | .insertBranch _ _ _ _ _ _ => Nat
  | .renameBranch _ _ => Unit
  | .deleteBranch _ => Unit
  | .copyTrunkPinsToBranch _ _ _ => Unit
  | .copyTrunkPeripheryToBranch _ _ _ => Unit
  | .copyBranchPinsToBranch _ _ _ _ => Unit
  | .copyBranchPeripheryToBranch _ _ _ _ => Unit
  | .listGraphChangeDates _ => List Instant
  | .findService _ => Option Nat
  | .ensureService _ => Nat
  | .getServiceNameById _ => Option String
  | .addServiceTags _ _ => Unit
  | .removeServiceTag _ _ => Unit
  | .listProducers => List String
  | .listConsumers => List String
  | .listSpecVersions _ => List SpecVersionMeta
  | .listAllSpecVersions => List (String × SpecVersionMeta × Nat)
  | .findSpecVersion _ _ _ => Option SpecVersionMeta
  | .getSpecContent _ => Option String
  | .getEndpointsForVersion _ => List EndpointRecord
  | .findEndpoint _ _ _ _ => Option (String × Bool)
  | .findEndpointsBulk _ _ _ => Entries (String × String) (String × Bool)
  | .upsertSpecVersion _ => Nat
  | .touchSpecVersionProvided _ _ => Unit
  | .touchSpecVersionRequired _ _ => Unit
  | .touchSpecVersionTrunk _ _ => Unit
  | .deleteSpecVersion _ => Bool
  | .listVersionDependents _ => List String
  | .deleteExpiredSnapshots _ => Nat
  | .closeExpiredTrunkData _ _ => Nat
  | .getVersionOrigin _ => Option VersionOrigin
  | .setVersionOrigin _ _ _ => Unit
  | .recordBranchMemberVersion _ _ _ _ _ => Unit
  | .listMemberVersions _ _ => List MemberVersion
  | .listBranchMembershipsForService _ => List String
  | .listBranchesReferencing _ _ _ => List String
  | .ensureClient _ => Nat
  | .recordDependenciesBulk _ _ => Unit
  | .recordTrunkPins _ => Unit
  | .recordBranchPins _ _ => Unit
  | .listCurrentTrunkPins => List PinInfo
  | .listTrunkPinsAt _ => List PinInfo
  | .listBranchPins _ _ => List PinInfo
  | .listConsumerEndpoints _ => List ConsumerEndpointInfo
  | .listCurrentConsumersOf _ => List String
  | .closeTrunkPinsForServiceApi _ _ _ => Nat
  | .getChannelMessageContract _ _ => Option ChannelMessageContract
  | .listChannelMessageContracts => List ChannelMessageContract
  | .upsertChannelMessageContract _ => Unit
  | .deleteChannelMessageContract _ _ => Unit
  | .reconcileHarvestedSubscriptions _ _ _ _ _ => Unit
  | .listCurrentHarvestedSubscriptions => List HarvestedSubscription
  | .reconcilePeriphery _ _ _ _ _ => Bool
  | .listPeriphery _ _ => List PeripheralDependency
  | .upsertSystemContext _ _ _ => Bool
  | .listSystemContexts => Entries String SystemContext
  | .deleteSystemContext _ => Unit
  | .insertAuditLog _ _ => Unit
  | .listWebhooks => List Webhook
  | .insertWebhookEvents _ => Unit
  | .getSetting _ => Option String
  | .deleteProducer _ => Bool
  | .deleteConsumer _ => Bool
  | .deleteAllServices => Nat
  | .deleteAllClients => Nat
  | .nukeDatabase => Unit
  | .maintainsProducer _ _ => Bool
  | .listGroups => List Group
  | .listGroupMaintainerIds _ => List Nat

/-- A use case reads the clock, draws identifiers and calls the store. -/
inductive Call where
  | nowIso
  | newUuid
  | repo (request : RepoCall)

/-- The store may fail any call; the clock and the generator answer. -/
abbrev Call.Answer : Call → Type
  | .nowIso => Instant
  | .newUuid => String
  | .repo request => Except RepositoryError request.Result

/-- The operations that change nothing. -/
def RepoCall.readsOnly : RepoCall → Bool
  | .findBranch _ | .listBranches | .findService _ | .getServiceNameById _ | .listSpecVersions _
  | .findSpecVersion _ _ _ | .getSpecContent _ | .getEndpointsForVersion _ | .findEndpoint _ _ _ _
  | .findEndpointsBulk _ _ _ | .getVersionOrigin _ | .listBranchMembershipsForService _
  | .listCurrentTrunkPins | .listTrunkPinsAt _ | .listBranchPins _ _ | .listConsumerEndpoints _
  | .listBranchesReferencing _ _ _ | .listGraphChangeDates _ | .listProducers | .listConsumers | .listAllSpecVersions
  | .listVersionDependents _ | .listMemberVersions _ _ | .listCurrentHarvestedSubscriptions
  | .listPeriphery _ _ | .listSystemContexts
  | .listCurrentConsumersOf _ | .getChannelMessageContract _ _ | .listChannelMessageContracts
  | .listWebhooks | .getSetting _ | .maintainsProducer _ _ | .listGroups
  | .listGroupMaintainerIds _ => true
  | _ => false

/-- The one operation that writes the entry of a line with its document. -/
def RepoCall.writesVersion : RepoCall → Bool
  | .upsertSpecVersion _ => true
  | _ => false

/-- The operations that remove what was registered, or make and name branches. -/
def RepoCall.administers : RepoCall → Bool
  | .deleteProducer _ | .deleteConsumer _ | .deleteSpecVersion _ | .deleteAllServices
  | .deleteAllClients | .nukeDatabase | .insertBranch _ _ _ _ _ _ | .renameBranch _ _
  | .deleteBranch _ | .copyTrunkPinsToBranch _ _ _ | .copyTrunkPeripheryToBranch _ _ _
  | .copyBranchPinsToBranch _ _ _ _ | .copyBranchPeripheryToBranch _ _ _ _ => true
  | _ => false

/-- The branch that a cut fills, or takes away again. -/
def RepoCall.target? : RepoCall → Option Nat
  | .copyTrunkPinsToBranch branchId _ _ | .copyTrunkPeripheryToBranch branchId _ _
  | .copyBranchPinsToBranch branchId _ _ _ | .copyBranchPeripheryToBranch branchId _ _ _
  | .deleteBranch branchId => some branchId
  | _ => none

/-- The operations that remove participants wholesale. -/
def RepoCall.sweeps : RepoCall → Bool
  | .deleteAllServices | .deleteAllClients | .nukeDatabase => true
  | _ => false

/-- The operations that only a Provide issues. -/
def RepoCall.provides : RepoCall → Bool
  | .upsertSpecVersion _ | .upsertChannelMessageContract _ => true
  | _ => false

theorem RepoCall.readsOnly_of_provides {request : RepoCall} (provides : request.provides = true) :
    request.readsOnly = false := by
  cases request <;> first | rfl | cases provides

theorem RepoCall.plain_of_readsOnly {request : RepoCall} (reads : request.readsOnly = true) :
    request.administers = false := by
  cases request <;> first | rfl | cases reads

def Call.readsOnly : Call → Bool
  | .repo request => request.readsOnly
  | _ => true

end Sanshain.Domain
