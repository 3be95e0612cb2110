import Sanshain.Data.Filling
import Sanshain.Document.OpenApi
import Sanshain.Infrastructure.Graph

namespace Sanshain.Infrastructure

open Sanshain.Data Sanshain.Domain Sanshain.History

namespace Store

section Reads

/-- The order in which a version line is listed. -/
def lineLe (first second : SpecVersionMeta) : Prop :=
  first.apiType.rank < second.apiType.rank ∨
    first.apiType.rank = second.apiType.rank ∧ first.version ≤ second.version

instance (first second : SpecVersionMeta) : Decidable (lineLe first second) :=
  inferInstanceAs (Decidable (_ ∨ _))

def listSpecVersions (store : Store) (serviceId : Nat) : List SpecVersionMeta :=
  ((store.specVersions.filter (·.entry.serviceId = serviceId)).map (·.entry)).insertionSort lineLe

def endpointsOf (store : Store) (specVersionId : Nat) : List EndpointRecord :=
  ((store.specVersionById? specVersionId).map (·.endpoints)).getD []

def findEndpoint (store : Store) (specVersionId : Nat) (apiType : ApiType) (path method : String) :
    Option (String × Bool) :=
  ((store.endpointsOf specVersionId).find? fun endpoint =>
    endpoint.apiType = apiType ∧ endpoint.normalizedPath = Document.OpenApiDocument.lookupPath apiType path ∧
      endpoint.method = method).map fun endpoint => (endpoint.yamlContent, endpoint.deprecated)

/-- The wanted endpoints that exist, under the spelling that was asked for. -/
def findEndpointsBulk (store : Store) (specVersionId : Nat) (apiType : ApiType)
    (endpoints : List (String × String)) : Entries (String × String) (String × Bool) :=
  endpoints.filterMap fun wanted =>
    (store.findEndpoint specVersionId apiType wanted.1 wanted.2).map fun found => (wanted, found)

def contract? (store : Store) (channel messageName : String) : Option ChannelMessageContract :=
  store.contracts.find? fun contract =>
    contract.channel = channel ∧ contract.messageName = messageName

def contractLe (first second : ChannelMessageContract) : Prop :=
  first.channel < second.channel ∨
    first.channel = second.channel ∧ first.messageName ≤ second.messageName

instance (first second : ChannelMessageContract) : Decidable (contractLe first second) :=
  inferInstanceAs (Decidable (_ ∨ _))

def listContracts (store : Store) : List ChannelMessageContract :=
  store.contracts.insertionSort contractLe

def listAllSpecVersions (store : Store) : List (String × SpecVersionMeta × Nat) :=
  (store.specVersions.filterMap fun row =>
    (store.serviceName? row.entry.serviceId).map fun service =>
      (service, row.entry, row.endpoints.length)).insertionSort fun first second =>
        first.1 < second.1 ∨ first.1 = second.1 ∧ lineLe first.2.1 second.2.1

def listProducers (store : Store) : List String :=
  (store.services.map (·.name)).insertionSort (· ≤ ·)

/-- A Consumer is a client with at least one dependency. -/
def listConsumers (store : Store) : List String :=
  ((store.clients.filter fun client =>
    store.dependencies.any fun row => row.params.clientId = client.1).map Prod.snd).insertionSort (· ≤ ·)

def versionDependents (store : Store) (specVersionId : Nat) : List String :=
  Document.OpenApiDocument.sortedSet ((store.dependencies.filter
    (·.params.specVersionId = specVersionId)).filterMap fun row => store.clientName? row.params.clientId)

def listCurrentHarvested (store : Store) : List HarvestedSubscription :=
  ((store.harvested.filter (·.validTo = none)).map fun row =>
    HarvestedSubscription.mk row.clientName row.channel row.messageName row.ownerName
      row.trunk).insertionSort fun first second =>
        first.client < second.client ∨ first.client = second.client ∧
          (first.channel < second.channel ∨
            first.channel = second.channel ∧ first.messageName ≤ second.messageName)

def consumerEndpoints (store : Store) (name : String) : List ConsumerEndpointInfo :=
  store.dependencies.filterMap fun row =>
    if store.clientName? row.params.clientId = some name then
      (store.specVersionById? row.params.specVersionId).bind fun version =>
        (store.serviceName? version.entry.serviceId).map fun service =>
          ⟨row.params.apiType, service, version.entry.version, row.params.path, row.params.method⟩
    else none

/-- The Consumers with a current edge on the Producer, in the dev or the trunk graph. -/
def currentConsumersOf (store : Store) (serviceId : Nat) : List String :=
  let dev := store.dependencies.filterMap fun row =>
    (store.specVersionById? row.params.specVersionId).bind fun version =>
      if version.entry.serviceId = serviceId then store.clientName? row.params.clientId else none
  let trunk := (store.trunkPins.filter fun row =>
    row.serviceId = serviceId ∧ row.validTo = none).map (·.clientName)
  Document.OpenApiDocument.sortedSet (dev ++ trunk)

end Reads

section Writes

def ensureService (store : Store) (name : String) : Store × Nat :=
  match store.serviceNamed? name with
  | some row => (store, row.id)
  | none =>
      ({ store with
          services := store.services ++ [⟨store.nextServiceId, name⟩]
          nextServiceId := store.nextServiceId + 1 }, store.nextServiceId)

def ensureClient (store : Store) (name : String) : Store × Nat :=
  match store.clientNamed? name with
  | some row => (store, row.1)
  | none =>
      ({ store with
          clients := store.clients ++ [(store.nextClientId, name)]
          nextClientId := store.nextClientId + 1 }, store.nextClientId)

/-- A tag that is already there stays, and a tag needs its service. -/
def addServiceTags (store : Store) (serviceId : Nat) (tags : List String) :
    Except RepositoryError Store :=
  if tags ≠ [] ∧ store.serviceName? serviceId = none then .error (constraintFailed "FOREIGN KEY")
  else .ok { store with
    serviceTags := tags.foldl (fun held tag =>
      if (serviceId, tag) ∈ held then held else held ++ [(serviceId, tag)]) store.serviceTags }

/-- What a write leaves of an entry: its identity and the instants that are not the write's. -/
def overwrite (params : UpsertSpecVersion) (row : SpecVersionRow) : SpecVersionRow :=
  { entry := { row.entry with
      stability := params.stability
      contentHash := params.contentHash
      providedBy := params.providedBy
      updatedAt := params.nowIso }
    content := params.content
    endpoints := params.endpoints }

def newRow (store : Store) (params : UpsertSpecVersion) : SpecVersionRow :=
  { entry :=
      { id := store.nextSpecVersionId
        serviceId := params.serviceId
        apiType := params.apiType
        version := params.version
        stability := params.stability
        contentHash := params.contentHash
        providedBy := params.providedBy
        createdAt := params.nowIso
        updatedAt := params.nowIso
        lastRequiredAt := none
        trunkProvidedAt := none }
    content := params.content
    endpoints := params.endpoints }

/-- The rows the statement's guard lets an update reach. -/
def updatable (params : UpsertSpecVersion) (row : SpecVersionRow) : Bool :=
  row.key = UpsertSpecVersion.key params && row.entry.stability ≠ .ga &&
    (match params.expectedPriorHash with
      | some expected => row.entry.contentHash = expected
      | none => true)

/-- The statement itself: a compare-and-set caller never inserts, and no row written means
the guard refused. -/
def writeVersionRow (store : Store) (params : UpsertSpecVersion) : Except RepositoryError Store :=
  if params.expectedPriorHash = none ∧ (store.specVersion? (UpsertSpecVersion.key params)).isNone then
    if store.serviceName? params.serviceId = none then .error (constraintFailed "FOREIGN KEY")
    else .ok { store with
      specVersions := store.specVersions ++ [store.newRow params]
      nextSpecVersionId := store.nextSpecVersionId + 1 }
  else if store.specVersions.any (updatable params) then
    .ok { store with
      specVersions := store.specVersions.map fun row =>
        if updatable params row then overwrite params row else row }
  else .error .conflict

/-- The entry, its endpoints and its events in one transaction. -/
def upsertSpecVersion (store : Store) (params : UpsertSpecVersion) :
    Except RepositoryError (Store × Nat) :=
  match store.writeVersionRow params with
  | .error error => .error error
  | .ok written =>
      match written.specVersion? (UpsertSpecVersion.key params) with
      | none => .error (.internal "no rows returned by a query that expected to return at least one row")
      | some row =>
          if (params.endpoints.map endpointKey).Nodup then
            (written.writeOutbox params.outbox).map fun after => (after, row.entry.id)
          else .error (constraintFailed "UNIQUE")

def touch (store : Store) (specVersionId : Nat) (change : SpecVersionMeta → SpecVersionMeta) : Store :=
  { store with
    specVersions := store.specVersions.map fun row =>
      if row.entry.id = specVersionId then { row with entry := change row.entry } else row }

/-- The marker of the entry and trunk's member record of its line. -/
def touchTrunk (store : Store) (specVersionId : Nat) (now : Instant) : Store :=
  let marked := store.touch specVersionId fun entry => { entry with trunkProvidedAt := some now }
  match store.specVersionById? specVersionId with
  | none => marked
  | some row =>
      let refreshed := store.trunkMembers.map
        (refreshMember row.entry.serviceId row.entry.apiType row.entry.version now)
      let known := store.trunkMembers.any
        (isOpenMember row.entry.serviceId row.entry.apiType row.entry.version)
      { marked with
        trunkMembers :=
          if known then refreshed
          else match store.serviceName? row.entry.serviceId with
            | none => refreshed
            | some name => refreshed ++
                [⟨row.entry.serviceId, name, row.entry.apiType, row.entry.version, now, now, none⟩] }

/-- Snapshots neither provided nor required since the cutoff go, with what hangs on them. -/
def expired (cutoff : Instant) (row : SpecVersionRow) : Bool :=
  row.entry.stability = .snapshot && decide (row.entry.updatedAt < cutoff) &&
    (match row.entry.lastRequiredAt with
      | none => true
      | some required => decide (required < cutoff))

def deleteExpiredSnapshots (store : Store) (cutoff : Instant) : Store × Nat :=
  let kept := store.specVersions.filter fun row => !expired cutoff row
  let ids := kept.map (·.entry.id)
  ({ store with
      specVersions := kept
      dependencies := store.dependencies.filter (·.params.specVersionId ∈ ids)
      origins := store.origins.filter (·.specVersionId ∈ ids) },
    store.specVersions.length - kept.length)

def setVersionOrigin (store : Store) (specVersionId : Nat) (origin : VersionOrigin) (now : Instant) :
    Store :=
  let others := store.origins.filter (·.specVersionId ≠ specVersionId)
  { store with
    origins := if origin.isEmpty then others else others ++ [⟨specVersionId, origin, now⟩] }

def recordDependency (now : Instant) (rows : List DependencyRow) (params : RecordDependencyParams) :
    List DependencyRow :=
  let same (row : DependencyRow) : Prop :=
    row.params.clientId = params.clientId ∧ row.params.specVersionId = params.specVersionId ∧
      row.params.apiType = params.apiType ∧ row.params.path = params.path ∧
      row.params.method = params.method
  if rows.any fun row => same row then
    rows.map fun row => if same row then { row with lastSeenAt := now } else row
  else rows ++ [⟨params, now⟩]

def recordDependenciesBulk (store : Store) (now : Instant) (params : List RecordDependencyParams)
    (outbox : List NewWebhookEvent) : Except RepositoryError Store :=
  if params.any fun p => (store.clientName? p.clientId).isNone ||
      (store.specVersionById? p.specVersionId).isNone then
    .error (constraintFailed "FOREIGN KEY")
  else
    ({ store with dependencies := params.foldl (recordDependency now) store.dependencies }).writeOutbox
      outbox

def upsertContract (store : Store) (contract : ChannelMessageContract) :
    Except RepositoryError Store :=
  if store.serviceName? contract.ownerServiceId = none then .error (constraintFailed "FOREIGN KEY")
  else if (store.contract? contract.channel contract.messageName).isSome then
    .ok { store with
      contracts := store.contracts.map fun row =>
        if row.channel = contract.channel ∧ row.messageName = contract.messageName then contract
        else row }
  else .ok { store with contracts := store.contracts ++ [contract] }

def deleteContract (store : Store) (channel messageName : String) : Store :=
  { store with
    contracts := store.contracts.filter fun row =>
      ¬ (row.channel = channel ∧ row.messageName = messageName) }

/-- Whether an open row is exactly what the Producer declares. -/
def harvestUnchanged (trunk : Bool) (row : HarvestedRow) (sub : HarvestedSubInput) : Bool :=
  row.channel = sub.channel && row.messageName = sub.messageName &&
    row.ownerServiceId = sub.ownerServiceId && row.trunk = trunk

/-- An open row that is gone or changed closes. -/
def closeUndeclared (clientId : Nat) (trunk : Bool) (subs : List HarvestedSubInput) (now : Instant)
    (row : HarvestedRow) : HarvestedRow :=
  if row.clientId = clientId && row.validTo.isNone && !(subs.any (harvestUnchanged trunk row)) then
    { row with validTo := some now }
  else row

/-- Whether a row is the open one of a client for a subscription. -/
def openFor (clientId : Nat) (row : HarvestedRow) (sub : HarvestedSubInput) : Bool :=
  row.clientId = clientId && row.validTo.isNone && row.channel = sub.channel &&
    row.messageName = sub.messageName

def declaredRow (clientId : Nat) (clientName : String) (trunk : Bool) (now : Instant)
    (sub : HarvestedSubInput) : HarvestedRow :=
  ⟨clientId, clientName, sub.channel, sub.messageName, sub.ownerServiceId, sub.ownerName, trunk, now,
    none⟩

/-- A row needs its client, and the owner it refers to. -/
def harvestedKnown (store : Store) (row : HarvestedRow) : Bool :=
  (store.clientName? row.clientId).isSome &&
    row.ownerServiceId.all fun owner => (store.serviceName? owner).isSome

/-- Rows that are gone or changed close; declared ones without an open row open. -/
def reconcileHarvested (store : Store) (clientId : Nat) (clientName : String) (trunk : Bool)
    (subs : List HarvestedSubInput) (now : Instant) : Except RepositoryError Store :=
  let closed := store.harvested.map (closeUndeclared clientId trunk subs now)
  let rows := fill (openFor clientId) (declaredRow clientId clientName trunk now) closed subs
  if (rows.drop closed.length).all store.harvestedKnown then .ok { store with harvested := rows }
  else .error (constraintFailed "FOREIGN KEY")

/-- A Producer goes with its versions and everything that refers to it; its trunk history
closes and stays. -/
def deleteProducer (store : Store) (now : Instant) (name : String) : Store × Bool :=
  match store.serviceNamed? name with
  | none => (store, false)
  | some service =>
      let kept := store.specVersions.filter (·.entry.serviceId ≠ service.id)
      let gone := (store.specVersions.filter (·.entry.serviceId = service.id)).map (·.entry.id)
      ({ store with
          services := store.services.filter (·.id ≠ service.id)
          serviceTags := store.serviceTags.filter (·.1 ≠ service.id)
          specVersions := kept
          origins := store.origins.filter (·.specVersionId ∉ gone)
          dependencies := store.dependencies.filter (·.params.specVersionId ∉ gone)
          trunkPins := store.trunkPins.map (closePins service.id none now)
          trunkMembers := store.trunkMembers.map (closeMembers service.id none now)
          contracts := store.contracts.filter (·.ownerServiceId ≠ service.id)
          harvested := store.harvested.map fun row =>
            if row.ownerServiceId = some service.id then { row with ownerServiceId := none } else row
          userMaintainers := store.userMaintainers.filter (·.2 ≠ service.id)
          groupMaintainers := store.groupMaintainers.filter (·.2 ≠ service.id) }, true)

/-- A version goes with what hangs on it, and trunk no longer carries it. -/
def deleteSpecVersion (store : Store) (now : Instant) (specVersionId : Nat) : Store × Bool :=
  match store.specVersionById? specVersionId with
  | none =>
      ({ store with origins := store.origins.filter (·.specVersionId ≠ specVersionId) }, false)
  | some gone =>
      ({ store with
          origins := store.origins.filter (·.specVersionId ≠ specVersionId)
          trunkMembers := store.trunkMembers.map (closeMembersIf (fun row =>
            row.serviceId = gone.entry.serviceId && row.apiType = gone.entry.apiType &&
              row.version = gone.entry.version) now)
          specVersions := store.specVersions.filter (·.entry.id ≠ specVersionId)
          dependencies := store.dependencies.filter (·.params.specVersionId ≠ specVersionId) }, true)

/-- A Consumer goes with its dependencies and its subscriptions; its trunk history closes and
stays. -/
def deleteConsumer (store : Store) (now : Instant) (name : String) : Store × Bool :=
  match store.clientNamed? name with
  | none => (store, false)
  | some client =>
      ({ store with
          dependencies := store.dependencies.filter (·.params.clientId ≠ client.1)
          trunkPins := store.trunkPins.map (closePinsIf (fun row => row.clientId = client.1) now)
          clients := store.clients.filter (·.1 ≠ client.1)
          harvested := store.harvested.filter (·.clientId ≠ client.1) }, true)

/-- The services go with everything that refers to them; the trunk tables are not written. -/
def deleteAllServices (store : Store) : Store × Nat :=
  ({ store with
      services := []
      serviceTags := []
      specVersions := []
      origins := []
      dependencies := []
      contracts := []
      harvested := store.harvested.map fun row => { row with ownerServiceId := none }
      userMaintainers := []
      groupMaintainers := [] }, store.services.length)

def deleteAllClients (store : Store) : Store × Nat :=
  ({ store with
      clients := []
      dependencies := []
      harvested := [] }, store.clients.length)

/-- A factory reset: the branches take their graphs along, and the trunk pins are not written. -/
def nukeDatabase (store : Store) : Store :=
  { store with
    services := []
    serviceTags := []
    specVersions := []
    origins := []
    clients := []
    dependencies := []
    trunkMembers := []
    branches := []
    branchPins := []
    branchMembers := []
    contracts := []
    harvested := []
    periphery := []
    systemContexts := []
    webhooks := []
    outbox := []
    deliveries := []
    userMaintainers := []
    groupMaintainers := [] }

end Writes

section Dispatch

/-- A write that cannot fail. -/
def wrote {Result : Type} (outcome : Store × Result) : Store × Except RepositoryError Result :=
  (outcome.1, .ok outcome.2)

/-- A write that leaves the store as it was when it fails. -/
def tried {Result : Type} (store : Store) (outcome : Except RepositoryError (Store × Result)) :
    Store × Except RepositoryError Result :=
  match outcome with
  | .ok (after, result) => (after, .ok result)
  | .error error => (store, .error error)

def triedUnit (store : Store) (outcome : Except RepositoryError Store) :
    Store × Except RepositoryError Unit :=
  store.tried (outcome.map fun after => (after, ()))

/-- One call of the store at an instant. -/
def perform (store : Store) (now : Instant) :
    (request : RepoCall) → Store × Except RepositoryError request.Result
  | .findBranch name => (store, .ok (store.branches.find? (·.name = name)))
  | .listBranches => (store, .ok store.listBranches)
  | .insertBranch name createdAt createdBy source asOf outbox =>
      store.tried (store.insertBranch name createdAt createdBy source asOf outbox)
  | .renameBranch branchId newName => store.triedUnit (store.renameBranch branchId newName)
  | .deleteBranch branchId => (store.deleteBranch branchId, .ok ())
  | .copyTrunkPinsToBranch branchId asOf nowIso =>
      store.triedUnit (store.copyPins branchId (lasting PinRow.span store.trunkPins asOf) nowIso)
  | .copyTrunkPeripheryToBranch branchId asOf nowIso =>
      store.triedUnit (store.copyPeriphery branchId
        (lasting PeripheryRow.span (store.peripheryOf .trunk) asOf) nowIso)
  | .copyBranchPinsToBranch targetId sourceId asOf nowIso =>
      store.triedUnit (store.copyPins targetId
        (lasting PinRow.span (store.branchPinsOf sourceId) asOf) nowIso)
  | .copyBranchPeripheryToBranch targetId sourceId asOf nowIso =>
      store.triedUnit (store.copyPeriphery targetId
        (lasting PeripheryRow.span (store.peripheryOf (.branch sourceId)) asOf) nowIso)
  | .listGraphChangeDates branchId => (store, .ok (store.listGraphChangeDates branchId))
  | .findService name => (store, .ok ((store.serviceNamed? name).map (·.id)))
  | .ensureService name => wrote (store.ensureService name)
  | .getServiceNameById serviceId => (store, .ok (store.serviceName? serviceId))
  | .addServiceTags serviceId tags => store.triedUnit (store.addServiceTags serviceId tags)
  | .removeServiceTag serviceId tag =>
      ({ store with serviceTags := store.serviceTags.filter (· ≠ (serviceId, tag)) }, .ok ())
  | .listProducers => (store, .ok store.listProducers)
  | .listConsumers => (store, .ok store.listConsumers)
  | .listSpecVersions serviceId => (store, .ok (store.listSpecVersions serviceId))
  | .listAllSpecVersions => (store, .ok store.listAllSpecVersions)
  | .findSpecVersion serviceId apiType version =>
      (store, .ok ((store.specVersion? (serviceId, apiType, version)).map (·.entry)))
  | .getSpecContent specVersionId =>
      (store, .ok ((store.specVersionById? specVersionId).map (·.content)))
  | .getEndpointsForVersion specVersionId => (store, .ok (store.endpointsOf specVersionId))
  | .findEndpoint specVersionId apiType path method =>
      (store, .ok (store.findEndpoint specVersionId apiType path method))
  | .findEndpointsBulk specVersionId apiType endpoints =>
      (store, .ok (store.findEndpointsBulk specVersionId apiType endpoints))
  | .upsertSpecVersion params => store.tried (store.upsertSpecVersion params)
  | .touchSpecVersionProvided specVersionId nowIso =>
      (store.touch specVersionId fun entry => { entry with updatedAt := nowIso }, .ok ())
  | .touchSpecVersionRequired specVersionId nowIso =>
      (store.touch specVersionId fun entry => { entry with lastRequiredAt := some nowIso }, .ok ())
  | .touchSpecVersionTrunk specVersionId nowIso => (store.touchTrunk specVersionId nowIso, .ok ())
  | .deleteSpecVersion specVersionId => wrote (store.deleteSpecVersion now specVersionId)
  | .listVersionDependents specVersionId => (store, .ok (store.versionDependents specVersionId))
  | .deleteExpiredSnapshots cutoff => wrote (store.deleteExpiredSnapshots cutoff)
  | .closeExpiredTrunkData cutoff nowIso => wrote (store.closeExpiredTrunkData cutoff nowIso)
  | .getVersionOrigin specVersionId =>
      (store, .ok ((store.origins.find? (·.specVersionId = specVersionId)).map (·.origin)))
  | .setVersionOrigin specVersionId origin nowIso =>
      (store.setVersionOrigin specVersionId origin nowIso, .ok ())
  | .recordBranchMemberVersion branchId serviceId apiType version nowIso =>
      store.triedUnit (store.recordBranchMember branchId serviceId apiType version nowIso)
  | .listMemberVersions track instant => (store, .ok (store.listMemberVersions track instant))
  | .listBranchMembershipsForService serviceId => (store, .ok (store.branchMemberships serviceId))
  | .listBranchesReferencing serviceId apiType version =>
      (store, .ok (store.branchesReferencing serviceId apiType version))
  | .ensureClient name => wrote (store.ensureClient name)
  | .recordDependenciesBulk params outbox =>
      store.triedUnit (store.recordDependenciesBulk now params outbox)
  | .recordTrunkPins pins => store.triedUnit (store.recordTrunkPins pins)
  | .recordBranchPins branchId pins => store.triedUnit (store.recordBranchPins branchId pins)
  | .listCurrentTrunkPins => (store, .ok store.listCurrentTrunkPins)
  | .listTrunkPinsAt instant => (store, .ok (store.listTrunkPinsAt instant))
  | .listBranchPins branchId instant => (store, .ok (store.listBranchPins branchId instant))
  | .listConsumerEndpoints name => (store, .ok (store.consumerEndpoints name))
  | .listCurrentConsumersOf serviceId => (store, .ok (store.currentConsumersOf serviceId))
  | .closeTrunkPinsForServiceApi serviceId apiType nowIso =>
      wrote (store.closeTrunkPins serviceId apiType nowIso)
  | .getChannelMessageContract channel messageName =>
      (store, .ok (store.contract? channel messageName))
  | .listChannelMessageContracts => (store, .ok store.listContracts)
  | .upsertChannelMessageContract contract => store.triedUnit (store.upsertContract contract)
  | .deleteChannelMessageContract channel messageName =>
      (store.deleteContract channel messageName, .ok ())
  | .reconcileHarvestedSubscriptions clientId clientName trunk subs nowIso =>
      store.triedUnit (store.reconcileHarvested clientId clientName trunk subs nowIso)
  | .listCurrentHarvestedSubscriptions => (store, .ok store.listCurrentHarvested)
  | .reconcilePeriphery system trunk resources nowIso outbox =>
      store.tried (store.reconcilePeriphery system trunk resources nowIso outbox)
  | .listPeriphery track instant => (store, .ok (store.listPeriphery track instant))
  | .upsertSystemContext system context _ => wrote (store.upsertSystemContext system context)
  | .listSystemContexts => (store, .ok store.listSystemContexts)
  | .deleteSystemContext system => (store.deleteSystemContext system, .ok ())
  | .insertAuditLog username log =>
      ({ store with auditLogs := store.auditLogs ++ [⟨now, username, log⟩] }, .ok ())
  | .listWebhooks => (store, .ok store.webhooks)
  | .insertWebhookEvents events => store.triedUnit (store.writeOutbox events)
  | .getSetting key => (store, .ok (Entries.get? store.settings key))
  | .deleteProducer name => wrote (store.deleteProducer now name)
  | .deleteConsumer name => wrote (store.deleteConsumer now name)
  | .deleteAllServices => wrote store.deleteAllServices
  | .deleteAllClients => wrote store.deleteAllClients
  | .nukeDatabase => (store.nukeDatabase, .ok ())
  | .maintainsProducer userId serviceId =>
      (store, .ok ((userId, serviceId) ∈ store.userMaintainers || store.groupMaintainers.any fun row =>
        row.2 = serviceId && (row.1, userId) ∈ store.groupMembers))
  | .listGroups => (store, .ok store.groups)
  | .listGroupMaintainerIds serviceId =>
      (store, .ok ((store.groupMaintainers.filter (·.2 = serviceId)).map Prod.fst))

/-- A call that only reads leaves the store as it was. -/
theorem perform_readsOnly (store : Store) (now : Instant) {request : RepoCall}
    (reads : request.readsOnly = true) : (store.perform now request).1 = store := by
  cases request <;> first | rfl | exact absurd reads (by decide) | cases reads

end Dispatch
end Store
end Sanshain.Infrastructure
