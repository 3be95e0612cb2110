import Sanshain.Domain.Ports
import Sanshain.History.Span

namespace Sanshain.Infrastructure

open Sanshain.Data Sanshain.Domain Sanshain.History

structure ServiceRow where
  id : Nat
  name : String
  deriving DecidableEq, Repr

/-- A version-line entry with its document and its endpoint set. -/
structure SpecVersionRow where
  entry : SpecVersionMeta
  content : String
  endpoints : List EndpointRecord
  deriving DecidableEq, Repr

structure OriginRow where
  specVersionId : Nat
  origin : VersionOrigin
  updatedAt : Instant
  deriving DecidableEq, Repr

/-- Which version of a Producer a stream carried, and when. -/
structure MemberRow where
  serviceId : Nat
  serviceName : String
  apiType : ApiType
  version : SemVer
  validFrom : Instant
  lastProvidedAt : Instant
  validTo : Option Instant
  deriving DecidableEq, Repr

structure PinRow where
  clientId : Nat
  clientName : String
  serviceId : Nat
  serviceName : String
  apiType : ApiType
  path : String
  normalizedPath : String
  method : String
  version : SemVer
  validFrom : Instant
  lastRequiredAt : Instant
  validTo : Option Instant
  deriving DecidableEq, Repr

/-- Which resource a system depended on in a graph, and when. -/
structure PeripheryRow where
  track : PeripheryTrack
  system : String
  resource : String
  validFrom : Instant
  validTo : Option Instant
  deriving DecidableEq, Repr

structure DependencyRow where
  params : RecordDependencyParams
  lastSeenAt : Instant
  deriving DecidableEq, Repr

structure HarvestedRow where
  clientId : Nat
  clientName : String
  channel : String
  messageName : String
  ownerServiceId : Option Nat
  ownerName : Option String
  trunk : Bool
  validFrom : Instant
  validTo : Option Instant
  deriving DecidableEq, Repr

structure DeliveryRow where
  hookId : Nat
  eventId : String
  nextAttemptAt : Instant
  deriving DecidableEq, Repr

structure AuditRow where
  timestamp : Instant
  username : String
  log : NewAuditLog
  deriving DecidableEq, Repr

/-- The tables of the store that the modelled operations read or write. -/
structure Store where
  services : List ServiceRow := []
  nextServiceId : Nat := 1
  serviceTags : List (Nat × String) := []
  specVersions : List SpecVersionRow := []
  nextSpecVersionId : Nat := 1
  origins : List OriginRow := []
  clients : List (Nat × String) := []
  nextClientId : Nat := 1
  dependencies : List DependencyRow := []
  trunkPins : List PinRow := []
  branchPins : List (Nat × PinRow) := []
  trunkMembers : List MemberRow := []
  branches : List BranchInfo := []
  nextBranchId : Nat := 1
  branchMembers : List (Nat × MemberRow) := []
  contracts : List ChannelMessageContract := []
  harvested : List HarvestedRow := []
  periphery : List PeripheryRow := []
  systemContexts : Entries String SystemContext := []
  webhooks : List Webhook := []
  outbox : List NewWebhookEvent := []
  deliveries : List DeliveryRow := []
  auditLogs : List AuditRow := []
  settings : List (String × String) := []
  groups : List Group := []
  groupMembers : List (Nat × Nat) := []
  userMaintainers : List (Nat × Nat) := []
  groupMaintainers : List (Nat × Nat) := []

/-- A statement that a constraint refuses rolls its transaction back. -/
def constraintFailed (constraint : String) : RepositoryError :=
  .internal ("error returned from database: " ++ constraint ++ " constraint failed")

def MemberRow.span (row : MemberRow) : Span Instant := ⟨row.validFrom, row.validTo⟩

def PinRow.span (row : PinRow) : Span Instant := ⟨row.validFrom, row.validTo⟩

def PeripheryRow.span (row : PeripheryRow) : Span Instant := ⟨row.validFrom, row.validTo⟩

/-- What an open pin is matched on. -/
def PinRow.key (row : PinRow) : Nat × Nat × ApiType × String × String :=
  (row.clientId, row.serviceId, row.apiType, row.normalizedPath, row.method)

/-- The key of a version line's entry. -/
def SpecVersionRow.key (row : SpecVersionRow) : Nat × ApiType × SemVer :=
  (row.entry.serviceId, row.entry.apiType, row.entry.version)

def UpsertSpecVersion.key (params : UpsertSpecVersion) : Nat × ApiType × SemVer :=
  (params.serviceId, params.apiType, params.version)

/-- The key under which an endpoint is stored for its version. -/
def endpointKey (endpoint : EndpointRecord) : ApiType × String × String :=
  (endpoint.apiType, endpoint.path, endpoint.method)

namespace Store

def serviceNamed? (store : Store) (name : String) : Option ServiceRow :=
  store.services.find? (·.name = name)

def serviceName? (store : Store) (serviceId : Nat) : Option String :=
  (store.services.find? (·.id = serviceId)).map (·.name)

def clientNamed? (store : Store) (name : String) : Option (Nat × String) :=
  store.clients.find? (·.2 = name)

def clientName? (store : Store) (clientId : Nat) : Option String :=
  (store.clients.find? (·.1 = clientId)).map Prod.snd

def specVersionById? (store : Store) (specVersionId : Nat) : Option SpecVersionRow :=
  store.specVersions.find? (·.entry.id = specVersionId)

def specVersion? (store : Store) (key : Nat × ApiType × SemVer) : Option SpecVersionRow :=
  store.specVersions.find? (·.key = key)

def hasBranch (store : Store) (branchId : Nat) : Prop := branchId ∈ store.branches.map (·.id)

instance (store : Store) (branchId : Nat) : Decidable (store.hasBranch branchId) :=
  inferInstanceAs (Decidable (_ ∈ _))

/-- The events and their deliveries; an identifier is used once and a delivery needs its hook. -/
def writeOutbox (store : Store) : List NewWebhookEvent → Except RepositoryError Store
  | [] => .ok store
  | event :: rest =>
      if event.id ∈ store.outbox.map (·.id) then .error (constraintFailed "UNIQUE")
      else if event.hookIds.any fun hook => hook ∉ store.webhooks.map (·.id) then
        .error (constraintFailed "FOREIGN KEY")
      else writeOutbox { store with
        outbox := store.outbox ++ [event]
        deliveries := store.deliveries ++ event.hookIds.map fun hook =>
          ⟨hook, event.id, event.occurredAt⟩ } rest

end Store
end Sanshain.Infrastructure
