import Sanshain.Effects.ReadThrough
import Sanshain.Infrastructure.Frame
import Sanshain.Infrastructure.SpecTexts
import Sanshain.Infrastructure.World

namespace Sanshain.Infrastructure

open Sanshain.Data Sanshain.Domain Sanshain.Document Sanshain.Effects

/-- A key of one of the caches; a whole list is kept under one fixed text. -/
inductive CacheKey where
  | endpoint (specVersionId : Nat) (apiType : ApiType) (normalizedPath method : String)
  | versionEndpoints (specVersionId : Nat)
  | specContent (specVersionId : Nat)
  | serviceId (name : String)
  | specVersion (serviceId : Nat) (apiType : ApiType) (version : String)
  | servicesList (sentinel : String)
  | clientsList (sentinel : String)
  | setting (key : String)
  | groupsList
  deriving DecidableEq, Repr

namespace CacheKey

abbrev Value : CacheKey → Type
  | .endpoint _ _ _ _ => String × Bool
  | .versionEndpoints _ => List EndpointRecord
  | .specContent _ => String
  | .serviceId _ => Nat
  | .specVersion _ _ _ => SpecVersionMeta
  | .servicesList _ => List String
  | .clientsList _ => List String
  | .setting _ => Option String
  | .groupsList => List Group

/-- The keys of everything derived from stored versions. -/
def ofSpecs : CacheKey → Bool
  | .endpoint _ _ _ _ | .versionEndpoints _ | .specContent _ | .specVersion _ _ _ => true
  | _ => false

def isSpecVersion : CacheKey → Bool
  | .specVersion _ _ _ => true
  | _ => false

def isServicesList : CacheKey → Bool
  | .servicesList _ => true
  | _ => false

def isClientsList : CacheKey → Bool
  | .clientsList _ => true
  | _ => false

/-- An endpoint is kept under its normalized path, whatever its API type. -/
abbrev wanted (specVersionId : Nat) (apiType : ApiType) (endpoint : String × String) : CacheKey :=
  .endpoint specVersionId apiType (OpenApiDocument.normalizePath endpoint.1) endpoint.2

end CacheKey

def sentinel : String := "_all_"

/-- A setting is written over the one of its key. -/
def Database.setSetting (database : Database) (key value : String) : Database where
  store := database.store.setSetting key value
  sound := database.sound.setSetting key value
  linked := database.linked.setSetting key value

/-- The text of one version and of its endpoints is put in another form. -/
def Database.rewriteSpecText (database : Database) (params : RewriteSpecText) : Database where
  store := database.store.rewriteSpecText params
  sound := database.sound.rewriteSpecText params
  linked := database.linked.rewriteSpecText params

/-- The repository with its caches, in front of the database; a limit of 0 turns them off. -/
structure CachedSpecRepository where
  inner : Database
  memoryLimitMb : Nat
  kept : Kept CacheKey CacheKey.Value := .empty

namespace CachedSpecRepository

def new (inner : Database) (memoryLimitMb : Nat) : CachedSpecRepository :=
  { inner := inner, memoryLimitMb := memoryLimitMb }

def isDisabled (repo : CachedSpecRepository) : Bool := repo.memoryLimitMb == 0

/-- A call behind the caches: a fault fails it and changes nothing. -/
def behind (repo : CachedSpecRepository) (fault : Option RepositoryError) (now : Instant)
    (request : RepoCall) : Database × Except RepositoryError request.Result :=
  match fault with
  | some error => (repo.inner, .error error)
  | none => repo.inner.perform now request

section Reads

variable (repo : CachedSpecRepository) (fault : Option RepositoryError) (now : Instant)

def through (key : CacheKey) (found : Except RepositoryError (Option key.Value)) :
    CachedSpecRepository × Except RepositoryError (Option key.Value) :=
  let outcome := Kept.readThrough (!repo.isDisabled) repo.kept key found
  ({ repo with kept := outcome.1 }, outcome.2)

def findSpecVersion (serviceId : Nat) (apiType : ApiType) (version : SemVer) :
    CachedSpecRepository × Except RepositoryError (Option SpecVersionMeta) :=
  repo.through (.specVersion serviceId apiType version.display)
    (repo.behind fault now (.findSpecVersion serviceId apiType version)).2

def getSpecContent (specVersionId : Nat) :
    CachedSpecRepository × Except RepositoryError (Option String) :=
  repo.through (.specContent specVersionId)
    (repo.behind fault now (.getSpecContent specVersionId)).2

def findService (name : String) : CachedSpecRepository × Except RepositoryError (Option Nat) :=
  repo.through (.serviceId name) (repo.behind fault now (.findService name)).2

def findEndpoint (specVersionId : Nat) (apiType : ApiType) (path method : String) :
    CachedSpecRepository × Except RepositoryError (Option (String × Bool)) :=
  repo.through (.wanted specVersionId apiType (path, method))
    (repo.behind fault now (.findEndpoint specVersionId apiType path method)).2

/-- What is always found behind the caches. -/
def whole {Value : Type} (absent : Value)
    (outcome : CachedSpecRepository × Except RepositoryError (Option Value)) :
    CachedSpecRepository × Except RepositoryError Value :=
  (outcome.1, outcome.2.map fun found => found.getD absent)

def getEndpointsForVersion (specVersionId : Nat) :
    CachedSpecRepository × Except RepositoryError (List EndpointRecord) :=
  whole [] (repo.through (.versionEndpoints specVersionId)
    ((repo.behind fault now (.getEndpointsForVersion specVersionId)).2.map some))

def listProducers : CachedSpecRepository × Except RepositoryError (List String) :=
  whole [] (repo.through (.servicesList sentinel) ((repo.behind fault now .listProducers).2.map some))

def listConsumers : CachedSpecRepository × Except RepositoryError (List String) :=
  whole [] (repo.through (.clientsList sentinel) ((repo.behind fault now .listConsumers).2.map some))

def listGroups : CachedSpecRepository × Except RepositoryError (List Group) :=
  whole [] (repo.through .groupsList ((repo.behind fault now .listGroups).2.map some))

/-- A setting that is absent is kept as absent. -/
def getSetting (key : String) : CachedSpecRepository × Except RepositoryError (Option String) :=
  whole none (repo.through (.setting key) ((repo.behind fault now (.getSetting key)).2.map some))

/-- The endpoints that are kept answer at once; those that are missing are asked for together, and
then kept. -/
def findEndpointsBulk (specVersionId : Nat) (apiType : ApiType) (endpoints : List (String × String)) :
    CachedSpecRepository ×
      Except RepositoryError (Entries (String × String) (String × Bool)) :=
  if repo.isDisabled then
    (repo, (repo.behind fault now (.findEndpointsBulk specVersionId apiType endpoints)).2)
  else
    let hits := endpoints.filterMap fun endpoint =>
      (repo.kept (.wanted specVersionId apiType endpoint)).map fun value => (endpoint, value)
    let misses := endpoints.filter fun endpoint =>
      (repo.kept (.wanted specVersionId apiType endpoint)).isNone
    if misses = [] then (repo, .ok hits)
    else match (repo.behind fault now (.findEndpointsBulk specVersionId apiType misses)).2 with
      | .error error => (repo, .error error)
      | .ok found =>
          ({ repo with kept := found.foldl (fun kept entry =>
              kept.put (.wanted specVersionId apiType entry.1) entry.2) repo.kept },
            .ok (hits ++ found))

end Reads

section Writes

variable (repo : CachedSpecRepository) (fault : Option RepositoryError) (now : Instant)

/-- The keys that a write which answered clears. -/
def invalidates : (request : RepoCall) → request.Result → CacheKey → Bool
  | .touchSpecVersionProvided _ _, _ | .touchSpecVersionRequired _ _, _
  | .touchSpecVersionTrunk _ _, _ | .closeExpiredTrunkData _ _, _ => CacheKey.isSpecVersion
  | .deleteSpecVersion _, existed => fun key => existed && key.ofSpecs
  | .deleteExpiredSnapshots _, deleted => fun key => decide (0 < deleted) && key.ofSpecs
  | .ensureClient _, _ | .deleteConsumer _, _ | .deleteAllClients, _ => CacheKey.isClientsList
  | .deleteProducer name, _ => fun key =>
      key = .serviceId name || key.ofSpecs || key.isServicesList
  | .deleteAllServices, _ | .nukeDatabase, _ => fun _ => true
  | _, _ => fun _ => false

/-- A write goes to the database first; one that fails clears nothing. -/
def write (request : RepoCall) : CachedSpecRepository × Except RepositoryError request.Result :=
  let outcome := repo.behind fault now request
  ({ repo with
      inner := outcome.1
      kept := match outcome.2 with
        | .ok result =>
            if repo.isDisabled then repo.kept else repo.kept.clear (invalidates request result)
        | .error _ => repo.kept }, outcome.2)

/-- A refused write clears too: another writer may have moved the row past what is kept. -/
def upsertSpecVersion (params : UpsertSpecVersion) :
    CachedSpecRepository × Except RepositoryError Nat :=
  let outcome := repo.behind fault now (.upsertSpecVersion params)
  ({ repo with
      inner := outcome.1
      kept := if repo.isDisabled then repo.kept else repo.kept.clear CacheKey.ofSpecs }, outcome.2)

/-- The identifier of a service is kept at once. -/
def ensureService (name : String) : CachedSpecRepository × Except RepositoryError Nat :=
  let outcome := repo.behind fault now (.ensureService name)
  ({ repo with
      inner := outcome.1
      kept := match outcome.2 with
        | .ok id =>
            if repo.isDisabled then repo.kept
            else (repo.kept.put (.serviceId name) id).clear CacheKey.isServicesList
        | .error _ => repo.kept }, outcome.2)

/-- The key of a setting is cleared also while the caches are off. -/
def setSetting (key value : String) : CachedSpecRepository × Except RepositoryError Unit :=
  match fault with
  | some error => (repo, .error error)
  | none =>
      ({ repo with
          inner := repo.inner.setSetting key value
          kept := repo.kept.clear fun other => other = .setting key }, .ok ())

/-- A rewritten text clears also where it was refused. -/
def rewriteSpecText (params : RewriteSpecText) : CachedSpecRepository × Except RepositoryError Unit :=
  let outcome : Database × Except RepositoryError Unit := match fault with
    | some error => (repo.inner, .error error)
    | none => (repo.inner.rewriteSpecText params, .ok ())
  ({ repo with
      inner := outcome.1
      kept := if repo.isDisabled then repo.kept else repo.kept.clear CacheKey.ofSpecs }, outcome.2)

def rebuildCaches (newLimitMb : Nat) : CachedSpecRepository :=
  { repo with
    memoryLimitMb := newLimitMb
    kept := repo.kept.clear fun _ => true }

end Writes

/-- One call of the repository. -/
def perform (repo : CachedSpecRepository) (fault : Option RepositoryError) (now : Instant) :
    (request : RepoCall) → CachedSpecRepository × Except RepositoryError request.Result
  | .findSpecVersion serviceId apiType version =>
      repo.findSpecVersion fault now serviceId apiType version
  | .getSpecContent specVersionId => repo.getSpecContent fault now specVersionId
  | .findService name => repo.findService fault now name
  | .findEndpoint specVersionId apiType path method =>
      repo.findEndpoint fault now specVersionId apiType path method
  | .findEndpointsBulk specVersionId apiType endpoints =>
      repo.findEndpointsBulk fault now specVersionId apiType endpoints
  | .getEndpointsForVersion specVersionId => repo.getEndpointsForVersion fault now specVersionId
  | .listProducers => repo.listProducers fault now
  | .listConsumers => repo.listConsumers fault now
  | .listGroups => repo.listGroups fault now
  | .getSetting key => repo.getSetting fault now key
  | .upsertSpecVersion params => repo.upsertSpecVersion fault now params
  | .ensureService name => repo.ensureService fault now name
  | request => repo.write fault now request

/-- What can happen to the repository: a call, a written setting, a rewritten text, a new limit, or an
entry that is evicted or has expired. -/
inductive Step where
  | call (fault : Option RepositoryError) (now : Instant) (request : RepoCall)
  | setSetting (fault : Option RepositoryError) (key value : String)
  | rewriteSpecText (fault : Option RepositoryError) (params : RewriteSpecText)
  | rebuildCaches (newLimitMb : Nat)
  | lose (key : CacheKey)

def step (repo : CachedSpecRepository) : Step → CachedSpecRepository
  | .call fault now request => (repo.perform fault now request).1
  | .setSetting fault key value => (repo.setSetting fault key value).1
  | .rewriteSpecText fault params => (repo.rewriteSpecText fault params).1
  | .rebuildCaches newLimitMb => repo.rebuildCaches newLimitMb
  | .lose key => { repo with kept := repo.kept.clear fun other => other = key }

end CachedSpecRepository

/-- The repository with its caches and how many calls it has answered. -/
structure CachedWorld where
  repo : CachedSpecRepository
  steps : Nat := 0

namespace CachedWorld

/-- One call of a use case, answered through the caches. -/
def handle (environment : Environment) : Effects.Handler CachedWorld Call Call.Answer
  | world, .nowIso => (⟨world.repo, world.steps + 1⟩, environment.clock world.steps)
  | world, .newUuid => (⟨world.repo, world.steps + 1⟩, environment.uuid world.steps)
  | world, .repo request =>
      let outcome := world.repo.perform ((environment.fault world.steps).map .internal)
        (environment.clock world.steps) request
      (⟨outcome.1, world.steps + 1⟩, outcome.2)

/-- The world of the database behind the caches. -/
def behind (world : CachedWorld) : World := ⟨world.repo.inner, world.steps⟩

end CachedWorld
end Sanshain.Infrastructure
