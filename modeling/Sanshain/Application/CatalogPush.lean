import Sanshain.Application.Webhooks
import Sanshain.Document.Backstage
import Sanshain.Effects.Beside

namespace Sanshain.Application

open Sanshain.Data Sanshain.Domain Sanshain.Document Sanshain.Effects Sanshain.Text

/-- A Producer as its detailed list shows it. -/
structure ProducerSummary where
  name : String
  icon : Option String
  domain : Option String
  deriving DecidableEq, Repr

/-- The calls on what is told of a Producer beside its versions. -/
inductive MetadataCall where
  | listProducersDetailed
  | updateProducerMetadata (serviceName : String) (icon domain : Option String)
  deriving DecidableEq, Repr

abbrev MetadataCall.Answer : MetadataCall → Type
  | .listProducersDetailed => Except RepositoryError (List ProducerSummary)
  | .updateProducerMetadata _ _ _ => Except RepositoryError Unit

/-- A use case that also reads and writes what is told of Producers. -/
abbrev CatalogUseCase (Value : Type) :=
  Program (Call ⊕ MetadataCall) (Sum.elim Call.Answer MetadataCall.Answer) AppError Value

def listProducersDetailed : CatalogUseCase (List ProducerSummary) :=
  .call (.inr MetadataCall.listProducersDetailed)
    fun answer : MetadataCall.Answer .listProducersDetailed =>
      .ofExcept (answer.mapError RepositoryError.toAppError)

def updateProducerMetadata (serviceName : String) (icon domain : Option String) :
    CatalogUseCase Unit :=
  .call (.inr (MetadataCall.updateProducerMetadata serviceName icon domain))
    fun answer : MetadataCall.Answer (.updateProducerMetadata serviceName icon domain) =>
      .ofExcept (answer.mapError RepositoryError.toAppError)

structure CatalogPushResult where
  system : String
  trunk : Bool
  resources : List String
  components : List String
  recorded : Bool
  warnings : List String
  changed : Bool
  deriving DecidableEq, Repr

section Events

variable (deployment : Deployment)

def catalogRecordedData (system : String) (trunk recorded : Bool) (warning : Option String)
    (resources : Nat) : Value :=
  .object [("system", .string system), ("trunk", .bool trunk), ("recorded", .bool recorded),
    ("warning", textOrNull warning), ("resources", .number (toString resources))]

/-- A catalog push is about the system, as a Producer and as a Consumer, and not about its Consumers. -/
def catalogEvent (system : String) (data : Value) : UseCase (Option NewWebhookEvent) :=
  planEvent deployment .catalogRecorded ⟨some system, [system], false⟩ data

theorem reads_catalogEvent (system : String) (data : Value) :
    Reads (catalogEvent deployment system data) :=
  reads_planEvent deployment .catalogRecorded _ data

end Events

section Pushes

variable (deployment : Deployment) (readers : CatalogReaders)

/-- A domain that is told, and not blank. -/
def hasDomain (domain : Option String) : Bool := domain.any fun told => trim told ≠ ""

/-- The Backstage system fills the domain of a Producer that has none; whether it did. -/
def fillDomainFromSystem (system : String) : Option String → CatalogUseCase Bool
  | none => .done false
  | some domain => do
      match ← (repo (.findService system)).beside with
      | none => .done false
      | some _ => do
          let producers ← listProducersDetailed
          match producers.find? (·.name = system) with
          | none => .done false
          | some producer =>
              if hasDomain producer.domain then .done false
              else do
                updateProducerMetadata system producer.icon (some domain)
                .done true

/-- A file that is not read records nothing but its event. -/
def warnUnread (system : String) (trunk : Bool) (warning : String) : UseCase CatalogPushResult := do
  let data := catalogRecordedData system trunk false (some warning) 0
  match ← catalogEvent deployment system data with
  | some event => do
      let _ ← repo (.insertWebhookEvents [event])
      .done ⟨system, trunk, [], [], false, [warning], false⟩
  | none => .done ⟨system, trunk, [], [], false, [warning], false⟩

/-- The periphery that a Component declares: its resources, and the components it names. -/
def peripheryRefs (component : CatalogComponent) : List String :=
  component.resources ++ component.components

/-- The periphery and the context that a Component declares replace what was pushed before;
whether either changed. -/
def recordCatalog (system : String) (trunk : Bool) (component : CatalogComponent) : UseCase Bool := do
  let now ← nowIso
  let data := catalogRecordedData system trunk true none component.resources.length
  let event ← catalogEvent deployment system data
  let peripheryChanged ←
    repo (.reconcilePeriphery system trunk (peripheryRefs component) now event.toList)
  let contextChanged ← repo (.upsertSystemContext system component.context now)
  .done (peripheryChanged || contextChanged)

def pushCatalog (system catalogInfoYaml : String) (trunk : Bool) : CatalogUseCase CatalogPushResult :=
  let system := trim system
  if system = "" then .fail (.badRequest "a catalog push needs a non-empty system name")
  else match Backstage.readComponent readers catalogInfoYaml system with
    | .error error => (warnUnread deployment system trunk error.display).beside
    | .ok component => do
        let recordedChanged ← (recordCatalog deployment system trunk component).beside
        let domainChanged ← fillDomainFromSystem system component.system
        .done ⟨system, trunk, component.resources, component.components, true, [],
          recordedChanged || domainChanged⟩

end Pushes
end Sanshain.Application
