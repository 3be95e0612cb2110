import Sanshain.Application.Require
import Sanshain.Application.TextDiff
import Sanshain.Effects.Beside

namespace Sanshain.Application

open Sanshain.Data Sanshain.Domain Sanshain.Document Sanshain.Effects Sanshain.Text
open OpenApiDocument (lookupPath)

/-- The read of the origins of all versions at once. -/
inductive OriginRead where
  | listVersionOrigins
  deriving DecidableEq, Repr

abbrev OriginRead.Answer : OriginRead → Type
  | .listVersionOrigins => Except RepositoryError (Entries Nat VersionOrigin)

/-- A use case that also reads the origins. -/
abbrev HistoryUseCase (Value : Type) :=
  Program (Call ⊕ OriginRead) (Sum.elim Call.Answer OriginRead.Answer) AppError Value

section Texts

variable (external : External)

/-- The text of one endpoint among those of a version, empty when it is not among them. -/
def endpointText (apiType : ApiType) (path method : String) (endpoints : List EndpointRecord) : String :=
  let method := methodFor external apiType method
  let normalized := lookupPath apiType path
  ((endpoints.find? fun endpoint => endpoint.normalizedPath = normalized && endpoint.method = method).map
    (·.yamlContent)).getD ""

/-- The text a version contributes to a diff or blame: its document, or the one endpoint. -/
def versionText (entryId : Nat) (apiType : ApiType) : Option (String × String) → UseCase String
  | none => do
      let content ← repo (.getSpecContent entryId)
      .done (content.getD "")
  | some (path, method) => do
      let endpoints ← repo (.getEndpointsForVersion entryId)
      .done (endpointText external apiType path method endpoints)

/-- The versions of a line up to one, oldest first; refused when that one is not stored. -/
def versionLine (producername : String) (apiType : ApiType) (version : SemVer) :
    UseCase (List SpecVersionMeta) := do
  let (serviceId, _) ← resolvePin producername apiType version
  let entries ← repo (.listSpecVersions serviceId)
  .done ((entries.filter fun entry => entry.apiType = apiType && entry.version ≤ version).insertionSort
    fun first second => first.version ≤ second.version)

def versionTexts (apiType : ApiType) (endpoint : Option (String × String))
    (line : List SpecVersionMeta) : UseCase (List String) :=
  Program.foldEach (fun texts entry => do
    let text ← versionText external entry.id apiType endpoint
    .done (texts ++ [text])) [] line

end Texts

/-- Consecutive lines that were last changed in one version, with what is said of it. -/
structure BlameBlock where
  version : SemVer
  stability : Stability
  providedBy : String
  updatedAt : Instant
  origin : VersionOrigin
  startLine : Nat
  lines : List Line

def blameBlock (entries : List SpecVersionMeta) (last : List Line) (origins : Entries Nat VersionOrigin)
    (run : BlameRun) : Option BlameBlock :=
  entries[run.owner]?.map fun entry =>
    { version := entry.version
      stability := entry.stability
      providedBy := entry.providedBy
      updatedAt := entry.updatedAt
      origin := (origins.get? entry.id).getD {}
      startLine := run.start + 1
      lines := (last.drop run.start).take run.len }

def listVersionOrigins : HistoryUseCase (Entries Nat VersionOrigin) :=
  .call (.inr OriginRead.listVersionOrigins) fun answer : OriginRead.Answer .listVersionOrigins =>
    .ofExcept (answer.mapError RepositoryError.toAppError)

/-- One version of a line, cut into the blocks of lines that were last changed in one version. -/
def blameVersion (external : External) (differ : LineDiffer) (producername : String) (apiType : ApiType)
    (version : SemVer) (endpoint : Option (String × String)) : HistoryUseCase (List BlameBlock) := do
  let line ← (versionLine producername apiType version).beside
  let texts ← (versionTexts external apiType endpoint line).beside
  let owners := blameLines differ texts
  let last := (texts.getLast?.map fun text => lines text.toList).getD []
  let origins ← listVersionOrigins
  .done ((groupBlame owners).filterMap (blameBlock line last origins))

end Sanshain.Application
