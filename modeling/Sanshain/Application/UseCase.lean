import Sanshain.Document.OpenApiModel
import Sanshain.Domain.Ports
import Sanshain.Effects.Guard

namespace Sanshain.Application

open Sanshain.Data Sanshain.Domain Sanshain.Document Sanshain.Effects

/-- A use case runs against the clock, the generator and the store, and may refuse. -/
abbrev UseCase (Value : Type) := Program Call Call.Answer AppError Value

/-- What is fixed while the service runs: the platform, and whether events are written. -/
structure Deployment where
  external : External
  emissionEnabled : Bool

/-- A store call whose failure is the caller's to read. -/
def tryRepo (request : RepoCall) : UseCase (Except RepositoryError request.Result) :=
  .ask (Call.repo request)

/-- A store call whose failure ends the use case. -/
def repo (request : RepoCall) : UseCase request.Result :=
  (tryRepo request).bind fun answer => .ofExcept (answer.mapError RepositoryError.toAppError)

def nowIso : UseCase Instant := .ask Call.nowIso

def newUuid : UseCase String := .ask Call.newUuid

/-- A computation that may never end. -/
def orSpin {Value : Type} : Option Value → UseCase Value
  | some value => .done value
  | none => .spin

/-- The stream a build is recorded in: dev alone, with a warning, when the declared one cannot
be honoured. -/
def resolveStream (trunk : Bool) : Option String → UseCase ResolvedStream
  | none => .done ⟨trunk, none, []⟩
  | some name =>
      if trunk then
        .done ⟨false, none,
          ["trunk and tag are mutually exclusive - this build was recorded in neither"]⟩
      else do
        match ← repo (.findBranch name) with
        | some branch => .done ⟨false, some branch, []⟩
        | none =>
            .done ⟨false, none,
              [s!"no sanshain-branch '{name}' - this build was not recorded in a release graph"]⟩

/-- A version-line entry under its Producer's name. -/
def findVersionEntry (producer : String) (apiType : ApiType) (version : SemVer) :
    UseCase SpecVersionMeta := do
  match ← repo (.findService producer) with
  | none => .fail (.notFound s!"Producer '{producer}' not found")
  | some serviceId =>
      match ← repo (.findSpecVersion serviceId apiType version) with
      | none =>
          .fail (.notFound s!"Producer '{producer}' has no {apiType.asStr} version {version.display}")
      | some entry => .done entry

end Sanshain.Application
