import Sanshain.Document.SpecText
import Sanshain.Domain.SpecTexts
import Sanshain.Effects.Program

namespace Sanshain.Application

open Sanshain.Domain Sanshain.Document Sanshain.Effects

abbrev Migration (Value : Type) := Program MigrationRequest MigrationRequest.Answer AppError Value

/-- A call whose failure ends the migration. -/
def migrationCall {Result : Type} (answer : Except RepositoryError Result) : Migration Result :=
  .ofExcept (answer.mapError RepositoryError.toAppError)

def migrationRepo (request : RepoCall) : Migration request.Result :=
  (Program.ask (MigrationRequest.repo request)).bind migrationCall

def rewriteSpecText (params : RewriteSpecText) : Migration Unit :=
  (Program.ask (MigrationRequest.rewriteSpecText params)).bind migrationCall

def setSetting (key value : String) : Migration Unit :=
  (Program.ask (MigrationRequest.setSetting key value)).bind migrationCall

/-- The setting that records that the stored texts were normalized. -/
def specTextNormalizedSetting : String := "spec_text_normalized_at"

/-- What the normalization rewrote. -/
structure SpecTextNormalization where
  alreadyDone : Bool := false
  versions : Nat := 0
  endpoints : Nat := 0
  contracts : Nat := 0
  deriving DecidableEq, Repr

/-- The snippets whose text changes. -/
def rewrittenEndpoints (endpoints : List EndpointRecord) :
    List ((ApiType × String × String) × String) :=
  endpoints.filterMap fun endpoint =>
    let text := normalizeSpecText endpoint.yamlContent
    if text ≠ endpoint.yamlContent then
      some ((endpoint.apiType, endpoint.path, endpoint.method), text)
    else none

variable (external : External)

/-- One version: its document, the digest of it, and its snippets. -/
def normalizeVersion (summary : SpecTextNormalization) (entry : SpecVersionMeta) :
    Migration SpecTextNormalization := do
  match ← migrationRepo (.getSpecContent entry.id) with
  | none => .done summary
  | some content => do
      let normalized := normalizeSpecText content
      let hash := contentHash external normalized
      let endpoints ← migrationRepo (.getEndpointsForVersion entry.id)
      let endpointTexts := rewrittenEndpoints endpoints
      if normalized = content ∧ hash = entry.contentHash ∧ endpointTexts = [] then .done summary
      else do
        rewriteSpecText ⟨entry.id, normalized, hash, endpointTexts⟩
        .done { summary with
          versions := summary.versions + 1
          endpoints := summary.endpoints + endpointTexts.length }

def normalizeContract (summary : SpecTextNormalization) (contract : ChannelMessageContract) :
    Migration SpecTextNormalization :=
  let payload := normalizeSpecText contract.payloadYaml
  if payload ≠ contract.payloadYaml then do
    migrationRepo (.upsertChannelMessageContract { contract with payloadYaml := payload })
    .done { summary with contracts := summary.contracts + 1 }
  else .done summary

/-- Every stored text is normalized once, which is recorded only after everything succeeded. -/
def normalizeStoredSpecText : Migration SpecTextNormalization := do
  let recorded ← migrationRepo (.getSetting specTextNormalizedSetting)
  if recorded.isSome then .done { alreadyDone := true }
  else do
    let versions ← migrationRepo .listAllSpecVersions
    let summary ← Program.foldEach (fun summary version => normalizeVersion external summary version.2.1)
      {} versions
    let contracts ← migrationRepo .listChannelMessageContracts
    let summary ← Program.foldEach normalizeContract summary contracts
    let now ← Program.ask MigrationRequest.now
    setSetting specTextNormalizedSetting (toString now)
    .done summary

end Sanshain.Application
