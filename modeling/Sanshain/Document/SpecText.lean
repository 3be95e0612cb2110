import Sanshain.Document.AsyncApi
import Sanshain.Document.OpenApiCompat
import Sanshain.Document.Proto

namespace Sanshain.Document

open Sanshain.Data Sanshain.Domain Sanshain.Text
open OpenApiDocument (EndpointSpec)

/-- A leading byte order mark goes, and every line ending becomes a line feed. -/
def normalizeSpecText (content : String) : String :=
  let withoutBom := (stripPrefix "\ufeff" content).getD content
  if contains "\r" withoutBom then replace "\r" "\n" (replace "\r\n" "\n" withoutBom)
  else withoutBom

def contentHash (external : External) (content : String) : String :=
  "sha256:" ++ external.sha256Hex content

/-- The version the document itself declares. -/
def extractSpecVersion (external : External) (apiType : ApiType) (content : String) :
    Except AppError SemVer :=
  (match apiType with
    | .openApi | .asyncApi => OpenApiDocument.extractInfoVersion external content
    | .proto => ProtoDocument.extractSanshainVersion external content).mapError .badRequest

/-- Two spellings of one endpoint are refused; the walk remembers the last path of each key. -/
def rejectColliding : Entries (String × String) String → List EndpointSpec → Except AppError Unit
  | _, [] => .ok ()
  | seen, endpoint :: rest =>
      let key := (endpoint.normalizedPath, endpoint.method)
      match seen.get? key with
      | some first =>
          if first ≠ endpoint.path then
            .error (.badRequest s!"'{first}' and '{endpoint.path}' are the same {endpoint.method} endpoint — they differ only in a path-parameter name or separator, so nothing can tell them apart. Give them distinct paths, or publish only one.")
          else rejectColliding (seen.insert key endpoint.path) rest
      | none => rejectColliding (seen.insert key endpoint.path) rest

def rejectCollidingEndpoints (endpoints : List EndpointSpec) : Except AppError Unit :=
  rejectColliding [] endpoints

/-- Only what a Producer publishes is an endpoint of its channel document. -/
def asyncApiEndpoints (specs : List AsyncApiDocument.AsyncApiSpec) : List EndpointSpec :=
  (specs.filter fun spec => spec.operation = "PUB").map fun spec =>
    ⟨spec.channel, spec.channel, spec.operation, spec.yamlContent, spec.deprecated⟩

def protoEndpoints (specs : List ProtoDocument.ProtoSpec) : List EndpointSpec :=
  specs.map fun spec => ⟨spec.service, spec.service, spec.method, spec.content, spec.deprecated⟩

def parseSpecEndpointsInner (external : External) (apiType : ApiType) (content : String) :
    Except AppError (List EndpointSpec) :=
  match apiType with
  | .openApi => (OpenApiDocument.splitOpenapi external content).mapError .badRequest
  | .asyncApi =>
      ((AsyncApiDocument.splitAsyncapi external content).mapError .badRequest).map asyncApiEndpoints
  | .proto => .ok (protoEndpoints (ProtoDocument.splitProto external content))

def parseSpecEndpoints (external : External) (apiType : ApiType) (content : String) :
    Except AppError (List EndpointSpec) :=
  match parseSpecEndpointsInner external apiType content with
  | .error error => .error error
  | .ok endpoints => (rejectCollidingEndpoints endpoints).map fun _ => endpoints

/-- What is read out of a document before any rule looks at it. -/
structure ParsedSpec where
  version : SemVer
  hash : String
  endpoints : List EndpointSpec

def parseSpec (external : External) (apiType : ApiType) (content : String) :
    Except AppError ParsedSpec :=
  match extractSpecVersion external apiType content with
  | .error error => .error error
  | .ok version =>
      match parseSpecEndpoints external apiType content with
      | .error error => .error error
      | .ok endpoints => .ok ⟨version, contentHash external content, endpoints⟩

section Refusals

variable {external : External} {apiType : ApiType} {content : String} {error : AppError}

theorem mapError_badRequest {Value : Type} {outcome : Except String Value}
    (refused : outcome.mapError .badRequest = .error error) : ∃ message, error = .badRequest message := by
  cases outcome with
  | ok value => cases refused
  | error message =>
      cases refused
      exact ⟨message, rfl⟩

theorem rejectColliding_error {seen : Entries (String × String) String}
    {endpoints : List EndpointSpec} (refused : rejectColliding seen endpoints = .error error) :
    ∃ message, error = .badRequest message := by
  induction endpoints generalizing seen with
  | nil => cases refused
  | cons endpoint rest ih =>
      rw [rejectColliding] at refused
      split at refused
      · split at refused
        · cases refused
          exact ⟨_, rfl⟩
        · exact ih refused
      · exact ih refused

theorem parseSpecEndpointsInner_error
    (refused : parseSpecEndpointsInner external apiType content = .error error) :
    ∃ message, error = .badRequest message := by
  cases apiType with
  | openApi => exact mapError_badRequest refused
  | asyncApi =>
      cases outcome : (AsyncApiDocument.splitAsyncapi external content).mapError AppError.badRequest with
      | ok specs => simp [parseSpecEndpointsInner, outcome, Except.map] at refused
      | error other =>
          simp only [parseSpecEndpointsInner, outcome, Except.map, Except.error.injEq] at refused
          exact refused ▸ mapError_badRequest outcome
  | proto => cases refused

/-- A document that is not read is a bad request. -/
theorem parseSpec_error (refused : parseSpec external apiType content = .error error) :
    ∃ message, error = .badRequest message := by
  unfold parseSpec at refused
  split at refused
  · rename_i other unversioned
    cases refused
    cases apiType <;> exact mapError_badRequest unversioned
  · split at refused
    · rename_i other unsplit
      cases refused
      unfold parseSpecEndpoints at unsplit
      split at unsplit
      · rename_i unsplit'
        cases unsplit
        exact parseSpecEndpointsInner_error unsplit'
      · rename_i endpoints _
        cases outcome : rejectCollidingEndpoints endpoints with
        | ok _ => simp [outcome, Except.map] at unsplit
        | error reason =>
            simp only [outcome, Except.map, Except.error.injEq] at unsplit
            exact unsplit ▸ rejectColliding_error outcome
    · cases refused

end Refusals

/-- The whole-document verdict of one API type. -/
def checkCompatibility (external : External) (apiType : ApiType) (old new : String) : Verdict :=
  match apiType with
  | .openApi => OpenApiDocument.checkBackwardCompatibility external old new
  | .asyncApi => .ofExcept (AsyncApiDocument.checkBackwardCompatibility external old new)
  | .proto => ProtoDocument.checkBackwardCompatibility external old new

example : normalizeSpecText "\ufeffa\r\nb\rc" = "a\nb\nc" := by decide +kernel

end Sanshain.Document
