import Sanshain.Application.Webhooks
import Sanshain.Document.OpenApi

namespace Sanshain.Application

open Sanshain.Data Sanshain.Domain Sanshain.Document Sanshain.Effects
open OpenApiDocument (lookupPath)

/-- The shape a Require answers in. -/
inductive RequireFormat where
  | native
  | openApi
  deriving DecidableEq, Repr

/-- The conversions of an answer, which no later step reads: they answer a text or refuse. -/
structure AnswerForms where
  toOpenapiSchemas : List String → String → String → Except String String
  mergeEndpointYamls : List String → Except String String

structure RequireParams where
  consumername : String
  producername : String
  version : SemVer
  apiType : ApiType
  trunk : Bool := false
  tag : Option String := none
  format : RequireFormat := .native
  dryRun : Bool := false
  deriving DecidableEq, Repr

structure RequireResponse where
  yaml : String
  deprecated : Bool
  version : SemVer
  stability : Stability
  format : RequireFormat
  stream : ResolvedStream
  deriving DecidableEq, Repr

section Resolution

/-- The entry a pin names; a Require creates nothing. -/
def resolvePin (producername : String) (apiType : ApiType) (version : SemVer) :
    UseCase (Nat × SpecVersionMeta) := do
  match ← repo (.findService producername) with
  | none => .fail (.notFound s!"Producer '{producername}' is unknown")
  | some serviceId =>
      match ← repo (.findSpecVersion serviceId apiType version) with
      | none =>
          .fail (.notFound s!"Producer '{producername}' has no {apiType.asStr} version {version.display} (in either stability) — a missing pinned version is a configuration error, nothing waits for it to appear")
      | some entry => .done (serviceId, entry)

def methodFor (external : External) (apiType : ApiType) (method : String) : String :=
  match apiType with
  | .openApi | .asyncApi => external.toUppercase method
  | .proto => method

def toOpenapi (forms : AnswerForms) (producername : String) (version : SemVer)
    (snippets : List String) : UseCase String :=
  .ofExcept ((forms.toOpenapiSchemas snippets producername version.display).mapError .badRequest)

end Resolution

section Recording

/-- The edges the Consumer holds in the stream it declares. -/
def heldEdges (params : RequireParams) (entry : SpecVersionMeta) (stream : ResolvedStream) :
    UseCase (List (String × String)) :=
  let mine (pins : List PinInfo) : List (String × String) :=
    (pins.filter fun pin =>
      pin.client = params.consumername && pin.service = params.producername &&
        pin.apiType = entry.apiType && pin.version = entry.version).map
      fun pin => (pin.normalizedPath, pin.method)
  match stream.branch, stream.trunk with
  | some branch, _ => do
      let pins ← repo (.listBranchPins branch.id none)
      .done (mine pins)
  | none, true => do
      let pins ← repo .listCurrentTrunkPins
      .done (mine pins)
  | none, false => do
      let edges ← repo (.listConsumerEndpoints params.consumername)
      .done ((edges.filter fun edge =>
        edge.service = params.producername && edge.apiType = entry.apiType &&
          edge.version = entry.version).map
        fun edge => (lookupPath entry.apiType edge.path, edge.method))

/-- The event of a Require that records an edge its Consumer did not hold. -/
def planDependencyEvent (deployment : Deployment) (params : RequireParams) (entry : SpecVersionMeta)
    (endpoints : List (String × String)) (stream : ResolvedStream) :
    UseCase (List NewWebhookEvent) :=
  if deployment.emissionEnabled then do
    let held ← heldEdges params entry stream
    let newEdges := endpoints.filter fun endpoint =>
      (lookupPath entry.apiType endpoint.1, endpoint.2) ∉ held
    if newEdges.isEmpty then .done []
    else do
      let event ← planEvent deployment .dependencyRecorded
        ⟨some params.producername, [params.consumername], true⟩
        (dependencyRecordedData params.consumername params.producername entry.apiType entry.version
          entry.stability newEdges stream)
      .done event.toList
  else .done []

def dependencyRows (clientId : Nat) (entry : SpecVersionMeta) (endpoints : List (String × String)) :
    List RecordDependencyParams :=
  endpoints.map fun endpoint =>
    ⟨clientId, entry.id, entry.apiType, endpoint.1, lookupPath entry.apiType endpoint.1, endpoint.2⟩

/-- Two spellings of one endpoint are one pin, under the first of them. -/
def firstSpellings (apiType : ApiType) :
    List (String × String) → List (String × String) → List (String × String)
  | _, [] => []
  | seen, endpoint :: rest =>
      let key := (lookupPath apiType endpoint.1, endpoint.2)
      if key ∈ seen then firstSpellings apiType seen rest
      else endpoint :: firstSpellings apiType (key :: seen) rest

def pinRows (clientId : Nat) (entry : SpecVersionMeta) (now : Instant)
    (endpoints : List (String × String)) : List RecordPinParams :=
  (firstSpellings entry.apiType [] endpoints).map fun endpoint =>
    ⟨clientId, entry.serviceId, entry.apiType, entry.version, endpoint.1,
      lookupPath entry.apiType endpoint.1, endpoint.2, now⟩

/-- Trunk keeps its own pins, and a branch its own graph. -/
def recordStreamPins (clientId : Nat) (entry : SpecVersionMeta) (endpoints : List (String × String))
    (stream : ResolvedStream) : UseCase Unit :=
  match stream.branch, stream.trunk with
  | some branch, _ => do
      let now ← nowIso
      repo (.recordBranchPins branch.id (pinRows clientId entry now endpoints))
  | none, true => do
      let now ← nowIso
      repo (.recordTrunkPins (pinRows clientId entry now endpoints))
  | none, false => .done ()

def recordPins (deployment : Deployment) (params : RequireParams) (entry : SpecVersionMeta)
    (endpoints : List (String × String)) (stream : ResolvedStream) : UseCase Unit :=
  if params.dryRun then .done ()
  else do
    let outbox ← planDependencyEvent deployment params entry endpoints stream
    let clientId ← repo (.ensureClient params.consumername)
    repo (.recordDependenciesBulk (dependencyRows clientId entry endpoints) outbox)
    let now ← nowIso
    repo (.touchSpecVersionRequired entry.id now)
    recordStreamPins clientId entry endpoints stream

end Recording

section Requires

variable (deployment : Deployment) (forms : AnswerForms) (params : RequireParams)

def endpointAnswer (snippet : String) : UseCase String :=
  match params.format with
  | .native => .done snippet
  | .openApi => toOpenapi forms params.producername params.version [snippet]

def requireEndpoint (path method : String) : UseCase RequireResponse := do
  let stream ← resolveStream params.trunk params.tag
  let (_, entry) ← resolvePin params.producername params.apiType params.version
  let method := methodFor deployment.external params.apiType method
  match ← repo (.findEndpoint entry.id params.apiType path method) with
  | none =>
      .fail (.gone s!"{params.apiType.asStr} version {params.version.display} of '{params.producername}' does not include {method} {path}")
  | some (snippet, deprecated) => do
      let yaml ← endpointAnswer forms params snippet
      recordPins deployment params entry [(path, method)] stream
      .done ⟨yaml, deprecated, params.version, entry.stability, params.format, stream⟩

/-- The order of the wanted endpoints in the answer. -/
def endpointLe (first second : String × String) : Prop :=
  first.1 < second.1 ∨ first.1 = second.1 ∧ first.2 ≤ second.2

instance (first second : String × String) : Decidable (endpointLe first second) :=
  inferInstanceAs (Decidable (_ ∨ _))

def bundleAnswer (yamls : List String) : UseCase String :=
  match params.format, params.apiType with
  | .openApi, _ => toOpenapi forms params.producername params.version yamls
  | .native, .openApi => .ofExcept ((forms.mergeEndpointYamls yamls).mapError .internal)
  | .native, _ => .done (Text.join "\n---\n" yamls)

def requireBundle (endpoints : List (String × String)) : UseCase RequireResponse := do
  let stream ← resolveStream params.trunk params.tag
  if endpoints.isEmpty then .fail (.badRequest "A bundle needs at least one endpoint")
  else do
    let (_, entry) ← resolvePin params.producername params.apiType params.version
    let normalized := endpoints.map fun endpoint =>
      (endpoint.1, methodFor deployment.external params.apiType endpoint.2)
    let found ← repo (.findEndpointsBulk entry.id params.apiType normalized)
    let missing := (normalized.filter fun wanted => (found.get? wanted).isNone).map
      fun wanted => wanted.2 ++ " " ++ wanted.1
    if missing ≠ [] then
      let names := Text.join ", " missing
      .fail (.gone s!"{params.apiType.asStr} version {params.version.display} of '{params.producername}' does not include: {names}")
    else do
      let served := (normalized.insertionSort endpointLe).filterMap found.get?
      let yaml ← bundleAnswer forms params (served.map Prod.fst)
      recordPins deployment params entry normalized stream
      .done ⟨yaml, served.any Prod.snd, params.version, entry.stability, params.format, stream⟩

end Requires

section Calls

/-- The writes of a Require: its pins, and that the version was asked for. -/
inductive RequireWrites (params : RequireParams) : Call → Prop
  | reads {request : Call} (reads : request.readsOnly = true) : RequireWrites params request
  | client : RequireWrites params (.repo (.ensureClient params.consumername))
  | dependencies (rows : List RecordDependencyParams) (outbox : List NewWebhookEvent) :
      RequireWrites params (.repo (.recordDependenciesBulk rows outbox))
  | required (specVersionId : Nat) (now : Instant) :
      RequireWrites params (.repo (.touchSpecVersionRequired specVersionId now))
  | trunkPins (pins : List RecordPinParams) : RequireWrites params (.repo (.recordTrunkPins pins))
  | branchPins (branchId : Nat) (pins : List RecordPinParams) :
      RequireWrites params (.repo (.recordBranchPins branchId pins))

variable (deployment : Deployment) (forms : AnswerForms) (params : RequireParams)

/-- What an operation only reads it may read under any of these rules. -/
theorem only_of_reads {Value : Type} {program : UseCase Value} (reads : Reads program) :
    program.Only (RequireWrites params) fun _ _ => True :=
  reads.mono (fun _ reads => .reads reads) fun _ _ _ => trivial

theorem only_requireRepo {request : RepoCall} (writes : RequireWrites params (.repo request)) :
    (repo request).Only (RequireWrites params) fun _ _ => True :=
  (only_repo writes).mono (fun _ writes => writes) fun _ _ _ => trivial

theorem reading_resolvePin (producername : String) (apiType : ApiType) (version : SemVer) :
    (resolvePin producername apiType version).Only (fun request => request.readsOnly = true)
      fun _ _ => True := by
  have reads {request : RepoCall} (reads : request.readsOnly = true) :
      (repo request).Only (fun request => request.readsOnly = true) fun _ _ => True :=
    (reads_repo reads).mono (fun _ reads => reads) fun _ _ _ => trivial
  refine (reads rfl).bind fun found => ?_
  cases found with
  | none => exact .fail fun _ => trivial
  | some serviceId =>
      refine (reads rfl).bind fun entry => ?_
      cases entry with
      | none => exact .fail fun _ => trivial
      | some entry => exact .done _

theorem only_resolvePin (producername : String) (apiType : ApiType) (version : SemVer) :
    (resolvePin producername apiType version).Only (RequireWrites params) fun _ _ => True :=
  (reading_resolvePin producername apiType version).mono (fun _ reads => .reads reads)
    fun _ _ _ => trivial

theorem reads_heldEdges (entry : SpecVersionMeta) (stream : ResolvedStream) :
    Reads (heldEdges params entry stream) := by
  unfold heldEdges
  split <;> exact (reads_repo rfl).bind fun _ => .done _

theorem reads_planDependencyEvent (entry : SpecVersionMeta) (endpoints : List (String × String))
    (stream : ResolvedStream) :
    Reads (planDependencyEvent deployment params entry endpoints stream) := by
  unfold planDependencyEvent
  split
  · refine (reads_heldEdges params entry stream).bind fun held => ?_
    dsimp only
    split
    · exact .done []
    · exact (reads_planEvent deployment _ _ _).bind fun event => .done _
  · exact .done []

theorem only_recordStreamPins (clientId : Nat) (entry : SpecVersionMeta)
    (endpoints : List (String × String)) (stream : ResolvedStream) :
    (recordStreamPins clientId entry endpoints stream).Only (RequireWrites params) CallFailed := by
  unfold recordStreamPins
  split
  · exact (only_nowIso (.reads rfl)).bind fun now => only_repo (.branchPins _ _)
  · exact (only_nowIso (.reads rfl)).bind fun now => only_repo (.trunkPins _)
  · exact .done ()

/-- Recording fails only where the store does. -/
theorem only_recordPins (entry : SpecVersionMeta) (endpoints : List (String × String))
    (stream : ResolvedStream) :
    (recordPins deployment params entry endpoints stream).Only (RequireWrites params) CallFailed := by
  unfold recordPins
  split
  · exact .done ()
  · refine ((reads_planDependencyEvent deployment params entry endpoints stream).mono
      (fun _ reads => .reads reads) fun _ _ failed => failed).bind fun outbox => ?_
    refine (only_repo .client).bind fun clientId => ?_
    refine (only_repo (.dependencies _ outbox)).bind fun _ => ?_
    refine (only_nowIso (.reads rfl)).bind fun now => ?_
    exact (only_repo (.required entry.id now)).bind fun _ =>
      only_recordStreamPins params clientId entry endpoints stream

theorem only_recorded (entry : SpecVersionMeta) (endpoints : List (String × String))
    (stream : ResolvedStream) :
    (recordPins deployment params entry endpoints stream).Only (RequireWrites params)
      fun _ _ => True :=
  (only_recordPins deployment params entry endpoints stream).mono (fun _ writes => writes)
    fun _ _ _ => trivial

theorem only_endpointAnswer (allowed : Call → Prop) (snippet : String) :
    (endpointAnswer forms params snippet).Only allowed fun _ _ => True := by
  unfold endpointAnswer
  split
  · exact .done _
  · exact .ofExcept fun _ _ _ => trivial

theorem only_requireEndpoint (path method : String) :
    (requireEndpoint deployment forms params path method).Only (RequireWrites params)
      fun _ _ => True := by
  refine (only_of_reads params (reads_resolveStream _ _)).bind fun stream => ?_
  refine (only_resolvePin params _ _ _).bind fun found => ?_
  refine (only_requireRepo params (.reads rfl)).bind fun endpoint => ?_
  cases endpoint with
  | none => exact .fail fun _ => trivial
  | some endpoint =>
      refine (only_endpointAnswer forms params _ endpoint.1).bind fun yaml => ?_
      exact (only_recorded deployment params _ _ stream).bind fun _ => .done _

theorem only_bundleAnswer (allowed : Call → Prop) (yamls : List String) :
    (bundleAnswer forms params yamls).Only allowed fun _ _ => True := by
  unfold bundleAnswer
  split
  · exact .ofExcept fun _ _ _ => trivial
  · exact .ofExcept fun _ _ _ => trivial
  · exact .done _

theorem only_requireBundle (endpoints : List (String × String)) :
    (requireBundle deployment forms params endpoints).Only (RequireWrites params)
      fun _ _ => True := by
  refine (only_of_reads params (reads_resolveStream _ _)).bind fun stream => ?_
  split
  · exact .fail fun _ => trivial
  · refine (only_resolvePin params _ _ _).bind fun found => ?_
    refine (only_requireRepo params (.reads rfl)).bind fun bulk => ?_
    dsimp only
    split
    · exact .fail fun _ => trivial
    · exact (only_bundleAnswer forms params _ _).bind fun yaml =>
        (only_recorded deployment params _ _ stream).bind fun _ => .done _

end Calls
end Sanshain.Application
