import Sanshain.Application.Calls

namespace Sanshain.Application

open Sanshain.Data Sanshain.Domain Sanshain.Document Sanshain.Effects

section FanOut

/-- The two cursors and the last star of a wildcard match, which gives back one character to the
star after every mismatch. -/
def globLoop (pattern text : List Char) : Nat → Nat → Nat → Option (Nat × Nat) → Bool
  | 0, _, _, _ => false
  | fuel + 1, p, t, star =>
      match text[t]? with
      | none => (pattern.drop p).all (· = '*')
      | some current =>
          if pattern[p]? = some '*' then globLoop pattern text fuel (p + 1) t (some (p, t))
          else if pattern[p]? = some '?' ∨ pattern[p]? = some current then
            globLoop pattern text fuel (p + 1) (t + 1) star
          else match star with
            | some (sp, st) => globLoop pattern text fuel (sp + 1) (st + 1) (some (sp, st + 1))
            | none => false

/-- Between two moves of the star lie at most as many steps as the text is long. -/
def globMatches (glob name : String) : Bool :=
  let pattern := glob.toList
  let text := name.toList
  globLoop pattern text ((pattern.length + text.length + 1) * (text.length + 1)) 0 0 none

/-- Whether a hook wants an event: its scope first, then its filters. -/
def hookWants (hook : Webhook) (eventType : WebhookEventType) (producer : Option String)
    (consumers : List String) : Bool :=
  let inScope := match hook.scope with
    | .global => true
    | .producer name => producer = some name
    | .consumer name => consumers.contains name
  inScope && (hook.eventTypes.isEmpty || hook.eventTypes.contains eventType) &&
    (match hook.producerGlob, producer with
      | none, _ => true
      | some glob, some name => globMatches glob name
      | some _, none => false)

/-- Who an event is about, for its fan-out. -/
structure EventAudience where
  producer : Option String
  consumers : List String
  followEdges : Bool

def EventAudience.ofProducer (name : String) : EventAudience := ⟨some name, [], true⟩

/-- The Consumers with a current edge on the audience's Producer, when edges are followed. -/
def edgeConsumers (audience : EventAudience) : UseCase (List String) :=
  match audience.followEdges, audience.producer with
  | true, some name => do
      match ← repo (.findService name) with
      | some serviceId => repo (.listCurrentConsumersOf serviceId)
      | none => .done []
  | _, _ => .done []

def fanOut (deployment : Deployment) (eventType : WebhookEventType) (audience : EventAudience) :
    UseCase (List Nat) :=
  if deployment.emissionEnabled then do
    let hooks ← repo .listWebhooks
    if hooks.isEmpty then .done []
    else do
      let consumers ← edgeConsumers audience
      .done ((hooks.filter fun hook =>
        hookWants hook eventType audience.producer (audience.consumers ++ consumers)).map (·.id))
  else .done []

/-- The outbox row of an event, unless no hook wants it. -/
def eventFor (eventType : WebhookEventType) (producer : Option String) (data : Value)
    (hookIds : List Nat) : UseCase (Option NewWebhookEvent) :=
  if hookIds.isEmpty then .done none
  else do
    let id ← newUuid
    let occurredAt ← nowIso
    .done (some ⟨id, eventType, producer, occurredAt, data, hookIds⟩)

def planEvent (deployment : Deployment) (eventType : WebhookEventType) (audience : EventAudience)
    (data : Value) : UseCase (Option NewWebhookEvent) := do
  let hookIds ← fanOut deployment eventType audience
  eventFor eventType audience.producer data hookIds

theorem reads_edgeConsumers (audience : EventAudience) : Reads (edgeConsumers audience) := by
  unfold edgeConsumers
  split
  · refine (reads_repo rfl).bind fun found => ?_
    cases found with
    | some serviceId => exact reads_repo rfl
    | none => exact Program.Only.done []
  · exact Program.Only.done []

theorem reads_fanOut (deployment : Deployment) (eventType : WebhookEventType)
    (audience : EventAudience) : Reads (fanOut deployment eventType audience) := by
  unfold fanOut
  split
  · refine (reads_repo rfl).bind fun hooks => ?_
    split
    · exact Program.Only.done []
    · exact (reads_edgeConsumers audience).bind fun consumers => Program.Only.done _
  · exact Program.Only.done []

theorem reads_eventFor (eventType : WebhookEventType) (producer : Option String) (data : Value)
    (hookIds : List Nat) : Reads (eventFor eventType producer data hookIds) := by
  unfold eventFor
  split
  · exact Program.Only.done none
  · exact reads_newUuid.bind fun id => reads_nowIso.bind fun now => Program.Only.done _

theorem reads_planEvent (deployment : Deployment) (eventType : WebhookEventType)
    (audience : EventAudience) (data : Value) :
    Reads (planEvent deployment eventType audience data) :=
  (reads_fanOut deployment eventType audience).bind fun hookIds =>
    reads_eventFor eventType audience.producer data hookIds

end FanOut

section Payloads

def textOrNull : Option String → Value
  | some text => .string text
  | none => .null

def streamLabel (stream : ResolvedStream) : String := stream.label.getD "dev"

def impactLabel : Impact → String
  | .none => "none"
  | .patch => "patch"
  | .minor => "minor"
  | .major => "major"

def originData (origin : VersionOrigin) : Value :=
  .object [("build_url", textOrNull origin.buildUrl), ("change_url", textOrNull origin.changeUrl),
    ("tickets", .array (origin.tickets.map .string)), ("note", textOrNull origin.note),
    ("trunk_build", .bool origin.trunkBuild)]

/-- A Provide succeeded. -/
structure VersionPublished where
  producer : String
  apiType : ApiType
  version : SemVer
  stability : Stability
  promoted : Bool
  stream : ResolvedStream
  actor : Option String
  compatibility : Option (SemVer × Impact)
  origin : VersionOrigin

def versionPublishedData (event : VersionPublished) : Value :=
  .object [("producer", .string event.producer), ("api_type", .string event.apiType.asStr),
    ("version", .string event.version.display), ("stability", .string event.stability.asStr),
    ("promoted", .bool event.promoted), ("stream", .string (streamLabel event.stream)),
    ("actor", textOrNull event.actor),
    ("compatibility", match event.compatibility with
      | some (against, impact) =>
          .object [("against", .string against.display), ("impact", .string (impactLabel impact))]
      | none => .null),
    ("origin", originData event.origin)]

/-- A Provide was refused by a version rule. -/
structure ProvideRejected where
  producer : String
  apiType : ApiType
  version : SemVer
  rule : String
  message : String
  proposedVersion : Option SemVer
  actor : Option String

def provideRejectedData (event : ProvideRejected) : Value :=
  .object [("producer", .string event.producer), ("api_type", .string event.apiType.asStr),
    ("version", .string event.version.display), ("rule", .string event.rule),
    ("message", .string event.message),
    ("proposed_version", textOrNull (event.proposedVersion.map SemVer.display)),
    ("actor", textOrNull event.actor)]

/-- The elements deprecated now and not in the previous GA, and whether every element is. -/
def newlyDeprecated (endpoints : List EndpointRecord) (previousGa : Option (List EndpointRecord)) :
    List (String × String) × Bool :=
  let wasDeprecated (endpoint : EndpointRecord) : Bool :=
    (previousGa.getD []).any fun old =>
      old.apiType = endpoint.apiType && old.normalizedPath = endpoint.normalizedPath &&
        old.method = endpoint.method && old.deprecated
  ((endpoints.filter fun endpoint => endpoint.deprecated && !wasDeprecated endpoint).map
      fun endpoint => (endpoint.path, endpoint.method),
    !endpoints.isEmpty && endpoints.all (·.deprecated))

def elementsData (elements : List (String × String)) : Value :=
  .array (elements.map fun element =>
    .object [("path", .string element.1), ("method", .string element.2)])

def versionDeprecatedData (producer : String) (apiType : ApiType) (version : SemVer)
    (stability : Stability) (elements : List (String × String)) (documentDeprecated : Bool) : Value :=
  .object [("producer", .string producer), ("api_type", .string apiType.asStr),
    ("version", .string version.display), ("stability", .string stability.asStr),
    ("elements", elementsData elements), ("document_deprecated", .bool documentDeprecated)]

def dependencyRecordedData (consumer producer : String) (apiType : ApiType) (version : SemVer)
    (stability : Stability) (endpoints : List (String × String)) (stream : ResolvedStream) : Value :=
  .object [("consumer", .string consumer), ("producer", .string producer),
    ("api_type", .string apiType.asStr), ("version", .string version.display),
    ("stability", .string stability.asStr), ("snapshot_pinned", .bool (stability = .snapshot)),
    ("stream", .string (streamLabel stream)), ("endpoints", elementsData endpoints)]

end Payloads

example : globMatches "or*rs-?" "orders-1" = true := by decide +kernel
example : globMatches "or*rs" "orders-1" = false := by decide +kernel

end Sanshain.Application
