import Sanshain.Application.VersionRules
import Sanshain.Document.EndpointKeys
import Sanshain.Document.Surface
import Sanshain.Guarantees.Spellings

namespace Sanshain.Guarantees

open Sanshain.Data Sanshain.Domain Sanshain.Application Sanshain.Document

section AsyncSurface

/-- A payload schema has a property at the end of some steps. -/
inductive PayloadProperty (root : Value) : Value → List SchemaStep → Prop
  | here {node schema reference : Value} {name : String} {properties : Mapping}
      (means : Denotes root node schema)
      (object : (schema.get? "properties").bind Value.asObject = some properties)
      (found : properties.get? name = some reference) :
      PayloadProperty root node [.property name]
  | inside {node schema child : Value} {name : String} {properties : Mapping}
      {steps : List SchemaStep} (means : Denotes root node schema)
      (object : (schema.get? "properties").bind Value.asObject = some properties)
      (found : properties.get? name = some child) (rest : PayloadProperty root child steps) :
      PayloadProperty root node (.property name :: steps)
  | item {node schema child : Value} {steps : List SchemaStep} (means : Denotes root node schema)
      (found : schema.get? "items" = some child) (rest : PayloadProperty root child steps) :
      PayloadProperty root node (.items :: steps)

/-- A document declares a message under its key. -/
def DeclaresMessage (root : Value) (key : String) : Prop :=
  ∃ node, (AsyncApiDocument.collectMessages root).get? key = some node

/-- The payload of a message has a property. -/
def DeclaresField (root : Value) (key : String) (steps : List SchemaStep) : Prop :=
  ∃ node message payload, (AsyncApiDocument.collectMessages root).get? key = some node ∧
    Denotes root node message ∧ message.get? "payload" = some payload ∧
    PayloadProperty root payload steps

end AsyncSurface

section Surfaces

variable (external : External)

/-- The endpoints that the new list has beside those of the old one. -/
def insertedEndpoints (old new : List OpenApiDocument.EndpointSpec) :
    List OpenApiDocument.EndpointSpec :=
  new.filter fun endpoint =>
    !old.any fun stored => endpointSpecKey stored = endpointSpecKey endpoint

/-- The new document declares what the old one does not, apart from endpoints: response codes,
parameters, schemas and schema properties (OpenAPI), messages and their fields (the others). -/
def DeclaresMore (apiType : ApiType) (old new : String) : Prop :=
  match apiType with
  | .openApi => ∃ before after declaration, external.parseOpenApi old = .ok before ∧
      external.parseOpenApi new = .ok after ∧
      OpenApiDocument.Declares external after declaration ∧
      ¬OpenApiDocument.Declares external before declaration
  | .asyncApi => ∃ before after, external.parseValue old = .ok before ∧
      external.parseValue new = .ok after ∧
      ((∃ key, DeclaresMessage after.root key ∧ ¬DeclaresMessage before.root key) ∨
        ∃ key steps, DeclaresField after.root key steps ∧ ¬DeclaresField before.root key steps)
  | .proto =>
      (∃ name ∈ (ProtoDocument.parseMessages external new).keys,
        name ∉ (ProtoDocument.parseMessages external old).keys) ∨
      ∃ name message field, (ProtoDocument.parseMessages external new).get? name = some message ∧
        field ∈ message.fields.keys ∧
        ∀ before, (ProtoDocument.parseMessages external old).get? name = some before →
          field ∉ before.fields.keys

/-- The places where the OpenAPI scan looks: paths, methods and response codes of the same path,
named schemas given in place, and the properties directly inside those. -/
def ScanSees (apiType : ApiType) (old new : String) : Prop :=
  apiType = .openApi ∧ ∃ before after, external.parseOpenApi old = .ok before ∧
    external.parseOpenApi new = .ok after ∧ OpenApiDocument.hasAdditions before after = true

end Surfaces

section Classification

variable {external : External} {apiType : ApiType} {old new : String} {inserts : ℕ}

theorem classifyChange_refused {reason : String}
    (refused : checkCompatibility external apiType old new = .refuse reason) :
    classifyChange external apiType old new inserts = some .major := by
  unfold classifyChange
  rw [refused]

theorem classifyChange_endless (endless : checkCompatibility external apiType old new = .endless) :
    classifyChange external apiType old new inserts = none := by
  unfold classifyChange
  rw [endless]

/-- An accepted change is minor when an endpoint was counted or the scan sees an addition, and a
patch otherwise. -/
theorem classifyChange_accepted (accepted : checkCompatibility external apiType old new = .pass)
    (minor : Prop) [Decidable minor]
    (minor_iff : minor ↔ 0 < inserts ∨ ScanSees external apiType old new) :
    classifyChange external apiType old new inserts = some (if minor then .minor else .patch) := by
  unfold classifyChange
  rw [accepted]
  dsimp only
  cases apiType with
  | openApi =>
      have passed : OpenApiDocument.checkBackwardCompatibility external old new = .pass := accepted
      cases readOld : external.parseOpenApi old with
      | error reason => simp [OpenApiDocument.checkBackwardCompatibility, readOld] at passed
      | ok before =>
          cases readNew : external.parseOpenApi new with
          | error reason =>
              simp [OpenApiDocument.checkBackwardCompatibility, readOld, readNew] at passed
          | ok after =>
              rw [OpenApiDocument.checkBackwardCompatibility, readOld] at passed
              simp only [readNew] at passed
              have sees : ScanSees external .openApi old new ↔
                  OpenApiDocument.hasAdditions before after = true := by
                simp [ScanSees, readOld, readNew]
              rw [sees] at minor_iff
              unfold OpenApiDocument.analyzeImpact
              rw [readOld, readNew]
              dsimp only
              rw [passed]
              cases additions : OpenApiDocument.hasAdditions before after with
              | true =>
                  have holds : minor := minor_iff.mpr (.inr additions)
                  by_cases some : 0 < inserts <;> simp [holds, some, Impact.max] <;> decide
              | false =>
                  have only : minor ↔ 0 < inserts := by simpa [additions] using minor_iff
                  by_cases some : 0 < inserts <;> simp [only, some, Impact.max] <;> decide
  | asyncApi =>
      have unseen : ¬ScanSees external .asyncApi old new := fun sees => nomatch sees.1
      have only : minor ↔ 0 < inserts := by simpa [unseen] using minor_iff
      by_cases some : 0 < inserts <;> simp [only, some]
  | proto =>
      have unseen : ¬ScanSees external .proto old new := fun sees => nomatch sees.1
      have only : minor ↔ 0 < inserts := by simpa [unseen] using minor_iff
      by_cases some : 0 < inserts <;> simp [only, some]

/-- The classification of a change between two documents that are read means what it says: major for
a refused one, at least minor for an accepted one that declares more, and a patch for any other. -/
def ClassifiedHonestly (external : External) (apiType : ApiType) (old new : String) : Prop :=
  ∀ oldEndpoints newEndpoints, parseSpecEndpoints external apiType old = .ok oldEndpoints →
    parseSpecEndpoints external apiType new = .ok newEndpoints →
    let inserted := insertedEndpoints oldEndpoints newEndpoints
    let classified := classifyChange external apiType old new inserted.length
    (classified = some .major ↔
      ∃ reason, checkCompatibility external apiType old new = .refuse reason) ∧
    (checkCompatibility external apiType old new = .pass →
      (inserted ≠ [] ∨ DeclaresMore external apiType old new →
        ∃ impact, classified = some impact ∧ Impact.minor.rank ≤ impact.rank) ∧
      (¬(inserted ≠ [] ∨ DeclaresMore external apiType old new) → classified = some .patch))

end Classification

section NewField

def orderMessage (properties : Mapping) : Value :=
  .object [("name", .string "OrderPlaced"),
    ("payload", .object [("type", .string "object"), ("properties", .object properties)])]

/-- A 2.x document that publishes one message with these payload properties. -/
def orderPayload (properties : Mapping) : Value :=
  .object [("asyncapi", .string "2.6.0"), ("channels", .object [("orders",
    .object [("publish", .object [("message", orderMessage properties)])])])]

def stringType : Value := .object [("type", .string "string")]

def idPayload : ParsedDocument where
  root := orderPayload [("id", stringType)]
  formed := by simp [orderPayload, orderMessage, stringType, Value.WellFormed, Value.WellFormedEntries]

def notePayload : ParsedDocument where
  root := orderPayload [("id", stringType), ("note", stringType)]
  formed := by simp [orderPayload, orderMessage, stringType, Value.WellFormed, Value.WellFormedEntries]

def payloadPlatform : External :=
  { asciiPlatform { documents := [("id", idPayload), ("note", notePayload)] } with
    writeValue := fun _ => .ok "snippet" }

def ordersPublished : OpenApiDocument.EndpointSpec := ⟨"orders", "orders", "PUB", "snippet", false⟩

end NewField
end Sanshain.Guarantees
