import Sanshain.Document.Surface

namespace Sanshain.Document.OpenApiDocument

open Sanshain.Data Sanshain.Domain Sanshain.Text

section Declared

def declaredProperties : Schema → Entries String (ReferenceOr Schema)
  | .object properties .. => properties
  | .other properties .. => properties
  | _ => []

def declaredRequired : Schema → List String
  | .object _ required .. => required
  | .other _ required .. => required
  | _ => []

def declaredItems : Schema → Option (ReferenceOr Schema)
  | .array items .. => items
  | .other _ _ items .. => items
  | _ => none

def declaredEnum : Schema → List String
  | .scalar _ enumeration .. => enumeration
  | .other _ _ _ enumeration .. => enumeration
  | _ => []

/-- A schema of one of the plain types. -/
def isPlain : Schema → Bool
  | .other .. => false
  | _ => true

/-- The new schema at a position keeps what was written against the old one. -/
structure Keeps (isRequest : Bool) (old new : Schema) : Prop where
  properties : ∀ name reference, Entries.get? (declaredProperties old) name = some reference →
    propertyDeprecated reference = false → (Entries.get? (declaredProperties new) name).isSome
  type : isPlain old → isPlain new → describeSchemaType old = describeSchemaType new
  required : isRequest = true → ∀ name ∈ declaredRequired new, name ∈ declaredRequired old
  enumeration : isRequest = true → declaredEnum new ≠ [] →
    declaredEnum old ≠ [] ∧ ∀ value ∈ declaredEnum old, value ∈ declaredEnum new

/-- A response position asks less than a request position. -/
theorem Keeps.of_request {isRequest checked : Bool} {old new : Schema} (keeps : Keeps checked old new)
    (atLeast : isRequest = true → checked = true) : Keeps isRequest old new where
  properties := keeps.properties
  type := keeps.type
  required request := keeps.required (atLeast request)
  enumeration request := keeps.enumeration (atLeast request)

end Declared

section Places

/-- Where an operation holds a schema; a response without a status is the default one. -/
inductive OperationPlace where
  | parameter (key : ParameterLocation × String)
  | parameterContent (key : ParameterLocation × String) (mediaType : String)
  | body (mediaType : String)
  | response (status : Option StatusCode) (mediaType : String)

def OperationPlace.isRequest : OperationPlace → Bool
  | .response .. => false
  | _ => true

def ReferenceOr.isItem {Node : Type} : ReferenceOr Node → Bool
  | .item _ => true
  | .reference _ => false

def responseAt (operation : Operation) : Option StatusCode → Option (ReferenceOr Response)
  | some status => Entries.get? operation.responses status
  | none => operation.defaultResponse

def ContentHolds (content : Entries String MediaType) (mediaType : String)
    (schema : ReferenceOr Schema) : Prop :=
  ∃ media, Entries.get? content mediaType = some media ∧ media.schema = some schema

variable (external : External) (document : OpenApi) (item : PathItem) (operation : Operation)

/-- The parameter an operation takes under a key: the last one given for it, since the
operation's own come after those of the path item. -/
def TakesParameter (key : ParameterLocation × String) (given : ReferenceOr Parameter)
    (parameter : Parameter) : Prop :=
  ∃ before after, item.parameters ++ operation.parameters = before ++ given :: after ∧
    ParameterMeans document given parameter ∧ parameterKey external parameter = key ∧
    ∀ other ∈ after, ∀ later, ParameterMeans document other later → parameterKey external later ≠ key

/-- An operation holds a schema at a place that the comparison looks at or not. It looks at
parameters described by a schema, given in place or by one reference, and at request bodies and
responses with a status that are given in place. -/
def PlaceHolds : OperationPlace → Bool → ReferenceOr Schema → Prop
  | .parameter key, looked, schema => ∃ given parameter,
      TakesParameter external document item operation key given parameter ∧
      parameter.schema = some schema ∧ looked = (resolveParameter document given).isSome
  | .parameterContent key mediaType, looked, schema => ∃ given parameter,
      TakesParameter external document item operation key given parameter ∧
      ContentHolds parameter.content mediaType schema ∧ looked = false
  | .body mediaType, looked, schema => ∃ given body, operation.requestBody = some given ∧
      BodyMeans document given body ∧ ContentHolds body.content mediaType schema ∧
      looked = ReferenceOr.isItem given
  | .response status mediaType, looked, schema => ∃ given response,
      responseAt operation status = some given ∧ ResponseMeans document given response ∧
      ContentHolds response.content mediaType schema ∧
      looked = (status.isSome && ReferenceOr.isItem given)

end Places

section Positions

variable (external : External) (old new : OpenApi)

/-- A schema is given in place or by a reference to one that is. -/
def oneStep (document : OpenApi) (reference : ReferenceOr Schema) : Bool :=
  (resolveSchema document reference).isSome

/-- The component a reference names is compared as part of a request. -/
def comparedAsRequest (target : String) : Bool :=
  (stripPrefix "#/components/schemas/" target).any (· ∈ collectRequestSchemas external new)

/-- The comparison of two schemas extends to a property or the items of both: compositions and
schemas without a type stop it, and two references leave it to the comparison of the components by
name, which at a request position must be among those compared as part of a request. -/
def extendsTo (isRequest : Bool) (oldSchema newSchema : Schema) (oldInside newInside : ReferenceOr Schema) :
    Bool :=
  isPlain oldSchema && isPlain newSchema && oneStep old oldInside && oneStep new newInside &&
    match oldInside, newInside with
    | .reference _, .reference target => !isRequest || comparedAsRequest external new target
    | _, _ => true

/-- Two schemas stand at one position of an operation that both documents have. The first flag
tells whether the comparison came all the way to it, the second whether it belongs to a request. -/
inductive Position : Bool → Bool → Schema → Schema → Prop
  | root {path : String} {method : Method} {oldItem newItem : PathItem} {oldOp newOp : Operation}
      {place : OperationPlace} {oldLooked newLooked : Bool} {oldRef newRef : ReferenceOr Schema}
      {oldSchema newSchema : Schema}
      (oldPath : old.paths.get? path = some (.item oldItem))
      (newPath : new.paths.get? path = some (.item newItem))
      (oldMethod : oldItem.operation method = some oldOp)
      (newMethod : newItem.operation method = some newOp)
      (oldHolds : PlaceHolds external old oldItem oldOp place oldLooked oldRef)
      (newHolds : PlaceHolds external new newItem newOp place newLooked newRef)
      (oldMeans : SchemaMeans old oldRef oldSchema) (newMeans : SchemaMeans new newRef newSchema) :
      Position (oldLooked && newLooked && oneStep old oldRef && oneStep new newRef) place.isRequest
        oldSchema newSchema
  | property {compared isRequest : Bool} {oldSchema newSchema oldChild newChild : Schema}
      {name : String} {oldInside newInside : ReferenceOr Schema}
      (above : Position compared isRequest oldSchema newSchema)
      (oldHas : Entries.get? (declaredProperties oldSchema) name = some oldInside)
      (newHas : Entries.get? (declaredProperties newSchema) name = some newInside)
      (oldMeans : SchemaMeans old oldInside oldChild) (newMeans : SchemaMeans new newInside newChild) :
      Position (compared && extendsTo external old new isRequest oldSchema newSchema oldInside newInside)
        isRequest oldChild newChild
  | items {compared isRequest : Bool} {oldSchema newSchema oldChild newChild : Schema}
      {oldInside newInside : ReferenceOr Schema}
      (above : Position compared isRequest oldSchema newSchema)
      (oldHas : declaredItems oldSchema = some oldInside)
      (newHas : declaredItems newSchema = some newInside)
      (oldMeans : SchemaMeans old oldInside oldChild) (newMeans : SchemaMeans new newInside newChild) :
      Position (compared && extendsTo external old new isRequest oldSchema newSchema oldInside newInside)
        isRequest oldChild newChild

end Positions
end Sanshain.Document.OpenApiDocument
