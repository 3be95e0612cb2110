import Sanshain.Document.OpenApiCompat

namespace Sanshain.Document

open Sanshain.Data Sanshain.Domain Sanshain.Text

/-- One level down a schema. -/
inductive SchemaStep where
  | property (name : String)
  | items
  deriving DecidableEq, Repr

namespace OpenApiDocument

section Resolution

/-- The node that a reference stands for, through any number of aliases among the components of its
kind. -/
inductive AliasMeans {Node : Type} (start : String) (find : String → Option (ReferenceOr Node)) :
    ReferenceOr Node → Node → Prop
  | item (node : Node) : AliasMeans start find (.item node) node
  | reference {target name : String} {next : ReferenceOr Node} {node : Node}
      (points : stripPrefix start target = some name) (found : find name = some next)
      (rest : AliasMeans start find next node) : AliasMeans start find (.reference target) node

variable (document : OpenApi)

def schemaNamed (name : String) : Option (ReferenceOr Schema) :=
  document.components.bind fun components => components.schemas.get? name

def SchemaMeans : ReferenceOr Schema → Schema → Prop :=
  AliasMeans "#/components/schemas/" (schemaNamed document)

def ParameterMeans : ReferenceOr Parameter → Parameter → Prop :=
  AliasMeans "#/components/parameters/" fun name =>
    document.components.bind fun components => components.parameters.get? name

def BodyMeans : ReferenceOr RequestBody → RequestBody → Prop :=
  AliasMeans "#/components/requestBodies/" fun name =>
    document.components.bind fun components => components.requestBodies.get? name

def ResponseMeans : ReferenceOr Response → Response → Prop :=
  AliasMeans "#/components/responses/" fun name =>
    document.components.bind fun components => components.responses.get? name

end Resolution

section Positions

/-- Where an operation or the components of a document hold a schema. -/
inductive SchemaRoot where
  | named (name : String)
  | parameter (path : String) (method : Method) (location : ParameterLocation) (name : String)
  | body (path : String) (method : Method) (mediaType : String)
  | response (path : String) (method : Method) (status : StatusCode) (mediaType : String)

variable (external : External) (document : OpenApi)

/-- A parameter of an operation, under its location and name. -/
def HasParameter (path : String) (method : Method) (key : ParameterLocation × String)
    (parameter : Parameter) : Prop :=
  ∃ item operation reference, document.paths.get? path = some (.item item) ∧
    item.operation method = some operation ∧
    reference ∈ item.parameters ++ operation.parameters ∧
    ParameterMeans document reference parameter ∧ parameterKey external parameter = key

def HasResponse (path : String) (method : Method) (status : StatusCode)
    (reference : ReferenceOr Response) : Prop :=
  ∃ item operation, document.paths.get? path = some (.item item) ∧
    item.operation method = some operation ∧
    Entries.get? operation.responses status = some reference

/-- The schema that a document holds at a root. -/
def RootMeans : SchemaRoot → Schema → Prop
  | .named name, schema => ∃ reference, schemaNamed document name = some reference ∧
      SchemaMeans document reference schema
  | .parameter path method location name, schema => ∃ parameter reference,
      HasParameter external document path method (location, name) parameter ∧
      parameter.schema = some reference ∧ SchemaMeans document reference schema
  | .body path method mediaType, schema => ∃ item operation bodyRef body media reference,
      document.paths.get? path = some (.item item) ∧ item.operation method = some operation ∧
      operation.requestBody = some bodyRef ∧ BodyMeans document bodyRef body ∧
      Entries.get? body.content mediaType = some media ∧ media.schema = some reference ∧
      SchemaMeans document reference schema
  | .response path method status mediaType, schema => ∃ responseRef response media reference,
      HasResponse document path method status responseRef ∧
      ResponseMeans document responseRef response ∧
      Entries.get? response.content mediaType = some media ∧ media.schema = some reference ∧
      SchemaMeans document reference schema

/-- A schema has a property at the end of some steps. -/
inductive HasProperty : Schema → List SchemaStep → Prop
  | here {schema : Schema} {properties : Entries String (ReferenceOr Schema)} {name : String}
      {reference : ReferenceOr Schema} (object : extractObjectProperties schema = some properties)
      (found : Entries.get? properties name = some reference) :
      HasProperty schema [.property name]
  | inside {schema child : Schema} {properties : Entries String (ReferenceOr Schema)} {name : String}
      {reference : ReferenceOr Schema} {steps : List SchemaStep}
      (object : extractObjectProperties schema = some properties)
      (found : Entries.get? properties name = some reference)
      (means : SchemaMeans document reference child) (rest : HasProperty child steps) :
      HasProperty schema (.property name :: steps)
  | item {reference : ReferenceOr Schema} {deprecated : Bool} {unread : Value} {child : Schema}
      {steps : List SchemaStep} (means : SchemaMeans document reference child)
      (rest : HasProperty child steps) :
      HasProperty (.array (some reference) deprecated unread) (.items :: steps)

/-- A root under the path that its endpoint is looked up by. -/
def SchemaRoot.normalized : SchemaRoot → SchemaRoot
  | .named name => .named name
  | .parameter path method location name => .parameter (normalizePath path) method location name
  | .body path method mediaType => .body (normalizePath path) method mediaType
  | .response path method status mediaType => .response (normalizePath path) method status mediaType

/-- What the surface of a document declares, under normalized paths. -/
inductive Declaration where
  | response (path : String) (method : Method) (status : StatusCode)
  | parameter (path : String) (method : Method) (key : ParameterLocation × String)
  | schema (name : String)
  | property (root : SchemaRoot) (steps : List SchemaStep)

def Declares : Declaration → Prop
  | .response path method status => ∃ spelled reference, normalizePath spelled = path ∧
      HasResponse document spelled method status reference
  | .parameter path method key => ∃ spelled parameter, normalizePath spelled = path ∧
      HasParameter external document spelled method key parameter
  | .schema name => ∃ reference, schemaNamed document name = some reference
  | .property root steps => ∃ spelled schema, SchemaRoot.normalized spelled = root ∧
      RootMeans external document spelled schema ∧ HasProperty document schema steps

end Positions
end OpenApiDocument
end Sanshain.Document
