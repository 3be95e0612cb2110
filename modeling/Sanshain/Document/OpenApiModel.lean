import Sanshain.Document.Value
import Sanshain.Domain.Models

namespace Sanshain.Document

open Sanshain.Data Sanshain.Domain

/-- A node given in place or by reference. -/
inductive ReferenceOr (Node : Type) where
  | reference (target : String)
  | item (node : Node)

inductive ScalarType where
  | string
  | number
  | integer
  | boolean
  deriving DecidableEq, Repr

/-- A schema; an enumeration lists the JSON literals of its values, and what no check reads
is carried along unread. The last form is a composition or a schema without a type, which may
still declare properties, items or an enumeration. -/
inductive Schema where
  | scalar (type : ScalarType) (enumeration : List String) (deprecated : Bool) (rest : Value)
  | array (items : Option (ReferenceOr Schema)) (deprecated : Bool) (rest : Value)
  | object (properties : List (String × ReferenceOr Schema)) (required : List String)
      (deprecated : Bool) (rest : Value)
  | other (properties : List (String × ReferenceOr Schema)) (required : List String)
      (items : Option (ReferenceOr Schema)) (enumeration : List String) (deprecated : Bool)
      (rest : Value)

inductive ParameterLocation where
  | query
  | header
  | path
  | cookie
  deriving DecidableEq, Repr

def ParameterLocation.asStr : ParameterLocation → String
  | .query => "query"
  | .header => "header"
  | .path => "path"
  | .cookie => "cookie"

structure MediaType where
  schema : Option (ReferenceOr Schema)
  rest : Value

structure Parameter where
  location : ParameterLocation
  name : String
  required : Bool
  deprecated : Option Bool
  /-- The schema, unless the parameter is described by content. -/
  schema : Option (ReferenceOr Schema)
  /-- The media types of a parameter that is described by content. -/
  content : Entries String MediaType
  rest : Value

structure RequestBody where
  content : Entries String MediaType
  rest : Value

structure Response where
  content : Entries String MediaType
  rest : Value

inductive StatusCode where
  | code (number : Nat)
  | range (hundreds : Nat)
  deriving DecidableEq, Repr

structure Operation where
  deprecated : Bool
  parameters : List (ReferenceOr Parameter)
  requestBody : Option (ReferenceOr RequestBody)
  responses : Entries StatusCode (ReferenceOr Response)
  defaultResponse : Option (ReferenceOr Response)
  rest : Value

/-- The operations a path item may have, in the order they are listed. -/
inductive Method where
  | get
  | post
  | put
  | delete
  | options
  | head
  | patch
  | trace
  deriving DecidableEq, Repr

def Method.all : List Method := [.get, .post, .put, .delete, .options, .head, .patch, .trace]

def Method.upper : Method → String
  | .get => "GET"
  | .post => "POST"
  | .put => "PUT"
  | .delete => "DELETE"
  | .options => "OPTIONS"
  | .head => "HEAD"
  | .patch => "PATCH"
  | .trace => "TRACE"

theorem Method.mem_all (method : Method) : method ∈ Method.all := by cases method <;> decide

theorem Method.all_nodup : Method.all.Nodup := by decide

theorem Method.upper_injective : Function.Injective Method.upper := by
  intro first second same
  cases first <;> cases second <;> first | rfl | exact absurd same (by decide)

structure PathItem where
  operation : Method → Option Operation
  parameters : List (ReferenceOr Parameter)
  rest : Value

structure Components where
  schemas : IndexMap String (ReferenceOr Schema)
  responses : IndexMap String (ReferenceOr Response)
  parameters : IndexMap String (ReferenceOr Parameter)
  requestBodies : IndexMap String (ReferenceOr RequestBody)
  /-- The parts no check reads, by category: examples, headers, security schemes, links, callbacks. -/
  others : String → IndexMap String Value

structure OpenApi where
  openapi : String
  info : Value
  servers : Value
  paths : IndexMap String (ReferenceOr PathItem)
  components : Option Components
  rest : Value

/-- The parts of a document that are searched for references. -/
inductive DocumentNode where
  | paths (paths : IndexMap String (ReferenceOr PathItem))
  | schemaRef (schema : ReferenceOr Schema)
  | schema (schema : Schema)
  | responseRef (response : ReferenceOr Response)
  | parameterRef (parameter : ReferenceOr Parameter)
  | requestBodyRef (body : ReferenceOr RequestBody)
  | other (node : Value)

/-- The platform below the document code: the YAML and JSON readers and writers, the digest,
and the Unicode tables. -/
structure External where
  sha256Hex : String → String
  toUppercase : String → String
  toLowercase : String → String
  isWord : Char → Bool
  isDigit : Char → Bool
  /-- The reader's verdict on an untyped document. -/
  parseValue : String → Except String ParsedDocument
  writeValue : Value → Except String String
  parseOpenApi : String → Except String OpenApi
  writeOpenApi : OpenApi → Except String String
  /-- The reader of nothing but an optional `info.version`. -/
  parseInfoVersion : String → Except String (Option String)
  toJson : DocumentNode → Option Value

end Sanshain.Document
