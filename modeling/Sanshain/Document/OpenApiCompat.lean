import Sanshain.Document.OpenApi

namespace Sanshain.Document.OpenApiDocument

open Sanshain.Data Sanshain.Domain Sanshain.Text

section Schemas

/-- The named schemas of a document that are given in place. -/
def collectSchemaMap (document : OpenApi) : Entries String Schema :=
  match document.components with
  | none => []
  | some components => components.schemas.entries.filterMap fun entry =>
      match entry.2 with
      | .item schema => some (entry.1, schema)
      | .reference _ => none

/-- The schema a `#/components/schemas/…` reference points at. -/
def componentSchema (document : OpenApi) (target : String) : Option Schema :=
  (stripPrefix "#/components/schemas/" target).bind fun name =>
    document.components.bind fun components =>
      match components.schemas.get? name with
      | some (.item schema) => some schema
      | _ => none

def resolveSchema (document : OpenApi) : ReferenceOr Schema → Option Schema
  | .item schema => some schema
  | .reference target => componentSchema document target

def describeSchemaType : Schema → String
  | .scalar .string _ _ _ => "string"
  | .scalar .number _ _ _ => "number"
  | .scalar .integer _ _ _ => "integer"
  | .scalar .boolean _ _ _ => "boolean"
  | .array _ _ _ => "array"
  | .object _ _ _ _ => "object"
  | .other .. => "unknown"

def describeBoxedRef : ReferenceOr Schema → String
  | .item schema => describeSchemaType schema
  | .reference target => target

def Schema.deprecated : Schema → Bool
  | .scalar _ _ deprecated _ => deprecated
  | .array _ deprecated _ => deprecated
  | .object _ _ deprecated _ => deprecated
  | .other _ _ _ _ deprecated _ => deprecated

/-- A property given by reference does not count as deprecated. -/
def propertyDeprecated : ReferenceOr Schema → Bool
  | .item schema => Schema.deprecated schema
  | .reference _ => false

def extractObjectProperties : Schema → Option (Entries String (ReferenceOr Schema))
  | .object properties _ _ _ => some properties
  | _ => none

def extractRequiredFields : Schema → List String
  | .object _ required _ _ => required
  | _ => []

/-- The enumeration of a scalar schema, or none when it has no restriction. -/
def enumValues : Schema → Option (List String)
  | .scalar _ enumeration _ _ => if enumeration.isEmpty then none else some (sortedSet enumeration)
  | _ => none

/-- A request value that was accepted must still be accepted. -/
def checkEnumNotNarrowed (name : String) (old new : Schema) : Verdict :=
  match enumValues old, enumValues new with
  | none, some _ => .refuse s!"Request schema '{name}' was restricted to an enum"
  | some oldValues, some newValues =>
      match oldValues.filter (· ∉ newValues) with
      | removed :: _ => .refuse s!"Enum value {removed} was removed from request schema '{name}'"
      | [] => .pass
  | _, _ => .pass

/-- Two inline schemas are compared on their own, two references must agree, and a mix is
compared by shape. -/
def checkSubschemaCompatible (specs : OpenApi × OpenApi)
    (compare : String → Schema → Schema → Bool → Verdict) (name : String)
    (old new : ReferenceOr Schema) (isRequest : Bool) (typeChanged : String → String → String) :
    Verdict :=
  let oldType := describeBoxedRef old
  let newType := describeBoxedRef new
  match old, new with
  | .item oldSchema, .item newSchema =>
      if oldType ≠ newType ∧ oldType ≠ "unknown" ∧ newType ≠ "unknown" then
        .refuse (typeChanged oldType newType)
      else compare name oldSchema newSchema isRequest
  | .reference _, .reference _ =>
      if oldType = newType then .pass else .refuse (typeChanged oldType newType)
  | _, _ =>
      match resolveSchema specs.1 old, resolveSchema specs.2 new with
      | some oldSchema, some newSchema => compare name oldSchema newSchema isRequest
      | _, _ => .refuse (typeChanged oldType newType)

/-- No property is lost, no request field becomes required, and every kept property compares. -/
def checkProperties (specs : OpenApi × OpenApi)
    (compare : String → Schema → Schema → Bool → Verdict) (name : String)
    (oldProps newProps : Entries String (ReferenceOr Schema)) (oldRequired newRequired : List String)
    (isRequest : Bool) : Verdict :=
  (Verdict.all (fun prop =>
    if (Entries.get? newProps prop.1).isNone && !propertyDeprecated prop.2 then
      .refuse s!"Property '{prop.1}' was removed from schema '{name}'"
    else .pass) oldProps).andThen <|
  (Verdict.all (fun req =>
    if isRequest && req ∉ oldRequired then
      .refuse s!"New required field '{req}' was added to request schema '{name}'"
    else .pass) newRequired).andThen <|
  Verdict.all (fun prop =>
    match Entries.get? newProps prop.1 with
    | none => .pass
    | some newProp =>
        checkSubschemaCompatible specs compare (name ++ "." ++ prop.1) prop.2 newProp isRequest
          fun oldType newType =>
            s!"Property '{prop.1}' in schema '{name}' changed type from '{oldType}' to '{newType}'")
    oldProps

/-- The first breaking change from one schema to another; without fuel the walk has gone round
a cycle of references. -/
def checkSchemaCompatible (specs : OpenApi × OpenApi) :
    Nat → String → Schema → Schema → Bool → Verdict
  | 0, _, _, _, _ => .endless
  | fuel + 1, name, old, new, isRequest =>
      let oldType := describeSchemaType old
      let newType := describeSchemaType new
      if oldType ≠ newType ∧ oldType ≠ "unknown" ∧ newType ≠ "unknown" then
        .refuse s!"Schema '{name}' changed type from '{oldType}' to '{newType}'"
      else
        (if isRequest then checkEnumNotNarrowed name old new else .pass).andThen <|
        (match extractObjectProperties old, extractObjectProperties new with
          | some oldProps, some newProps =>
              checkProperties specs (checkSchemaCompatible specs fuel) name oldProps newProps
                (extractRequiredFields old) (extractRequiredFields new) isRequest
          | _, _ => .pass).andThen <|
        match old, new with
        | .array (some oldItems) _ _, .array (some newItems) _ _ =>
            checkSubschemaCompatible specs (checkSchemaCompatible specs fuel) (name ++ "[]")
              oldItems newItems isRequest fun oldType newType =>
                s!"Schema '{name}[]' changed type from '{oldType}' to '{newType}'"
        | _, _ => .pass

mutual

/-- How many schemas a schema holds, itself included. -/
def schemaCount : Schema → Nat
  | .array (some (.item items)) _ _ => schemaCount items + 1
  | .object properties _ _ _ => schemaCountProperties properties + 1
  | _ => 1

def schemaCountProperties : List (String × ReferenceOr Schema) → Nat
  | [] => 0
  | (_, .item schema) :: rest => schemaCount schema + schemaCountProperties rest
  | (_, .reference _) :: rest => schemaCountProperties rest

end

def schemaCountNamed (document : OpenApi) : Nat :=
  ((collectSchemaMap document).map fun entry => schemaCount entry.2).sum

/-- A walk deeper than this compares some pair of schemas inside itself, and then never ends. -/
def walkBound (old new : OpenApi) (oldSchema newSchema : Schema) : Nat :=
  (schemaCountNamed old + schemaCount oldSchema) * (schemaCountNamed new + schemaCount newSchema) + 1

def checkSchema (old new : OpenApi) (name : String) (oldSchema newSchema : Schema)
    (isRequest : Bool) : Verdict :=
  checkSchemaCompatible (old, new) (walkBound old new oldSchema newSchema) name oldSchema newSchema
    isRequest

end Schemas

section RequestSchemas

def schemaNames (refs : List String) : List String := refs.filterMap (stripPrefix "schemas/")

/-- The schemas that request bodies refer to. -/
def requestSchemaRoots (external : External) (document : OpenApi) : List String :=
  (operationsOf document).flatMap fun found =>
    match found.2.2.requestBody with
    | some body => schemaNames (collectRefs external (.requestBodyRef body))
    | none => []

/-- One round of the closure adds what the schemas so far refer to. -/
def requestSchemaRound (external : External) (document : OpenApi) (names : List String) :
    List String :=
  names.flatMap fun name =>
    match document.components.bind fun components => components.schemas.get? name with
    | some (.item schema) =>
        (schemaNames (collectRefs external (.schema schema))).filter (· ∉ names)
    | _ => []

def closeRequestSchemas (external : External) (document : OpenApi) : Nat → List String → List String
  | 0, names => names
  | fuel + 1, names =>
      match requestSchemaRound external document names with
      | [] => names
      | added => closeRequestSchemas external document fuel (names ++ added)

/-- Only a schema given in place can add names, so the rounds are at most one more than those. -/
def collectRequestSchemas (external : External) (document : OpenApi) : List String :=
  closeRequestSchemas external document ((collectSchemaMap document).length + 2)
    (requestSchemaRoots external document)

end RequestSchemas

section Operations

def resolveParameter (document : OpenApi) : ReferenceOr Parameter → Option Parameter
  | .item parameter => some parameter
  | .reference target =>
      (stripPrefix "#/components/parameters/" target).bind fun name =>
        document.components.bind fun components =>
          match components.parameters.get? name with
          | some (.item parameter) => some parameter
          | _ => none

/-- Header names are compared without regard to case. -/
def parameterKey (external : External) (parameter : Parameter) : ParameterLocation × String :=
  (parameter.location,
    if parameter.location = .header then external.toLowercase parameter.name else parameter.name)

abbrev ParameterMap := Entries (ParameterLocation × String) Parameter

/-- The parameters of the path item, overridden by the operation's own. -/
def collectParameters (external : External) (document : OpenApi) (item : PathItem)
    (operation : Operation) : ParameterMap :=
  Entries.insertAll [] <| ((item.parameters ++ operation.parameters).filterMap
    (resolveParameter document)).map fun parameter => (parameterKey external parameter, parameter)

def checkParameterKept (old new : OpenApi) (operation : String) (newParams : ParameterMap)
    (entry : (ParameterLocation × String) × Parameter) : Verdict :=
  let location := entry.1.1.asStr
  let name := entry.2.name
  match Entries.get? newParams entry.1 with
  | none =>
      if entry.2.deprecated.getD false || entry.1.1 = .path then .pass
      else .refuse s!"Parameter '{name}' ({location}) was removed from {operation}"
  | some newParam =>
      if newParam.required && !entry.2.required && entry.1.1 ≠ .path then
        .refuse s!"Parameter '{name}' ({location}) of {operation} became required"
      else
        match entry.2.schema.bind (resolveSchema old), newParam.schema.bind (resolveSchema new) with
        | some oldSchema, some newSchema =>
            checkSchema old new s!"{operation} {location} parameter {name}" oldSchema newSchema true
        | _, _ => .pass

def checkParameterAdded (operation : String) (oldParams : ParameterMap)
    (entry : (ParameterLocation × String) × Parameter) : Verdict :=
  if entry.2.required && entry.1.1 ≠ .path && (Entries.get? oldParams entry.1).isNone then
    .refuse s!"Required parameter '{entry.2.name}' ({entry.1.1.asStr}) was added to {operation}"
  else .pass

def checkParametersCompatible (operation : String) (oldParams newParams : ParameterMap)
    (old new : OpenApi) : Verdict :=
  (Verdict.all (checkParameterKept old new operation newParams) oldParams).andThen <|
    Verdict.all (checkParameterAdded operation oldParams) newParams

/-- The bodies of each media type both versions offer. -/
def checkContentCompatible (label : String) (old new : OpenApi)
    (oldContent newContent : Entries String MediaType) (isRequest : Bool) : Verdict :=
  Verdict.all (fun entry =>
    match (Entries.get? newContent entry.1).bind (·.schema) |>.bind (resolveSchema new),
        entry.2.schema.bind (resolveSchema old) with
    | some newSchema, some oldSchema =>
        checkSchema old new s!"{label} ({entry.1})" oldSchema newSchema isRequest
    | _, _ => .pass) oldContent

def formatStatus : StatusCode → String
  | .code number => toString number
  | .range hundreds => s!"{hundreds}XX"

def checkResponsesKept (operation : String) (old new : Operation) : Verdict :=
  Verdict.all (fun entry =>
    if (Entries.get? new.responses entry.1).isNone then
      .refuse s!"Response status '{formatStatus entry.1}' was removed from {operation}"
    else .pass) old.responses

def checkRequestBody (operation : String) (old new : OpenApi) (oldOp newOp : Operation) : Verdict :=
  match oldOp.requestBody, newOp.requestBody with
  | some (.item oldBody), some (.item newBody) =>
      checkContentCompatible s!"{operation} request body" old new oldBody.content newBody.content true
  | _, _ => .pass

def checkResponseBodies (operation : String) (old new : OpenApi) (oldOp newOp : Operation) :
    Verdict :=
  Verdict.all (fun entry =>
    match entry.2, Entries.get? newOp.responses entry.1 with
    | .item oldResponse, some (.item newResponse) =>
        checkContentCompatible s!"{operation} response {formatStatus entry.1}" old new
          oldResponse.content newResponse.content false
    | _, _ => .pass) oldOp.responses

def checkOperationCompatible (external : External) (path : String) (old : OpenApi)
    (oldItem : PathItem) (new : OpenApi) (newItem : PathItem) (found : Method × Operation) :
    Verdict :=
  match newItem.operation found.1 with
  | none =>
      if found.2.deprecated then .pass
      else .refuse s!"Method '{found.1.upper}' was removed from path '{path}'"
  | some newOp =>
      let operation := found.1.upper ++ " " ++ path
      (checkResponsesKept operation found.2 newOp).andThen <|
      (checkParametersCompatible operation (collectParameters external old oldItem found.2)
        (collectParameters external new newItem newOp) old new).andThen <|
      (checkRequestBody operation old new found.2 newOp).andThen <|
      checkResponseBodies operation old new found.2 newOp

def checkOperationsCompatible (external : External) (path : String) (old : OpenApi)
    (oldItem : PathItem) (new : OpenApi) (newItem : PathItem) : Verdict :=
  Verdict.all (checkOperationCompatible external path old oldItem new newItem) (getMethods oldItem)

/-- A path may go when all of its operations were deprecated. -/
def checkPathCompatible (external : External) (old new : OpenApi)
    (entry : String × ReferenceOr PathItem) : Verdict :=
  match entry.2 with
  | .reference _ => .pass
  | .item oldItem =>
      match new.paths.get? entry.1 with
      | some (.item newItem) => checkOperationsCompatible external entry.1 old oldItem new newItem
      | _ =>
          if (getMethods oldItem).all fun found => found.2.deprecated then .pass
          else .refuse s!"Path '{entry.1}' was removed"

def checkNamedSchema (external : External) (old new : OpenApi) (entry : String × Schema) : Verdict :=
  match Entries.get? (collectSchemaMap new) entry.1 with
  | none => .pass
  | some newSchema =>
      checkSchema old new entry.1 entry.2 newSchema
        (entry.1 ∈ collectRequestSchemas external new)

def checkOpenapiCompatible (external : External) (old new : OpenApi) : Verdict :=
  (Verdict.all (checkNamedSchema external old new) (collectSchemaMap old)).andThen <|
    Verdict.all (checkPathCompatible external old new) old.paths.entries

def checkBackwardCompatibility (external : External) (oldYaml newYaml : String) : Verdict :=
  match external.parseOpenApi oldYaml with
  | .error reason => .refuse s!"Failed to parse old YAML: {reason}"
  | .ok old =>
      match external.parseOpenApi newYaml with
      | .error reason => .refuse s!"Failed to parse new YAML: {reason}"
      | .ok new => checkOpenapiCompatible external old new

end Operations

section Impact

def hasNewMethodOrResponse (oldItem newItem : PathItem) : Bool :=
  (getMethods newItem).any fun found =>
    match oldItem.operation found.1 with
    | none => true
    | some oldOp => found.2.responses.any fun entry => (Entries.get? oldOp.responses entry.1).isNone

def hasAdditions (old new : OpenApi) : Bool :=
  (new.paths.entries.any fun entry => (old.paths.get? entry.1).isNone) ||
  (new.paths.entries.any fun entry =>
    match old.paths.get? entry.1, entry.2 with
    | some (.item oldItem), .item newItem => hasNewMethodOrResponse oldItem newItem
    | _, _ => false) ||
  ((collectSchemaMap new).any fun entry =>
    (Entries.get? (collectSchemaMap old) entry.1).isNone) ||
  ((collectSchemaMap old).any fun entry =>
    match extractObjectProperties entry.2,
        (Entries.get? (collectSchemaMap new) entry.1).bind extractObjectProperties with
    | some oldProps, some newProps =>
        newProps.any fun prop => (Entries.get? oldProps prop.1).isNone
    | _, _ => false)

/-- The impact of a change on the parsed surface, unless the comparison never ends. -/
def analyzeImpact (external : External) (oldYaml newYaml : String) : Option Impact :=
  match external.parseOpenApi oldYaml, external.parseOpenApi newYaml with
  | .ok old, .ok new =>
      match checkOpenapiCompatible external old new with
      | .endless => none
      | .refuse _ => some .major
      | .pass => some (if hasAdditions old new then .minor else .none)
  | _, _ => some .major

end Impact
end Sanshain.Document.OpenApiDocument
