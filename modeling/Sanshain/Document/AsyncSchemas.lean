import Sanshain.Data.Hoisting
import Sanshain.Document.AsyncApi

namespace Sanshain.Document.AsyncApiDocument

open Sanshain.Data Sanshain.Text

section Messages

/-- A message that a snippet keeps, the key an inline payload is named after, and where it was found. -/
structure KeptMessage where
  key : Option String
  node : Value
  location : String

/-- The text under `$ref`, when the node is a reference. -/
def refOf (node : Value) : Option String := (node.get? "$ref").bind Value.asStr

def unescaped (segment : String) : String := replace "~0" "~" (replace "~1" "/" segment)

def lastPointerSegment (pointer : String) : String :=
  unescaped (((split '/' pointer).getLast?).getD "")

def resolveLocalRef (root : Value) (reference location : String) : Except String Value :=
  if startsWith "#/" reference then
    match resolveJsonPointer root reference with
    | some node => .ok node
    | none => .error s!"{location}: $ref '{reference}' does not resolve"
  else .error s!"{location}: external $ref '{reference}' is not supported by format=openapi"

/-- References are followed for a bounded number of steps. -/
def derefWithin (root : Value) (location : String) : ℕ → Value → Except String Value
  | 0, _ => .error s!"{location}: $ref chain is too long or cyclic"
  | steps + 1, node =>
      match refOf node with
      | none => .ok node
      | some reference => do
          let next ← resolveLocalRef root reference location
          derefWithin root location steps next

def deref (root node : Value) (location : String) : Except String Value :=
  derefWithin root location 32 node

def keptVariantV2 (root : Value) (location : String) (variant : Value) :
    Except String KeptMessage := do
  let refKey := (refOf variant).map lastPointerSegment
  let node ← deref root variant location
  let ownKey := ((node.get? "messageId").or (node.get? "name")).bind Value.asStr
  .ok ⟨refKey.or ownKey, node, location⟩

def keptOperationV2 (root : Value) (entry : String × Value) (opKey : String) :
    Except String (List KeptMessage) :=
  match (entry.2.get? opKey).bind (·.get? "message") with
  | none => .ok []
  | some message =>
      let variants := ((message.get? "oneOf").bind Value.asArray).getD [message]
      variants.mapM (keptVariantV2 root s!"{entry.1} {opKey}")

def keptChannelV2 (root : Value) (entry : String × Value) : Except String (List KeptMessage) :=
  (["publish", "subscribe"].mapM (keptOperationV2 root entry)).map List.flatten

def keptMessagesV2 (root : Value) : Except String (List KeptMessage) :=
  (((channelsOf root).getD []).mapM (keptChannelV2 root)).map List.flatten

def keptReferenceV3 (root : Value) (location : String) (message : Value) :
    Except String KeptMessage :=
  (deref root message location).map fun node =>
    ⟨(refOf message).map lastPointerSegment, node, location⟩

def keptDeclaredV3 (root : Value) (opName : String) (entry : String × Value) :
    Except String KeptMessage :=
  let location := s!"operation {opName} message {entry.1}"
  (deref root entry.2 location).map fun node => ⟨some entry.1, node, location⟩

/-- The messages that an operation names, or else those of its channel. -/
def keptOperationV3 (root : Value) (entry : String × Value) : Except String (List KeptMessage) :=
  let location := s!"operation {entry.1}"
  match (entry.2.get? "messages").bind Value.asArray with
  | some references => references.mapM (keptReferenceV3 root location)
  | none =>
      match entry.2.get? "channel" with
      | none => .ok []
      | some channel => do
          let channel ← deref root channel location
          (((channel.get? "messages").bind Value.asObject).getD []).mapM
            (keptDeclaredV3 root entry.1)

def keptMessagesV3 (root : Value) : Except String (List KeptMessage) :=
  (((operationsOf root).getD []).mapM (keptOperationV3 root)).map List.flatten

def keptMessages (root : Value) : Except String (List KeptMessage) :=
  if isV3 root then keptMessagesV3 root else keptMessagesV2 root

end Messages

section Hoisting

def schemasPath : String := "#/components/schemas/"

def isAsyncapiSchemaFormat (format : String) : Bool :=
  startsWith "application/vnd.aai.asyncapi" format

def checkSchemaFormat (node : Value) (location : String) : Except String Unit :=
  match (node.get? "schemaFormat").bind Value.asStr with
  | some format =>
      if isAsyncapiSchemaFormat format then .ok ()
      else .error s!"{location}: payload schemaFormat '{format}' cannot be converted, format=openapi supports AsyncAPI schemas only"
  | none => .ok ()

/-- A component name has letters, digits, dots, underscores and hyphens. -/
def isComponentChar (c : Char) : Bool :=
  isAsciiAlphanumeric c || c = '.' || c = '_' || c = '-'

def componentName (key : String) : String :=
  String.ofList (key.toList.map fun c => if isComponentChar c then c else '_')

/-- The name and the schema of a reference, and the text that takes its place where one does. -/
def hoistRef (root : Value) (reference location : String) :
    Except String ((String × Value) × Option String) := do
  let target ← resolveLocalRef root reference location
  match stripPrefix schemasPath reference with
  | some rest =>
      let segment := ((split '/' rest).head?).getD ""
      let whole ← resolveLocalRef root (schemasPath ++ segment) location
      .ok ((unescaped segment, whole), none)
  | none =>
      let name := componentName (lastPointerSegment reference)
      .ok ((name, target), some (schemasPath ++ name))

mutual

/-- A node with its references rewritten, and every schema that it refers to. -/
def rewriteRefs (root : Value) (location : String) :
    Value → Except String (Value × List (String × Value))
  | .object entries =>
      match (Entries.get? entries "$ref").bind Value.asStr with
      | some reference => do
          let (target, moved) ← hoistRef root reference location
          let (rewritten, pending) ← rewriteEntries root location entries
          .ok (.object (match moved with
            | some text => Entries.insert rewritten "$ref" (.string text)
            | none => rewritten), target :: pending)
      | none => do
          let (rewritten, pending) ← rewriteEntries root location entries
          .ok (.object rewritten, pending)
  | .array items => do
      let (rewritten, pending) ← rewriteItems root location items
      .ok (.array rewritten, pending)
  | other => .ok (other, [])

def rewriteItems (root : Value) (location : String) :
    List Value → Except String (List Value × List (String × Value))
  | [] => .ok ([], [])
  | item :: rest => do
      let (first, pending) ← rewriteRefs root location item
      let (others, further) ← rewriteItems root location rest
      .ok (first :: others, pending ++ further)

/-- What stands under `$ref` is left as it is. -/
def rewriteEntries (root : Value) (location : String) :
    List (String × Value) → Except String (List (String × Value) × List (String × Value))
  | [] => .ok ([], [])
  | (key, value) :: rest =>
      if key = "$ref" then do
        let (others, further) ← rewriteEntries root location rest
        .ok ((key, value) :: others, further)
      else do
        let (first, pending) ← rewriteRefs root location value
        let (others, further) ← rewriteEntries root location rest
        .ok ((key, first) :: others, pending ++ further)

end

/-- A schema that is already there ends the recursion; without depth there is no outcome. -/
def insertSchema (root : Value) (location : String) :
    ℕ → IndexMap String Value → String → Value → Option (Except String (IndexMap String Value))
  | 0, _, _, _ => none
  | depth + 1, schemas, name, schema =>
      match rewriteRefs root location schema with
      | .error reason => some (.error reason)
      | .ok (schema, pending) =>
          match schemas.get? name with
          | some existing =>
              if existing.same schema then some (.ok schemas)
              else some (.error s!"{location}: two different schemas would both be named '{name}' — rename one of them in the AsyncAPI spec to use format=openapi")
          | none =>
              Hoisting.holdEach (insertSchema root location depth) (schemas.insert name schema)
                pending

mutual

/-- The reference texts of a node, without those under the keys that are not entered. -/
def referencesIn (enters : String → Bool) : Value → List String
  | .object entries =>
      ((Entries.get? entries "$ref").bind Value.asStr).toList ++ referencesInEntries enters entries
  | .array items => referencesInItems enters items
  | _ => []

def referencesInItems (enters : String → Bool) : List Value → List String
  | [] => []
  | item :: rest => referencesIn enters item ++ referencesInItems enters rest

def referencesInEntries (enters : String → Bool) : List (String × Value) → List String
  | [] => []
  | (key, value) :: rest =>
      (if enters key then referencesIn enters value else []) ++ referencesInEntries enters rest

end

/-- Every name but the first is that of a reference of the schema or of its document. -/
def insertDepth (root schema : Value) : ℕ :=
  (referencesIn (fun _ => true) schema ++ referencesIn (fun _ => true) root).length + 2

/-- The schema a message asks for, under its own name or under one made of the message's key. -/
def payloadSchema (root : Value) (message : KeptMessage) :
    Except String (Option (String × Value)) := do
  checkSchemaFormat message.node message.location
  match message.node.get? "payload" with
  | none => .ok none
  | some payload => do
      let payload ← match payload.get? "schemaFormat", payload.get? "schema" with
        | some _, some schema => (checkSchemaFormat payload message.location).map fun _ => schema
        | _, _ => .ok payload
      let named := (refOf payload).bind fun reference =>
        ((stripPrefix schemasPath reference).filter fun name => !contains "/" name).map
          fun name => (reference, name)
      match named with
      | some (reference, name) =>
          (resolveLocalRef root reference message.location).map fun target =>
            some (unescaped name, target)
      | none =>
          match message.key with
          | none => .error s!"{message.location}: an inline payload needs a message key (component key, messageId or name) to be named"
          | some key => .ok (some (componentName key ++ "Payload", payload))

def addMessagePayload (root : Value) (schemas : IndexMap String Value) (message : KeptMessage) :
    Option (Except String (IndexMap String Value)) :=
  match payloadSchema root message with
  | .error reason => some (.error reason)
  | .ok none => some (.ok schemas)
  | .ok (some (name, schema)) =>
      insertSchema root message.location (insertDepth root schema) schemas name schema

/-- The messages are taken up in their order until one of them stops. -/
def addPayloads (root : Value) (schemas : IndexMap String Value) :
    List KeptMessage → Option (Except String (IndexMap String Value))
  | [] => some (.ok schemas)
  | message :: rest =>
      match addMessagePayload root schemas message with
      | some (.ok after) => addPayloads root after rest
      | stopped => stopped

def addSnippet (external : External) (schemas : IndexMap String Value) (snippet : String) :
    Option (Except String (IndexMap String Value)) :=
  match external.parseValue snippet with
  | .error reason => some (.error s!"Failed to parse AsyncAPI YAML: {reason}")
  | .ok document =>
      match keptMessages document.root with
      | .error reason => some (.error reason)
      | .ok messages => addPayloads document.root schemas messages

def addSnippets (external : External) (schemas : IndexMap String Value) :
    List String → Option (Except String (IndexMap String Value))
  | [] => some (.ok schemas)
  | snippet :: rest =>
      match addSnippet external schemas snippet with
      | some (.ok after) => addSnippets external after rest
      | stopped => stopped

/-- The document around the schemas, in the order of their names. -/
def schemasDocument (service version : String) (schemas : IndexMap String Value) : Value :=
  .object
    [("openapi", .string "3.0.3"),
      ("info", .object
        [("title", .string s!"{service} message schemas"), ("version", .string version)]),
      ("paths", .object []),
      ("components", .object [("schemas", .object (schemas.sortKeys OpenApiDocument.textLe).entries)])]

def toOpenapiSchemas (external : External) (snippets : List String) (service version : String) :
    Option (Except String String) :=
  match addSnippets external ∅ snippets with
  | none => none
  | some (.error reason) => some (.error reason)
  | some (.ok schemas) =>
      some ((external.writeValue (schemasDocument service version schemas)).mapError fun reason =>
        s!"Failed to serialize OpenAPI document: {reason}")

end Hoisting
end Sanshain.Document.AsyncApiDocument
