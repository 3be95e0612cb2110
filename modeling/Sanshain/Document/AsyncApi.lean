import Sanshain.Document.OpenApi

namespace Sanshain.Document.AsyncApiDocument

open Sanshain.Data Sanshain.Domain Sanshain.Text

structure AsyncApiSpec where
  channel : String
  operation : String
  yamlContent : String
  deprecated : Bool
  deriving DecidableEq, Repr

/-- `deprecated: true`, or the extension that says the same. -/
def isMarkedDeprecated (node : Value) : Bool :=
  ["deprecated", "x-deprecated"].any fun key => ((node.get? key).bind Value.asBool).getD false

/-- A document of the 3.x line names its operations apart from its channels. -/
def isV3 (root : Value) : Bool :=
  startsWith "3." (((root.get? "asyncapi").bind Value.asStr).getD "")

def channelsOf (root : Value) : Option Mapping := (root.get? "channels").bind Value.asObject

def operationsOf (root : Value) : Option Mapping := (root.get? "operations").bind Value.asObject

section Splitting

/-- The top-level fields of a document but the named ones. -/
def topFieldsBut (root : Value) (left : List String) : Mapping :=
  (root.asObject.getD []).filter fun entry => entry.1 ∉ left

def writeSnippet (external : External) (snippet : Mapping) : Except String String :=
  (external.writeValue (.object snippet)).mapError fun reason =>
    s!"Failed to serialize AsyncAPI snippet: {reason}"

def createSpecV2 (external : External) (root : Value) (channelName operation : String)
    (channelValue : Value) (opKey : String) : Except String AsyncApiSpec :=
  let otherOp := if opKey = "publish" then "subscribe" else "publish"
  let channelMap := Entries.swapRemove (channelValue.asObject.getD []) otherOp
  let snippet := Entries.insert (topFieldsBut root ["channels"]) "channels"
    (.object [(channelName, .object channelMap)])
  (writeSnippet external snippet).map fun yamlContent =>
    ⟨channelName, operation, yamlContent,
      ((channelValue.get? opKey).map isMarkedDeprecated).getD false⟩

def operationSpecsV2 (external : External) (root : Value) (entry : String × Value)
    (operation opKey : String) : Except String (List AsyncApiSpec) :=
  match entry.2.get? opKey with
  | none => .ok []
  | some _ => (createSpecV2 external root entry.1 operation entry.2 opKey).map fun spec => [spec]

/-- The operations of one channel, the publishing one first. -/
def channelSpecsV2 (external : External) (root : Value) (entry : String × Value) :
    Except String (List AsyncApiSpec) := do
  let publish ← operationSpecsV2 external root entry "PUB" "publish"
  let subscribe ← operationSpecsV2 external root entry "SUB" "subscribe"
  .ok (publish ++ subscribe)

def splitAsyncapiV2 (external : External) (root : Value) : Except String (List AsyncApiSpec) :=
  (((channelsOf root).getD []).mapM (channelSpecsV2 external root)).map List.flatten

/-- The address of a channel, or else its key. -/
def channelAddress (root : Value) (channelKey : String) : String :=
  ((((channelsOf root).bind fun channels => channels.get? channelKey).bind
    (·.get? "address")).bind Value.asStr).getD channelKey

def createSpecV3 (external : External) (root : Value) (channelKey operation : String)
    (opValue : Value) : Except String AsyncApiSpec :=
  let top := topFieldsBut root ["channels", "operations"]
  let withChannel := match (channelsOf root).bind fun channels => channels.get? channelKey with
    | some channel => Entries.insert top "channels" (.object [(channelKey, channel)])
    | none => top
  let opKey := (if operation = "PUB" then "pub" else "sub") ++ "_" ++ channelKey
  let snippet := Entries.insert withChannel "operations" (.object [(opKey, opValue)])
  (writeSnippet external snippet).map fun yamlContent =>
    ⟨channelAddress root channelKey, operation, yamlContent, isMarkedDeprecated opValue⟩

/-- The text under `$ref` of the operation's channel. -/
def channelRef (opValue : Value) : Option String :=
  ((opValue.get? "channel").bind (·.get? "$ref")).bind Value.asStr

/-- The side of its channel that an operation is on. -/
def operationSide (opValue : Value) : Except String String :=
  match (opValue.get? "action").bind Value.asStr with
  | none => .error "Operation missing 'action' field"
  | some action =>
      match action with
      | "send" => .ok "PUB"
      | "receive" => .ok "SUB"
      | other => .error s!"Unknown operation action: {other}"

def operationChannelKey (opValue : Value) : Except String String :=
  match channelRef opValue with
  | none => .error "Operation missing channel.$ref"
  | some target =>
      match stripPrefix "#/channels/" target with
      | some key => .ok key
      | none => .error s!"Unsupported channel $ref: {target}"

def operationSpecV3 (external : External) (root : Value) (entry : String × Value) :
    Except String AsyncApiSpec := do
  let operation ← operationSide entry.2
  let channelKey ← operationChannelKey entry.2
  createSpecV3 external root channelKey operation entry.2

def splitAsyncapiV3 (external : External) (root : Value) : Except String (List AsyncApiSpec) :=
  match operationsOf root with
  | none => .error "AsyncAPI 3.x document has no 'operations' section"
  | some operations => operations.mapM (operationSpecV3 external root)

def parseRoot (external : External) (yaml : String) : Except String ParsedDocument :=
  (external.parseValue yaml).mapError fun reason => s!"Failed to parse AsyncAPI YAML: {reason}"

def splitAsyncapi (external : External) (yaml : String) : Except String (List AsyncApiSpec) :=
  (parseRoot external yaml).bind fun document =>
    if isV3 document.root then splitAsyncapiV3 external document.root
    else splitAsyncapiV2 external document.root

end Splitting

section Compatibility

/-- A structural incompatibility, phrased by each caller for its own direction. -/
inductive SchemaMismatch where
  | refChanged (path old new : String)
  | typeChanged (path old new : String)
  | propertyMissing (path : String)
  deriving DecidableEq, Repr

/-- The first element whose check fails decides. -/
def firstError {Element Error : Type} (check : Element → Except Error Unit) :
    List Element → Except Error Unit
  | [] => .ok ()
  | element :: rest => match check element with
      | .ok () => firstError check rest
      | .error error => .error error

/-- Two texts under one key that differ. -/
def changedText (key : String) (old new : Value) : Option (String × String) :=
  match (old.get? key).bind Value.asStr, (new.get? key).bind Value.asStr with
  | some oldText, some newText => if oldText ≠ newText then some (oldText, newText) else none
  | _, _ => none

/-- The first place where the new schema fails to provide what the old one has. Every step
goes one level down the old schema, whose depth bounds the walk. -/
def findSchemaMismatch : Nat → String → Value → Value → Except SchemaMismatch Unit
  | 0, _, _, _ => .ok ()
  | fuel + 1, path, old, new =>
      match changedText "$ref" old new with
      | some (oldRef, newRef) => .error (.refChanged path oldRef newRef)
      | none =>
      match changedText "type" old new with
      | some (oldType, newType) => .error (.typeChanged path oldType newType)
      | none =>
      let newProps := (new.get? "properties").bind Value.asObject
      match firstError (fun (prop : String × Value) =>
          let propPath := path ++ "." ++ prop.1
          match newProps.bind fun props => props.get? prop.1 with
          | none =>
              if isMarkedDeprecated prop.2 then .ok () else .error (.propertyMissing propPath)
          | some newProp => findSchemaMismatch fuel propPath prop.2 newProp)
        (((old.get? "properties").bind Value.asObject).getD []) with
      | .error mismatch => .error mismatch
      | .ok () =>
      match old.get? "items", new.get? "items" with
      | some oldItems, some newItems => findSchemaMismatch fuel (path ++ "[]") oldItems newItems
      | _, _ => .ok ()

def schemaMismatch (path : String) (old new : Value) : Except SchemaMismatch Unit :=
  findSchemaMismatch (old.depth + 1) path old new

/-- The wording of a change over time. -/
def SchemaMismatch.asChange : SchemaMismatch → String
  | .refChanged path old new => s!"'{path}' changed $ref from '{old}' to '{new}'"
  | .typeChanged path old new => s!"'{path}' changed type from '{old}' to '{new}'"
  | .propertyMissing path => s!"Property '{path}' was removed"

/-- The wording of an expectation against a contract. -/
def SchemaMismatch.asExpectation : SchemaMismatch → String
  | .propertyMissing path =>
      s!"Consumer expects property '{path}', which the contract does not provide"
  | .typeChanged path old new =>
      s!"Consumer expects '{path}' as type '{old}', but the contract provides '{new}'"
  | .refChanged path old new =>
      s!"Consumer expects '{path}' with $ref '{old}', but the contract provides '{new}'"

def checkSchemaCompatible (path : String) (old new : Value) : Except String Unit :=
  (schemaMismatch path old new).mapError SchemaMismatch.asChange

/-- The explicit name of a message. -/
def messageName (message : Value) : Option String :=
  ((message.get? "name").or (message.get? "title")).bind Value.asStr

def messageKey (channel opKey : String) (message : Value) (index : Nat) : String :=
  match messageName message with
  | some name => s!"{channel}/{opKey}/{name}"
  | none => s!"{channel}/{opKey}/#{index}"

def variantInserts (channel opKey : String) (channelValue : Value) : Entries String Value :=
  match (channelValue.get? opKey).bind (·.get? "message") with
  | none => []
  | some message =>
      match (message.get? "oneOf").bind Value.asArray with
      | some variants => variants.zipIdx.map fun variant =>
          (messageKey channel opKey variant.1 variant.2, variant.1)
      | none => [(messageKey channel opKey message 0, message)]

/-- The messages a channel carries, whichever operation they belong to. -/
def channelMessages (entry : String × Value) : Entries String Value :=
  (((entry.2.get? "messages").bind Value.asObject).getD []).map
      (fun message => (entry.1 ++ "/" ++ message.1, message.2)) ++
    variantInserts entry.1 "publish" entry.2 ++ variantInserts entry.1 "subscribe" entry.2

/-- The messages of a document under a stable name; a later one takes an earlier one's name. -/
def collectMessages (root : Value) : Entries String Value :=
  Entries.insertAll [] (((channelsOf root).getD []).flatMap channelMessages)

def checkMessage (newMessages : Entries String Value) (entry : String × Value) :
    Except String Unit :=
  match newMessages.get? entry.1 with
  | none =>
      if isMarkedDeprecated entry.2 then .ok () else .error s!"Message '{entry.1}' was removed"
  | some newMessage =>
      match entry.2.get? "payload", newMessage.get? "payload" with
      | some oldPayload, some newPayload =>
          checkSchemaCompatible (entry.1 ++ ".payload") oldPayload newPayload
      | some _, none => .error s!"Payload of message '{entry.1}' was removed"
      | none, _ => .ok ()

def checkBackwardCompatibility (external : External) (oldYaml newYaml : String) :
    Except String Unit :=
  match external.parseValue oldYaml with
  | .error reason => .error s!"Failed to parse old AsyncAPI YAML: {reason}"
  | .ok old =>
      match external.parseValue newYaml with
      | .error reason => .error s!"Failed to parse new AsyncAPI YAML: {reason}"
      | .ok new => firstError (checkMessage (collectMessages new.root)) (collectMessages old.root)

end Compatibility

section Messages

/-- A named message of one side of a channel, with its payload written out. -/
structure PubMessage where
  channel : String
  messageName : String
  payloadYaml : String
  deprecated : Bool
  deriving DecidableEq, Repr

inductive Direction where
  | pub
  | sub
  deriving DecidableEq, Repr

def Direction.v2Keyword : Direction → String
  | .pub => "publish"
  | .sub => "subscribe"

def Direction.v3Action : Direction → String
  | .pub => "send"
  | .sub => "receive"

/-- A message without an explicit name, or whose payload cannot be written, is skipped. -/
def pubMessageFromNode (external : External) (channel : String) (opDeprecated : Bool)
    (message : Value) : Option PubMessage :=
  (messageName message).bind fun name =>
    match external.writeValue ((message.get? "payload").getD .null) with
    | .ok payloadYaml =>
        some ⟨channel, name, payloadYaml, opDeprecated || isMarkedDeprecated message⟩
    | .error _ => none

def channelMessagesV2 (external : External) (direction : Direction) (entry : String × Value) :
    List PubMessage :=
  match entry.2.get? direction.v2Keyword with
  | none => []
  | some operation =>
      match operation.get? "message" with
      | none => []
      | some message =>
          let variants := ((message.get? "oneOf").bind Value.asArray).getD [message]
          variants.filterMap (pubMessageFromNode external entry.1 (isMarkedDeprecated operation))

def extractMessagesV2 (external : External) (direction : Direction) (root : Value) :
    List PubMessage :=
  ((channelsOf root).getD []).flatMap (channelMessagesV2 external direction)

/-- The node a local pointer names, with the two escapes of a pointer undone. -/
def resolveJsonPointer (root : Value) (pointer : String) : Option Value :=
  (stripPrefix "#/" pointer).bind fun path =>
    (split '/' path).foldlM (fun node raw => node.get? (replace "~0" "~" (replace "~1" "/" raw)))
      root

/-- The messages an operation names, or else all that its channel declares. -/
def operationMessageNodes (root : Value) (channelKey : String) (operation : Value) : List Value :=
  match (operation.get? "messages").bind Value.asArray with
  | some references => references.filterMap fun reference =>
      ((reference.get? "$ref").bind Value.asStr).bind (resolveJsonPointer root)
  | none =>
      ((((((root.get? "channels").bind (·.get? channelKey)).bind (·.get? "messages")).bind
        Value.asObject).getD []).map Prod.snd)

def operationMessagesV3 (external : External) (direction : Direction) (root : Value)
    (entry : String × Value) : List PubMessage :=
  if (entry.2.get? "action").bind Value.asStr = some direction.v3Action then
    match (channelRef entry.2).bind (stripPrefix "#/channels/") with
    | none => []
    | some channelKey =>
        (operationMessageNodes root channelKey entry.2).filterMap
          (pubMessageFromNode external (channelAddress root channelKey)
            (isMarkedDeprecated entry.2))
  else []

def extractMessagesV3 (external : External) (direction : Direction) (root : Value) :
    List PubMessage :=
  ((operationsOf root).getD []).flatMap (operationMessagesV3 external direction root)

def extractMessages (external : External) (direction : Direction) (yaml : String) :
    Except String (List PubMessage) :=
  (parseRoot external yaml).map fun document =>
    if isV3 document.root then extractMessagesV3 external direction document.root
    else extractMessagesV2 external direction document.root

def extractPubMessages (external : External) (yaml : String) : Except String (List PubMessage) :=
  extractMessages external .pub yaml

def extractSubMessages (external : External) (yaml : String) : Except String (List PubMessage) :=
  extractMessages external .sub yaml

end Messages

section Payloads

def checkPayloadCompatible (external : External) (oldYaml newYaml : String) : Except String Unit :=
  match external.parseValue oldYaml with
  | .error reason => .error s!"Failed to parse stored payload: {reason}"
  | .ok old =>
      match external.parseValue newYaml with
      | .error reason => .error s!"Failed to parse submitted payload: {reason}"
      | .ok new => checkSchemaCompatible "payload" old.root new.root

/-- What a consumer expects is the side that must remain available. -/
def checkExpectationSatisfied (external : External) (contractYaml expectationYaml : String) :
    Except String Unit :=
  match external.parseValue contractYaml with
  | .error reason => .error s!"Failed to parse contract payload: {reason}"
  | .ok contract =>
      match external.parseValue expectationYaml with
      | .error reason => .error s!"Failed to parse expectation payload: {reason}"
      | .ok expectation =>
          (schemaMismatch "payload" expectation.root contract.root).mapError
            SchemaMismatch.asExpectation

/-- Equality of payloads up to formatting and the order of keys. -/
def payloadsEqual (external : External) (first second : String) : Bool :=
  match external.parseValue first, external.parseValue second with
  | .ok a, .ok b => a.root.same b.root
  | _, _ => false

end Payloads
end Sanshain.Document.AsyncApiDocument
