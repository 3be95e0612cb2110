import Sanshain.Document.StructureNode
import Sanshain.Document.AsyncSchemas

namespace Sanshain.Document.Structure

open Sanshain.Data Sanshain.Document Sanshain.Text
open Sanshain.Document.AsyncApiDocument (resolveJsonPointer unescaped)

/-- Nesting deeper than this is cut with a note. -/
def maxDepth : ℕ := 48

/-- A chain of references longer than this is treated as unresolvable. -/
def maxRefHops : ℕ := 32

section Reading

def strOf (node : Value) (key : String) : Option String := (node.get? key).bind Value.asStr

def boolOf (node : Value) (key : String) : Bool := ((node.get? key).bind Value.asBool).getD false

def arrayOf (node : Value) (key : String) : Option (List Value) := (node.get? key).bind Value.asArray

def textOf (node : Value) (key : String) : Option String :=
  ((strOf node key).map trim).filter (· ≠ "")

def lastSegment (pointer : String) : String :=
  unescaped (((split '/' pointer).getLast?).getD pointer)

/-- A value with its references followed: the target and the last schema name. -/
structure Resolved where
  value : Value
  name : Option String

def follow (root : Value) : ℕ → Value → Option String → Except String Resolved
  | 0, current, _ => .error ((strOf current "$ref").getD "$ref")
  | hops + 1, current, name =>
      match strOf current "$ref" with
      | none => .ok ⟨current, name⟩
      | some reference =>
          match resolveJsonPointer root reference with
          | none => .error reference
          | some target => follow root hops target (some (lastSegment reference))

/-- Follows references to their target; an external or dangling one is an error that names it. -/
def resolve (root value : Value) : Except String Resolved := follow root maxRefHops value none

def examplesEntry (root : Value) : Value → Option Value
  | .array list => list.head?
  | .object entries => entries.head?.bind fun entry =>
      (resolve root entry.2).toOption.map fun resolved => (resolved.value.get? "value").getD resolved.value
  | _ => none

/-- The first example a value carries; of a message's example the payload counts. -/
def firstExample (root node : Value) (message : Bool) : Option Value :=
  match node.get? "example" with
  | some given => some given
  | none => ((node.get? "examples").bind (examplesEntry root)).map fun first =>
      if message then (first.get? "payload").getD first else first

end Reading

section Fields

/-- The declared type; in a list of types `null` makes the schema nullable. -/
def jsonType (schema : Value) (nullable : Bool) : Option String × Bool :=
  match schema.get? "type" with
  | some (.string type) => (some type, nullable)
  | some (.array types) =>
      let names := types.filterMap Value.asStr
      (names.find? (· ≠ "null"), nullable || names.contains "null")
  | _ => (none, nullable)

def numberOf (schema : Value) (key : String) : Option String :=
  match schema.get? key with
  | some (.number literal) => some literal
  | _ => none

def boundOf (schema : Value) (bound exclusiveBound inclusive exclusive : String) : List String :=
  match numberOf schema bound with
  | some literal => [(if boolOf schema exclusiveBound then exclusive else inclusive) ++ " " ++ literal]
  | none => ((numberOf schema exclusiveBound).map fun literal => exclusive ++ " " ++ literal).toList

def sizeLabels : List (String × String) :=
  [("multipleOf", "multiple of"), ("minLength", "min length"), ("maxLength", "max length"),
    ("minItems", "min items"), ("maxItems", "max items"), ("minProperties", "min properties"),
    ("maxProperties", "max properties")]

/-- The validation keywords of a schema in reading form. -/
def constraints (schema : Value) : List String :=
  boundOf schema "minimum" "exclusiveMinimum" "min" ">" ++
    boundOf schema "maximum" "exclusiveMaximum" "max" "<" ++
    sizeLabels.filterMap (fun entry => (numberOf schema entry.1).map fun literal =>
      entry.2 ++ " " ++ literal) ++
    (if boolOf schema "uniqueItems" then ["unique items"] else []) ++
    ((strOf schema "pattern").map fun pattern => "pattern " ++ pattern).toList

def typeLabel (refName : Option String) (data : NodeData) : Option String :=
  let base := data.jsonType.map fun type =>
    match data.format with
    | some format => type ++ " (" ++ format ++ ")"
    | none => type
  match refName, base with
  | some name, some base => some (if base = "object" then name else name ++ " (" ++ base ++ ")")
  | some name, none => some name
  | none, base => base

def enumOf (schema : Value) : List Value :=
  match schema.get? "const" with
  | some constant => [constant]
  | none => (arrayOf schema "enum").getD []

/-- What a node takes from its own schema; a description beside the reference wins over the target's. -/
def ownFields (root : Value) (key name : String) (raw schema : Value) : NodeData :=
  { key := key
    kind := .member
    name := name
    description := (textOf raw "description").or (textOf schema "description")
    deprecated := boolOf schema "deprecated" || boolOf raw "deprecated"
    readOnly := boolOf schema "readOnly"
    writeOnly := boolOf schema "writeOnly"
    nullable := (jsonType schema (boolOf schema "nullable")).2
    defaultValue := schema.get? "default"
    exampleValue := firstExample root schema false
    enumValues := enumOf schema
    constraints := constraints schema
    format := strOf schema "format"
    jsonType := (jsonType schema (boolOf schema "nullable")).1 }

end Fields

section Leaves

def note (key name text : String) : Node :=
  .mk { key := key, kind := .note, name := name, description := some text } []

def seeAbove (refName : String) : String := "↻ " ++ refName ++ ", see above"

def cycleNode (key name refName : String) : Node :=
  .mk { key := key, kind := .cycle, name := name, typeName := some refName
        description := some (seeAbove refName) } []

def outsideNode (key name reference : String) : Node :=
  .mk { key := key, kind := .member, name := name, typeName := some reference
        description := some (reference ++ " is outside this document; the YAML view shows the reference.") } []

/-- A cycle among the parts of a schema. -/
def partCycle (refName : String) : Node :=
  .mk { key := refName, kind := .cycle, name := refName, description := some (seeAbove refName) } []

def outsidePart (reference : String) : Node :=
  note reference reference (reference ++ " is outside this document")

end Leaves

section Members

/-- The members an object schema and its parts declare, with the part each came from; cycles and
unresolvable parts as nodes. -/
structure Collected where
  props : List (String × Value × Option String) := []
  required : List String := []
  extra : List Node := []

/-- A member that is declared again keeps its place. -/
def declareProp (origin : Option String) :
    List (String × Value × Option String) → String × Value → List (String × Value × Option String)
  | [], entry => [(entry.1, entry.2, origin)]
  | slot :: rest, entry =>
      if slot.1 = entry.1 then (slot.1, entry.2, origin) :: rest else slot :: declareProp origin rest entry

def propertiesOf (schema : Value) : Mapping := ((schema.get? "properties").bind Value.asObject).getD []

def requiredOf (schema : Value) : List String :=
  ((arrayOf schema "required").getD []).filterMap Value.asStr

def partsOf (schema : Value) : List Value := (arrayOf schema "allOf").getD []

def collectOwn (schema : Value) (origin : Option String) (found : Collected) : Collected :=
  { found with
    props := (propertiesOf schema).foldl (declareProp origin) found.props
    required := found.required ++ requiredOf schema }

/-- A part of a schema; what it names must not be open above it. -/
def collectPart (root : Value) (collect : Value → Option String → List String → Collected → Collected)
    (origin : Option String) (stack : List String) (found : Collected) (part : Value) : Collected :=
  match resolve root part with
  | .error reference => { found with extra := found.extra ++ [outsidePart reference] }
  | .ok ⟨value, none⟩ => collect value origin stack found
  | .ok ⟨value, some name⟩ =>
      if stack.contains name then { found with extra := found.extra ++ [partCycle name] }
      else collect value (some name) (stack ++ [name]) found

/-- The first argument is how many levels of parts may still be entered. -/
def collectMembers (root : Value) : ℕ → Value → Option String → List String → Collected → Collected
  | 0, _, _, _, found => found
  | levels + 1, schema, origin, stack, found =>
      collectOwn schema origin ((partsOf schema).foldl
        (collectPart root (collectMembers root levels) origin stack) found)

end Members

section Nodes

/-- How the schema of a child is shown: its key, its name, what it is and what is open above it. -/
abbrev Below := String → String → Value → List String → Node

/-- A node with its own fields set. -/
def amend (change : NodeData → NodeData) : Node → Node
  | .mk data children => .mk (change data) children

@[simp] theorem data_amend (change : NodeData → NodeData) (node : Node) :
    (amend change node).data = change node.data := by
  cases node
  rfl

@[simp] theorem children_amend (change : NodeData → NodeData) (node : Node) :
    (amend change node).children = node.children := by
  cases node
  rfl

def withKind (kind : NodeKind) : Node → Node := amend fun data => { data with kind := kind }

/-- Cycles and notes stay what they are. -/
def markedAs (kind : NodeKind) (node : Node) : Node :=
  if node.data.kind = .cycle ∨ node.data.kind = .note then node else withKind kind node

def memberNode (below : Below) (stack : List String) (required : List String)
    (prop : String × Value × Option String) : Node :=
  amend (fun data => { data with required := required.contains prop.1, origin := prop.2.2 })
    (markedAs .member (below prop.1 prop.1 prop.2.1 stack))

def members (root : Value) (below : Below) (schema : Value) (stack : List String) : List Node :=
  let found := collectMembers root (maxDepth + 1) schema none stack {}
  found.props.map (memberNode below stack found.required) ++ found.extra

/-- The node of any further key, when the schema has one for them. -/
def anyKeyNodes (below : Below) (schema : Value) (stack : List String) : List Node :=
  match schema.get? "additionalProperties" with
  | some additional =>
      if additional.asObject.isSome then [withKind .member (below "{*}" "(any key)" additional stack)] else []
  | none => []

def variantKey (variant : Value) (index : ℕ) : String :=
  (((strOf variant "$ref").map lastSegment).or (textOf variant "title")).getD (toString index)

def variantNode (below : Below) (stack : List String) (entry : Value × ℕ) : Node :=
  let key := variantKey entry.1 entry.2
  markedAs .variant (below key key entry.1 stack)

def variants (below : Below) (keyword label : String) (schema : Value) (list : List Value)
    (stack : List String) : Node :=
  let children := list.zipIdx.map (variantNode below stack)
  .mk { key := keyword, kind := .variants, name := label
        discriminator := (schema.get? "discriminator").bind fun given => strOf given "propertyName"
        typeName := some (" | ".intercalate (children.map (·.data.name))) } children

def variantsNodes (below : Below) (schema : Value) (stack : List String) : List Node :=
  [("oneOf", "one of"), ("anyOf", "any of")].flatMap fun entry =>
    ((arrayOf schema entry.1).map fun list => variants below entry.1 entry.2 schema list stack).toList

/-- The only part of a schema without members of its own: the schema reads as that part. -/
def onlyPart (schema : Value) : Option Value :=
  match arrayOf schema "allOf" with
  | some [part] => if (schema.get? "properties").isNone then some part else none
  | _ => none

def isObject (schema : Value) (data : NodeData) : Bool :=
  data.jsonType = some "object" || (schema.get? "properties").isSome || (arrayOf schema "allOf").isSome

/-- A schema that reads as its only part. -/
def readAs (refName : Option String) (own : NodeData) : Node → Node := amend fun inner =>
  { own with
    typeName := refName.or inner.typeName
    jsonType := own.jsonType.or inner.jsonType
    format := own.format.or inner.format
    description := own.description.or inner.description
    exampleValue := own.exampleValue.or inner.exampleValue
    defaultValue := own.defaultValue.or inner.defaultValue
    enumValues := if own.enumValues = [] then inner.enumValues else own.enumValues
    deprecated := own.deprecated || inner.deprecated }

def itemsNodes (below : Below) (schema : Value) (stack : List String) (data : NodeData) : List Node :=
  if data.jsonType = some "array" then
    ((schema.get? "items").map fun items => withKind .items (below "[]" "items" items stack)).toList
  else []

/-- A schema with its members, items and variants. -/
def wholeNode (root : Value) (below : Below) (schema : Value) (refName : Option String)
    (stack : List String) (own : NodeData) : Node :=
  let data := if isObject schema own then { own with jsonType := some "object" } else own
  let fields := if isObject schema own then
    members root below schema stack ++ anyKeyNodes below schema stack else []
  let items := itemsNodes below schema stack data
  let itemsLabel := items.head?.map fun node => "array of " ++ node.data.typeName.getD "any"
  .mk { data with typeName := itemsLabel.or (typeLabel refName data) }
    (fields ++ items ++ variantsNodes below schema stack)

/-- The node of a schema. The first number is how many levels may still be shown, this one among them;
the names are those of the schemas open above. -/
def schemaNode (root : Value) : ℕ → String → String → Value → List String → Node
  | 0, key, name, _, _ => note key name "Nested too deep to show."
  | room + 1, key, name, raw, stack =>
      match resolve root raw with
      | .error reference => outsideNode key name reference
      | .ok ⟨schema, refName⟩ =>
          match refName.filter stack.contains with
          | some open_name => cycleNode key name open_name
          | none =>
              let own := ownFields root key name raw schema
              match onlyPart schema with
              | some part =>
                  readAs refName own (schemaNode root room key name part (stack ++ refName.toList))
              | none => wholeNode root (schemaNode root room) schema refName (stack ++ refName.toList) own

/-- The node of a schema that stands for itself. -/
def topNode (root : Value) (key name : String) (raw : Value) : Node :=
  schemaNode root (maxDepth + 1) key name raw []

end Nodes
end Sanshain.Document.Structure
