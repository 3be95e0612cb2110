import Sanshain.Document.Structure

namespace Sanshain.Document.Structure

open Sanshain.Data Sanshain.Document

section Samples

def stringPlaceholder (format : Option String) : String :=
  match format with
  | some "date-time" => "2026-01-01T12:00:00Z"
  | some "date" => "2026-01-01"
  | some "time" => "12:00:00"
  | some "email" => "user@example.com"
  | some "uuid" => "00000000-0000-0000-0000-000000000000"
  | some "uri" => "https://example.com"
  | some "url" => "https://example.com"
  | some "hostname" => "example.com"
  | some "ipv4" => "192.0.2.1"
  | some "ipv6" => "2001:db8::1"
  | some "byte" => "U2Fuc2hhaW4="
  | some "binary" => ""
  | _ => "string"

/-- Whether a member is left out of the example of an object. -/
def skips (direction : Direction) (member : NodeData) : Bool :=
  !(member.kind = .member || member.kind = .cycle) ||
    (direction = .request && member.readOnly) ||
    (direction = .response && member.writeOnly) ||
    member.key = "{*}"

/-- An object with the fields of its variant that it does not have. -/
def fillFields (object fields : Mapping) : Mapping :=
  fields.foldl (fun object field =>
    if (object.get? field.1).isSome then object else object ++ [field]) object

def mergeVariant (object : Mapping) : Option Value → Value
  | some (.object fields) => .object (fillFields object fields)
  | some other => if object = [] then other else .object object
  | none => .object object

/-- A placeholder for the type of a node, from the examples of its variant, items and members. -/
def shapeOf (data : NodeData) (variant item : Option Value) (members : Mapping) : Value :=
  if data.kind = .cycle ∨ data.kind = .note then .null
  else match data.jsonType with
    | some "array" => .array [item.getD .null]
    | some "string" => .string (stringPlaceholder data.format)
    | some "integer" => .number "0"
    | some "number" => .number "0.0"
    | some "boolean" => .bool true
    | some "null" => .null
    | _ => mergeVariant members variant

/-- A node's example, else its default, else its first value. -/
def givenSample (data : NodeData) : Option Value :=
  (data.exampleValue.or data.defaultValue).or data.enumValues.head?

mutual

def sample (direction : Direction) : Node → Value
  | .mk data children =>
      (givenSample data).getD (shapeOf data (variantSample direction children)
        (itemSample direction children) (memberSamples direction [] children))

/-- The example of the first variant of the first group. -/
def variantSample (direction : Direction) : List Node → Option Value
  | [] => none
  | .mk data children :: rest =>
      if data.kind = .variants then firstSample direction children else variantSample direction rest

def firstSample (direction : Direction) : List Node → Option Value
  | [] => none
  | node :: _ => some (sample direction node)

def itemSample (direction : Direction) : List Node → Option Value
  | [] => none
  | node :: rest =>
      if node.data.kind = .items then some (sample direction node) else itemSample direction rest

def memberSamples (direction : Direction) (object : Mapping) : List Node → Mapping
  | [] => object
  | node :: rest => memberSamples direction
      (if skips direction node.data then object else object.insert node.data.key (sample direction node)) rest

end

def shapeSample (direction : Direction) : Node → Value
  | .mk data children => shapeOf data (variantSample direction children) (itemSample direction children)
      (memberSamples direction [] children)

mutual

/-- Every body without an example of the specification is given one. -/
def fillExamples : Node → Node
  | .mk data children =>
      .mk (if data.kind = .body ∧ data.exampleValue = none then
          { data with
            exampleValue := some (shapeSample (data.direction.getD .message) (.mk data children))
            exampleGenerated := true }
        else data) (fillAll children)

def fillAll : List Node → List Node
  | [] => []
  | node :: rest => fillExamples node :: fillAll rest

end

/-- The body of a media type: its schema's node, with the example that stands beside the schema. -/
def bodyNode (root : Value) (media : String) (schema : Option Value) (direction : Direction)
    (beside : Option Value) : Node :=
  amend (fun data => { data with
      kind := .body
      direction := some direction
      exampleValue := beside.or data.exampleValue })
    (match schema with
      | some schema => topNode root media media schema
      | none => .mk { key := media, kind := .body, name := media } [])

end Samples
end Sanshain.Document.Structure
