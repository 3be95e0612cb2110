import Sanshain.Document.Value
import Sanshain.Domain.Models

namespace Sanshain.Document

open Sanshain.Data Sanshain.Domain

inductive NodeKind where
  | endpoint
  | group
  | parameter
  | header
  | body
  | response
  | message
  | member
  | items
  | variants
  | variant
  /-- A reference back to a schema that is already open above. -/
  | cycle
  /-- Something the tree cannot show. -/
  | note
  deriving DecidableEq, Repr

def NodeKind.asStr : NodeKind → String
  | .endpoint => "endpoint"
  | .group => "group"
  | .parameter => "parameter"
  | .header => "header"
  | .body => "body"
  | .response => "response"
  | .message => "message"
  | .member => "member"
  | .items => "items"
  | .variants => "variants"
  | .variant => "variant"
  | .cycle => "cycle"
  | .note => "note"

/-- Which side of the exchange a body is on. -/
inductive Structure.Direction where
  | request
  | response
  | message
  deriving DecidableEq, Repr

/-- What a node says of itself. The last three fields are not written out. -/
structure NodeData where
  key : String
  kind : NodeKind := .group
  name : String
  method : Option String := none
  path : Option String := none
  typeName : Option String := none
  summary : Option String := none
  description : Option String := none
  required : Bool := false
  deprecated : Bool := false
  nullable : Bool := false
  readOnly : Bool := false
  writeOnly : Bool := false
  defaultValue : Option Value := none
  exampleValue : Option Value := none
  exampleGenerated : Bool := false
  enumValues : List Value := []
  constraints : List String := []
  origin : Option String := none
  discriminator : Option String := none
  changedIn : Option SemVer := none
  inside : Option SemVer := none
  childrenOmitted : Bool := false
  jsonType : Option String := none
  format : Option String := none
  direction : Option Structure.Direction := none

/-- A node of the structure view, with those below it. -/
inductive Node where
  | mk (data : NodeData) (children : List Node)

namespace Node

def data : Node → NodeData
  | .mk data _ => data

def children : Node → List Node
  | .mk _ children => children

@[simp] theorem data_mk (data : NodeData) (children : List Node) : (mk data children).data = data := rfl

@[simp] theorem children_mk (data : NodeData) (children : List Node) :
    (mk data children).children = children := rfl

mutual

/-- How many levels of nodes a tree has. -/
def height : Node → ℕ
  | .mk _ children => heightOf children + 1

def heightOf : List Node → ℕ
  | [] => 0
  | node :: rest => max node.height (heightOf rest)

end

theorem height_le_succ {node : Node} {bound : ℕ} :
    node.height ≤ bound + 1 ↔ ∀ child ∈ node.children, child.height ≤ bound := by
  have whole : ∀ nodes : List Node, heightOf nodes ≤ bound ↔ ∀ child ∈ nodes, child.height ≤ bound := by
    intro nodes
    induction nodes with
    | nil => simp [heightOf]
    | cons first rest ih => simp [heightOf, ih]
  cases node
  rw [height, Nat.add_le_add_iff_right, whole, children_mk]

end Node

section Writing

/-- The fields that are written, of those that a record has. -/
def written (slots : List (String × Option Value)) : Mapping :=
  slots.filterMap fun slot => slot.2.map fun value => (slot.1, value)

/-- Records of the same fields that are written the same are the same. -/
theorem slots_of_written {first second : List (String × Option Value)}
    (names : first.map Prod.fst = second.map Prod.fst) (distinct : (first.map Prod.fst).Nodup)
    (same : written first = written second) : first = second := by
  have absent : ∀ (name : String) (value : Value) (slots : List (String × Option Value)),
      name ∉ slots.map Prod.fst → (name, value) ∉ written slots := by
    intro name value slots outside among
    obtain ⟨slot, held, told⟩ := List.mem_filterMap.mp among
    obtain ⟨_, -, same⟩ := Option.map_eq_some_iff.mp told
    cases same
    exact outside (List.mem_map_of_mem held)
  induction first generalizing second with
  | nil => exact (List.map_eq_nil_iff.mp names.symm).symm
  | cons slot rest ih =>
      cases second with
      | nil => cases names
      | cons other rest' =>
          obtain ⟨name, value⟩ := slot
          obtain ⟨_, value'⟩ := other
          simp only [List.map_cons, List.cons.injEq] at names
          obtain ⟨rfl, names⟩ := names
          obtain ⟨outside, apart⟩ := List.nodup_cons.mp distinct
          have outside' := names ▸ outside
          cases value with
          | none =>
              cases value' with
              | none => rw [ih names apart same]
              | some told =>
                  have among : (name, told) ∈ written rest := by
                    have head : (name, told) ∈ written ((name, some told) :: rest') := List.mem_cons_self
                    rw [← same] at head
                    exact head
                  exact absurd among (absent name told rest outside)
          | some told =>
              cases value' with
              | none =>
                  have among : (name, told) ∈ written rest' := by
                    have head : (name, told) ∈ written ((name, some told) :: rest) := List.mem_cons_self
                    rw [same] at head
                    exact head
                  exact absurd among (absent name told rest' outside')
              | some told' =>
                  obtain ⟨first, later⟩ := List.cons.inj same
                  cases first
                  rw [ih names apart later]

def flagSlot (flag : Bool) : Option Value := if flag then some (.bool true) else none

def listSlot (items : List Value) : Option Value := if items = [] then none else some (.array items)

theorem flagSlot_injective : Function.Injective flagSlot := by
  intro first second same
  cases first <;> cases second <;> simp_all [flagSlot]

theorem listSlot_injective : Function.Injective listSlot := by
  intro first second same
  unfold listSlot at same
  split at same <;> split at same <;> simp_all

theorem NodeKind.asStr_injective : Function.Injective NodeKind.asStr := by
  intro first second
  cases first <;> cases second <;> simp [asStr]

namespace NodeData

/-- The fields of a node in their order; those that are skipped when they say nothing, and the three
that are never written. -/
def slots (data : NodeData) : List (String × Option Value) :=
  [("key", some (.string data.key)), ("kind", some (.string data.kind.asStr)),
    ("name", some (.string data.name)), ("method", data.method.map .string),
    ("path", data.path.map .string), ("type", data.typeName.map .string),
    ("summary", data.summary.map .string), ("description", data.description.map .string),
    ("required", flagSlot data.required), ("deprecated", flagSlot data.deprecated),
    ("nullable", flagSlot data.nullable), ("read_only", flagSlot data.readOnly),
    ("write_only", flagSlot data.writeOnly), ("default", data.defaultValue),
    ("example", data.exampleValue), ("example_generated", flagSlot data.exampleGenerated),
    ("enum", listSlot data.enumValues), ("constraints", listSlot (data.constraints.map .string)),
    ("origin", data.origin.map .string), ("discriminator", data.discriminator.map .string),
    ("changed_in", data.changedIn.map fun version => .string version.display),
    ("inside", data.inside.map fun version => .string version.display),
    ("children_omitted", flagSlot data.childrenOmitted)]

/-- A node without its children, as it is written. -/
def toJson (data : NodeData) : Value := .object (written data.slots)

/-- What a node says of itself, without what it is annotated with. -/
def own (data : NodeData) : NodeData := { data with changedIn := none, inside := none }

/-- That, as far as it is written. -/
def shown (data : NodeData) : NodeData :=
  { data.own with
    jsonType := none
    format := none
    direction := none }

/-- Nodes that are written the same show the same. -/
theorem shown_of_toJson {first second : NodeData} (same : first.own.toJson = second.own.toJson) :
    first.shown = second.shown := by
  have slots : first.own.slots = second.own.slots :=
    slots_of_written rfl (by simp [NodeData.slots]) (Value.object.inj same)
  have strings : ∀ {one other : Option String}, one.map Value.string = other.map Value.string → one = other :=
    fun same => Option.map_injective (fun _ _ equal => Value.string.inj equal) same
  simp only [NodeData.slots, List.cons.injEq, Prod.mk.injEq, true_and, and_true, Option.some.injEq] at slots
  obtain ⟨key, kind, name, method, path, typeName, summary, description, required, deprecated, nullable,
    readOnly, writeOnly, defaultValue, exampleValue, generated, enumValues, constraints, origin,
    discriminator, -, -, omitted⟩ := slots
  have lists : first.own.constraints = second.own.constraints :=
    List.map_injective_iff.mpr (fun _ _ equal => Value.string.inj equal) (listSlot_injective constraints)
  change NodeData.mk first.own.key first.own.kind first.own.name first.own.method first.own.path
    first.own.typeName first.own.summary first.own.description first.own.required first.own.deprecated
    first.own.nullable first.own.readOnly first.own.writeOnly first.own.defaultValue
    first.own.exampleValue first.own.exampleGenerated first.own.enumValues first.own.constraints
    first.own.origin first.own.discriminator none none first.own.childrenOmitted none none none = _
  rw [Value.string.inj key, NodeKind.asStr_injective (Value.string.inj kind), Value.string.inj name,
    strings method, strings path, strings typeName, strings summary, strings description,
    flagSlot_injective required, flagSlot_injective deprecated, flagSlot_injective nullable,
    flagSlot_injective readOnly, flagSlot_injective writeOnly, defaultValue, exampleValue,
    flagSlot_injective generated, listSlot_injective enumValues, lists, strings origin,
    strings discriminator, flagSlot_injective omitted]
  rfl

theorem toJson_of_shown {first second : NodeData} (same : first.shown = second.shown) :
    first.own.toJson = second.own.toJson := by
  have written : first.shown.toJson = second.shown.toJson := by rw [same]
  exact written

end NodeData
end Writing
end Sanshain.Document
