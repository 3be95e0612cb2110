import Sanshain.Data.IndexMap

namespace Sanshain.Document

open Sanshain.Data

/-- An untyped document node; a number is its canonical literal and a mapping keeps its order. -/
inductive Value where
  | null
  | bool (value : Bool)
  | number (literal : String)
  | string (text : String)
  | array (items : List Value)
  | object (entries : List (String × Value))
  deriving Inhabited

/-- A mapping of values. -/
abbrev Mapping := Entries String Value

namespace Value

def asStr : Value → Option String
  | .string text => some text
  | _ => none

def asBool : Value → Option Bool
  | .bool value => some value
  | _ => none

def asArray : Value → Option (List Value)
  | .array items => some items
  | _ => none

def asObject : Value → Option Mapping
  | .object entries => some entries
  | _ => none

/-- The value under a key, when the node is a mapping that has it. -/
def get? (node : Value) (key : String) : Option Value :=
  node.asObject.bind fun entries => entries.get? key

mutual

/-- Equality that ignores the order of the keys of a mapping. -/
def same : Value → Value → Bool
  | .null, .null => true
  | .bool first, .bool second => first == second
  | .number first, .number second => first == second
  | .string first, .string second => first == second
  | .array first, .array second => sameItems first second
  | .object first, .object second => first.length == second.length && sameEntries first second
  | _, _ => false

def sameItems : List Value → List Value → Bool
  | [], [] => true
  | first :: rest, second :: rest' => first.same second && sameItems rest rest'
  | _, _ => false

def sameEntries : List (String × Value) → List (String × Value) → Bool
  | [], _ => true
  | (key, value) :: rest, others =>
      (match Entries.get? others key with
        | some other => value.same other
        | none => false) && sameEntries rest others

end

mutual

/-- How deeply a node nests. -/
def depth : Value → Nat
  | .array items => depthItems items + 1
  | .object entries => depthEntries entries + 1
  | _ => 0

def depthItems : List Value → Nat
  | [] => 0
  | item :: rest => max item.depth (depthItems rest)

def depthEntries : List (String × Value) → Nat
  | [] => 0
  | (_, value) :: rest => max value.depth (depthEntries rest)

end

mutual

/-- No mapping of the node, at any depth, repeats a key. -/
def WellFormed : Value → Prop
  | .array items => WellFormedItems items
  | .object entries => (entries.map Prod.fst).Nodup ∧ WellFormedEntries entries
  | _ => True

def WellFormedItems : List Value → Prop
  | [] => True
  | item :: rest => item.WellFormed ∧ WellFormedItems rest

def WellFormedEntries : List (String × Value) → Prop
  | [] => True
  | (_, value) :: rest => value.WellFormed ∧ WellFormedEntries rest

end

theorem depth_of_mem {entries : Mapping} {entry : String × Value} (among : entry ∈ entries) :
    entry.2.depth ≤ depthEntries entries := by
  induction entries with
  | nil => cases among
  | cons first rest ih =>
      obtain ⟨name, value⟩ := first
      rw [depthEntries]
      rcases List.mem_cons.mp among with rfl | later
      · exact Nat.le_max_left _ _
      · exact (ih later).trans (Nat.le_max_right _ _)

theorem depth_of_get? {node child : Value} {key : String} (found : node.get? key = some child) :
    child.depth < node.depth := by
  cases node with
  | object entries =>
      have among := Entries.mem_of_get? (show Entries.get? entries key = some child from found)
      exact Nat.lt_succ_of_le (depth_of_mem among)
  | _ => cases found

theorem wellFormed_of_mem {entries : Mapping} (formed : WellFormedEntries entries)
    {entry : String × Value} (among : entry ∈ entries) : entry.2.WellFormed := by
  induction entries with
  | nil => cases among
  | cons first rest ih =>
      obtain ⟨name, value⟩ := first
      rcases List.mem_cons.mp among with rfl | later
      · exact formed.1
      · exact ih formed.2 later

theorem wellFormed_get? {node child : Value} {key : String} (formed : node.WellFormed)
    (found : node.get? key = some child) : child.WellFormed := by
  cases node with
  | object entries =>
      have among := Entries.mem_of_get? (show Entries.get? entries key = some child from found)
      exact wellFormed_of_mem (show _ ∧ _ from formed).2 among
  | _ => cases found

theorem keys_nodup_of_asObject {node : Value} {entries : Mapping} (formed : node.WellFormed)
    (found : node.asObject = some entries) : entries.keys.Nodup := by
  cases node with
  | object held =>
      cases found
      exact (show _ ∧ _ from formed).1
  | _ => cases found

end Value

/-- A parsed document: the reader refuses a mapping that repeats a key. -/
structure ParsedDocument where
  root : Value
  formed : root.WellFormed

/-- The verdict of a compatibility check; a walk through cyclic references may have none. -/
inductive Verdict where
  | pass
  | refuse (reason : String)
  | endless
  deriving DecidableEq, Repr

namespace Verdict

def andThen (first : Verdict) (second : Verdict) : Verdict :=
  match first with
  | .pass => second
  | other => other

/-- The first element that does not pass decides. -/
def all {Element : Type} (check : Element → Verdict) : List Element → Verdict
  | [] => .pass
  | element :: rest => (check element).andThen (all check rest)

def ofExcept : Except String Unit → Verdict
  | .ok () => .pass
  | .error reason => .refuse reason

@[simp] theorem andThen_eq_pass (first second : Verdict) :
    first.andThen second = .pass ↔ first = .pass ∧ second = .pass := by
  cases first <;> simp [andThen]

@[simp] theorem all_eq_pass {Element : Type} (check : Element → Verdict) (elements : List Element) :
    all check elements = .pass ↔ ∀ element ∈ elements, check element = .pass := by
  induction elements with
  | nil => simp [all]
  | cons element rest ih => simp [all, ih]

@[simp] theorem ofExcept_ne_endless (outcome : Except String Unit) :
    ofExcept outcome ≠ .endless := by
  cases outcome <;> simp [ofExcept]

@[simp] theorem ofExcept_eq_pass (outcome : Except String Unit) :
    ofExcept outcome = .pass ↔ outcome = .ok () := by
  cases outcome <;> simp [ofExcept]

end Verdict
end Sanshain.Document
