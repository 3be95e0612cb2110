import Sanshain.Document.Structure
import Sanshain.Document.Rewriting

namespace Sanshain.Document.Structure

open Sanshain.Data Sanshain.Document Sanshain.Text
open Sanshain.Document.AsyncApiDocument (resolveJsonPointer unescaped walk resolveJsonPointer_eq split_append
  split_ne_nil)

/-- The keys from the root of a document to a component. -/
abbrev Target := List String

section Targets

variable {root : Value}

/-- The keys a local reference leads along. -/
def pointerKeys (reference : String) : Option Target :=
  (stripPrefix "#/" reference).map fun path => (split '/' path).map unescaped

def lastKey (target : Target) : String := target.getLast?.getD ""

theorem lastSegment_of_pointerKeys {reference : String} {target : Target}
    (keys : pointerKeys reference = some target) : lastSegment reference = lastKey target := by
  obtain ⟨path, stripped, rfl⟩ := Option.map_eq_some_iff.mp keys
  have whole : reference = "#" ++ "/" ++ path := by
    rw [OpenApiDocument.stripPrefix_eq_some.mp stripped]
    rfl
  have pieces : split '/' reference = "#" :: split '/' path := by
    rw [whole]
    exact split_append (by decide) path
  have last : (split '/' reference).getLast? = (split '/' path).getLast? := by
    rw [pieces, List.getLast?_cons]
    cases found : (split '/' path).getLast? with
    | none => exact absurd (List.getLast?_eq_none_iff.mp found) (split_ne_nil path)
    | some piece => rfl
  rw [lastSegment, lastKey, last, List.getLast?_map]
  cases found : (split '/' path).getLast? with
  | none => exact absurd (List.getLast?_eq_none_iff.mp found) (split_ne_nil path)
  | some piece => rfl

theorem resolveJsonPointer_keys (reference : String) :
    resolveJsonPointer root reference = (pointerKeys reference).bind fun target =>
      target.foldlM Value.get? root := by
  rw [resolveJsonPointer_eq, pointerKeys]
  cases stripPrefix "#/" reference with
  | none => rfl
  | some path =>
      change walk (split '/' path) root = ((split '/' path).map unescaped).foldlM Value.get? root
      rw [List.foldlM_map]
      rfl

/-- Following references with the keys of the component they lead to. -/
def reach (root : Value) : ℕ → Value → Option Target → Option (Value × Option Target)
  | 0, _, _ => none
  | hops + 1, current, target =>
      match strOf current "$ref" with
      | none => some (current, target)
      | some reference => (pointerKeys reference).bind fun keys =>
          (keys.foldlM Value.get? root).bind fun next => reach root hops next (some keys)

/-- The schema a value stands for, and the component it was found at. -/
def reached (root value : Value) : Option (Value × Option Target) := reach root maxRefHops value none

theorem follow_eq (hops : ℕ) (current : Value) (target : Option Target) :
    (follow root hops current (target.map lastKey)).toOption =
      (reach root hops current target).map fun found => ⟨found.1, found.2.map lastKey⟩ := by
  induction hops generalizing current target with
  | zero => rfl
  | succ hops ih =>
      rw [follow, reach]
      cases strOf current "$ref" with
      | none => rfl
      | some reference =>
          simp only [resolveJsonPointer_keys]
          cases keys : pointerKeys reference with
          | none => rfl
          | some target =>
              simp only [Option.bind_some]
              cases target.foldlM Value.get? root with
              | none => rfl
              | some next =>
                  rw [lastSegment_of_pointerKeys keys]
                  exact ih next (some target)

/-- References are resolved to the component they lead to, of which the last key is kept. -/
theorem resolve_toOption (value : Value) :
    (resolve root value).toOption = (reached root value).map fun found => ⟨found.1, found.2.map lastKey⟩ :=
  follow_eq maxRefHops value none

theorem resolve_of_reached {value schema : Value} {target : Option Target}
    (found : reached root value = some (schema, target)) :
    resolve root value = .ok ⟨schema, target.map lastKey⟩ := by
  have told := @resolve_toOption root value
  rw [found] at told
  cases same : resolve root value with
  | error reference => simp [same, Except.toOption] at told
  | ok resolved =>
      rw [same] at told
      exact congrArg Except.ok (Option.some.inj told)

theorem resolve_of_not_reached {value : Value} (absent : reached root value = none) :
    ∃ reference, resolve root value = .error reference := by
  have told := @resolve_toOption root value
  rw [absent] at told
  cases same : resolve root value with
  | error reference => exact ⟨reference, rfl⟩
  | ok resolved => simp [same, Except.toOption] at told

end Targets

section Visits

variable {root : Value}

/-- A schema that is shown, the components open above it, and the levels that may still be shown. -/
structure Visit where
  raw : Value
  opened : List Target
  room : ℕ

namespace Visit

/-- What the walk knows of the components that are open. -/
def names (visit : Visit) : List String := visit.opened.map lastKey

/-- The component the reference of a schema resolves to. -/
def target (root : Value) (visit : Visit) : Option Target := (reached root visit.raw).bind Prod.snd

/-- Whether the name of the component is one of those open above. -/
def Named (root : Value) (visit : Visit) : Prop :=
  ∃ target, visit.target root = some target ∧ lastKey target ∈ visit.names

/-- Whether the component itself is open above. -/
def Open (root : Value) (visit : Visit) : Prop :=
  ∃ target ∈ visit.opened, visit.target root = some target

theorem named_of_open {visit : Visit} (opened : visit.Open root) : visit.Named root := by
  obtain ⟨target, among, same⟩ := opened
  exact ⟨target, same, List.mem_map_of_mem among⟩

/-- The schema a visit shows, what is open below it and the levels that are left there. -/
inductive Enters (root : Value) : Visit → Value → List Target → ℕ → Prop
  | intro {raw schema : Value} {opened : List Target} {room : ℕ} {target : Option Target}
      (found : reached root raw = some (schema, target)) (fresh : ¬ Named root ⟨raw, opened, room + 1⟩) :
      Enters root ⟨raw, opened, room + 1⟩ schema (opened ++ target.toList) room

/-- The node that a visit is shown as. -/
def node (root : Value) (key name : String) (visit : Visit) : Node :=
  schemaNode root visit.room key name visit.raw visit.names

end Visit

theorem filter_names (visit : Visit) {schema : Value} {target : Option Target}
    (found : reached root visit.raw = some (schema, target)) :
    (target.map lastKey).filter visit.names.contains = none ↔ ¬ visit.Named root := by
  have same : visit.target root = target := by rw [Visit.target, found, Option.bind_some]
  rw [Visit.Named, same]
  cases target <;> simp

variable (key name : String)

theorem node_of_enters {visit : Visit} {schema : Value} {opened : List Target} {room : ℕ}
    (enters : visit.Enters root schema opened room) :
    ∃ refName : Option String, visit.node root key name =
      match onlyPart schema with
      | some part => readAs refName (ownFields root key name visit.raw schema)
          (Visit.node root key name ⟨part, opened, room⟩)
      | none => wholeNode root (schemaNode root room) schema refName (opened.map lastKey)
          (ownFields root key name visit.raw schema) := by
  cases enters with
  | @intro raw _ opened room target found fresh =>
      refine ⟨target.map lastKey, ?_⟩
      have names : (opened ++ target.toList).map lastKey = opened.map lastKey ++ (target.map lastKey).toList := by
        cases target <;> simp
      have closed : (target.map lastKey).filter (opened.map lastKey).contains = none :=
        (filter_names ⟨raw, opened, room + 1⟩ found).mpr fresh
      rw [Visit.node, schemaNode, resolve_of_reached found]
      cases only : onlyPart schema <;> simp only [Visit.node, Visit.names, names, closed, only]

theorem node_of_named {visit : Visit} (named : visit.Named root) (shown : 0 < visit.room) :
    ∃ refName : String, visit.node root key name = cycleNode key name refName := by
  obtain ⟨raw, opened, room⟩ := visit
  obtain ⟨room, rfl⟩ := Nat.exists_eq_succ_of_ne_zero shown.ne'
  obtain ⟨target, reaches, -⟩ := id named
  obtain ⟨⟨schema, _⟩, found, rfl⟩ := Option.bind_eq_some_iff.mp reaches
  rw [Visit.node, schemaNode, resolve_of_reached found]
  cases open_name : (Option.map lastKey (some target)).filter
      (Visit.names ⟨raw, opened, room + 1⟩).contains with
  | none => exact absurd named ((filter_names ⟨raw, opened, room + 1⟩ found).mp open_name)
  | some refName => exact ⟨refName, by simp only [open_name]⟩

theorem node_of_outside {visit : Visit} (absent : reached root visit.raw = none) (shown : 0 < visit.room) :
    ∃ reference : String, visit.node root key name = outsideNode key name reference := by
  obtain ⟨raw, opened, room⟩ := visit
  obtain ⟨room, rfl⟩ := Nat.exists_eq_succ_of_ne_zero shown.ne'
  obtain ⟨reference, failed⟩ := resolve_of_not_reached absent
  exact ⟨reference, by rw [Visit.node, schemaNode, failed]⟩

/-- A visit within the depth limit shows a schema, or one that is open or outside. -/
theorem visit_cases (visit : Visit) (shown : 0 < visit.room) :
    (∃ schema opened room, visit.Enters root schema opened room) ∨ visit.Named root ∨
      reached root visit.raw = none := by
  by_cases named : visit.Named root
  · exact .inr (.inl named)
  cases found : reached root visit.raw with
  | none => exact .inr (.inr rfl)
  | some entry =>
      obtain ⟨raw, opened, room⟩ := visit
      obtain ⟨room, rfl⟩ := Nat.exists_eq_succ_of_ne_zero shown.ne'
      exact .inl ⟨_, _, _, .intro found named⟩

theorem kind_whole (below : Below) (schema : Value) (refName : Option String) (stack : List String)
    (own : NodeData) : (wholeNode root below schema refName stack own).data.kind = own.kind := by
  rw [wholeNode]
  cases isObject schema own <;> rfl

theorem kind_readAs (refName : Option String) (own : NodeData) (inner : Node) :
    (readAs refName own inner).data.kind = own.kind := by
  rw [readAs, data_amend]

theorem key_schemaNode (room : ℕ) (raw : Value) (stack : List String) :
    (schemaNode root room key name raw stack).data.key = key := by
  cases room with
  | zero => rfl
  | succ room =>
      rw [schemaNode]
      cases resolve root raw with
      | error reference => rfl
      | ok resolved =>
          obtain ⟨schema, refName⟩ := resolved
          simp only
          cases refName.filter stack.contains with
          | some open_name => rfl
          | none =>
              simp only
              cases onlyPart schema with
              | some part => simp only [readAs, data_amend, ownFields]
              | none =>
                  change (wholeNode _ _ _ _ _ _).data.key = key
                  rw [wholeNode]
                  cases isObject schema (ownFields root key name raw schema) <;> rfl

theorem kind_node_cases (visit : Visit) (shown : 0 < visit.room) :
    visit.Named root ∧ (visit.node root key name).data.kind = .cycle ∨
      ¬ visit.Named root ∧ (visit.node root key name).data.kind = .member := by
  by_cases named : visit.Named root
  · obtain ⟨refName, same⟩ := node_of_named key name named shown
    exact .inl ⟨named, by rw [same]; rfl⟩
  · refine .inr ⟨named, ?_⟩
    obtain ⟨schema, opened, room, enters⟩ | named' | absent := visit_cases visit shown
    · obtain ⟨refName, same⟩ := node_of_enters key name enters
      rw [same]
      cases onlyPart schema with
      | none => exact kind_whole _ _ _ _ _
      | some part => exact kind_readAs _ _ _
    · exact absurd named' named
    · obtain ⟨reference, same⟩ := node_of_outside key name absent shown
      rw [same]
      rfl

/-- A node is marked as a cycle when the name of its component is that of an open one. -/
theorem kind_node (visit : Visit) (shown : 0 < visit.room) :
    (visit.node root key name).data.kind = .cycle ↔ visit.Named root := by
  obtain ⟨named, kind⟩ | ⟨plain, kind⟩ := @kind_node_cases root key name visit shown <;> simp [*]

end Visits

section Entering

variable {root : Value} {visit : Visit} {schema : Value} {opened : List Target} {room : ℕ}

instance (root : Value) (visit : Visit) : Decidable (visit.Named root) :=
  decidable_of_iff ((visit.target root).any fun target => lastKey target ∈ visit.names) (by
    rw [Visit.Named, Option.any_eq_true]
    simp)

/-- The schema that a visit enters, what is open below it and the levels left there. -/
def entered (root : Value) (visit : Visit) : Option (Value × List Target × ℕ) :=
  match visit.room with
  | 0 => none
  | room + 1 => (reached root visit.raw).bind fun found =>
      if visit.Named root then none else some (found.1, visit.opened ++ found.2.toList, room)

theorem entered_iff :
    entered root visit = some (schema, opened, room) ↔ visit.Enters root schema opened room := by
  obtain ⟨raw, above, levels⟩ := visit
  constructor
  · intro same
    cases levels with
    | zero => cases same
    | succ levels =>
        obtain ⟨⟨value, target⟩, found, open_below⟩ := Option.bind_eq_some_iff.mp same
        split at open_below
        · cases open_below
        · cases open_below
          exact .intro found ‹_›
  · intro enters
    cases enters with
    | intro found fresh =>
        simp only [entered, found, Option.bind_some, if_neg fresh]

theorem entered_eq_none :
    entered root visit = none ↔ ∀ schema opened room, ¬ visit.Enters root schema opened room := by
  rw [Option.eq_none_iff_forall_ne_some]
  constructor
  · intro absent schema opened room enters
    exact absent _ (entered_iff.mpr enters)
  · intro absent found same
    exact absent _ _ _ (entered_iff.mp same)

/-- What holds of a visit that enters no schema, of one that enters a schema with members of its own, and of
one when it does of the only part it reads as, holds of every visit. -/
theorem visit_induction {root : Value} {holds : Visit → Prop}
    (bare : ∀ visit, entered root visit = none → holds visit)
    (whole : ∀ visit schema opened room, visit.Enters root schema opened room → onlyPart schema = none →
      holds visit)
    (part : ∀ visit schema opened room inner, visit.Enters root schema opened room →
      onlyPart schema = some inner → holds ⟨inner, opened, room⟩ → holds visit)
    (visit : Visit) : holds visit := by
  obtain ⟨levels, same⟩ : ∃ levels, visit.room = levels := ⟨_, rfl⟩
  induction levels generalizing visit with
  | zero =>
      apply bare
      rw [entered, same]
  | succ levels ih =>
      cases found : entered root visit with
      | none => exact bare visit found
      | some entry =>
          obtain ⟨schema, opened, room⟩ := entry
          have enters := entered_iff.mp found
          cases only : onlyPart schema with
          | none => exact whole visit schema opened room enters only
          | some inner =>
              apply part visit schema opened room inner enters only
              apply ih
              cases enters
              exact Nat.succ.inj same

theorem entered_closed (closed : visit.room = 0 ∨ visit.Named root ∨ reached root visit.raw = none) :
    entered root visit = none := by
  rw [entered_eq_none]
  intro schema opened room enters
  cases enters with
  | intro found fresh =>
      obtain shallow | named | absent := closed
      · cases shallow
      · exact fresh named
      · rw [found] at absent
        cases absent

/-- What is not entered is shown as a leaf: a note, a cycle or what is outside the document. -/
theorem leaf_of_not_entered (key name : String) (bare : entered root visit = none) :
    ∃ kind typeName description, visit.node root key name =
      .mk { key := key, kind := kind, name := name, typeName := typeName, description := description } [] := by
  by_cases within : 0 < visit.room
  · obtain ⟨schema, opened, room, enters⟩ | named | absent := visit_cases visit within
    · exact absurd enters (entered_eq_none.mp bare schema opened room)
    · obtain ⟨refName, same⟩ := node_of_named key name named within
      exact ⟨_, _, _, same⟩
    · obtain ⟨reference, same⟩ := node_of_outside key name absent within
      exact ⟨_, _, _, same⟩
  · obtain ⟨raw, opened, room⟩ := visit
    obtain rfl : room = 0 := Nat.eq_zero_of_not_pos within
    exact ⟨_, _, _, rfl⟩

end Entering

section Aligned

theorem exists_zip_left {First Second : Type} {first : List First} {second : List Second}
    (lengths : first.length = second.length) {entry : First} (among : entry ∈ first) :
    ∃ other, (entry, other) ∈ first.zip second := by
  rw [← List.map_fst_zip lengths.le] at among
  obtain ⟨pair, held, rfl⟩ := List.mem_map.mp among
  exact ⟨pair.2, held⟩

theorem exists_zip_right {First Second : Type} {first : List First} {second : List Second}
    (lengths : first.length = second.length) {entry : Second} (among : entry ∈ second) :
    ∃ other, (other, entry) ∈ first.zip second := by
  rw [← List.map_snd_zip lengths.ge] at among
  obtain ⟨pair, held, rfl⟩ := List.mem_map.mp among
  exact ⟨pair.1, held⟩

end Aligned

section Children

variable {root : Value}

def partClosings (root : Value) (room : ℕ) (closings : List Target → Value → List Visit)
    (opened : List Target) (part : Value) : List Visit :=
  match reached root part with
  | none => [⟨part, opened, room⟩]
  | some (value, target) =>
      if (target.map lastKey).any (opened.map lastKey).contains then [⟨part, opened, room⟩]
      else closings (opened ++ target.toList) value

/-- The parts of a schema that are not entered, with what is open at each. -/
def closings (root : Value) (room : ℕ) : ℕ → List Target → Value → List Visit
  | 0, _, _ => []
  | levels + 1, opened, schema =>
      (partsOf schema).flatMap (partClosings root room (closings root room levels) opened)

/-- What a child is made from: a member, a part that is not entered, the schema of further keys, the items,
or the variants under a keyword. -/
inductive Shown where
  | member (key : String) (visit : Visit)
  | part (visit : Visit)
  | anyKey (visit : Visit)
  | items (visit : Visit)
  | choice (keyword : String) (visits : List Visit)

/-- The one schema that a child shows. -/
def Shown.visit : Shown → Option Visit
  | .member _ visit => some visit
  | .part visit => some visit
  | .anyKey visit => some visit
  | .items visit => some visit
  | .choice _ _ => none

/-- Whether a cycle stays marked as one where a child stands. -/
def Shown.marked : Shown → Bool
  | .anyKey _ => false
  | .items _ => false
  | _ => true

def fieldsShown (root : Value) (room : ℕ) (opened : List Target) (schema : Value) : List Shown :=
  (collectMembers root (maxDepth + 1) schema none (opened.map lastKey) {}).props.map
      (fun prop => .member prop.1 ⟨prop.2.1, opened, room⟩) ++
    (closings root (room + 1) (maxDepth + 1) opened schema).map .part ++
    (((schema.get? "additionalProperties").filter (·.asObject.isSome)).map fun additional =>
      Shown.anyKey ⟨additional, opened, room⟩).toList

/-- What the children of a schema show, in their order. -/
def childrenShown (root : Value) (room : ℕ) (opened : List Target) (schema : Value) : List Shown :=
  let own := ownFields root "" "" schema schema
  (if isObject schema own then fieldsShown root room opened schema else []) ++
    (if ¬ isObject schema own ∧ own.jsonType = some "array" then
      ((schema.get? "items").map fun items => Shown.items ⟨items, opened, room⟩).toList else []) ++
    ["oneOf", "anyOf"].flatMap fun keyword =>
      ((arrayOf schema keyword).map fun list => Shown.choice keyword (list.map (⟨·, opened, room⟩))).toList

theorem mem_fieldsShown {room : ℕ} {opened : List Target} {schema : Value} {shown : Shown} :
    shown ∈ fieldsShown root room opened schema ↔
      (∃ prop ∈ (collectMembers root (maxDepth + 1) schema none (opened.map lastKey) {}).props,
        shown = .member prop.1 ⟨prop.2.1, opened, room⟩) ∨
      (∃ visit ∈ closings root (room + 1) (maxDepth + 1) opened schema, shown = .part visit) ∨
      ∃ additional, schema.get? "additionalProperties" = some additional ∧ additional.asObject.isSome ∧
        shown = .anyKey ⟨additional, opened, room⟩ := by
  simp only [fieldsShown, List.mem_append, List.mem_map, Option.mem_toList, Option.map_eq_some_iff,
    Option.filter_eq_some_iff, or_assoc, and_assoc, @eq_comm _ shown]

/-- A child is made from a member, a part, the schema of further keys, the items or the variants. -/
theorem mem_childrenShown {room : ℕ} {opened : List Target} {schema : Value} {shown : Shown} :
    shown ∈ childrenShown root room opened schema ↔
      (isObject schema (ownFields root "" "" schema schema) = true ∧ shown ∈ fieldsShown root room opened schema) ∨
      (isObject schema (ownFields root "" "" schema schema) = false ∧
        (ownFields root "" "" schema schema).jsonType = some "array" ∧
          ∃ items, schema.get? "items" = some items ∧ shown = .items ⟨items, opened, room⟩) ∨
      ∃ keyword ∈ ["oneOf", "anyOf"], ∃ list, arrayOf schema keyword = some list ∧
        shown = .choice keyword (list.map (⟨·, opened, room⟩)) := by
  simp only [childrenShown, List.mem_append, List.mem_flatMap, List.mem_ite_nil_right, Option.mem_toList,
    Option.map_eq_some_iff, or_assoc, and_assoc, Bool.not_eq_true, @eq_comm _ shown]

/-- A node that shows a schema: its children are those of the schema, and it is a cycle when the schema
is and the place marks it. -/
def ShowsOne (root : Value) (marked : Bool) (node : Node) (visit : Visit) : Prop :=
  ∃ key name, node.children = (visit.node root key name).children ∧
    (node.data.kind = .cycle ↔ marked = true ∧ (visit.node root key name).data.kind = .cycle)

/-- A part that is not entered is a cycle, of a component that is open, or a note. -/
def ShowsPart (root : Value) (node : Node) (visit : Visit) : Prop :=
  ((∃ target, visit.target root = some target ∧ lastKey target ∈ visit.names ∧
      node = partCycle (lastKey target)) ∨
    visit.target root = none ∧ ∃ reference, node = outsidePart reference) ∧ ShowsOne root true node visit

def ShowsIt (root : Value) (required : List String) (node : Node) : Shown → Prop
  | .member key visit => ∃ origin,
      node = memberNode (schemaNode root visit.room) visit.names required (key, visit.raw, origin)
  | .part visit => ShowsPart root node visit
  | .anyKey visit => node = withKind .member (visit.node root "{*}" "(any key)")
  | .items visit => node = withKind .items (visit.node root "[]" "items")
  | .choice keyword visits => node.data.key = keyword ∧ node.data.kind = .variants ∧
      List.Forall₂ (fun child visit => ∃ key, child = markedAs .variant (visit.node root key key))
        node.children visits

theorem ShowsPart.kind {node : Node} {visit : Visit} (part : ShowsPart root node visit) :
    node.data.kind = .cycle ∨ node.data.kind = .note := by
  obtain ⟨⟨_, _, _, rfl⟩ | ⟨_, _, rfl⟩, _⟩ := part
  · exact .inl rfl
  · exact .inr rfl

theorem children_markedAs (kind : NodeKind) (node : Node) : (markedAs kind node).children = node.children := by
  rw [markedAs]
  split
  · rfl
  · exact children_amend _ _

theorem kind_markedAs {kind : NodeKind} (other : kind ≠ .cycle) (node : Node) :
    (markedAs kind node).data.kind = .cycle ↔ node.data.kind = .cycle := by
  rw [markedAs]
  split
  · rfl
  · rename_i neither
    rw [not_or] at neither
    simp [withKind, other, neither.1]

theorem key_markedAs (kind : NodeKind) (node : Node) : (markedAs kind node).data.key = node.data.key := by
  rw [markedAs]
  split
  · rfl
  · rw [withKind, data_amend]

/-- The node of a member: that of its schema, with what the schema around it says. -/
theorem showsOne_member (visit : Visit) (required : List String) (key : String) (origin : Option String) :
    ShowsOne root true
      (memberNode (schemaNode root visit.room) visit.names required (key, visit.raw, origin)) visit := by
  refine ⟨key, key, ?_, ?_⟩
  · rw [memberNode, children_amend, children_markedAs]
    rfl
  · rw [memberNode, data_amend]
    exact (kind_markedAs (by simp) _).trans (by simp [Visit.node])

theorem flags_markedAs (kind : NodeKind) (node : Node) :
    (markedAs kind node).data.readOnly = node.data.readOnly ∧
      (markedAs kind node).data.writeOnly = node.data.writeOnly := by
  rw [markedAs]
  split
  · exact ⟨rfl, rfl⟩
  · rw [withKind, data_amend]
    exact ⟨rfl, rfl⟩

theorem showsOne_withKind {kind : NodeKind} (other : kind ≠ .cycle) (visit : Visit) (key name : String) :
    ShowsOne root false (withKind kind (visit.node root key name)) visit := by
  refine ⟨key, name, children_amend _ _, ?_⟩
  simp [withKind, other]

theorem showsOne_variant (visit : Visit) (key name : String) :
    ShowsOne root true (markedAs .variant (visit.node root key name)) visit :=
  ⟨key, name, children_markedAs _ _, (kind_markedAs (by simp) _).trans (by simp)⟩

variable {required : List String} {node : Node}

theorem ShowsIt.one {shown : Shown} {visit : Visit} (shows_it : ShowsIt root required node shown)
    (made : shown.visit = some visit) : ShowsOne root shown.marked node visit := by
  cases shown with
  | member key inner =>
      cases made
      obtain ⟨origin, rfl⟩ := shows_it
      exact showsOne_member visit required key origin
  | part inner => exact Option.some.inj made ▸ shows_it.2
  | anyKey inner =>
      cases made
      obtain rfl := shows_it
      exact showsOne_withKind (by simp) visit _ _
  | items inner =>
      cases made
      obtain rfl := shows_it
      exact showsOne_withKind (by simp) visit _ _
  | choice keyword visits => cases made

theorem ShowsIt.variants {keyword : String} {visits : List Visit}
    (shows_it : ShowsIt root required node (.choice keyword visits)) :
    List.Forall₂ (ShowsOne root true) node.children visits := by
  apply shows_it.2.2.imp
  intro child visit ⟨key, same⟩
  exact same ▸ showsOne_variant visit key key

/-- A member has the key of its property, is required when the name is listed, and carries the flags of
its schema. -/
theorem ShowsIt.member {key : String} {visit : Visit}
    (shows_it : ShowsIt root required node (.member key visit)) :
    node.data.key = key ∧ node.data.required = required.contains key ∧
      node.data.readOnly = (visit.node root key key).data.readOnly ∧
        node.data.writeOnly = (visit.node root key key).data.writeOnly := by
  obtain ⟨origin, rfl⟩ := shows_it
  rw [memberNode, data_amend]
  refine ⟨(key_markedAs _ _).trans (key_schemaNode _ _ _ _ _), rfl, ?_, ?_⟩
  · exact (flags_markedAs _ _).1
  · exact (flags_markedAs _ _).2

/-- A member within the depth limit is shown as a member, or as a cycle. -/
theorem ShowsIt.kind_member {key : String} {visit : Visit}
    (shows_it : ShowsIt root required node (.member key visit)) (within : 0 < visit.room) :
    node.data.kind = .member ∨ node.data.kind = .cycle := by
  obtain ⟨origin, rfl⟩ := shows_it
  rw [memberNode, data_amend]
  change (markedAs .member (visit.node root key key)).data.kind = _ ∨
    (markedAs .member (visit.node root key key)).data.kind = _
  obtain ⟨-, kind⟩ | ⟨-, kind⟩ := @kind_node_cases root key key visit within <;>
    simp [markedAs, withKind, kind]

/-- Only groups of variants are shown as such, and only items as items. -/
theorem ShowsIt.kind_other {shown : Shown} (shows_it : ShowsIt root required node shown) :
    (node.data.kind = .variants → ∃ keyword visits, shown = .choice keyword visits) ∧
      (node.data.kind = .items → ∃ visit, shown = .items visit) := by
  cases shown with
  | member key visit =>
      obtain ⟨origin, rfl⟩ := shows_it
      rw [memberNode, data_amend]
      have kinds : ∀ inner : Node, (markedAs .member inner).data.kind ≠ .variants ∧
          (markedAs .member inner).data.kind ≠ .items := by
        intro inner
        rw [markedAs]
        split
        · rename_i leaf
          obtain kind | kind := leaf <;> simp [kind]
        · simp [withKind]
      exact ⟨fun same => absurd same (kinds _).1, fun same => absurd same (kinds _).2⟩
  | part visit => obtain kind | kind := shows_it.kind <;> simp [kind]
  | anyKey visit =>
      obtain rfl := shows_it
      simp [withKind]
  | items visit =>
      obtain rfl := shows_it
      exact ⟨fun same => by simp [withKind] at same, fun _ => ⟨visit, rfl⟩⟩
  | choice keyword visits => exact ⟨fun _ => ⟨keyword, visits, rfl⟩, fun same => by simp [shows_it.2.1] at same⟩

theorem ShowsIt.key_anyKey {visit : Visit} (shows_it : ShowsIt root required node (.anyKey visit)) :
    node.data.key = "{*}" := by
  obtain rfl := shows_it
  rw [withKind, data_amend]
  exact key_schemaNode _ _ _ _ _

theorem showsPart_cycle {visit : Visit} {target : Target} (found : visit.target root = some target)
    (among : lastKey target ∈ visit.names) (shown : 0 < visit.room) :
    ShowsPart root (partCycle (lastKey target)) visit := by
  obtain ⟨_, same⟩ := node_of_named "" "" ⟨target, found, among⟩ shown
  refine ⟨.inl ⟨target, found, among, rfl⟩, "", "", ?_, ?_⟩
  · rw [same]
    rfl
  · simp [same, partCycle, cycleNode]

theorem showsPart_outside {visit : Visit} (absent : reached root visit.raw = none) (shown : 0 < visit.room)
    (reference : String) : ShowsPart root (outsidePart reference) visit := by
  obtain ⟨_, same⟩ := node_of_outside "" "" absent shown
  refine ⟨.inr ⟨by simp [Visit.target, absent], reference, rfl⟩, "", "", ?_, ?_⟩
  · rw [same]
    rfl
  · simp [same, outsidePart, note, outsideNode]

/-- The cycles and notes among the parts are those of the parts that are not entered. -/
theorem extra_collectMembers {room : ℕ} (shown : 0 < room) (levels : ℕ) (schema : Value)
    (origin : Option String) (opened : List Target) (found : Collected) :
    ∃ nodes, (collectMembers root levels schema origin (opened.map lastKey) found).extra =
        found.extra ++ nodes ∧
      List.Forall₂ (ShowsPart root) nodes (closings root room levels opened schema) := by
  induction levels generalizing schema origin opened found with
  | zero => exact ⟨[], (List.append_nil _).symm, .nil⟩
  | succ levels ih =>
      change ∃ nodes, ((partsOf schema).foldl _ found).extra = _ ∧ List.Forall₂ _ nodes ((partsOf schema).flatMap _)
      induction partsOf schema generalizing found with
      | nil => exact ⟨[], (List.append_nil _).symm, .nil⟩
      | cons part rest again =>
          have first : ∃ nodes, (collectPart root (collectMembers root levels) origin (opened.map lastKey)
                found part).extra = found.extra ++ nodes ∧
              List.Forall₂ (ShowsPart root) nodes
                (partClosings root room (closings root room levels) opened part) := by
            rw [partClosings, collectPart]
            cases reaches : reached root part with
            | none =>
                obtain ⟨reference, failed⟩ := resolve_of_not_reached reaches
                rw [failed]
                exact ⟨[outsidePart reference], rfl, .cons (showsPart_outside reaches shown reference) .nil⟩
            | some entry =>
                obtain ⟨value, target⟩ := entry
                rw [resolve_of_reached reaches]
                cases target with
                | none => simpa using ih value origin opened found
                | some target =>
                    have stack : opened.map lastKey ++ [lastKey target] = (opened ++ [target]).map lastKey := by
                      simp
                    simp only [Option.map_some, Option.any_some, Option.toList_some]
                    split
                    · rename_i named
                      have found : Visit.target root ⟨part, opened, room⟩ = some target := by
                        simp [Visit.target, reaches]
                      have among : lastKey target ∈ Visit.names ⟨part, opened, room⟩ := by
                        simpa [Visit.names] using named
                      exact ⟨[partCycle (lastKey target)], rfl, .cons (showsPart_cycle found among shown) .nil⟩
                    · rw [stack]
                      exact ih value (some (lastKey target)) (opened ++ [target]) found
          obtain ⟨nodes, same, aligned⟩ := first
          obtain ⟨others, same', aligned'⟩ := again (collectPart root (collectMembers root levels) origin
            (opened.map lastKey) found part)
          refine ⟨nodes ++ others, ?_, ?_⟩
          · rw [List.foldl_cons, same', same, List.append_assoc]
          · rw [List.flatMap_cons]
            exact List.rel_append aligned aligned'

/-- The names that a schema and its parts list as required. -/
def requiredShown (root : Value) (opened : List Target) (schema : Value) : List String :=
  (collectMembers root (maxDepth + 1) schema none (opened.map lastKey) {}).required

theorem fields_aligned (room : ℕ) (schema : Value) (opened : List Target) :
    List.Forall₂ (ShowsIt root (requiredShown root opened schema))
      (members root (schemaNode root room) schema (opened.map lastKey) ++
        anyKeyNodes (schemaNode root room) schema (opened.map lastKey))
      (fieldsShown root room opened schema) := by
  apply List.rel_append
  · apply List.rel_append
    · rw [List.forall₂_map_left_iff, List.forall₂_map_right_iff, List.forall₂_same]
      intro prop _
      exact ⟨prop.2.2, rfl⟩
    · obtain ⟨nodes, same, aligned⟩ := @extra_collectMembers root (room + 1) room.succ_pos (maxDepth + 1) schema
        none opened {}
      rw [same, List.nil_append, List.forall₂_map_right_iff]
      exact aligned
  · rw [anyKeyNodes]
    cases schema.get? "additionalProperties" with
    | none => exact .nil
    | some additional =>
        cases object : additional.asObject.isSome with
        | false => simp [Option.filter, object]
        | true =>
            simp only [object, Option.filter_some, Option.map_some, Option.toList_some, if_true]
            exact .cons rfl .nil

theorem items_aligned (required : List String) (room : ℕ) (schema : Value) (opened : List Target)
    (data : NodeData) :
    List.Forall₂ (ShowsIt root required) (itemsNodes (schemaNode root room) schema (opened.map lastKey) data)
      (if ¬ false = true ∧ data.jsonType = some "array" then
        ((schema.get? "items").map fun items => Shown.items ⟨items, opened, room⟩).toList else []) := by
  rw [itemsNodes]
  by_cases array : data.jsonType = some "array"
  · rw [if_pos array, if_pos ⟨by simp, array⟩]
    cases schema.get? "items" with
    | none => exact .nil
    | some items => exact .cons rfl .nil
  · rw [if_neg array, if_neg fun both => array both.2]
    exact .nil

theorem variants_aligned (required : List String) (room : ℕ) (schema : Value) (opened : List Target) :
    List.Forall₂ (ShowsIt root required) (variantsNodes (schemaNode root room) schema (opened.map lastKey))
      (["oneOf", "anyOf"].flatMap fun keyword =>
        ((arrayOf schema keyword).map fun list => Shown.choice keyword (list.map (⟨·, opened, room⟩))).toList) := by
  have aligned : ∀ keyword label, List.Forall₂ (ShowsIt root required)
      ((arrayOf schema keyword).map fun list =>
        variants (schemaNode root room) keyword label schema list (opened.map lastKey)).toList
      ((arrayOf schema keyword).map fun list => Shown.choice keyword (list.map (⟨·, opened, room⟩))).toList := by
    intro keyword label
    cases arrayOf schema keyword with
    | none => exact .nil
    | some list =>
        refine .cons ⟨rfl, rfl, ?_⟩ .nil
        change List.Forall₂ _ (list.zipIdx.map _) _
        rw [List.forall₂_map_left_iff, List.forall₂_map_right_iff,
          ← List.zipIdx_map_fst 0 list, List.forall₂_map_right_iff, List.zipIdx_map_fst, List.forall₂_same]
        intro entry _
        exact ⟨variantKey entry.1 entry.2, rfl⟩
  rw [variantsNodes]
  simp only [List.flatMap_cons, List.flatMap_nil, List.append_nil]
  exact List.rel_append (aligned "oneOf" "one of") (aligned "anyOf" "any of")

/-- The children of a schema show its members, its parts that are not entered, its items and its
variants. -/
theorem children_whole (room : ℕ) (schema raw : Value) (refName : Option String) (opened : List Target)
    (key name : String) :
    List.Forall₂ (ShowsIt root (requiredShown root opened schema))
      (wholeNode root (schemaNode root room) schema refName (opened.map lastKey)
        (ownFields root key name raw schema)).children (childrenShown root room opened schema) := by
  rw [wholeNode, childrenShown, Node.children_mk]
  apply List.rel_append
  · apply List.rel_append
    · change List.Forall₂ _ (if isObject schema (ownFields root "" "" schema schema) then _ else _) _
      split
      · exact fields_aligned room schema opened
      · exact .nil
    · change List.Forall₂ _ (itemsNodes _ schema _ (if isObject schema (ownFields root "" "" schema schema)
        then _ else _)) _
      cases isObject schema (ownFields root "" "" schema schema) with
      | true => simp [itemsNodes]
      | false => exact items_aligned _ room schema opened _
  · exact variants_aligned _ room schema opened

theorem closed_of_closings {room levels : ℕ} {opened : List Target} {schema : Value} {visit : Visit}
    (among : visit ∈ closings root room levels opened schema) :
    visit.room = room ∧ (visit.Named root ∨ reached root visit.raw = none) := by
  induction levels generalizing opened schema with
  | zero => cases among
  | succ levels ih =>
      obtain ⟨part, -, within⟩ := List.mem_flatMap.mp among
      rw [partClosings] at within
      cases reaches : reached root part with
      | none =>
          rw [reaches] at within
          obtain rfl := List.mem_singleton.mp within
          exact ⟨rfl, .inr reaches⟩
      | some entry =>
          obtain ⟨value, target⟩ := entry
          simp only [reaches] at within
          split at within
          · rename_i named
            obtain rfl := List.mem_singleton.mp within
            refine ⟨rfl, .inl ?_⟩
            cases target with
            | none => cases named
            | some target => exact ⟨target, by simp [Visit.target, reaches], by simpa [Visit.names] using named⟩
          · exact ih within

/-- A child has a level less, unless it is a part that is not entered. -/
theorem room_of_childrenShown {room : ℕ} {opened : List Target} {schema : Value} {shown : Shown}
    (among : shown ∈ childrenShown root room opened schema) :
    (∀ visit, shown.visit = some visit → visit.room = room ∨ visit.Named root ∨ reached root visit.raw = none) ∧
      ∀ keyword visits, shown = .choice keyword visits → ∀ visit ∈ visits, visit.room = room := by
  obtain ⟨-, fields⟩ | ⟨-, -, items, -, rfl⟩ | ⟨keyword, -, list, -, rfl⟩ := mem_childrenShown.mp among
  · obtain ⟨prop, -, rfl⟩ | ⟨closed, closing, rfl⟩ | ⟨additional, -, -, rfl⟩ := mem_fieldsShown.mp fields
    · refine ⟨fun visit made => ?_, nofun⟩
      cases made
      exact .inl rfl
    · refine ⟨fun visit made => ?_, nofun⟩
      cases made
      exact .inr (closed_of_closings closing).2
    · refine ⟨fun visit made => ?_, nofun⟩
      cases made
      exact .inl rfl
  · refine ⟨fun visit made => ?_, nofun⟩
    cases made
    exact .inl rfl
  · refine ⟨nofun, fun _ _ same visit held => ?_⟩
    cases same
    obtain ⟨value, -, rfl⟩ := List.mem_map.mp held
    rfl

end Children
end Sanshain.Document.Structure
