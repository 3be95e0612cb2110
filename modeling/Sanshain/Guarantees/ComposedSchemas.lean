import Sanshain.Document.StructureVisits

namespace Sanshain.Guarantees

open Sanshain.Data Sanshain.Document Sanshain.Document.Structure

section Declaring

/-- A schema is composed of itself and of its parts, at any nesting. -/
inductive ComposedOf (root : Value) : Value → Value → Prop
  | self {schema : Value} : ComposedOf root schema schema
  | part {schema part value declaring : Value} {target : Option Target}
      (among : part ∈ Structure.partsOf schema) (found : reached root part = some (value, target))
      (below : ComposedOf root value declaring) :
      ComposedOf root schema declaring

/-- What the schema that a value stands for declares. -/
def DeclaredBy (root raw declaring : Value) : Prop :=
  ∃ schema target, reached root raw = some (schema, target) ∧ ComposedOf root schema declaring

def isNullable (schema : Value) : Bool := (jsonType schema (boolOf schema "nullable")).2

/-- A node has the members of a schema: that of the visit, or that of the only part it reads as. -/
inductive HasMembersOf (root : Value) : Visit → Value → List Target → ℕ → Prop
  | own {visit : Visit} {schema : Value} {opened : List Target} {room : ℕ}
      (enters : visit.Enters root schema opened room) (whole : onlyPart schema = none) :
      HasMembersOf root visit schema opened room
  | part {visit : Visit} {schema part base : Value} {opened opened' : List Target} {room room' : ℕ}
      (enters : visit.Enters root schema opened room) (only : onlyPart schema = some part)
      (below : HasMembersOf root ⟨part, opened, room⟩ base opened' room') :
      HasMembersOf root visit base opened' room'

/-- The schemas that are read into one node, each with the value it was reached from. -/
inductive ReadInto (root : Value) : Visit → Value → Value → Prop
  | own {visit : Visit} {schema : Value} {opened : List Target} {room : ℕ}
      (enters : visit.Enters root schema opened room) : ReadInto root visit visit.raw schema
  | part {visit : Visit} {schema part raw inner : Value} {opened : List Target} {room : ℕ}
      (enters : visit.Enters root schema opened room) (only : onlyPart schema = some part)
      (below : ReadInto root ⟨part, opened, room⟩ raw inner) : ReadInto root visit raw inner

/-- The schemas whose members are collected into a schema, where the names of the components do not stop
the walk. -/
inductive Gathers (root : Value) : ℕ → List Target → Value → Value → Prop
  | own {levels : ℕ} {opened : List Target} {schema : Value} : Gathers root (levels + 1) opened schema schema
  | part {levels : ℕ} {opened : List Target} {schema part value declaring : Value} {target : Option Target}
      (among : part ∈ Structure.partsOf schema) (found : reached root part = some (value, target))
      (fresh : ∀ name ∈ target, lastKey name ∉ opened.map lastKey)
      (below : Gathers root levels (opened ++ target.toList) value declaring) :
      Gathers root (levels + 1) opened schema declaring

/-- A child of a node with what it is made from. -/
def MadeFrom (root : Value) (visit : Visit) (node child : Node) (shown : Structure.Shown) : Prop :=
  ∃ schema opened room, HasMembersOf root visit schema opened room ∧
    (child, shown) ∈ node.children.zip (childrenShown root room opened schema)

/-- A node shows everything that its schema and the parts of that declare. -/
structure ShowsEverything (root : Value) (visit : Visit) (node : Node) : Prop where
  member : ∀ declaring, DeclaredBy root visit.raw declaring →
    ∀ name ∈ (propertiesOf declaring).map Prod.fst, ∃ child inner,
      MadeFrom root visit node child (.member name inner) ∧ child.data.key = name ∧
        (child.data.required = true ↔ ∃ listing, DeclaredBy root visit.raw listing ∧ name ∈ requiredOf listing)
  constraint : ∀ declaring, DeclaredBy root visit.raw declaring →
    ∀ text ∈ constraints declaring, text ∈ node.data.constraints
  readOnly : ∀ declaring, DeclaredBy root visit.raw declaring → boolOf declaring "readOnly" = true →
    node.data.readOnly = true
  writeOnly : ∀ declaring, DeclaredBy root visit.raw declaring → boolOf declaring "writeOnly" = true →
    node.data.writeOnly = true
  nullable : ∀ declaring, DeclaredBy root visit.raw declaring → isNullable declaring = true →
    node.data.nullable = true
  deprecated : ∀ declaring, DeclaredBy root visit.raw declaring → boolOf declaring "deprecated" = true →
    node.data.deprecated = true
  choice : ∀ declaring, DeclaredBy root visit.raw declaring → ∀ keyword ∈ ["oneOf", "anyOf"],
    ∀ list, arrayOf declaring keyword = some list → ∃ child visits,
      MadeFrom root visit node child (.choice keyword visits) ∧ child.data.key = keyword ∧
        visits.map Visit.raw = list
  anyKey : ∀ declaring, DeclaredBy root visit.raw declaring →
    ∀ additional, declaring.get? "additionalProperties" = some additional → additional.asObject.isSome →
      ∃ child inner, MadeFrom root visit node child (.anyKey inner) ∧ child.data.key = "{*}" ∧
        inner.raw = additional

/-- The first schema of a node sets what any of them sets, and the one whose members it has declares what
any of them declares. -/
structure FirstSetsAll (root : Value) (visit : Visit) : Prop where
  member : ∀ declaring, DeclaredBy root visit.raw declaring →
    ∀ name ∈ (propertiesOf declaring).map Prod.fst, ∃ schema opened room,
      HasMembersOf root visit schema opened room ∧
        (∃ part, Gathers root (maxDepth + 1) opened schema part ∧ name ∈ (propertiesOf part).map Prod.fst) ∧
          ((∃ listing, DeclaredBy root visit.raw listing ∧ name ∈ requiredOf listing) →
            ∃ part, Gathers root (maxDepth + 1) opened schema part ∧ name ∈ requiredOf part)
  constraint : ∀ declaring, DeclaredBy root visit.raw declaring → ∀ text ∈ constraints declaring,
    ∃ schema opened room, visit.Enters root schema opened room ∧ text ∈ constraints schema
  readOnly : ∀ declaring, DeclaredBy root visit.raw declaring → boolOf declaring "readOnly" = true →
    ∃ schema opened room, visit.Enters root schema opened room ∧ boolOf schema "readOnly" = true
  writeOnly : ∀ declaring, DeclaredBy root visit.raw declaring → boolOf declaring "writeOnly" = true →
    ∃ schema opened room, visit.Enters root schema opened room ∧ boolOf schema "writeOnly" = true
  nullable : ∀ declaring, DeclaredBy root visit.raw declaring → isNullable declaring = true →
    ∃ schema opened room, visit.Enters root schema opened room ∧ isNullable schema = true
  deprecated : ∀ declaring, DeclaredBy root visit.raw declaring → boolOf declaring "deprecated" = true →
    ∃ raw schema, ReadInto root visit raw schema ∧
      (boolOf schema "deprecated" = true ∨ boolOf raw "deprecated" = true)
  choice : ∀ declaring, DeclaredBy root visit.raw declaring → ∀ keyword ∈ ["oneOf", "anyOf"],
    ∀ list, arrayOf declaring keyword = some list → ∃ schema opened room,
      HasMembersOf root visit schema opened room ∧ arrayOf schema keyword = some list
  anyKey : ∀ declaring, DeclaredBy root visit.raw declaring →
    ∀ additional, declaring.get? "additionalProperties" = some additional → additional.asObject.isSome →
      ∃ schema opened room, HasMembersOf root visit schema opened room ∧
        isObject schema (ownFields root "" "" schema schema) = true ∧
          schema.get? "additionalProperties" = some additional

end Declaring

section Collecting

variable {root : Value} {holds : Collected → Prop} {told : Value → Prop} {levels : ℕ}

/-- A part that is entered tells something. -/
def PartTells (root : Value) (told : Value → Prop) (levels : ℕ) (opened : List Target) (part : Value) : Prop :=
  ∃ value target inner, reached root part = some (value, target) ∧
    (∀ name ∈ target, lastKey name ∉ opened.map lastKey) ∧
      Gathers root levels (opened ++ target.toList) value inner ∧ told inner

theorem holds_collectPart (extra : ∀ found nodes, holds { found with extra := nodes } ↔ holds found)
    (entered : ∀ schema origin opened found,
      holds (collectMembers root levels schema origin (opened.map lastKey) found) ↔
        holds found ∨ ∃ part, Gathers root levels opened schema part ∧ told part)
    (origin : Option String) (opened : List Target) (found : Collected) (part : Value) :
    holds (collectPart root (collectMembers root levels) origin (opened.map lastKey) found part) ↔
      holds found ∨ PartTells root told levels opened part := by
  rw [collectPart, PartTells]
  cases reaches : reached root part with
  | none =>
      obtain ⟨reference, failed⟩ := resolve_of_not_reached reaches
      simp [failed, extra]
  | some entry =>
      obtain ⟨value, target⟩ := entry
      rw [resolve_of_reached reaches]
      cases target with
      | none => simpa using entered value origin opened found
      | some target =>
          have stack : opened.map lastKey ++ [lastKey target] = (opened ++ [target]).map lastKey := by simp
          simp only [Option.map_some]
          by_cases named : lastKey target ∈ opened.map lastKey
          · rw [if_pos (List.contains_iff_mem.mpr named), extra]
            constructor
            · exact .inl
            · intro either
              obtain held | ⟨_, _, _, same, fresh, -⟩ := either
              · exact held
              · cases same
                exact absurd named (fresh target rfl)
          · rw [if_neg fun same => named (List.contains_iff_mem.mp same), stack, entered]
            apply or_congr_right
            constructor
            · intro entered
              obtain ⟨inner, gathers, tells⟩ := entered
              refine ⟨value, some target, inner, rfl, fun name same => ?_, gathers, tells⟩
              cases same
              exact named
            · intro entered
              obtain ⟨_, _, inner, same, _, gathers, tells⟩ := entered
              cases same
              exact ⟨inner, gathers, tells⟩

/-- What is told by the schemas that are entered is told after collecting exactly when it was before, or
one of them tells it. -/
theorem holds_collectMembers
    (own : ∀ schema origin found, holds (collectOwn schema origin found) ↔ holds found ∨ told schema)
    (extra : ∀ found nodes, holds { found with extra := nodes } ↔ holds found)
    (schema : Value) (origin : Option String) (opened : List Target) (found : Collected) :
    holds (collectMembers root levels schema origin (opened.map lastKey) found) ↔
      holds found ∨ ∃ part, Gathers root levels opened schema part ∧ told part := by
  induction levels generalizing schema origin opened found with
  | zero =>
      have nothing : ¬ ∃ part, Gathers root 0 opened schema part ∧ told part := by
        intro ⟨_, gathers, _⟩
        cases gathers
      simp [collectMembers, nothing]
  | succ levels ih =>
      have within : ∀ (parts : List Value) (found : Collected),
          holds (parts.foldl (collectPart root (collectMembers root levels) origin (opened.map lastKey)) found) ↔
            holds found ∨ ∃ part ∈ parts, PartTells root told levels opened part := by
        intro parts
        induction parts with
        | nil => simp
        | cons part rest again =>
            intro found
            rw [List.foldl_cons, again, holds_collectPart extra ih, List.exists_mem_cons_iff, or_assoc]
      rw [collectMembers, own, within]
      constructor
      · intro either
        obtain (held | ⟨part, among, value, target, inner, reaches, fresh, gathers, tells⟩) | tells := either
        · exact .inl held
        · exact .inr ⟨inner, .part among reaches fresh gathers, tells⟩
        · exact .inr ⟨schema, .own, tells⟩
      · intro either
        obtain held | ⟨inner, gathers, tells⟩ := either
        · exact .inl (.inl held)
        · cases gathers with
          | own => exact .inr tells
          | part among reaches fresh below =>
              exact .inl (.inr ⟨_, among, _, _, inner, reaches, fresh, below, tells⟩)

theorem mem_declareProp (origin : Option String) (props : List (String × Value × Option String))
    (entry : String × Value) (name : String) :
    name ∈ (declareProp origin props entry).map Prod.fst ↔ name ∈ props.map Prod.fst ∨ name = entry.1 := by
  induction props with
  | nil => simp [declareProp]
  | cons slot rest ih =>
      rw [declareProp]
      split
      · rename_i same
        simp only [List.map_cons, List.mem_cons, same]
        tauto
      · rw [List.map_cons, List.mem_cons, ih, List.map_cons, List.mem_cons, or_assoc]

theorem mem_collectOwn (schema : Value) (origin : Option String) (found : Collected) (name : String) :
    name ∈ (collectOwn schema origin found).props.map Prod.fst ↔
      name ∈ found.props.map Prod.fst ∨ name ∈ (propertiesOf schema).map Prod.fst := by
  rw [collectOwn]
  generalize found.props = props
  induction propertiesOf schema generalizing props with
  | nil => simp
  | cons entry rest ih => rw [List.foldl_cons, ih, mem_declareProp, List.map_cons, List.mem_cons, or_assoc]

variable (opened : List Target) (schema : Value) (name : String)

/-- The members of a schema are those its own and its parts' properties name. -/
theorem mem_props : name ∈ (collectMembers root (maxDepth + 1) schema none (opened.map lastKey) {}).props.map
      Prod.fst ↔
    ∃ part, Gathers root (maxDepth + 1) opened schema part ∧ name ∈ (propertiesOf part).map Prod.fst := by
  have told := @holds_collectMembers root (fun found => name ∈ found.props.map Prod.fst)
    (fun part => name ∈ (propertiesOf part).map Prod.fst) (maxDepth + 1)
    (fun schema origin found => mem_collectOwn schema origin found name) (fun _ _ => Iff.rfl) schema none opened {}
  simpa using told

theorem mem_requiredShown : name ∈ requiredShown root opened schema ↔
    ∃ part, Gathers root (maxDepth + 1) opened schema part ∧ name ∈ requiredOf part := by
  have told := @holds_collectMembers root (fun found => name ∈ found.required)
    (fun part => name ∈ requiredOf part) (maxDepth + 1)
    (fun schema origin found => List.mem_append) (fun _ _ => Iff.rfl) schema none opened {}
  rw [requiredShown]
  simpa using told

end Collecting

section Nodes

variable {root : Value} {visit : Visit} {schema : Value} {opened : List Target} {room : ℕ}

theorem partsOf_of_onlyPart {part : Value} (only : onlyPart schema = some part) :
    Structure.partsOf schema = [part] := by
  rw [onlyPart] at only
  rw [Structure.partsOf]
  split at only
  · rename_i single whole
    rw [whole]
    split at only
    · cases only
      rfl
    · cases only
  · cases only

theorem declares_of_gathers {levels : ℕ} {part : Value} (gathers : Gathers root levels opened schema part) :
    ComposedOf root schema part := by
  induction gathers with
  | own => exact .self
  | part among found _ _ ih => exact .part among found ih

/-- What the schema declares that gives a node its members, the schema of the node declares. -/
theorem declaredBy_of_hasMembersOf {declaring : Value} (has : HasMembersOf root visit schema opened room)
    (declares : ComposedOf root schema declaring) : DeclaredBy root visit.raw declaring := by
  induction has with
  | own enters _ =>
      cases enters with
      | intro found _ => exact ⟨_, _, found, declares⟩
  | part enters only _ ih =>
      obtain ⟨_, _, found', below⟩ := ih declares
      cases enters with
      | intro found _ =>
          exact ⟨_, _, found, .part (partsOf_of_onlyPart only ▸ List.mem_singleton_self _) found' below⟩

variable (key name : String)

/-- The children of a node are made from those of the schema that gives it its members. -/
theorem aligned_of_hasMembersOf (has : HasMembersOf root visit schema opened room) :
    List.Forall₂ (ShowsIt root (requiredShown root opened schema)) (visit.node root key name).children
      (childrenShown root room opened schema) := by
  induction has with
  | own enters whole =>
      obtain ⟨refName, same⟩ := node_of_enters key name enters
      simp only [whole] at same
      rw [same]
      exact children_whole _ _ _ _ _ _ _
  | part enters only _ ih =>
      obtain ⟨refName, same⟩ := node_of_enters key name enters
      simp only [only] at same
      rw [same, readAs, children_amend]
      exact ih

/-- What a node has from its own schema alone. -/
def ownMarks (data : NodeData) : List String × Bool × Bool × Bool :=
  (data.constraints, data.readOnly, data.writeOnly, data.nullable)

def schemaMarks (schema : Value) : List String × Bool × Bool × Bool :=
  (constraints schema, boolOf schema "readOnly", boolOf schema "writeOnly", isNullable schema)

theorem whole_fields (below : Below) (refName : Option String) (stack : List String) (own : NodeData) :
    ownMarks (wholeNode root below schema refName stack own).data = ownMarks own ∧
      (wholeNode root below schema refName stack own).data.deprecated = own.deprecated := by
  rw [wholeNode]
  cases isObject schema own <;> exact ⟨rfl, rfl⟩

theorem ownMarks_of_enters (enters : visit.Enters root schema opened room) :
    ownMarks (visit.node root key name).data = schemaMarks schema := by
  obtain ⟨refName, same⟩ := node_of_enters key name enters
  rw [same]
  cases onlyPart schema with
  | none => exact (whole_fields _ _ _ _).1
  | some part =>
      simp only [readAs, data_amend]
      rfl

theorem bare_of_not_entered (bare : entered root visit = none) :
    ownMarks (visit.node root key name).data = ([], false, false, false) ∧
      (visit.node root key name).data.deprecated = false := by
  obtain ⟨kind, typeName, description, same⟩ := leaf_of_not_entered key name bare
  rw [same]
  exact ⟨rfl, rfl⟩

/-- A node carries what the first of its schemas sets. -/
theorem ownMarks_iff (holds : List String × Bool × Bool × Bool → Prop)
    (bare : ¬ holds ([], false, false, false)) :
    holds (ownMarks (visit.node root key name).data) ↔
      ∃ schema opened room, visit.Enters root schema opened room ∧ holds (schemaMarks schema) := by
  constructor
  · intro held
    cases found : entered root visit with
    | none =>
        rw [(bare_of_not_entered key name found).1] at held
        exact absurd held bare
    | some entry =>
        have enters := entered_iff.mp found
        exact ⟨_, _, _, enters, ownMarks_of_enters key name enters ▸ held⟩
  · intro ⟨schema, opened, room, enters, held⟩
    rw [ownMarks_of_enters key name enters]
    exact held

theorem mem_constraints_iff (text : String) : text ∈ (visit.node root key name).data.constraints ↔
    ∃ schema opened room, visit.Enters root schema opened room ∧ text ∈ constraints schema :=
  ownMarks_iff key name (fun marks => text ∈ marks.1) List.not_mem_nil

theorem readOnly_iff : (visit.node root key name).data.readOnly = true ↔
    ∃ schema opened room, visit.Enters root schema opened room ∧ boolOf schema "readOnly" = true :=
  ownMarks_iff key name (fun marks => marks.2.1 = true) Bool.false_ne_true

theorem writeOnly_iff : (visit.node root key name).data.writeOnly = true ↔
    ∃ schema opened room, visit.Enters root schema opened room ∧ boolOf schema "writeOnly" = true :=
  ownMarks_iff key name (fun marks => marks.2.2.1 = true) Bool.false_ne_true

theorem nullable_iff : (visit.node root key name).data.nullable = true ↔
    ∃ schema opened room, visit.Enters root schema opened room ∧ isNullable schema = true :=
  ownMarks_iff key name (fun marks => marks.2.2.2 = true) Bool.false_ne_true

theorem enters_unique {schema' : Value} {opened' : List Target} {room' : ℕ}
    (enters : visit.Enters root schema opened room) (enters' : visit.Enters root schema' opened' room') :
    schema = schema' ∧ opened = opened' ∧ room = room' := by
  cases enters with
  | intro found _ =>
      cases enters' with
      | intro found' _ =>
          obtain ⟨rfl, rfl⟩ := Prod.mk.inj (Option.some.inj (found.symm.trans found'))
          exact ⟨rfl, rfl, rfl⟩

/-- The schemas read into a node that enters one: that one, and those of the only part it reads as. -/
theorem readInto_iff (enters : visit.Enters root schema opened room) {raw inner : Value} :
    ReadInto root visit raw inner ↔ raw = visit.raw ∧ inner = schema ∨
      ∃ part, onlyPart schema = some part ∧ ReadInto root ⟨part, opened, room⟩ raw inner := by
  constructor
  · intro read
    cases read with
    | own enters' =>
        obtain ⟨rfl, -, -⟩ := enters_unique enters enters'
        exact .inl ⟨rfl, rfl⟩
    | part enters' only below =>
        obtain ⟨rfl, rfl, rfl⟩ := enters_unique enters enters'
        exact .inr ⟨_, only, below⟩
  · intro either
    obtain ⟨rfl, rfl⟩ | ⟨part, only, below⟩ := either
    · exact .own enters
    · exact .part enters only below

/-- A node is deprecated when one of the schemas read into it is, or the value it was reached from. -/
theorem deprecated_iff : (visit.node root key name).data.deprecated = true ↔
    ∃ raw schema, ReadInto root visit raw schema ∧
      (boolOf schema "deprecated" = true ∨ boolOf raw "deprecated" = true) := by
  induction visit using @visit_induction root with
  | bare visit bare =>
      rw [(bare_of_not_entered key name bare).2]
      rw [entered_eq_none] at bare
      constructor
      · intro deprecated
        cases deprecated
      · intro told
        obtain ⟨raw, schema, read, _⟩ := told
        cases read with
        | own enters => exact absurd enters (bare _ _ _)
        | part enters _ _ => exact absurd enters (bare _ _ _)
  | whole visit schema opened room enters whole =>
      obtain ⟨refName, shown⟩ := node_of_enters key name enters
      simp only [whole] at shown
      simp only [readInto_iff enters, whole]
      rw [shown, (whole_fields _ _ _ _).2]
      simp [ownFields]
  | part visit schema opened room inner enters only ih =>
      obtain ⟨refName, shown⟩ := node_of_enters key name enters
      simp only [only] at shown
      simp only [readInto_iff enters, only]
      rw [shown, readAs, data_amend, Bool.or_eq_true, ih]
      simp only [ownFields, Bool.or_eq_true, Option.some.injEq, exists_eq_left']
      constructor
      · intro either
        obtain own | ⟨raw, below, read, set⟩ := either
        · exact ⟨_, _, .inl ⟨rfl, rfl⟩, own⟩
        · exact ⟨raw, below, .inr read, set⟩
      · intro told
        obtain ⟨raw, below, ⟨rfl, rfl⟩ | read, set⟩ := told
        · exact .inl set
        · exact .inr ⟨raw, below, read, set⟩

end Nodes

section Made

variable {root : Value} {visit inner : Visit} {schema : Value} {opened : List Target} {room : ℕ}

theorem member_mem_childrenShown {name : String} :
    .member name inner ∈ childrenShown root room opened schema ↔
      isObject schema (ownFields root "" "" schema schema) = true ∧
        ∃ prop ∈ (collectMembers root (maxDepth + 1) schema none (opened.map lastKey) {}).props,
          name = prop.1 ∧ inner = ⟨prop.2.1, opened, room⟩ := by
  simp [mem_childrenShown, mem_fieldsShown]

theorem anyKey_mem_childrenShown : .anyKey inner ∈ childrenShown root room opened schema ↔
    isObject schema (ownFields root "" "" schema schema) = true ∧
      ∃ additional, schema.get? "additionalProperties" = some additional ∧ additional.asObject.isSome ∧
        inner = ⟨additional, opened, room⟩ := by
  simp [mem_childrenShown, mem_fieldsShown]

theorem choice_mem_childrenShown {keyword : String} {visits : List Visit} :
    .choice keyword visits ∈ childrenShown root room opened schema ↔
      keyword ∈ ["oneOf", "anyOf"] ∧ ∃ list, arrayOf schema keyword = some list ∧
        visits = list.map (⟨·, opened, room⟩) := by
  simp only [mem_childrenShown, mem_fieldsShown]
  constructor
  · intro made
    obtain ⟨-, ⟨_, -, same⟩ | ⟨_, -, same⟩ | ⟨_, -, -, same⟩⟩ | ⟨-, -, _, -, same⟩ |
      ⟨_, among, list, found, same⟩ := made <;> cases same
    exact ⟨among, list, found, rfl⟩
  · intro ⟨among, list, found, same⟩
    exact .inr (.inr ⟨keyword, among, list, found, same ▸ rfl⟩)

/-- A schema with members or parts to collect them from is shown as an object. -/
theorem isObject_of_gathers {levels : ℕ} {part : Value} {name : String} {data : NodeData}
    (gathers : Gathers root levels opened schema part) (named : name ∈ (propertiesOf part).map Prod.fst) :
    isObject schema data = true := by
  cases gathers with
  | own =>
      have there : (schema.get? "properties").isSome := by
        rw [propertiesOf] at named
        cases found : schema.get? "properties" with
        | none => simp [found] at named
        | some properties => rfl
      simp [isObject, there]
  | part among _ _ _ =>
      have there : (arrayOf schema "allOf").isSome := by
        rw [Structure.partsOf] at among
        cases found : arrayOf schema "allOf" with
        | none => simp [found] at among
        | some parts => rfl
      simp [isObject, there]

end Made

section Composed

variable {root : Value} {visit : Visit} (key name : String)

theorem made_member_iff {member : String} {listed : Prop} :
    (∃ child inner, MadeFrom root visit (visit.node root key name) child (.member member inner) ∧
        child.data.key = member ∧ (child.data.required = true ↔ listed)) ↔
      ∃ schema opened room, HasMembersOf root visit schema opened room ∧
        (∃ part, Gathers root (maxDepth + 1) opened schema part ∧ member ∈ (propertiesOf part).map Prod.fst) ∧
          ((∃ part, Gathers root (maxDepth + 1) opened schema part ∧ member ∈ requiredOf part) ↔ listed) := by
  constructor
  · intro ⟨child, inner, ⟨schema, opened, room, has, made⟩, _, required⟩
    have shown := List.forall₂_zip (aligned_of_hasMembersOf key name has) made
    obtain ⟨-, prop, among, rfl, -⟩ := member_mem_childrenShown.mp (List.of_mem_zip made).2
    refine ⟨schema, opened, room, has, (mem_props opened schema _).mp (List.mem_map_of_mem among), ?_⟩
    rw [← mem_requiredShown, ← required, shown.member.2.1, List.contains_iff_mem]
  · intro ⟨schema, opened, room, has, ⟨part, gathers, named⟩, required⟩
    obtain ⟨prop, among, rfl⟩ := List.mem_map.mp ((mem_props opened schema _).mpr ⟨part, gathers, named⟩)
    have aligned := aligned_of_hasMembersOf key name has
    have within : .member prop.1 ⟨prop.2.1, opened, room⟩ ∈ childrenShown root room opened schema :=
      member_mem_childrenShown.mpr ⟨isObject_of_gathers gathers named, prop, among, rfl, rfl⟩
    obtain ⟨child, made⟩ := exists_zip_right aligned.length_eq within
    have shown := List.forall₂_zip aligned made
    refine ⟨child, _, ⟨schema, opened, room, has, made⟩, shown.member.1, ?_⟩
    rw [shown.member.2.1, List.contains_iff_mem, mem_requiredShown, required]

theorem made_choice_iff {keyword : String} (known : keyword ∈ ["oneOf", "anyOf"]) {list : List Value} :
    (∃ child visits, MadeFrom root visit (visit.node root key name) child (.choice keyword visits) ∧
        child.data.key = keyword ∧ visits.map Visit.raw = list) ↔
      ∃ schema opened room, HasMembersOf root visit schema opened room ∧ arrayOf schema keyword = some list := by
  constructor
  · intro ⟨child, visits, ⟨schema, opened, room, has, made⟩, _, same⟩
    obtain ⟨-, list, found, rfl⟩ := choice_mem_childrenShown.mp (List.of_mem_zip made).2
    rw [List.map_map] at same
    have raws : list.map (Visit.raw ∘ (⟨·, opened, room⟩)) = list := List.map_id list
    exact ⟨schema, opened, room, has, found.trans (congrArg some (raws.symm.trans same))⟩
  · intro ⟨schema, opened, room, has, found⟩
    have aligned := aligned_of_hasMembersOf key name has
    have within : .choice keyword (list.map (⟨·, opened, room⟩)) ∈ childrenShown root room opened schema :=
      choice_mem_childrenShown.mpr ⟨known, list, found, rfl⟩
    obtain ⟨child, made⟩ := exists_zip_right aligned.length_eq within
    refine ⟨child, _, ⟨schema, opened, room, has, made⟩, (List.forall₂_zip aligned made).1, ?_⟩
    rw [List.map_map]
    exact List.map_id list

theorem made_anyKey_iff {additional : Value} (object : additional.asObject.isSome) :
    (∃ child inner, MadeFrom root visit (visit.node root key name) child (.anyKey inner) ∧
        child.data.key = "{*}" ∧ inner.raw = additional) ↔
      ∃ schema opened room, HasMembersOf root visit schema opened room ∧
        isObject schema (ownFields root "" "" schema schema) = true ∧
          schema.get? "additionalProperties" = some additional := by
  constructor
  · intro ⟨child, inner, ⟨schema, opened, room, has, made⟩, _, same⟩
    obtain ⟨whole, found, there, -, rfl⟩ := anyKey_mem_childrenShown.mp (List.of_mem_zip made).2
    exact ⟨schema, opened, room, has, whole, same ▸ there⟩
  · intro ⟨schema, opened, room, has, whole, there⟩
    have aligned := aligned_of_hasMembersOf key name has
    have within : .anyKey ⟨additional, opened, room⟩ ∈ childrenShown root room opened schema :=
      anyKey_mem_childrenShown.mpr ⟨whole, additional, there, object, rfl⟩
    obtain ⟨child, made⟩ := exists_zip_right aligned.length_eq within
    exact ⟨child, _, ⟨schema, opened, room, has, made⟩, (List.forall₂_zip aligned made).key_anyKey, rfl⟩

/-- What the members of a node are collected from lists nothing as required that its schema does not. -/
theorem listed_of_gathers {member : String} {schema : Value} {opened : List Target} {room : ℕ}
    (has : HasMembersOf root visit schema opened room)
    (lists : ∃ part, Gathers root (maxDepth + 1) opened schema part ∧ member ∈ requiredOf part) :
    ∃ listing, DeclaredBy root visit.raw listing ∧ member ∈ requiredOf listing := by
  obtain ⟨part, gathers, listed⟩ := lists
  exact ⟨part, declaredBy_of_hasMembersOf has (declares_of_gathers gathers), listed⟩

theorem showsEverything_iff :
    ShowsEverything root visit (visit.node root key name) ↔ FirstSetsAll root visit := by
  constructor
  · intro shows_all
    constructor
    · intro declaring declared member named
      obtain ⟨schema, opened, room, has, gathered, required⟩ :=
        (made_member_iff key name).mp (shows_all.member declaring declared member named)
      exact ⟨schema, opened, room, has, gathered, required.mpr⟩
    · intro declaring declared text among
      exact (mem_constraints_iff key name text).mp (shows_all.constraint declaring declared text among)
    · intro declaring declared set
      exact (readOnly_iff key name).mp (shows_all.readOnly declaring declared set)
    · intro declaring declared set
      exact (writeOnly_iff key name).mp (shows_all.writeOnly declaring declared set)
    · intro declaring declared set
      exact (nullable_iff key name).mp (shows_all.nullable declaring declared set)
    · intro declaring declared set
      exact (deprecated_iff key name).mp (shows_all.deprecated declaring declared set)
    · intro declaring declared keyword known list found
      exact (made_choice_iff key name known).mp (shows_all.choice declaring declared keyword known list found)
    · intro declaring declared additional there object
      exact (made_anyKey_iff key name object).mp (shows_all.anyKey declaring declared additional there object)
  · intro sets
    constructor
    · intro declaring declared member named
      obtain ⟨schema, opened, room, has, gathered, required⟩ := sets.member declaring declared member named
      exact (made_member_iff key name).mpr
        ⟨schema, opened, room, has, gathered, listed_of_gathers has, required⟩
    · intro declaring declared text among
      exact (mem_constraints_iff key name text).mpr (sets.constraint declaring declared text among)
    · intro declaring declared set
      exact (readOnly_iff key name).mpr (sets.readOnly declaring declared set)
    · intro declaring declared set
      exact (writeOnly_iff key name).mpr (sets.writeOnly declaring declared set)
    · intro declaring declared set
      exact (nullable_iff key name).mpr (sets.nullable declaring declared set)
    · intro declaring declared set
      exact (deprecated_iff key name).mpr (sets.deprecated declaring declared set)
    · intro declaring declared keyword known list found
      exact (made_choice_iff key name known).mpr (sets.choice declaring declared keyword known list found)
    · intro declaring declared additional there object
      exact (made_anyKey_iff key name object).mpr (sets.anyKey declaring declared additional there object)

end Composed

section Trouble

/-- A clash of a component with those that are open. -/
abbrev Clash := List Target → Target → Prop

def sameTarget : Clash := fun opened target => target ∈ opened

def sameName : Clash := fun opened target => lastKey target ∈ opened.map lastKey

/-- The parts of a schema, at any nesting within the levels, are in the document and clash with none that
are open. -/
def Merges (clash : Clash) (root : Value) : ℕ → List Target → Value → Prop
  | 0, _, _ => False
  | levels + 1, opened, schema => ∀ part ∈ Structure.partsOf schema, ∃ value target,
      reached root part = some (value, target) ∧ (∀ name ∈ target, ¬ clash opened name) ∧
        Merges clash root levels (opened ++ target.toList) value

/-- The schema of a visit and its parts lead to no clash, to nothing outside the document and to no depth
limit. -/
def Composes (clash : Clash) (root : Value) : ℕ → List Target → Value → Prop
  | 0, _, _ => False
  | room + 1, opened, raw => ∃ schema target, reached root raw = some (schema, target) ∧
      (∀ name ∈ target, ¬ clash opened name) ∧
        ((∃ part, onlyPart schema = some part ∧ Composes clash root room (opened ++ target.toList) part) ∨
          onlyPart schema = none ∧ Merges clash root (maxDepth + 1) (opened ++ target.toList) schema)

variable {root : Value}

theorem gathers_of_merges {levels : ℕ} {opened : List Target} {schema declaring : Value}
    (merges : Merges sameName root levels opened schema) (declares : ComposedOf root schema declaring) :
    Gathers root levels opened schema declaring := by
  induction levels generalizing opened schema with
  | zero => exact merges.elim
  | succ levels ih =>
      cases declares with
      | self => exact .own
      | part among found below =>
          obtain ⟨value, target, found', fresh, merges⟩ := merges _ among
          obtain ⟨rfl, rfl⟩ := Prod.mk.inj (Option.some.inj (found'.symm.trans found))
          exact .part among found fresh (ih merges below)

/-- Where the names of components do not clash, the members are collected from all that the schema
declares that gives a node its members. -/
theorem hasMembersOf_of_composes {room : ℕ} {opened : List Target} {raw : Value}
    (composes : Composes sameName root room opened raw) : ∃ schema opened' room',
      HasMembersOf root ⟨raw, opened, room⟩ schema opened' room' ∧
        ∀ declaring, ComposedOf root schema declaring → Gathers root (maxDepth + 1) opened' schema declaring := by
  induction room generalizing opened raw with
  | zero => exact composes.elim
  | succ room ih =>
      obtain ⟨schema, target, found, fresh, either⟩ := composes
      have enters : Visit.Enters root ⟨raw, opened, room + 1⟩ schema (opened ++ target.toList) room := by
        apply Visit.Enters.intro found
        intro ⟨name, same, named⟩
        rw [Visit.target, found, Option.bind_some] at same
        exact fresh name same named
      obtain ⟨part, only, composes⟩ | ⟨whole, merges⟩ := either
      · obtain ⟨base, opened', room', has, gathers⟩ := ih composes
        exact ⟨base, opened', room', .part enters only has, gathers⟩
      · exact ⟨schema, _, room, .own enters whole, fun declaring => gathers_of_merges merges⟩

/-- A schema is shown with everything it and its parts declare exactly when the first of the schemas read
into its node sets what any of them sets and the one that gives it its members declares what any of them
declares; those members are collected from all parts when no names clash. -/
theorem composed_schema_shown (root : Value) (visit : Visit) (key name : String) :
    (ShowsEverything root visit (visit.node root key name) ↔ FirstSetsAll root visit) ∧
      (Composes sameName root visit.room visit.opened visit.raw → ∃ schema opened room,
        HasMembersOf root visit schema opened room ∧
          ∀ declaring, ComposedOf root schema declaring → Gathers root (maxDepth + 1) opened schema declaring) :=
  ⟨showsEverything_iff key name, hasMembersOf_of_composes⟩

end Trouble

section Codes

def codeSchema : Value :=
  .object [("type", .string "string"), ("maxLength", .number "5"), ("readOnly", .bool true)]

def codeReference : Value := .object [("$ref", .string "#/components/schemas/Code")]

def codeDocument : Value := .object [("components", .object [("schemas", .object [("Code", codeSchema)])])]

/-- A code that reads as its only part. -/
def wrappedCode : Value := .object [("allOf", .array [codeReference])]

theorem reached_code :
    reached codeDocument codeReference = some (codeSchema, some ["components", "schemas", "Code"]) := rfl

theorem reached_wrappedCode : reached codeDocument wrappedCode = some (wrappedCode, none) := rfl

theorem wrappedCode_composes : Composes sameTarget codeDocument (maxDepth + 1) [] wrappedCode := by
  refine ⟨wrappedCode, none, reached_wrappedCode, nofun, .inl ⟨codeReference, rfl, ?_⟩⟩
  refine ⟨codeSchema, some ["components", "schemas", "Code"], reached_code, fun name _ among => ?_, .inr ⟨rfl, ?_⟩⟩
  · cases among
  · intro part among
    cases among

/-- The only part of a schema loses its constraints and its direction. -/
theorem wrapped_code_loses_constraint :
    Composes sameTarget codeDocument (maxDepth + 1) [] wrappedCode ∧
      ¬ ShowsEverything codeDocument ⟨wrappedCode, [], maxDepth + 1⟩
        (topNode codeDocument "code" "code" wrappedCode) := by
  refine ⟨wrappedCode_composes, fun shows_all => ?_⟩
  have declared : DeclaredBy codeDocument wrappedCode codeSchema :=
    ⟨wrappedCode, none, reached_wrappedCode, .part (List.mem_singleton_self _) reached_code .self⟩
  have carried := shows_all.constraint codeSchema declared "max length 5" (by decide)
  have none_there : (topNode codeDocument "code" "code" wrappedCode).data.constraints = [] := rfl
  rw [none_there] at carried
  cases carried

end Codes
end Sanshain.Guarantees
