import Sanshain.Document.SampleSources
import Sanshain.Guarantees.ComposedSchemas
import Sanshain.Guarantees.StructureCycles

namespace Sanshain.Guarantees

open Sanshain.Data Sanshain.Document Sanshain.Document.Structure

section Reading

variable {root : Value} {visit : Visit} {schema : Value} {opened : List Target} {room : ℕ} {α : Type}

/-- A schema is read along the only parts: what the first sets that sets anything, the last of them as a
whole. -/
def readAlong (root : Value) (own : Value → Option α) (whole : ℕ → List Target → Value → Option α) :
    ℕ → List Target → Value → Option α
  | 0, _, _ => none
  | room + 1, opened, raw => (entered root ⟨raw, opened, room + 1⟩).bind fun entry =>
      match onlyPart entry.1 with
      | some part => (own entry.1).or (readAlong root own whole room entry.2.1 part)
      | none => whole room entry.2.1 entry.1

variable {own : Value → Option α} {whole : ℕ → List Target → Value → Option α}

theorem readAlong_enters (enters : visit.Enters root schema opened room) :
    readAlong root own whole visit.room visit.opened visit.raw =
      match onlyPart schema with
      | some part => (own schema).or (readAlong root own whole room opened part)
      | none => whole room opened schema := by
  have found := entered_iff.mpr enters
  cases enters with
  | intro _ _ => rw [readAlong, found, Option.bind_some]

theorem readAlong_bare (bare : entered root visit = none) :
    readAlong root own whole visit.room visit.opened visit.raw = none := by
  obtain ⟨raw, opened, room⟩ := visit
  cases room with
  | zero => rfl
  | succ room => rw [readAlong, bare, Option.bind_none]

end Reading

section Shape

variable (root : Value) (visit : Visit)

/-- The type a schema declares. -/
def declaredType (schema : Value) : Option String := (jsonType schema (boolOf schema "nullable")).1

/-- A schema with members is an object, whatever type it declares. -/
def wholeType (schema : Value) : Option String :=
  if isObject schema (ownFields root "" "" schema schema) then some "object" else declaredType schema

def firstValue (schema : Value) : Option Value := (enumOf schema).head?

def shownType : Option String :=
  readAlong root declaredType (fun _ _ => wholeType root) visit.room visit.opened visit.raw

/-- The first of the values that the schema of a visit lists. -/
def shownValue : Option Value :=
  readAlong root firstValue (fun _ _ => firstValue) visit.room visit.opened visit.raw

def childrenOf : List Structure.Shown :=
  (readAlong root (fun _ => none) (fun room opened schema => some (childrenShown root room opened schema))
    visit.room visit.opened visit.raw).getD []

variable {root visit} {schema : Value} {opened : List Target} {room : ℕ}

theorem childrenOf_whole (enters : visit.Enters root schema opened room) (whole : onlyPart schema = none) :
    childrenOf root visit = childrenShown root room opened schema := by
  rw [childrenOf, readAlong_enters enters, whole]
  rfl

theorem childrenOf_part {part : Value} (enters : visit.Enters root schema opened room)
    (only : onlyPart schema = some part) : childrenOf root visit = childrenOf root ⟨part, opened, room⟩ := by
  rw [childrenOf, readAlong_enters enters, only]
  rfl

theorem childrenOf_bare (bare : entered root visit = none) : childrenOf root visit = [] := by
  rw [childrenOf, readAlong_bare bare]
  rfl

end Shape

section Kept

/-- The keyword of the members that the example for a direction leaves out. -/
def marker : Direction → Option String
  | .request => some "readOnly"
  | .response => some "writeOnly"
  | .message => none

variable (root : Value) (direction : Direction)

/-- The first schema of a visit sets the keyword of the direction. -/
def setsFirst (visit : Visit) : Bool :=
  (marker direction).any fun keyword => (entered root visit).any fun entry => boolOf entry.1 keyword

/-- The key and the schema of a child that an example has a value for: of a member, or of a part that is
not entered because it is open above. -/
def keptAs : Structure.Shown → Option (String × Visit)
  | .member key inner =>
      if key = "{*}" ∨ inner.room = 0 ∨ setsFirst root direction inner = true then none else some (key, inner)
  | .part inner =>
      (((inner.target root).map lastKey).filter fun name => name ∈ inner.names && name ≠ "{*}").map (·, inner)
  | _ => none

def keepMember (fields : Entries String Visit) (one : Structure.Shown) : Entries String Visit :=
  match keptAs root direction one with
  | some entry => fields.insert entry.1 entry.2
  | none => fields

/-- The schemas of the members that the example of an object has, under their keys. -/
def membersKept (shown : List Structure.Shown) : Entries String Visit :=
  shown.foldl (keepMember root direction) []

def choicesOf : Structure.Shown → Option (List Visit)
  | .choice _ visits => some visits
  | _ => none

/-- The first variant of the first oneOf or anyOf. -/
def firstVariant (shown : List Structure.Shown) : Option Visit := (shown.findSome? choicesOf).bind List.head?

def itemsOf : Structure.Shown → Option Visit
  | .items inner => some inner
  | _ => none

def firstItems (shown : List Structure.Shown) : Option Visit := shown.findSome? itemsOf

end Kept

section Places

/-- What an example has a value from: the placeholder of a schema, or a value. -/
inductive Place where
  | schema (visit : Visit)
  | value (value : Value)

variable (root : Value) (direction : Direction)

/-- A cycle, and what is nested too deep, is null where it is marked; a listed value comes first. -/
def placeOf (marked : Bool) (visit : Visit) : Place :=
  if marked = true ∧ (visit.room = 0 ∨ visit.Named root) then .value .null
  else match shownValue root visit with
    | some value => .value value
    | none => .schema visit

/-- The placeholder of a schema is one for an object. -/
def objectAt (visit : Visit) : Bool :=
  (shownType root visit).all fun type => type ∉ ["array", "string", "integer", "number", "boolean", "null"]

def arrayAt (visit : Visit) : Bool := shownType root visit = some "array"

/-- An example has under a key the value from a place. -/
inductive BringsAt : Place → String → Place → Prop
  | value {value field : Value} {key : String} (held : value.get? key = some field) :
      BringsAt (.value value) key (.value field)
  | member {visit inner : Visit} {key : String} (object : objectAt root visit = true)
      (held : (membersKept root direction (childrenOf root visit)).get? key = some inner) :
      BringsAt (.schema visit) key (placeOf root true inner)
  | variant {visit inner : Visit} {key : String} {place : Place} (object : objectAt root visit = true)
      (absent : (membersKept root direction (childrenOf root visit)).get? key = none)
      (chosen : firstVariant (childrenOf root visit) = some inner)
      (brings : BringsAt (placeOf root true inner) key place) : BringsAt (.schema visit) key place

/-- A value has a key, or a schema or its chosen variant keeps a member of it. -/
inductive CarriesAt : Place → String → Prop
  | value {value : Value} {key : String} (held : (value.get? key).isSome) : CarriesAt (.value value) key
  | member {visit : Visit} {key : String} (object : objectAt root visit = true)
      (held : ((membersKept root direction (childrenOf root visit)).get? key).isSome) :
      CarriesAt (.schema visit) key
  | variant {visit inner : Visit} {key : String} (object : objectAt root visit = true)
      (chosen : firstVariant (childrenOf root visit) = some inner)
      (carries : CarriesAt (placeOf root true inner) key) : CarriesAt (.schema visit) key

/-- An example is a list that holds the value from a place. -/
inductive HoldsAt : Place → Place → Prop
  | value {value element : Value} (among : element ∈ value.asArray.getD []) :
      HoldsAt (.value value) (.value element)
  | items {visit inner : Visit} (list : arrayAt root visit = true)
      (there : firstItems (childrenOf root visit) = some inner) :
      HoldsAt (.schema visit) (placeOf root false inner)
  | empty {visit : Visit} (list : arrayAt root visit = true)
      (absent : firstItems (childrenOf root visit) = none) : HoldsAt (.schema visit) (.value .null)
  | variant {visit inner : Visit} {place : Place} (object : objectAt root visit = true)
      (bare : membersKept root direction (childrenOf root visit) = [])
      (chosen : firstVariant (childrenOf root visit) = some inner)
      (holds : HoldsAt (placeOf root true inner) place) : HoldsAt (.schema visit) place

inductive ShowsObjectAt : Place → Prop
  | value {value : Value} (object : value.asObject.isSome) : ShowsObjectAt (.value value)
  | members {visit : Visit} (object : objectAt root visit = true)
      (some_kept : membersKept root direction (childrenOf root visit) ≠ []) : ShowsObjectAt (.schema visit)
  | alone {visit : Visit} (object : objectAt root visit = true)
      (plain : firstVariant (childrenOf root visit) = none) : ShowsObjectAt (.schema visit)
  | variant {visit inner : Visit} (object : objectAt root visit = true)
      (chosen : firstVariant (childrenOf root visit) = some inner)
      (shows_object : ShowsObjectAt (placeOf root true inner)) : ShowsObjectAt (.schema visit)

end Places

section Drawn

/-- A node made from what a schema shows. -/
def Made (root : Value) (node : Node) (shown : Structure.Shown) : Prop :=
  ∃ required, ShowsIt root required node shown

/-- A node drawn from a schema: its type, its first value and its children are those of the schema, and it
is a cycle or a note where the schema is closed and its place says so. -/
structure Drawn (root : Value) (marked : Bool) (node : Node) (visit : Visit) : Prop where
  shut : node.data.kind = .cycle ∨ node.data.kind = .note ↔
    marked = true ∧ (visit.room = 0 ∨ visit.Named root)
  type : node.data.jsonType = shownType root visit
  value : node.data.enumValues.head? = shownValue root visit
  children : List.Forall₂ (Made root) node.children (childrenOf root visit)

variable {root : Value} {visit : Visit} {node : Node} {marked : Bool} (key name : String)

theorem node_of_bare (bare : entered root visit = none) :
    (visit.node root key name).data.jsonType = none ∧ (visit.node root key name).data.enumValues = [] ∧
      (visit.node root key name).children = [] := by
  obtain ⟨kind, typeName, description, same⟩ := leaf_of_not_entered key name bare
  rw [same]
  exact ⟨rfl, rfl, rfl⟩

theorem shut_node :
    (visit.node root key name).data.kind = .cycle ∨ (visit.node root key name).data.kind = .note ↔
      visit.room = 0 ∨ visit.Named root := by
  by_cases within : 0 < visit.room
  · obtain ⟨named, kind⟩ | ⟨plain, kind⟩ := @kind_node_cases root key name visit within
    · simp [kind, named]
    · simp [kind, plain, within.ne']
  · obtain ⟨raw, opened, room⟩ := visit
    obtain rfl : room = 0 := Nat.eq_zero_of_not_pos within
    exact ⟨fun _ => .inl rfl, fun _ => .inr rfl⟩

theorem type_node : (visit.node root key name).data.jsonType = shownType root visit := by
  induction visit using @visit_induction root with
  | bare visit bare => rw [shownType, readAlong_bare bare, (node_of_bare key name bare).1]
  | whole visit schema opened room enters whole =>
      obtain ⟨refName, same⟩ := node_of_enters key name enters
      simp only [whole] at same
      rw [same, shownType, readAlong_enters enters, whole, wholeNode]
      change (if isObject schema (ownFields root "" "" schema schema) then _ else _ : NodeData).jsonType =
        wholeType root schema
      rw [wholeType]
      split <;> rfl
  | part visit schema opened room inner enters only ih =>
      obtain ⟨refName, same⟩ := node_of_enters key name enters
      simp only [only] at same
      rw [same, readAs, data_amend, ih, shownType, shownType, readAlong_enters enters, only]
      rfl

theorem value_node : (visit.node root key name).data.enumValues.head? = shownValue root visit := by
  induction visit using @visit_induction root with
  | bare visit bare =>
      rw [shownValue, readAlong_bare bare, (node_of_bare key name bare).2.1]
      rfl
  | whole visit schema opened room enters whole =>
      obtain ⟨refName, same⟩ := node_of_enters key name enters
      simp only [whole] at same
      rw [same, shownValue, readAlong_enters enters, whole, wholeNode]
      change (if isObject schema (ownFields root "" "" schema schema) then _ else _ : NodeData).enumValues.head? =
        firstValue schema
      split <;> rfl
  | part visit schema opened room inner enters only ih =>
      obtain ⟨refName, same⟩ := node_of_enters key name enters
      simp only [only] at same
      rw [same, readAs, data_amend, shownValue, readAlong_enters enters, only]
      change (if enumOf schema = [] then _ else enumOf schema).head? = (firstValue schema).or _
      rw [firstValue]
      cases enumOf schema with
      | nil => exact ih
      | cons value rest => rfl

theorem children_node :
    List.Forall₂ (Made root) (visit.node root key name).children (childrenOf root visit) := by
  induction visit using @visit_induction root with
  | bare visit bare =>
      rw [childrenOf_bare bare, (node_of_bare key name bare).2.2]
      exact .nil
  | whole visit schema opened room enters whole =>
      rw [childrenOf_whole enters whole]
      exact (aligned_of_hasMembersOf key name (.own enters whole)).imp fun child shown shows_it => ⟨_, shows_it⟩
  | part visit schema opened room inner enters only ih =>
      obtain ⟨refName, same⟩ := node_of_enters key name enters
      simp only [only] at same
      rw [same, readAs, children_amend, childrenOf_part enters only]
      exact ih

variable {key name}

theorem drawn_node : Drawn root true (visit.node root key name) visit where
  shut := by simp [shut_node]
  type := type_node key name
  value := value_node key name
  children := children_node key name

/-- The node of a member or a variant stays a cycle or a note. -/
theorem Drawn.markedAs {kind : NodeKind} (plain : kind ≠ .cycle ∧ kind ≠ .note)
    (drawn : Drawn root true node visit) : Drawn root true (markedAs kind node) visit := by
  rw [Structure.markedAs]
  split
  · exact drawn
  · rename_i neither
    exact
      { shut := by
          rw [← drawn.shut, withKind, data_amend]
          simp [plain, neither]
        type := by rw [withKind, data_amend]; exact drawn.type
        value := by rw [withKind, data_amend]; exact drawn.value
        children := by rw [withKind, children_amend]; exact drawn.children }

theorem Drawn.withKind {kind : NodeKind} (plain : kind ≠ .cycle ∧ kind ≠ .note)
    (drawn : Drawn root marked node visit) : Drawn root false (withKind kind node) visit where
  shut := by
    rw [Structure.withKind, data_amend]
    simp [plain]
  type := by rw [Structure.withKind, data_amend]; exact drawn.type
  value := by rw [Structure.withKind, data_amend]; exact drawn.value
  children := by rw [Structure.withKind, children_amend]; exact drawn.children

theorem any_entered {keyword : String} : ((entered root visit).any fun entry => boolOf entry.1 keyword) = true ↔
    ∃ schema opened room, visit.Enters root schema opened room ∧ boolOf schema keyword = true := by
  rw [Option.any_eq_true]
  constructor
  · intro told
    obtain ⟨⟨schema, opened, room⟩, found, set⟩ := told
    exact ⟨schema, opened, room, entered_iff.mp found, set⟩
  · intro told
    obtain ⟨schema, opened, room, enters, set⟩ := told
    exact ⟨⟨schema, opened, room⟩, entered_iff.mpr enters, set⟩

/-- The flags of a node are those that its first schema sets. -/
theorem setsFirst_eq (direction : Direction) :
    setsFirst root direction visit =
      (decide (direction = .request) && (visit.node root key name).data.readOnly ||
        decide (direction = .response) && (visit.node root key name).data.writeOnly) := by
  rw [Bool.eq_iff_iff]
  cases direction with
  | request => simp [setsFirst, marker, any_entered, readOnly_iff key name]
  | response => simp [setsFirst, marker, any_entered, writeOnly_iff key name]
  | message => simp [setsFirst, marker]

theorem drawn_partCycle {target : Target} (found : visit.target root = some target)
    (among : lastKey target ∈ visit.names) : Drawn root true (partCycle (lastKey target)) visit := by
  have named : visit.Named root := ⟨target, found, among⟩
  have bare := entered_closed (.inr (.inl named))
  exact
    { shut := ⟨fun _ => ⟨rfl, .inr named⟩, fun _ => .inl rfl⟩
      type := by rw [shownType, readAlong_bare bare]; rfl
      value := by rw [shownValue, readAlong_bare bare]; rfl
      children := by rw [childrenOf_bare bare]; exact .nil }

/-- An example has a value for the children that are kept, each drawn from its schema, and for no other. -/
theorem kept_of_made {direction : Direction} {shown : Structure.Shown} (made : Made root node shown) :
    match keptAs root direction shown with
    | some entry => skips direction node.data = false ∧ node.data.key = entry.1 ∧ Drawn root true node entry.2
    | none => skips direction node.data = true := by
  obtain ⟨required, shows_it⟩ := made
  cases shown with
  | member key inner =>
      obtain ⟨named, -, readOnly, writeOnly⟩ := shows_it.member
      have flags := @setsFirst_eq root inner key key direction
      rw [← readOnly, ← writeOnly] at flags
      by_cases left_out : key = "{*}" ∨ inner.room = 0 ∨ setsFirst root direction inner = true
      · simp only [keptAs, if_pos left_out]
        obtain any_key | closed | set := left_out
        · simp [skips, named, any_key]
        · have note : node.data.kind = .note := by
            obtain ⟨raw, opened, room⟩ := inner
            obtain rfl : room = 0 := closed
            obtain ⟨origin, rfl⟩ := shows_it
            rfl
          simp [skips, note]
        · rw [flags] at set
          rw [skips]
          simp only [Bool.or_eq_true] at set ⊢
          tauto
      · simp only [keptAs, if_neg left_out]
        rw [not_or, not_or] at left_out
        obtain ⟨plain, open_room, unset⟩ := left_out
        refine ⟨?_, named, ?_⟩
        · have kind := shows_it.kind_member (Nat.pos_of_ne_zero open_room)
          rw [flags, Bool.not_eq_true, Bool.or_eq_false_iff] at unset
          have member : (decide (node.data.kind = .member) || decide (node.data.kind = .cycle)) = true := by
            simpa using kind
          simp [skips, member, unset, named, plain]
        · obtain ⟨origin, rfl⟩ := shows_it
          have plain_kind : NodeKind.member ≠ .cycle ∧ NodeKind.member ≠ .note := by simp
          have drawn := (@drawn_node root inner key key).markedAs plain_kind
          exact
            { shut := by rw [memberNode, data_amend]; exact drawn.shut
              type := by rw [memberNode, data_amend]; exact drawn.type
              value := by rw [memberNode, data_amend]; exact drawn.value
              children := by rw [memberNode, children_amend]; exact drawn.children }
  | part inner =>
      obtain ⟨⟨target, found, among, rfl⟩ | ⟨absent, reference, rfl⟩, one⟩ := shows_it
      · by_cases any_key : lastKey target = "{*}"
        · simp only [keptAs, found, Option.map_some, Option.filter_some, any_key, ne_eq, not_true_eq_false,
            decide_false, Bool.and_false, Bool.false_eq_true, if_false, Option.map_none]
          simp [skips, partCycle]
        · simp only [keptAs, found, Option.map_some, Option.filter_some, among, any_key, ne_eq, not_false_eq_true,
            decide_true, Bool.and_self, if_true]
          exact ⟨by simp [skips, partCycle, any_key], rfl, drawn_partCycle found among⟩
      · simp only [keptAs, absent]
        rfl
  | anyKey inner => simp [keptAs, skips, shows_it.key_anyKey]
  | items inner =>
      obtain rfl := shows_it
      simp [keptAs, skips, withKind]
  | choice keyword visits => simp [keptAs, skips, shows_it.2.1]

/-- The items of a list are drawn from their schema. -/
theorem items_of_made {shown : Structure.Shown} (made : Made root node shown) :
    match itemsOf shown with
    | some inner => node.data.kind = .items ∧ Drawn root false node inner
    | none => node.data.kind ≠ .items := by
  obtain ⟨required, shows_it⟩ := made
  cases shown with
  | items inner =>
      obtain rfl := shows_it
      exact ⟨by rw [withKind, data_amend], drawn_node.withKind (by simp)⟩
  | _ =>
      intro items
      obtain ⟨visit, same⟩ := shows_it.kind_other.2 items
      cases same

theorem drawn_variants {keyword : String} {visits : List Visit}
    (made : Made root node (.choice keyword visits)) :
    List.Forall₂ (Drawn root true) node.children visits := by
  obtain ⟨required, shows_it⟩ := made
  apply shows_it.2.2.imp
  intro child visit ⟨key, same⟩
  exact same ▸ drawn_node.markedAs (by simp)

end Drawn

section Related

variable {First Second : Type} {rel : First → Second → Prop} {first : Option First} {second : Option Second}

theorem isSome_of_rel (related : Option.Rel rel first second) : first.isSome = second.isSome := by
  cases related <;> rfl

theorem eq_none_of_rel (related : Option.Rel rel first second) : first = none ↔ second = none := by
  cases related <;> simp

theorem exists_right {one : First} (related : Option.Rel rel first second) (held : first = some one) :
    ∃ other, second = some other ∧ rel one other := by
  cases related with
  | none => cases held
  | some same => cases held; exact ⟨_, rfl, same⟩

theorem exists_left {other : Second} (related : Option.Rel rel first second) (held : second = some other) :
    ∃ one, first = some one ∧ rel one other := by
  cases related with
  | none => cases held
  | some same => cases held; exact ⟨_, rfl, same⟩

end Related

section Aligned

variable {root : Value} {direction : Direction} {nodes : List Node} {shown : List Structure.Shown}

/-- The variant that an example takes is drawn from the first variant. -/
theorem chosen_drawn (aligned : List.Forall₂ (Made root) nodes shown) :
    Option.Rel (Drawn root true) (chosenVariant nodes) (firstVariant shown) := by
  induction aligned with
  | nil => exact .none
  | @cons node one rest others made _ ih =>
      rw [chosenVariant, firstVariant, List.find?_cons, List.findSome?_cons]
      cases one with
      | choice keyword visits =>
          have group : node.data.kind = .variants := by
            obtain ⟨_, shows_it⟩ := made
            exact shows_it.2.1
          have drawn := drawn_variants made
          simp only [group, decide_true, choicesOf, Option.bind_some]
          generalize node.children = below at drawn
          cases drawn with
          | nil => exact .none
          | cons drawn _ => exact .some drawn
      | _ =>
          have other : node.data.kind ≠ .variants := by
            intro group
            obtain ⟨_, shows_it⟩ := made
            obtain ⟨_, _, same⟩ := shows_it.kind_other.1 group
            cases same
          simp only [other, decide_false, choicesOf]
          exact ih

theorem items_drawn (aligned : List.Forall₂ (Made root) nodes shown) :
    Option.Rel (Drawn root false) (itemNode nodes) (firstItems shown) := by
  induction aligned with
  | nil => exact .none
  | @cons node one rest others made _ ih =>
      rw [itemNode, firstItems, List.find?_cons, List.findSome?_cons]
      have told := items_of_made made
      cases items : itemsOf one with
      | some inner =>
          simp only [items] at told
          simp only [told.1, decide_true]
          exact .some told.2
      | none =>
          simp only [items] at told
          simp only [told, decide_false]
          exact ih

/-- The members that an example has are drawn from those that are kept, key by key. -/
theorem members_drawn (aligned : List.Forall₂ (Made root) nodes shown) (key : String) :
    Option.Rel (Drawn root true) ((shownMembers direction nodes).get? key)
      ((membersKept root direction shown).get? key) := by
  have folded : ∀ (fields : Entries String Node) (kept : Entries String Visit),
      (∀ key, Option.Rel (Drawn root true) (fields.get? key) (kept.get? key)) →
      ∀ key, Option.Rel (Drawn root true)
        ((nodes.foldl (fun fields node =>
          if skips direction node.data then fields else fields.insert node.data.key node) fields).get? key)
        ((shown.foldl (keepMember root direction) kept).get? key) := by
    induction aligned with
    | nil => exact fun fields kept same => same
    | @cons node one rest others made _ ih =>
        intro fields kept same
        rw [List.foldl_cons, List.foldl_cons]
        apply ih
        intro key
        have told := @kept_of_made root node direction one made
        cases held : keptAs root direction one with
        | none =>
            simp only [held] at told
            simp only [keepMember, held, told, if_true]
            exact same key
        | some entry =>
            simp only [held] at told
            obtain ⟨plain, named, drawn⟩ := told
            simp only [keepMember, held, plain, Bool.false_eq_true, if_false, named, Entries.get?_insert]
            split
            · exact .some drawn
            · exact same key
  exact folded [] [] (fun _ => .none) key

theorem members_bare (aligned : List.Forall₂ (Made root) nodes shown) :
    shownMembers direction nodes = [] ↔ membersKept root direction shown = [] := by
  have told := @members_drawn root direction nodes shown aligned
  rw [Entries.eq_nil_iff_get?, Entries.eq_nil_iff_get?]
  apply forall_congr'
  intro key
  exact eq_none_of_rel (told key)

end Aligned

section Standing

/-- No node of a tree has an example or a default of the specification. -/
def Unprompted (tree : Node) : Prop :=
  ∀ node, InTree tree node → node.data.exampleValue = none ∧ node.data.defaultValue = none

/-- The source of a value in a tree without examples and defaults, for the place of it among the schemas. -/
inductive SourceAt (root : Value) : Source → Place → Prop
  | value {value : Value} : SourceAt root (.given value) (.value value)
  | shut {node : Node} (kind : node.data.kind = .cycle ∨ node.data.kind = .note) :
      SourceAt root (.shape node) (.value .null)
  | schema {node : Node} {visit : Visit} (unprompted : Unprompted node)
      (drawn : Drawn root false node visit) : SourceAt root (.shape node) (.schema visit)

variable {root : Value} {direction : Direction} {node below : Node} {visit : Visit} {marked : Bool}

theorem Unprompted.child (unprompted : Unprompted node) (among : below ∈ node.children) : Unprompted below := by
  have placed : ∀ inner, InTree below inner → InTree node inner := by
    intro inner inside
    induction inside with
    | top => exact InTree.top.child among
    | child _ among ih => exact ih.child among
  intro inner inside
  exact unprompted inner (placed inner inside)

theorem Unprompted.variant (unprompted : Unprompted node) (chosen : chosenVariant node.children = some below) :
    Unprompted below := by
  obtain ⟨group, found, first⟩ := Option.bind_eq_some_iff.mp chosen
  exact (unprompted.child (List.mem_of_find?_eq_some found)).child (List.mem_of_head? first)

/-- A node drawn from a schema is the source for the place of the schema. -/
theorem stands_of_drawn (unprompted : Unprompted node) (drawn : Drawn root marked node visit) :
    SourceAt root (sourceOf node) (placeOf root marked visit) := by
  obtain ⟨no_example, no_default⟩ := unprompted node .top
  have given : givenSample node.data = shownValue root visit := by
    rw [givenSample, no_example, no_default, ← drawn.value]
    rfl
  by_cases closed : marked = true ∧ (visit.room = 0 ∨ visit.Named root)
  · have bare : shownValue root visit = none := by
      rw [shownValue, readAlong_bare (entered_closed (closed.2.imp_right .inl))]
    rw [sourceOf, given, bare, placeOf, if_pos closed]
    exact .shut (drawn.shut.mpr closed)
  · rw [sourceOf, given, placeOf, if_neg closed]
    cases shownValue root visit with
    | some value => exact .value
    | none =>
        apply SourceAt.schema unprompted
        exact { drawn with shut := by rw [drawn.shut]; simp [closed] }

theorem plain_kind (drawn : Drawn root false node visit) :
    node.data.kind ≠ .cycle ∧ node.data.kind ≠ .note := by
  rw [← not_or, drawn.shut]
  simp

theorem takesFields_eq (drawn : Drawn root false node visit) : takesFields node.data = objectAt root visit := by
  simp [takesFields, plain_kind drawn, drawn.type, objectAt]

theorem takesItems_eq (drawn : Drawn root false node visit) : takesItems node.data = arrayAt root visit := by
  simp [takesItems, plain_kind drawn, drawn.type, arrayAt]

variable {source inner : Source} {place field : Place} {key : String}

/-- A node that is shown as an object stands for a schema that is. -/
theorem schema_of_fields (stands : SourceAt root (.shape node) place) (fields : takesFields node.data = true) :
    ∃ visit, place = .schema visit ∧ objectAt root visit = true ∧ Unprompted node ∧
      Drawn root false node visit := by
  cases stands with
  | shut kind => obtain cycle | note := kind <;> simp [takesFields, *] at fields
  | schema unprompted drawn =>
      rw [takesFields_eq drawn] at fields
      exact ⟨_, rfl, fields, unprompted, drawn⟩

theorem schema_of_items (stands : SourceAt root (.shape node) place) (list : takesItems node.data = true) :
    ∃ visit, place = .schema visit ∧ arrayAt root visit = true ∧ Unprompted node ∧
      Drawn root false node visit := by
  cases stands with
  | shut kind => obtain cycle | note := kind <;> simp [takesItems, *] at list
  | schema unprompted drawn =>
      rw [takesItems_eq drawn] at list
      exact ⟨_, rfl, list, unprompted, drawn⟩

theorem shape_of_schema (stands : SourceAt root source (.schema visit)) :
    ∃ node, source = .shape node ∧ Unprompted node ∧ Drawn root false node visit := by
  cases stands with
  | schema unprompted drawn => exact ⟨_, rfl, unprompted, drawn⟩

/-- The chosen variant of a node stands for the place of the first variant of its schema. -/
theorem variant_stands (unprompted : Unprompted node) (drawn : Drawn root false node visit)
    (chosen : chosenVariant node.children = some below) : ∃ inner,
      firstVariant (childrenOf root visit) = some inner ∧
        SourceAt root (sourceOf below) (placeOf root true inner) := by
  obtain ⟨inner, first, made⟩ := exists_right (chosen_drawn drawn.children) chosen
  exact ⟨inner, first, stands_of_drawn (unprompted.variant chosen) made⟩

theorem stands_variant (unprompted : Unprompted node) (drawn : Drawn root false node visit) {inner : Visit}
    (first : firstVariant (childrenOf root visit) = some inner) : ∃ below,
      chosenVariant node.children = some below ∧ SourceAt root (sourceOf below) (placeOf root true inner) := by
  obtain ⟨below, chosen, made⟩ := exists_left (chosen_drawn drawn.children) first
  exact ⟨below, chosen, stands_of_drawn (unprompted.variant chosen) made⟩

/-- An example has a key when its schemas keep a member of it. -/
theorem carries_at (stands : SourceAt root source place) :
    Structure.Carries direction source key ↔ CarriesAt root direction place key := by
  constructor
  · intro carries
    induction carries generalizing place with
    | given held =>
        cases stands with
        | value => exact .value held
    | @member node member fields among kept =>
        obtain ⟨visit, rfl, object, -, drawn⟩ := schema_of_fields stands fields
        apply CarriesAt.member object
        rw [← isSome_of_rel (members_drawn drawn.children _), isSome_shownMembers]
        exact ⟨member, among, kept, rfl⟩
    | variant fields chosen _ ih =>
        obtain ⟨visit, rfl, object, unprompted, drawn⟩ := schema_of_fields stands fields
        obtain ⟨inner, first, stands⟩ := variant_stands unprompted drawn chosen
        exact .variant object first (ih stands)
  · intro carries
    induction carries generalizing source with
    | value held =>
        cases stands with
        | value => exact .given held
        | shut kind => cases held
    | member object held =>
        obtain ⟨node, rfl, -, drawn⟩ := shape_of_schema stands
        rw [← isSome_of_rel (members_drawn drawn.children _), isSome_shownMembers] at held
        obtain ⟨member, among, kept, rfl⟩ := held
        exact .member ((takesFields_eq drawn).trans object) among kept
    | variant object first _ ih =>
        obtain ⟨node, rfl, unprompted, drawn⟩ := shape_of_schema stands
        obtain ⟨below, chosen, stands⟩ := stands_variant unprompted drawn first
        exact .variant ((takesFields_eq drawn).trans object) chosen (ih stands)

/-- What a source brings under a key, its place does. -/
theorem brings_at (stands : SourceAt root source place) (brings : Brings direction source key inner) :
    ∃ field, BringsAt root direction place key field ∧ SourceAt root inner field := by
  induction brings generalizing place with
  | given held =>
      cases stands with
      | value => exact ⟨_, .value held, .value⟩
  | member fields held =>
      obtain ⟨visit, rfl, object, unprompted, drawn⟩ := schema_of_fields stands fields
      obtain ⟨inner, kept, made⟩ := exists_right (members_drawn drawn.children _) held
      have below := unprompted.child (of_get?_shownMembers held).1
      exact ⟨_, .member object kept, stands_of_drawn below made⟩
  | variant fields absent chosen _ ih =>
      obtain ⟨visit, rfl, object, unprompted, drawn⟩ := schema_of_fields stands fields
      obtain ⟨inner, first, stands⟩ := variant_stands unprompted drawn chosen
      obtain ⟨field, brings, same⟩ := ih stands
      rw [eq_none_of_rel (members_drawn drawn.children _)] at absent
      exact ⟨field, .variant object absent first brings, same⟩

theorem at_brings (stands : SourceAt root source place) (brings : BringsAt root direction place key field) :
    ∃ inner, Brings direction source key inner ∧ SourceAt root inner field := by
  induction brings generalizing source with
  | value held =>
      cases stands with
      | value => exact ⟨_, .given held, .value⟩
      | shut kind => cases held
  | member object kept =>
      obtain ⟨node, rfl, unprompted, drawn⟩ := shape_of_schema stands
      obtain ⟨member, held, made⟩ := exists_left (members_drawn drawn.children _) kept
      have below := unprompted.child (of_get?_shownMembers held).1
      exact ⟨_, .member ((takesFields_eq drawn).trans object) held, stands_of_drawn below made⟩
  | variant object absent first _ ih =>
      obtain ⟨node, rfl, unprompted, drawn⟩ := shape_of_schema stands
      obtain ⟨below, chosen, stands⟩ := stands_variant unprompted drawn first
      obtain ⟨inner, brings, same⟩ := ih stands
      rw [← eq_none_of_rel (members_drawn drawn.children _)] at absent
      exact ⟨inner, .variant ((takesFields_eq drawn).trans object) absent chosen brings, same⟩

/-- What a source holds as an element, its place does. -/
theorem holds_at (stands : SourceAt root source place) (holds : Structure.Holds direction source inner) :
    ∃ element, HoldsAt root direction place element ∧ SourceAt root inner element := by
  induction holds generalizing place with
  | given among =>
      cases stands with
      | value => exact ⟨_, .value among, .value⟩
  | items list there =>
      obtain ⟨visit, rfl, array, unprompted, drawn⟩ := schema_of_items stands list
      obtain ⟨inner, first, made⟩ := exists_right (items_drawn drawn.children) there
      have below := unprompted.child (List.mem_of_find?_eq_some there)
      exact ⟨_, .items array first, stands_of_drawn below made⟩
  | empty list absent =>
      obtain ⟨visit, rfl, array, -, drawn⟩ := schema_of_items stands list
      rw [eq_none_of_rel (items_drawn drawn.children)] at absent
      exact ⟨_, .empty array absent, .value⟩
  | variant fields bare chosen _ ih =>
      obtain ⟨visit, rfl, object, unprompted, drawn⟩ := schema_of_fields stands fields
      obtain ⟨inner, first, stands⟩ := variant_stands unprompted drawn chosen
      obtain ⟨element, holds, same⟩ := ih stands
      rw [members_bare drawn.children] at bare
      exact ⟨element, .variant object bare first holds, same⟩

theorem at_holds (stands : SourceAt root source place) (holds : HoldsAt root direction place field) :
    ∃ inner, Structure.Holds direction source inner ∧ SourceAt root inner field := by
  induction holds generalizing source with
  | value among =>
      cases stands with
      | value => exact ⟨_, .given among, .value⟩
      | shut kind => cases among
  | items list first =>
      obtain ⟨node, rfl, unprompted, drawn⟩ := shape_of_schema stands
      obtain ⟨items, there, made⟩ := exists_left (items_drawn drawn.children) first
      have below := unprompted.child (List.mem_of_find?_eq_some there)
      exact ⟨_, .items ((takesItems_eq drawn).trans list) there, stands_of_drawn below made⟩
  | empty list absent =>
      obtain ⟨node, rfl, -, drawn⟩ := shape_of_schema stands
      rw [← eq_none_of_rel (items_drawn drawn.children)] at absent
      exact ⟨_, .empty ((takesItems_eq drawn).trans list) absent, .value⟩
  | variant object bare first _ ih =>
      obtain ⟨node, rfl, unprompted, drawn⟩ := shape_of_schema stands
      obtain ⟨below, chosen, stands⟩ := stands_variant unprompted drawn first
      obtain ⟨inner, holds, same⟩ := ih stands
      rw [← members_bare drawn.children] at bare
      exact ⟨inner, .variant ((takesFields_eq drawn).trans object) bare chosen holds, same⟩

theorem showsObject_at (stands : SourceAt root source place) :
    ShowsObject direction source ↔ ShowsObjectAt root direction place := by
  constructor
  · intro shows_object
    induction shows_object generalizing place with
    | given object =>
        cases stands with
        | value => exact .value object
    | members fields some_shown =>
        obtain ⟨visit, rfl, object, -, drawn⟩ := schema_of_fields stands fields
        rw [ne_eq, members_bare drawn.children] at some_shown
        exact .members object some_shown
    | alone fields plain =>
        obtain ⟨visit, rfl, object, -, drawn⟩ := schema_of_fields stands fields
        rw [eq_none_of_rel (chosen_drawn drawn.children)] at plain
        exact .alone object plain
    | variant fields chosen _ ih =>
        obtain ⟨visit, rfl, object, unprompted, drawn⟩ := schema_of_fields stands fields
        obtain ⟨inner, first, stands⟩ := variant_stands unprompted drawn chosen
        exact .variant object first (ih stands)
  · intro shows_object
    induction shows_object generalizing source with
    | value object =>
        cases stands with
        | value => exact .given object
        | shut kind => cases object
    | members object some_kept =>
        obtain ⟨node, rfl, -, drawn⟩ := shape_of_schema stands
        rw [ne_eq, ← members_bare drawn.children] at some_kept
        exact .members ((takesFields_eq drawn).trans object) some_kept
    | alone object plain =>
        obtain ⟨node, rfl, -, drawn⟩ := shape_of_schema stands
        rw [← eq_none_of_rel (chosen_drawn drawn.children)] at plain
        exact .alone ((takesFields_eq drawn).trans object) plain
    | variant object first _ ih =>
        obtain ⟨node, rfl, unprompted, drawn⟩ := shape_of_schema stands
        obtain ⟨below, chosen, stands⟩ := stands_variant unprompted drawn first
        exact .variant ((takesFields_eq drawn).trans object) chosen (ih stands)

end Standing
end Sanshain.Guarantees
