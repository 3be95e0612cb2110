import Sanshain.Document.StructureVisits

namespace Sanshain.Guarantees

open Sanshain.Data Sanshain.Document Sanshain.Document.Structure
open Sanshain.Document.Structure.Visit (named_of_open)

section Cycles

variable {root : Value}

/-- The nodes of a tree. -/
inductive InTree (tree : Node) : Node → Prop
  | top : InTree tree tree
  | child {node child : Node} (inside : InTree tree node) (among : child ∈ node.children) : InTree tree child

/-- A node of a tree shows a schema: the one it is made from, the only part that one reads as, and those
of the members, parts, items and variants below it. -/
inductive Shows (root : Value) (tree : Node) (start : Visit) : Node → Visit → Prop
  | top : Shows root tree start tree start
  | part {node : Node} {visit : Visit} {schema part : Value} {opened : List Target} {room : ℕ}
      (above : Shows root tree start node visit) (enters : visit.Enters root schema opened room)
      (only : onlyPart schema = some part) : Shows root tree start node ⟨part, opened, room⟩
  | child {node child : Node} {visit inner : Visit} {schema : Value} {opened : List Target} {room : ℕ}
      {shown : Structure.Shown} (above : Shows root tree start node visit)
      (enters : visit.Enters root schema opened room) (whole : onlyPart schema = none)
      (among : (child, shown) ∈ node.children.zip (childrenShown root room opened schema))
      (made : shown.visit = some inner) : Shows root tree start child inner
  | variant {node group child : Node} {visit inner : Visit} {schema : Value} {opened : List Target}
      {room : ℕ} {keyword : String} {visits : List Visit} (above : Shows root tree start node visit)
      (enters : visit.Enters root schema opened room) (whole : onlyPart schema = none)
      (among : (group, .choice keyword visits) ∈ node.children.zip (childrenShown root room opened schema))
      (within : (child, inner) ∈ group.children.zip visits) : Shows root tree start child inner

/-- Within the depth limit a node is a cycle exactly when the component that the reference of a schema it
shows resolves to is open above it. -/
def MarksCycles (root : Value) (tree : Node) (start : Visit) : Prop :=
  ∀ node visit, Shows root tree start node visit → 0 < visit.room →
    (node.data.kind = .cycle ↔ visit.Open root)

/-- The schemas the walk comes to, each with whether a cycle is marked where it stands. -/
inductive Reached (root : Value) (start : Visit) : Bool → Visit → Prop
  | top : Reached root start true start
  | part {marked : Bool} {visit : Visit} {schema part : Value} {opened : List Target} {room : ℕ}
      (above : Reached root start marked visit) (enters : visit.Enters root schema opened room)
      (only : onlyPart schema = some part) : Reached root start false ⟨part, opened, room⟩
  | child {marked : Bool} {visit inner : Visit} {schema : Value} {opened : List Target} {room : ℕ}
      {shown : Structure.Shown} (above : Reached root start marked visit)
      (enters : visit.Enters root schema opened room) (whole : onlyPart schema = none) (among : shown ∈ childrenShown root room opened schema)
      (made : shown.visit = some inner) : Reached root start shown.marked inner
  | variant {marked : Bool} {visit inner : Visit} {schema : Value} {opened : List Target} {room : ℕ}
      {keyword : String} {visits : List Visit} (above : Reached root start marked visit)
      (enters : visit.Enters root schema opened room) (whole : onlyPart schema = none)
      (among : .choice keyword visits ∈ childrenShown root room opened schema) (within : inner ∈ visits) :
      Reached root start true inner

/-- Where cycles are marked, a reference resolves to a component of the name of an open one only when it
is that one; as items, as the schema of further keys and as an only part it resolves to none that is
open. -/
def NamesTellTargets (root : Value) (start : Visit) : Prop :=
  ∀ marked visit, Reached root start marked visit → 0 < visit.room →
    if marked then visit.Named root → visit.Open root else ¬ visit.Open root

end Cycles

section Walking

variable {root : Value} {tree node : Node} {start visit : Visit} {schema : Value} {opened : List Target}
  {room : ℕ} {marked : Bool}

theorem showsOne_part {part : Value} (above : ShowsOne root marked node visit)
    (enters : visit.Enters root schema opened room) (only : onlyPart schema = some part) :
    ShowsOne root false node ⟨part, opened, room⟩ := by
  obtain ⟨key, name, children, kind⟩ := above
  obtain ⟨refName, same⟩ := node_of_enters key name enters
  simp only [only] at same
  have plain : (visit.node root key name).data.kind ≠ .cycle := by
    rw [same, kind_readAs]
    simp [ownFields]
  refine ⟨key, name, ?_, ?_⟩
  · rw [children, same, readAs, children_amend]
  · simp [kind, plain]

theorem showsIt_children (above : ShowsOne root marked node visit)
    (enters : visit.Enters root schema opened room) (whole : onlyPart schema = none) :
    List.Forall₂ (ShowsIt root (requiredShown root opened schema)) node.children
      (childrenShown root room opened schema) := by
  obtain ⟨key, name, children, -⟩ := above
  obtain ⟨refName, same⟩ := node_of_enters key name enters
  simp only [whole] at same
  rw [children, same]
  exact children_whole room schema visit.raw refName opened key name

/-- A node shows a schema that the walk comes to. -/
theorem reached_of_shows (top : ShowsOne root true tree start) (shown : Shows root tree start node visit) :
    ∃ marked, Reached root start marked visit ∧ ShowsOne root marked node visit := by
  induction shown with
  | top => exact ⟨true, .top, top⟩
  | part above enters only ih =>
      obtain ⟨marked, reached, one⟩ := ih
      exact ⟨false, .part reached enters only, showsOne_part one enters only⟩
  | child above enters whole among made ih =>
      obtain ⟨marked, reached, one⟩ := ih
      have aligned := showsIt_children one enters whole
      exact ⟨_, .child reached enters whole (List.of_mem_zip among).2 made,
        (List.forall₂_zip aligned among).one made⟩
  | variant above enters whole among within ih =>
      obtain ⟨marked, reached, one⟩ := ih
      have group := List.forall₂_zip (showsIt_children one enters whole) among
      exact ⟨true, .variant reached enters whole (List.of_mem_zip among).2 (List.of_mem_zip within).2,
        List.forall₂_zip group.variants within⟩

/-- What the walk comes to is shown by a node. -/
theorem shows_of_reached (top : ShowsOne root true tree start) (reached : Reached root start marked visit) :
    ∃ node, Shows root tree start node visit ∧ ShowsOne root marked node visit := by
  induction reached with
  | top => exact ⟨tree, .top, top⟩
  | part above enters only ih =>
      obtain ⟨node, shown, one⟩ := ih
      exact ⟨node, .part shown enters only, showsOne_part one enters only⟩
  | child above enters whole among made ih =>
      obtain ⟨node, shown, one⟩ := ih
      have aligned := showsIt_children one enters whole
      obtain ⟨child, held⟩ := exists_zip_right aligned.length_eq among
      exact ⟨child, .child shown enters whole held made, (List.forall₂_zip aligned held).one made⟩
  | variant above enters whole among within ih =>
      obtain ⟨node, shown, one⟩ := ih
      have aligned := showsIt_children one enters whole
      obtain ⟨group, held⟩ := exists_zip_right aligned.length_eq among
      have choice := (List.forall₂_zip aligned held).variants
      obtain ⟨child, held'⟩ := exists_zip_right choice.length_eq within
      exact ⟨child, .variant shown enters whole held held', List.forall₂_zip choice held'⟩

/-- Where a node shows a schema, it is a cycle exactly when the place marks cycles and the name of the
component is that of an open one. -/
theorem kind_of_showsOne (one : ShowsOne root marked node visit) (within : 0 < visit.room) :
    node.data.kind = .cycle ↔ marked = true ∧ visit.Named root := by
  obtain ⟨key, name, -, kind⟩ := one
  rw [kind, kind_node key name visit within]

theorem marksCycles_iff (top : ShowsOne root true tree start) :
    MarksCycles root tree start ↔ NamesTellTargets root start := by
  have here : ∀ {marked visit}, (marked = true ∧ Visit.Named root visit ↔ visit.Open root) ↔
      if marked then visit.Named root → visit.Open root else ¬ visit.Open root := by
    intro marked visit
    cases marked with
    | true => exact ⟨fun exact named => exact.mp ⟨rfl, named⟩,
        fun told => ⟨fun named => told named.2, fun opened => ⟨rfl, named_of_open opened⟩⟩⟩
    | false => simp
  constructor
  · intro marks marked visit reached within
    obtain ⟨node, shown, one⟩ := shows_of_reached top reached
    rw [← here, ← kind_of_showsOne one within]
    exact marks node visit shown within
  · intro told node visit shown within
    obtain ⟨marked, reached, one⟩ := reached_of_shows top shown
    rw [kind_of_showsOne one within, here]
    exact told marked visit reached within

/-- What is not entered has nothing below it. -/
theorem children_of_not_entered (key name : String) (bare : entered root visit = none) :
    (visit.node root key name).children = [] := by
  obtain ⟨kind, typeName, description, same⟩ := leaf_of_not_entered key name bare
  rw [same, Node.children_mk]

/-- The children of a node that shows a schema show one each, or hold its variants that do. -/
theorem child_shown (shown : Shows root tree start node visit) (one : ShowsOne root marked node visit)
    {child : Node} (among : child ∈ node.children) :
    (∃ inner, Shows root tree start child inner) ∨ child.data.kind = .variants ∧
      ∀ variant ∈ child.children, ∃ inner, Shows root tree start variant inner := by
  induction visit using @visit_induction root generalizing marked with
  | bare visit bare =>
      obtain ⟨key, name, children, -⟩ := one
      rw [children, children_of_not_entered key name bare] at among
      cases among
  | part visit schema opened room part enters only ih =>
      exact ih (.part shown enters only) (showsOne_part one enters only)
  | whole visit schema opened room enters whole =>
      have aligned := showsIt_children one enters whole
      obtain ⟨below, held⟩ := exists_zip_left aligned.length_eq among
      cases made : below.visit with
      | some inner => exact .inl ⟨inner, .child shown enters whole held made⟩
      | none =>
          cases below with
          | choice keyword visits =>
              have group := List.forall₂_zip aligned held
              refine .inr ⟨group.2.1, fun variant within => ?_⟩
              obtain ⟨inner, held'⟩ := exists_zip_left group.variants.length_eq within
              exact ⟨inner, .variant shown enters whole held held'⟩
          | _ => cases made

/-- Every node of a tree shows a schema, or holds the variants of one. -/
theorem shown_or_variants (top : ShowsOne root true tree start) (inside : InTree tree node) :
    (∃ visit, Shows root tree start node visit) ∨ node.data.kind = .variants ∧
      ∀ variant ∈ node.children, ∃ visit, Shows root tree start variant visit := by
  induction inside with
  | top => exact .inl ⟨start, .top⟩
  | child _ among ih =>
      cases ih with
      | inl shown =>
          obtain ⟨visit, shown⟩ := shown
          obtain ⟨_, _, one⟩ := reached_of_shows top shown
          exact child_shown shown one among
      | inr group => exact .inl (group.2 _ among)

theorem height_of_children {first second : Node} (same : first.children = second.children) :
    first.height = second.height := by
  cases first
  cases second
  simp only [Node.children_mk] at same
  rw [Node.height, Node.height, same]

theorem height_of_closed (one : ShowsOne root marked node visit)
    (closed : visit.Named root ∨ reached root visit.raw = none) : node.height ≤ 1 := by
  obtain ⟨key, name, children, -⟩ := one
  rw [Node.height_le_succ, children, children_of_not_entered key name (entered_closed (.inr closed))]
  intro child among
  cases among

/-- A tree is no higher than the levels that may be shown, with the variants between them. -/
theorem height_node (visit : Visit) (key name : String) :
    (visit.node root key name).height ≤ 2 * visit.room + 1 := by
  obtain ⟨levels, same⟩ : ∃ levels, visit.room = levels := ⟨_, rfl⟩
  induction levels generalizing visit key name with
  | zero =>
      rw [Node.height_le_succ, children_of_not_entered key name (entered_closed (.inl same))]
      intro child among
      cases among
  | succ levels ih =>
      rw [Node.height_le_succ]
      intro child among
      cases found : entered root visit with
      | none =>
          rw [children_of_not_entered key name found] at among
          cases among
      | some entry =>
          obtain ⟨schema, opened, room⟩ := entry
          have enters := entered_iff.mp found
          have less : room = levels := by
            cases enters
            exact Nat.succ.inj same
          have one : ShowsOne root true (visit.node root key name) visit := ⟨key, name, rfl, by simp⟩
          have lower : ∀ {marked node inner}, ShowsOne root marked node inner → inner.room = levels →
              node.height ≤ 2 * levels + 1 := by
            intro marked node inner shows_inner here
            obtain ⟨key, name, children, -⟩ := shows_inner
            rw [height_of_children children, ← here]
            exact ih inner key name here
          cases only : onlyPart schema with
          | some part =>
              have reads := lower (showsOne_part one enters only) less
              have below := Node.height_le_succ.mp reads child among
              omega
          | none =>
              have aligned := showsIt_children one enters only
              obtain ⟨below, held⟩ := exists_zip_left aligned.length_eq among
              have told := List.forall₂_zip aligned held
              have rooms := room_of_childrenShown (List.of_mem_zip held).2
              cases made : below.visit with
              | some inner =>
                  have shows_inner := told.one made
                  obtain here | closed := rooms.1 inner made
                  · have child_height := lower shows_inner (here.trans less)
                    omega
                  · have low := height_of_closed shows_inner closed
                    omega
              | none =>
                  cases below with
                  | choice keyword visits =>
                      have low : child.height ≤ 2 * levels + 1 + 1 := by
                        rw [Node.height_le_succ]
                        intro variant within
                        obtain ⟨inner, held'⟩ := exists_zip_left told.variants.length_eq within
                        exact lower (List.forall₂_zip told.variants held')
                          ((rooms.2 keyword visits rfl inner (List.of_mem_zip held').2).trans less)
                      omega
                  | _ => cases made

end Walking

section Structure

/-- The tree of a schema is finite, shows a schema at each of its nodes, and marks exactly the real cycles
when the names of open components tell them apart. -/
theorem structure_marks_cycles (root raw : Value) (key name : String) (opened : List Target) (room : ℕ) :
    let start : Visit := ⟨raw, opened, room⟩
    let tree := schemaNode root room key name raw (opened.map lastKey)
    tree.height ≤ 2 * room + 1 ∧
      (∀ node, InTree tree node →
        (∃ visit, Shows root tree start node visit) ∨ node.data.kind = .variants) ∧
      (MarksCycles root tree start ↔ NamesTellTargets root start) := by
  intro start tree
  have top : ShowsOne root true tree start := ⟨key, name, rfl, by simp [tree, start, Visit.node, Visit.names]⟩
  refine ⟨height_node start key name, fun node inside => ?_, marksCycles_iff top⟩
  exact (shown_or_variants top inside).imp id And.left

/-- A tree of nodes: each has a list of others of its kind. -/
def treeSchema : Value :=
  .object [("type", .string "array"), ("items", .object [("$ref", .string "#/components/schemas/Tree")])]

def treeReference : Value := .object [("$ref", .string "#/components/schemas/Tree")]

def treeDocument : Value :=
  .object [("components", .object [("schemas", .object [("Tree", treeSchema)])])]

theorem tree_enters : Visit.Enters treeDocument ⟨treeReference, [], maxDepth + 1⟩ treeSchema
    [["components", "schemas", "Tree"]] maxDepth := by
  have found : reached treeDocument treeReference =
      some (treeSchema, some ["components", "schemas", "Tree"]) := rfl
  apply Visit.Enters.intro found
  intro named
  obtain ⟨_, -, among⟩ := named
  cases among

/-- An item that refers to another schema whose name ends the same. -/
def itemSchema : Value :=
  .object [("properties", .object [("maker", .object [("$ref", .string "#/components/schemas/Maker/Item")])])]

/-- The member of an item, where the item is open. -/
def makerVisit : Visit :=
  ⟨.object [("$ref", .string "#/components/schemas/Maker/Item")], [["components", "schemas", "Item"]], maxDepth⟩

def itemReference : Value := .object [("$ref", .string "#/components/schemas/Item")]

def itemDocument : Value :=
  .object [("components", .object [("schemas", .object [("Item", itemSchema),
    ("Maker", .object [("Item", .object [("type", .string "string")])])])])]

theorem item_enters : Visit.Enters itemDocument ⟨itemReference, [], maxDepth + 1⟩ itemSchema
    [["components", "schemas", "Item"]] maxDepth := by
  have found : reached itemDocument itemReference =
      some (itemSchema, some ["components", "schemas", "Item"]) := rfl
  apply Visit.Enters.intro found
  intro named
  obtain ⟨_, -, among⟩ := named
  cases among

/-- The items of a tree, that are trees again, are not marked; a schema whose name ends like that of the
one above it is. -/
theorem cycles_missed_and_invented :
    ¬ MarksCycles treeDocument (topNode treeDocument "tree" "tree" treeReference)
        ⟨treeReference, [], maxDepth + 1⟩ ∧
      ¬ MarksCycles itemDocument (topNode itemDocument "item" "item" itemReference)
        ⟨itemReference, [], maxDepth + 1⟩ := by
  constructor
  · intro marks
    have shown : Shows treeDocument (topNode treeDocument "tree" "tree" treeReference)
        ⟨treeReference, [], maxDepth + 1⟩ _ _ := .child .top tree_enters rfl List.mem_cons_self rfl
    have marked := (marks _ _ shown Nat.succ_pos').mpr
      ⟨["components", "schemas", "Tree"], List.mem_singleton_self _, rfl⟩
    cases marked
  · intro marks
    have top : ShowsOne itemDocument true (topNode itemDocument "item" "item" itemReference)
        ⟨itemReference, [], maxDepth + 1⟩ := ⟨"item", "item", rfl, by simp [topNode, Visit.node, Visit.names]⟩
    have below : childrenShown itemDocument maxDepth [["components", "schemas", "Item"]] itemSchema =
        [.member "maker" makerVisit] := rfl
    have reached : Reached itemDocument ⟨itemReference, [], maxDepth + 1⟩
        (Structure.Shown.member "maker" makerVisit).marked makerVisit :=
      .child .top item_enters rfl (below ▸ List.mem_singleton_self _) rfl
    have named : makerVisit.Named itemDocument :=
      ⟨["components", "schemas", "Maker", "Item"], rfl, List.mem_singleton_self _⟩
    obtain ⟨target, among, same⟩ := (marksCycles_iff top).mp marks true _ reached (by decide) named
    obtain rfl := List.mem_singleton.mp among
    have differs : some ["components", "schemas", "Maker", "Item"] =
        some ["components", "schemas", "Item"] := same
    simp at differs

end Structure
end Sanshain.Guarantees
