import Sanshain.Document.Rewriting

namespace Sanshain.Document.AsyncApiDocument

open Sanshain.Data Sanshain.Text

section Symmetry

variable {node other : Value}

theorem sameEntries_of {entries others : Mapping}
    (each : ∀ entry ∈ entries, ∃ counterpart, Entries.get? others entry.1 = some counterpart ∧
      entry.2.same counterpart = true) : Value.sameEntries entries others = true := by
  induction entries with
  | nil => rfl
  | cons entry rest ih =>
      obtain ⟨key, value⟩ := entry
      obtain ⟨counterpart, there, alike⟩ := each _ List.mem_cons_self
      rw [Value.sameEntries, there, Bool.and_eq_true]
      exact ⟨alike, ih fun later among => each later (List.mem_cons_of_mem _ among)⟩

theorem sameItems_symm {items others : List Value}
    (each : ∀ item ∈ items, ∀ counterpart ∈ others, item.same counterpart = true →
      counterpart.same item = true) (same : Value.sameItems items others = true) :
    Value.sameItems others items = true := by
  induction items generalizing others with
  | nil =>
      cases others with
      | nil => rfl
      | cons => cases same
  | cons item rest ih =>
      cases others with
      | nil => cases same
      | cons counterpart more =>
          obtain ⟨here, later⟩ := Bool.and_eq_true_iff.mp same
          rw [Value.sameItems, Bool.and_eq_true]
          refine ⟨each _ List.mem_cons_self _ List.mem_cons_self here, ih ?_ later⟩
          intro one among two held
          exact each one (List.mem_cons_of_mem _ among) two (List.mem_cons_of_mem _ held)

theorem depth_of_item {items : List Value} {item : Value} (among : item ∈ items) :
    item.depth ≤ Value.depthItems items := by
  induction items with
  | nil => cases among
  | cons first rest ih =>
      rw [Value.depthItems]
      rcases List.mem_cons.mp among with rfl | later
      · exact Nat.le_max_left _ _
      · exact (ih later).trans (Nat.le_max_right _ _)

theorem wellFormed_of_item {items : List Value} {item : Value}
    (formed : Value.WellFormedItems items) (among : item ∈ items) : item.WellFormed := by
  induction items with
  | nil => cases among
  | cons first rest ih =>
      rcases List.mem_cons.mp among with rfl | later
      · exact formed.1
      · exact ih formed.2 later

/-- As many keys, each of them among the others, are all of the others. -/
theorem keys_of_same {entries others : Mapping} (distinct : (entries.map Prod.fst).Nodup)
    (length : entries.length = others.length) (same : Value.sameEntries entries others = true)
    {key : String} (among : key ∈ others.map Prod.fst) : key ∈ entries.map Prod.fst := by
  have within : entries.map Prod.fst ⊆ others.map Prod.fst := by
    intro name held
    obtain ⟨entry, there, rfl⟩ := List.mem_map.mp held
    obtain ⟨counterpart, found, -⟩ := get?_of_sameEntries same (Entries.get?_of_mem distinct there)
    exact List.mem_map.mpr ⟨_, Entries.mem_of_get? found, rfl⟩
  have perm := (List.subperm_of_subset distinct within).perm_of_length_le (by simp [length])
  exact perm.mem_iff.mpr among

/-- Equality up to the order of keys goes both ways. -/
theorem same_symm (formed : node.WellFormed) (formed' : other.WellFormed)
    (same : node.same other = true) : other.same node = true := by
  induction bound : node.depth using Nat.strong_induction_on generalizing node other with
  | _ size ih =>
      cases node with
      | array items =>
          cases other with
          | array others =>
              refine sameItems_symm (fun item among counterpart held alike => ?_) same
              have less : item.depth < size := by
                have := depth_of_item among
                rw [← bound, Value.depth]
                omega
              exact ih _ less (wellFormed_of_item formed among) (wellFormed_of_item formed' held)
                alike rfl
          | _ => cases same
      | object entries =>
          cases other with
          | object others =>
              obtain ⟨length, each⟩ := Bool.and_eq_true_iff.mp same
              have count : entries.length = others.length := by simpa using length
              obtain ⟨distinct, formed⟩ := formed
              obtain ⟨distinct', formed'⟩ := formed'
              rw [Value.same, Bool.and_eq_true]
              refine ⟨by simp [count], sameEntries_of fun entry among => ?_⟩
              have key := keys_of_same distinct count each (List.mem_map_of_mem among)
              obtain ⟨held, there, name⟩ := List.mem_map.mp key
              obtain ⟨counterpart, found, alike⟩ :=
                get?_of_sameEntries each (Entries.get?_of_mem distinct there)
              have mine := Entries.get?_of_mem distinct' among
              rw [name, mine] at found
              cases found
              have less : held.2.depth < size := by
                have := Value.depth_of_mem there
                rw [← bound, Value.depth]
                omega
              refine ⟨held.2, ?_, ih _ less (Value.wellFormed_of_mem formed there)
                (Value.wellFormed_of_mem formed' among) alike rfl⟩
              rw [← name]
              exact Entries.get?_of_mem distinct there
          | _ => cases same
      | null =>
          cases other with
          | null => rfl
          | _ => cases same
      | bool value =>
          cases other with
          | bool => exact (beq_iff_eq.mpr (beq_iff_eq.mp same).symm)
          | _ => cases same
      | number literal =>
          cases other with
          | number => exact (beq_iff_eq.mpr (beq_iff_eq.mp same).symm)
          | _ => cases same
      | string text =>
          cases other with
          | string => exact (beq_iff_eq.mpr (beq_iff_eq.mp same).symm)
          | _ => cases same

end Symmetry

section Shapes

/-- What a node is, apart from what it holds. -/
inductive Shape where
  | null
  | bool (value : Bool)
  | number (literal : String)
  | string (text : String)
  | array (length : Nat)
  | object (keys : String → Bool)
  | lost (target : String)

def shapeOf : Value → Shape
  | .null => .null
  | .bool value => .bool value
  | .number literal => .number literal
  | .string text => .string text
  | .array items => .array items.length
  | .object entries => .object fun key => (Entries.get? entries key).isSome

inductive Step where
  | key (name : String)
  | item (index : Nat)

def childAt (node : Value) : Step → Option Value
  | .key name => node.get? name
  | .item index => node.asArray.bind fun items => items[index]?

/-- What a node of a document shows at the end of a path, with every local reference on the way
resolved inside the document; a reference to nothing stays as it is. -/
inductive Shows (root : Value) : Value → List Step → Shape → Prop
  | here {node : Value} (given : refOf node = none) : Shows root node [] (shapeOf node)
  | inside {node child : Value} {step : Step} {path : List Step} {shape : Shape}
      (given : refOf node = none) (leads : childAt node step = some child)
      (rest : Shows root child path shape) : Shows root node (step :: path) shape
  | follow {node next : Value} {target : String} {path : List Step} {shape : Shape}
      (refers : refOf node = some target) (found : resolveJsonPointer root target = some next)
      (rest : Shows root next path shape) : Shows root node path shape
  | lost {node : Value} {target : String} (refers : refOf node = some target)
      (missing : resolveJsonPointer root target = none) : Shows root node [] (.lost target)

/-- Two nodes are the same schema, each resolved inside its own document. -/
def Alike (root root' node node' : Value) : Prop :=
  ∀ path shape, Shows root node path shape ↔ Shows root' node' path shape

def referenceTo (target : String) : Value := .object [("$ref", .string target)]

/-- A reference leads to the same schema in two documents. -/
def LeadsAlike (root root' : Value) (target : String) : Prop :=
  Alike root root' (referenceTo target) (referenceTo target)

/-- A local reference stands in a node, outside of what other references replace. -/
inductive Mentions : Value → String → Prop
  | here {node : Value} {target : String} (refers : refOf node = some target) : Mentions node target
  | inside {node child : Value} {step : Step} {target : String} (given : refOf node = none)
      (leads : childAt node step = some child) (rest : Mentions child target) : Mentions node target

variable {root root' node other child : Value} {target : String} {step : Step} {path : List Step}
  {shape : Shape}

@[simp] theorem refOf_referenceTo : refOf (referenceTo target) = some target := rfl

theorem shows_of_refOf (refers : refOf node = some target) :
    Shows root node path shape ↔ Shows root (referenceTo target) path shape := by
  have moved {one two : Value} (first : refOf one = some target) (second : refOf two = some target)
      (shown : Shows root one path shape) : Shows root two path shape := by
    cases shown with
    | here given => rw [first] at given; cases given
    | inside given => rw [first] at given; cases given
    | follow refers found rest =>
        rw [first] at refers
        cases refers
        exact .follow second found rest
    | lost refers missing =>
        rw [first] at refers
        cases refers
        exact .lost second missing
  exact ⟨moved refers rfl, moved rfl refers⟩

theorem shows_below (given : refOf node = none) (leads : childAt node step = some child) :
    Shows root node (step :: path) shape ↔ Shows root child path shape := by
  constructor
  · intro shown
    cases shown with
    | inside _ leads' rest =>
        rw [leads] at leads'
        cases leads'
        exact rest
    | follow refers => rw [given] at refers; cases refers
  · exact .inside given leads

theorem item_of_same {items others : List Value} (same : Value.sameItems items others = true)
    {index : Nat} (found : items[index]? = some child) :
    ∃ counterpart, others[index]? = some counterpart ∧ child.same counterpart = true := by
  induction items generalizing others index with
  | nil => simp at found
  | cons item rest ih =>
      cases others with
      | nil => cases same
      | cons counterpart more =>
          obtain ⟨here, later⟩ := Bool.and_eq_true_iff.mp same
          cases index with
          | zero =>
              cases found
              exact ⟨counterpart, rfl, here⟩
          | succ index => exact ih later found

theorem childAt_of_same (same : node.same other = true) (found : childAt node step = some child) :
    ∃ counterpart, childAt other step = some counterpart ∧ child.same counterpart = true := by
  cases step with
  | key name => exact get?_of_same same found
  | item index =>
      cases node with
      | array items =>
          cases other with
          | array others => exact item_of_same same found
          | _ => cases same
      | _ => cases found

theorem refOf_of_same (same : node.same other = true) (refers : refOf node = some target) :
    refOf other = some target := by
  obtain ⟨value, held, text⟩ := Option.bind_eq_some_iff.mp refers
  obtain ⟨counterpart, there, alike⟩ := get?_of_same same held
  cases value with
  | string written =>
      cases counterpart with
      | string written' =>
          have equal : written = written' := by simpa [Value.same] using alike
          rw [refOf, there, Option.bind_some, ← equal]
          exact text
      | _ => cases alike
  | _ => cases text

theorem refOf_none_of_same (back : other.same node = true) (given : refOf node = none) :
    refOf other = none := by
  cases refers : refOf other with
  | none => rfl
  | some target =>
      rw [refOf_of_same back refers] at given
      cases given

theorem length_of_same {items others : List Value} (same : Value.sameItems items others = true) :
    items.length = others.length := by
  induction items generalizing others with
  | nil =>
      cases others with
      | nil => rfl
      | cons => cases same
  | cons item rest ih =>
      cases others with
      | nil => cases same
      | cons counterpart more => simp [ih (Bool.and_eq_true_iff.mp same).2]

theorem shapeOf_of_same (same : node.same other = true) (back : other.same node = true) :
    shapeOf node = shapeOf other := by
  cases node with
  | object entries =>
      cases other with
      | object others =>
          have held (key : String) : (Entries.get? entries key).isSome = (Entries.get? others key).isSome := by
            rw [Bool.eq_iff_iff, Option.isSome_iff_exists, Option.isSome_iff_exists]
            constructor
            · rintro ⟨child, found⟩
              obtain ⟨counterpart, there, -⟩ :=
                get?_of_sameEntries (Bool.and_eq_true_iff.mp same).2 found
              exact ⟨counterpart, there⟩
            · rintro ⟨child, found⟩
              obtain ⟨counterpart, there, -⟩ :=
                get?_of_sameEntries (Bool.and_eq_true_iff.mp back).2 found
              exact ⟨counterpart, there⟩
          rw [shapeOf, shapeOf, funext held]
      | _ => cases same
  | array items =>
      cases other with
      | array others => rw [shapeOf, shapeOf, length_of_same same]
      | _ => cases same
  | null =>
      cases other with
      | null => rfl
      | _ => cases same
  | bool value =>
      cases other with
      | bool value' => rw [shapeOf, shapeOf, show value = value' by simpa [Value.same] using same]
      | _ => cases same
  | number literal =>
      cases other with
      | number literal' =>
          rw [shapeOf, shapeOf, show literal = literal' by simpa [Value.same] using same]
      | _ => cases same
  | string text =>
      cases other with
      | string text' => rw [shapeOf, shapeOf, show text = text' by simpa [Value.same] using same]
      | _ => cases same

/-- Children of equal nodes on one step are equal. -/
theorem back_of_same {counterpart : Value} (back : other.same node = true)
    (leads : childAt node step = some child) (there : childAt other step = some counterpart) :
    counterpart.same child = true := by
  obtain ⟨held, found, alike⟩ := childAt_of_same back there
  rw [leads] at found
  cases found
  exact alike

theorem Shows.of_same (shown : Shows root node path shape) (same : node.same other = true)
    (back : other.same node = true)
    (leads : ∀ target, Mentions node target → LeadsAlike root root' target) :
    Shows root' other path shape := by
  induction shown generalizing other with
  | here given =>
      rw [shapeOf_of_same same back]
      exact .here (refOf_none_of_same back given)
  | inside given down _ ih =>
      obtain ⟨counterpart, there, alike⟩ := childAt_of_same same down
      exact .inside (refOf_none_of_same back given) there
        (ih alike (back_of_same back down there) fun target mentions =>
          leads target (.inside given down mentions))
  | follow refers found rest =>
      refine (shows_of_refOf (refOf_of_same same refers)).mpr ?_
      refine (leads _ (.here refers) _ _).mp ?_
      exact (shows_of_refOf refers).mp (.follow refers found rest)
  | lost refers missing =>
      refine (shows_of_refOf (refOf_of_same same refers)).mpr ?_
      refine (leads _ (.here refers) _ _).mp ?_
      exact (shows_of_refOf refers).mp (.lost refers missing)

theorem Mentions.of_same (mentions : Mentions node target) (same : node.same other = true)
    (back : other.same node = true) : Mentions other target := by
  induction mentions generalizing other with
  | here refers => exact .here (refOf_of_same same refers)
  | inside given down _ ih =>
      obtain ⟨counterpart, there, alike⟩ := childAt_of_same same down
      exact .inside (refOf_none_of_same back given) there (ih alike (back_of_same back down there))

theorem Mentions.leads (mentions : Mentions node target) (same : node.same other = true)
    (back : other.same node = true) (alike : Alike root root' node other) :
    LeadsAlike root root' target := by
  induction mentions generalizing other with
  | here refers =>
      intro path shape
      rw [← shows_of_refOf refers, ← shows_of_refOf (refOf_of_same same refers)]
      exact alike path shape
  | inside given down _ ih =>
      rename_i step _ _
      obtain ⟨counterpart, there, child⟩ := childAt_of_same same down
      refine ih child (back_of_same back down there) fun path shape => ?_
      rw [← shows_below given down, ← shows_below (refOf_none_of_same back given) there]
      exact alike (step :: path) shape

theorem LeadsAlike.symm (leads : LeadsAlike root root' target) : LeadsAlike root' root target :=
  fun path shape => (leads path shape).symm

/-- Equal nodes are one schema in two documents just when every reference that stands in them leads to
one schema. -/
theorem alike_iff (same : node.same other = true) (back : other.same node = true) :
    Alike root root' node other ↔ ∀ target, Mentions node target → LeadsAlike root root' target := by
  constructor
  · intro alike target mentions
    exact mentions.leads same back alike
  · intro leads path shape
    constructor
    · exact fun shown => shown.of_same same back leads
    · exact fun shown => shown.of_same back same fun target mentions =>
        (leads target (mentions.of_same back same)).symm

end Shapes
end Sanshain.Document.AsyncApiDocument
