import Sanshain.Document.StructureExamples
import Sanshain.Document.Snippets

namespace Sanshain.Document.Structure

open Sanshain.Data Sanshain.Document

section Samples

variable {direction : Direction}

/-- The nodes of the members that the example of an object has, under their keys. -/
def shownMembers (direction : Direction) (children : List Node) : Entries String Node :=
  children.foldl (fun fields node =>
    if skips direction node.data then fields else fields.insert node.data.key node) []

/-- The variant that an example takes. -/
def chosenVariant (children : List Node) : Option Node :=
  (children.find? (·.data.kind = .variants)).bind (·.children.head?)

def itemNode (children : List Node) : Option Node := children.find? (·.data.kind = .items)

theorem variantSample_eq (children : List Node) :
    variantSample direction children = (chosenVariant children).map (sample direction) := by
  induction children with
  | nil => rfl
  | cons node rest ih =>
      obtain ⟨data, below⟩ := node
      rw [variantSample, chosenVariant, List.find?_cons]
      by_cases group : data.kind = .variants
      · cases below <;> simp [group, firstSample]
      · rw [if_neg group, ih]
        simp [group, chosenVariant]

theorem itemSample_eq (children : List Node) :
    itemSample direction children = (itemNode children).map (sample direction) := by
  induction children with
  | nil => rfl
  | cons node rest ih =>
      rw [itemSample, itemNode, List.find?_cons]
      by_cases items : node.data.kind = .items
      · simp [items]
      · rw [if_neg items, ih]
        simp [items, itemNode]

theorem insert_map {First Second : Type} (f : First → Second) (entries : Entries String First) (key : String)
    (value : First) : Entries.insert (entries.map fun entry => (entry.1, f entry.2)) key (f value) =
      (entries.insert key value).map fun entry => (entry.1, f entry.2) := by
  induction entries with
  | nil => rfl
  | cons entry rest ih =>
      rw [List.map_cons, Entries.insert, Entries.insert]
      split
      · rfl
      · rw [ih, List.map_cons]

theorem memberSamples_eq (children : List Node) : memberSamples direction [] children =
    (shownMembers direction children).map fun entry => (entry.1, sample direction entry.2) := by
  have whole : ∀ fields : Entries String Node,
      memberSamples direction (fields.map fun entry => (entry.1, sample direction entry.2)) children =
        (children.foldl (fun fields node =>
          if skips direction node.data then fields else fields.insert node.data.key node) fields).map
            fun entry => (entry.1, sample direction entry.2) := by
    intro fields
    induction children generalizing fields with
    | nil => rfl
    | cons node rest ih =>
        rw [memberSamples, List.foldl_cons, ← ih]
        split
        · rfl
        · rw [← insert_map]
  exact whole []

/-- A placeholder is built from the examples of the chosen variant, of the items and of the members. -/
theorem shapeSample_eq (node : Node) : shapeSample direction node =
    shapeOf node.data ((chosenVariant node.children).map (sample direction))
      ((itemNode node.children).map (sample direction))
      ((shownMembers direction node.children).map fun entry => (entry.1, sample direction entry.2)) := by
  cases node
  rw [shapeSample, variantSample_eq, itemSample_eq, memberSamples_eq]
  rfl

theorem sample_eq (node : Node) :
    sample direction node = (givenSample node.data).getD (shapeSample direction node) := by
  cases node
  rfl

/-- A key is among the members shown when a member that is not left out has it. -/
theorem isSome_shownMembers {children : List Node} {key : String} :
    ((shownMembers direction children).get? key).isSome ↔
      ∃ member ∈ children, skips direction member.data = false ∧ member.data.key = key := by
  have whole : ∀ fields : Entries String Node, ((children.foldl (fun fields node =>
      if skips direction node.data then fields else fields.insert node.data.key node) fields).get? key).isSome ↔
        (fields.get? key).isSome ∨
          ∃ member ∈ children, skips direction member.data = false ∧ member.data.key = key := by
    intro fields
    induction children generalizing fields with
    | nil => simp
    | cons node rest ih =>
        rw [List.foldl_cons, ih, List.exists_mem_cons_iff, ← or_assoc]
        apply or_congr_left
        cases left_out : skips direction node.data with
        | true => simp
        | false =>
            rw [if_neg (by simp), Entries.get?_insert]
            by_cases here : node.data.key = key <;> simp [here]
  exact (whole []).trans (by simp)

theorem of_get?_shownMembers {children : List Node} {key : String} {member : Node}
    (held : (shownMembers direction children).get? key = some member) :
    member ∈ children ∧ skips direction member.data = false ∧ member.data.key = key := by
  have whole : ∀ (nodes : List Node) (fields : Entries String Node), (nodes.foldl (fun fields node =>
      if skips direction node.data then fields else fields.insert node.data.key node) fields).get? key =
        some member → fields.get? key = some member ∨
          member ∈ nodes ∧ skips direction member.data = false ∧ member.data.key = key := by
    intro nodes fields held
    induction nodes generalizing fields with
    | nil => exact .inl held
    | cons node rest ih =>
        rw [List.foldl_cons] at held
        obtain before | ⟨among, kept, named⟩ := ih _ held
        · cases left_out : skips direction node.data with
          | true => exact .inl (by simpa [left_out] using before)
          | false =>
              rw [if_neg (by simp [left_out]), Entries.get?_insert] at before
              split at before
              · rename_i named
                cases before
                exact .inr ⟨List.mem_cons_self, left_out, named⟩
              · exact .inl before
        · exact .inr ⟨List.mem_cons_of_mem _ among, kept, named⟩
  obtain nothing | found := whole children [] held
  · cases nothing
  · exact found

end Samples

section Sources

/-- Where a value of an example comes from: the placeholder of a node, or a value the specification gives. -/
inductive Source where
  | shape (node : Node)
  | given (value : Value)

def sourceOf (node : Node) : Source :=
  match givenSample node.data with
  | some value => .given value
  | none => .shape node

def Source.json (direction : Direction) : Source → Value
  | .shape node => shapeSample direction node
  | .given value => value

variable {direction : Direction}

theorem json_sourceOf (node : Node) : (sourceOf node).json direction = sample direction node := by
  rw [sourceOf, sample_eq]
  cases givenSample node.data <;> rfl

/-- The placeholder of a node is one for an object. -/
def takesFields (data : NodeData) : Bool :=
  data.kind ≠ .cycle && data.kind ≠ .note &&
    data.jsonType.all fun type =>
      type ∉ ["array", "string", "integer", "number", "boolean", "null"]

theorem shapeOf_takesFields {data : NodeData} (fields : takesFields data = true) (variant item : Option Value)
    (members : Mapping) : shapeOf data variant item members = mergeVariant members variant := by
  simp only [takesFields, Bool.and_eq_true, decide_eq_true_eq, Option.all_eq_true] at fields
  obtain ⟨⟨cycle, note⟩, type⟩ := fields
  rw [shapeOf, if_neg (by simp [cycle, note])]
  split <;> first | rfl | (rename_i same; exact absurd (type _ same) (by decide))

/-- The placeholder of a node is one for an array. -/
def takesItems (data : NodeData) : Bool :=
  data.kind ≠ .cycle && data.kind ≠ .note && data.jsonType = some "array"

theorem shapeOf_takesItems {data : NodeData} (items : takesItems data = true) (variant item : Option Value)
    (members : Mapping) : shapeOf data variant item members = .array [item.getD .null] := by
  simp only [takesItems, Bool.and_eq_true, decide_eq_true_eq] at items
  rw [shapeOf, if_neg (by simp [items.1.1, items.1.2])]
  simp [items.2]

/-- Any other placeholder is a scalar. -/
theorem shapeOf_scalar {data : NodeData} (fields : takesFields data = false) (items : takesItems data = false)
    (variant item : Option Value) (members : Mapping) :
    (shapeOf data variant item members).asObject = none ∧ (shapeOf data variant item members).asArray = none := by
  rw [shapeOf]
  split
  · exact ⟨rfl, rfl⟩
  · rename_i open_kind
    rw [not_or] at open_kind
    split
    · rename_i array
      simp [takesItems, open_kind, array] at items
    · exact ⟨rfl, rfl⟩
    · exact ⟨rfl, rfl⟩
    · exact ⟨rfl, rfl⟩
    · exact ⟨rfl, rfl⟩
    · exact ⟨rfl, rfl⟩
    · rename_i other
      exfalso
      simp only [takesFields, open_kind, ne_eq, not_false_eq_true, decide_true, Bool.and_self, Bool.true_and,
        Option.all_eq_false] at fields
      obtain ⟨type, same, known⟩ := fields
      have among : type = "array" ∨ type = "string" ∨ type = "integer" ∨ type = "number" ∨
          type = "boolean" ∨ type = "null" := by
        simp at known
        tauto
      obtain rfl | rfl | rfl | rfl | rfl | rfl := among <;> simp_all

/-- Fields of a variant are those of an object where it has none. -/
theorem get?_fillFields (object fields : Mapping) (key : String) :
    Entries.get? (fillFields object fields) key = (Entries.get? object key).or (Entries.get? fields key) := by
  have append : ∀ (entries : Mapping) (field : String × Value),
      Entries.get? (entries ++ [field]) key =
        (Entries.get? entries key).or (if field.1 = key then some field.2 else none) := by
    intro entries field
    induction entries with
    | nil => simp [Entries.get?_cons]
    | cons entry rest ih =>
        rw [List.cons_append, Entries.get?_cons, Entries.get?_cons, ih]
        split <;> rfl
  rw [fillFields]
  induction fields generalizing object with
  | nil => simp
  | cons field rest ih =>
      rw [List.foldl_cons, ih, Entries.get?_cons]
      by_cases here : field.1 = key
      · rw [if_pos here]
        cases held : (Entries.get? object field.1).isSome with
        | true =>
            obtain ⟨value, same⟩ := Option.isSome_iff_exists.mp held
            rw [here] at same
            simp [same]
        | false =>
            have absent : Entries.get? object key = none := by simpa [here] using held
            rw [if_neg (by simp), append, absent, if_pos here]
            rfl
      · rw [if_neg here]
        split
        · rfl
        · rw [append, if_neg here, Option.or_none]

theorem get?_mergeVariant (object : Mapping) (variant : Option Value) (key : String) :
    (mergeVariant object variant).get? key =
      (Entries.get? object key).or (variant.bind (·.get? key)) := by
  cases variant with
  | none => simp [mergeVariant, Value.get?, Value.asObject]
  | some value =>
      cases value with
      | object fields => exact get?_fillFields object fields key
      | _ =>
          rw [mergeVariant]
          · split <;> simp_all [Value.get?, Value.asObject]
          · intro fields same
            cases same

/-- An object is shown unless it has no field of its own and its variant is no object. -/
theorem asObject_mergeVariant (object : Mapping) (variant : Option Value) :
    (mergeVariant object variant).asObject.isSome ↔
      ¬ (object = [] ∧ ∃ other, variant = some other ∧ other.asObject = none) := by
  cases variant with
  | none => simp [mergeVariant, Value.asObject]
  | some value =>
      cases value with
      | object fields => simp [mergeVariant, Value.asObject]
      | _ =>
          rw [mergeVariant]
          · split <;> simp_all [Value.asObject]
          · intro fields same
            cases same

theorem asArray_mergeVariant (object : Mapping) (variant : Option Value) :
    ((mergeVariant object variant).asArray).getD [] =
      if object = [] then (variant.bind Value.asArray).getD [] else [] := by
  cases variant with
  | none => simp [mergeVariant, Value.asArray]
  | some value =>
      cases value with
      | object fields => simp [mergeVariant, Value.asArray]
      | _ =>
          rw [mergeVariant]
          · split <;> simp_all [Value.asArray]
          · intro fields same
            cases same

end Sources

section Fields

/-- The example from a source has under a key the value of another source. -/
inductive Brings (direction : Direction) : Source → String → Source → Prop
  | given {value field : Value} {key : String} (held : value.get? key = some field) :
      Brings direction (.given value) key (.given field)
  | member {node member : Node} {key : String} (fields : takesFields node.data = true)
      (held : (shownMembers direction node.children).get? key = some member) :
      Brings direction (.shape node) key (sourceOf member)
  | variant {node variant : Node} {key : String} {source : Source} (fields : takesFields node.data = true)
      (absent : (shownMembers direction node.children).get? key = none)
      (chosen : chosenVariant node.children = some variant)
      (brings : Brings direction (sourceOf variant) key source) : Brings direction (.shape node) key source

/-- Some member that is not left out has a key, in an object or its chosen variants. -/
inductive Carries (direction : Direction) : Source → String → Prop
  | given {value : Value} {key : String} (held : (value.get? key).isSome) : Carries direction (.given value) key
  | member {node member : Node} (fields : takesFields node.data = true) (among : member ∈ node.children)
      (kept : skips direction member.data = false) : Carries direction (.shape node) member.data.key
  | variant {node variant : Node} {key : String} (fields : takesFields node.data = true)
      (chosen : chosenVariant node.children = some variant) (carries : Carries direction (sourceOf variant) key) :
      Carries direction (.shape node) key

/-- The example from a source is a list that holds the value of another source. -/
inductive Holds (direction : Direction) : Source → Source → Prop
  | given {value element : Value} (among : element ∈ value.asArray.getD []) :
      Holds direction (.given value) (.given element)
  | items {node items : Node} (list : takesItems node.data = true)
      (there : itemNode node.children = some items) : Holds direction (.shape node) (sourceOf items)
  | empty {node : Node} (list : takesItems node.data = true) (absent : itemNode node.children = none) :
      Holds direction (.shape node) (.given .null)
  | variant {node variant : Node} {source : Source} (fields : takesFields node.data = true)
      (bare : shownMembers direction node.children = []) (chosen : chosenVariant node.children = some variant)
      (holds : Holds direction (sourceOf variant) source) : Holds direction (.shape node) source

/-- The example from a source is an object. -/
inductive ShowsObject (direction : Direction) : Source → Prop
  | given {value : Value} (object : value.asObject.isSome) : ShowsObject direction (.given value)
  | members {node : Node} (fields : takesFields node.data = true)
      (some_shown : shownMembers direction node.children ≠ []) : ShowsObject direction (.shape node)
  | alone {node : Node} (fields : takesFields node.data = true)
      (plain : chosenVariant node.children = none) : ShowsObject direction (.shape node)
  | variant {node variant : Node} (fields : takesFields node.data = true)
      (chosen : chosenVariant node.children = some variant) (object : ShowsObject direction (sourceOf variant)) :
      ShowsObject direction (.shape node)

theorem height_chosenVariant {node variant : Node} (chosen : chosenVariant node.children = some variant) :
    variant.height < node.height := by
  obtain ⟨group, found, first⟩ := Option.bind_eq_some_iff.mp chosen
  have group_height : group.height ≤ node.height - 1 := by
    have whole : node.height ≤ node.height - 1 + 1 := by omega
    exact Node.height_le_succ.mp whole group (List.mem_of_find?_eq_some found)
  have variant_height : variant.height ≤ group.height - 1 := by
    have whole : group.height ≤ group.height - 1 + 1 := by omega
    exact Node.height_le_succ.mp whole variant (List.mem_of_head? first)
  have positive : 0 < node.height := by
    cases node
    exact Nat.succ_pos _
  have group_positive : 0 < group.height := by
    cases group
    exact Nat.succ_pos _
  omega

/-- What holds of given values, and of a node when it does of the variant it takes, holds of every source. -/
theorem source_induction {holds : Source → Prop} (given : ∀ value, holds (.given value))
    (shape : ∀ node, (∀ variant, chosenVariant node.children = some variant → holds (sourceOf variant)) →
      holds (.shape node)) (source : Source) : holds source := by
  have nodes : ∀ bound : ℕ, ∀ node : Node, node.height ≤ bound → holds (.shape node) := by
    intro bound
    induction bound with
    | zero =>
        intro node low
        cases node
        simp [Node.height] at low
    | succ bound ih =>
        intro node low
        apply shape
        intro variant chosen
        have less := height_chosenVariant chosen
        rw [sourceOf]
        cases givenSample variant.data with
        | some value => exact given value
        | none => exact ih variant (by omega)
  cases source with
  | given value => exact given value
  | shape node => exact nodes node.height node le_rfl

variable {direction : Direction}

theorem get?_shape (node : Node) (key : String) : (shapeSample direction node).get? key =
    if takesFields node.data = true then
      (((shownMembers direction node.children).get? key).map (sample direction)).or
        (((chosenVariant node.children).map (sample direction)).bind (·.get? key))
    else none := by
  rw [shapeSample_eq]
  cases fields : takesFields node.data with
  | true => rw [shapeOf_takesFields fields, get?_mergeVariant, if_pos rfl, OpenApiDocument.get?_map]
  | false =>
      rw [if_neg (by simp)]
      cases items : takesItems node.data with
      | true =>
          rw [shapeOf_takesItems items]
          rfl
      | false => rw [Value.get?, (shapeOf_scalar fields items _ _ _).1, Option.bind_none]

/-- The value under a key of an example is that of the source that is brought. -/
theorem brings_iff (source : Source) (key : String) (field : Value) :
    (source.json direction).get? key = some field ↔
      ∃ other, Brings direction source key other ∧ other.json direction = field := by
  induction source using source_induction with
  | given value =>
      constructor
      · intro held
        exact ⟨.given field, .given held, rfl⟩
      · intro told
        obtain ⟨other, brings, same⟩ := told
        cases brings with
        | given held => exact same ▸ held
  | shape node ih =>
      rw [Source.json, get?_shape]
      split
      · rename_i fields
        cases held : (shownMembers direction node.children).get? key with
        | some member =>
            rw [Option.map_some, Option.some_or, Option.some.injEq]
            constructor
            · intro same
              exact ⟨sourceOf member, .member fields held, (json_sourceOf member).trans same⟩
            · intro told
              obtain ⟨other, brings, same⟩ := told
              cases brings with
              | member _ held' =>
                  obtain rfl := Option.some.inj (held.symm.trans held')
                  exact (json_sourceOf member).symm.trans same
              | variant _ absent _ _ =>
                  rw [held] at absent
                  cases absent
        | none =>
            rw [Option.map_none, Option.none_or]
            cases chosen : chosenVariant node.children with
            | none =>
                constructor
                · intro held
                  cases held
                · intro told
                  obtain ⟨other, brings, _⟩ := told
                  cases brings with
                  | member _ held' =>
                      rw [held] at held'
                      cases held'
                  | variant _ _ chosen' _ =>
                      rw [chosen] at chosen'
                      cases chosen'
            | some variant =>
                rw [Option.map_some, Option.bind_some, ← json_sourceOf variant, ih variant chosen]
                constructor
                · intro told
                  obtain ⟨other, brings, same⟩ := told
                  exact ⟨other, .variant fields held chosen brings, same⟩
                · intro told
                  obtain ⟨other, brings, same⟩ := told
                  cases brings with
                  | member _ held' =>
                      rw [held] at held'
                      cases held'
                  | variant _ _ chosen' brings =>
                      obtain rfl := Option.some.inj (chosen.symm.trans chosen')
                      exact ⟨other, brings, same⟩
      · rename_i other_shape
        constructor
        · intro held
          cases held
        · intro told
          obtain ⟨other, brings, _⟩ := told
          cases brings with
          | member fields _ => exact absurd fields other_shape
          | variant fields _ _ _ => exact absurd fields other_shape

/-- An example has a key when a member that is not left out has it. -/
theorem carries_iff (source : Source) (key : String) :
    Carries direction source key ↔ ((source.json direction).get? key).isSome := by
  induction source using source_induction with
  | given value =>
      constructor
      · intro carries
        cases carries with
        | given held => exact held
      · exact .given
  | shape node ih =>
      rw [Source.json, get?_shape]
      split
      · rename_i fields
        rw [Option.isSome_or, Option.isSome_map, Bool.or_eq_true, isSome_shownMembers]
        constructor
        · intro carries
          cases carries with
          | member _ among kept => exact .inl ⟨_, among, kept, rfl⟩
          | variant _ chosen carries =>
              rw [ih _ chosen, json_sourceOf] at carries
              rw [chosen]
              exact .inr carries
        · intro either
          obtain ⟨member, among, kept, rfl⟩ | held := either
          · exact .member fields among kept
          · cases chosen : chosenVariant node.children with
            | none => simp [chosen] at held
            | some variant =>
                rw [chosen, Option.map_some, Option.bind_some, ← json_sourceOf, ← ih variant chosen] at held
                exact .variant fields chosen held
      · rename_i other_shape
        constructor
        · intro carries
          cases carries with
          | member fields _ _ => exact absurd fields other_shape
          | variant fields _ _ => exact absurd fields other_shape
        · intro held
          cases held

/-- The elements of an example are the values of the sources it holds. -/
theorem holds_iff (source : Source) (element : Value) :
    element ∈ (source.json direction).asArray.getD [] ↔
      ∃ other, Holds direction source other ∧ other.json direction = element := by
  induction source using source_induction with
  | given value =>
      constructor
      · intro among
        exact ⟨.given element, .given among, rfl⟩
      · intro told
        obtain ⟨other, holds, same⟩ := told
        cases holds with
        | given among => exact same ▸ among
  | shape node ih =>
      rw [Source.json, shapeSample_eq]
      cases items : takesItems node.data with
      | true =>
          have other_shape : ¬ takesFields node.data = true := by
            simp only [takesItems, Bool.and_eq_true, decide_eq_true_eq] at items
            simp [takesFields, items.2]
          rw [shapeOf_takesItems items, Value.asArray, Option.getD_some, List.mem_singleton]
          constructor
          · intro same
            cases there : itemNode node.children with
            | none => exact ⟨.given .null, .empty items there, by simp [same, there, Source.json]⟩
            | some inner => exact ⟨sourceOf inner, .items items there, by simp [same, there, json_sourceOf]⟩
          · intro told
            obtain ⟨other, holds, same⟩ := told
            cases holds with
            | items _ there => simp [← same, there, json_sourceOf]
            | empty _ absent => simp [← same, absent, Source.json]
            | variant fields _ _ _ => exact absurd fields other_shape
      | false =>
          cases fields : takesFields node.data with
          | false =>
              rw [(shapeOf_scalar fields items _ _ _).2]
              constructor
              · intro held
                cases held
              · intro told
                obtain ⟨other, holds, _⟩ := told
                cases holds with
                | items list _ => simp [items] at list
                | empty list _ => simp [items] at list
                | variant fields' _ _ _ => simp [fields] at fields'
          | true =>
              rw [shapeOf_takesFields fields, asArray_mergeVariant]
              simp only [List.map_eq_nil_iff]
              constructor
              · intro among
                split at among
                · rename_i bare
                  cases chosen : chosenVariant node.children with
                  | none => simp [chosen] at among
                  | some variant =>
                      rw [chosen, Option.map_some, Option.bind_some, ← json_sourceOf, ih variant chosen] at among
                      obtain ⟨other, holds, same⟩ := among
                      exact ⟨other, .variant fields bare chosen holds, same⟩
                · cases among
              · intro told
                obtain ⟨other, holds, same⟩ := told
                cases holds with
                | items list _ => simp [items] at list
                | empty list _ => simp [items] at list
                | variant _ bare chosen holds =>
                    rw [if_pos bare, chosen, Option.map_some, Option.bind_some, ← json_sourceOf, ih _ chosen]
                    exact ⟨other, holds, same⟩

theorem showsObject_iff (source : Source) :
    ShowsObject direction source ↔ (source.json direction).asObject.isSome := by
  induction source using source_induction with
  | given value =>
      constructor
      · intro shows_object
        cases shows_object with
        | given object => exact object
      · exact .given
  | shape node ih =>
      rw [Source.json, shapeSample_eq]
      cases fields : takesFields node.data with
      | false =>
          have scalar : (shapeOf node.data ((chosenVariant node.children).map (sample direction))
              ((itemNode node.children).map (sample direction))
              ((shownMembers direction node.children).map fun entry =>
                (entry.1, sample direction entry.2))).asObject = none := by
            cases items : takesItems node.data with
            | true => rw [shapeOf_takesItems items]; rfl
            | false => exact (shapeOf_scalar fields items _ _ _).1
          rw [scalar]
          constructor
          · intro shows_object
            cases shows_object with
            | members fields' _ => simp [fields] at fields'
            | alone fields' _ => simp [fields] at fields'
            | variant fields' _ _ => simp [fields] at fields'
          · intro held
            cases held
      | true =>
          rw [shapeOf_takesFields fields, asObject_mergeVariant, List.map_eq_nil_iff]
          constructor
          · intro shows_object ⟨bare, other, same, plain⟩
            cases shows_object with
            | members _ some_shown => exact some_shown bare
            | alone _ alone => simp [alone] at same
            | variant _ chosen object =>
                rw [chosen, Option.map_some, Option.some.injEq] at same
                rw [ih _ chosen, json_sourceOf, same, plain] at object
                cases object
          · intro shown
            by_cases bare : shownMembers direction node.children = []
            · cases chosen : chosenVariant node.children with
              | none => exact .alone fields chosen
              | some variant =>
                  apply ShowsObject.variant fields chosen
                  rw [ih variant chosen, json_sourceOf, ← Option.ne_none_iff_isSome]
                  intro plain
                  exact shown ⟨bare, _, by rw [chosen, Option.map_some], plain⟩
            · exact .members fields bare

end Fields
end Sanshain.Document.Structure
