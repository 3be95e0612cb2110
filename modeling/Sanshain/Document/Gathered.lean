import Mathlib.Data.String.Basic
import Sanshain.Document.EndpointKeys
import Sanshain.Document.Merge
import Sanshain.Document.Snippets

namespace Sanshain.Document.OpenApiDocument

open Sanshain.Data Sanshain.Domain

section Maps

variable {Node : Type} {name : String}

theorem get?_indexMap_insert (map : IndexMap String Node) (key : String) (node : Node) :
    (map.insert key node).get? name = if key = name then some node else map.get? name :=
  Entries.get?_insert map.entries key name node

/-- A union has what either section has, the first one first. -/
theorem get?_mergeSection (merged added : IndexMap String Node) :
    (mergeSection merged added).get? name = (merged.get? name).or (added.get? name) := by
  unfold mergeSection
  change _ = (merged.get? name).or (Entries.get? added.entries name)
  generalize added.entries = entries
  induction entries generalizing merged with
  | nil => simp
  | cons entry rest ih =>
      rw [List.foldl_cons, ih, Entries.get?_cons]
      by_cases known : merged.contains entry.1 = true
      · rw [if_pos known]
        split
        · rename_i same
          rw [same, IndexMap.contains] at known
          rw [Option.or_of_isSome known, Option.or_of_isSome known]
        · rfl
      · rw [if_neg known, get?_indexMap_insert]
        split
        · rename_i same
          rw [same, IndexMap.contains, Option.not_isSome_iff_eq_none] at known
          rw [known]
          rfl
        · rfl

theorem indexMap_ext {first second : IndexMap String Node} (same : first.entries = second.entries) :
    first = second := by
  cases first
  cases second
  cases same
  rfl

/-- Sorted, two maps of the same nodes are one. -/
theorem sortKeys_congr {first second : IndexMap String Node}
    (same : ∀ name, first.get? name = second.get? name) :
    first.sortKeys textLe = second.sortKeys textLe := by
  let le : String × Node → String × Node → Prop := fun one other => textLe one.1 other.1 = true
  have total : ∀ one other : String × Node, le one other ∨ le other one := by
    intro one other
    simp only [le, textLe, decide_eq_true_eq]
    exact le_total one.1 other.1
  have transitive : ∀ one other third : String × Node, le one other → le other third → le one third := by
    intro one other third
    simp only [le, textLe, decide_eq_true_eq]
    exact le_trans
  have : Std.Total le := ⟨total⟩
  have : IsTrans (String × Node) le := ⟨transitive⟩
  have among (map : IndexMap String Node) (entry : String × Node) :
      entry ∈ map.entries ↔ map.get? entry.1 = some entry.2 :=
    (get?_eq_some_iff_mem map.distinct).symm
  have perm : first.entries.Perm second.entries := by
    refine (List.perm_ext_iff_of_nodup (first.distinct.of_map _) (second.distinct.of_map _)).mpr ?_
    intro entry
    rw [among, among, same]
  have entries : (first.sortKeys textLe).entries = (second.sortKeys textLe).entries := by
    refine List.Perm.eq_of_pairwise ?_ (List.pairwise_insertionSort le first.entries)
      (List.pairwise_insertionSort le second.entries)
      ((List.perm_insertionSort le _).trans (perm.trans (List.perm_insertionSort le _).symm))
    intro one other here there below above
    simp only [le, textLe, decide_eq_true_eq] at below above
    have key : one.1 = other.1 := le_antisymm below above
    have held := (among first one).mp ((List.perm_insertionSort le _).mem_iff.mp here)
    have held' := (among second other).mp ((List.perm_insertionSort le _).mem_iff.mp there)
    rw [same, key, held'] at held
    exact Prod.ext key (Option.some.inj held).symm
  exact indexMap_ext entries

end Maps

section Parts

/-- The categories that a merge takes from the first snippet alone. -/
def unmergedCategories : List String := ["examples", "links", "callbacks"]

variable {category name : String}

theorem componentNodes_none (category : String) : componentNodes Components.none category = [] := by
  unfold componentNodes
  split_ifs <;> rfl

theorem get?_mergedNodes {Node : Type} (wrap : Node → DocumentNode) (merged added : IndexMap String Node) :
    Entries.get? (nodesOf wrap (mergeSection merged added)) name =
      (Entries.get? (nodesOf wrap merged) name).or (Entries.get? (nodesOf wrap added) name) := by
  rw [get?_nodesOf, get?_nodesOf, get?_nodesOf, get?_mergeSection]
  cases merged.get? name <;> rfl

theorem get?_mergeComponents (merged added : Components) :
    Entries.get? (componentNodes (mergeComponents merged added) category) name =
      if category ∈ unmergedCategories then Entries.get? (componentNodes merged category) name
      else (Entries.get? (componentNodes merged category) name).or
        (Entries.get? (componentNodes added category) name) := by
  by_cases unmerged : category ∈ unmergedCategories
  · rw [if_pos unmerged]
    simp only [unmergedCategories, List.mem_cons, List.not_mem_nil, or_false] at unmerged
    rcases unmerged with rfl | rfl | rfl <;> rfl
  · rw [if_neg unmerged]
    unfold componentNodes
    split_ifs with schemas responses parameters bodies others
    · exact get?_mergedNodes _ _ _
    · exact get?_mergedNodes _ _ _
    · exact get?_mergedNodes _ _ _
    · exact get?_mergedNodes _ _ _
    · have taken : category ∈ mergedCategories := by
        simp only [otherCategories, unmergedCategories, mergedCategories, List.mem_cons,
          List.not_mem_nil, or_false] at *
        tauto
      rw [mergeComponents]
      dsimp only
      rw [if_pos taken]
      exact get?_mergedNodes _ _ _
    · rfl

/-- What a merge makes of the components of two documents. -/
theorem component_mergeDocument (merged added : OpenApi) :
    component (mergeDocument merged added) category name =
      if category ∈ unmergedCategories then component merged category name
      else (component merged category name).or (component added category name) := by
  unfold component mergeDocument
  cases there : added.components with
  | none => simp
  | some components =>
      cases here : merged.components with
      | none =>
          dsimp only
          rw [Option.bind_some, Option.getD_none, get?_mergeComponents, componentNodes_none]
          simp
      | some held =>
          dsimp only
          rw [Option.bind_some, Option.getD_some, get?_mergeComponents]
          simp

theorem component_sortDocument (document : OpenApi) :
    component (sortDocument document) category name = component document category name := by
  have sorted {Node : Type} (wrap : Node → DocumentNode) (map : IndexMap String Node) :
      Entries.get? (nodesOf wrap (map.sortKeys textLe)) name = Entries.get? (nodesOf wrap map) name := by
    rw [get?_nodesOf, get?_nodesOf, get?_sortKeys]
  unfold component sortDocument
  cases document.components with
  | none => rfl
  | some components =>
      dsimp only [Option.map_some, Option.bind_some]
      unfold componentNodes sortComponents
      split_ifs with schemas responses parameters bodies others
      · exact sorted _ _
      · exact sorted _ _
      · exact sorted _ _
      · exact sorted _ _
      · dsimp only
        split
        · exact sorted _ _
        · rfl
      · rfl

end Parts

section Paths

variable {path : String} {method : Method}

/-- The operation of a place among chosen ones: the last chosen, should there be several. -/
def chosenAt (chosen : List (String × Method × Operation)) (path : String) (method : Method) :
    Option Operation :=
  (chosen.reverse.find? fun found => found.1 = path ∧ found.2.1 = method).map (·.2.2)

/-- The path item that holds the chosen operations of a path. -/
def gatheredItem (chosen : List (String × Method × Operation)) (path : String) :
    Option (ReferenceOr PathItem) :=
  if path ∈ chosen.map Prod.fst then some (.item ⟨chosenAt chosen path, [], .object []⟩) else none

theorem chosenAt_append (chosen : List (String × Method × Operation))
    (found : String × Method × Operation) : chosenAt (chosen ++ [found]) path method =
      if found.1 = path ∧ found.2.1 = method then some found.2.2 else chosenAt chosen path method := by
  unfold chosenAt
  rw [List.reverse_append, List.reverse_singleton, List.singleton_append, List.find?_cons]
  by_cases here : found.1 = path ∧ found.2.1 = method
  · simp [here]
  · simp [here]

theorem get?_mergePath (paths : IndexMap String (ReferenceOr PathItem))
    (chosen : List (String × Method × Operation)) (found : String × Method × Operation)
    (gathered : ∀ path, paths.get? path = gatheredItem chosen path) :
    (mergePath paths (found.1, .item ⟨fun other => if other = found.2.1 then some found.2.2 else none,
      [], .object []⟩)).get? path = gatheredItem (chosen ++ [found]) path := by
  obtain ⟨place, method, operation⟩ := found
  have own : chosenAt (chosen ++ [(place, method, operation)]) place =
      fun other => (if other = method then some operation else none).or (chosenAt chosen place other) := by
    funext other
    rw [chosenAt_append]
    by_cases same : other = method
    · simp [same]
    · simp [same, Ne.symm same]
  have apart (away : place ≠ path) : gatheredItem (chosen ++ [(place, method, operation)]) path =
      gatheredItem chosen path := by
    have kept : chosenAt (chosen ++ [(place, method, operation)]) path = chosenAt chosen path := by
      funext other
      rw [chosenAt_append, if_neg fun both => away both.1]
    have among : path ∈ (chosen ++ [(place, method, operation)]).map Prod.fst ↔
        path ∈ chosen.map Prod.fst := by
      rw [List.map_append, List.mem_append, List.map_singleton, List.mem_singleton]
      exact or_iff_left fun same => away same.symm
    unfold gatheredItem
    rw [kept]
    by_cases there : path ∈ chosen.map Prod.fst
    · rw [if_pos there, if_pos (among.mpr there)]
    · rw [if_neg there, if_neg (mt among.mp there)]
  have joined : gatheredItem (chosen ++ [(place, method, operation)]) place =
      some (.item ⟨chosenAt (chosen ++ [(place, method, operation)]) place, [], .object []⟩) := by
    simp [gatheredItem]
  by_cases there : place ∈ chosen.map Prod.fst
  · have held : paths.get? place = some (.item ⟨chosenAt chosen place, [], .object []⟩) := by
      rw [gathered, gatheredItem, if_pos there]
    simp only [mergePath, held, get?_indexMap_insert]
    split
    · rename_i same
      rw [← same, joined, own]
      rfl
    · rename_i away
      rw [gathered, apart away]
  · have free : paths.get? place = none := by rw [gathered, gatheredItem, if_neg there]
    have unchosen : chosenAt chosen place = fun _ => none := by
      funext other
      rw [chosenAt, Option.map_eq_none_iff, List.find?_eq_none]
      intro found among here
      have same : found.1 = place := (of_decide_eq_true here).1
      exact there (same ▸ List.mem_map_of_mem (List.mem_reverse.mp among))
    simp only [mergePath, free, get?_indexMap_insert]
    split
    · rename_i same
      rw [← same, joined, own, unchosen]
      simp
    · rename_i away
      rw [gathered, apart away]

end Paths

section Gathering

variable {external : External} {document : OpenApi} {first found : String × Method × Operation}
  {rest chosen : List (String × Method × Operation)}

/-- The snippets of chosen operations, merged over the first one. -/
def gather (external : External) (document : OpenApi) (first : String × Method × Operation)
    (rest : List (String × Method × Operation)) : OpenApi :=
  rest.foldl (fun merged found => mergeDocument merged (snippetOf external document found))
    (snippetOf external document first)

/-- The document that a merge of their texts writes. -/
def mergedOf (external : External) (document : OpenApi) (first : String × Method × Operation)
    (rest : List (String × Method × Operation)) : OpenApi :=
  sortDocument (gather external document first rest)

theorem gather_append : gather external document first (rest ++ [found]) =
    mergeDocument (gather external document first rest) (snippetOf external document found) := by
  rw [gather, List.foldl_append]
  rfl

theorem get?_gather (path : String) :
    (gather external document first rest).paths.get? path = gatheredItem (first :: rest) path := by
  induction rest using List.reverseRecOn generalizing path with
  | nil => exact get?_mergePath .empty [] first fun _ => rfl
  | append_singleton rest found ih =>
      rw [gather_append]
      exact get?_mergePath _ (first :: rest) found ih

/-- What the merged snippets carry: a union, but for the categories of the first one alone. -/
theorem component_gather (category name : String) :
    component (gather external document first rest) category name =
      if category ∈ unmergedCategories then component (snippetOf external document first) category name
      else (first :: rest).findSome? fun found =>
        component (snippetOf external document found) category name := by
  induction rest using List.reverseRecOn with
  | nil =>
      split
      · rfl
      · rw [List.findSome?_singleton]
        rfl
  | append_singleton rest found ih =>
      rw [gather_append, component_mergeDocument, ih]
      split
      · rfl
      · rw [← List.cons_append, List.findSome?_append, List.findSome?_singleton]

theorem operationKeys_nodup (document : OpenApi) :
    ((operationsOf document).map fun found => (found.1, found.2.1)).Nodup := by
  have distinct := operationsOf_nodup document
  refine List.Nodup.of_map (fun key : String × Method => (key.1, key.2.upper)) ?_
  rw [List.map_map]
  exact distinct

theorem chosenAt_eq_some (distinct : (chosen.map fun found => (found.1, found.2.1)).Nodup)
    {path : String} {method : Method} {operation : Operation} :
    chosenAt chosen path method = some operation ↔ (path, method, operation) ∈ chosen := by
  unfold chosenAt
  rw [Option.map_eq_some_iff]
  constructor
  · rintro ⟨⟨place, kind, held⟩, there, rfl⟩
    obtain ⟨rfl, rfl⟩ : place = path ∧ kind = method := by simpa using List.find?_some there
    exact List.mem_reverse.mp (List.mem_of_find?_eq_some there)
  · intro among
    cases there : chosen.reverse.find? fun found => found.1 = path ∧ found.2.1 = method with
    | none =>
        have absent := List.find?_eq_none.mp there _ (List.mem_reverse.mpr among)
        simp at absent
    | some other =>
        have key : other.1 = path ∧ other.2.1 = method := by simpa using List.find?_some there
        have same := List.inj_on_of_nodup_map distinct
          (List.mem_reverse.mp (List.mem_of_find?_eq_some there)) among (Prod.ext key.1 key.2)
        exact ⟨other, rfl, by rw [same]⟩

theorem mem_operationsOf : found ∈ operationsOf document ↔
    ∃ item, document.paths.get? found.1 = some (.item item) ∧ item.operation found.2.1 = some found.2.2 := by
  obtain ⟨path, method, operation⟩ := found
  constructor
  · intro among
    obtain ⟨⟨place, reference | item⟩, held, within⟩ := List.mem_flatMap.mp among
    · cases within
    · obtain ⟨⟨kind, other⟩, there, same⟩ := List.mem_map.mp within
      cases same
      exact ⟨item, IndexMap.get?_of_mem held, mem_getMethods.mp there⟩
  · rintro ⟨item, held, there⟩
    refine List.mem_flatMap.mpr ⟨(path, .item item), Entries.mem_of_get? held, ?_⟩
    exact List.mem_map.mpr ⟨(method, operation), mem_getMethods.mpr there, rfl⟩

theorem get?_mergedOf (path : String) :
    (mergedOf external document first rest).paths.get? path = gatheredItem (first :: rest) path := by
  rw [mergedOf, sortDocument]
  exact (get?_sortKeys textLe).trans (get?_gather path)

/-- A merge holds the chosen operations, as they are. -/
theorem mem_operationsOf_mergedOf
    (distinct : ((first :: rest).map fun found => (found.1, found.2.1)).Nodup) :
    found ∈ operationsOf (mergedOf external document first rest) ↔ found ∈ first :: rest := by
  obtain ⟨path, method, operation⟩ := found
  rw [mem_operationsOf]
  simp only [get?_mergedOf]
  constructor
  · rintro ⟨item, held, there⟩
    unfold gatheredItem at held
    split at held
    · cases held
      exact (chosenAt_eq_some distinct).mp there
    · cases held
  · intro among
    have there : path ∈ (first :: rest).map Prod.fst := List.mem_map_of_mem among
    refine ⟨_, if_pos there, ?_⟩
    exact (chosenAt_eq_some distinct).mpr among

theorem component_mergedOf (category name : String) :
    component (mergedOf external document first rest) category name =
      if category ∈ unmergedCategories then component (snippetOf external document first) category name
      else (first :: rest).findSome? fun found =>
        component (snippetOf external document found) category name := by
  rw [mergedOf, component_sortDocument, component_gather]

/-- The paths of a merge do not depend on the order of the snippets. -/
theorem paths_mergedOf {other : String × Method × Operation}
    {others : List (String × Method × Operation)}
    (distinct : ((first :: rest).map fun found => (found.1, found.2.1)).Nodup)
    (perm : (first :: rest).Perm (other :: others)) :
    (mergedOf external document first rest).paths = (mergedOf external document other others).paths := by
  refine sortKeys_congr fun path => ?_
  rw [get?_gather, get?_gather]
  have distinct' := (perm.map fun found => (found.1, found.2.1)).nodup_iff.mp distinct
  have same : chosenAt (first :: rest) path = chosenAt (other :: others) path := by
    funext method
    refine Option.ext fun operation => ?_
    exact (chosenAt_eq_some distinct).trans (perm.mem_iff.trans (chosenAt_eq_some distinct').symm)
  unfold gatheredItem
  rw [same]
  simp only [(perm.map Prod.fst).mem_iff]

/-- Texts that read as the snippets of chosen operations are merged to one document. -/
theorem mergeEndpointYamls_eq {texts : List ((String × Method × Operation) × String)} {text : String}
    (base : external.parseOpenApi text = .ok (snippetOf external document first))
    (reads : ∀ entry ∈ texts, external.parseOpenApi entry.2 = .ok (snippetOf external document entry.1)) :
    mergeEndpointYamls external (text :: texts.map Prod.snd) =
      match external.writeOpenApi (mergedOf external document first (texts.map Prod.fst)) with
      | .error reason => .error s!"Failed to serialize merged YAML: {reason}"
      | .ok text => .ok text := by
  have merged (held : OpenApi) : (texts.map Prod.snd).foldlM (mergeSnippet external) held =
      .ok ((texts.map Prod.fst).foldl (fun merged found =>
        mergeDocument merged (snippetOf external document found)) held) := by
    induction texts generalizing held with
    | nil => rfl
    | cons entry later ih =>
        rw [List.map_cons, List.map_cons, List.foldlM_cons, List.foldl_cons, mergeSnippet,
          reads entry List.mem_cons_self]
        exact ih (fun other among => reads other (List.mem_cons_of_mem _ among)) _
  rw [mergeEndpointYamls, base]
  dsimp only
  rw [merged]
  rfl

end Gathering
end Sanshain.Document.OpenApiDocument
