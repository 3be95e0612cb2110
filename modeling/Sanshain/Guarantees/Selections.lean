import Sanshain.Document.Gathered
import Sanshain.Document.Platform

namespace Sanshain.Guarantees

open Sanshain.Data Sanshain.Domain Sanshain.Document Sanshain.Document.OpenApiDocument

section Selecting

variable (external : External) (document : OpenApi)

/-- An operation of a document with the snippet that carries it. -/
abbrev Carried := (String × Method × Operation) × EndpointSpec

/-- A document with exactly the chosen operations, as they are, and the components of their
snippets. -/
structure IsSelection (chosen : List (String × Method × Operation)) (merged : OpenApi) : Prop where
  operations : (operationsOf merged).Perm chosen
  components : ∀ category ∈ categories, ∀ name node, component merged category name = some node ↔
    ∃ found ∈ chosen, component (snippetOf external document found) category name = some node

/-- Texts are merged to a text that reads as this document. -/
def MergesTo (selection : List Carried) (merged : OpenApi) : Prop :=
  ∃ text, mergeEndpointYamls external (selection.map fun entry => entry.2.yamlContent) = .ok text ∧
    external.parseOpenApi text = .ok merged

/-- Merging selected snippets gives the selected part of the document, in whatever order. -/
structure GivesBack (selection : List Carried) : Prop where
  merges : ∃ merged, MergesTo external selection merged ∧
    IsSelection external document (selection.map Prod.fst) merged
  order : ∀ other merged merged', other.Perm selection → MergesTo external selection merged →
    MergesTo external other merged' → merged'.paths = merged.paths ∧
      ∀ category name, component merged' category name = component merged category name

/-- The selected snippets carry the same examples, links and callbacks. -/
def CarryAlike (selection : List Carried) : Prop :=
  ∀ one ∈ selection, ∀ two ∈ selection, ∀ category ∈ unmergedCategories, ∀ name,
    (component (snippetOf external document one.1) category name).isSome →
      (component (snippetOf external document two.1) category name).isSome

variable {external document} {category name : String} {node : DocumentNode}

/-- A snippet carries nothing but components of its document. -/
theorem component_of_snippet {found : String × Method × Operation}
    (carried : component (snippetOf external document found) category name = some node) :
    component document category name = some node := by
  obtain ⟨visited, -, same⟩ := component_snippetOf_eq category name
  rw [same] at carried
  split at carried
  · exact carried
  · cases carried

theorem findSome?_carried {chosen : List (String × Method × Operation)} :
    (chosen.findSome? fun found => component (snippetOf external document found) category name) =
        some node ↔
      ∃ found ∈ chosen, component (snippetOf external document found) category name = some node := by
  constructor
  · exact List.exists_of_findSome?_eq_some
  · rintro ⟨found, among, carried⟩
    cases first : chosen.findSome? fun found =>
        component (snippetOf external document found) category name with
    | none =>
        rw [List.findSome?_eq_none_iff.mp first found among] at carried
        cases carried
    | some other =>
        obtain ⟨earlier, -, carried'⟩ := List.exists_of_findSome?_eq_some first
        rw [← component_of_snippet carried', ← component_of_snippet carried]

theorem snippets_written {yaml : String} {endpoints : List EndpointSpec}
    (parsed : external.parseOpenApi yaml = .ok document)
    (split : splitOpenapi external yaml = .ok endpoints) :
    List.Forall₂ (fun found endpoint => endpointOf external document
        (buildComponentGraph external document.components) found.1 found.2.1 found.2.2 = .ok endpoint)
      (operationsOf document) endpoints := by
  rw [splitOpenapi, parsed] at split
  exact mapM_ok split

/-- The snippet beside an operation is the written document of the operation. -/
theorem yamlContent_written {yaml : String} {endpoints : List EndpointSpec}
    (parsed : external.parseOpenApi yaml = .ok document)
    (split : splitOpenapi external yaml = .ok endpoints) {entry : Carried}
    (among : entry ∈ (operationsOf document).zip endpoints) :
    entry.1 ∈ operationsOf document ∧
      external.writeOpenApi (snippetOf external document entry.1) = .ok entry.2.yamlContent := by
  have made := (List.forall₂_iff_zip.mp (snippets_written parsed split)).2 among
  refine ⟨(List.of_mem_zip among).1, ?_⟩
  unfold endpointOf at made
  split at made
  · cases made
  · rename_i wrote
    rw [← Except.ok.inj made]
    exact wrote

/-- A merge of read snippets is the merged document, written and read back. -/
theorem mergesTo_iff {entry : Carried} {rest : List Carried} {text : String}
    (reads : ∀ other ∈ entry :: rest,
      external.parseOpenApi other.2.yamlContent = .ok (snippetOf external document other.1))
    (wrote : external.writeOpenApi (mergedOf external document entry.1 (rest.map Prod.fst)) = .ok text)
    (back : external.parseOpenApi text =
      .ok (mergedOf external document entry.1 (rest.map Prod.fst))) (merged : OpenApi) :
    MergesTo external (entry :: rest) merged ↔
      merged = mergedOf external document entry.1 (rest.map Prod.fst) := by
  have whole := @mergeEndpointYamls_eq external document entry.1
    (rest.map fun other => (other.1, other.2.yamlContent)) entry.2.yamlContent
    (reads entry List.mem_cons_self) (by
      intro pair among
      obtain ⟨other, held, rfl⟩ := List.mem_map.mp among
      exact reads other (List.mem_cons_of_mem _ held))
  simp only [List.map_map, Function.comp_def] at whole
  have merges : mergeEndpointYamls external ((entry :: rest).map fun entry => entry.2.yamlContent) =
      .ok text := by
    rw [List.map_cons, whole, wrote]
  unfold MergesTo
  rw [merges]
  constructor
  · rintro ⟨other, same, read⟩
    cases same
    rw [back] at read
    exact (Except.ok.inj read).symm
  · rintro rfl
    exact ⟨text, rfl, back⟩

variable {entry : Carried} {rest : List Carried}

/-- The operations of a merge are the selected ones. -/
theorem operations_mergedOf {chosen : List (String × Method × Operation)}
    {first : String × Method × Operation}
    (distinct : ((first :: chosen).map fun found => (found.1, found.2.1)).Nodup) :
    (operationsOf (mergedOf external document first chosen)).Perm (first :: chosen) := by
  refine (List.perm_ext_iff_of_nodup ?_ (distinct.of_map _)).mpr fun found => ?_
  · exact (operationKeys_nodup _).of_map _
  · exact mem_operationsOf_mergedOf distinct

/-- Where the snippets carry alike, the first one carries what the others do. -/
theorem components_mergedOf (alike : CarryAlike external document (entry :: rest)) :
    component (mergedOf external document entry.1 (rest.map Prod.fst)) category name = some node ↔
      ∃ found ∈ (entry :: rest).map Prod.fst,
        component (snippetOf external document found) category name = some node := by
  rw [component_mergedOf]
  split
  · rename_i unmerged
    constructor
    · intro carried
      exact ⟨entry.1, List.mem_cons_self, carried⟩
    · rintro ⟨found, among, carried⟩
      obtain ⟨one, held, rfl⟩ := List.mem_map.mp among
      have there := alike one held entry List.mem_cons_self category unmerged name
        (Option.isSome_of_eq_some carried)
      obtain ⟨other, carried'⟩ := Option.isSome_iff_exists.mp there
      rw [carried', ← component_of_snippet carried', component_of_snippet carried]
  · exact findSome?_carried

end Selecting

section Claims

variable {external : External} {yaml : String} {document : OpenApi} {endpoints : List EndpointSpec}
  {selection : List Carried}

/-- The operations of a selection are operations of the document. -/
theorem selection_operations (long : (operationsOf document).length = endpoints.length)
    (among : selection.Subperm ((operationsOf document).zip endpoints)) :
    (selection.map Prod.fst).Subperm (operationsOf document) := by
  obtain ⟨part, perm, within⟩ := among
  refine ⟨part.map Prod.fst, perm.map Prod.fst, ?_⟩
  have operations := within.map Prod.fst
  rwa [List.map_fst_zip long.le] at operations

/-- The operations of a selection are different ones. -/
theorem selection_distinct (among : (selection.map Prod.fst).Subperm (operationsOf document)) :
    ((selection.map Prod.fst).map fun found => (found.1, found.2.1)).Nodup := by
  obtain ⟨part, perm, within⟩ := among
  have distinct := (operationKeys_nodup document).sublist
    (within.map fun found => (found.1, found.2.1))
  exact (perm.map fun found => (found.1, found.2.1)).nodup_iff.mp distinct

/-- Merging any selection of the snippets of a document gives back the selected part of it, in
whatever order, exactly when the selected snippets carry the same examples, links and callbacks. -/
theorem merge_gives_back_iff (parsed : external.parseOpenApi yaml = .ok document)
    (split : splitOpenapi external yaml = .ok endpoints)
    (readsBack : ∀ found ∈ operationsOf document, ∀ text,
      external.writeOpenApi (snippetOf external document found) = .ok text →
        external.parseOpenApi text = .ok (snippetOf external document found))
    (mergesBack : ∀ first rest, (first :: rest).Subperm (operationsOf document) → ∃ text,
      external.writeOpenApi (mergedOf external document first rest) = .ok text ∧
        external.parseOpenApi text = .ok (mergedOf external document first rest))
    (some : selection ≠ []) (among : selection.Subperm ((operationsOf document).zip endpoints)) :
    GivesBack external document selection ↔ CarryAlike external document selection := by
  have reads : ∀ other : List Carried, other.Perm selection → ∀ entry ∈ other,
      external.parseOpenApi entry.2.yamlContent = .ok (snippetOf external document entry.1) := by
    intro other perm entry held
    have there := among.subset (perm.subset held)
    obtain ⟨operation, wrote⟩ := yamlContent_written parsed split there
    exact readsBack entry.1 operation _ wrote
  have long := (snippets_written parsed split).length_eq
  have within : ∀ entry (rest : List Carried), (entry :: rest).Perm selection →
      (entry.1 :: rest.map Prod.fst).Subperm (operationsOf document) := by
    intro entry rest perm
    exact @selection_operations _ _ (entry :: rest) long (perm.subperm.trans among)
  have merges : ∀ entry (rest : List Carried), (entry :: rest).Perm selection → ∀ merged,
      MergesTo external (entry :: rest) merged ↔
        merged = mergedOf external document entry.1 (rest.map Prod.fst) := by
    intro entry rest perm merged
    obtain ⟨text, wrote, back⟩ := mergesBack _ _ (within entry rest perm)
    exact mergesTo_iff (reads _ perm) wrote back merged
  have distinct : ∀ entry (rest : List Carried), (entry :: rest).Perm selection →
      ((entry.1 :: rest.map Prod.fst).map fun found => (found.1, found.2.1)).Nodup := by
    intro entry rest perm
    exact @selection_distinct _ (entry :: rest) (within entry rest perm)
  constructor
  · rintro ⟨⟨merged, whole, is⟩, order⟩ one held two held' category unmerged name carried
    obtain ⟨node, carried⟩ := Option.isSome_iff_exists.mp carried
    obtain ⟨front, back, rfl⟩ := List.append_of_mem held'
    have perm : (two :: (front ++ back)).Perm (front ++ two :: back) := List.perm_middle.symm
    have later := (merges two (front ++ back) perm _).mpr rfl
    have listed : category ∈ categories := by
      simp only [unmergedCategories, categories, otherCategories] at *
      simp at unmerged ⊢
      tauto
    have same := (order _ merged _ perm whole later).2 category name
    rw [(is.components category listed name node).mpr ⟨one.1, List.mem_map_of_mem held, carried⟩,
      component_mergedOf, if_pos unmerged] at same
    rw [same]
    rfl
  · intro alike
    obtain ⟨entry, rest, rfl⟩ := List.exists_cons_of_ne_nil some
    refine ⟨⟨_, (merges entry rest (.refl _) _).mpr rfl, operations_mergedOf (distinct entry rest (.refl _)),
      fun category _ name node => components_mergedOf alike⟩, ?_⟩
    intro other merged merged' perm here there
    have long : other ≠ [] := by
      rintro rfl
      exact absurd perm.length_eq (by simp)
    obtain ⟨first, others, rfl⟩ := List.exists_cons_of_ne_nil long
    rw [(merges entry rest (.refl _) _).mp here, (merges first others perm _).mp there]
    refine ⟨paths_mergedOf (distinct first others perm) (perm.map Prod.fst), fun category name => ?_⟩
    have alike' : CarryAlike external document (first :: others) :=
      fun one held two held' => alike one (perm.subset held) two (perm.subset held')
    refine Option.ext fun node => ?_
    rw [components_mergedOf alike, components_mergedOf alike']
    simp only [(perm.map Prod.fst).mem_iff]

end Claims

section Stock

variable (components : Option Components)

/-- An operation that shows one example of the document. -/
def showing (name : String) : Operation where
  deprecated := false
  parameters := []
  requestBody := none
  responses := []
  defaultResponse := none
  rest := .object [("example", .object [("$ref", .string ("#/components/examples/" ++ name))])]

def stockItem (name : String) : PathItem :=
  ⟨fun method => if method = .get then some (showing name) else none, [], .object []⟩

/-- Two paths with one operation each, which show different examples. -/
def stockDocument : OpenApi where
  openapi := "3.0.3"
  info := .object []
  servers := .array []
  paths := .ofEntries [("/items", .item (stockItem "item")), ("/orders", .item (stockItem "order"))]
  components
  rest := .object []

def readItems : String × Method × Operation := ("/items", .get, showing "item")

def readOrders : String × Method × Operation := ("/orders", .get, showing "order")

/-- The components that hold the two examples. -/
def stockExamples : Components :=
  { Components.none with
    others := fun category =>
      if category = "examples" then
        .ofEntries [("item", .object [("summary", .string "an item")]),
          ("order", .object [("summary", .string "an order")])]
      else .empty }

/-- The extensions of the operations, as the paths of a document show them. -/
def shownPaths : DocumentNode → Option Value
  | .paths paths => some <| .object <| paths.entries.map fun entry =>
      match entry.2 with
      | .item item => (entry.1, .object [("get", ((item.operation .get).map (·.rest)).getD (.object []))])
      | .reference target => (entry.1, .object [("$ref", .string target)])
  | .other node => some node
  | _ => none

/-- The paths and the examples of a document name it among those of the stock. -/
def stockText (document : OpenApi) : String :=
  " ".intercalate <| document.paths.entries.map Prod.fst ++
    ((document.components.map fun components => (components.others "examples").entries.map Prod.fst).getD [])

def shownPlatform : External := { asciiPlatform {} with toJson := shownPaths }

/-- The platform that reads the stock document, its snippets and their merges. -/
def stockPlatform : External :=
  let document := stockDocument components
  { shownPlatform with
    writeOpenApi := fun document => .ok (stockText document)
    parseOpenApi := fun text =>
      match [snippetOf shownPlatform document readItems, snippetOf shownPlatform document readOrders,
          mergedOf shownPlatform document readItems [readOrders],
          mergedOf shownPlatform document readOrders [readItems]].find? (stockText · = text) with
      | some known => .ok known
      | none => if text = "stock" then .ok document else .error "not of the stock" }

def itemsSnippet (text : String) : Carried := (readItems, ⟨"/items", "/items", "GET", text, false⟩)

def ordersSnippet (text : String) : Carried := (readOrders, ⟨"/orders", "/orders", "GET", text, false⟩)

/-- Without components, only the paths of a merge are those of its snippets. -/
theorem mergedOf_bare (first second : String × Method × Operation) :
    mergedOf shownPlatform (stockDocument none) first [second] =
      { stockDocument none with
        paths := (mergedOf shownPlatform (stockDocument none) first [second]).paths } := rfl

theorem mergedOf_stock : mergedOf shownPlatform (stockDocument none) readOrders [readItems] =
    mergedOf shownPlatform (stockDocument none) readItems [readOrders] := by
  have paths := @paths_mergedOf shownPlatform (stockDocument none) readOrders [readItems] readItems
    [readOrders] (by decide) (List.Perm.swap _ _ _)
  rw [mergedOf_bare readOrders, paths, ← mergedOf_bare]

theorem merge_gives_back_stock :
    GivesBack (stockPlatform none) (stockDocument none)
        [ordersSnippet "/orders", itemsSnippet "/items"] ↔
      CarryAlike (stockPlatform none) (stockDocument none)
        [ordersSnippet "/orders", itemsSnippet "/items"] := by
  have split : splitOpenapi (stockPlatform none) "stock" =
      .ok [(itemsSnippet "/items").2, (ordersSnippet "/orders").2] := rfl
  refine @merge_gives_back_iff _ "stock" _ _ _ rfl split ?_ ?_ (List.cons_ne_nil _ _)
    (List.Perm.swap _ _ _).subperm
  · intro found among text wrote
    cases wrote
    have listed : found ∈ [readItems, readOrders] := among
    rcases List.mem_pair.mp listed with rfl | rfl <;> rfl
  · intro first rest within
    obtain ⟨chosen, reordered, sublist⟩ := within
    have perm := reordered.symm
    have parts : chosen ∈ [readItems, readOrders].sublists := List.mem_sublists.mpr sublist
    have either : chosen = [] ∨ chosen = [readItems] ∨ chosen = [readOrders] ∨
        chosen = [readItems, readOrders] := by simpa [List.sublists] using parts
    rcases either with rfl | rfl | rfl | rfl
    · exact absurd perm.length_eq (by simp)
    · obtain ⟨rfl, rfl⟩ := List.cons.inj (List.perm_singleton.mp perm)
      exact ⟨_, rfl, rfl⟩
    · obtain ⟨rfl, rfl⟩ := List.cons.inj (List.perm_singleton.mp perm)
      exact ⟨_, rfl, rfl⟩
    · rcases List.mem_pair.mp (perm.mem_iff.mp List.mem_cons_self) with same | same
      · subst same
        obtain rfl := List.perm_singleton.mp ((List.perm_cons readItems).mp perm)
        exact ⟨_, rfl, rfl⟩
      · subst same
        have others := (List.perm_cons readOrders).mp (perm.trans (List.Perm.swap _ _ _))
        obtain rfl := List.perm_singleton.mp others
        rw [show mergedOf (stockPlatform none) (stockDocument none) readOrders [readItems] =
          mergedOf (stockPlatform none) (stockDocument none) readItems [readOrders] from mergedOf_stock]
        exact ⟨_, rfl, rfl⟩

/-- Of two merged snippets, the example of the second one is lost. -/
theorem later_example_is_lost :
    splitOpenapi (stockPlatform (some stockExamples)) "stock" =
        .ok [(itemsSnippet "/items item").2, (ordersSnippet "/orders order").2] ∧
      mergeEndpointYamls (stockPlatform (some stockExamples)) ["/items item", "/orders order"] =
        .ok "/items /orders item" ∧
      ¬GivesBack (stockPlatform (some stockExamples)) (stockDocument (some stockExamples))
        [itemsSnippet "/items item", ordersSnippet "/orders order"] := by
  have merges : mergeEndpointYamls (stockPlatform (some stockExamples))
      ["/items item", "/orders order"] = .ok "/items /orders item" := by decide +kernel
  refine ⟨by decide +kernel, merges, ?_⟩
  rintro ⟨⟨merged, ⟨text, same, read⟩, is⟩, -⟩
  have written := Except.ok.inj (merges.symm.trans same)
  subst written
  have whole : merged = mergedOf shownPlatform (stockDocument (some stockExamples)) readItems
      [readOrders] := (Except.ok.inj read).symm
  have carried := (is.components "examples" (by decide) "order"
    (.other (.object [("summary", .string "an order")]))).mpr
      ⟨readOrders, by simp [ordersSnippet], rfl⟩
  rw [whole] at carried
  cases carried

end Stock

end Sanshain.Guarantees
