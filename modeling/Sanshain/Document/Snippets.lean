import Sanshain.Document.EndpointLoss
import Sanshain.Document.Reachable

namespace Sanshain.Document.OpenApiDocument

open Sanshain.Data Sanshain.Domain Sanshain.Text

section Prefixes

theorem stripPrefixChars_eq_some {start text rest : List Char} :
    stripPrefixChars start text = some rest ↔ text = start ++ rest := by
  induction start generalizing text with
  | nil => simp [stripPrefixChars, eq_comm]
  | cons first start ih =>
      cases text with
      | nil => simp [stripPrefixChars]
      | cons c text =>
          rw [stripPrefixChars]
          split
          · rename_i same
            simp [ih, same]
          · rename_i differ
            simp [Ne.symm differ]

theorem stripPrefix_eq_some {start text rest : String} :
    stripPrefix start text = some rest ↔ text = start ++ rest := by
  rw [stripPrefix, Option.map_eq_some_iff]
  constructor
  · rintro ⟨chars, stripped, rfl⟩
    apply String.toList_inj.mp
    rw [stripPrefixChars_eq_some.mp stripped, String.toList_append, String.toList_ofList]
  · rintro rfl
    exact ⟨rest.toList, stripPrefixChars_eq_some.mpr (String.toList_append), String.ofList_toList⟩

end Prefixes

section Maps

variable {Node Other : Type} {map : IndexMap String Node} {name category : String}

theorem get?_eq_some_iff_mem {entries : Entries String Node} (distinct : entries.keys.Nodup)
    {node : Node} : entries.get? name = some node ↔ (name, node) ∈ entries :=
  ⟨Entries.mem_of_get?, fun among => Entries.get?_of_mem distinct among⟩

theorem get?_sortKeys (le : String → String → Bool) : (map.sortKeys le).get? name = map.get? name := by
  apply Option.ext
  intro node
  have same : (name, node) ∈ (map.sortKeys le).entries ↔ (name, node) ∈ map.entries :=
    (List.perm_insertionSort _ _).mem_iff
  exact (get?_eq_some_iff_mem (map.sortKeys le).distinct).trans
    (same.trans (get?_eq_some_iff_mem map.distinct).symm)

theorem get?_map (f : Node → Other) (entries : Entries String Node) :
    Entries.get? (entries.map fun entry => (entry.1, f entry.2)) name =
      (Entries.get? entries name).map f := by
  induction entries with
  | nil => rfl
  | cons entry rest ih =>
      rw [List.map_cons, Entries.get?_cons, Entries.get?_cons, ih]
      split <;> rfl

theorem mem_sortedSet {texts : List String} {text : String} : text ∈ sortedSet texts ↔ text ∈ texts := by
  rw [sortedSet, List.mem_insertionSort, List.mem_dedup]

/-- What was picked of a section is what was visited of it. -/
theorem get?_pick {visited : List String} :
    (pick category visited map).get? name =
      if category ++ "/" ++ name ∈ visited then map.get? name else none := by
  rw [pick, IndexMap.get?_ofEntries]
  have mem_picked (node : Node) : (name, node) ∈ (visited.filterMap fun key =>
      (stripPrefix (category ++ "/") key).bind fun name =>
        (map.get? name).map fun node => (name, node)).reverse ↔
      category ++ "/" ++ name ∈ visited ∧ map.get? name = some node := by
    simp only [List.mem_reverse, List.mem_filterMap, Option.bind_eq_some_iff, Option.map_eq_some_iff,
      Prod.mk.injEq, stripPrefix_eq_some]
    constructor
    · rintro ⟨key, among, other, rfl, held, found, rfl, rfl⟩
      exact ⟨among, found⟩
    · rintro ⟨among, found⟩
      exact ⟨_, among, name, rfl, node, found, rfl, rfl⟩
  generalize (visited.filterMap fun key => (stripPrefix (category ++ "/") key).bind fun name =>
    (map.get? name).map fun node => (name, node)).reverse = picked at mem_picked
  cases found : Entries.get? picked name with
  | some node =>
      obtain ⟨among, held⟩ := (mem_picked node).mp (Entries.mem_of_get? found)
      rw [if_pos among, held]
  | none =>
      split
      · rename_i among
        cases held : map.get? name with
        | none => rfl
        | some node =>
            have present : name ∈ Entries.keys picked :=
              List.mem_map_of_mem ((mem_picked node).mpr ⟨among, held⟩)
            have some := (Entries.get?_isSome_iff picked name).mpr present
            rw [found] at some
            cases some
      · rfl

end Maps

section Components

/-- The categories of components, by their names in references. -/
def categories : List String :=
  ["schemas", "responses", "parameters", "requestBodies"] ++ otherCategories

def nodesOf {Node : Type} (wrap : Node → DocumentNode) (map : IndexMap String Node) :
    Entries String DocumentNode :=
  map.entries.map fun entry => (entry.1, wrap entry.2)

/-- The components of a category. -/
def componentNodes (components : Components) (category : String) : Entries String DocumentNode :=
  if category = "schemas" then nodesOf .schemaRef components.schemas
  else if category = "responses" then nodesOf .responseRef components.responses
  else if category = "parameters" then nodesOf .parameterRef components.parameters
  else if category = "requestBodies" then nodesOf .requestBodyRef components.requestBodies
  else if category ∈ otherCategories then nodesOf .other (components.others category)
  else []

/-- The component of a category under a name. -/
def component (document : OpenApi) (category name : String) : Option DocumentNode :=
  document.components.bind fun components => Entries.get? (componentNodes components category) name

theorem keys_nodesOf {Node : Type} (wrap : Node → DocumentNode) (map : IndexMap String Node) :
    (nodesOf wrap map).keys = map.entries.keys := by
  simp [nodesOf, Entries.keys]

theorem get?_nodesOf {Node : Type} (wrap : Node → DocumentNode) (map : IndexMap String Node)
    (name : String) : Entries.get? (nodesOf wrap map) name = (map.get? name).map wrap :=
  get?_map wrap map.entries

theorem componentNodes_nodup (components : Components) (category : String) :
    (componentNodes components category).keys.Nodup := by
  unfold componentNodes
  split_ifs
  · exact keys_nodesOf _ _ ▸ components.schemas.distinct
  · exact keys_nodesOf _ _ ▸ components.responses.distinct
  · exact keys_nodesOf _ _ ▸ components.parameters.distinct
  · exact keys_nodesOf _ _ ▸ components.requestBodies.distinct
  · exact keys_nodesOf _ _ ▸ (components.others category).distinct
  · exact List.nodup_nil

theorem buildComponentGraph_some (external : External) (components : Components) :
    buildComponentGraph external (some components) = categories.flatMap fun category =>
      (componentNodes components category).map fun entry =>
        (category ++ "/" ++ entry.1, collectRefs external entry.2) := by
  simp only [buildComponentGraph, categories, otherCategories, List.cons_append, List.nil_append,
    List.flatMap_cons, List.flatMap_nil, List.append_nil, List.append_assoc]
  simp [componentNodes, nodesOf, otherCategories, Function.comp_def]

theorem slash_not_mem_categories : ∀ category ∈ categories, '/' ∉ category.toList := by
  decide +kernel

theorem split_at_slash {first second rest other : List Char} (among : '/' ∉ first)
    (within : '/' ∉ second) (same : first ++ '/' :: rest = second ++ '/' :: other) :
    first = second ∧ rest = other := by
  induction first generalizing second with
  | nil =>
      cases second with
      | nil => exact ⟨rfl, (List.cons.inj same).2⟩
      | cons c second =>
          rw [List.nil_append, List.cons_append] at same
          exact absurd ((List.cons.inj same).1 ▸ List.mem_cons_self) within
  | cons c first ih =>
      cases second with
      | nil =>
          rw [List.nil_append, List.cons_append] at same
          exact absurd ((List.cons.inj same).1 ▸ List.mem_cons_self) among
      | cons d second =>
          obtain ⟨rfl, tails⟩ := List.cons.inj same
          obtain ⟨rfl, rests⟩ := ih (fun there => among (List.mem_cons_of_mem _ there))
            (fun there => within (List.mem_cons_of_mem _ there)) tails
          exact ⟨rfl, rests⟩

/-- A key names one category and one component of it. -/
theorem componentKey_inj {first second name other : String} (among : first ∈ categories)
    (within : second ∈ categories) (same : first ++ "/" ++ name = second ++ "/" ++ other) :
    first = second ∧ name = other := by
  have chars := congrArg String.toList same
  simp only [String.toList_append] at chars
  have slash : "/".toList = ['/'] := rfl
  rw [slash, List.append_assoc, List.append_assoc, List.singleton_append,
    List.singleton_append] at chars
  obtain ⟨left, right⟩ := split_at_slash (slash_not_mem_categories first among)
    (slash_not_mem_categories second within) chars
  exact ⟨String.toList_inj.mp left, String.toList_inj.mp right⟩

theorem graph_nodup (external : External) (components : Components) :
    (buildComponentGraph external (some components)).keys.Nodup := by
  rw [buildComponentGraph_some, Entries.keys, List.map_flatMap, List.nodup_flatMap]
  constructor
  · intro category among
    have names := componentNodes_nodup components category
    rw [List.map_map]
    have composed : (componentNodes components category).map (Prod.fst ∘ fun entry =>
        (category ++ "/" ++ entry.1, collectRefs external entry.2)) =
        (componentNodes components category).keys.map (category ++ "/" ++ ·) := by
      simp [Entries.keys]
    rw [composed]
    exact names.map fun first second same => (componentKey_inj among among same).2
  · have apart : categories.Nodup := by decide
    refine apart.pairwise_of_forall_ne fun first among second within differ => ?_
    intro key one other
    simp only [List.map_map, List.mem_map, Function.comp_apply] at one other
    obtain ⟨left, _, rfl⟩ := one
    obtain ⟨right, _, same⟩ := other
    exact differ (componentKey_inj among within same.symm).1

/-- The edges out of a key are the references of the component it names. -/
theorem mem_neighborsOf {external : External} {document : OpenApi} {key next : String} :
    next ∈ neighborsOf (buildComponentGraph external document.components) key ↔
      ∃ category ∈ categories, ∃ name node, key = category ++ "/" ++ name ∧
        component document category name = some node ∧ next ∈ collectRefs external node := by
  unfold component
  cases document.components with
  | none => simp [buildComponentGraph, neighborsOf]
  | some components =>
      have held (refs : List String) : Entries.get?
          (buildComponentGraph external (some components)) key = some refs ↔
          ∃ category ∈ categories, ∃ name node, key = category ++ "/" ++ name ∧
            Entries.get? (componentNodes components category) name = some node ∧
              refs = collectRefs external node := by
        rw [get?_eq_some_iff_mem (graph_nodup external components), buildComponentGraph_some]
        simp only [List.mem_flatMap, List.mem_map, Prod.mk.injEq]
        constructor
        · rintro ⟨category, among, ⟨name, node⟩, there, rfl, rfl⟩
          exact ⟨category, among, name, node, rfl,
            (get?_eq_some_iff_mem (componentNodes_nodup components category)).mpr there, rfl⟩
        · rintro ⟨category, among, name, node, rfl, found, rfl⟩
          exact ⟨category, among, (name, node), Entries.mem_of_get? found, rfl, rfl⟩
      rw [neighborsOf]
      constructor
      · intro edge
        cases found : Entries.get? (buildComponentGraph external (some components)) key with
        | none => simp [found] at edge
        | some refs =>
            obtain ⟨category, among, name, node, same, there, rfl⟩ := (held refs).mp found
            rw [found] at edge
            exact ⟨category, among, name, node, same, there, edge⟩
      · rintro ⟨category, among, name, node, same, there, edge⟩
        rw [(held _).mpr ⟨category, among, name, node, same, there, rfl⟩]
        exact edge

end Components

section Carried

variable {external : External} {document : OpenApi} {visited : List String}

/-- The visited components, sorted by name. -/
def usedComponents (visited : List String) (components : Components) : Components :=
  { schemas := (pick "schemas" visited components.schemas).sortKeys textLe
    responses := (pick "responses" visited components.responses).sortKeys textLe
    parameters := (pick "parameters" visited components.parameters).sortKeys textLe
    requestBodies := (pick "requestBodies" visited components.requestBodies).sortKeys textLe
    others := fun category => (pick category visited (components.others category)).sortKeys textLe }

theorem get?_usedNodes {Node : Type} (wrap : Node → DocumentNode) (map : IndexMap String Node)
    (category name : String) :
    Entries.get? (nodesOf wrap ((pick category visited map).sortKeys textLe)) name =
      if category ++ "/" ++ name ∈ visited then Entries.get? (nodesOf wrap map) name else none := by
  rw [get?_nodesOf, get?_nodesOf, get?_sortKeys, get?_pick]
  split <;> rfl

theorem get?_usedComponents (components : Components) (category name : String) :
    Entries.get? (componentNodes (usedComponents visited components) category) name =
      if category ++ "/" ++ name ∈ visited then Entries.get? (componentNodes components category) name
      else none := by
  unfold componentNodes usedComponents
  split_ifs with schemas responses parameters bodies others
  all_goals first | subst category | skip
  all_goals simp_all [get?_usedNodes]

theorem componentNodes_of_empty {components : Components}
    (empty : (Components.sections components).all (· == true) = true) (category : String) :
    componentNodes components category = [] := by
  have nothing {Node : Type} (wrap : Node → DocumentNode) {map : IndexMap String Node}
      (none : map.isEmpty = true) : nodesOf wrap map = [] := by
    rw [nodesOf, List.isEmpty_iff.mp none]
    rfl
  simp only [Components.sections, List.all_append, List.all_cons, List.all_nil, Bool.and_true,
    Bool.and_eq_true, beq_true, List.all_map, List.all_eq_true, Function.comp_apply] at empty
  obtain ⟨⟨schemas, responses, parameters, bodies⟩, others⟩ := empty
  unfold componentNodes
  split_ifs with _ _ _ _ other
  · exact nothing _ schemas
  · exact nothing _ responses
  · exact nothing _ parameters
  · exact nothing _ bodies
  · exact nothing _ (others category other)
  · rfl

/-- The document of one endpoint, by its components. -/
def snippetOf (external : External) (document : OpenApi) (found : String × Method × Operation) :
    OpenApi :=
  singleEndpoint external document (buildComponentGraph external document.components) found.1
    found.2.1 found.2.2

/-- A component that the references of the operation lead to. -/
def LeadsTo (external : External) (document : OpenApi) (found : String × Method × Operation)
    (category name : String) : Prop :=
  Leads (buildComponentGraph external document.components)
    (collectRefs external (.paths (snippetOf external document found).paths))
    (category ++ "/" ++ name)

theorem component_snippetOf_eq {found : String × Method × Operation} (category name : String) :
    ∃ visited : List String,
      (category ++ "/" ++ name ∈ visited ↔ LeadsTo external document found category name) ∧
      component (snippetOf external document found) category name =
        if category ++ "/" ++ name ∈ visited then component document category name else none := by
  let graph := buildComponentGraph external document.components
  let roots := collectRefs external (.paths (snippetOf external document found).paths)
  refine ⟨sortedSet (visitComponents graph (visitFuel graph roots) roots.reverse []), ?_, ?_⟩
  · rw [mem_sortedSet, mem_visitComponents]
    rfl
  · have used : (snippetOf external document found).components =
        document.components.bind fun components =>
          if (Components.sections (usedComponents (sortedSet (visitComponents graph
            (visitFuel graph roots) roots.reverse [])) components)).all (· == true) then none
          else some (usedComponents (sortedSet (visitComponents graph
            (visitFuel graph roots) roots.reverse [])) components) := rfl
    rw [component, used, component]
    cases document.components with
    | none => simp
    | some components =>
        rw [Option.bind_some, Option.bind_some, ← get?_usedComponents]
        split
        · rename_i empty
          rw [componentNodes_of_empty empty category]
          rfl
        · rfl

/-- A snippet carries the components that its operation leads to, as they are. -/
theorem component_snippetOf {found : String × Method × Operation} {category name : String}
    (leads : LeadsTo external document found category name) :
    component (snippetOf external document found) category name =
      component document category name := by
  obtain ⟨visited, among, carried⟩ := component_snippetOf_eq category name
  rw [carried, if_pos (among.mpr leads)]

theorem component_snippetOf_none {found : String × Method × Operation} {category name : String}
    (apart : ¬LeadsTo external document found category name) :
    component (snippetOf external document found) category name = none := by
  obtain ⟨visited, among, carried⟩ := component_snippetOf_eq category name
  rw [carried, if_neg (mt among.mp apart)]

end Carried
end Sanshain.Document.OpenApiDocument
