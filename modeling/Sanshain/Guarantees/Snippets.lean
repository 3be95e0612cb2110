import Sanshain.Document.Platform
import Sanshain.Document.Snippets

namespace Sanshain.Guarantees

open Sanshain.Data Sanshain.Document Sanshain.Document.OpenApiDocument Sanshain.Text

section References

mutual

/-- Every text under `$ref` in a node, at any depth. -/
def refTexts : Value → List String
  | .object entries =>
      ((Entries.get? entries "$ref").bind Value.asStr).toList ++ refTextsEntries entries
  | .array items => refTextsItems items
  | _ => []

def refTextsItems : List Value → List String
  | [] => []
  | item :: rest => refTexts item ++ refTextsItems rest

def refTextsEntries : List (String × Value) → List String
  | [] => []
  | (_, value) :: rest => refTexts value ++ refTextsEntries rest

end

/-- The schemes a list of security requirements names. -/
def requirementNames (requirements : List Value) : List String :=
  requirements.flatMap fun requirement => Entries.keys (requirement.asObject.getD [])

mutual

/-- Every security scheme that a node names, at any depth. -/
def securityTexts : Value → List String
  | .object entries =>
      requirementNames (((Entries.get? entries "security").bind Value.asArray).getD []) ++
        securityTextsEntries entries
  | .array items => securityTextsItems items
  | _ => []

def securityTextsItems : List Value → List String
  | [] => []
  | item :: rest => securityTexts item ++ securityTextsItems rest

def securityTextsEntries : List (String × Value) → List String
  | [] => []
  | (_, value) :: rest => securityTexts value ++ securityTextsEntries rest

end

def nodeRefs (external : External) (node : DocumentNode) : List String :=
  ((external.toJson node).map refTexts).getD []

def nodeSecurity (external : External) (node : DocumentNode) : List String :=
  ((external.toJson node).map securityTexts).getD []

/-- The component that a local reference points at or into; the escapes of a pointer are undone. -/
def referenceOwner (target : String) : Option (String × String) :=
  (stripPrefix "#/components/" target).bind fun rest =>
    match split '/' rest with
    | category :: name :: _ => some (category, replace "~0" "~" (replace "~1" "/" name))
    | _ => none

mutual

theorem mem_collectRefsRecursive {key : String} (node : Value) :
    key ∈ collectRefsRecursive node ↔ "#/components/" ++ key ∈ refTexts node := by
  match node with
  | .null | .bool _ | .number _ | .string _ => simp [collectRefsRecursive, refTexts]
  | .array items => rw [collectRefsRecursive, refTexts, mem_collectRefsItems items]
  | .object entries =>
      rw [collectRefsRecursive, refTexts, List.mem_append, List.mem_append,
        mem_collectRefsEntries entries]
      refine or_congr ?_ Iff.rfl
      cases (Entries.get? entries "$ref").bind Value.asStr with
      | none => simp
      | some target =>
          rw [Option.bind_some, Option.toList_some, List.mem_singleton]
          cases stripped : stripPrefix "#/components/" target with
          | none =>
              have other : "#/components/" ++ key ≠ target := fun same =>
                nomatch stripped.symm.trans (stripPrefix_eq_some.mpr same.symm)
              simpa using other
          | some rest =>
              rw [stripPrefix_eq_some.mp stripped]
              simp

theorem mem_collectRefsItems {key : String} (items : List Value) :
    key ∈ collectRefsItems items ↔ "#/components/" ++ key ∈ refTextsItems items := by
  match items with
  | [] => simp [collectRefsItems, refTextsItems]
  | item :: rest =>
      rw [collectRefsItems, refTextsItems, List.mem_append, List.mem_append,
        mem_collectRefsRecursive item, mem_collectRefsItems rest]

theorem mem_collectRefsEntries {key : String} (entries : List (String × Value)) :
    key ∈ collectRefsEntries entries ↔ "#/components/" ++ key ∈ refTextsEntries entries := by
  match entries with
  | [] => simp [collectRefsEntries, refTextsEntries]
  | (name, value) :: rest =>
      rw [collectRefsEntries, refTextsEntries, List.mem_append, List.mem_append,
        mem_collectRefsRecursive value, mem_collectRefsEntries rest]

end

/-- The search finds the references that are written as a category and a name. -/
theorem mem_collectRefs {external : External} {node : DocumentNode} {key : String} :
    key ∈ collectRefs external node ↔ "#/components/" ++ key ∈ nodeRefs external node := by
  unfold collectRefs nodeRefs
  cases external.toJson node with
  | none => simp
  | some value => exact mem_sortedSet.trans (mem_collectRefsRecursive value)

end References

section Lossless

variable (external : External) (document : OpenApi)

/-- What a node needs of the components: those its references point at or into, and the security
schemes it names. -/
def needsOf (node : DocumentNode) : List (String × String) :=
  (nodeRefs external node).filterMap referenceOwner ++
    (nodeSecurity external node).map fun name => ("securitySchemes", name)

def pathServers (item : PathItem) : List Value :=
  ((item.rest.get? "servers").bind Value.asArray).getD []

/-- The snippet parses to a document of just the operation that means in it what it means in the
whole document. -/
def SnippetLossless (path : String) (item : PathItem) (method : Method) (operation : Operation)
    (text : String) : Prop :=
  ∃ snippet, external.parseOpenApi text = .ok snippet ∧
    operationsOf snippet = [(path, method, operation)] ∧
    (∃ own, snippet.paths.get? path = some (.item own) ∧
      (∀ key, Entries.get? (collectParameters external snippet own operation) key =
        Entries.get? (collectParameters external document item operation) key) ∧
      pathServers own = pathServers item) ∧
    ∀ node, (node = .paths snippet.paths ∨
        ∃ category name, component snippet category name = some node) →
      ∀ need ∈ needsOf external node,
        component snippet need.1 need.2 = component document need.1 need.2

/-- The operation has no server and no parameter of its path item alone, and what it needs by
anything but a plain reference, or a component it leads to does, it leads to as well. -/
def NothingBeside (path : String) (item : PathItem) (method : Method) (operation : Operation) :
    Prop :=
  (∀ parameter ∈ item.parameters.filterMap (resolveParameter document),
    ∃ own ∈ operation.parameters.filterMap (resolveParameter document),
      parameterKey external own = parameterKey external parameter) ∧
  pathServers item = [] ∧
  ∀ node, (node = .paths (snippetOf external document (path, method, operation)).paths ∨
      ∃ category name, LeadsTo external document (path, method, operation) category name ∧
        component document category name = some node) →
    (∀ target ∈ nodeRefs external node, ∀ category name,
      referenceOwner target = some (category, name) →
      target ≠ "#/components/" ++ (category ++ "/" ++ name) →
      component document category name = none ∨
        LeadsTo external document (path, method, operation) category name) ∧
    ∀ name ∈ nodeSecurity external node, component document "securitySchemes" name = none ∨
      LeadsTo external document (path, method, operation) "securitySchemes" name

end Lossless

section Splitting

variable {external : External} {document : OpenApi} {path : String} {item : PathItem}
  {method : Method} {operation : Operation}

theorem category_of_component {category name : String} {node : DocumentNode}
    (held : component document category name = some node) : category ∈ categories := by
  obtain ⟨components, _, found⟩ := Option.bind_eq_some_iff.mp held
  unfold componentNodes at found
  split_ifs at found with schemas responses parameters bodies other
  · exact schemas ▸ by decide
  · exact responses ▸ by decide
  · exact parameters ▸ by decide
  · exact bodies ▸ by decide
  · exact List.mem_append_right _ other
  · cases found

/-- A plain reference of the operation, or of a component it leads to, is one it leads to. -/
theorem leadsTo_of_plain {node : DocumentNode} {category name : String}
    (reached : node = .paths (snippetOf external document (path, method, operation)).paths ∨
      ∃ category name, LeadsTo external document (path, method, operation) category name ∧
        component document category name = some node)
    (plain : "#/components/" ++ (category ++ "/" ++ name) ∈ nodeRefs external node) :
    LeadsTo external document (path, method, operation) category name := by
  have collected := mem_collectRefs.mpr plain
  rcases reached with rfl | ⟨outer, held, leads, found⟩
  · exact .root collected
  · exact .edge leads
      (mem_neighborsOf.mpr ⟨outer, category_of_component found, held, node, rfl, found, collected⟩)

theorem operationsOf_snippetOf (external : External) (document : OpenApi)
    (found : String × Method × Operation) :
    operationsOf (snippetOf external document found) = [found] := by
  obtain ⟨path, method, operation⟩ := found
  have one : getMethods ⟨fun other => if other = method then some operation else none, [],
      .object []⟩ = [(method, operation)] := by
    cases method <;> rfl
  change [(path, ReferenceOr.item _)].flatMap operationsAt = _
  simp [operationsAt, one]

/-- The path item of a snippet. -/
def ownItem (method : Method) (operation : Operation) : PathItem :=
  ⟨fun other => if other = method then some operation else none, [], .object []⟩

theorem paths_snippetOf (external : External) (document : OpenApi) (path : String) (method : Method)
    (operation : Operation) :
    (snippetOf external document (path, method, operation)).paths.get? path =
      some (.item (ownItem method operation)) := by
  change Entries.get? [(path, ReferenceOr.item (ownItem method operation))] path = _
  simp [Entries.get?_cons]

theorem resolveParameter_component (document : OpenApi) (target : String) :
    resolveParameter document (.reference target) =
      (stripPrefix "#/components/parameters/" target).bind fun name =>
        match component document "parameters" name with
        | some (.parameterRef (.item parameter)) => some parameter
        | _ => none := by
  unfold resolveParameter component
  cases document.components with
  | none => rfl
  | some components =>
      dsimp only
      congr 1
      funext name
      have nodes : componentNodes components "parameters" =
          nodesOf .parameterRef components.parameters := rfl
      rw [Option.bind_some, Option.bind_some, nodes, get?_nodesOf]
      cases components.parameters.get? name with
      | none => rfl
      | some reference => cases reference <;> rfl

/-- The references among the operation's own parameters resolve in the snippet as before. -/
theorem resolveParameter_snippetOf {reference : ReferenceOr Parameter}
    (shown : ∀ target, reference = .reference target →
      target ∈ nodeRefs external (.paths (snippetOf external document (path, method, operation)).paths)) :
    resolveParameter (snippetOf external document (path, method, operation)) reference =
      resolveParameter document reference := by
  cases reference with
  | item parameter => rfl
  | reference target =>
      rw [resolveParameter_component, resolveParameter_component]
      cases stripped : stripPrefix "#/components/parameters/" target with
      | none => rfl
      | some name =>
          have written : target = "#/components/" ++ ("parameters" ++ "/" ++ name) := by
            rw [stripPrefix_eq_some.mp stripped]
            apply String.toList_inj.mp
            simp [String.toList_append]
          have leads : LeadsTo external document (path, method, operation) "parameters" name :=
            leadsTo_of_plain (.inl rfl) (written ▸ shown target rfl)
          rw [Option.bind_some, Option.bind_some, component_snippetOf leads]

theorem get?_collectParameters (external : External) (document : OpenApi) (item : PathItem)
    (operation : Operation) (key : ParameterLocation × String) :
    Entries.get? (collectParameters external document item operation) key =
      (((item.parameters ++ operation.parameters).filterMap (resolveParameter document)).reverse.find?
        fun parameter => parameterKey external parameter = key) := by
  rw [collectParameters, Entries.get?_insertAll, Entries.get?_nil, Option.or_none, ← List.map_reverse,
    Entries.get?, List.find?_map, Option.map_map]
  simp [Function.comp_def]

theorem parameters_kept_iff
    (shown : ∀ target, ReferenceOr.reference target ∈ operation.parameters →
      target ∈ nodeRefs external (.paths (snippetOf external document (path, method, operation)).paths)) :
    (∀ key, Entries.get? (collectParameters external
        (snippetOf external document (path, method, operation)) (ownItem method operation) operation)
        key = Entries.get? (collectParameters external document item operation) key) ↔
      ∀ parameter ∈ item.parameters.filterMap (resolveParameter document),
        ∃ own ∈ operation.parameters.filterMap (resolveParameter document),
          parameterKey external own = parameterKey external parameter := by
  have same : operation.parameters.filterMap
      (resolveParameter (snippetOf external document (path, method, operation))) =
      operation.parameters.filterMap (resolveParameter document) := by
    apply List.filterMap_congr
    intro reference among
    exact resolveParameter_snippetOf fun target is => shown target (is ▸ among)
  have inSnippet (key : ParameterLocation × String) : Entries.get? (collectParameters external
      (snippetOf external document (path, method, operation)) (ownItem method operation) operation)
      key = (operation.parameters.filterMap (resolveParameter document)).reverse.find?
        fun parameter => parameterKey external parameter = key := by
    rw [get?_collectParameters, ← same]
    rfl
  have inDocument (key : ParameterLocation × String) :
      Entries.get? (collectParameters external document item operation) key =
        ((operation.parameters.filterMap (resolveParameter document)).reverse.find?
          fun parameter => parameterKey external parameter = key).or
        ((item.parameters.filterMap (resolveParameter document)).reverse.find?
          fun parameter => parameterKey external parameter = key) := by
    rw [get?_collectParameters, List.filterMap_append, List.reverse_append, List.find?_append]
  simp only [inSnippet, inDocument]
  constructor
  · intro kept parameter among
    have equal := kept (parameterKey external parameter)
    cases found : (operation.parameters.filterMap (resolveParameter document)).reverse.find?
        fun own => parameterKey external own = parameterKey external parameter with
    | some own =>
        have key := List.find?_some found
        exact ⟨own, List.mem_reverse.mp (List.mem_of_find?_eq_some found), by simpa using key⟩
    | none =>
        rw [found, Option.none_or] at equal
        have absent := List.find?_eq_none.mp equal.symm parameter (List.mem_reverse.mpr among)
        simp at absent
  · intro overridden key
    cases found : (operation.parameters.filterMap (resolveParameter document)).reverse.find?
        fun own => parameterKey external own = key with
    | some own => rfl
    | none =>
        rw [Option.none_or]
        refine (List.find?_eq_none.mpr fun parameter among => ?_).symm
        obtain ⟨own, held, same⟩ := overridden parameter (List.mem_reverse.mp among)
        have apart := List.find?_eq_none.mp found own (List.mem_reverse.mpr held)
        rwa [same] at apart

theorem needs_kept_iff :
    (∀ node, (node = .paths (snippetOf external document (path, method, operation)).paths ∨
        ∃ category name, component (snippetOf external document (path, method, operation))
          category name = some node) →
      ∀ need ∈ needsOf external node,
        component (snippetOf external document (path, method, operation)) need.1 need.2 =
          component document need.1 need.2) ↔
    ∀ node, (node = .paths (snippetOf external document (path, method, operation)).paths ∨
        ∃ category name, LeadsTo external document (path, method, operation) category name ∧
          component document category name = some node) →
      (∀ target ∈ nodeRefs external node, ∀ category name,
        referenceOwner target = some (category, name) →
        target ≠ "#/components/" ++ (category ++ "/" ++ name) →
        component document category name = none ∨
          LeadsTo external document (path, method, operation) category name) ∧
      ∀ name ∈ nodeSecurity external node, component document "securitySchemes" name = none ∨
        LeadsTo external document (path, method, operation) "securitySchemes" name := by
  have carried (node : DocumentNode) :
      (∃ category name, component (snippetOf external document (path, method, operation))
        category name = some node) ↔
      ∃ category name, LeadsTo external document (path, method, operation) category name ∧
        component document category name = some node := by
    refine exists_congr fun category => exists_congr fun name => ?_
    by_cases leads : LeadsTo external document (path, method, operation) category name
    · simp [component_snippetOf leads, leads]
    · simp [component_snippetOf_none leads, leads]
  have kept (category name : String) :
      component (snippetOf external document (path, method, operation)) category name =
        component document category name ↔
      component document category name = none ∨
        LeadsTo external document (path, method, operation) category name := by
    by_cases leads : LeadsTo external document (path, method, operation) category name
    · simp [component_snippetOf leads, leads]
    · simp [component_snippetOf_none leads, leads, eq_comm]
  simp only [carried, kept]
  refine forall_congr' fun node => forall_congr' fun reached => ?_
  constructor
  · intro all
    refine ⟨fun target among category name owner _ => ?_, fun name among => ?_⟩
    · exact all (category, name)
        (List.mem_append_left _ (List.mem_filterMap.mpr ⟨target, among, owner⟩))
    · exact all ("securitySchemes", name)
        (List.mem_append_right _ (List.mem_map_of_mem among))
  · rintro ⟨references, security⟩ ⟨category, name⟩ need
    rcases List.mem_append.mp need with among | among
    · obtain ⟨target, held, owner⟩ := List.mem_filterMap.mp among
      by_cases plain : target = "#/components/" ++ (category ++ "/" ++ name)
      · exact .inr (leadsTo_of_plain reached (plain ▸ held))
      · exact references target held category name owner plain
    · obtain ⟨scheme, held, same⟩ := List.mem_map.mp among
      cases same
      exact security name held

/-- A snippet that is read back as it was written means what the whole document means just when
the operation depends on nothing beside it and its plain references. -/
theorem snippetLossless_iff {text : String}
    (readsBack : external.parseOpenApi text =
      .ok (snippetOf external document (path, method, operation)))
    (shown : ∀ target, ReferenceOr.reference target ∈ operation.parameters →
      target ∈ nodeRefs external (.paths (snippetOf external document (path, method, operation)).paths)) :
    SnippetLossless external document path item method operation text ↔
      NothingBeside external document path item method operation := by
  have noServers : pathServers (ownItem method operation) = [] := rfl
  rw [NothingBeside, ← parameters_kept_iff shown, ← needs_kept_iff]
  constructor
  · rintro ⟨snippet, read, _, ⟨own, held, parameters, servers⟩, needs⟩
    cases readsBack.symm.trans read
    cases (paths_snippetOf external document path method operation).symm.trans held
    exact ⟨parameters, servers ▸ noServers, needs⟩
  · rintro ⟨parameters, servers, needs⟩
    exact ⟨_, readsBack, operationsOf_snippetOf external document (path, method, operation),
      ⟨_, paths_snippetOf external document path method operation, parameters,
        noServers.trans servers.symm⟩, needs⟩

end Splitting

section Tenant

def listOrders : Operation where
  deprecated := false
  parameters := []
  requestBody := none
  responses := []
  defaultResponse := none
  rest := .object []

/-- The tenant every operation of the path must be told. -/
def tenantParameter : Parameter where
  location := .query
  name := "tenant"
  required := true
  deprecated := none
  schema := none
  content := []
  rest := .object []

def ordersItem (parameters : List (ReferenceOr Parameter)) : PathItem :=
  ⟨fun method => if method = .get then some listOrders else none, parameters, .object []⟩

/-- One path with one operation. -/
def ordersDocument (parameters : List (ReferenceOr Parameter)) : OpenApi where
  openapi := "3.0.3"
  info := .object []
  servers := .array []
  paths := .ofEntries [("/orders", .item (ordersItem parameters))]
  components := none
  rest := .object []

/-- A platform on which no node shows a reference. -/
def plainPlatform : External := { asciiPlatform {} with toJson := fun _ => some (.object []) }

/-- The platform that reads the orders document and writes its only snippet. -/
def ordersPlatform (parameters : List (ReferenceOr Parameter)) : External :=
  { plainPlatform with
    parseOpenApi := fun text => .ok <|
      if text = "snippet" then
        snippetOf plainPlatform (ordersDocument parameters) ("/orders", .get, listOrders)
      else ordersDocument parameters
    writeOpenApi := fun _ => .ok "snippet" }

def ordersEndpoint : EndpointSpec := ⟨"/orders", "/orders", "GET", "snippet", false⟩

end Tenant
end Sanshain.Guarantees
