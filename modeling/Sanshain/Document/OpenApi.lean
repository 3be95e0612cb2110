import Sanshain.Document.OpenApiModel

namespace Sanshain.Document.OpenApiDocument

open Sanshain.Data Sanshain.Domain Sanshain.Text

/-- One endpoint of a document with the snippet that carries it. -/
structure EndpointSpec where
  path : String
  normalizedPath : String
  method : String
  yamlContent : String
  deprecated : Bool
  deriving DecidableEq, Repr

/-- The version in `info.version`, which every document must declare. -/
def extractInfoVersion (external : External) (yaml : String) : Except String SemVer :=
  match external.parseInfoVersion yaml with
  | .error reason => .error s!"Failed to parse spec YAML: {reason}"
  | .ok none =>
      .error "spec has no info.version — the version is required and lives in the spec file (MAJOR.MINOR.PATCH)"
  | .ok (some raw) =>
      (SemVer.parseSpecVersion external.toUppercase external.toLowercase raw).mapError
        fun reason => s!"info.version: {reason}"

section Paths

def collapseSlashes : Bool → List Char → List Char
  | _, [] => []
  | previousWasSlash, c :: rest =>
      if c = '/' then
        if previousWasSlash then collapseSlashes true rest else '/' :: collapseSlashes true rest
      else c :: collapseSlashes false rest

/-- A placeholder with a name becomes `{}`; an empty or unclosed one is kept. -/
def blankPathVariables : Nat → List Char → List Char
  | 0, rest => rest
  | fuel + 1, rest =>
      match splitOnce '{' rest with
      | none => rest
      | some (before, afterOpen) =>
          match splitOnce '}' afterOpen with
          | some (_ :: _, afterClose) =>
              before ++ ['{', '}'] ++ blankPathVariables fuel afterClose
          | _ => before ++ ['{'] ++ blankPathVariables fuel afterOpen

def normalizePath (path : String) : String :=
  let collapsed := collapseSlashes false (trimChars path.toList)
  let blanked := blankPathVariables (collapsed.length + 1) collapsed
  String.ofList (if 1 < blanked.length ∧ blanked.getLast? = some '/' then blanked.dropLast else blanked)

example : normalizePath "///api///\x7ba\x7bb\x7d/x//" = "/api/\x7b\x7d/x" := by decide +kernel
example : normalizePath "/api/\x7bunclosed" = "/api/\x7bunclosed" := by decide +kernel

/-- The path under which an endpoint is looked up; only the paths of an OpenAPI document have
more than one spelling. -/
def lookupPath (apiType : ApiType) (path : String) : String :=
  match apiType with
  | .openApi => normalizePath path
  | .asyncApi | .proto => path

end Paths

/-- The operations of a path item. -/
def getMethods (item : PathItem) : List (Method × Operation) :=
  Method.all.filterMap fun method => (item.operation method).map fun op => (method, op)

section References

mutual

/-- The components a node refers to, by category and name. -/
def collectRefsRecursive : Value → List String
  | .object entries =>
      (match (Entries.get? entries "$ref").bind Value.asStr |>.bind (stripPrefix "#/components/") with
        | some target => [target]
        | none => []) ++ collectRefsEntries entries
  | .array items => collectRefsItems items
  | _ => []

def collectRefsItems : List Value → List String
  | [] => []
  | item :: rest => collectRefsRecursive item ++ collectRefsItems rest

def collectRefsEntries : List (String × Value) → List String
  | [] => []
  | (_, value) :: rest => collectRefsRecursive value ++ collectRefsEntries rest

end

/-- The order of texts, by their characters. -/
def textLe (first second : String) : Bool := decide (first ≤ second)

/-- A set of texts, in order and without repetition. -/
def sortedSet (texts : List String) : List String := texts.dedup.insertionSort fun a b => textLe a b = true

/-- The references of a node; one that cannot be serialised has none. -/
def collectRefs (external : External) (node : DocumentNode) : List String :=
  match external.toJson node with
  | some value => sortedSet (collectRefsRecursive value)
  | none => []

/-- The categories of components that no check reads. -/
def otherCategories : List String :=
  ["examples", "headers", "securitySchemes", "links", "callbacks"]

/-- Each component, by category and name, with the components it refers to. -/
def buildComponentGraph (external : External) : Option Components → Entries String (List String)
  | none => []
  | some components =>
      let refsOf {Node : Type} (category : String) (map : IndexMap String Node)
          (node : Node → DocumentNode) : Entries String (List String) :=
        map.entries.map fun entry => (category ++ "/" ++ entry.1, collectRefs external (node entry.2))
      refsOf "schemas" components.schemas .schemaRef ++
        refsOf "responses" components.responses .responseRef ++
        refsOf "parameters" components.parameters .parameterRef ++
        refsOf "requestBodies" components.requestBodies .requestBodyRef ++
        otherCategories.flatMap fun category => refsOf category (components.others category) .other

/-- The components reachable from a work list, the last one pushed visited first. -/
def visitComponents (graph : Entries String (List String)) :
    Nat → List String → List String → List String
  | 0, _, visited => visited
  | _, [], visited => visited
  | fuel + 1, key :: rest, visited =>
      if key ∈ visited then visitComponents graph fuel rest visited
      else
        let neighbors := ((Entries.get? graph key).getD []).filter (· ∉ key :: visited)
        visitComponents graph fuel (neighbors.reverse ++ rest) (key :: visited)

/-- Every push of the visit is one edge of the graph or one root. -/
def visitFuel (graph : Entries String (List String)) (roots : List String) : Nat :=
  roots.length + (graph.map fun entry => entry.2.length).sum + 1

/-- The named entries of a section that were visited, in the order of the visited keys. -/
def pick {Node : Type} (category : String) (visited : List String) (map : IndexMap String Node) :
    IndexMap String Node :=
  .ofEntries <| visited.filterMap fun key =>
    (stripPrefix (category ++ "/") key).bind fun name => (map.get? name).map fun node => (name, node)

def Components.sections (components : Components) : List Bool :=
  [components.schemas.isEmpty, components.responses.isEmpty, components.parameters.isEmpty,
    components.requestBodies.isEmpty] ++
  otherCategories.map fun category => (components.others category).isEmpty

/-- The components a single-endpoint document needs, sorted by name, or none. -/
def extractUsedComponents (external : External)
    (partialPaths : IndexMap String (ReferenceOr PathItem)) (all : Option Components)
    (graph : Entries String (List String)) : Option Components :=
  all.bind fun components =>
    let roots := collectRefs external (.paths partialPaths)
    let visited := sortedSet (visitComponents graph (visitFuel graph roots) roots.reverse [])
    let filtered : Components :=
      { schemas := (pick "schemas" visited components.schemas).sortKeys textLe
        responses := (pick "responses" visited components.responses).sortKeys textLe
        parameters := (pick "parameters" visited components.parameters).sortKeys textLe
        requestBodies := (pick "requestBodies" visited components.requestBodies).sortKeys textLe
        others := fun category =>
          (pick category visited (components.others category)).sortKeys textLe }
    if (Components.sections filtered).all (· == true) then none else some filtered

end References

section Splitting

/-- The document that carries one operation and nothing else it does not need. -/
def singleEndpoint (external : External) (document : OpenApi)
    (graph : Entries String (List String)) (path : String) (method : Method)
    (operation : Operation) : OpenApi :=
  let item : PathItem :=
    ⟨fun other => if other = method then some operation else none, [], .object []⟩
  let paths := IndexMap.empty.insert path (.item item)
  { openapi := document.openapi
    info := document.info
    servers := document.servers
    paths
    components := extractUsedComponents external paths document.components graph
    rest := .object [] }

def endpointOf (external : External) (document : OpenApi)
    (graph : Entries String (List String)) (path : String) (method : Method)
    (operation : Operation) : Except String EndpointSpec :=
  match external.writeOpenApi (singleEndpoint external document graph path method operation) with
  | .error reason => .error s!"Failed to serialize endpoint YAML: {reason}"
  | .ok yamlContent =>
      .ok ⟨path, normalizePath path, method.upper, yamlContent, operation.deprecated⟩

/-- The operations of one path; a path given by reference has none. -/
def operationsAt (entry : String × ReferenceOr PathItem) : List (String × Method × Operation) :=
  match entry.2 with
  | .item item => (getMethods item).map fun found => (entry.1, found)
  | .reference _ => []

/-- The operations of a document in order. -/
def operationsOf (document : OpenApi) : List (String × Method × Operation) :=
  document.paths.entries.flatMap operationsAt

def splitOpenapi (external : External) (yaml : String) : Except String (List EndpointSpec) :=
  match external.parseOpenApi yaml with
  | .error reason => .error s!"Failed to parse OpenAPI YAML: {reason}"
  | .ok document =>
      let graph := buildComponentGraph external document.components
      (operationsOf document).mapM fun found =>
        endpointOf external document graph found.1 found.2.1 found.2.2

end Splitting
end Sanshain.Document.OpenApiDocument
