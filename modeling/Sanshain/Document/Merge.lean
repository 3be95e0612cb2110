import Sanshain.Document.OpenApi

namespace Sanshain.Document.OpenApiDocument

open Sanshain.Data Sanshain.Domain

section Merging

/-- The operations of a snippet take the place of those the merged path has. -/
def mergePathItem (existing added : PathItem) : PathItem :=
  { existing with operation := fun method => (added.operation method).or (existing.operation method) }

/-- A new path joins the merged ones; of a path both have, only two items given in place are merged. -/
def mergePath (paths : IndexMap String (ReferenceOr PathItem)) (entry : String × ReferenceOr PathItem) :
    IndexMap String (ReferenceOr PathItem) :=
  match paths.get? entry.1, entry.2 with
  | none, added => paths.insert entry.1 added
  | some (.item existing), .item added => paths.insert entry.1 (.item (mergePathItem existing added))
  | some _, _ => paths

/-- The union of two sections; a name stands for one component within a service. -/
def mergeSection {Node : Type} (merged added : IndexMap String Node) : IndexMap String Node :=
  added.entries.foldl (fun held entry =>
    if held.contains entry.1 then held else held.insert entry.1 entry.2) merged

def Components.none : Components where
  schemas := .empty
  responses := .empty
  parameters := .empty
  requestBodies := .empty
  others := fun _ => .empty

/-- The categories of other components that a merge takes over. -/
def mergedCategories : List String := ["headers", "securitySchemes"]

def mergeComponents (merged added : Components) : Components where
  schemas := mergeSection merged.schemas added.schemas
  responses := mergeSection merged.responses added.responses
  parameters := mergeSection merged.parameters added.parameters
  requestBodies := mergeSection merged.requestBodies added.requestBodies
  others := fun category =>
    if category ∈ mergedCategories then mergeSection (merged.others category) (added.others category)
    else merged.others category

def mergeDocument (merged added : OpenApi) : OpenApi :=
  { merged with
    paths := added.paths.entries.foldl mergePath merged.paths
    components := match added.components with
      | none => merged.components
      | some components => some (mergeComponents (merged.components.getD Components.none) components) }

/-- The same components in the order of their names. -/
def sortComponents (components : Components) : Components where
  schemas := components.schemas.sortKeys textLe
  responses := components.responses.sortKeys textLe
  parameters := components.parameters.sortKeys textLe
  requestBodies := components.requestBodies.sortKeys textLe
  others := fun category =>
    if category ∈ mergedCategories then (components.others category).sortKeys textLe
    else components.others category

def sortDocument (document : OpenApi) : OpenApi :=
  { document with
    paths := document.paths.sortKeys textLe
    components := document.components.map sortComponents }

/-- One more snippet is read and merged. -/
def mergeSnippet (external : External) (merged : OpenApi) (yaml : String) : Except String OpenApi :=
  match external.parseOpenApi yaml with
  | .error reason => .error s!"Failed to parse endpoint YAML: {reason}"
  | .ok added => .ok (mergeDocument merged added)

/-- The snippets of a service in one document, over the first of them. -/
def mergeEndpointYamls (external : External) : List String → Except String String
  | [] => .error "No endpoint YAMLs to merge"
  | first :: rest =>
      match external.parseOpenApi first with
      | .error reason => .error s!"Failed to parse first endpoint YAML: {reason}"
      | .ok base =>
          match rest.foldlM (mergeSnippet external) base with
          | .error reason => .error reason
          | .ok merged =>
              match external.writeOpenApi (sortDocument merged) with
              | .error reason => .error s!"Failed to serialize merged YAML: {reason}"
              | .ok text => .ok text

end Merging
end Sanshain.Document.OpenApiDocument
