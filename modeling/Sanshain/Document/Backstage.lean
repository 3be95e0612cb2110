import Sanshain.Document.EndpointKeys
import Sanshain.Text.Trim

namespace Sanshain.Document

open Sanshain.Data Sanshain.Domain Sanshain.Text

/-- What is read of the metadata of an entity; a value of the wrong shape is checked where it is used. -/
structure EntityMetadata where
  name : String
  «namespace» : Option String := none
  description : Option Value := none
  annotations : Option Mapping := none
  links : Option Value := none
  tags : Option Value := none

/-- The envelope of a Backstage entity. -/
structure Entity where
  apiVersion : String
  kind : String
  metadata : EntityMetadata
  spec : Option Value := none

/-- Why a catalog file is not read. -/
inductive CatalogError where
  | invalidYaml (reason : String)
  | notAnEntity (document : Nat) (reason : String)
  | noMatchingComponent (system : String)
  | ambiguousComponent (system : String)
  | malformedDependsOn (component reason : String)
  deriving DecidableEq, Repr

def CatalogError.display : CatalogError → String
  | .invalidYaml reason => s!"catalog-info.yaml is not valid YAML: {reason}"
  | .notAnEntity document reason =>
      s!"document {document} of catalog-info.yaml is not a Backstage entity: {reason}"
  | .noMatchingComponent system =>
      s!"catalog-info.yaml has no Component named '{system}' - the Component's metadata.name must equal the serviceName in sanshain.yaml"
  | .ambiguousComponent system =>
      s!"catalog-info.yaml has more than one Component named '{system}' - Sanshain cannot tell whose dependsOn to read"
  | .malformedDependsOn component reason =>
      s!"dependsOn of Component '{component}' is malformed: {reason}"

/-- What is read of the Component of a system. -/
structure CatalogComponent where
  resources : List String
  components : List String
  context : SystemContext
  system : Option String
  deriving DecidableEq, Repr

/-- The readers below: of the documents of a file, of one entity, and of a URL as its scheme and
host; and the Unicode table. -/
structure CatalogReaders where
  documents : String → Except String (List Value)
  entityOf : Value → Except String Entity
  url : String → Option (String × Option String)
  toLowercase : String → String

namespace Backstage

def defaultKind : String := "resource"
def componentKind : String := "component"
def defaultSystemKind : String := "system"
def defaultOwnerKind : String := "group"
def defaultNamespace : String := "default"
def sourceLocationAnnotation : String := "backstage.io/source-location"
def maxDescriptionChars : Nat := 1000
def maxLinks : Nat := 20
def maxLinkTextChars : Nat := 200
def maxTags : Nat := 20
def maxUrlChars : Nat := 2048

section References

/-- The letters, digits and marks of kinds, namespaces and names. -/
def isRefChar (c : Char) : Bool := isAsciiAlphanumeric c || c = '-' || c = '_' || c = '.'

def isRefPart (part : List Char) : Bool :=
  part ≠ [] && (String.ofList part).utf8ByteSize ≤ 63 && part.all isRefChar

def asciiLower (text : List Char) : String := String.ofList (text.map Char.toLower)

/-- A reference `[kind:][namespace/]name` as its three parts, all of which are ASCII. -/
def splitRef (raw defaultKind defaultNamespace : String) : Option (String × String × String) :=
  let (kind, rest) := (splitOnce ':' raw.toList).getD (defaultKind.toList, raw.toList)
  let (space, name) := (splitOnce '/' rest).getD (defaultNamespace.toList, rest)
  if isRefPart (trimChars kind) && isRefPart (trimChars space) && isRefPart (trimChars name) then
    some (asciiLower (trimChars kind), asciiLower (trimChars space), asciiLower (trimChars name))
  else none

theorem ascii_of_refChar {c : Char} (part : isRefChar c = true) : c.toNat < 128 := by
  simp only [isRefChar, isAsciiAlphanumeric, Bool.or_eq_true, Bool.and_eq_true, decide_eq_true_iff,
    Char.le_def, UInt32.le_iff_toNat_le] at part
  rcases part with ((((digit | small) | large) | rfl) | rfl) | rfl
  · exact lt_of_le_of_lt digit.2 (by decide)
  · exact lt_of_le_of_lt small.2 (by decide)
  · exact lt_of_le_of_lt large.2 (by decide)
  · decide
  · decide
  · decide

theorem solid_toLower {c : Char} (part : isRefChar c = true) : isWhiteSpace c.toLower = false := by
  have small : ∀ code < 128, isRefChar (Char.ofNat code) = true →
      isWhiteSpace (Char.ofNat code).toLower = false := by decide
  rw [← Char.ofNat_toNat c] at part ⊢
  exact small c.toNat (ascii_of_refChar (by rwa [Char.ofNat_toNat] at part)) part

theorem trim_asciiLower {part : List Char} (valid : isRefPart part = true) :
    trim (asciiLower part) ≠ "" := by
  simp only [isRefPart, Bool.and_eq_true, decide_eq_true_iff, List.all_eq_true] at valid
  obtain ⟨⟨named, -⟩, marks⟩ := valid
  have solid : ∀ c ∈ part.map Char.toLower, isWhiteSpace c = false := by
    intro c among
    obtain ⟨original, held, rfl⟩ := List.mem_map.mp among
    exact solid_toLower (marks original held)
  rw [trim, asciiLower, String.toList_ofList, (trimmed_of_solid solid).trimChars_eq]
  intro blank
  rw [String.ofList_eq_empty_iff, List.map_eq_nil_iff] at blank
  exact named blank

/-- The name in a reference is not blank. -/
theorem trim_splitRef {raw kind space name kindDefault spaceDefault : String}
    (split : splitRef raw kindDefault spaceDefault = some (kind, space, name)) : trim name ≠ "" := by
  rw [splitRef, Option.ite_none_right_eq_some, Bool.and_eq_true] at split
  obtain ⟨⟨-, valid⟩, same⟩ := split
  cases same
  exact trim_asciiLower valid

end References

section Context

variable (readers : CatalogReaders)

/-- The owner of a Component; a bare name is a group. -/
def ownerRef (raw : String) : Option SystemOwner :=
  (splitRef raw defaultOwnerKind defaultNamespace).map fun (kind, _, name) => ⟨kind, name⟩

/-- A text that is too long ends in an ellipsis. -/
def cut (text : List Char) (max : Nat) : String :=
  if text.length ≤ max then String.ofList text
  else String.ofList (text.take (max - 1) ++ ['…'])

def boundedDescription (raw : String) : Option String :=
  let trimmed := trimChars raw.toList
  if trimmed = [] then none else some (cut trimmed maxDescriptionChars)

/-- An absolute `http` or `https` URL that names a host, with that host. -/
def httpUrl (raw : String) : Option String :=
  let raw := trim raw
  if raw.length > maxUrlChars then none
  else match readers.url raw with
    | some (scheme, some host) => if scheme = "http" || scheme = "https" then some host else none
    | _ => none

def sourceLocation (raw : String) : Option String :=
  let trimmed := trim raw
  let location := trim ((stripPrefix "url:" trimmed).getD trimmed)
  (httpUrl readers location).map fun _ => location

/-- A link needs a URL, and is titled by its host when it has no title. -/
def link (item : Value) : Option SystemLink := do
  let text := fun key => ((item.get? key).bind (·.asStr)).map trim
  let bounded := fun key => (text key).map fun found => cut found.toList maxLinkTextChars
  let url ← text "url"
  let host ← httpUrl readers url
  let title := ((text "title").filter (· ≠ "")).getD host
  some ⟨url, cut title.toList maxLinkTextChars, bounded "type", bounded "icon"⟩

/-- A tag in the lower-cased spelling, when it is one. -/
def tag? (item : Value) : Option String := do
  let raw ← item.asStr
  let tag := readers.toLowercase (trim raw)
  if tag ≠ "" && tag.utf8ByteSize ≤ 63 && tag.toList.all fun c =>
      (('a' ≤ c && c ≤ 'z') || Text.isAsciiDigit c || c = '-' || c = '+' || c = '#') then
    some tag
  else none

/-- Each tag once, in the order of the file. -/
def tags (items : List Value) : List String :=
  ((items.filterMap (tag? readers)).eraseDups).take maxTags

end Context

section Components

variable (readers : CatalogReaders)

/-- A sorted set of references, as it is filled. -/
def insertRef (reference : String) (refs : List String) : List String :=
  if reference ∈ refs then refs else refs.orderedInsert (· ≤ ·) reference

/-- The `resource:` and the `component:` references of a list; those of other kinds are dropped. -/
def collectRefs (component space : String) :
    List Value → List String × List String → Except CatalogError (List String × List String)
  | [], refs => .ok refs
  | item :: rest, (resources, components) =>
      match item.asStr with
      | none => .error (.malformedDependsOn component "every entry must be an entity ref string")
      | some raw =>
          match splitRef raw defaultKind space with
          | none => .error (.malformedDependsOn component
              s!"'{raw}' is not an entity ref of the form [kind:][namespace/]name")
          | some (kind, ns, name) =>
              if kind = defaultKind then
                collectRefs component space rest
                  (insertRef s!"{defaultKind}:{ns}/{name}" resources, components)
              else if kind = componentKind then
                collectRefs component space rest
                  (resources, insertRef s!"{componentKind}:{ns}/{name}" components)
              else collectRefs component space rest (resources, components)

def dependencies (component : Entity) (space : String) :
    Except CatalogError (List String × List String) :=
  match component.spec.bind (·.get? "dependsOn") with
  | none | some .null => .ok ([], [])
  | some (.array items) => collectRefs component.metadata.name space items ([], [])
  | some _ => .error (.malformedDependsOn component.metadata.name "it must be a list of entity refs")

def isBackstageGroup (apiVersion : String) : Bool :=
  let group := (splitChars '/' apiVersion.toList).headD []
  group = "backstage.io".toList || ".backstage.io".toList.isSuffixOf group

/-- The one Component of the system among the documents from the given one on. -/
def findComponent (system : String) :
    Nat → Option Entity → List Value → Except CatalogError (Option Entity)
  | _, found, [] => .ok found
  | index, found, value :: rest =>
      match value with
      | .null => findComponent system (index + 1) found rest
      | _ =>
        match readers.entityOf value with
        | .error reason => .error (.notAnEntity (index + 1) reason)
        | .ok entity =>
            if !isBackstageGroup entity.apiVersion then
              .error (.notAnEntity (index + 1)
                s!"apiVersion '{entity.apiVersion}' is not a backstage.io group")
            else if asciiLower entity.kind.toList = "component" &&
                asciiLower entity.metadata.name.toList = asciiLower system.toList then
              match found with
              | some _ => .error (.ambiguousComponent system)
              | none => findComponent system (index + 1) (some entity) rest
            else findComponent system (index + 1) found rest

def contextOf (component : Entity) : SystemContext :=
  { owner := ((component.spec.bind (·.get? "owner")).bind (·.asStr)).bind ownerRef
    description := (component.metadata.description.bind (·.asStr)).bind boundedDescription
    sourceLocation := ((component.metadata.annotations.bind (·.get? sourceLocationAnnotation)).bind
      (·.asStr)).bind (sourceLocation readers)
    links := ((component.metadata.links.bind (·.asArray)).map fun items =>
      (items.filterMap (link readers)).take maxLinks).getD []
    tags := ((component.metadata.tags.bind (·.asArray)).map (tags readers)).getD [] }

/-- The Backstage system that a Component belongs to. -/
def systemOf (component : Entity) (space : String) : Option String :=
  ((((component.spec.bind (·.get? "system")).bind (·.asStr)).bind fun raw =>
    splitRef raw defaultSystemKind space).filter (·.1 = defaultSystemKind)).map (·.2.2)

/-- The Component of a system in its catalog file. -/
def readComponent (yaml system : String) : Except CatalogError CatalogComponent := do
  let documents ← (readers.documents yaml).mapError .invalidYaml
  match ← findComponent readers system 0 none documents with
  | none => .error (.noMatchingComponent system)
  | some component =>
      let space := component.metadata.namespace.getD defaultNamespace
      let (resources, components) ← dependencies component space
      .ok ⟨resources, components, contextOf readers component, systemOf component space⟩

theorem trim_systemOf {component : Entity} {space domain : String}
    (named : systemOf component space = some domain) : trim domain ≠ "" := by
  rw [systemOf, Option.map_eq_some_iff] at named
  obtain ⟨⟨kind, other, name⟩, found, rfl⟩ := named
  obtain ⟨raw, -, split⟩ := Option.bind_eq_some_iff.mp (Option.filter_eq_some_iff.mp found).1
  exact trim_splitRef split

/-- The Backstage system of a Component has a name. -/
theorem trim_readComponent {yaml system domain : String} {component : CatalogComponent}
    (read : readComponent readers yaml system = .ok component) (named : component.system = some domain) :
    trim domain ≠ "" := by
  obtain ⟨documents, -, read⟩ := bind_ok read
  obtain ⟨found, -, read⟩ := bind_ok read
  cases found with
  | none => cases read
  | some entity =>
      obtain ⟨refs, -, read⟩ := bind_ok read
      cases read
      exact trim_systemOf named

end Components
end Backstage
end Sanshain.Document
