import Sanshain.Document.OpenApiCompat
import Sanshain.Effects.OrderedWalk

namespace Sanshain.Document

open Sanshain.Data Sanshain.Domain Sanshain.Effects Sanshain.Text

/-- What a verdict says apart from its reason. -/
def Verdict.shape : Verdict → WalkEnd
  | .pass => .through
  | .refuse _ => .stopped
  | .endless => .endless

theorem Verdict.shape_andThen (first second : Verdict) :
    (first.andThen second).shape = first.shape.andThen second.shape := by
  cases first <;> rfl

theorem Verdict.shape_eq_endless {verdict : Verdict} :
    verdict.shape = .endless ↔ verdict = .endless := by
  cases verdict <;> simp [Verdict.shape]

namespace OpenApiDocument

/-- Two schemas compared at a request position or not. -/
abbrev Pair := Bool × Schema × Schema

/-- A refusal where the condition holds, and nothing otherwise. -/
def stopIf (condition : Bool) : List (Meeting Pair) := if condition then [.stop] else []

def typesDiffer (old new : Schema) : Bool :=
  describeSchemaType old ≠ describeSchemaType new ∧ describeSchemaType old ≠ "unknown" ∧
    describeSchemaType new ≠ "unknown"

theorem typesDiffer_iff {old new : Schema} : typesDiffer old new = true ↔
    describeSchemaType old ≠ describeSchemaType new ∧ describeSchemaType old ≠ "unknown" ∧
      describeSchemaType new ≠ "unknown" := by
  simp [typesDiffer]

section Meetings

variable (specs : OpenApi × OpenApi)

/-- What the comparison of two property or item schemas comes to first. -/
def subschemaMeetings (isRequest : Bool) : ReferenceOr Schema → ReferenceOr Schema →
    List (Meeting Pair)
  | .item old, .item new => if typesDiffer old new then [.stop] else [.enter (isRequest, old, new)]
  | .reference old, .reference new => stopIf (old ≠ new)
  | old, new =>
      match resolveSchema specs.1 old, resolveSchema specs.2 new with
      | some oldSchema, some newSchema => [.enter (isRequest, oldSchema, newSchema)]
      | _, _ => [.stop]

def removedMeetings (oldProps newProps : Entries String (ReferenceOr Schema)) :
    List (Meeting Pair) :=
  oldProps.flatMap fun prop =>
    stopIf ((Entries.get? newProps prop.1).isNone && !propertyDeprecated prop.2)

def requiredMeetings (isRequest : Bool) (oldRequired newRequired : List String) :
    List (Meeting Pair) :=
  newRequired.flatMap fun req => stopIf (isRequest && req ∉ oldRequired)

def keptMeetings (isRequest : Bool) (oldProps newProps : Entries String (ReferenceOr Schema)) :
    List (Meeting Pair) :=
  oldProps.flatMap fun prop =>
    match Entries.get? newProps prop.1 with
    | none => []
    | some newProp => subschemaMeetings specs isRequest prop.2 newProp

def propertyMeetings (isRequest : Bool) (old new : Schema) : List (Meeting Pair) :=
  match extractObjectProperties old, extractObjectProperties new with
  | some oldProps, some newProps =>
      removedMeetings oldProps newProps ++
        (requiredMeetings isRequest (extractRequiredFields old) (extractRequiredFields new) ++
          keptMeetings specs isRequest oldProps newProps)
  | _, _ => []

def itemMeetings (isRequest : Bool) : Schema → Schema → List (Meeting Pair)
  | .array (some oldItems) _ _, .array (some newItems) _ _ =>
      subschemaMeetings specs isRequest oldItems newItems
  | _, _ => []

/-- What the comparison of two schemas refuses and which pairs it compares inside, in order. -/
def pairMeetings : Pair → List (Meeting Pair)
  | (isRequest, old, new) =>
      if typesDiffer old new then [.stop]
      else
        stopIf (isRequest && checkEnumNotNarrowed "" old new ≠ .pass) ++
          (propertyMeetings specs isRequest old new ++ itemMeetings specs isRequest old new)

end Meetings

section Comparison

variable {specs : OpenApi × OpenApi} {enter : Pair → WalkEnd}

theorem walkMeetings_stopIf (condition : Bool) :
    walkMeetings enter (stopIf condition) = if condition then .stopped else .through := by
  cases condition <;> rfl

/-- A list of checks is the list of what they meet. -/
theorem shape_all {Element : Type} {check : Element → Verdict}
    {meets : Element → List (Meeting Pair)} (elements : List Element)
    (each : ∀ element, (check element).shape = walkMeetings enter (meets element)) :
    (Verdict.all check elements).shape = walkMeetings enter (elements.flatMap meets) := by
  induction elements with
  | nil => rfl
  | cons element rest ih =>
      rw [Verdict.all, Verdict.shape_andThen, List.flatMap_cons, walkMeetings_append, each, ih]

theorem shape_refuseIf (condition : Bool) (reason : String) :
    (if condition then Verdict.refuse reason else .pass).shape =
      walkMeetings enter (stopIf condition) := by
  cases condition <;> rfl

/-- The name of the schema only words the refusal. -/
theorem checkEnumNotNarrowed_cases (name : String) (old new : Schema) :
    (checkEnumNotNarrowed name old new = .pass ∧ checkEnumNotNarrowed "" old new = .pass) ∨
      ∃ reason bare, checkEnumNotNarrowed name old new = .refuse reason ∧
        checkEnumNotNarrowed "" old new = .refuse bare := by
  unfold checkEnumNotNarrowed
  split
  · exact .inr ⟨_, _, rfl, rfl⟩
  · split
    · exact .inr ⟨_, _, rfl, rfl⟩
    · exact .inl ⟨rfl, rfl⟩
  · exact .inl ⟨rfl, rfl⟩

theorem shape_checkEnumNotNarrowed (isRequest : Bool) (name : String) (old new : Schema) :
    (if isRequest then checkEnumNotNarrowed name old new else .pass).shape =
      walkMeetings enter (stopIf (isRequest && checkEnumNotNarrowed "" old new ≠ .pass)) := by
  cases isRequest with
  | false => rfl
  | true =>
      rcases checkEnumNotNarrowed_cases name old new with ⟨named, bare⟩ | ⟨_, _, named, bare⟩
      · simp [named, bare, Verdict.shape, walkMeetings_stopIf]
      · simp [named, bare, Verdict.shape, walkMeetings_stopIf]

theorem shape_checkSubschemaCompatible {compare : String → Schema → Schema → Bool → Verdict}
    {isRequest : Bool}
    (same : ∀ name old new, (compare name old new isRequest).shape = enter (isRequest, old, new))
    (name : String) (old new : ReferenceOr Schema) (typeChanged : String → String → String) :
    (checkSubschemaCompatible specs compare name old new isRequest typeChanged).shape =
      walkMeetings enter (subschemaMeetings specs isRequest old new) := by
  cases old with
  | item old =>
      cases new with
      | item new =>
          simp only [checkSubschemaCompatible, subschemaMeetings, describeBoxedRef,
            ← typesDiffer_iff]
          cases typesDiffer old new with
          | true => rfl
          | false => simp [walkMeetings, same]
      | reference new =>
          simp only [checkSubschemaCompatible, subschemaMeetings]
          cases resolveSchema specs.2 (.reference new) with
          | none => rfl
          | some newSchema => simp [resolveSchema, walkMeetings, same]
  | reference old =>
      cases new with
      | item new =>
          simp only [checkSubschemaCompatible, subschemaMeetings]
          cases resolveSchema specs.1 (.reference old) with
          | none => rfl
          | some oldSchema => simp [resolveSchema, walkMeetings, same]
      | reference new =>
          simp only [checkSubschemaCompatible, subschemaMeetings, describeBoxedRef,
            walkMeetings_stopIf]
          by_cases equal : old = new <;> simp [equal, Verdict.shape]

theorem shape_checkProperties {compare : String → Schema → Schema → Bool → Verdict}
    {isRequest : Bool}
    (same : ∀ name old new, (compare name old new isRequest).shape = enter (isRequest, old, new))
    (name : String) (oldProps newProps : Entries String (ReferenceOr Schema))
    (oldRequired newRequired : List String) :
    (checkProperties specs compare name oldProps newProps oldRequired newRequired isRequest).shape =
      walkMeetings enter (removedMeetings oldProps newProps ++
        (requiredMeetings isRequest oldRequired newRequired ++
          keptMeetings specs isRequest oldProps newProps)) := by
  rw [checkProperties, Verdict.shape_andThen, Verdict.shape_andThen, walkMeetings_append,
    walkMeetings_append]
  congr 1
  · exact shape_all oldProps fun prop => shape_refuseIf _ _
  · congr 1
    · exact shape_all newRequired fun req => shape_refuseIf _ _
    · refine shape_all oldProps fun prop => ?_
      cases Entries.get? newProps prop.1 with
      | none => rfl
      | some newProp => exact shape_checkSubschemaCompatible same _ _ _ _

/-- Apart from its reasons the comparison is the walk over the pairs it compares. -/
theorem shape_checkSchemaCompatible (fuel : ℕ) (name : String) (old new : Schema)
    (isRequest : Bool) :
    (checkSchemaCompatible specs fuel name old new isRequest).shape =
      walk (pairMeetings specs) fuel (isRequest, old, new) := by
  induction fuel generalizing name old new with
  | zero => rfl
  | succ fuel ih =>
      simp only [checkSchemaCompatible, walk, pairMeetings, ← typesDiffer_iff]
      split
      · rfl
      · rw [Verdict.shape_andThen, Verdict.shape_andThen, walkMeetings_append, walkMeetings_append,
          shape_checkEnumNotNarrowed]
        congr 2
        · unfold propertyMeetings
          cases extractObjectProperties old with
          | none => rfl
          | some oldProps =>
              cases extractObjectProperties new with
              | none => rfl
              | some newProps => exact shape_checkProperties ih _ _ _ _ _
        · cases old with
          | array oldItems oldDeprecated oldRest =>
              cases oldItems with
              | none => rfl
              | some oldItems =>
                  cases new with
                  | array newItems newDeprecated newRest =>
                      cases newItems with
                      | none => rfl
                      | some newItems => exact shape_checkSubschemaCompatible ih _ _ _ _
                  | _ => rfl
          | _ => rfl

end Comparison

section Parts

/-- The property and item schemas of a schema. -/
def Schema.children : Schema → List (ReferenceOr Schema)
  | .array (some items) _ _ => [items]
  | .object properties _ _ _ => properties.map (·.2)
  | _ => []

mutual

/-- A schema with every schema given in place inside it. -/
def schemasWithin : Schema → List Schema
  | .array (some (.item items)) deprecated rest =>
      .array (some (.item items)) deprecated rest :: schemasWithin items
  | .object properties required deprecated rest =>
      .object properties required deprecated rest :: schemasWithinProperties properties
  | other => [other]

def schemasWithinProperties : List (String × ReferenceOr Schema) → List Schema
  | [] => []
  | (_, .item schema) :: rest => schemasWithin schema ++ schemasWithinProperties rest
  | (_, .reference _) :: rest => schemasWithinProperties rest

end

mutual

theorem schemasWithin_length (schema : Schema) :
    (schemasWithin schema).length = schemaCount schema := by
  match schema with
  | .scalar .. | .other .. | .array none .. | .array (some (.reference _)) .. => rfl
  | .array (some (.item items)) deprecated rest =>
      rw [schemasWithin, List.length_cons, schemasWithin_length items, schemaCount]
  | .object properties required deprecated rest =>
      rw [schemasWithin, List.length_cons, schemasWithinProperties_length properties, schemaCount]

theorem schemasWithinProperties_length (properties : List (String × ReferenceOr Schema)) :
    (schemasWithinProperties properties).length = schemaCountProperties properties := by
  match properties with
  | [] => rfl
  | (_, .item schema) :: rest =>
      rw [schemasWithinProperties, List.length_append, schemasWithin_length schema,
        schemasWithinProperties_length rest, schemaCountProperties]
  | (_, .reference _) :: rest =>
      rw [schemasWithinProperties, schemasWithinProperties_length rest, schemaCountProperties]

end

theorem self_mem_schemasWithin (schema : Schema) : schema ∈ schemasWithin schema := by
  match schema with
  | .scalar .. | .other .. | .array none .. | .array (some (.reference _)) .. =>
      exact List.mem_singleton.mpr rfl
  | .array (some (.item items)) deprecated rest => exact List.mem_cons_self
  | .object properties required deprecated rest => exact List.mem_cons_self

theorem mem_schemasWithinProperties {properties : List (String × ReferenceOr Schema)}
    {part : Schema} : part ∈ schemasWithinProperties properties ↔
      ∃ schema, .item schema ∈ properties.map (·.2) ∧ part ∈ schemasWithin schema := by
  induction properties with
  | nil => simp [schemasWithinProperties]
  | cons prop rest ih =>
      obtain ⟨name, target | schema⟩ := prop
      · simp [schemasWithinProperties, ih]
      · simp [schemasWithinProperties, ih, or_and_right, exists_or]

theorem mem_schemasWithin {schema part : Schema} : part ∈ schemasWithin schema ↔
    part = schema ∨ ∃ child, ReferenceOr.item child ∈ Schema.children schema ∧ part ∈ schemasWithin child := by
  match schema with
  | .scalar .. | .other .. | .array none .. | .array (some (.reference _)) .. =>
      simp [schemasWithin, Schema.children]
  | .array (some (.item items)) deprecated rest => simp [schemasWithin, Schema.children]
  | .object properties required deprecated rest =>
      simp [schemasWithin, Schema.children, mem_schemasWithinProperties]

mutual

theorem schemasWithin_trans (schema : Schema) {part inner : Schema}
    (within : part ∈ schemasWithin schema) (deeper : inner ∈ schemasWithin part) :
    inner ∈ schemasWithin schema := by
  match schema with
  | .scalar .. | .other .. | .array none .. | .array (some (.reference _)) .. =>
      rw [List.mem_singleton.mp within] at deeper
      exact deeper
  | .array (some (.item items)) .. =>
      rcases List.mem_cons.mp within with rfl | within
      · exact deeper
      · exact List.mem_cons_of_mem _ (schemasWithin_trans items within deeper)
  | .object properties .. =>
      rcases List.mem_cons.mp within with rfl | within
      · exact deeper
      · exact List.mem_cons_of_mem _ (schemasWithinProperties_trans properties within deeper)

theorem schemasWithinProperties_trans (properties : List (String × ReferenceOr Schema))
    {part inner : Schema} (within : part ∈ schemasWithinProperties properties)
    (deeper : inner ∈ schemasWithin part) : inner ∈ schemasWithinProperties properties := by
  match properties with
  | [] => cases within
  | (_, .item schema) :: rest =>
      rcases List.mem_append.mp within with within | within
      · exact List.mem_append_left _ (schemasWithin_trans schema within deeper)
      · exact List.mem_append_right _ (schemasWithinProperties_trans rest within deeper)
  | (_, .reference _) :: rest => exact schemasWithinProperties_trans rest within deeper

end

theorem child_mem_schemasWithin {schema child : Schema}
    (among : ReferenceOr.item child ∈ Schema.children schema) : child ∈ schemasWithin schema :=
  mem_schemasWithin.mpr (.inr ⟨child, among, self_mem_schemasWithin child⟩)

end Parts

section Pool

variable {document : OpenApi} {root schema inner : Schema}

/-- The schemas inside the named schemas of a document or inside one more. -/
def schemaPool (document : OpenApi) (root : Schema) : List Schema :=
  (collectSchemaMap document).flatMap (fun entry => schemasWithin entry.2) ++ schemasWithin root

theorem schemaPool_length : (schemaPool document root).length =
    schemaCountNamed document + schemaCount root := by
  simp [schemaPool, schemaCountNamed, List.length_flatMap, schemasWithin_length]

theorem schemaPool_trans (held : schema ∈ schemaPool document root)
    (within : inner ∈ schemasWithin schema) : inner ∈ schemaPool document root := by
  rcases List.mem_append.mp held with held | held
  · obtain ⟨entry, among, held⟩ := List.mem_flatMap.mp held
    exact List.mem_append_left _
      (List.mem_flatMap.mpr ⟨entry, among, schemasWithin_trans entry.2 held within⟩)
  · exact List.mem_append_right _ (schemasWithin_trans root held within)

theorem mem_collectSchemaMap {name : String} :
    (name, schema) ∈ collectSchemaMap document ↔ ∃ components,
      document.components = some components ∧ (name, .item schema) ∈ components.schemas.entries := by
  unfold collectSchemaMap
  cases document.components with
  | none => simp
  | some components =>
      simp only [List.mem_filterMap, Option.some.injEq, exists_eq_left']
      constructor
      · rintro ⟨⟨other, target | item⟩, among, same⟩
        · cases same
        · cases same
          exact among
      · intro among
        exact ⟨_, among, rfl⟩

theorem componentSchema_mem {target : String} (found : componentSchema document target = some schema) :
    ∃ name, stripPrefix "#/components/schemas/" target = some name ∧
      (name, schema) ∈ collectSchemaMap document := by
  obtain ⟨name, stripped, found⟩ := Option.bind_eq_some_iff.mp found
  obtain ⟨components, held, found⟩ := Option.bind_eq_some_iff.mp found
  refine ⟨name, stripped, mem_collectSchemaMap.mpr ⟨components, held, ?_⟩⟩
  split at found
  · rename_i item there
    cases found
    exact Entries.mem_of_get? there
  · cases found

theorem resolve_mem_schemaPool {child : ReferenceOr Schema}
    (held : schema ∈ schemaPool document root) (among : child ∈ Schema.children schema)
    (resolved : resolveSchema document child = some inner) : inner ∈ schemaPool document root := by
  cases child with
  | item child =>
      cases resolved
      exact schemaPool_trans held (child_mem_schemasWithin among)
  | reference target =>
      obtain ⟨name, _, named⟩ := componentSchema_mem resolved
      exact List.mem_append_left _
        (List.mem_flatMap.mpr ⟨_, named, self_mem_schemasWithin inner⟩)

end Pool

section Termination

variable {specs : OpenApi × OpenApi} {isRequest : Bool} {old new : Schema}

theorem mem_stopIf {condition : Bool} {meeting : Meeting Pair} :
    meeting ∈ stopIf condition ↔ condition = true ∧ meeting = .stop := by
  cases condition <;> simp [stopIf]

theorem enter_mem_subschemaMeetings {oldRef newRef : ReferenceOr Schema} {pair : Pair}
    (entered : .enter pair ∈ subschemaMeetings specs isRequest oldRef newRef) :
    ∃ oldSchema newSchema, pair = (isRequest, oldSchema, newSchema) ∧
      resolveSchema specs.1 oldRef = some oldSchema ∧
      resolveSchema specs.2 newRef = some newSchema := by
  unfold subschemaMeetings at entered
  split at entered
  · split at entered
    · simp at entered
    · simp only [List.mem_singleton, Meeting.enter.injEq] at entered
      exact ⟨_, _, entered, rfl, rfl⟩
  · simp [mem_stopIf] at entered
  · split at entered
    · simp only [List.mem_singleton, Meeting.enter.injEq] at entered
      exact ⟨_, _, entered, ‹_›, ‹_›⟩
    · simp at entered

/-- A comparison goes on with a pair of property or item schemas of its own, resolved. -/
theorem enter_mem_pairMeetings {pair : Pair}
    (entered : .enter pair ∈ pairMeetings specs (isRequest, old, new)) :
    ∃ oldRef ∈ Schema.children old, ∃ newRef ∈ Schema.children new, ∃ oldSchema newSchema,
      pair = (isRequest, oldSchema, newSchema) ∧ resolveSchema specs.1 oldRef = some oldSchema ∧
        resolveSchema specs.2 newRef = some newSchema := by
  rw [pairMeetings] at entered
  split at entered
  · simp at entered
  · rcases List.mem_append.mp entered with entered | entered
    · simp [mem_stopIf] at entered
    · rcases List.mem_append.mp entered with entered | entered
      · unfold propertyMeetings extractObjectProperties at entered
        cases old <;> cases new <;> simp only [List.not_mem_nil] at entered
        rename_i oldProps _ _ _ newProps _ _ _
        simp only [removedMeetings, requiredMeetings, keptMeetings, List.mem_append,
          List.mem_flatMap, mem_stopIf, reduceCtorEq, and_false, exists_false, false_or] at entered
        obtain ⟨prop, held, entered⟩ := entered
        split at entered
        · cases entered
        · rename_i newProp found
          obtain ⟨oldSchema, newSchema, same, left, right⟩ := enter_mem_subschemaMeetings entered
          exact ⟨prop.2, List.mem_map_of_mem held, newProp,
            List.mem_map_of_mem (Entries.mem_of_get? found), oldSchema, newSchema, same, left, right⟩
      · unfold itemMeetings at entered
        split at entered
        · obtain ⟨oldSchema, newSchema, same, left, right⟩ := enter_mem_subschemaMeetings entered
          exact ⟨_, List.mem_singleton.mpr rfl, _, List.mem_singleton.mpr rfl, oldSchema, newSchema,
            same, left, right⟩
        · cases entered

/-- The comparison of two schemas is endless just when it comes to a pair again inside itself. -/
theorem checkSchema_endless_iff {oldDocument newDocument : OpenApi} {name : String} :
    checkSchema oldDocument newDocument name old new isRequest = .endless ↔
      GoesRound (pairMeetings (oldDocument, newDocument)) (isRequest, old, new) := by
  classical
  let pairs := (schemaPool oldDocument old).product (schemaPool newDocument new)
  let nodes := (pairs.map fun pair => (isRequest, pair)).toFinset
  have mem_nodes (pair : Pair) : pair ∈ nodes ↔ pair.1 = isRequest ∧
      pair.2.1 ∈ schemaPool oldDocument old ∧ pair.2.2 ∈ schemaPool newDocument new := by
    obtain ⟨request, first, second⟩ := pair
    simp only [nodes, pairs, List.mem_toFinset, List.mem_map, Prod.mk.injEq, Prod.exists]
    constructor
    · rintro ⟨oldSchema, newSchema, among, rfl, rfl, rfl⟩
      exact ⟨rfl, List.mem_product.mp among⟩
    · rintro ⟨rfl, among⟩
      exact ⟨first, second, List.mem_product.mpr among, rfl, rfl, rfl⟩
  have few : nodes.card ≤ walkBound oldDocument newDocument old new := by
    have length := List.toFinset_card_le (pairs.map fun pair => (isRequest, pair))
    have product : pairs.length = (schemaPool oldDocument old).length *
        (schemaPool newDocument new).length := List.length_product _ _
    rw [List.length_map, product, schemaPool_length, schemaPool_length] at length
    exact length.trans (Nat.le_succ _)
  have closed (inner : Pair) (reached : Relation.ReflTransGen
      (Enters (pairMeetings (oldDocument, newDocument))) (isRequest, old, new) inner) :
      inner ∈ nodes := by
    induction reached with
    | refl =>
        exact (mem_nodes _).mpr ⟨rfl, List.mem_append_right _ (self_mem_schemasWithin old),
          List.mem_append_right _ (self_mem_schemasWithin new)⟩
    | @tail pair inner _ entered ih =>
        obtain ⟨request, first, second⟩ := pair
        obtain ⟨same, firstHeld, secondHeld⟩ := (mem_nodes _).mp ih
        obtain ⟨oldRef, oldAmong, newRef, newAmong, oldSchema, newSchema, rfl, left, right⟩ :=
          enter_mem_pairMeetings (Enters.mem entered)
        exact (mem_nodes _).mpr ⟨same, resolve_mem_schemaPool firstHeld oldAmong left,
          resolve_mem_schemaPool secondHeld newAmong right⟩
  rw [← Verdict.shape_eq_endless, checkSchema, shape_checkSchemaCompatible]
  exact walk_endless_iff nodes closed few

end Termination

section Documents

variable (external : External) (old new : OpenApi)

def namedMeetings (entry : String × Schema) : List (Meeting Pair) :=
  match Entries.get? (collectSchemaMap new) entry.1 with
  | none => []
  | some newSchema => [.enter (entry.1 ∈ collectRequestSchemas external new, entry.2, newSchema)]

/-- Two positions that both have a schema are compared. -/
def positionMeetings (isRequest : Bool) (oldRef newRef : Option (ReferenceOr Schema)) :
    List (Meeting Pair) :=
  match oldRef.bind (resolveSchema old), newRef.bind (resolveSchema new) with
  | some oldSchema, some newSchema => [.enter (isRequest, oldSchema, newSchema)]
  | _, _ => []

def parameterKeptMeetings (newParams : ParameterMap)
    (entry : (ParameterLocation × String) × Parameter) : List (Meeting Pair) :=
  match Entries.get? newParams entry.1 with
  | none => stopIf !(entry.2.deprecated.getD false || entry.1.1 = .path)
  | some newParam =>
      if newParam.required && !entry.2.required && entry.1.1 ≠ .path then [.stop]
      else positionMeetings old new true entry.2.schema newParam.schema

def parameterAddedMeetings (oldParams : ParameterMap)
    (entry : (ParameterLocation × String) × Parameter) : List (Meeting Pair) :=
  stopIf (entry.2.required && entry.1.1 ≠ .path && (Entries.get? oldParams entry.1).isNone)

def contentMeetings (isRequest : Bool) (oldContent newContent : Entries String MediaType) :
    List (Meeting Pair) :=
  oldContent.flatMap fun entry =>
    positionMeetings old new isRequest entry.2.schema
      ((Entries.get? newContent entry.1).bind (·.schema))

def responsesKeptMeetings (oldOp newOp : Operation) : List (Meeting Pair) :=
  oldOp.responses.flatMap fun entry => stopIf (Entries.get? newOp.responses entry.1).isNone

def requestBodyMeetings (oldOp newOp : Operation) : List (Meeting Pair) :=
  match oldOp.requestBody, newOp.requestBody with
  | some (.item oldBody), some (.item newBody) =>
      contentMeetings old new true oldBody.content newBody.content
  | _, _ => []

def responseMeetings (newOp : Operation) (entry : StatusCode × ReferenceOr Response) :
    List (Meeting Pair) :=
  match entry.2, Entries.get? newOp.responses entry.1 with
  | .item oldResponse, some (.item newResponse) =>
      contentMeetings old new false oldResponse.content newResponse.content
  | _, _ => []

def operationMeetings (oldItem newItem : PathItem) (found : Method × Operation) :
    List (Meeting Pair) :=
  match newItem.operation found.1 with
  | none => stopIf !found.2.deprecated
  | some newOp =>
      let oldParams := collectParameters external old oldItem found.2
      let newParams := collectParameters external new newItem newOp
      responsesKeptMeetings found.2 newOp ++
        ((oldParams.flatMap (parameterKeptMeetings old new newParams) ++
            newParams.flatMap (parameterAddedMeetings oldParams)) ++
          (requestBodyMeetings old new found.2 newOp ++
            found.2.responses.flatMap (responseMeetings old new newOp)))

def pathMeetings (entry : String × ReferenceOr PathItem) : List (Meeting Pair) :=
  match entry.2 with
  | .reference _ => []
  | .item oldItem =>
      match new.paths.get? entry.1 with
      | some (.item newItem) =>
          (getMethods oldItem).flatMap (operationMeetings external old new oldItem newItem)
      | _ => stopIf !((getMethods oldItem).all fun found => found.2.deprecated)

/-- What the comparison of two documents refuses and which pairs of schemas it compares, in order. -/
def documentMeetings : List (Meeting Pair) :=
  (collectSchemaMap old).flatMap (namedMeetings external new) ++
    old.paths.entries.flatMap (pathMeetings external old new)

end Documents

section DocumentComparison

variable {external : External} {old new : OpenApi}

/-- What comparing a pair comes to. -/
def pairEnd (old new : OpenApi) (pair : Pair) : WalkEnd :=
  walk (pairMeetings (old, new)) (walkBound old new pair.2.1 pair.2.2) pair

theorem shape_checkSchema (name : String) (oldSchema newSchema : Schema) (isRequest : Bool) :
    (checkSchema old new name oldSchema newSchema isRequest).shape =
      pairEnd old new (isRequest, oldSchema, newSchema) :=
  shape_checkSchemaCompatible _ _ _ _ _

theorem walkMeetings_enter {enter : Pair → WalkEnd} (pair : Pair) :
    walkMeetings enter [.enter pair] = enter pair := by
  simp [walkMeetings]

theorem shape_position (isRequest : Bool) (name : String) (oldRef newRef : Option (ReferenceOr Schema)) :
    (match oldRef.bind (resolveSchema old), newRef.bind (resolveSchema new) with
      | some oldSchema, some newSchema => checkSchema old new name oldSchema newSchema isRequest
      | _, _ => .pass).shape =
      walkMeetings (pairEnd old new) (positionMeetings old new isRequest oldRef newRef) := by
  unfold positionMeetings
  cases oldRef.bind (resolveSchema old) with
  | none => rfl
  | some oldSchema =>
      cases newRef.bind (resolveSchema new) with
      | none => rfl
      | some newSchema =>
          rw [walkMeetings_enter]
          exact shape_checkSchema _ _ _ _

theorem shape_checkNamedSchema (entry : String × Schema) :
    (checkNamedSchema external old new entry).shape =
      walkMeetings (pairEnd old new) (namedMeetings external new entry) := by
  unfold checkNamedSchema namedMeetings
  cases Entries.get? (collectSchemaMap new) entry.1 with
  | none => rfl
  | some newSchema =>
      rw [walkMeetings_enter]
      exact shape_checkSchema _ _ _ _

theorem shape_checkContentCompatible (label : String) (oldContent newContent : Entries String MediaType)
    (isRequest : Bool) :
    (checkContentCompatible label old new oldContent newContent isRequest).shape =
      walkMeetings (pairEnd old new) (contentMeetings old new isRequest oldContent newContent) := by
  refine shape_all oldContent fun entry => ?_
  rw [← shape_position isRequest s!"{label} ({entry.1})"]
  cases ((Entries.get? newContent entry.1).bind (·.schema)).bind (resolveSchema new) <;>
    cases entry.2.schema.bind (resolveSchema old) <;> rfl

theorem shape_checkParameterKept (operation : String) (newParams : ParameterMap)
    (entry : (ParameterLocation × String) × Parameter) :
    (checkParameterKept old new operation newParams entry).shape =
      walkMeetings (pairEnd old new) (parameterKeptMeetings old new newParams entry) := by
  unfold checkParameterKept parameterKeptMeetings
  cases Entries.get? newParams entry.1 with
  | none =>
      rw [walkMeetings_stopIf]
      cases entry.2.deprecated.getD false || entry.1.1 = .path <;>
        simp [Verdict.shape]
  | some newParam =>
      dsimp only
      split
      · rfl
      · exact shape_position _ _ _ _

theorem shape_checkParametersCompatible (operation : String) (oldParams newParams : ParameterMap) :
    (checkParametersCompatible operation oldParams newParams old new).shape =
      walkMeetings (pairEnd old new) (oldParams.flatMap (parameterKeptMeetings old new newParams) ++
        newParams.flatMap (parameterAddedMeetings oldParams)) := by
  rw [checkParametersCompatible, Verdict.shape_andThen, walkMeetings_append]
  congr 1
  · exact shape_all oldParams (shape_checkParameterKept operation newParams)
  · exact shape_all newParams fun entry => shape_refuseIf _ _

theorem shape_checkRequestBody (operation : String) (oldOp newOp : Operation) :
    (checkRequestBody operation old new oldOp newOp).shape =
      walkMeetings (pairEnd old new) (requestBodyMeetings old new oldOp newOp) := by
  unfold checkRequestBody requestBodyMeetings
  cases oldOp.requestBody with
  | none => rfl
  | some oldRef =>
      cases newOp.requestBody with
      | none => cases oldRef <;> rfl
      | some newRef =>
          cases oldRef with
          | reference target => rfl
          | item oldBody =>
              cases newRef with
              | reference target => rfl
              | item newBody => exact shape_checkContentCompatible _ _ _ _

theorem shape_checkResponseBodies (operation : String) (oldOp newOp : Operation) :
    (checkResponseBodies operation old new oldOp newOp).shape =
      walkMeetings (pairEnd old new) (oldOp.responses.flatMap (responseMeetings old new newOp)) := by
  refine shape_all oldOp.responses fun entry => ?_
  obtain ⟨status, oldRef⟩ := entry
  unfold responseMeetings
  cases oldRef with
  | reference target => rfl
  | item oldResponse =>
      cases Entries.get? newOp.responses status with
      | none => rfl
      | some newRef =>
          cases newRef with
          | reference target => rfl
          | item newResponse => exact shape_checkContentCompatible _ _ _ _

theorem shape_checkOperationCompatible (path : String) (oldItem newItem : PathItem)
    (found : Method × Operation) :
    (checkOperationCompatible external path old oldItem new newItem found).shape =
      walkMeetings (pairEnd old new) (operationMeetings external old new oldItem newItem found) := by
  unfold checkOperationCompatible operationMeetings
  cases newItem.operation found.1 with
  | none =>
      rw [walkMeetings_stopIf]
      cases found.2.deprecated <;> rfl
  | some newOp =>
      dsimp only
      rw [Verdict.shape_andThen, Verdict.shape_andThen, Verdict.shape_andThen, walkMeetings_append,
        walkMeetings_append, walkMeetings_append (pairEnd old new) (requestBodyMeetings _ _ _ _),
        shape_checkParametersCompatible, shape_checkRequestBody, shape_checkResponseBodies]
      congr 1
      exact shape_all found.2.responses fun entry => shape_refuseIf _ _

theorem shape_checkPathCompatible (entry : String × ReferenceOr PathItem) :
    (checkPathCompatible external old new entry).shape =
      walkMeetings (pairEnd old new) (pathMeetings external old new entry) := by
  obtain ⟨path, target | oldItem⟩ := entry
  · rfl
  · simp only [checkPathCompatible, pathMeetings]
    cases new.paths.get? path with
    | none =>
        rw [walkMeetings_stopIf]
        cases (getMethods oldItem).all fun found => found.2.deprecated <;> rfl
    | some newRef =>
        cases newRef with
        | reference target =>
            rw [walkMeetings_stopIf]
            cases (getMethods oldItem).all fun found => found.2.deprecated <;> rfl
        | item newItem =>
            exact shape_all (getMethods oldItem)
              (shape_checkOperationCompatible path oldItem newItem)

theorem shape_checkOpenapiCompatible :
    (checkOpenapiCompatible external old new).shape =
      walkMeetings (pairEnd old new) (documentMeetings external old new) := by
  rw [checkOpenapiCompatible, Verdict.shape_andThen, documentMeetings, walkMeetings_append]
  congr 1
  · exact shape_all (collectSchemaMap old) shape_checkNamedSchema
  · exact shape_all old.paths.entries shape_checkPathCompatible

/-- The comparison of two documents is endless just when, before anything that leads to a refusal,
it comes to a pair of schemas that it comes to again inside itself. -/
theorem checkOpenapiCompatible_endless_iff :
    checkOpenapiCompatible external old new = .endless ↔
      ∃ pair, EntersIn (pairMeetings (old, new)) (documentMeetings external old new) pair ∧
        GoesRound (pairMeetings (old, new)) pair := by
  have round (pair : Pair) :
      pairEnd old new pair = .endless ↔ GoesRound (pairMeetings (old, new)) pair := by
    rw [← shape_checkSchema "", Verdict.shape_eq_endless, checkSchema_endless_iff]
  rw [← Verdict.shape_eq_endless, shape_checkOpenapiCompatible]
  constructor
  · intro endless
    obtain ⟨pair, entered, deeper⟩ := enters_of_endless (fun _ => walk_through) endless
    exact ⟨pair, entered, (round pair).mp deeper⟩
  · rintro ⟨pair, entered, cycle⟩
    exact endless_of_enters (fun _ => walk_stopped) entered ((round pair).mpr cycle)

end DocumentComparison
end OpenApiDocument
end Sanshain.Document
