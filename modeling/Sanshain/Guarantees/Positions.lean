import Sanshain.Document.OpenApiWalk
import Sanshain.Document.Platform
import Sanshain.Document.Positions

namespace Sanshain.Guarantees

open Sanshain.Data Sanshain.Domain Sanshain.Text Sanshain.Document Sanshain.Document.OpenApiDocument

section Resolution

/-- An alias relation agrees with any search that follows one reference only. -/
theorem aliasMeans_of_one_step {Node : Type} {start : String}
    {find : String → Option (ReferenceOr Node)} {given : ReferenceOr Node} {node found : Node}
    (means : AliasMeans start find given node)
    (step : given = .item found ∨ ∃ target name, given = .reference target ∧
      stripPrefix start target = some name ∧ find name = some (.item found)) : found = node := by
  cases means with
  | item =>
      rcases step with same | ⟨_, _, other, _⟩
      · exact (ReferenceOr.item.inj same).symm
      · cases other
  | reference points next rest =>
      rcases step with other | ⟨target, name, same, stripped, there⟩
      · cases other
      · cases same
        rw [points] at stripped
        cases stripped
        rw [next] at there
        cases there
        cases rest
        rfl

variable {document : OpenApi}

theorem resolveSchema_step {given : ReferenceOr Schema} {found : Schema}
    (resolved : resolveSchema document given = some found) :
    given = .item found ∨ ∃ target name, given = .reference target ∧
      stripPrefix "#/components/schemas/" target = some name ∧
      schemaNamed document name = some (.item found) := by
  cases given with
  | item schema => exact .inl (congrArg _ (Option.some.inj resolved))
  | reference target =>
      right
      obtain ⟨name, stripped, resolved⟩ := Option.bind_eq_some_iff.mp resolved
      obtain ⟨components, held, resolved⟩ := Option.bind_eq_some_iff.mp resolved
      refine ⟨target, name, rfl, stripped, ?_⟩
      rw [schemaNamed, held]
      split at resolved
      · rename_i there
        cases resolved
        exact there
      · cases resolved

theorem resolveParameter_step {given : ReferenceOr Parameter} {found : Parameter}
    (resolved : resolveParameter document given = some found) :
    given = .item found ∨ ∃ target name, given = .reference target ∧
      stripPrefix "#/components/parameters/" target = some name ∧
      (document.components.bind fun components => components.parameters.get? name) =
        some (.item found) := by
  cases given with
  | item parameter => exact .inl (congrArg _ (Option.some.inj resolved))
  | reference target =>
      right
      obtain ⟨name, stripped, resolved⟩ := Option.bind_eq_some_iff.mp resolved
      obtain ⟨components, held, resolved⟩ := Option.bind_eq_some_iff.mp resolved
      refine ⟨target, name, rfl, stripped, ?_⟩
      rw [held]
      split at resolved
      · rename_i there
        cases resolved
        exact there
      · cases resolved

/-- What takes one step to resolve resolves to what it means. -/
theorem resolveSchema_of_oneStep {given : ReferenceOr Schema} {schema : Schema}
    (means : SchemaMeans document given schema) (short : oneStep document given = true) :
    resolveSchema document given = some schema := by
  obtain ⟨found, resolved⟩ := Option.isSome_iff_exists.mp short
  rw [resolved, aliasMeans_of_one_step means (resolveSchema_step resolved)]

theorem parameterMeans_of_resolve {given : ReferenceOr Parameter} {parameter : Parameter}
    (resolved : resolveParameter document given = some parameter) :
    ParameterMeans document given parameter := by
  rcases resolveParameter_step resolved with rfl | ⟨target, name, rfl, stripped, there⟩
  · exact .item _
  · exact .reference stripped there (.item _)

theorem resolveParameter_of_isSome {given : ReferenceOr Parameter} {parameter : Parameter}
    (means : ParameterMeans document given parameter)
    (short : (resolveParameter document given).isSome = true) :
    resolveParameter document given = some parameter := by
  obtain ⟨found, resolved⟩ := Option.isSome_iff_exists.mp short
  rw [resolved, aliasMeans_of_one_step means (resolveParameter_step resolved)]

theorem mem_collectSchemaMap_iff {name : String} {schema : Schema} :
    (name, schema) ∈ collectSchemaMap document ↔ schemaNamed document name = some (.item schema) := by
  rw [mem_collectSchemaMap, schemaNamed]
  cases document.components with
  | none => simp
  | some components =>
      simp only [Option.some.injEq, exists_eq_left', Option.bind_some]
      exact ⟨fun among => IndexMap.get?_of_mem among, fun found => Entries.mem_of_get? found⟩

theorem get?_collectSchemaMap {name : String} {schema : Schema}
    (named : schemaNamed document name = some (.item schema)) :
    Entries.get? (collectSchemaMap document) name = some schema := by
  have among := mem_collectSchemaMap_iff.mpr named
  cases found : Entries.get? (collectSchemaMap document) name with
  | none =>
      have held := (Entries.get?_isSome_iff (collectSchemaMap document) name).mpr
        (List.mem_map.mpr ⟨_, among, rfl⟩)
      rw [found] at held
      cases held
  | some other =>
      have there := mem_collectSchemaMap_iff.mp (Entries.mem_of_get? found)
      rw [named] at there
      cases there
      rfl

end Resolution

section Parameters

variable {external : External} {document : OpenApi} {item : PathItem} {operation : Operation}

/-- The parameter an operation takes under a key is the one collected for it. -/
theorem taken_collectParameters {key : ParameterLocation × String} {given : ReferenceOr Parameter}
    {parameter : Parameter}
    (takes : TakesParameter external document item operation key given parameter)
    (short : (resolveParameter document given).isSome = true) :
    Entries.get? (collectParameters external document item operation) key = some parameter := by
  obtain ⟨before, after, split, means, keyed, last⟩ := takes
  have resolved := resolveParameter_of_isSome means short
  let keyedOf (parameter : Parameter) := (parameterKey external parameter, parameter)
  have later : Entries.get? ((after.filterMap (resolveParameter document)).map keyedOf).reverse key =
      none := by
    rw [← Option.not_isSome_iff_eq_none, Entries.get?_isSome_iff]
    intro among
    obtain ⟨entry, among, same⟩ := List.mem_map.mp among
    obtain ⟨found, held, rfl⟩ := List.mem_map.mp (List.mem_reverse.mp among)
    obtain ⟨other, there, resolved⟩ := List.mem_filterMap.mp held
    exact last other there found (parameterMeans_of_resolve resolved) same
  have unfolded : collectParameters external document item operation =
      Entries.insertAll
        ((Entries.insertAll [] ((before.filterMap (resolveParameter document)).map keyedOf)).insert
          (keyedOf parameter).1 parameter)
        ((after.filterMap (resolveParameter document)).map keyedOf) := by
    rw [collectParameters, split, List.filterMap_append, List.filterMap_cons_some resolved]
    simp only [List.map_append, List.map_cons, Entries.insertAll, List.foldl_append, List.foldl_cons,
      keyedOf]
  rw [unfolded, Entries.get?_insertAll, later, Option.none_or, Entries.get?_insert]
  simp [keyedOf, keyed]

end Parameters

section Comparison

variable {external : External} {old new : OpenApi}

/-- Two schemas that were compared, under some name and to some depth, and passed. -/
def Passed (old new : OpenApi) (isRequest : Bool) (oldSchema newSchema : Schema) : Prop :=
  ∃ fuel name, checkSchemaCompatible (old, new) fuel name oldSchema newSchema isRequest = .pass

/-- Two schemas that passed a comparison at least as strict as their position asks for. -/
def Covered (old new : OpenApi) (isRequest : Bool) (oldSchema newSchema : Schema) : Prop :=
  ∃ checked, (isRequest = true → checked = true) ∧ Passed old new checked oldSchema newSchema

variable {isRequest : Bool} {oldSchema newSchema : Schema}

theorem describeSchemaType_unknown_iff (schema : Schema) :
    describeSchemaType schema = "unknown" ↔ isPlain schema = false := by
  cases schema with
  | scalar type => cases type <;> simp [describeSchemaType, isPlain]
  | _ => simp [describeSchemaType, isPlain]

/-- What one comparison that passes has checked. -/
theorem Passed.inv (passed : Passed old new isRequest oldSchema newSchema) :
    (isPlain oldSchema → isPlain newSchema →
        describeSchemaType oldSchema = describeSchemaType newSchema) ∧
      (isRequest = true → ∃ name, checkEnumNotNarrowed name oldSchema newSchema = .pass) ∧
      (∀ oldProps newProps, extractObjectProperties oldSchema = some oldProps →
        extractObjectProperties newSchema = some newProps → ∃ fuel name,
          checkProperties (old, new) (checkSchemaCompatible (old, new) fuel) name oldProps newProps
            (extractRequiredFields oldSchema) (extractRequiredFields newSchema) isRequest = .pass) ∧
      ∀ oldItems oldDeprecated oldRest newItems newDeprecated newRest,
        oldSchema = .array (some oldItems) oldDeprecated oldRest →
        newSchema = .array (some newItems) newDeprecated newRest → ∃ fuel name changed,
          checkSubschemaCompatible (old, new) (checkSchemaCompatible (old, new) fuel) name oldItems
            newItems isRequest changed = .pass := by
  obtain ⟨fuel, name, passed⟩ := passed
  cases fuel with
  | zero => cases passed
  | succ fuel =>
      unfold checkSchemaCompatible at passed
      dsimp only at passed
      split at passed
      · cases passed
      · rename_i same
        rw [Verdict.andThen_eq_pass, Verdict.andThen_eq_pass] at passed
        obtain ⟨enumerated, properties, items⟩ := passed
        refine ⟨?_, ?_, ?_, ?_⟩
        · intro oldPlain newPlain
          by_contra differ
          refine same ⟨differ, ?_, ?_⟩
          · rw [Ne, describeSchemaType_unknown_iff, oldPlain]
            exact Bool.noConfusion
          · rw [Ne, describeSchemaType_unknown_iff, newPlain]
            exact Bool.noConfusion
        · intro request
          rw [if_pos request] at enumerated
          exact ⟨name, enumerated⟩
        · intro oldProps newProps oldObject newObject
          rw [oldObject, newObject] at properties
          exact ⟨fuel, name, properties⟩
        · intro oldItems _ _ newItems _ _ oldArray newArray
          subst oldArray
          subst newArray
          exact ⟨fuel, _, _, items⟩

theorem checkEnumNotNarrowed_keeps {name : String}
    (passed : checkEnumNotNarrowed name oldSchema newSchema = .pass) (oldPlain : isPlain oldSchema = true)
    (newPlain : isPlain newSchema = true) (restricted : declaredEnum newSchema ≠ []) :
    declaredEnum oldSchema ≠ [] ∧ ∀ value ∈ declaredEnum oldSchema, value ∈ declaredEnum newSchema := by
  have values {schema : Schema} (plain : isPlain schema = true) (some' : declaredEnum schema ≠ []) :
      enumValues schema = some (sortedSet (declaredEnum schema)) := by
    cases schema with
    | scalar type enumeration =>
        have filled : enumeration.isEmpty = false := by simpa [declaredEnum] using some'
        simp [enumValues, filled, declaredEnum]
    | other => cases plain
    | _ => exact absurd rfl some'
  have unrestricted {schema : Schema} (none' : declaredEnum schema = []) : enumValues schema = none := by
    cases schema with
    | scalar type enumeration =>
        have empty : enumeration = [] := none'
        simp [enumValues, empty]
    | _ => rfl
  rw [checkEnumNotNarrowed, values newPlain restricted] at passed
  by_cases free : declaredEnum oldSchema = []
  · rw [unrestricted free] at passed
    cases passed
  · refine ⟨free, fun value among => ?_⟩
    rw [values oldPlain free] at passed
    by_contra gone
    have held : value ∈ (sortedSet (declaredEnum oldSchema)).filter
        (· ∉ sortedSet (declaredEnum newSchema)) := by
      refine List.mem_filter.mpr ⟨?_, ?_⟩
      · simpa [sortedSet] using among
      · simpa [sortedSet] using gone
    dsimp only at passed
    split at passed
    · cases passed
    · rename_i none'
      rw [none'] at held
      cases held

/-- A plain schema with properties is an object. -/
theorem extractObjectProperties_of_plain {schema : Schema} {name : String}
    {reference : ReferenceOr Schema} (plain : isPlain schema = true)
    (has : Entries.get? (declaredProperties schema) name = some reference) :
    extractObjectProperties schema = some (declaredProperties schema) := by
  cases schema with
  | object => rfl
  | other => cases plain
  | _ => cases has

/-- A plain schema of the type of an object is one. -/
theorem extractObjectProperties_of_type {schema other : Schema}
    {properties : Entries String (ReferenceOr Schema)}
    (object : extractObjectProperties schema = some properties)
    (same : describeSchemaType schema = describeSchemaType other) :
    extractObjectProperties other = some (declaredProperties other) := by
  cases schema with
  | object =>
      cases other with
      | object => rfl
      | scalar type => cases type <;> exact absurd same (by simp [describeSchemaType])
      | _ => exact absurd same (by simp [describeSchemaType])
  | _ => cases object

theorem declaredRequired_of_object {schema : Schema} {properties : Entries String (ReferenceOr Schema)}
    (object : extractObjectProperties schema = some properties) :
    extractRequiredFields schema = declaredRequired schema := by
  cases schema with
  | object => rfl
  | _ => cases object

theorem object_of_required {schema : Schema} {name : String} (plain : isPlain schema = true)
    (required : name ∈ declaredRequired schema) :
    extractObjectProperties schema = some (declaredProperties schema) := by
  cases schema with
  | object => rfl
  | other => cases plain
  | _ => cases required

/-- Where both schemas are plain, a comparison that passes finds everything kept. -/
theorem Passed.keeps (passed : Passed old new isRequest oldSchema newSchema)
    (oldPlain : isPlain oldSchema = true) (newPlain : isPlain newSchema = true) :
    Keeps isRequest oldSchema newSchema := by
  obtain ⟨typed, enumerated, objects, _⟩ := passed.inv
  have same := typed oldPlain newPlain
  constructor
  · intro name reference has lasting
    have oldObject := extractObjectProperties_of_plain oldPlain has
    have newObject := extractObjectProperties_of_type oldObject same
    obtain ⟨fuel, label, checked⟩ := objects _ _ oldObject newObject
    rw [checkProperties, Verdict.andThen_eq_pass, Verdict.all_eq_pass] at checked
    have kept := checked.1 _ (Entries.mem_of_get? has)
    by_contra gone
    rw [Option.not_isSome_iff_eq_none] at gone
    simp [gone, lasting] at kept
  · exact fun _ _ => same
  · intro request name required
    have newObject := object_of_required newPlain required
    have oldObject := extractObjectProperties_of_type newObject same.symm
    obtain ⟨fuel, label, checked⟩ := objects _ _ oldObject newObject
    rw [checkProperties, Verdict.andThen_eq_pass, Verdict.andThen_eq_pass, Verdict.all_eq_pass,
      Verdict.all_eq_pass, declaredRequired_of_object oldObject,
      declaredRequired_of_object newObject] at checked
    have already := checked.2.1 name required
    by_contra fresh
    simp [request, fresh] at already
  · intro request restricted
    obtain ⟨label, checked⟩ := enumerated request
    exact checkEnumNotNarrowed_keeps checked oldPlain newPlain restricted

theorem Covered.keeps (covered : Covered old new isRequest oldSchema newSchema)
    (oldPlain : isPlain oldSchema = true) (newPlain : isPlain newSchema = true) :
    Keeps isRequest oldSchema newSchema := by
  obtain ⟨checked, atLeast, passed⟩ := covered
  exact (passed.keeps oldPlain newPlain).of_request atLeast

/-- A component that both documents give in place was compared under its name. -/
theorem Covered.component {name : String} (accepted : checkOpenapiCompatible external old new = .pass)
    (oldNamed : schemaNamed old name = some (.item oldSchema))
    (newNamed : schemaNamed new name = some (.item newSchema))
    (strict : isRequest = true → name ∈ collectRequestSchemas external new) :
    Covered old new isRequest oldSchema newSchema := by
  rw [checkOpenapiCompatible, Verdict.andThen_eq_pass, Verdict.all_eq_pass] at accepted
  have named := accepted.1 _ (mem_collectSchemaMap_iff.mpr oldNamed)
  rw [checkNamedSchema, get?_collectSchemaMap newNamed] at named
  exact ⟨_, fun request => decide_eq_true (strict request), _, _, named⟩

variable {oldInside newInside : ReferenceOr Schema} {oldChild newChild : Schema}

/-- Where the comparison extends to, what lies inside was compared. -/
theorem Covered.inside {checked : Bool} {fuel : ℕ} {name : String} {changed : String → String → String}
    (accepted : checkOpenapiCompatible external old new = .pass)
    (atLeast : isRequest = true → checked = true)
    (passed : checkSubschemaCompatible (old, new) (checkSchemaCompatible (old, new) fuel) name oldInside
      newInside checked changed = .pass)
    (extended : extendsTo external old new isRequest oldSchema newSchema oldInside newInside = true)
    (oldMeans : SchemaMeans old oldInside oldChild) (newMeans : SchemaMeans new newInside newChild) :
    Covered old new isRequest oldChild newChild := by
  simp only [extendsTo, Bool.and_eq_true] at extended
  obtain ⟨⟨⟨_, oldShort⟩, newShort⟩, strict⟩ := extended
  have oldResolved := resolveSchema_of_oneStep oldMeans oldShort
  have newResolved := resolveSchema_of_oneStep newMeans newShort
  unfold checkSubschemaCompatible at passed
  cases oldInside with
  | item oldItem =>
      cases newInside with
      | item newItem =>
          cases oldResolved
          cases newResolved
          dsimp only at passed
          split at passed
          · cases passed
          · exact ⟨checked, atLeast, fuel, _, passed⟩
      | reference target =>
          simp only [oldResolved, newResolved] at passed
          exact ⟨checked, atLeast, fuel, _, passed⟩
  | reference oldTarget =>
      cases newInside with
      | item newItem =>
          simp only [oldResolved, newResolved] at passed
          exact ⟨checked, atLeast, fuel, _, passed⟩
      | reference newTarget =>
          dsimp only at passed strict
          split at passed
          · rename_i same
            have target : oldTarget = newTarget := same
            subst target
            rcases resolveSchema_step oldResolved with other | ⟨_, name, given, stripped, oldNamed⟩
            · cases other
            · cases given
              rcases resolveSchema_step newResolved with other | ⟨_, _, given, again, newNamed⟩
              · cases other
              · cases given
                rw [stripped] at again
                cases again
                refine Covered.component accepted oldNamed newNamed fun request => ?_
                simpa [request, comparedAsRequest, stripped] using strict
          · cases passed

theorem Covered.property {name : String} (accepted : checkOpenapiCompatible external old new = .pass)
    (covered : Covered old new isRequest oldSchema newSchema)
    (oldHas : Entries.get? (declaredProperties oldSchema) name = some oldInside)
    (newHas : Entries.get? (declaredProperties newSchema) name = some newInside)
    (extended : extendsTo external old new isRequest oldSchema newSchema oldInside newInside = true)
    (oldMeans : SchemaMeans old oldInside oldChild) (newMeans : SchemaMeans new newInside newChild) :
    Covered old new isRequest oldChild newChild := by
  obtain ⟨checked, atLeast, passed⟩ := covered
  obtain ⟨_, _, objects, _⟩ := passed.inv
  have plain := extended
  simp only [extendsTo, Bool.and_eq_true] at plain
  obtain ⟨⟨⟨⟨oldPlain, newPlain⟩, _⟩, _⟩, _⟩ := plain
  obtain ⟨fuel, label, all⟩ := objects _ _ (extractObjectProperties_of_plain oldPlain oldHas)
    (extractObjectProperties_of_plain newPlain newHas)
  rw [checkProperties, Verdict.andThen_eq_pass, Verdict.andThen_eq_pass] at all
  have each := (Verdict.all_eq_pass _ _).mp all.2.2 _ (Entries.mem_of_get? oldHas)
  simp only [newHas] at each
  exact Covered.inside accepted atLeast each extended oldMeans newMeans

theorem Covered.items (accepted : checkOpenapiCompatible external old new = .pass)
    (covered : Covered old new isRequest oldSchema newSchema)
    (oldHas : declaredItems oldSchema = some oldInside) (newHas : declaredItems newSchema = some newInside)
    (extended : extendsTo external old new isRequest oldSchema newSchema oldInside newInside = true)
    (oldMeans : SchemaMeans old oldInside oldChild) (newMeans : SchemaMeans new newInside newChild) :
    Covered old new isRequest oldChild newChild := by
  obtain ⟨checked, atLeast, passed⟩ := covered
  obtain ⟨_, _, _, arrays⟩ := passed.inv
  have plain := extended
  simp only [extendsTo, Bool.and_eq_true] at plain
  obtain ⟨⟨⟨⟨oldPlain, newPlain⟩, _⟩, _⟩, _⟩ := plain
  have array {schema : Schema} {inside : ReferenceOr Schema} (plain : isPlain schema = true)
      (has : declaredItems schema = some inside) :
      ∃ deprecated rest, schema = .array (some inside) deprecated rest := by
    cases schema with
    | array items deprecated rest =>
        cases has
        exact ⟨deprecated, rest, rfl⟩
    | other => cases plain
    | _ => cases has
  obtain ⟨_, _, oldArray⟩ := array oldPlain oldHas
  obtain ⟨_, _, newArray⟩ := array newPlain newHas
  obtain ⟨fuel, label, changed, each⟩ := arrays _ _ _ _ _ _ oldArray newArray
  exact Covered.inside accepted atLeast each extended oldMeans newMeans

end Comparison

section Roots

variable {external : External} {old new : OpenApi} {oldItem newItem : PathItem}
  {oldOp newOp : Operation}

/-- What is checked of an operation that both documents have. -/
theorem checkOperation_of_accepted {path : String} {method : Method}
    (accepted : checkOpenapiCompatible external old new = .pass)
    (oldPath : old.paths.get? path = some (.item oldItem))
    (newPath : new.paths.get? path = some (.item newItem))
    (oldMethod : oldItem.operation method = some oldOp)
    (newMethod : newItem.operation method = some newOp) :
    ∃ operation, checkParametersCompatible operation (collectParameters external old oldItem oldOp)
        (collectParameters external new newItem newOp) old new = .pass ∧
      checkRequestBody operation old new oldOp newOp = .pass ∧
      checkResponseBodies operation old new oldOp newOp = .pass := by
  rw [checkOpenapiCompatible, Verdict.andThen_eq_pass, Verdict.all_eq_pass, Verdict.all_eq_pass] at accepted
  have atPath := accepted.2 _ (Entries.mem_of_get? oldPath)
  simp only [checkPathCompatible, newPath, checkOperationsCompatible, Verdict.all_eq_pass] at atPath
  have listed : (method, oldOp) ∈ getMethods oldItem :=
    List.mem_filterMap.mpr ⟨method, method.mem_all, by rw [oldMethod]; rfl⟩
  have atMethod := atPath _ listed
  simp only [checkOperationCompatible, newMethod, Verdict.andThen_eq_pass] at atMethod
  exact ⟨_, atMethod.2⟩

variable {oldRef newRef : ReferenceOr Schema} {oldSchema newSchema : Schema}

theorem Covered.ofContent {label mediaType : String} {oldContent newContent : Entries String MediaType}
    {isRequest : Bool}
    (passed : checkContentCompatible label old new oldContent newContent isRequest = .pass)
    (oldHolds : ContentHolds oldContent mediaType oldRef)
    (newHolds : ContentHolds newContent mediaType newRef)
    (oldResolved : resolveSchema old oldRef = some oldSchema)
    (newResolved : resolveSchema new newRef = some newSchema) :
    Covered old new isRequest oldSchema newSchema := by
  obtain ⟨oldMedia, oldHas, oldGiven⟩ := oldHolds
  obtain ⟨newMedia, newHas, newGiven⟩ := newHolds
  have each := (Verdict.all_eq_pass _ _).mp passed _ (Entries.mem_of_get? oldHas)
  simp only [newHas, Option.bind_some, newGiven, oldGiven, oldResolved, newResolved] at each
  exact ⟨isRequest, id, _, _, each⟩

theorem ReferenceOr.eq_item {Node : Type} {start : String} {find : String → Option (ReferenceOr Node)}
    {given : ReferenceOr Node} {node : Node} (means : AliasMeans start find given node)
    (inPlace : ReferenceOr.isItem given = true) : given = .item node := by
  cases means with
  | item => rfl
  | reference => cases inPlace

/-- The schemas that an operation of both documents holds at one place were compared, where the
comparison looks. -/
theorem Covered.root {path : String} {method : Method} {place : OperationPlace}
    (accepted : checkOpenapiCompatible external old new = .pass)
    (oldPath : old.paths.get? path = some (.item oldItem))
    (newPath : new.paths.get? path = some (.item newItem))
    (oldMethod : oldItem.operation method = some oldOp)
    (newMethod : newItem.operation method = some newOp)
    (oldHolds : PlaceHolds external old oldItem oldOp place true oldRef)
    (newHolds : PlaceHolds external new newItem newOp place true newRef)
    (oldResolved : resolveSchema old oldRef = some oldSchema)
    (newResolved : resolveSchema new newRef = some newSchema) :
    Covered old new place.isRequest oldSchema newSchema := by
  obtain ⟨operation, parameters, body, responses⟩ :=
    checkOperation_of_accepted accepted oldPath newPath oldMethod newMethod
  cases place with
  | parameter key =>
      obtain ⟨oldGiven, oldParam, oldTakes, oldHas, oldShort⟩ := oldHolds
      obtain ⟨newGiven, newParam, newTakes, newHas, newShort⟩ := newHolds
      have oldFound := taken_collectParameters oldTakes oldShort.symm
      have newFound := taken_collectParameters newTakes newShort.symm
      rw [checkParametersCompatible, Verdict.andThen_eq_pass, Verdict.all_eq_pass] at parameters
      have kept := parameters.1 _ (Entries.mem_of_get? oldFound)
      simp only [checkParameterKept, newFound] at kept
      split at kept
      · cases kept
      · simp only [oldHas, newHas, Option.bind_some, oldResolved, newResolved] at kept
        exact ⟨true, fun _ => rfl, _, _, kept⟩
  | parameterContent key mediaType =>
      obtain ⟨_, _, _, _, unseen⟩ := oldHolds
      cases unseen
  | body mediaType =>
      obtain ⟨oldGiven, oldBody, oldHas, oldMeans, oldContent, oldInPlace⟩ := oldHolds
      obtain ⟨newGiven, newBody, newHas, newMeans, newContent, newInPlace⟩ := newHolds
      rw [ReferenceOr.eq_item oldMeans oldInPlace.symm] at oldHas
      rw [ReferenceOr.eq_item newMeans newInPlace.symm] at newHas
      simp only [checkRequestBody, oldHas, newHas] at body
      exact Covered.ofContent body oldContent newContent oldResolved newResolved
  | response status mediaType =>
      obtain ⟨oldGiven, oldResponse, oldHas, oldMeans, oldContent, oldSeen⟩ := oldHolds
      obtain ⟨newGiven, newResponse, newHas, newMeans, newContent, newSeen⟩ := newHolds
      cases status with
      | none => cases oldSeen
      | some status =>
          rw [ReferenceOr.eq_item oldMeans oldSeen.symm] at oldHas
          rw [ReferenceOr.eq_item newMeans newSeen.symm] at newHas
          have found : Entries.get? newOp.responses status = some (.item newResponse) := newHas
          have each := (Verdict.all_eq_pass _ _).mp responses _ (Entries.mem_of_get? oldHas)
          simp only [found] at each
          exact Covered.ofContent each oldContent newContent oldResolved newResolved

/-- Two schemas at a position that the comparison came all the way to were compared. -/
theorem Position.covered {compared isRequest : Bool}
    (accepted : checkOpenapiCompatible external old new = .pass)
    (position : Position external old new compared isRequest oldSchema newSchema)
    (reached : compared = true) : Covered old new isRequest oldSchema newSchema := by
  induction position with
  | root oldPath newPath oldMethod newMethod oldHolds newHolds oldMeans newMeans =>
      simp only [Bool.and_eq_true] at reached
      obtain ⟨⟨⟨rfl, rfl⟩, oldShort⟩, newShort⟩ := reached
      exact Covered.root accepted oldPath newPath oldMethod newMethod oldHolds newHolds
        (resolveSchema_of_oneStep oldMeans oldShort) (resolveSchema_of_oneStep newMeans newShort)
  | property above oldHas newHas oldMeans newMeans ih =>
      obtain ⟨upTo, extended⟩ := Bool.and_eq_true_iff.mp reached
      exact Covered.property accepted (ih upTo) oldHas newHas extended oldMeans newMeans
  | items above oldHas newHas oldMeans newMeans ih =>
      obtain ⟨upTo, extended⟩ := Bool.and_eq_true_iff.mp reached
      exact Covered.items accepted (ih upTo) oldHas newHas extended oldMeans newMeans

/-- An accepted change keeps every position of the operations both documents have just when it keeps
those that the comparison does not come to and those where a schema has no plain type. -/
theorem positions_kept_iff (external : External) (old new : OpenApi)
    (accepted : checkOpenapiCompatible external old new = .pass) :
    (∀ compared isRequest oldSchema newSchema,
        Position external old new compared isRequest oldSchema newSchema →
        Keeps isRequest oldSchema newSchema) ↔
      ∀ compared isRequest oldSchema newSchema,
        Position external old new compared isRequest oldSchema newSchema →
        (compared && isPlain oldSchema && isPlain newSchema) = false →
        Keeps isRequest oldSchema newSchema := by
  constructor
  · intro kept compared isRequest oldSchema newSchema position _
    exact kept compared isRequest oldSchema newSchema position
  · intro unseen compared isRequest oldSchema newSchema position
    cases seen : compared && isPlain oldSchema && isPlain newSchema with
    | false => exact unseen compared isRequest oldSchema newSchema position seen
    | true =>
        simp only [Bool.and_eq_true] at seen
        exact (Position.covered accepted position seen.1.1).keeps seen.1.2 seen.2

end Roots

section StatusFilter

/-- The states an order may be asked for by. -/
def statusSchema (states : List String) : Schema := .scalar .string states false (.object [])

def filterSchema : Schema :=
  .object [("status", .reference "#/components/schemas/Status")] [] false (.object [])

def filterParameter : Parameter where
  location := .query
  name := "filter"
  required := false
  deprecated := none
  schema := some (.item filterSchema)
  content := []
  rest := .object []

def searchOrders : Operation where
  deprecated := false
  parameters := [.item filterParameter]
  requestBody := none
  responses := []
  defaultResponse := none
  rest := .object []

def searchOrdersItem : PathItem :=
  ⟨fun method => if method = .get then some searchOrders else none, [], .object []⟩

/-- One operation that takes an object whose state is a named schema. -/
def filteredOrders (states : List String) : OpenApi where
  openapi := "3.0.3"
  info := .object []
  servers := .array []
  paths := .ofEntries [("/orders", .item searchOrdersItem)]
  components := some
    { schemas := .ofEntries [("Status", .item (statusSchema states))]
      responses := .empty
      parameters := .empty
      requestBodies := .empty
      others := fun _ => .empty }
  rest := .object []

theorem filteredOrders_accepted :
    checkOpenapiCompatible (asciiPlatform {}) (filteredOrders ["\"open\"", "\"closed\""])
      (filteredOrders ["\"open\""]) = .pass := by decide +kernel

theorem positions_kept_filtered :
    (∀ compared isRequest oldSchema newSchema,
        Position (asciiPlatform {}) (filteredOrders ["\"open\"", "\"closed\""])
          (filteredOrders ["\"open\""]) compared isRequest oldSchema newSchema →
        Keeps isRequest oldSchema newSchema) ↔
      ∀ compared isRequest oldSchema newSchema,
        Position (asciiPlatform {}) (filteredOrders ["\"open\"", "\"closed\""])
          (filteredOrders ["\"open\""]) compared isRequest oldSchema newSchema →
        (compared && isPlain oldSchema && isPlain newSchema) = false →
        Keeps isRequest oldSchema newSchema :=
  positions_kept_iff _ _ _ filteredOrders_accepted

theorem filteredOrders_means (states : List String) :
    SchemaMeans (filteredOrders states) (.reference "#/components/schemas/Status")
      (statusSchema states) :=
  .reference (by decide +kernel : stripPrefix "#/components/schemas/" _ = some "Status") rfl (.item _)

theorem searchOrders_holds (states : List String) :
    PlaceHolds (asciiPlatform {}) (filteredOrders states) searchOrdersItem searchOrders
      (.parameter (.query, "filter")) true (.item filterSchema) :=
  ⟨.item filterParameter, filterParameter, ⟨[], [], rfl, .item _, rfl, by simp⟩, rfl, rfl⟩

/-- A parameter whose named part accepts one value less is accepted. -/
theorem narrowed_filter_unseen :
    checkOpenapiCompatible (asciiPlatform {}) (filteredOrders ["\"open\"", "\"closed\""])
        (filteredOrders ["\"open\""]) = .pass ∧
      ∃ compared, Position (asciiPlatform {}) (filteredOrders ["\"open\"", "\"closed\""])
          (filteredOrders ["\"open\""]) compared true (statusSchema ["\"open\"", "\"closed\""])
          (statusSchema ["\"open\""]) ∧
        ¬Keeps true (statusSchema ["\"open\"", "\"closed\""]) (statusSchema ["\"open\""]) := by
  refine ⟨filteredOrders_accepted, ?_⟩
  have listed (states : List String) :
      (filteredOrders states).paths.get? "/orders" = some (.item searchOrdersItem) := rfl
  have searched : searchOrdersItem.operation .get = some searchOrders := rfl
  have status : Entries.get? (declaredProperties filterSchema) "status" =
      some (.reference "#/components/schemas/Status") := rfl
  have filter := Position.root (listed ["\"open\"", "\"closed\""]) (listed ["\"open\""]) searched
    searched (searchOrders_holds _) (searchOrders_holds _) (.item _) (.item _)
  refine ⟨_, .property filter status status (filteredOrders_means _) (filteredOrders_means _), ?_⟩
  intro keeps
  have kept := (keeps.enumeration rfl (by decide)).2 "\"closed\"" (by decide)
  exact absurd kept (by decide)

end StatusFilter
end Sanshain.Guarantees
