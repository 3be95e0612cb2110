import Sanshain.Document.EndpointLoss
import Sanshain.Document.Surface

namespace Sanshain.Document.OpenApiDocument

open Sanshain.Data Sanshain.Domain Sanshain.Text

section Schemas

/-- A schema or a reference that a new document adds to and takes nothing from: the references stay
what they are, an object keeps its properties and may have more, and where requests are sent an
enumeration is not narrowed and nothing becomes required. -/
inductive RefExtends (isRequest : Bool) : ReferenceOr Schema → ReferenceOr Schema → Prop
  | reference (target : String) : RefExtends isRequest (.reference target) (.reference target)
  | scalar (type : ScalarType) {oldEnum newEnum : List String} {oldDeprecated newDeprecated : Bool}
      {oldRest newRest : Value}
      (wider : isRequest = true → newEnum = [] ∨ oldEnum ≠ [] ∧ ∀ value ∈ oldEnum, value ∈ newEnum) :
      RefExtends isRequest (.item (.scalar type oldEnum oldDeprecated oldRest))
        (.item (.scalar type newEnum newDeprecated newRest))
  | array {oldItems newItems : ReferenceOr Schema} {oldDeprecated newDeprecated : Bool}
      {oldRest newRest : Value} (items : RefExtends isRequest oldItems newItems) :
      RefExtends isRequest (.item (.array (some oldItems) oldDeprecated oldRest))
        (.item (.array (some newItems) newDeprecated newRest))
  | anyArray {oldDeprecated newDeprecated : Bool} {oldRest newRest : Value} :
      RefExtends isRequest (.item (.array none oldDeprecated oldRest))
        (.item (.array none newDeprecated newRest))
  | object {oldProps newProps : List (String × ReferenceOr Schema)} {oldRequired newRequired : List String}
      {oldDeprecated newDeprecated : Bool} {oldRest newRest : Value}
      (kept : String × ReferenceOr Schema → ReferenceOr Schema)
      (found : ∀ prop ∈ oldProps, Entries.get? newProps prop.1 = some (kept prop))
      (extended : ∀ prop ∈ oldProps, RefExtends isRequest prop.2 (kept prop))
      (optional : isRequest = true → ∀ field ∈ newRequired, field ∈ oldRequired) :
      RefExtends isRequest (.item (.object oldProps oldRequired oldDeprecated oldRest))
        (.item (.object newProps newRequired newDeprecated newRest))
  | other {oldProps newProps : List (String × ReferenceOr Schema)} {oldRequired newRequired : List String}
      {oldItems newItems : Option (ReferenceOr Schema)} {oldEnum newEnum : List String}
      {oldDeprecated newDeprecated : Bool} {oldRest newRest : Value} :
      RefExtends isRequest (.item (.other oldProps oldRequired oldItems oldEnum oldDeprecated oldRest))
        (.item (.other newProps newRequired newItems newEnum newDeprecated newRest))

abbrev SchemaExtends (isRequest : Bool) (old new : Schema) : Prop :=
  RefExtends isRequest (.item old) (.item new)

variable {isRequest : Bool} {specs : OpenApi × OpenApi}

theorem describeSchemaType_scalar (type : ScalarType) {oldEnum newEnum : List String}
    {oldDeprecated newDeprecated : Bool} {oldRest newRest : Value} :
    describeSchemaType (.scalar type oldEnum oldDeprecated oldRest) =
      describeSchemaType (.scalar type newEnum newDeprecated newRest) := by
  cases type <;> rfl

theorem checkEnumNotNarrowed_wider (name : String) {type : ScalarType} {oldEnum newEnum : List String}
    {oldDeprecated newDeprecated : Bool} {oldRest newRest : Value}
    (wider : newEnum = [] ∨ oldEnum ≠ [] ∧ ∀ value ∈ oldEnum, value ∈ newEnum) :
    checkEnumNotNarrowed name (.scalar type oldEnum oldDeprecated oldRest)
      (.scalar type newEnum newDeprecated newRest) = .pass := by
  obtain rfl | ⟨some', wider⟩ := wider
  · cases oldEnum <;> rfl
  · obtain ⟨first, rest, rfl⟩ := List.exists_cons_of_ne_nil some'
    obtain ⟨other, more, rfl⟩ := List.exists_cons_of_ne_nil
      (List.ne_nil_of_mem (wider first List.mem_cons_self))
    have none' : (sortedSet (first :: rest)).filter (· ∉ sortedSet (other :: more)) = [] := by
      refine List.filter_eq_nil_iff.mpr fun value among => ?_
      have held : value ∈ first :: rest := by simpa [sortedSet] using among
      simp [sortedSet, List.mem_cons.mp (wider value held)]
    simp only [checkEnumNotNarrowed, enumValues, List.isEmpty_cons, Bool.false_eq_true, if_false, none']

theorem schemaCount_pos (schema : Schema) : 0 < schemaCount schema := by
  unfold schemaCount
  split <;> omega

/-- How deep a comparison may have to go. -/
def refCount : ReferenceOr Schema → Nat
  | .item schema => schemaCount schema
  | .reference _ => 0

theorem refCount_items {items : ReferenceOr Schema} {deprecated : Bool} {rest : Value} :
    refCount items < schemaCount (.array (some items) deprecated rest) := by
  cases items <;> simp [refCount, schemaCount]

theorem refCount_le_properties {properties : List (String × ReferenceOr Schema)}
    {prop : String × ReferenceOr Schema} (among : prop ∈ properties) :
    refCount prop.2 ≤ schemaCountProperties properties := by
  induction properties with
  | nil => cases among
  | cons first rest ih =>
      obtain ⟨name, reference | inside⟩ := first
      · obtain rfl | among := List.mem_cons.mp among
        · exact Nat.zero_le _
        · exact ih among
      · obtain rfl | among := List.mem_cons.mp among
        · exact Nat.le_add_right _ _
        · exact (ih among).trans (Nat.le_add_left _ _)

/-- A comparison of schemas in place is what it compares first, and then what is inside them. -/
theorem checkSchemaCompatible_succ {fuel : Nat} {name : String} {old new : Schema}
    (type : describeSchemaType old = describeSchemaType new)
    (enumeration : isRequest = true → checkEnumNotNarrowed name old new = .pass)
    (properties : ∀ oldProps newProps, extractObjectProperties old = some oldProps →
      extractObjectProperties new = some newProps →
        checkProperties specs (checkSchemaCompatible specs fuel) name oldProps newProps
          (extractRequiredFields old) (extractRequiredFields new) isRequest = .pass)
    (items : ∀ oldItems newItems oldDeprecated newDeprecated oldRest newRest changed,
      old = .array (some oldItems) oldDeprecated oldRest →
      new = .array (some newItems) newDeprecated newRest →
        checkSubschemaCompatible specs (checkSchemaCompatible specs fuel) (name ++ "[]") oldItems newItems
          isRequest changed = .pass) :
    checkSchemaCompatible specs (fuel + 1) name old new isRequest = .pass := by
  unfold checkSchemaCompatible
  dsimp only
  rw [if_neg (fun differ => differ.1 type), Verdict.andThen_eq_pass, Verdict.andThen_eq_pass]
  refine ⟨?_, ?_, ?_⟩
  · split
    · exact enumeration ‹_›
    · rfl
  · split
    · exact properties _ _ ‹_› ‹_›
    · rfl
  · split
    · exact items _ _ _ _ _ _ _ rfl rfl
    · rfl

/-- Two schemas in place that are of one type are compared as such. -/
theorem checkSubschemaCompatible_items {compare : String → Schema → Schema → Bool → Verdict} {name : String}
    {old new : Schema} {changed : String → String → String}
    (type : describeSchemaType old = describeSchemaType new)
    (compared : compare name old new isRequest = .pass) :
    checkSubschemaCompatible specs compare name (.item old) (.item new) isRequest changed = .pass := by
  unfold checkSubschemaCompatible
  dsimp only [describeBoxedRef]
  rw [if_neg (fun differ => differ.1 type), compared]

/-- A schema that is only added to passes, from any depth that is enough for what it was. -/
theorem RefExtends.pass {old new : ReferenceOr Schema} (extended : RefExtends isRequest old new)
    {fuel : Nat} (enough : refCount old ≤ fuel) (name : String) (changed : String → String → String) :
    checkSubschemaCompatible specs (checkSchemaCompatible specs fuel) name old new isRequest changed =
      .pass := by
  induction extended generalizing fuel name changed with
  | reference target =>
      unfold checkSubschemaCompatible
      simp
  | scalar type wider =>
      obtain ⟨fuel, rfl⟩ := Nat.exists_eq_succ_of_ne_zero (Nat.one_le_iff_ne_zero.mp enough)
      refine checkSubschemaCompatible_items (describeSchemaType_scalar type)
        (checkSchemaCompatible_succ (describeSchemaType_scalar type)
          (fun request => checkEnumNotNarrowed_wider _ (wider request)) ?_ ?_)
      · intro _ _ object
        cases object
      · intro _ _ _ _ _ _ _ array
        cases array
  | array items ih =>
      obtain ⟨fuel, rfl⟩ := Nat.exists_eq_succ_of_ne_zero
        (Nat.one_le_iff_ne_zero.mp ((schemaCount_pos _).trans_le enough))
      refine checkSubschemaCompatible_items rfl (checkSchemaCompatible_succ rfl (fun _ => rfl) ?_ ?_)
      · intro _ _ object
        cases object
      · intro _ _ _ _ _ _ _ oldArray newArray
        cases oldArray
        cases newArray
        exact ih (Nat.le_of_lt_succ (refCount_items.trans_le enough)) _ _
  | anyArray =>
      obtain ⟨fuel, rfl⟩ := Nat.exists_eq_succ_of_ne_zero
        (Nat.one_le_iff_ne_zero.mp ((schemaCount_pos _).trans_le enough))
      refine checkSubschemaCompatible_items rfl (checkSchemaCompatible_succ rfl (fun _ => rfl) ?_ ?_)
      · intro _ _ object
        cases object
      · intro _ _ _ _ _ _ _ array
        cases array
  | object kept found extended optional ih =>
      obtain ⟨fuel, rfl⟩ := Nat.exists_eq_succ_of_ne_zero
        (Nat.one_le_iff_ne_zero.mp ((schemaCount_pos _).trans_le enough))
      refine checkSubschemaCompatible_items rfl (checkSchemaCompatible_succ rfl (fun _ => rfl) ?_ ?_)
      · intro oldProps newProps oldObject newObject
        cases oldObject
        cases newObject
        simp only [checkProperties, Verdict.andThen_eq_pass, Verdict.all_eq_pass]
        refine ⟨fun prop among => ?_, fun field among => ?_, fun prop among => ?_⟩
        · rw [found prop among]
          rfl
        · rw [if_neg]
          intro added
          simp only [Bool.and_eq_true, decide_eq_true_eq] at added
          exact added.2 (optional added.1 field among)
        · rw [found prop among]
          exact ih prop among (Nat.le_of_lt_succ
            (Nat.lt_of_le_of_lt (refCount_le_properties among) enough)) _ _
      · intro _ _ _ _ _ _ _ array
        cases array
  | other =>
      obtain ⟨fuel, rfl⟩ := Nat.exists_eq_succ_of_ne_zero
        (Nat.one_le_iff_ne_zero.mp ((schemaCount_pos _).trans_le enough))
      refine checkSubschemaCompatible_items rfl (checkSchemaCompatible_succ rfl (fun _ => rfl) ?_ ?_)
      · intro _ _ object
        cases object
      · intro _ _ _ _ _ _ _ array
        cases array

theorem le_walkBound (old new : OpenApi) (oldSchema newSchema : Schema) :
    schemaCount oldSchema ≤ walkBound old new oldSchema newSchema := by
  have some' := schemaCount_pos newSchema
  calc schemaCount oldSchema
      ≤ (schemaCountNamed old + schemaCount oldSchema) * 1 := by omega
    _ ≤ (schemaCountNamed old + schemaCount oldSchema) *
          (schemaCountNamed new + schemaCount newSchema) := Nat.mul_le_mul_left _ (by omega)
    _ ≤ walkBound old new oldSchema newSchema := Nat.le_succ _

theorem SchemaExtends.pass {oldSchema newSchema : Schema}
    (extended : SchemaExtends isRequest oldSchema newSchema) (old new : OpenApi) (name : String) :
    checkSchema old new name oldSchema newSchema isRequest = .pass := by
  have passed := @RefExtends.pass isRequest (old, new) _ _ extended _
    (le_walkBound old new oldSchema newSchema) name fun _ _ => ""
  unfold checkSubschemaCompatible at passed
  dsimp only at passed
  split at passed
  · cases passed
  · exact passed

end Schemas

section Documents

variable (external : External) (old new : OpenApi)

/-- A position whose schema, where both documents have one, is only added to. -/
def PositionExtends (isRequest : Bool) (oldRef newRef : Option (ReferenceOr Schema)) : Prop :=
  ∀ oldSchema newSchema, oldRef.bind (resolveSchema old) = some oldSchema →
    newRef.bind (resolveSchema new) = some newSchema → SchemaExtends isRequest oldSchema newSchema

def ContentExtends (isRequest : Bool) (oldContent newContent : Entries String MediaType) : Prop :=
  ∀ entry ∈ oldContent, ∀ media, Entries.get? newContent entry.1 = some media →
    PositionExtends old new isRequest entry.2.schema media.schema

/-- An operation that is only added to: its responses stay, its parameters stay and do not become
required, and the added ones are optional. -/
structure OperationExtends (oldItem newItem : PathItem) (oldOp newOp : Operation) : Prop where
  responses : ∀ entry ∈ oldOp.responses, ∃ response, Entries.get? newOp.responses entry.1 = some response ∧
    ∀ oldResponse newResponse, entry.2 = .item oldResponse → response = .item newResponse →
      ContentExtends old new false oldResponse.content newResponse.content
  body : ∀ oldBody newBody, oldOp.requestBody = some (.item oldBody) →
    newOp.requestBody = some (.item newBody) → ContentExtends old new true oldBody.content newBody.content
  parameters : ∀ entry ∈ collectParameters external old oldItem oldOp, ∃ parameter,
    Entries.get? (collectParameters external new newItem newOp) entry.1 = some parameter ∧
      (parameter.required = true → entry.1.1 ≠ .path → entry.2.required = true) ∧
        PositionExtends old new true entry.2.schema parameter.schema
  optional : ∀ entry ∈ collectParameters external new newItem newOp,
    (Entries.get? (collectParameters external old oldItem oldOp) entry.1).isNone → entry.1.1 ≠ .path →
      entry.2.required = false

/-- A document that is only added to: its named schemas and its operations stay, and a schema that
requests use is added to as requests allow. -/
structure DocumentExtends : Prop where
  schemas : ∀ entry ∈ collectSchemaMap old, ∀ schema,
    Entries.get? (collectSchemaMap new) entry.1 = some schema →
      SchemaExtends (decide (entry.1 ∈ collectRequestSchemas external new)) entry.2 schema
  operations : ∀ path oldItem, (path, .item oldItem) ∈ old.paths.entries →
    ∃ newItem, new.paths.get? path = some (.item newItem) ∧
      ∀ method oldOp, oldItem.operation method = some oldOp →
        ∃ newOp, newItem.operation method = some newOp ∧
          OperationExtends external old new oldItem newItem oldOp newOp

variable {external old new}

theorem PositionExtends.pass {isRequest : Bool} {oldRef newRef : Option (ReferenceOr Schema)}
    (extended : PositionExtends old new isRequest oldRef newRef) {oldSchema newSchema : Schema}
    (oldFound : oldRef.bind (resolveSchema old) = some oldSchema)
    (newFound : newRef.bind (resolveSchema new) = some newSchema) (name : String) :
    checkSchema old new name oldSchema newSchema isRequest = .pass :=
  (extended oldSchema newSchema oldFound newFound).pass old new name

theorem ContentExtends.pass {isRequest : Bool} {oldContent newContent : Entries String MediaType}
    (extended : ContentExtends old new isRequest oldContent newContent) (label : String) :
    checkContentCompatible label old new oldContent newContent isRequest = .pass := by
  rw [checkContentCompatible, Verdict.all_eq_pass]
  intro entry among
  split
  · rename_i newSchema oldSchema newFound oldFound
    obtain ⟨newRef, held, newFound⟩ := Option.bind_eq_some_iff.mp newFound
    obtain ⟨media, there, held⟩ := Option.bind_eq_some_iff.mp held
    exact (extended entry among media there).pass oldFound
      (Option.bind_eq_some_iff.mpr ⟨newRef, held, newFound⟩) _
  · rfl

section Operations

variable {oldItem newItem : PathItem} {oldOp newOp : Operation}

theorem OperationExtends.parameters_pass
    (extended : OperationExtends external old new oldItem newItem oldOp newOp) (operation : String) :
    checkParametersCompatible operation (collectParameters external old oldItem oldOp)
      (collectParameters external new newItem newOp) old new = .pass := by
  rw [checkParametersCompatible, Verdict.andThen_eq_pass, Verdict.all_eq_pass, Verdict.all_eq_pass]
  constructor
  · intro entry among
    obtain ⟨parameter, there, required, position⟩ := extended.parameters entry among
    unfold checkParameterKept
    dsimp only
    rw [there]
    dsimp only
    split
    · rename_i stricter
      simp only [Bool.and_eq_true, Bool.not_eq_true', decide_eq_true_eq] at stricter
      obtain ⟨⟨now, before⟩, elsewhere⟩ := stricter
      rw [required now elsewhere] at before
      cases before
    · split
      · exact position.pass ‹_› ‹_› _
      · rfl
  · intro entry among
    unfold checkParameterAdded
    rw [if_neg]
    intro imposed
    simp only [Bool.and_eq_true, decide_eq_true_eq] at imposed
    obtain ⟨⟨required, elsewhere⟩, added⟩ := imposed
    rw [extended.optional entry among added elsewhere] at required
    cases required

theorem OperationExtends.responses_kept
    (extended : OperationExtends external old new oldItem newItem oldOp newOp) (operation : String) :
    checkResponsesKept operation oldOp newOp = .pass := by
  rw [checkResponsesKept, Verdict.all_eq_pass]
  intro entry among
  obtain ⟨response, there, -⟩ := extended.responses entry among
  rw [there]
  rfl

theorem OperationExtends.body_pass
    (extended : OperationExtends external old new oldItem newItem oldOp newOp) (operation : String) :
    checkRequestBody operation old new oldOp newOp = .pass := by
  unfold checkRequestBody
  split
  · exact (extended.body _ _ ‹_› ‹_›).pass _
  · rfl

theorem OperationExtends.responses_pass
    (extended : OperationExtends external old new oldItem newItem oldOp newOp) (operation : String) :
    checkResponseBodies operation old new oldOp newOp = .pass := by
  rw [checkResponseBodies, Verdict.all_eq_pass]
  intro entry among
  obtain ⟨response, there, contents⟩ := extended.responses entry among
  split
  · rename_i oldResponse newResponse given found
    rw [there] at found
    exact (contents oldResponse newResponse given (Option.some.inj found)).pass _
  · rfl

end Operations

/-- A document that is only added to is compatible with what it was. -/
theorem DocumentExtends.pass (extended : DocumentExtends external old new) :
    checkOpenapiCompatible external old new = .pass := by
  rw [checkOpenapiCompatible, Verdict.andThen_eq_pass, Verdict.all_eq_pass, Verdict.all_eq_pass]
  constructor
  · intro entry among
    unfold checkNamedSchema
    split
    · rfl
    · exact (extended.schemas entry among _ ‹_›).pass old new _
  · rintro ⟨path, reference | oldItem⟩ among
    · rfl
    · obtain ⟨newItem, there, operations⟩ := extended.operations path oldItem among
      simp only [checkPathCompatible, there]
      rw [checkOperationsCompatible, Verdict.all_eq_pass]
      intro found held
      obtain ⟨newOp, kept, more⟩ := operations found.1 found.2 (mem_getMethods.mp held)
      unfold checkOperationCompatible
      rw [kept]
      dsimp only
      rw [more.responses_kept, more.parameters_pass, more.body_pass, more.responses_pass]
      rfl

end Documents

end Sanshain.Document.OpenApiDocument

namespace Sanshain.Document.AsyncApiDocument

open Sanshain.Data Sanshain.Domain Sanshain.Text

/-- The properties of a payload schema. -/
def propertiesOf (node : Value) : Mapping := ((node.get? "properties").bind Value.asObject).getD []

/-- A payload schema that is only added to: its reference and its type stay, it keeps its properties and
may have more, and its items are only added to. -/
inductive PayloadExtends : Value → Value → Prop
  | intro {old new : Value} (kept : String × Value → Value)
      (reference : (new.get? "$ref").bind Value.asStr = (old.get? "$ref").bind Value.asStr)
      (type : (new.get? "type").bind Value.asStr = (old.get? "type").bind Value.asStr)
      (found : ∀ prop ∈ propertiesOf old,
        (((new.get? "properties").bind Value.asObject).bind fun props => props.get? prop.1) =
          some (kept prop))
      (extended : ∀ prop ∈ propertiesOf old, PayloadExtends prop.2 (kept prop))
      (items : ∀ oldItems newItems, old.get? "items" = some oldItems → new.get? "items" = some newItems →
        PayloadExtends oldItems newItems) : PayloadExtends old new

theorem firstError_eq_ok {Element Error : Type} {check : Element → Except Error Unit}
    {elements : List Element} (each : ∀ element ∈ elements, check element = .ok ()) :
    firstError check elements = .ok () := by
  induction elements with
  | nil => rfl
  | cons element rest ih =>
      rw [firstError, each element List.mem_cons_self]
      exact ih fun other among => each other (List.mem_cons_of_mem _ among)

theorem changedText_of_eq {key : String} {old new : Value}
    (same : (new.get? key).bind Value.asStr = (old.get? key).bind Value.asStr) :
    changedText key old new = none := by
  rw [changedText, same]
  split
  · rename_i first second
    simp_all
  · rfl

/-- A payload schema that is only added to has no mismatch, however deep the walk may go. -/
theorem PayloadExtends.pass {old new : Value} (extended : PayloadExtends old new) (fuel : Nat)
    (path : String) : findSchemaMismatch fuel path old new = .ok () := by
  induction extended generalizing fuel path with
  | intro kept reference type found extended items inside below =>
      cases fuel with
      | zero => rfl
      | succ fuel =>
          rw [findSchemaMismatch, changedText_of_eq reference, changedText_of_eq type]
          dsimp only
          rw [firstError_eq_ok]
          · dsimp only
            split
            · exact below _ _ ‹_› ‹_› fuel _
            · rfl
          · intro prop among
            rw [found prop among]
            exact inside prop among fuel _

/-- A document whose messages stay, each with a payload that is only added to. -/
def MessagesExtend (old new : Value) : Prop :=
  ∀ entry ∈ collectMessages old, ∃ message, (collectMessages new).get? entry.1 = some message ∧
    ∀ oldPayload, entry.2.get? "payload" = some oldPayload →
      ∃ newPayload, message.get? "payload" = some newPayload ∧ PayloadExtends oldPayload newPayload

theorem MessagesExtend.pass {old new : Value} (extended : MessagesExtend old new) :
    firstError (checkMessage (collectMessages new)) (collectMessages old) = .ok () := by
  refine firstError_eq_ok fun entry among => ?_
  obtain ⟨message, there, payloads⟩ := extended entry among
  rw [checkMessage, there]
  dsimp only
  cases given : entry.2.get? "payload" with
  | none => rfl
  | some oldPayload =>
      obtain ⟨newPayload, found, more⟩ := payloads oldPayload given
      rw [found]
      dsimp only
      rw [checkSchemaCompatible, schemaMismatch, more.pass]
      rfl

end Sanshain.Document.AsyncApiDocument

namespace Sanshain.Document.ProtoDocument

open Sanshain.Data Sanshain.Domain

/-- A file whose calls, messages and fields stay. -/
structure FileExtends (external : External) (old new : String) : Prop where
  rpcs : ∀ entry ∈ parseRpcs external old, ∃ rpc, Entries.get? (parseRpcs external new) entry.1 = some rpc ∧
    rpc.request = entry.2.request ∧ rpc.response = entry.2.response
  messages : ∀ entry ∈ parseMessages external old, ∃ message,
    Entries.get? (parseMessages external new) entry.1 = some message ∧
      ∀ own ∈ entry.2.fields, ∃ field, Entries.get? message.fields own.1 = some field ∧
        field.number = own.2.number ∧ field.fieldType = own.2.fieldType ∧ field.label = own.2.label

theorem FileExtends.pass {external : External} {old new : String} (extended : FileExtends external old new) :
    checkBackwardCompatibility external old new = .pass := by
  rw [checkBackwardCompatibility, Verdict.andThen_eq_pass, Verdict.all_eq_pass, Verdict.all_eq_pass]
  constructor
  · intro entry among
    obtain ⟨rpc, there, request, response⟩ := extended.rpcs entry among
    simp [checkRpc, there, request, response]
  · intro entry among
    obtain ⟨message, there, fields⟩ := extended.messages entry among
    simp only [checkMessage, there, Verdict.all_eq_pass]
    intro own held
    obtain ⟨field, found, number, type, label⟩ := fields own held
    simp [checkField, found, number, type, label]

end Sanshain.Document.ProtoDocument
