import Sanshain.Document.Additions
import Sanshain.Document.Resolved
import Sanshain.Guarantees.Classification
import Sanshain.Guarantees.Positions

namespace Sanshain.Guarantees

open Sanshain.Data Sanshain.Domain Sanshain.Document

section Formed

mutual

/-- No object of a schema, at any depth, names a property twice. -/
def SchemaFormed : Schema → Prop
  | .array (some (.item items)) _ _ => SchemaFormed items
  | .object properties _ _ _ => (properties.map Prod.fst).Nodup ∧ PropertiesFormed properties
  | _ => True

def PropertiesFormed : List (String × ReferenceOr Schema) → Prop
  | [] => True
  | (_, .item schema) :: rest => SchemaFormed schema ∧ PropertiesFormed rest
  | (_, .reference _) :: rest => PropertiesFormed rest

end

def RefFormed : ReferenceOr Schema → Prop
  | .item schema => SchemaFormed schema
  | .reference _ => True

def ContentFormed (content : Entries String MediaType) : Prop :=
  content.keys.Nodup ∧ ∀ entry ∈ content, ∀ reference, entry.2.schema = some reference → RefFormed reference

/-- A document as it is read: no mapping repeats a key. -/
structure DocumentFormed (document : OpenApi) : Prop where
  schemas : ∀ name schema, OpenApiDocument.schemaNamed document name = some (.item schema) →
    SchemaFormed schema
  parameters : ∀ path item, (path, .item item) ∈ document.paths.entries →
    ∀ method operation, item.operation method = some operation →
      ∀ given ∈ item.parameters ++ operation.parameters, ∀ parameter,
        OpenApiDocument.resolveParameter document given = some parameter →
          ∀ reference, parameter.schema = some reference → RefFormed reference
  bodies : ∀ path item, (path, .item item) ∈ document.paths.entries →
    ∀ method operation, item.operation method = some operation →
      ∀ body, operation.requestBody = some (.item body) → ContentFormed body.content
  responses : ∀ path item, (path, .item item) ∈ document.paths.entries →
    ∀ method operation, item.operation method = some operation →
      operation.responses.keys.Nodup ∧
        ∀ entry ∈ operation.responses, ∀ response, entry.2 = .item response → ContentFormed response.content

theorem propertyFormed {properties : List (String × ReferenceOr Schema)} (formed : PropertiesFormed properties)
    {prop : String × ReferenceOr Schema} (among : prop ∈ properties) : RefFormed prop.2 := by
  induction properties with
  | nil => cases among
  | cons first rest ih =>
      obtain ⟨name, reference | schema⟩ := first
      · obtain rfl | among := List.mem_cons.mp among
        · trivial
        · exact ih formed among
      · obtain rfl | among := List.mem_cons.mp among
        · exact formed.1
        · exact ih formed.2 among

end Formed

section Itself

open OpenApiDocument

/-- A schema adds to itself. -/
theorem refExtends_itself (isRequest : Bool) (reference : ReferenceOr Schema) (formed : RefFormed reference) :
    RefExtends isRequest reference reference := by
  induction depth : refCount reference using Nat.strong_induction_on generalizing reference with
  | _ depth ih =>
      subst depth
      obtain target | schema := reference
      · exact .reference target
      · cases schema with
        | scalar type enumeration _ _ =>
            refine .scalar type fun _ => ?_
            by_cases free : enumeration = []
            · exact .inl free
            · exact .inr ⟨free, fun _ among => among⟩
        | array items _ _ =>
            cases items with
            | none => exact .anyArray
            | some items =>
                refine .array (ih _ refCount_items items ?_ rfl)
                obtain target | inside := items
                · trivial
                · exact formed
        | object properties _ _ _ =>
            obtain ⟨distinct, inside⟩ := formed
            refine .object Prod.snd (fun prop among => Entries.get?_of_mem distinct among)
              (fun prop among => ih _ ?_ prop.2 (propertyFormed inside among) rfl) fun _ _ among => among
            exact Nat.lt_succ_of_le (refCount_le_properties among)
        | other _ _ _ _ _ _ => exact .other

variable {external : External} {document : OpenApi}

theorem refFormed_named (formed : DocumentFormed document) {reference : ReferenceOr Schema} {schema : Schema}
    (given : RefFormed reference) (resolved : resolveSchema document reference = some schema) :
    SchemaFormed schema := by
  rcases resolveSchema_step resolved with rfl | ⟨target, name, -, -, there⟩
  · exact given
  · exact formed.schemas name schema there

/-- A position adds to itself. -/
theorem positionExtends_itself (formed : DocumentFormed document) (isRequest : Bool)
    {reference : Option (ReferenceOr Schema)} (given : ∀ held, reference = some held → RefFormed held) :
    PositionExtends document document isRequest reference reference := by
  intro oldSchema newSchema oldFound newFound
  rw [oldFound] at newFound
  cases newFound
  obtain ⟨held, same, resolved⟩ := Option.bind_eq_some_iff.mp oldFound
  exact refExtends_itself isRequest (.item oldSchema) (refFormed_named formed (given held same) resolved)

theorem contentExtends_itself (formed : DocumentFormed document) (isRequest : Bool)
    {content : Entries String MediaType} (given : ContentFormed content) :
    ContentExtends document document isRequest content content := by
  intro entry among media found
  rw [Entries.get?_of_mem given.1 among] at found
  cases found
  exact positionExtends_itself formed isRequest (given.2 entry among)

/-- What is inserted into an empty map is what was to be inserted. -/
theorem mem_insertAll_nil {Key Value : Type} [DecidableEq Key] {added : Entries Key Value}
    {entry : Key × Value} (held : entry ∈ Entries.insertAll [] added) : entry ∈ added := by
  have found := Entries.get?_of_mem (Entries.keys_insertAll_nodup (by simp [Entries.keys]) added) held
  rw [Entries.get?_insertAll, Entries.get?_nil, Option.or_none] at found
  exact List.mem_reverse.mp (Entries.mem_of_get? found)

theorem operationExtends_itself (formed : DocumentFormed document) {path : String} {item : PathItem}
    (held : (path, .item item) ∈ document.paths.entries) {method : Method} {operation : Document.Operation}
    (found : item.operation method = some operation) :
    OperationExtends external document document item item operation operation where
  responses entry among := by
    obtain ⟨distinct, contents⟩ := formed.responses path item held method operation found
    refine ⟨entry.2, Entries.get?_of_mem distinct among, fun oldResponse newResponse given same => ?_⟩
    rw [given] at same
    cases same
    exact contentExtends_itself formed false (contents entry among oldResponse given)
  body oldBody newBody given same := by
    rw [given] at same
    cases same
    exact contentExtends_itself formed true (formed.bodies path item held method operation found _ given)
  parameters entry among := by
    have distinct : (collectParameters external document item operation).keys.Nodup :=
      Entries.keys_insertAll_nodup (by simp [Entries.keys]) _
    refine ⟨entry.2, Entries.get?_of_mem distinct among, fun required _ => required, ?_⟩
    obtain ⟨parameter, there, rfl⟩ := List.mem_map.mp (mem_insertAll_nil among)
    obtain ⟨given, inside, resolved⟩ := List.mem_filterMap.mp there
    exact positionExtends_itself formed true
      (formed.parameters path item held method operation found given inside parameter resolved)
  optional entry among absent := by
    rw [Option.isNone_iff_eq_none, ← Option.not_isSome_iff_eq_none, Entries.get?_isSome_iff] at absent
    exact absurd (List.mem_map_of_mem among) absent

/-- A document adds to itself. -/
theorem documentExtends_itself (formed : DocumentFormed document) :
    DocumentExtends external document document where
  schemas entry among schema found := by
    have named := mem_collectSchemaMap_iff.mp among
    rw [get?_collectSchemaMap named] at found
    cases found
    exact refExtends_itself _ (.item entry.2) (formed.schemas entry.1 entry.2 named)
  operations path item held :=
    ⟨item, IndexMap.get?_of_mem held, fun _ operation found =>
      ⟨operation, found, operationExtends_itself formed held found⟩⟩

end Itself

section Messages

open AsyncApiDocument

/-- A payload schema adds to itself. -/
theorem payloadExtends_itself (node : Value) (formed : node.WellFormed) : PayloadExtends node node := by
  induction depth : node.depth using Nat.strong_induction_on generalizing node with
  | _ depth ih =>
      subst depth
      have below {key : String} {child : Value} (found : node.get? key = some child) :
          child.WellFormed ∧ child.depth < node.depth :=
        ⟨Value.wellFormed_get? formed found, Value.depth_of_get? found⟩
      refine .intro Prod.snd rfl rfl (fun prop among => ?_) (fun prop among => ?_) ?_
      · cases found : node.get? "properties" with
        | none => simp [propertiesOf, found] at among
        | some properties =>
            cases entries : properties.asObject with
            | none => simp [propertiesOf, found, entries] at among
            | some props =>
                simp only [propertiesOf, found, Option.bind_some, entries, Option.getD_some] at among ⊢
                exact Entries.get?_of_mem (Value.keys_nodup_of_asObject (below found).1 entries) among
      · cases found : node.get? "properties" with
        | none => simp [propertiesOf, found] at among
        | some properties =>
            cases properties with
            | object props =>
                simp only [propertiesOf, found, Option.bind_some, Value.asObject, Option.getD_some] at among
                obtain ⟨propertiesFormed, smaller⟩ := below found
                have within := Value.depth_of_mem among
                refine ih _ ?_ prop.2 (Value.wellFormed_of_mem (show _ ∧ _ from propertiesFormed).2 among) rfl
                exact (Nat.lt_succ_of_le within).trans smaller
            | _ => simp [propertiesOf, found, Value.asObject] at among
      · intro oldItems newItems oldFound newFound
        rw [oldFound] at newFound
        cases newFound
        exact ih _ (below oldFound).2 oldItems (below oldFound).1 rfl

theorem wellFormed_variantInserts {channel opKey : String} {channelValue : Value}
    (formed : channelValue.WellFormed) {entry : String × Value}
    (among : entry ∈ variantInserts channel opKey channelValue) : entry.2.WellFormed := by
  unfold variantInserts at among
  split at among
  · cases among
  · rename_i message found
    obtain ⟨operation, there, found⟩ := Option.bind_eq_some_iff.mp found
    have messageFormed := Value.wellFormed_get? (Value.wellFormed_get? formed there) found
    split at among
    · rename_i variants listed
      obtain ⟨alternatives, there, listed⟩ := Option.bind_eq_some_iff.mp listed
      have alternativesFormed := Value.wellFormed_get? messageFormed there
      obtain ⟨⟨variant, index⟩, held, rfl⟩ := List.mem_map.mp among
      cases alternatives with
      | array items =>
          cases listed
          exact wellFormed_of_item alternativesFormed (List.fst_mem_of_mem_zipIdx held)
      | _ => cases listed
    · rw [List.mem_singleton] at among
      subst among
      exact messageFormed

/-- The messages of a well-formed channel are so themselves. -/
theorem wellFormed_channelMessages {channel : String × Value} (formed : channel.2.WellFormed)
    {entry : String × Value} (among : entry ∈ channelMessages channel) : entry.2.WellFormed := by
  simp only [channelMessages, List.mem_append] at among
  obtain (among | among) | among := among
  · obtain ⟨message, held, rfl⟩ := List.mem_map.mp among
    cases found : channel.2.get? "messages" with
    | none => simp [found] at held
    | some messages =>
        have messagesFormed := Value.wellFormed_get? formed found
        cases messages with
        | object entries =>
            simp only [found, Option.bind_some, Value.asObject, Option.getD_some] at held
            exact @Value.wellFormed_of_mem entries (show _ ∧ _ from messagesFormed).2 message held
        | _ => simp [found, Value.asObject] at held
  · exact wellFormed_variantInserts formed among
  · exact wellFormed_variantInserts formed among

theorem wellFormed_channelsOf {root : Value} (formed : root.WellFormed) {channel : String × Value}
    (among : channel ∈ (channelsOf root).getD []) : channel.2.WellFormed := by
  cases found : root.get? "channels" with
  | none => simp [channelsOf, found] at among
  | some channels =>
      have channelsFormed := Value.wellFormed_get? formed found
      cases channels with
      | object entries =>
          simp only [channelsOf, found, Option.bind_some, Value.asObject, Option.getD_some] at among
          exact Value.wellFormed_of_mem (show _ ∧ _ from channelsFormed).2 among
      | _ => simp [channelsOf, found, Value.asObject] at among

/-- A channel document adds to itself. -/
theorem messagesExtend_itself (document : ParsedDocument) :
    MessagesExtend document.root document.root := by
  intro entry among
  have distinct : (collectMessages document.root).keys.Nodup :=
    Entries.keys_insertAll_nodup (by simp [Entries.keys]) _
  refine ⟨entry.2, Entries.get?_of_mem distinct among, fun payload found => ⟨payload, found, ?_⟩⟩
  obtain ⟨channel, held, carried⟩ := List.mem_flatMap.mp (mem_insertAll_nil among)
  have formed := wellFormed_channelMessages (wellFormed_channelsOf document.formed held) carried
  exact payloadExtends_itself payload (Value.wellFormed_get? formed found)

end Messages

section Files

open ProtoDocument

theorem keys_nodup_of_collectMessageBlocks {external : External} {fuel : Nat} {text : List Char}
    {qualifier : String} {entry : String × ProtoMessage}
    (among : entry ∈ collectMessageBlocks external fuel text qualifier) :
    entry.2.fields.keys.Nodup := by
  induction fuel generalizing text qualifier with
  | zero => cases among
  | succ fuel ih =>
      obtain ⟨block, -, held⟩ := List.mem_flatMap.mp among
      rcases List.mem_append.mp held with nested | own
      · exact ih nested
      · rw [List.mem_singleton] at own
        subst own
        exact Entries.keys_insertAll_nodup (by simp [Entries.keys]) _

/-- A proto file adds to itself. -/
theorem fileExtends_itself (external : External) (content : String) :
    FileExtends external content content where
  rpcs entry among :=
    ⟨entry.2, Entries.get?_of_mem (Entries.keys_insertAll_nodup (by simp [Entries.keys]) _) among, rfl, rfl⟩
  messages entry among := by
    refine ⟨entry.2, Entries.get?_of_mem (Entries.keys_insertAll_nodup (by simp [Entries.keys]) _) among,
      fun own held => ⟨own.2, ?_, rfl, rfl, rfl⟩⟩
    exact Entries.get?_of_mem (keys_nodup_of_collectMessageBlocks (mem_insertAll_nil among)) held

end Files

section Accepted

open OpenApiDocument Application

variable {external : External}

/-- A text that only adds to another one of its kind, both of them readable. -/
inductive TextExtends (external : External) : ApiType → String → String → Prop
  | openApi {old new : String} {oldDocument newDocument : OpenApi}
      (parsedOld : external.parseOpenApi old = .ok oldDocument)
      (parsedNew : external.parseOpenApi new = .ok newDocument)
      (extended : DocumentExtends external oldDocument newDocument) :
      TextExtends external .openApi old new
  | asyncApi {old new : String} {oldDocument newDocument : ParsedDocument}
      (parsedOld : external.parseValue old = .ok oldDocument)
      (parsedNew : external.parseValue new = .ok newDocument)
      (extended : AsyncApiDocument.MessagesExtend oldDocument.root newDocument.root) :
      TextExtends external .asyncApi old new
  | proto {old new : String} (extended : ProtoDocument.FileExtends external old new) :
      TextExtends external .proto old new

theorem TextExtends.pass {apiType : ApiType} {old new : String}
    (extended : TextExtends external apiType old new) :
    checkCompatibility external apiType old new = .pass := by
  cases extended with
  | openApi parsedOld parsedNew extended =>
      simp only [checkCompatibility, checkBackwardCompatibility, parsedOld, parsedNew]
      exact extended.pass
  | asyncApi parsedOld parsedNew extended =>
      simp only [checkCompatibility, AsyncApiDocument.checkBackwardCompatibility, parsedOld, parsedNew,
        extended.pass]
      rfl
  | proto extended => exact extended.pass

/-- A text that is read, into a document none of whose mappings repeats a key. -/
def Readable (external : External) (apiType : ApiType) (text : String) : Prop :=
  match apiType with
  | .openApi => ∃ document, external.parseOpenApi text = .ok document ∧ DocumentFormed document
  | .asyncApi => ∃ document, external.parseValue text = .ok document
  | .proto => True

/-- A readable text only adds to itself. -/
theorem textExtends_itself {apiType : ApiType} {text : String} (readable : Readable external apiType text) :
    TextExtends external apiType text text := by
  cases apiType with
  | openApi =>
      obtain ⟨document, parsed, formed⟩ := readable
      exact .openApi parsed parsed (documentExtends_itself formed)
  | asyncApi =>
      obtain ⟨document, parsed⟩ := readable
      exact .asyncApi parsed parsed (messagesExtend_itself document)
  | proto => exact .proto (fileExtends_itself external text)

def statusPlatform : External :=
  { asciiPlatform {} with
    parseOpenApi := fun text =>
      if text = "open" then .ok (filteredOrders ["\"open\""])
      else .ok (filteredOrders ["\"open\"", "\"closed\""]) }

theorem searchOrdersItem_operation {method : Method} {operation : Document.Operation}
    (found : searchOrdersItem.operation method = some operation) : operation = searchOrders := by
  by_cases get : method = .get
  · subst get
    exact (Option.some.inj found).symm
  · simp [searchOrdersItem, get] at found

theorem filteredOrders_item {states : List String} {path : String} {item : PathItem}
    (held : (path, .item item) ∈ (filteredOrders states).paths.entries) :
    path = "/orders" ∧ item = searchOrdersItem := by
  have only : (filteredOrders states).paths.entries = [("/orders", .item searchOrdersItem)] := rfl
  rw [only, List.mem_singleton] at held
  cases held
  exact ⟨rfl, rfl⟩

/-- One more state to filter orders by. -/
theorem filteredOrders_extends :
    DocumentExtends statusPlatform (filteredOrders ["\"open\""])
      (filteredOrders ["\"open\"", "\"closed\""]) where
  schemas entry among schema found := by
    have only : collectSchemaMap (filteredOrders ["\"open\""]) = [("Status", statusSchema ["\"open\""])] := rfl
    rw [only, List.mem_singleton] at among
    subst among
    have held : schema = statusSchema ["\"open\"", "\"closed\""] := (Option.some.inj found).symm
    subst held
    exact .scalar .string fun _ => .inr (by decide)
  operations path oldItem held := by
    obtain ⟨rfl, rfl⟩ := filteredOrders_item held
    refine ⟨searchOrdersItem, rfl, fun method operation found => ⟨operation, found, ?_⟩⟩
    obtain rfl := searchOrdersItem_operation found
    have asked (states : List String) :
        collectParameters statusPlatform (filteredOrders states) searchOrdersItem searchOrders =
          [((.query, "filter"), filterParameter)] := rfl
    constructor
    · intro entry among
      cases among
    · intro oldBody newBody given
      cases given
    · intro entry among
      rw [asked, List.mem_singleton] at among
      subst among
      refine ⟨filterParameter, rfl, fun required _ => required, ?_⟩
      intro oldSchema newSchema oldFound newFound
      cases oldFound
      cases newFound
      exact refExtends_itself true (.item filterSchema) ⟨by simp, trivial⟩
    · intro entry among _ _
      rw [asked, List.mem_singleton] at among
      subst among
      rfl

/-- A readable text is compatible with itself. -/
theorem text_compatible_with_itself (apiType : ApiType) (text : String)
    (readable : Readable external apiType text) :
    checkCompatibility external apiType text text = .pass :=
  (textExtends_itself readable).pass

theorem filteredOrders_formed (states : List String) : DocumentFormed (filteredOrders states) := by
  constructor
  · intro name schema there
    have among : (name, ReferenceOr.item schema) ∈ [("Status", .item (statusSchema states))] :=
      Entries.mem_of_get? there
    rw [List.mem_singleton] at among
    cases among
    trivial
  · intro path item held method operation found given among parameter resolved reference described
    obtain ⟨rfl, rfl⟩ := filteredOrders_item held
    obtain rfl := searchOrdersItem_operation found
    have only : searchOrdersItem.parameters ++ searchOrders.parameters = [.item filterParameter] := rfl
    rw [only, List.mem_singleton] at among
    subst among
    cases resolved
    cases described
    exact ⟨by simp, trivial⟩
  · intro path item held method operation found body given
    obtain ⟨rfl, rfl⟩ := filteredOrders_item held
    obtain rfl := searchOrdersItem_operation found
    cases given
  · intro path item held method operation found
    obtain ⟨rfl, rfl⟩ := filteredOrders_item held
    obtain rfl := searchOrdersItem_operation found
    exact ⟨List.nodup_nil, fun entry among => by cases among⟩

theorem text_compatible_with_itself_status :
    checkCompatibility statusPlatform .openApi "open" "open" = .pass :=
  text_compatible_with_itself .openApi "open" ⟨_, rfl, filteredOrders_formed _⟩

end Accepted

end Sanshain.Guarantees
