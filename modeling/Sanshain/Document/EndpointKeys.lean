import Sanshain.Document.SpecText

namespace Sanshain.Document

open Sanshain.Data Sanshain.Domain Sanshain.Text
open OpenApiDocument (EndpointSpec)

/-- The key under which an endpoint is told from the others of its document. -/
def endpointSpecKey (endpoint : EndpointSpec) : String × String :=
  (endpoint.normalizedPath, endpoint.method)

section Lists

variable {Element Value Error : Type}

theorem bind_ok {first : Except Error Element} {next : Element → Except Error Value} {value : Value}
    (done : first >>= next = .ok value) : ∃ element, first = .ok element ∧ next element = .ok value := by
  cases first with
  | error reason => cases done
  | ok element => exact ⟨element, rfl, done⟩

theorem map_ok {first : Except Error Element} {next : Element → Value} {value : Value}
    (done : first.map next = .ok value) : ∃ element, first = .ok element ∧ next element = value := by
  cases first with
  | error reason => cases done
  | ok element => exact ⟨element, rfl, Except.ok.inj done⟩

theorem mapError_ok {Other : Type} {outcome : Except Error Value} {change : Error → Other}
    {value : Value} (done : outcome.mapError change = .ok value) : outcome = .ok value := by
  cases outcome with
  | error reason => cases done
  | ok found => exact congrArg Except.ok (Except.ok.inj done)

/-- Every element of a list that is read whole was read. -/
theorem mapM_ok {read : Element → Except Error Value} {elements : List Element} {values : List Value}
    (whole : elements.mapM read = .ok values) :
    List.Forall₂ (fun element value => read element = .ok value) elements values := by
  induction elements generalizing values with
  | nil =>
      cases whole
      exact .nil
  | cons element rest ih =>
      rw [List.mapM_cons] at whole
      cases first : read element with
      | error reason => simp [first, bind, Except.bind] at whole
      | ok value =>
          cases others : rest.mapM read with
          | error reason => simp [first, others, bind, Except.bind] at whole
          | ok later =>
              simp only [first, others, bind, Except.bind, pure, Except.pure, Except.ok.injEq] at whole
              exact whole ▸ .cons first (ih others)

theorem exists_left {reads : Element → Value → Prop} {elements : List Element} {values : List Value}
    (all : List.Forall₂ reads elements values) {value : Value} (among : value ∈ values) :
    ∃ element ∈ elements, reads element value := by
  induction all with
  | nil => cases among
  | cons first _ ih =>
      rcases List.mem_cons.mp among with rfl | behind
      · exact ⟨_, List.mem_cons_self, first⟩
      · obtain ⟨element, held, read⟩ := ih behind
        exact ⟨element, List.mem_cons_of_mem _ held, read⟩

theorem exists_right {reads : Element → Value → Prop} {elements : List Element}
    {values : List Value} (all : List.Forall₂ reads elements values) {element : Element}
    (among : element ∈ elements) : ∃ value ∈ values, reads element value :=
  exists_left all.flip among

theorem map_eq_map {Name : Type} {reads : Element → Value → Prop} {name : Value → Name}
    {named : Element → Name} (each : ∀ element value, reads element value → name value = named element)
    {elements : List Element} {values : List Value} (all : List.Forall₂ reads elements values) :
    values.map name = elements.map named := by
  induction all with
  | nil => rfl
  | cons first _ ih => rw [List.map_cons, List.map_cons, ih, each _ _ first]

/-- What is read of each element under its own name is the list of those names. -/
theorem map_eq_filterMap {Name : Type} {reads : Element → Value → Prop} {name : Value → Name}
    {kept : Value → Bool} {named : Element → Option Name}
    (each : ∀ element value, reads element value →
      named element = if kept value then some (name value) else none)
    {elements : List Element} {values : List Value} (all : List.Forall₂ reads elements values) :
    (values.filter kept).map name = elements.filterMap named := by
  induction all with
  | nil => rfl
  | cons first _ ih =>
      rw [List.filter_cons, List.filterMap_cons, each _ _ first]
      split
      · rw [List.map_cons, ih]
      · exact ih

end Lists

section Collisions

/-- Where no two spellings collide, one key is one path. -/
theorem rejectColliding_ok {seen : Entries (String × String) String} {endpoints : List EndpointSpec}
    (accepted : rejectColliding seen endpoints = .ok ()) :
    (∀ endpoint ∈ endpoints, ∀ first, seen.get? (endpointSpecKey endpoint) = some first →
        first = endpoint.path) ∧
      endpoints.Pairwise fun earlier later =>
        endpointSpecKey earlier = endpointSpecKey later → earlier.path = later.path := by
  induction endpoints generalizing seen with
  | nil => simp
  | cons endpoint rest ih =>
      have both : (∀ first, seen.get? (endpointSpecKey endpoint) = some first →
          first = endpoint.path) ∧
          rejectColliding (seen.insert (endpointSpecKey endpoint) endpoint.path) rest = .ok () := by
        rw [rejectColliding] at accepted
        split at accepted
        · rename_i held found
          split at accepted
          · cases accepted
          · rename_i same
            refine ⟨fun first known => ?_, accepted⟩
            cases found.symm.trans known
            exact not_not.mp same
        · rename_i unknown
          refine ⟨fun first known => ?_, accepted⟩
          cases unknown.symm.trans known
      obtain ⟨here, later⟩ := both
      obtain ⟨known, pairwise⟩ := ih later
      constructor
      · intro other among first held
        rcases List.mem_cons.mp among with rfl | behind
        · exact here first held
        · by_cases same : endpointSpecKey endpoint = endpointSpecKey other
          · have path := known other behind endpoint.path (by rw [Entries.get?_insert, if_pos same])
            rw [← same] at held
            exact (here first held).trans path
          · exact known other behind first (by rw [Entries.get?_insert, if_neg same, held])
      · refine List.pairwise_cons.mpr ⟨fun other behind same => ?_, pairwise⟩
        exact known other behind endpoint.path (by rw [Entries.get?_insert, if_pos same])

/-- Endpoints that differ in path or method differ in their keys, once none collide. -/
theorem keys_nodup_of_paths {endpoints : List EndpointSpec}
    (accepted : rejectCollidingEndpoints endpoints = .ok ())
    (distinct : (endpoints.map fun endpoint => (endpoint.path, endpoint.method)).Nodup) :
    (endpoints.map endpointSpecKey).Nodup := by
  rw [List.Nodup, List.pairwise_map] at distinct ⊢
  refine (distinct.and (rejectColliding_ok accepted).2).imp ?_
  rintro earlier later ⟨apart, onePath⟩ same
  have method : earlier.method = later.method := congrArg Prod.snd same
  exact apart (Prod.ext (onePath same) method)

theorem parseSpecEndpoints_ok {external : External} {apiType : ApiType} {content : String}
    {endpoints : List EndpointSpec}
    (parsed : parseSpecEndpoints external apiType content = .ok endpoints) :
    parseSpecEndpointsInner external apiType content = .ok endpoints ∧
      rejectCollidingEndpoints endpoints = .ok () := by
  unfold parseSpecEndpoints at parsed
  split at parsed
  · cases parsed
  · rename_i split inner
    cases checked : rejectCollidingEndpoints split with
    | error reason => simp [checked, Except.map] at parsed
    | ok done =>
        simp only [checked, Except.map, Except.ok.injEq] at parsed
        exact parsed ▸ ⟨inner, checked⟩

theorem parseSpec_endpoints {external : External} {apiType : ApiType} {content : String}
    {parsed : ParsedSpec} (read : parseSpec external apiType content = .ok parsed) :
    parseSpecEndpoints external apiType content = .ok parsed.endpoints := by
  unfold parseSpec at read
  split at read
  · cases read
  · split at read
    · cases read
    · rename_i endpoints found
      cases read
      exact found

end Collisions

namespace OpenApiDocument

theorem getMethods_nodup (item : PathItem) : ((getMethods item).map fun found => found.1.upper).Nodup := by
  have methods : (getMethods item).map Prod.fst =
      Method.all.filter fun method => (item.operation method).isSome := by
    unfold getMethods
    induction Method.all with
    | nil => rfl
    | cons method rest ih =>
        rw [List.filterMap_cons, List.filter_cons]
        cases item.operation method <;> simp [ih]
  have distinct : ((getMethods item).map Prod.fst).Nodup :=
    methods ▸ Method.all_nodup.sublist List.filter_sublist
  simpa [List.map_map, Function.comp_def] using distinct.map Method.upper_injective

theorem operationsAt_path {entry : String × ReferenceOr PathItem} {found : String × String}
    (among : found ∈ (operationsAt entry).map fun found => (found.1, found.2.1.upper)) :
    found.1 = entry.1 := by
  obtain ⟨path, item⟩ := entry
  cases item with
  | reference target => cases among
  | item item =>
      obtain ⟨held, within, rfl⟩ := List.mem_map.mp among
      obtain ⟨method, -, rfl⟩ := List.mem_map.mp within
      rfl

/-- A document lists each method of each path once. -/
theorem operationsOf_nodup (document : OpenApi) :
    ((operationsOf document).map fun found => (found.1, found.2.1.upper)).Nodup := by
  rw [operationsOf, List.map_flatMap, List.nodup_flatMap]
  constructor
  · rintro ⟨path, item⟩ -
    cases item with
    | reference target => exact List.nodup_nil
    | item item =>
        have each := (getMethods_nodup item).map (Prod.mk_right_injective path)
        simpa [operationsAt, List.map_map, Function.comp_def] using each
  · have paths := document.paths.distinct
    rw [Entries.keys, List.Nodup, List.pairwise_map] at paths
    refine paths.imp fun {first second} apart => ?_
    intro found one other
    exact apart ((operationsAt_path one).symm.trans (operationsAt_path other))

theorem endpointOf_ok {external : External} {document : OpenApi} {graph : Entries String (List String)}
    {path : String} {method : Method} {operation : Operation} {endpoint : EndpointSpec}
    (written : endpointOf external document graph path method operation = .ok endpoint) :
    endpoint.path = path ∧ endpoint.normalizedPath = normalizePath path ∧
      endpoint.method = method.upper ∧ endpoint.deprecated = operation.deprecated := by
  unfold endpointOf at written
  split at written
  · cases written
  · cases written
    exact ⟨rfl, rfl, rfl, rfl⟩

/-- The endpoints of a document are its operations, one for each. -/
theorem splitOpenapi_ok {external : External} {yaml : String} {endpoints : List EndpointSpec}
    (split : splitOpenapi external yaml = .ok endpoints) :
    ∃ document, external.parseOpenApi yaml = .ok document ∧
      List.Forall₂ (fun found endpoint => endpoint.path = found.1 ∧
        endpoint.normalizedPath = normalizePath found.1 ∧ endpoint.method = found.2.1.upper ∧
          endpoint.deprecated = found.2.2.deprecated) (operationsOf document) endpoints := by
  unfold splitOpenapi at split
  split at split
  · cases split
  · rename_i document parsed
    exact ⟨document, parsed, (mapM_ok split).imp fun _ _ written => endpointOf_ok written⟩

theorem splitOpenapi_nodup {external : External} {yaml : String} {endpoints : List EndpointSpec}
    (split : splitOpenapi external yaml = .ok endpoints) :
    (endpoints.map fun endpoint => (endpoint.path, endpoint.method)).Nodup := by
  obtain ⟨document, -, each⟩ := splitOpenapi_ok split
  have same : endpoints.map (fun endpoint => (endpoint.path, endpoint.method)) =
      (operationsOf document).map fun found => (found.1, found.2.1.upper) := by
    exact map_eq_map (fun found endpoint read => Prod.ext read.1 read.2.2.1) each
  exact same ▸ operationsOf_nodup document

end OpenApiDocument

namespace AsyncApiDocument

/-- The address an operation sends to, if it sends. -/
def sentAddress (root : Value) (entry : String × Value) : Option String :=
  if (entry.2.get? "action").bind Value.asStr = some "send" then
    ((channelRef entry.2).bind (stripPrefix "#/channels/")).map (channelAddress root)
  else none

/-- The addresses that the operations of a document send to, one for each such operation. -/
def sentAddresses (root : Value) : List String :=
  ((operationsOf root).getD []).filterMap (sentAddress root)

/-- The channels of a document of the 2.x line that publish. -/
def publishedChannel (entry : String × Value) : Option String :=
  (entry.2.get? "publish").map fun _ => entry.1

def publishedChannels (root : Value) : List String :=
  ((channelsOf root).getD []).filterMap publishedChannel

/-- The channels that a document of either line publishes on. -/
def providedChannels (root : Value) : List String :=
  if isV3 root then sentAddresses root else publishedChannels root

theorem operationSpecsV2_ok {external : External} {root : Value} {entry : String × Value}
    {operation opKey : String} {specs : List AsyncApiSpec}
    (split : operationSpecsV2 external root entry operation opKey = .ok specs) :
    (entry.2.get? opKey = none ∧ specs = []) ∨
      ∃ value spec, entry.2.get? opKey = some value ∧ specs = [spec] ∧ spec.channel = entry.1 ∧
        spec.operation = operation ∧ spec.deprecated = isMarkedDeprecated value := by
  unfold operationSpecsV2 at split
  split at split
  · rename_i absent
    cases split
    exact .inl ⟨absent, rfl⟩
  · rename_i value found
    right
    unfold createSpecV2 at split
    dsimp only at split
    generalize written : writeSnippet external _ = snippet at split
    cases snippet with
    | error reason => simp [Except.map] at split
    | ok yamlContent =>
        simp only [Except.map, Except.ok.injEq] at split
        exact ⟨value, _, found, split.symm, rfl, rfl, by simp [found]⟩

/-- A channel of the 2.x line gives at most one published operation. -/
theorem channelSpecsV2_ok {external : External} {root : Value} {entry : String × Value}
    {specs : List AsyncApiSpec} (split : channelSpecsV2 external root entry = .ok specs) :
    (entry.2.get? "publish" = none ∧ specs.filter (·.operation = "PUB") = []) ∨
      ∃ value spec, entry.2.get? "publish" = some value ∧
        specs.filter (·.operation = "PUB") = [spec] ∧ spec.channel = entry.1 ∧
          spec.operation = "PUB" ∧ spec.deprecated = isMarkedDeprecated value := by
  unfold channelSpecsV2 at split
  cases published : operationSpecsV2 external root entry "PUB" "publish" with
  | error reason => simp [published, bind, Except.bind] at split
  | ok publish =>
      cases subscribed : operationSpecsV2 external root entry "SUB" "subscribe" with
      | error reason => simp [published, subscribed, bind, Except.bind] at split
      | ok subscribe =>
          simp only [published, subscribed, bind, Except.bind, Except.ok.injEq] at split
          have others : subscribe.filter (·.operation = "PUB") = [] := by
            rcases operationSpecsV2_ok subscribed with ⟨-, rfl⟩ | ⟨_, spec, -, rfl, -, name, -⟩
            · rfl
            · simp [name]
          rw [← split, List.filter_append, others, List.append_nil]
          rcases operationSpecsV2_ok published with ⟨absent, rfl⟩ | ⟨value, spec, found, rfl, channel, name, marked⟩
          · exact .inl ⟨absent, rfl⟩
          · exact .inr ⟨value, spec, found, by simp [name], channel, name, marked⟩

theorem operationSide_ok {opValue : Value} {operation : String}
    (side : operationSide opValue = .ok operation) :
    operation = "PUB" ↔ (opValue.get? "action").bind Value.asStr = some "send" := by
  unfold operationSide at side
  cases acts : (opValue.get? "action").bind Value.asStr with
  | none =>
      rw [acts] at side
      cases side
  | some action =>
      rw [acts] at side
      dsimp only at side
      split at side
      · cases side
        simp
      · cases side
        simp
      · cases side

theorem operationChannelKey_ok {opValue : Value} {channelKey : String}
    (targets : operationChannelKey opValue = .ok channelKey) :
    (channelRef opValue).bind (stripPrefix "#/channels/") = some channelKey := by
  unfold operationChannelKey at targets
  split at targets
  · cases targets
  · rename_i target found
    split at targets
    · rename_i key stripped
      cases targets
      rw [found, Option.bind_some, stripped]
    · cases targets

/-- An operation of the 3.x line that is split is published exactly when it sends. -/
theorem operationSpecV3_ok {external : External} {root : Value} {entry : String × Value}
    {spec : AsyncApiSpec} (split : operationSpecV3 external root entry = .ok spec) :
    spec.deprecated = isMarkedDeprecated entry.2 ∧
      sentAddress root entry = if spec.operation = "PUB" then some spec.channel else none := by
  obtain ⟨operation, side, split⟩ := bind_ok split
  obtain ⟨channelKey, targets, split⟩ := bind_ok split
  obtain ⟨yamlContent, -, rfl⟩ := map_ok split
  refine ⟨rfl, ?_⟩
  rw [sentAddress, operationChannelKey_ok targets]
  simp only [operationSide_ok side, Option.map_some]

/-- What a channel of the 2.x line publishes, as the name of the channel. -/
theorem channelSpecsV2_channels {external : External} {root : Value} {entry : String × Value}
    {specs : List AsyncApiSpec} (split : channelSpecsV2 external root entry = .ok specs) :
    (specs.filter (·.operation = "PUB")).map (·.channel) = (publishedChannel entry).toList := by
  rcases channelSpecsV2_ok split with ⟨absent, none⟩ | ⟨value, spec, found, one, channel, -⟩
  · rw [none, publishedChannel, absent]
    rfl
  · rw [one, publishedChannel, found, List.map_singleton, channel]
    rfl

theorem splitAsyncapiV2_channels {external : External} {root : Value} {specs : List AsyncApiSpec}
    (split : splitAsyncapiV2 external root = .ok specs) :
    (specs.filter (·.operation = "PUB")).map (·.channel) = publishedChannels root := by
  obtain ⟨parts, whole, rfl⟩ := map_ok split
  have each := (mapM_ok whole).imp fun _ _ split => channelSpecsV2_channels split
  rw [publishedChannels]
  clear whole split
  generalize (channelsOf root).getD [] = channels at each
  induction each with
  | nil => rfl
  | @cons entry part _ _ first _ ih =>
      rw [List.flatten_cons, List.filter_append, List.map_append, first, ih, List.filterMap_cons]
      cases publishedChannel entry <;> rfl

theorem splitAsyncapiV3_channels {external : External} {root : Value} {specs : List AsyncApiSpec}
    (split : splitAsyncapiV3 external root = .ok specs) :
    (specs.filter (·.operation = "PUB")).map (·.channel) = sentAddresses root := by
  unfold splitAsyncapiV3 at split
  split at split
  · cases split
  · rename_i operations found
    rw [sentAddresses, found]
    refine map_eq_filterMap (fun entry spec read => ?_) (mapM_ok split)
    simpa using (operationSpecV3_ok read).2

/-- The endpoints of a channel document are the channels it publishes on, one for each. -/
theorem splitAsyncapi_channels {external : External} {yaml : String} {specs : List AsyncApiSpec}
    (split : splitAsyncapi external yaml = .ok specs) :
    ∃ document, external.parseValue yaml = .ok document ∧
      (asyncApiEndpoints specs).map endpointSpecKey =
        (providedChannels document.root).map fun channel => (channel, "PUB") := by
  unfold splitAsyncapi parseRoot at split
  cases parsed : external.parseValue yaml with
  | error reason => simp [parsed, Except.mapError, Except.bind] at split
  | ok document =>
      simp only [parsed, Except.mapError, Except.bind] at split
      refine ⟨document, rfl, ?_⟩
      have published : (specs.filter (·.operation = "PUB")).map (·.channel) =
          providedChannels document.root := by
        unfold providedChannels
        split at split
        · rename_i third
          rw [if_pos third]
          exact splitAsyncapiV3_channels split
        · rename_i second
          rw [if_neg second]
          exact splitAsyncapiV2_channels split
      rw [← published, asyncApiEndpoints, List.map_map, List.map_map]
      refine List.map_congr_left fun spec among => ?_
      have operation : spec.operation = "PUB" := by
        simpa using (List.mem_filter.mp among).2
      exact Prod.ext rfl operation

theorem filterMap_publishedChannel (channels : Mapping) :
    channels.filterMap publishedChannel =
      (channels.filter fun entry => (entry.2.get? "publish").isSome).map Prod.fst := by
  induction channels with
  | nil => rfl
  | cons entry rest ih =>
      rw [List.filterMap_cons, List.filter_cons, publishedChannel]
      cases entry.2.get? "publish" <;> simp [ih]

/-- The channels of the 2.x line are the keys of one mapping. -/
theorem publishedChannels_nodup (document : ParsedDocument) :
    (publishedChannels document.root).Nodup := by
  unfold publishedChannels
  cases found : channelsOf document.root with
  | none => exact List.nodup_nil
  | some channels =>
      obtain ⟨node, held, entries⟩ := Option.bind_eq_some_iff.mp found
      have distinct := Value.keys_nodup_of_asObject (Value.wellFormed_get? document.formed held) entries
      rw [Option.getD_some, filterMap_publishedChannel]
      exact distinct.sublist (List.filter_sublist.map _)

end AsyncApiDocument

namespace ProtoDocument

/-- The rpcs that a file declares, under their service and name, as often as it declares them. -/
def declaredRpcs (external : External) (content : String) : List (String × String) :=
  (extractServiceBlocks external content.toList).flatMap fun service =>
    ((reRpc external).capturesIter service.body).filterMap fun rpc =>
      (rpc.group? service.body 1).map fun method => (service.name, String.ofList method)

theorem splitProto_keys (external : External) (content : String) :
    (protoEndpoints (splitProto external content)).map endpointSpecKey =
      declaredRpcs external content := by
  unfold protoEndpoints splitProto declaredRpcs
  rw [List.map_map, List.map_flatMap]
  refine List.flatMap_congr fun service _ => ?_
  rw [List.map_filterMap]
  refine List.filterMap_congr fun rpc _ => ?_
  unfold protoSpecOf
  cases rpc.group? service.body 1 <;> rfl

end ProtoDocument

/-- A document declares no endpoint twice: two operations of the 3.x line send to two addresses,
and no service of a proto file has an rpc twice. -/
def DeclaresOnce (external : External) (apiType : ApiType) (content : String) : Prop :=
  match apiType with
  | .openApi => True
  | .asyncApi => ∀ document, external.parseValue content = .ok document →
      AsyncApiDocument.isV3 document.root = true →
        (AsyncApiDocument.sentAddresses document.root).Nodup
  | .proto => (ProtoDocument.declaredRpcs external content).Nodup

/-- The keys of the endpoints are distinct exactly when the document declares none twice. -/
theorem keys_nodup_iff {external : External} {apiType : ApiType} {content : String}
    {endpoints : List EndpointSpec}
    (parsed : parseSpecEndpoints external apiType content = .ok endpoints) :
    (endpoints.map endpointSpecKey).Nodup ↔ DeclaresOnce external apiType content := by
  obtain ⟨inner, accepted⟩ := parseSpecEndpoints_ok parsed
  cases apiType with
  | openApi =>
      exact ⟨fun _ => trivial, fun _ => keys_nodup_of_paths accepted
        (OpenApiDocument.splitOpenapi_nodup (mapError_ok inner))⟩
  | asyncApi =>
      obtain ⟨specs, split, rfl⟩ := map_ok inner
      obtain ⟨document, read, keys⟩ := AsyncApiDocument.splitAsyncapi_channels (mapError_ok split)
      have injective : Function.Injective fun channel : String => (channel, "PUB") :=
        fun first second same => congrArg Prod.fst same
      rw [keys, List.nodup_map_iff injective]
      unfold AsyncApiDocument.providedChannels
      constructor
      · intro distinct other again third
        cases read.symm.trans again
        rwa [if_pos third] at distinct
      · intro once
        split
        · rename_i third
          exact once document read third
        · exact AsyncApiDocument.publishedChannels_nodup document
  | proto =>
      cases inner
      rw [ProtoDocument.splitProto_keys]
      rfl

/-- Only the paths of an OpenAPI document have more than one spelling. -/
theorem normalizedPath_eq {external : External} {apiType : ApiType} {content : String}
    {endpoints : List EndpointSpec}
    (parsed : parseSpecEndpointsInner external apiType content = .ok endpoints)
    (other : apiType ≠ .openApi) : ∀ endpoint ∈ endpoints, endpoint.normalizedPath = endpoint.path := by
  intro endpoint among
  cases apiType with
  | openApi => exact absurd rfl other
  | asyncApi =>
      obtain ⟨specs, -, rfl⟩ := map_ok parsed
      obtain ⟨spec, -, rfl⟩ := List.mem_map.mp among
      rfl
  | proto =>
      cases parsed
      obtain ⟨spec, -, rfl⟩ := List.mem_map.mp among
      rfl

/-- The endpoints differ in path or method exactly when the document declares none twice. -/
theorem paths_nodup_iff {external : External} {apiType : ApiType} {content : String}
    {endpoints : List EndpointSpec}
    (parsed : parseSpecEndpoints external apiType content = .ok endpoints) :
    (endpoints.map fun endpoint => (endpoint.path, endpoint.method)).Nodup ↔
      DeclaresOnce external apiType content := by
  have inner := (parseSpecEndpoints_ok parsed).1
  by_cases other : apiType = .openApi
  · subst other
    exact ⟨fun _ => trivial, fun _ => OpenApiDocument.splitOpenapi_nodup (mapError_ok inner)⟩
  · have same : endpoints.map (fun endpoint => (endpoint.path, endpoint.method)) =
        endpoints.map endpointSpecKey :=
      List.map_congr_left fun endpoint among =>
        Prod.ext (normalizedPath_eq inner other endpoint among).symm rfl
    rw [same]
    exact keys_nodup_iff parsed

end Sanshain.Document
