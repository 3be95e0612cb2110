import Sanshain.Document.EndpointKeys

namespace Sanshain.Document

open Sanshain.Data Sanshain.Domain Sanshain.Text
open OpenApiDocument (EndpointSpec)

namespace OpenApiDocument

variable {external : External} {old new : OpenApi}

theorem mem_getMethods {item : PathItem} {found : Method × Operation} :
    found ∈ getMethods item ↔ item.operation found.1 = some found.2 := by
  obtain ⟨method, operation⟩ := found
  simp only [getMethods, List.mem_filterMap, Option.map_eq_some_iff, Prod.mk.injEq]
  constructor
  · rintro ⟨other, -, held, found, rfl, rfl⟩
    exact found
  · intro found
    exact ⟨method, method.mem_all, operation, found, rfl, rfl⟩

/-- A path item that passes keeps every operation that was not deprecated. -/
theorem operation_kept {entry : String × ReferenceOr PathItem} {found : String × Method × Operation}
    (pass : checkPathCompatible external old new entry = .pass) (among : found ∈ operationsAt entry)
    (live : found.2.2.deprecated = false) :
    ∃ item operation, new.paths.get? found.1 = some (.item item) ∧
      item.operation found.2.1 = some operation := by
  obtain ⟨path, reference | oldItem⟩ := entry
  · cases among
  · obtain ⟨⟨method, operation⟩, held, rfl⟩ := List.mem_map.mp among
    unfold checkPathCompatible at pass
    split at pass
    · cases ‹ReferenceOr.item oldItem = .reference _›
    · rename_i same
      cases same
      split at pass
      · rename_i newItem there
        have each := (Verdict.all_eq_pass _ _).mp pass (method, operation) held
        unfold checkOperationCompatible at each
        split at each
        · dsimp only at live
          simp [live] at each
        · rename_i newOperation kept
          exact ⟨newItem, newOperation, there, kept⟩
      · split at pass
        · rename_i deprecated
          have gone := List.all_eq_true.mp deprecated (method, operation) held
          exact absurd gone (by simp [show operation.deprecated = false from live])
        · cases pass

/-- A compatible document keeps every operation that was not deprecated. -/
theorem operations_kept (pass : checkOpenapiCompatible external old new = .pass)
    {found : String × Method × Operation} (among : found ∈ operationsOf old)
    (live : found.2.2.deprecated = false) :
    ∃ operation, (found.1, found.2.1, operation) ∈ operationsOf new := by
  obtain ⟨entry, held, within⟩ := List.mem_flatMap.mp among
  have paths := ((Verdict.andThen_eq_pass _ _).mp pass).2
  obtain ⟨item, operation, there, kept⟩ :=
    operation_kept ((Verdict.all_eq_pass _ _).mp paths entry held) within live
  refine ⟨operation, List.mem_flatMap.mpr ⟨(found.1, .item item), ?_, ?_⟩⟩
  · exact Entries.mem_of_get? there
  · exact List.mem_map.mpr ⟨(found.2.1, operation), mem_getMethods.mpr kept, rfl⟩

end OpenApiDocument

namespace ProtoDocument

variable {external : External} {old new : String}

/-- An rpc the comparison reads is an rpc the splitter declares. -/
theorem declared_of_parsed {key : String × String} (parsed : key ∈ (parseRpcs external new).keys) :
    key ∈ declaredRpcs external new := by
  have inserted : key ∈ (rpcInserts external new).keys := by
    obtain ⟨rpc, found⟩ := Option.isSome_iff_exists.mp ((Entries.get?_isSome_iff _ _).mpr parsed)
    rw [parseRpcs, Entries.get?_insertAll, Entries.get?_nil, Option.or_none] at found
    have among := Entries.mem_of_get? found
    exact List.mem_map_of_mem (List.mem_reverse.mp among)
  obtain ⟨entry, among, rfl⟩ := List.mem_map.mp inserted
  obtain ⟨service, block, within⟩ := List.mem_flatMap.mp among
  obtain ⟨rpc, found, read⟩ := List.mem_filterMap.mp within
  refine List.mem_flatMap.mpr ⟨service, block, List.mem_filterMap.mpr ⟨rpc, found, ?_⟩⟩
  obtain ⟨method, named, read⟩ := Option.bind_eq_some_iff.mp read
  obtain ⟨request, -, read⟩ := Option.bind_eq_some_iff.mp read
  obtain ⟨response, -, rfl⟩ := Option.map_eq_some_iff.mp read
  rw [named]
  rfl

/-- A compatible file keeps every rpc whose last declaration was not deprecated. -/
theorem rpc_kept (pass : checkBackwardCompatibility external old new = .pass)
    {key : String × String} {rpc : ProtoRpc}
    (parsed : Entries.get? (parseRpcs external old) key = some rpc) (live : rpc.deprecated = false) :
    key ∈ declaredRpcs external new := by
  have rpcs := ((Verdict.andThen_eq_pass _ _).mp pass).1
  have each := (Verdict.all_eq_pass _ _).mp rpcs (key, rpc) (Entries.mem_of_get? parsed)
  apply declared_of_parsed
  rw [← Entries.get?_isSome_iff]
  unfold checkRpc at each
  cases there : Entries.get? (parseRpcs external new) key with
  | none => simp [there, live] at each
  | some other => rfl

end ProtoDocument

namespace AsyncApiDocument

variable {external : External} {old new : ParsedDocument}

theorem firstError_ok {Element Error : Type} {check : Element → Except Error Unit}
    {elements : List Element} (passes : firstError check elements = .ok ()) :
    ∀ element ∈ elements, check element = .ok () := by
  induction elements with
  | nil => simp
  | cons first rest ih =>
      rw [firstError] at passes
      split at passes
      · rename_i fine
        intro element among
        rcases List.mem_cons.mp among with rfl | behind
        · exact fine
        · exact ih passes element behind
      · cases passes

/-- A message of the new document has its stable name on some channel. -/
theorem named_on_channel {root : Value} {name : String} (named : name ∈ (collectMessages root).keys) :
    ∃ entry ∈ (channelsOf root).getD [], name ∈ (channelMessages entry).keys := by
  obtain ⟨message, found⟩ := Option.isSome_iff_exists.mp ((Entries.get?_isSome_iff _ _).mpr named)
  rw [collectMessages, Entries.get?_insertAll, Entries.get?_nil, Option.or_none] at found
  have among := List.mem_reverse.mp (Entries.mem_of_get? found)
  obtain ⟨entry, held, within⟩ := List.mem_flatMap.mp among
  exact ⟨entry, held, List.mem_map_of_mem within⟩

/-- A compatible document keeps the stable name of every message that was not deprecated. -/
theorem message_kept
    (passes : firstError (checkMessage (collectMessages new.root)) (collectMessages old.root) =
      .ok ())
    {name : String} {message : Value}
    (found : Entries.get? (collectMessages old.root) name = some message)
    (live : isMarkedDeprecated message = false) :
    ∃ entry ∈ (channelsOf new.root).getD [], name ∈ (channelMessages entry).keys := by
  have each := firstError_ok passes (name, message) (Entries.mem_of_get? found)
  apply named_on_channel
  rw [← Entries.get?_isSome_iff]
  unfold checkMessage at each
  cases there : Entries.get? (collectMessages new.root) name with
  | none => simp [there, live] at each
  | some other => rfl

end AsyncApiDocument

/-- What the comparison of two documents looks at: every operation of an OpenAPI document, an rpc
unless its last declaration is deprecated, and of the channels of the 2.x line those with a
message whose stable name the new document uses for what this channel publishes alone. -/
def Compared (external : External) (apiType : ApiType) (old new : String) (endpoint : EndpointSpec) :
    Prop :=
  match apiType with
  | .openApi => True
  | .asyncApi => ∃ before after name message, external.parseValue old = .ok before ∧
      external.parseValue new = .ok after ∧ AsyncApiDocument.isV3 after.root = false ∧
      Entries.get? (AsyncApiDocument.collectMessages before.root) name = some message ∧
      AsyncApiDocument.isMarkedDeprecated message = false ∧
      ∀ entry ∈ (AsyncApiDocument.channelsOf after.root).getD [],
        name ∈ (AsyncApiDocument.channelMessages entry).keys →
          entry.1 = endpoint.path ∧
            name ∈ (AsyncApiDocument.variantInserts entry.1 "publish" entry.2).keys
  | .proto => ∃ rpc, Entries.get? (ProtoDocument.parseRpcs external old)
      (endpoint.path, endpoint.method) = some rpc ∧ rpc.deprecated = false

section Kept

variable {external : External} {old new : String} {endpoints later : List EndpointSpec}
  {endpoint : EndpointSpec}

theorem openapi_kept
    (before : parseSpecEndpointsInner external .openApi old = .ok endpoints)
    (after : parseSpecEndpointsInner external .openApi new = .ok later)
    (pass : checkCompatibility external .openApi old new = .pass) (among : endpoint ∈ endpoints)
    (live : endpoint.deprecated = false) : endpointSpecKey endpoint ∈ later.map endpointSpecKey := by
  obtain ⟨oldDocument, readOld, oldEach⟩ := OpenApiDocument.splitOpenapi_ok (mapError_ok before)
  obtain ⟨newDocument, readNew, newEach⟩ := OpenApiDocument.splitOpenapi_ok (mapError_ok after)
  have compatible : OpenApiDocument.checkOpenapiCompatible external oldDocument newDocument =
      .pass := by
    simpa [checkCompatibility, OpenApiDocument.checkBackwardCompatibility, readOld, readNew]
      using pass
  obtain ⟨found, held, -, path, method, deprecated⟩ := exists_left oldEach among
  obtain ⟨operation, kept⟩ := OpenApiDocument.operations_kept compatible held
    (deprecated.symm.trans live)
  obtain ⟨other, there, -, path', method', -⟩ := exists_right newEach kept
  refine List.mem_map.mpr ⟨other, there, Prod.ext ?_ ?_⟩
  · exact path'.trans path.symm
  · exact method'.trans method.symm

theorem proto_kept (before : parseSpecEndpointsInner external .proto old = .ok endpoints)
    (after : parseSpecEndpointsInner external .proto new = .ok later)
    (pass : checkCompatibility external .proto old new = .pass) (among : endpoint ∈ endpoints)
    (compared : Compared external .proto old new endpoint) :
    endpointSpecKey endpoint ∈ later.map endpointSpecKey := by
  obtain ⟨rpc, parsed, live⟩ := compared
  have path := normalizedPath_eq before (by simp) endpoint among
  cases after
  rw [ProtoDocument.splitProto_keys, endpointSpecKey, path]
  exact ProtoDocument.rpc_kept pass parsed live

theorem asyncapi_kept (before : parseSpecEndpointsInner external .asyncApi old = .ok endpoints)
    (after : parseSpecEndpointsInner external .asyncApi new = .ok later)
    (pass : checkCompatibility external .asyncApi old new = .pass) (among : endpoint ∈ endpoints)
    (compared : Compared external .asyncApi old new endpoint) :
    endpointSpecKey endpoint ∈ later.map endpointSpecKey := by
  obtain ⟨first, second, name, message, readOld, readNew, older, found, live, only⟩ := compared
  have path := normalizedPath_eq before (by simp) endpoint among
  have passes : AsyncApiDocument.firstError
      (AsyncApiDocument.checkMessage (AsyncApiDocument.collectMessages second.root))
      (AsyncApiDocument.collectMessages first.root) = .ok () := by
    simpa [checkCompatibility, AsyncApiDocument.checkBackwardCompatibility, readOld, readNew]
      using pass
  obtain ⟨entry, held, named⟩ := AsyncApiDocument.message_kept passes found live
  obtain ⟨channel, published⟩ := only entry held named
  obtain ⟨specs, split, rfl⟩ := map_ok after
  obtain ⟨document, read, keys⟩ := AsyncApiDocument.splitAsyncapi_channels (mapError_ok split)
  cases readNew.symm.trans read
  have method : endpoint.method = "PUB" := by
    obtain ⟨oldSpecs, -, rfl⟩ := map_ok before
    obtain ⟨spec, within, rfl⟩ := List.mem_map.mp among
    simpa using (List.mem_filter.mp within).2
  rw [keys]
  refine List.mem_map.mpr ⟨endpoint.path, ?_, Prod.ext path.symm method.symm⟩
  rw [AsyncApiDocument.providedChannels, older, AsyncApiDocument.publishedChannels]
  refine List.mem_filterMap.mpr ⟨entry, held, ?_⟩
  rw [AsyncApiDocument.publishedChannel, ← channel]
  cases publish : entry.2.get? "publish" with
  | none => simp [AsyncApiDocument.variantInserts, publish, Entries.keys] at published
  | some value => rfl

/-- A compatible document keeps every endpoint that was not deprecated and is compared. -/
theorem compared_kept {apiType : ApiType}
    (before : parseSpecEndpoints external apiType old = .ok endpoints)
    (after : parseSpecEndpoints external apiType new = .ok later)
    (pass : checkCompatibility external apiType old new = .pass) (among : endpoint ∈ endpoints)
    (live : endpoint.deprecated = false) (compared : Compared external apiType old new endpoint) :
    endpointSpecKey endpoint ∈ later.map endpointSpecKey := by
  have before := (parseSpecEndpoints_ok before).1
  have after := (parseSpecEndpoints_ok after).1
  cases apiType with
  | openApi => exact openapi_kept before after pass among live
  | asyncApi => exact asyncapi_kept before after pass among compared
  | proto => exact proto_kept before after pass among compared

end Kept
end Sanshain.Document
