import Sanshain.Guarantees.Versions
import Sanshain.Infrastructure.CachedStore

namespace Sanshain.Guarantees

open Sanshain.Data Sanshain.Domain Sanshain.Document Sanshain.Effects Sanshain.Infrastructure

theorem display_injective : Function.Injective SemVer.display := by
  intro first second same
  have read : ∀ version : SemVer, SemVer.fromStr version.display = some version := fun version =>
    (fromStr_iff _ _).mpr (versionText_signed (display_versionText version))
  exact Option.some.inj ((read first).symm.trans (same ▸ read second))

/-- A table of the one spelling in which some normalized channels and methods are asked for. -/
abbrev Spelling := String → Option String

section Truth

/-- The endpoint of a version that is stored under this text. -/
def storedEndpoint (store : Store) (specVersionId : Nat) (apiType : ApiType) (stored method : String) :
    Option (String × Bool) :=
  ((store.endpointsOf specVersionId).find? fun endpoint =>
    endpoint.apiType = apiType ∧ endpoint.normalizedPath = stored ∧ endpoint.method = method).map
      fun endpoint => (endpoint.yamlContent, endpoint.deprecated)

/-- What the database says of a key now. -/
def truth (spelling : Spelling) (store : Store) : (key : CacheKey) → Option key.Value
  | .endpoint specVersionId apiType form method =>
      storedEndpoint store specVersionId apiType
        (if apiType = .openApi then form else (spelling form).getD form) method
  | .versionEndpoints specVersionId => some (store.endpointsOf specVersionId)
  | .specContent specVersionId => (store.specVersionById? specVersionId).map (·.content)
  | .serviceId name => (store.serviceNamed? name).map (·.id)
  | .specVersion serviceId apiType version =>
      (store.specVersions.find? fun row => row.entry.serviceId = serviceId ∧
        row.entry.apiType = apiType ∧ row.entry.version.display = version).map (·.entry)
  | .servicesList _ => some store.listProducers
  | .clientsList _ => some store.listConsumers
  | .setting key => some (Entries.get? store.settings key)
  | .groupsList => some store.groups

/-- The keys that stand for one thing of the database: every one but the list of Consumers, and the
endpoints of a channel or a method whose spellings are not told apart. -/
def StandsForOne (spelling : Spelling) : CacheKey → Prop
  | .endpoint _ apiType form _ => apiType = .openApi ∨ (spelling form).isSome
  | .clientsList _ => False
  | _ => True

/-- The table that a key is read from. -/
def tableOf : CacheKey → Table
  | .serviceId _ | .servicesList _ => .services
  | .clientsList _ => .clients
  | .setting _ => .settings
  | .groupsList => .groups
  | _ => .specVersions

variable {spelling : Spelling} {store after : Store}

/-- What a key says is read from its table. -/
theorem truth_frame {key : CacheKey} (right : StandsForOne spelling key)
    (same : after.table (tableOf key) = store.table (tableOf key)) :
    truth spelling after key = truth spelling store key := by
  cases key with
  | clientsList text => cases right
  | serviceId name =>
      simp only [tableOf, Store.table, Prod.mk.injEq] at same
      simp only [truth, Store.serviceNamed?, same.1]
  | servicesList text =>
      simp only [tableOf, Store.table, Prod.mk.injEq] at same
      simp only [truth, Store.listProducers, same.1]
  | setting key =>
      simp only [tableOf, Store.table] at same
      simp only [truth, same]
  | groupsList =>
      simp only [tableOf, Store.table] at same
      simp only [truth, same]
  | _ =>
      simp only [tableOf, Store.table, Prod.mk.injEq] at same
      simp only [truth, storedEndpoint, Store.endpointsOf, Store.specVersionById?, same.1]

/-- The document of a version and its endpoints. -/
def documentOf (store : Store) (specVersionId : Nat) : Option (String × List EndpointRecord) :=
  (store.specVersionById? specVersionId).map fun row => (row.content, row.endpoints)

/-- A change of the entries alone leaves every document. -/
theorem documentOf_map {change : SpecVersionRow → SpecVersionRow}
    (rows : after.specVersions = store.specVersions.map change)
    (same : ∀ row, (change row).entry.id = row.entry.id ∧ (change row).content = row.content ∧
      (change row).endpoints = row.endpoints) (specVersionId : Nat) :
    documentOf after specVersionId = documentOf store specVersionId := by
  simp only [documentOf, Store.specVersionById?, rows, List.find?_map, Option.map_map]
  congr 1
  · funext row
    simp [same row]
  · congr 1
    funext row
    simp [same row]

/-- What is read of the documents alone: the cleared keys are those of entries. -/
theorem truth_documents {key : CacheKey} (right : StandsForOne spelling key)
    (uncleared : key.isSpecVersion = false) (table : tableOf key = .specVersions)
    (same : ∀ specVersionId, documentOf after specVersionId = documentOf store specVersionId) :
    truth spelling after key = truth spelling store key := by
  have endpoints : ∀ specVersionId,
      after.endpointsOf specVersionId = store.endpointsOf specVersionId := by
    intro specVersionId
    have both := congrArg (Option.map Prod.snd) (same specVersionId)
    simp only [documentOf, Option.map_map] at both
    exact congrArg (fun found => found.getD []) both
  cases key with
  | endpoint specVersionId apiType form method =>
      simp only [truth, storedEndpoint, endpoints]
  | versionEndpoints specVersionId => simp only [truth, endpoints]
  | specContent specVersionId =>
      have both := congrArg (Option.map Prod.fst) (same specVersionId)
      simp only [documentOf, Option.map_map] at both
      exact both
  | specVersion serviceId apiType version => cases uncleared
  | _ => cases table

/-- The row that a displayed version names is the row of the version. -/
theorem truth_specVersion (serviceId : Nat) (apiType : ApiType) (version : SemVer) :
    truth spelling store (.specVersion serviceId apiType version.display) =
      (store.specVersion? (serviceId, apiType, version)).map (·.entry) := by
  simp only [truth, Store.specVersion?, SpecVersionRow.key]
  congr 2
  funext row
  simp [display_injective.eq_iff]

/-- An endpoint is read under the spelling that its normalized path stands for. -/
theorem truth_wanted {specVersionId : Nat} {apiType : ApiType} {path method : String}
    (right : StandsForOne spelling (.wanted specVersionId apiType (path, method)))
    (spelt : apiType ≠ .openApi → ∀ text,
      spelling (OpenApiDocument.normalizePath path) = some text → path = text) :
    truth spelling store (.wanted specVersionId apiType (path, method)) =
      store.findEndpoint specVersionId apiType path method := by
  have looked : (if apiType = .openApi then OpenApiDocument.normalizePath path
      else (spelling (OpenApiDocument.normalizePath path)).getD
        (OpenApiDocument.normalizePath path)) = OpenApiDocument.lookupPath apiType path := by
    by_cases openApi : apiType = .openApi
    · rw [if_pos openApi, openApi]
      rfl
    · obtain among | known := right
      · exact absurd among openApi
      · obtain ⟨text, found⟩ := Option.isSome_iff_exists.mp known
        rw [if_neg openApi, found, Option.getD_some, ← spelt openApi text found]
        cases apiType <;> first | rfl | exact absurd rfl openApi
  simp only [truth, looked]
  rfl

end Truth

section Writes

variable {spelling : Spelling} {store : Store}

/-- A call that fails leaves the store as it was. -/
theorem perform_failed (now : Instant) {request : RepoCall} {error : RepositoryError}
    (failed : (store.perform now request).2 = .error error) : (store.perform now request).1 = store := by
  have tried : ∀ {Result : Type} {outcome : Except RepositoryError (Store × Result)},
      (store.tried outcome).2 = .error error → (store.tried outcome).1 = store := by
    intro Result outcome refused
    obtain ⟨reason, -, same⟩ | ⟨after, result, -, same⟩ := Store.tried_cases store outcome
    · rw [same]
    · rw [same] at refused
      cases refused
  cases request with
  | insertBranch | renameBranch | copyTrunkPinsToBranch | copyTrunkPeripheryToBranch
  | copyBranchPinsToBranch | copyBranchPeripheryToBranch | addServiceTags | upsertSpecVersion
  | recordBranchMemberVersion | recordDependenciesBulk | recordTrunkPins | recordBranchPins
  | upsertChannelMessageContract | reconcileHarvestedSubscriptions | reconcilePeriphery
  | insertWebhookEvents => exact tried failed
  | _ => cases failed

/-- Writes of the marks of an entry leave the documents. -/
theorem documentOf_touch (specVersionId : Nat) (change : SpecVersionMeta → SpecVersionMeta)
    (same : ∀ entry, (change entry).id = entry.id) (other : Nat) :
    documentOf (store.touch specVersionId change) other = documentOf store other := by
  refine documentOf_map rfl (fun row => ?_) other
  split
  · exact ⟨same row.entry, rfl, rfl⟩
  · exact ⟨rfl, rfl, rfl⟩

theorem documentOf_touchTrunk (specVersionId : Nat) (now : Instant) (other : Nat) :
    documentOf (store.touchTrunk specVersionId now) other = documentOf store other := by
  have marked : documentOf (store.touch specVersionId fun entry =>
      { entry with trunkProvidedAt := some now }) other = documentOf store other :=
    documentOf_touch specVersionId (fun entry => { entry with trunkProvidedAt := some now })
      (fun _ => rfl) other
  unfold Store.touchTrunk
  split <;> exact marked

theorem documentOf_closeExpired (cutoff now : Instant) (other : Nat) :
    documentOf (store.closeExpiredTrunkData cutoff now).1 other = documentOf store other := by
  refine documentOf_map rfl (fun row => ?_) other
  unfold Store.clearMarker
  split <;> exact ⟨rfl, rfl, rfl⟩

/-- No snapshot has expired when none was counted. -/
theorem deleteExpiredSnapshots_none (cutoff : Instant)
    (none : (store.deleteExpiredSnapshots cutoff).2 = 0) :
    (store.deleteExpiredSnapshots cutoff).1.specVersions = store.specVersions := by
  simp only [Store.deleteExpiredSnapshots] at none ⊢
  apply List.filter_eq_self.mpr
  apply List.length_filter_eq_length_iff.mp
  have le := List.length_filter_le (fun row => !Store.expired cutoff row) store.specVersions
  omega

theorem deleteSpecVersion_absent (now : Instant) (specVersionId : Nat)
    (absent : (store.deleteSpecVersion now specVersionId).2 = false) :
    (store.deleteSpecVersion now specVersionId).1.specVersions = store.specVersions := by
  unfold Store.deleteSpecVersion at absent ⊢
  split at absent
  · rfl
  · cases absent

/-- Making sure of a service leaves what other names stand for. -/
theorem serviceNamed?_ensureService {name other : String} (away : other ≠ name) :
    (store.ensureService name).1.serviceNamed? other = store.serviceNamed? other := by
  unfold Store.ensureService
  split
  · rfl
  · simp [Store.serviceNamed?, List.find?_append, away.symm]

theorem serviceNamed?_ensured (name : String) :
    ((store.ensureService name).1.serviceNamed? name).map (·.id) =
      some (store.ensureService name).2 := by
  unfold Store.ensureService
  split
  · rename_i row found
    rw [found]
    rfl
  · rename_i missing
    rw [Store.serviceNamed?] at missing
    simp [Store.serviceNamed?, List.find?_append, missing]

/-- Deleting a service leaves the others, since none of them has its identifier. -/
theorem serviceNamed?_deleteProducer (sound : store.Integrity) (now : Instant) {name other : String}
    (away : other ≠ name) :
    (store.deleteProducer now name).1.serviceNamed? other = store.serviceNamed? other := by
  unfold Store.deleteProducer
  split
  · rfl
  · rename_i service found
    have own := List.find?_some found
    have among := List.mem_of_find?_eq_some found
    have distinct : ∀ row ∈ store.services, row.name = other → row.id ≠ service.id := by
      intro row there named same
      have equal := List.inj_on_of_nodup_map sound.serviceIds there among same
      subst equal
      exact away (named.symm.trans (of_decide_eq_true own))
    simp only [Store.serviceNamed?, List.find?_filter]
    apply List.find?_congr
    intro row there
    by_cases named : row.name = other
    · simp [named, distinct row there named]
    · simp [named]

/-- The keys that a write which answered may change. -/
def reaches : (request : RepoCall) → request.Result → CacheKey → Bool
  | .upsertSpecVersion _, _ => CacheKey.ofSpecs
  | .ensureService name, _ => fun key => key = .serviceId name || key.isServicesList
  | request, result => CachedSpecRepository.invalidates request result

/-- What is derived from stored versions is read from their rows. -/
theorem truth_rows {after : Store} {key : CacheKey} (specs : key.ofSpecs = true)
    (rows : after.specVersions = store.specVersions) :
    truth spelling after key = truth spelling store key := by
  cases key with
  | endpoint | versionEndpoints | specContent | specVersion =>
      simp only [truth, storedEndpoint, Store.endpointsOf, Store.specVersionById?, rows]
  | _ => cases specs

theorem writes_services {request : RepoCall} (written : Table.services ∈ writes request) :
    (∃ name, request = .ensureService name) ∨ (∃ name, request = .deleteProducer name) ∨
      request = .deleteAllServices ∨ request = .nukeDatabase := by
  cases request <;> simp [writes] at written ⊢

/-- A name or the list of Producers, where a write reaches neither. -/
theorem truth_services (sound : store.Integrity) (now : Instant) {request : RepoCall}
    {result : request.Result} (written : Table.services ∈ writes request) {key : CacheKey}
    (table : tableOf key = .services) (unreached : reaches request result key = false) :
    truth spelling (store.perform now request).1 key = truth spelling store key := by
  obtain ⟨name, rfl⟩ | ⟨name, rfl⟩ | rfl | rfl := writes_services written
  · cases key with
    | serviceId other =>
        have away : other ≠ name := by
          rintro rfl
          simp [reaches] at unreached
        exact congrArg (Option.map (·.id)) (serviceNamed?_ensureService away)
    | servicesList text => simp [reaches, CacheKey.isServicesList] at unreached
    | _ => cases table
  · cases key with
    | serviceId other =>
        have away : other ≠ name := by
          rintro rfl
          simp [reaches, CachedSpecRepository.invalidates] at unreached
        exact congrArg (Option.map (·.id)) (serviceNamed?_deleteProducer sound now away)
    | servicesList text =>
        simp [reaches, CachedSpecRepository.invalidates, CacheKey.isServicesList] at unreached
    | _ => cases table
  · cases unreached
  · cases unreached

/-- The writes of version rows: of documents, of the marks of entries alone, and deletions. -/
theorem writes_specVersions {request : RepoCall} (written : Table.specVersions ∈ writes request)
    (result : request.Result) :
    (∀ key, key.ofSpecs = true → reaches request result key = true) ∨
      (reaches request result = CacheKey.isSpecVersion ∧ ∀ store now specVersionId,
        documentOf (Store.perform store now request).1 specVersionId =
          documentOf store specVersionId) ∨
      ∀ store now, (Store.perform store now request).2 = .ok result →
        (Store.perform store now request).1.specVersions = store.specVersions := by
  cases request with
  | upsertSpecVersion params => exact .inl fun key specs => specs
  | touchSpecVersionProvided specVersionId nowIso =>
      exact .inr (.inl ⟨rfl, fun store _ => documentOf_touch specVersionId
        (fun entry => { entry with updatedAt := nowIso }) fun _ => rfl⟩)
  | touchSpecVersionRequired specVersionId nowIso =>
      exact .inr (.inl ⟨rfl, fun store _ => documentOf_touch specVersionId
        (fun entry => { entry with lastRequiredAt := some nowIso }) fun _ => rfl⟩)
  | touchSpecVersionTrunk specVersionId nowIso =>
      exact .inr (.inl ⟨rfl, fun store _ => documentOf_touchTrunk specVersionId nowIso⟩)
  | closeExpiredTrunkData cutoff nowIso =>
      exact .inr (.inl ⟨rfl, fun store _ => documentOf_closeExpired cutoff nowIso⟩)
  | deleteSpecVersion specVersionId =>
      cases result with
      | true => exact .inl fun key specs => specs
      | false =>
          exact .inr (.inr fun store now answered =>
            deleteSpecVersion_absent now specVersionId (Except.ok.inj answered))
  | deleteExpiredSnapshots cutoff =>
      cases result with
      | zero =>
          exact .inr (.inr fun store now answered =>
            deleteExpiredSnapshots_none cutoff (Except.ok.inj answered))
      | succ count =>
          refine .inl fun key specs => ?_
          simp [reaches, CachedSpecRepository.invalidates, specs]
  | deleteProducer name =>
      refine .inl fun key specs => ?_
      simp [reaches, CachedSpecRepository.invalidates, specs]
  | deleteAllServices => exact .inl fun _ _ => rfl
  | nukeDatabase => exact .inl fun _ _ => rfl
  | _ => simp [writes] at written

/-- What a write does not reach stays true. -/
theorem truth_unreached (sound : store.Integrity) (now : Instant) {request : RepoCall}
    {result : request.Result} (answered : (store.perform now request).2 = .ok result)
    {key : CacheKey} (right : StandsForOne spelling key) (unreached : reaches request result key = false) :
    truth spelling (store.perform now request).1 key = truth spelling store key := by
  by_cases written : tableOf key ∈ writes request
  swap
  · exact truth_frame right (Store.perform_frame store now written)
  cases table : tableOf key with
  | services => exact truth_services sound now (table ▸ written) table unreached
  | specVersions =>
      have specs : key.ofSpecs = true := by
        cases key <;> first | rfl | cases table
      obtain all | ⟨marks, documents⟩ | rows := writes_specVersions (table ▸ written) result
      · exact absurd (all key specs) (by simp [unreached])
      · rw [marks] at unreached
        exact truth_documents right unreached table (documents store now)
      · exact truth_rows specs (rows store now answered)
  | settings =>
      rw [table] at written
      exact absurd written (by cases request <;> simp [writes])
  | groups =>
      rw [table] at written
      exact absurd written (by cases request <;> simp [writes])
  | clients =>
      cases key with
      | clientsList text => cases right
      | _ => cases table
  | _ => cases key <;> cases table

end Writes

end Sanshain.Guarantees
