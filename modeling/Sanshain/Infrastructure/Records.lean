import Sanshain.History.Untimed
import Sanshain.Infrastructure.Timeline
import Sanshain.Infrastructure.World

namespace Sanshain.Infrastructure

open Sanshain.Data Sanshain.Domain Sanshain.History

abbrev BarePin := Bare PinKey SemVer PinLabel

abbrev PinPut := PinKey × SemVer × PinLabel

def PinRow.bare (row : PinRow) : BarePin := row.entry.bare

/-- A recorded dependency, whenever it was last seen. -/
def putDependency (rows : List RecordDependencyParams) (params : RecordDependencyParams) :
    List RecordDependencyParams :=
  if rows.any fun row =>
      row.clientId = params.clientId ∧ row.specVersionId = params.specVersionId ∧
        row.apiType = params.apiType ∧ row.path = params.path ∧ row.method = params.method then rows
  else rows ++ [params]

/-- The dependencies and pins of a store, up to instants. -/
@[ext] structure Records where
  dependencies : List RecordDependencyParams
  trunkPins : List BarePin
  branchPins : Nat → List BarePin

/-- What a require records in a stream: its dependencies, and its pins on trunk or in a branch. -/
def Records.require (stream : ResolvedStream) (dependencies : List RecordDependencyParams)
    (puts : List PinPut) (records : Records) : Records where
  dependencies := dependencies.foldl putDependency records.dependencies
  trunkPins :=
    if stream.branch.isNone ∧ stream.trunk = true then puts.foldl putBare records.trunkPins
    else records.trunkPins
  branchPins := fun branchId =>
    if stream.branch.map (·.id) = some branchId then puts.foldl putBare (records.branchPins branchId)
    else records.branchPins branchId

namespace Records

variable {stream : ResolvedStream} {dependencies more : List RecordDependencyParams}
  {puts later : List PinPut} {records : Records}

@[simp] theorem require_nil : records.require stream [] [] = records := by
  ext
  · rfl
  · simp [require]
  · simp [require]

theorem require_append :
    records.require stream (dependencies ++ more) (puts ++ later) =
      (records.require stream dependencies puts).require stream more later := by
  have branches : (records.require stream (dependencies ++ more) (puts ++ later)).branchPins =
      ((records.require stream dependencies puts).require stream more later).branchPins := by
    funext branchId
    simp only [require]
    split <;> simp
  have trunk : (records.require stream (dependencies ++ more) (puts ++ later)).trunkPins =
      ((records.require stream dependencies puts).require stream more later).trunkPins := by
    simp only [require]
    split <;> simp
  have deps : (records.require stream (dependencies ++ more) (puts ++ later)).dependencies =
      ((records.require stream dependencies puts).require stream more later).dependencies := by
    simp only [require, List.foldl_append]
  exact Records.ext deps trunk branches

/-- Puts that leave the same pins are one record. -/
theorem require_congr (same : ∀ rows, puts.foldl putBare rows = later.foldl putBare rows) :
    require stream dependencies puts = require stream dependencies later := by
  funext records
  simp only [require, same]

end Records

namespace Store

def records (store : Store) : Records where
  dependencies := store.dependencies.map (·.params)
  trunkPins := store.trunkPins.map PinRow.bare
  branchPins := fun branchId => (store.branchPinsOf branchId).map PinRow.bare

section Dependencies

theorem params_recordDependency (now : Instant) (rows : List DependencyRow)
    (params : RecordDependencyParams) :
    (recordDependency now rows params).map (·.params) =
      putDependency (rows.map (·.params)) params := by
  have kept (same : DependencyRow → Prop) [DecidablePred same] :
      (rows.map fun row => if same row then { row with lastSeenAt := now } else row).map (·.params) =
        rows.map (·.params) := by
    rw [List.map_map]
    apply List.map_congr_left
    intro row _
    by_cases here : same row <;> simp [here]
  have agree (same : RecordDependencyParams → Bool) :
      (rows.map (·.params)).any same = rows.any fun row => same row.params := by
    rw [List.any_map]
    rfl
  unfold recordDependency putDependency
  dsimp only
  rw [agree]
  split
  · exact kept _
  · rw [List.map_append]
    rfl

theorem params_recordDependencies (now : Instant) (batch : List RecordDependencyParams)
    (rows : List DependencyRow) :
    (batch.foldl (recordDependency now) rows).map (·.params) =
      batch.foldl putDependency (rows.map (·.params)) := by
  induction batch generalizing rows with
  | nil => rfl
  | cons params rest ih => rw [List.foldl_cons, List.foldl_cons, ih, params_recordDependency]

end Dependencies

section Pins

variable {store after : Store}

/-- A pin as it is put under its key. -/
def pinPut (store : Store) (pin : RecordPinParams) : PinPut :=
  (pinKey pin, pin.version,
    ((store.clientName? pin.clientId).getD "", (store.serviceName? pin.serviceId).getD "", pin.path))

theorem bare_recordPins {batch : List RecordPinParams} {rows pins : List PinRow}
    (recorded : batch.foldlM store.recordPin rows = .ok pins) :
    pins.map PinRow.bare = (batch.map store.pinPut).foldl putBare (rows.map PinRow.bare) := by
  have entries (rows : List PinRow) : rows.map PinRow.bare = (rows.map PinRow.entry).map Entry.bare := by
    rw [List.map_map]
    rfl
  rw [entries, entries, recordPins_applies recorded]
  exact bare_applyAll store.putPin store.pinPut (fun _ => rfl) batch _

/-- Pins of clients and services that exist are recorded. -/
theorem recordPins_succeeds {batch : List RecordPinParams} (rows : List PinRow)
    (known : ∀ pin ∈ batch, (store.clientName? pin.clientId).isSome ∧
      (store.serviceName? pin.serviceId).isSome) :
    ∃ pins, batch.foldlM store.recordPin rows = .ok pins := by
  induction batch generalizing rows with
  | nil => exact ⟨rows, rfl⟩
  | cons pin rest ih =>
      obtain ⟨client, service⟩ := known pin List.mem_cons_self
      obtain ⟨clientName, client⟩ := Option.isSome_iff_exists.mp client
      obtain ⟨serviceName, service⟩ := Option.isSome_iff_exists.mp service
      have first : ∃ middle, store.recordPin rows pin = .ok middle := by
        unfold recordPin
        rw [client, service]
        split
        · exact ⟨_, rfl⟩
        · exact ⟨_, rfl⟩
      obtain ⟨middle, first⟩ := first
      obtain ⟨pins, recorded⟩ := ih middle fun other among => known other (List.mem_cons_of_mem _ among)
      exact ⟨pins, by rw [List.foldlM_cons, first]; exact recorded⟩

end Pins

section Clients

variable (store : Store) (name : String)

/-- A client that is known keeps its identifier. -/
theorem ensureClient_again :
    (store.ensureClient name).1.ensureClient name = store.ensureClient name := by
  unfold ensureClient clientNamed?
  cases found : store.clients.find? (·.2 = name) with
  | some row => simp [found]
  | none => simp [List.find?_append, found]

theorem clientName?_ensured :
    ((store.ensureClient name).1.clientName? (store.ensureClient name).2).isSome := by
  have known : ∃ row ∈ (store.ensureClient name).1.clients, row.1 = (store.ensureClient name).2 := by
    unfold ensureClient
    split
    · rename_i row found
      exact ⟨row, List.mem_of_find?_eq_some found, rfl⟩
    · exact ⟨_, List.mem_append_right _ (List.mem_singleton_self _), rfl⟩
  obtain ⟨row, among, same⟩ := known
  rw [clientName?, Option.isSome_map, List.find?_isSome]
  exact ⟨row, among, decide_eq_true same⟩

theorem records_ensureClient : (store.ensureClient name).1.records = store.records := by
  unfold ensureClient
  split
  · rfl
  · rfl

end Clients

section Lasting

/-- A version but for when it was last asked for. -/
def lasting (row : SpecVersionRow) : SpecVersionRow :=
  { row with entry := { row.entry with lastRequiredAt := none } }

/-- What a require of a client reads of the store to resolve what it asks for is the same. -/
structure Resolves (name : String) (before after : Store) : Prop where
  services : after.services = before.services
  branches : after.branches = before.branches
  webhooks : after.webhooks = before.webhooks
  versions : after.specVersions.map lasting = before.specVersions.map lasting
  clientId : (after.ensureClient name).2 = (before.ensureClient name).2
  clients : (after.ensureClient name).1.clients = (before.ensureClient name).1.clients

namespace Resolves

variable {name : String} {before middle after : Store}

theorem refl (store : Store) : Resolves name store store := ⟨rfl, rfl, rfl, rfl, rfl, rfl⟩

theorem trans (first : Resolves name before middle) (second : Resolves name middle after) :
    Resolves name before after :=
  ⟨second.services.trans first.services, second.branches.trans first.branches,
    second.webhooks.trans first.webhooks, second.versions.trans first.versions,
    second.clientId.trans first.clientId, second.clients.trans first.clients⟩

theorem find (same : Resolves name before after) (wanted : SpecVersionRow → Bool)
    (lasts : ∀ row, wanted (lasting row) = wanted row) :
    (after.specVersions.find? wanted).map lasting = (before.specVersions.find? wanted).map lasting := by
  have through (rows : List SpecVersionRow) :
      (rows.find? wanted).map lasting = (rows.map lasting).find? wanted := by
    rw [List.find?_map]
    congr 2
    funext row
    exact (lasts row).symm
  rw [through, through, same.versions]

theorem specVersion? (same : Resolves name before after) (key : Nat × ApiType × SemVer) :
    (after.specVersion? key).map lasting = (before.specVersion? key).map lasting :=
  same.find _ fun _ => rfl

theorem findEndpoint (same : Resolves name before after) (specVersionId : Nat) (apiType : ApiType)
    (path method : String) :
    after.findEndpoint specVersionId apiType path method =
      before.findEndpoint specVersionId apiType path method := by
  have endpoints (store : Store) : store.endpointsOf specVersionId =
      (((store.specVersionById? specVersionId).map lasting).map (·.endpoints)).getD [] := by
    rw [endpointsOf, Option.map_map]
    rfl
  have found : (after.specVersionById? specVersionId).map lasting =
      (before.specVersionById? specVersionId).map lasting := same.find _ fun _ => rfl
  rw [Store.findEndpoint, Store.findEndpoint, endpoints after, found, ← endpoints before]

end Resolves

/-- What leaves the tables a require resolves by leaves what it resolves. -/
theorem Resolves.of_tables {name : String} {before after : Store}
    (services : after.services = before.services) (branches : after.branches = before.branches)
    (webhooks : after.webhooks = before.webhooks)
    (versions : after.specVersions.map lasting = before.specVersions.map lasting)
    (clients : after.clients = before.clients) (next : after.nextClientId = before.nextClientId) :
    Resolves name before after := by
  have named : after.clientNamed? name = before.clientNamed? name := by
    rw [clientNamed?, clientNamed?, clients]
  refine ⟨services, branches, webhooks, versions, ?_, ?_⟩
  · unfold ensureClient
    rw [named, next]
    split <;> rfl
  · unfold ensureClient
    rw [named, next]
    split
    · exact clients
    · change after.clients ++ _ = before.clients ++ _
      rw [clients]

variable (store : Store) (name : String)

theorem resolves_ensureClient : Resolves name store (store.ensureClient name).1 := by
  have unchanged (table : Table) (other : table ≠ .clients) := store.table_ensureClient name other
  refine ⟨(Prod.mk.inj (unchanged .services (by decide))).1,
    (Prod.mk.inj (unchanged .branches (by decide))).1, ?_, ?_, ?_, ?_⟩
  · unfold ensureClient
    split <;> rfl
  · unfold ensureClient
    split <;> rfl
  · rw [ensureClient_again]
  · rw [ensureClient_again]

theorem lasting_touched (specVersionId : Nat) (now : Instant) :
    (store.touch specVersionId fun entry => { entry with lastRequiredAt := some now }).specVersions.map
        lasting = store.specVersions.map lasting := by
  rw [touch, List.map_map]
  apply List.map_congr_left
  intro row _
  by_cases here : row.entry.id = specVersionId
  · simp [here, lasting]
  · simp [here]

end Lasting

end Store
end Sanshain.Infrastructure
