import Sanshain.Effects.Steps
import Sanshain.Guarantees.Clients
import Sanshain.Infrastructure.Timeline

namespace Sanshain.Guarantees

open Sanshain.Data Sanshain.Domain Sanshain.Effects Sanshain.Application Sanshain.Infrastructure

def openRows (rows : List PinRow) : List PinRow := rows.filter (·.validTo = none)

/-- How an edge of the main graph is named. -/
def edgeName (pin : PinInfo) : String × String × ApiType × String × String :=
  (pin.client, pin.service, pin.apiType, pin.normalizedPath, pin.method)

/-- Every edge of the current main graph joins a client and a service that are there, and appears
once. -/
structure NoGhostEdges (store : Store) : Prop where
  services : ∀ row ∈ openRows store.trunkPins, row.serviceId ∈ store.services.map (·.id)
  clients : ∀ row ∈ openRows store.trunkPins, row.clientId ∈ store.clients.map Prod.fst
  single : (store.listCurrentTrunkPins.map edgeName).Nodup

/-- The removals that do not write the pins of trunk are made when none of them is open. -/
def SweepsClean (database : Database) (call : Instant × RepoCall) : Prop :=
  call.2.sweeps = true → openRows database.store.trunkPins = []

/-- Open pins carry the names of their participants, and no two of them share a key. -/
structure LiveEdges (store : Store) (rows : List PinRow) : Prop where
  services : ∀ row ∈ openRows rows, store.serviceName? row.serviceId = some row.serviceName
  clients : ∀ row ∈ openRows rows, store.clientName? row.clientId = some row.clientName
  keys : ((openRows rows).map PinRow.key).Nodup

/-- A rewriting that leaves a pin under its key and its names, and opens none. -/
structure Narrows (change : PinRow → PinRow) : Prop where
  key : ∀ row, (change row).key = row.key
  names : ∀ row, (change row).clientName = row.clientName ∧ (change row).serviceName = row.serviceName
  opened : ∀ row, (change row).validTo = none → row.validTo = none

section Edges

variable {store after : Store} {rows pins : List PinRow} {change : PinRow → PinRow}

theorem mem_openRows {row : PinRow} : row ∈ openRows rows ↔ row ∈ rows ∧ row.validTo = none := by
  simp [openRows]

theorem Narrows.ids (narrows : Narrows change) (row : PinRow) :
    (change row).clientId = row.clientId ∧ (change row).serviceId = row.serviceId := by
  have same := narrows.key row
  simp only [PinRow.key, Prod.mk.injEq] at same
  exact ⟨same.1, same.2.1⟩

theorem openRows_map (narrows : Narrows change) :
    openRows (rows.map change) = ((openRows rows).map change).filter (·.validTo = none) := by
  induction rows with
  | nil => rfl
  | cons row rest ih =>
      simp only [openRows, List.map_cons] at ih ⊢
      by_cases still : (change row).validTo = none
      · have before := narrows.opened row still
        simp [still, before, ih]
      · by_cases before : row.validTo = none
        · simp [still, before, ih]
        · simp [still, before, ih]

/-- What narrows the pins keeps the edges live. -/
theorem LiveEdges.map (live : LiveEdges store rows) (narrows : Narrows change) :
    LiveEdges store (rows.map change) := by
  have came : ∀ row ∈ openRows (rows.map change), ∃ old ∈ openRows rows, change old = row := by
    intro row among
    rw [openRows_map narrows] at among
    exact List.mem_map.mp (List.mem_filter.mp among).1
  constructor
  · intro row among
    obtain ⟨old, held, rfl⟩ := came row among
    rw [(narrows.ids old).2, (narrows.names old).2]
    exact live.services old held
  · intro row among
    obtain ⟨old, held, rfl⟩ := came row among
    rw [(narrows.ids old).1, (narrows.names old).1]
    exact live.clients old held
  · have same : ((openRows rows).map change).map PinRow.key = (openRows rows).map PinRow.key := by
      rw [List.map_map]
      exact List.map_congr_left fun row _ => narrows.key row
    rw [openRows_map narrows]
    have thinned : (((openRows rows).map change).filter (·.validTo = none)).Sublist
        ((openRows rows).map change) := List.filter_sublist
    exact (same ▸ live.keys).sublist (thinned.map PinRow.key)

theorem narrows_closePinsIf (leaves : PinRow → Bool) (now : Instant) :
    Narrows (Store.closePinsIf leaves now) where
  key row := by
    unfold Store.closePinsIf
    split <;> rfl
  names row := by
    unfold Store.closePinsIf
    split <;> exact ⟨rfl, rfl⟩
  opened row := by
    unfold Store.closePinsIf
    split
    · intro still
      cases still
    · exact id

theorem narrows_refreshPin (pin : RecordPinParams) : Narrows (Store.refreshPin pin) where
  key row := by
    unfold Store.refreshPin
    split
    · split <;> rfl
    · rfl
  names row := by
    unfold Store.refreshPin
    split
    · split <;> exact ⟨rfl, rfl⟩
    · exact ⟨rfl, rfl⟩
  opened row := by
    unfold Store.refreshPin
    split
    · split
      · exact id
      · intro still
        cases still
    · exact id

/-- A pin that no open row holds leaves no open row of its key behind. -/
theorem refreshPin_vacates {pin : RecordPinParams} {row : PinRow}
    (fresh : Store.holdsPin pin row = false) (still : (Store.refreshPin pin row).validTo = none) :
    (Store.refreshPin pin row).key ≠
      (pin.clientId, pin.serviceId, pin.apiType, pin.normalizedPath, pin.method) := by
  intro same
  have before := (narrows_refreshPin pin).opened row still
  rw [(narrows_refreshPin pin).key] at same
  simp only [Store.holdsPin, Bool.and_eq_false_iff, decide_eq_false_iff_not] at fresh
  unfold Store.refreshPin at still
  rw [if_pos ⟨same, before⟩] at still
  split at still
  · rename_i version
    simp [same, before, version] at fresh
  · cases still

theorem LiveEdges.recordPin (live : LiveEdges store rows) {pin : RecordPinParams}
    (recorded : store.recordPin rows pin = .ok pins) : LiveEdges store pins := by
  have refreshed := live.map (narrows_refreshPin pin)
  unfold Store.recordPin at recorded
  split at recorded
  · cases recorded
    exact refreshed
  · rename_i fresh
    split at recorded
    · rename_i clientName serviceName client service
      cases recorded
      have vacated : ∀ row ∈ openRows (rows.map (Store.refreshPin pin)), row.key ≠
          (pin.clientId, pin.serviceId, pin.apiType, pin.normalizedPath, pin.method) := by
        intro row among
        obtain ⟨held, still⟩ := mem_openRows.mp among
        obtain ⟨old, there, rfl⟩ := List.mem_map.mp held
        have unheld : Store.holdsPin pin old = false := by
          by_contra holding
          exact fresh (List.any_eq_true.mpr ⟨old, there, by simpa using holding⟩)
        exact refreshPin_vacates unheld still
      constructor
      · intro row among
        obtain ⟨held, still⟩ := mem_openRows.mp among
        rcases List.mem_append.mp held with old | new
        · exact refreshed.services row (mem_openRows.mpr ⟨old, still⟩)
        · cases List.mem_singleton.mp new
          exact service
      · intro row among
        obtain ⟨held, still⟩ := mem_openRows.mp among
        rcases List.mem_append.mp held with old | new
        · exact refreshed.clients row (mem_openRows.mpr ⟨old, still⟩)
        · cases List.mem_singleton.mp new
          exact client
      · rw [openRows, List.filter_append, ← openRows, List.map_append]
        apply List.Nodup.append refreshed.keys (by simp)
        intro key among among'
        obtain ⟨row, held, rfl⟩ := List.mem_map.mp among
        exact vacated row held (by simpa [PinRow.key] using among')
    · cases recorded

theorem LiveEdges.recordPins (live : LiveEdges store rows) {batch : List RecordPinParams}
    (recorded : batch.foldlM store.recordPin rows = .ok pins) : LiveEdges store pins := by
  induction batch generalizing rows with
  | nil =>
      cases recorded
      exact live
  | cons pin rest ih =>
      rw [List.foldlM_cons] at recorded
      cases first : store.recordPin rows pin with
      | error error =>
          rw [first] at recorded
          cases recorded
      | ok middle =>
          rw [first] at recorded
          exact ih (live.recordPin first) recorded

/-- The edges stay live where their participants keep their names. -/
theorem LiveEdges.of_names (live : LiveEdges store rows)
    (services : ∀ row ∈ openRows rows, store.serviceName? row.serviceId = some row.serviceName →
      after.serviceName? row.serviceId = some row.serviceName)
    (clients : ∀ row ∈ openRows rows, store.clientName? row.clientId = some row.clientName →
      after.clientName? row.clientId = some row.clientName) : LiveEdges after rows where
  services row among := services row among (live.services row among)
  clients row among := clients row among (live.clients row among)
  keys := live.keys

theorem liveEdges_of_none (none : openRows rows = []) : LiveEdges store rows where
  services row among := by
    rw [none] at among
    cases among
  clients row among := by
    rw [none] at among
    cases among
  keys := by simp [none]

theorem serviceName?_ensureService (store : Store) (name : String) {serviceId : Nat} {held : String}
    (named : store.serviceName? serviceId = some held) :
    (store.ensureService name).1.serviceName? serviceId = some held := by
  unfold Store.ensureService
  split
  · exact named
  · rw [Store.serviceName?, Option.map_eq_some_iff] at named ⊢
    obtain ⟨row, found, same⟩ := named
    exact ⟨row, by rw [List.find?_append, found, Option.some_or], same⟩

theorem clientName?_ensureClient (store : Store) (name : String) {clientId : Nat} {held : String}
    (named : store.clientName? clientId = some held) :
    (store.ensureClient name).1.clientName? clientId = some held := by
  unfold Store.ensureClient
  split
  · exact named
  · rw [Store.clientName?, Option.map_eq_some_iff] at named ⊢
    obtain ⟨row, found, same⟩ := named
    exact ⟨row, by rw [List.find?_append, found, Option.some_or], same⟩

/-- Another element of a list is found as before once one is gone. -/
theorem find?_without {Row : Type} {id : Row → Nat} {rows : List Row} {gone wanted : Nat}
    (other : wanted ≠ gone) :
    (rows.filter fun row => id row ≠ gone).find? (fun row => id row = wanted) =
      rows.find? fun row => id row = wanted := by
  rw [List.find?_filter]
  congr 1
  funext row
  by_cases here : id row = wanted
  · simp [here, other]
  · simp [here]

/-- A call that writes none of the three tables keeps the edges live. -/
theorem LiveEdges.frame (live : LiveEdges store store.trunkPins) (now : Instant) {request : RepoCall}
    (services : .services ∉ writes request) (clients : .clients ∉ writes request)
    (pins : .trunkPins ∉ writes request) :
    LiveEdges (store.perform now request).1 (store.perform now request).1.trunkPins := by
  have sameServices : (store.perform now request).1.services = store.services :=
    (Prod.mk.inj (Store.perform_frame store now services)).1
  have sameClients : (store.perform now request).1.clients = store.clients :=
    (Prod.mk.inj (Store.perform_frame store now clients)).1
  rw [Store.trunkPins_frame store now pins]
  apply live.of_names
  · intro row _ named
    rwa [Store.serviceName?, sameServices]
  · intro row _ named
    rwa [Store.clientName?, sameClients]

/-- The edges that are closed with a Producer leave those of the others live. -/
theorem LiveEdges.deleteProducer (live : LiveEdges store store.trunkPins) (now : Instant)
    (name : String) :
    LiveEdges (store.deleteProducer now name).1 (store.deleteProducer now name).1.trunkPins := by
  unfold Store.deleteProducer
  split
  · exact live
  · rename_i service found
    apply (live.map (narrows_closePinsIf _ now)).of_names
    · intro row among named
      have other : row.serviceId ≠ service.id := by
        intro same
        obtain ⟨held, still⟩ := mem_openRows.mp among
        obtain ⟨old, there, rfl⟩ := List.mem_map.mp held
        have before := (narrows_closePinsIf _ now).opened old still
        rw [((narrows_closePinsIf _ now).ids old).2] at same
        simp [Store.closePinsIf, before, same] at still
      change (List.find? _ (store.services.filter _)).map _ = _
      rw [find?_without other]
      exact named
    · intro row _ named
      exact named

theorem LiveEdges.deleteConsumer (live : LiveEdges store store.trunkPins) (now : Instant)
    (name : String) :
    LiveEdges (store.deleteConsumer now name).1 (store.deleteConsumer now name).1.trunkPins := by
  unfold Store.deleteConsumer
  split
  · exact live
  · rename_i client found
    apply (live.map (narrows_closePinsIf _ now)).of_names
    · intro row _ named
      exact named
    · intro row among named
      have other : row.clientId ≠ client.1 := by
        intro same
        obtain ⟨held, still⟩ := mem_openRows.mp among
        obtain ⟨old, there, rfl⟩ := List.mem_map.mp held
        have before := (narrows_closePinsIf _ now).opened old still
        rw [((narrows_closePinsIf _ now).ids old).1] at same
        simp [Store.closePinsIf, before, same] at still
      change (List.find? _ (store.clients.filter _)).map _ = _
      rw [find?_without other]
      exact named

/-- Every call keeps the edges live, a sweep when no edge is open. -/
theorem LiveEdges.perform (live : LiveEdges store store.trunkPins) (now : Instant)
    {request : RepoCall} (clean : request.sweeps = true → openRows store.trunkPins = []) :
    LiveEdges (store.perform now request).1 (store.perform now request).1.trunkPins := by
  cases request with
  | ensureService name =>
      have clients : (store.ensureService name).1.clients = store.clients :=
        (Prod.mk.inj (@Store.table_ensureService .clients store name (by decide))).1
      rw [Store.trunkPins_frame store now (by simp [writes])]
      apply live.of_names
      · intro row _ named
        exact serviceName?_ensureService store name named
      · intro row _ named
        change (List.find? _ (store.ensureService name).1.clients).map _ = _
        rw [clients]
        exact named
  | ensureClient name =>
      have services : (store.ensureClient name).1.services = store.services :=
        (Prod.mk.inj (@Store.table_ensureClient .services store name (by decide))).1
      rw [Store.trunkPins_frame store now (by simp [writes])]
      apply live.of_names
      · intro row _ named
        change (List.find? _ (store.ensureClient name).1.services).map _ = _
        rw [services]
        exact named
      · intro row _ named
        exact clientName?_ensureClient store name named
  | recordTrunkPins batch =>
      change LiveEdges (store.triedUnit (store.recordTrunkPins batch)).1
        (store.triedUnit (store.recordTrunkPins batch)).1.trunkPins
      obtain ⟨error, -, same⟩ | ⟨after, recorded, same⟩ :=
        Store.triedUnit_cases store (store.recordTrunkPins batch)
      · rw [same]
        exact live
      · rw [same]
        obtain ⟨rows, folded, rfl⟩ := Store.recordTrunkPins_cases recorded
        exact (live.recordPins folded).of_names (fun _ _ named => named) fun _ _ named => named
  | closeTrunkPinsForServiceApi serviceId apiType nowIso =>
      exact (live.map (narrows_closePinsIf _ nowIso)).of_names (fun _ _ named => named)
        fun _ _ named => named
  | closeExpiredTrunkData cutoff nowIso =>
      exact (live.map (narrows_closePinsIf _ nowIso)).of_names (fun _ _ named => named)
        fun _ _ named => named
  | deleteProducer name => exact live.deleteProducer now name
  | deleteConsumer name => exact live.deleteConsumer now name
  | deleteAllServices => exact liveEdges_of_none (clean rfl)
  | deleteAllClients => exact liveEdges_of_none (clean rfl)
  | nukeDatabase => exact liveEdges_of_none (clean rfl)
  | _ => exact live.frame now (by simp [writes]) (by simp [writes]) (by simp [writes])

/-- Live edges are no ghosts: under unique names, what has one name has one key. -/
theorem LiveEdges.noGhosts (live : LiveEdges store store.trunkPins) (sound : store.Integrity)
    (linked : store.Links) : NoGhostEdges store where
  services := by
    intro row among
    have named := live.services row among
    obtain ⟨service, held, same⟩ := (Store.serviceName?_isSome_iff store row.serviceId).mp
      (by simp [named])
    exact same ▸ List.mem_map_of_mem held
  clients := by
    intro row among
    have named := live.clients row among
    rw [Store.clientName?, Option.map_eq_some_iff] at named
    obtain ⟨client, found, -⟩ := named
    have same : client.1 = row.clientId := by simpa using List.find?_some found
    exact same ▸ List.mem_map_of_mem (List.mem_of_find?_eq_some found)
  single := by
    have listed : (store.listCurrentTrunkPins).Perm ((openRows store.trunkPins).map pinInfo) :=
      List.perm_insertionSort pinLe _
    rw [(listed.map edgeName).nodup_iff, List.map_map]
    apply List.Nodup.map_on
    · intro first one second other same
      have distinct := live.keys
      apply List.inj_on_of_nodup_map distinct one other
      simp only [Function.comp_apply, edgeName, pinInfo, Prod.mk.injEq] at same
      obtain ⟨clientName, serviceName, apiType, path, method⟩ := same
      have services : first.serviceId = second.serviceId := by
        have here := live.services first one
        have there := live.services second other
        rw [← serviceName] at there
        exact sound.serviceId_unique here there
      have clients : first.clientId = second.clientId := by
        have here := live.clients first one
        have there := live.clients second other
        rw [← clientName] at there
        exact linked.clientId_unique here there
      simp [PinRow.key, services, clients, apiType, path, method]
    · exact List.Nodup.of_map _ live.keys

/-- Along every sequence of calls no edge is a ghost exactly when every sweep is made while no pin
of trunk is open. -/
theorem noGhostEdges_iff (calls : List (Instant × RepoCall)) :
    Throughout Database.after (fun database => NoGhostEdges database.store) .empty calls ↔
      EveryStep Database.after SweepsClean .empty calls := by
  apply throughout_iff_everyStep fun database =>
    LiveEdges database.store database.store.trunkPins
  · intro database live
    exact live.noGhosts database.sound database.linked
  · intro database call live clean
    exact live.perform call.1 clean
  · intro database call live noGhosts sweeps
    obtain ⟨now, request⟩ := call
    rw [List.eq_nil_iff_forall_not_mem]
    intro row among
    cases request with
    | deleteAllServices => cases noGhosts.services row among
    | deleteAllClients => cases noGhosts.clients row among
    | nukeDatabase => cases noGhosts.services row among
    | _ => cases sweeps
  · exact liveEdges_of_none rfl

end Edges

section Examples

/-- A message is released and required, and then all services are deleted. -/
def requiredThenSwept : UseCase Nat := messageRequired.bind fun _ => Application.deleteAllServices

def keepsEdge (world : World) : Bool :=
  !(openRows world.store.trunkPins).isEmpty && world.store.services.isEmpty

/-- The edge of a deleted Producer is still in the current main graph. -/
theorem ghostEdge_left :
    ∃ count world, requiredThenSwept.run (World.handle steadyEnvironment) emptyWorld =
        some (.ok count, world) ∧ ¬ NoGhostEdges world.store := by
  have ended : answeredWith keepsEdge
      (requiredThenSwept.run (World.handle steadyEnvironment) emptyWorld) = true := by
    decide +kernel
  obtain ⟨count, world, ran, kept⟩ := answeredWith_spec ended
  refine ⟨count, world, ran, fun noGhosts => ?_⟩
  simp only [keepsEdge, Bool.and_eq_true, Bool.not_eq_true', List.isEmpty_eq_false_iff,
    List.isEmpty_iff] at kept
  obtain ⟨row, among⟩ := List.exists_mem_of_ne_nil _ kept.1
  have there := noGhosts.services row among
  rw [kept.2] at there
  cases there

end Examples
end Sanshain.Guarantees
