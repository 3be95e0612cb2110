import Sanshain.History.Declarations
import Sanshain.Infrastructure.Graph

namespace Sanshain.Infrastructure

open Sanshain.Data Sanshain.Domain Sanshain.History

/-- A row of the periphery as a record that a resource belongs to its system. -/
def PeripheryRow.holding (row : PeripheryRow) : Holding String String Instant :=
  ⟨(row.system, row.resource), (), (), row.validFrom, row.validFrom, row.validTo⟩

/-- What one track records. -/
def holdings (track : PeripheryTrack) (rows : List PeripheryRow) : List (Holding String String Instant) :=
  (rows.filter (·.track = track)).map PeripheryRow.holding

namespace Store

section Reconciling

variable {track other : PeripheryTrack} {system : String} {resources : List String} {now : Instant}
  {rows : List PeripheryRow}

theorem heldBy_holdings : heldBy system (holdings track rows) = openResources track system rows := by
  rw [heldBy, holdings, openResources, List.filter_map, List.map_map, List.filter_filter]
  apply congrArg
  apply List.filter_congr
  intro row _
  rw [Function.comp_apply, ← Bool.decide_and, decide_eq_decide, and_comm]
  rfl

/-- The rows of other tracks are not in the record of one. -/
theorem holdings_map {change : PeripheryRow → PeripheryRow} (stays : ∀ row, (change row).track = row.track)
    (rows : List PeripheryRow) :
    holdings track (rows.map change) = (rows.filter (·.track = track)).map fun row => (change row).holding := by
  rw [holdings, List.filter_map, List.map_map]
  apply congrArg
  apply List.filter_congr
  intro row _
  rw [Function.comp_apply, stays]

theorem track_reconciled (row : PeripheryRow) :
    (if row.track = other ∧ row.system = system ∧ row.validTo = none ∧ row.resource ∉ resources then
      { row with validTo := some now } else row).track = row.track := by
  split <;> rfl

/-- The reconciliation of a track is a declaration of the system. -/
theorem holdings_reconcileTrack :
    holdings track (reconcileTrack system resources now rows track) =
      Declaration.apply (holdings track rows) ⟨now, system, resources⟩ := by
  rw [reconcileTrack, holdings, List.filter_append, List.map_append, ← holdings,
    holdings_map track_reconciled, Declaration.apply, heldBy_holdings]
  apply congrArg₂
  · rw [holdings, List.map_map]
    apply List.map_congr_left
    intro row among
    have here : row.track = track := by simpa using (List.mem_filter.mp among).2
    rw [Function.comp_apply, closeEntry]
    by_cases leaves : row.system = system ∧ row.validTo = none ∧ row.resource ∉ resources
    · obtain ⟨mine, opened, gone⟩ := leaves
      simp [here, mine, opened, gone, PeripheryRow.holding]
    · rw [if_neg fun closes => leaves closes.2, if_neg]
      intro closes
      have ends := of_decide_eq_true closes.2
      exact leaves ⟨ends.1, Option.isNone_iff_eq_none.mp closes.1, ends.2⟩
  · rw [List.filter_map, List.filter_eq_self.mpr (by simp), List.map_map]
    rfl

/-- It leaves the other tracks as they are. -/
theorem holdings_reconcile_other (apart : other ≠ track) :
    holdings track (reconcileTrack system resources now rows other) = holdings track rows := by
  rw [reconcileTrack, holdings, List.filter_append, List.map_append, ← holdings,
    holdings_map track_reconciled]
  have nothing : ∀ opened : List String,
      (opened.map fun resource => PeripheryRow.mk other system resource now none).filter
        (·.track = track) = [] := by
    intro opened
    rw [List.filter_eq_nil_iff]
    intro row among
    obtain ⟨resource, -, rfl⟩ := List.mem_map.mp among
    simpa using apart
  rw [nothing, List.map_nil, List.append_nil, holdings]
  apply List.map_congr_left
  intro row among
  have here : row.track = track := by simpa using (List.mem_filter.mp among).2
  rw [if_neg fun closes => apart (closes.1.symm.trans here)]

/-- What a push does to the record of dev or of trunk. -/
theorem holdings_reconciled (trunk : Bool) (stream : track ∈ peripheryTracks true) :
    holdings track ((peripheryTracks trunk).foldl (reconcileTrack system resources now) rows) =
      if track ∈ peripheryTracks trunk then
        Declaration.apply (holdings track rows) ⟨now, system, resources⟩
      else holdings track rows := by
  have streams : track = .dev ∨ track = .trunk := by simpa [peripheryTracks] using stream
  cases trunk with
  | false =>
      change holdings track (reconcileTrack system resources now rows .dev) = _
      obtain rfl | rfl := streams
      · exact holdings_reconcileTrack
      · exact holdings_reconcile_other (by simp)
  | true =>
      change holdings track (reconcileTrack system resources now
        (reconcileTrack system resources now rows .dev) .trunk) = _
      rw [if_pos stream]
      obtain rfl | rfl := streams
      · rw [holdings_reconcile_other (by simp), holdings_reconcileTrack]
      · rw [holdings_reconcileTrack, holdings_reconcile_other (by simp)]

end Reconciling

section Listing

variable {store : Store} {track : PeripheryTrack} {system resource : String}

theorem mem_listPeriphery {instant : Option Instant} :
    PeripheralDependency.mk system resource ∈ store.listPeriphery track instant ↔
      ∃ row ∈ shown PeripheryRow.span (store.peripheryOf track) instant,
        row.system = system ∧ row.resource = resource := by
  rw [listPeriphery, List.mem_insertionSort, List.mem_map]
  simp only [PeripheralDependency.mk.injEq]

/-- What is listed for an instant is what the track records for it. -/
theorem mem_listPeriphery_at {instant : Instant} :
    PeripheralDependency.mk system resource ∈ store.listPeriphery track (some instant) ↔
      Recorded (holdings track store.periphery) instant system resource := by
  rw [mem_listPeriphery, Recorded]
  constructor
  · intro listed
    obtain ⟨row, among, mine, named⟩ := listed
    obtain ⟨there, lasts⟩ := mem_lasting.mp among
    exact ⟨row.holding, mem_lasting.mpr ⟨List.mem_map_of_mem there, lasts⟩,
      Prod.ext mine named⟩
  · intro recorded
    obtain ⟨entry, among, same⟩ := recorded
    obtain ⟨there, lasts⟩ := mem_lasting.mp among
    obtain ⟨row, held, rfl⟩ := List.mem_map.mp there
    exact ⟨row, mem_lasting.mpr ⟨held, lasts⟩, congrArg Prod.fst same, congrArg Prod.snd same⟩

theorem mem_listPeriphery_now :
    PeripheralDependency.mk system resource ∈ store.listPeriphery track none ↔
      resource ∈ openResources track system store.periphery := by
  rw [mem_listPeriphery, openResources, List.mem_map]
  simp only [shown, peripheryOf, List.mem_filter, decide_eq_true_iff]
  constructor
  · intro ⟨row, ⟨⟨there, here⟩, opened⟩, mine, named⟩
    exact ⟨row, ⟨there, here, mine, opened⟩, named⟩
  · intro ⟨row, ⟨there, here, mine, opened⟩, named⟩
    exact ⟨row, ⟨⟨there, here⟩, opened⟩, mine, named⟩

end Listing
end Store
end Sanshain.Infrastructure
