import Sanshain.Infrastructure.Timeline
import Sanshain.Effects.SerialRuns

namespace Sanshain.Infrastructure

open Sanshain.Domain Sanshain.Effects

/-- A pin to be recorded under a key. -/
abbrev KeyedPin (key : PinKey) := { pin : RecordPinParams // pinKey pin = key }

/-- The names that the insert copies from the tables of consumers and Producers. -/
structure PinNames where
  client : Nat → String
  service : Nat → String

/-- The row that the insert makes of a pin. -/
def PinNames.row (names : PinNames) (pin : RecordPinParams) : PinRow :=
  ⟨pin.clientId, names.client pin.clientId, pin.serviceId, names.service pin.serviceId, pin.apiType,
    pin.path, pin.normalizedPath, pin.method, pin.version, pin.nowIso, pin.nowIso, none⟩

theorem PinNames.row_key (names : PinNames) {key : PinKey} (pin : KeyedPin key) :
    (names.row pin.1).key = key := pin.2

/-- The statements of `record_trunk_pins` on the rows of a key. -/
def trunkPinStatements (names : PinNames) (key : PinKey) : Succession PinRow (KeyedPin key) where
  isOpen row := row.key = key && row.validTo.isNone
  records pin row := row.key = key && row.version = pin.1.version
  close pin row := { row with validTo := some pin.1.nowIso }
  refresh pin row := { row with lastRequiredAt := pin.1.nowIso }
  fresh pin := names.row pin.1
  isOpen_close pin row := by simp
  isOpen_refresh pin row := rfl
  isOpen_fresh pin := by
    rw [names.row_key pin]
    simp [PinNames.row]
  records_close pin other row := rfl
  records_refresh pin other row := rfl
  records_fresh pin := by
    rw [names.row_key pin]
    simp [PinNames.row]

/-- The statements of `record_branch_pins` on the rows of a key in a branch. -/
def branchPinStatements (names : PinNames) (branchId : Nat) (key : PinKey) :
    Succession (Nat × PinRow) (KeyedPin key) where
  isOpen row := row.1 = branchId && row.2.key = key && row.2.validTo.isNone
  records pin row := row.1 = branchId && row.2.key = key && row.2.version = pin.1.version
  close pin row := (row.1, { row.2 with validTo := some pin.1.nowIso })
  refresh pin row := (row.1, { row.2 with lastRequiredAt := pin.1.nowIso })
  fresh pin := (branchId, names.row pin.1)
  isOpen_close pin row := by simp
  isOpen_refresh pin row := rfl
  isOpen_fresh pin := by
    rw [names.row_key pin]
    simp [PinNames.row]
  records_close pin other row := rfl
  records_refresh pin other row := rfl
  records_fresh pin := by
    rw [names.row_key pin]
    simp [PinNames.row]

section Alone

variable {names : PinNames} {key : PinKey} {rows : List PinRow} {pin : KeyedPin key}

theorem KeyedPin.key_eq (pin : KeyedPin key) :
    (pin.1.clientId, pin.1.serviceId, pin.1.apiType, pin.1.normalizedPath, pin.1.method) = key :=
  pin.2

theorem holdsPin_eq_upToDate (row : PinRow) :
    Store.holdsPin pin.1 row = (trunkPinStatements names key).upToDate pin row := by
  unfold Store.holdsPin Succession.upToDate trunkPinStatements
  rw [pin.key_eq]
  by_cases same : row.key = key <;> simp [same]

/-- The close and the refresh of PostgreSQL are the one update of SQLite. -/
theorem refreshPin_eq (row : PinRow) :
    Store.refreshPin pin.1 row =
      (fun row => if (trunkPinStatements names key).upToDate pin row then
          (trunkPinStatements names key).refresh pin row else row)
        (if (trunkPinStatements names key).outdated pin row then
          (trunkPinStatements names key).close pin row else row) := by
  unfold Store.refreshPin Succession.upToDate Succession.outdated trunkPinStatements
  rw [pin.key_eq]
  by_cases same : row.key = key
  · by_cases opens : row.validTo = none
    · by_cases version : row.version = pin.1.version
      · simp [same, opens, version]
      · simp [same, opens, version]
    · simp [same, opens]
  · simp [same]

/-- With nobody else at the rows, a pin leaves the same rows on PostgreSQL as on SQLite. -/
theorem record_eq_recordPin {store : Store}
    (client : store.clientName? pin.1.clientId = some (names.client pin.1.clientId))
    (service : store.serviceName? pin.1.serviceId = some (names.service pin.1.serviceId)) :
    store.recordPin rows pin.1 = .ok ((trunkPinStatements names key).record rows pin) := by
  have kept : ∀ row ∈ rows, (trunkPinStatements names key).upToDate pin row = true →
      (trunkPinStatements names key).outdated pin row = false := by
    intro row _ met
    unfold Succession.outdated
    rw [(Bool.and_eq_true_iff.mp met).2]
    simp
  have found : ((trunkPinStatements names key).closeOutdated pin rows).any
      ((trunkPinStatements names key).upToDate pin) = rows.any (Store.holdsPin pin.1) := by
    rw [Bool.eq_iff_iff, List.any_eq_true, List.any_eq_true]
    constructor
    · rintro ⟨row, there, met⟩
      obtain ⟨before, among, rfl⟩ := List.mem_map.mp there
      refine ⟨before, among, ?_⟩
      rw [holdsPin_eq_upToDate]
      obtain ⟨unclosed, -⟩ := Succession.isOpen_closed (Succession.isOpen_of_upToDate met)
      rwa [unclosed] at met
    · rintro ⟨row, there, met⟩
      rw [@holdsPin_eq_upToDate names] at met
      refine ⟨row, List.mem_map.mpr ⟨row, there, ?_⟩, met⟩
      rw [kept row there met]
      rfl
  have same : rows.map (Store.refreshPin pin.1) =
      (trunkPinStatements names key).refreshUpToDate pin
        ((trunkPinStatements names key).closeOutdated pin rows) := by
    unfold Succession.refreshUpToDate Succession.closeOutdated
    rw [List.map_map]
    exact List.map_congr_left fun row _ => refreshPin_eq row
  unfold Store.recordPin Succession.record
  rw [found, same]
  by_cases holds : rows.any (Store.holdsPin pin.1) = true
  · rw [if_pos holds, if_pos holds]
  · rw [if_neg holds, if_neg holds, client, service]
    rw [← found] at holds
    -- What is still open after the close would have been refreshed.
    have none : ∀ row ∈ (trunkPinStatements names key).closeOutdated pin rows,
        (trunkPinStatements names key).isOpen row = false := by
      intro row there
      by_contra opens
      exact holds (List.any_eq_true.mpr ⟨row, there,
        Succession.upToDate_of_closed there (Bool.eq_true_of_not_eq_false opens)⟩)
    have unrefreshed : (trunkPinStatements names key).refreshUpToDate pin
        ((trunkPinStatements names key).closeOutdated pin rows) =
          (trunkPinStatements names key).closeOutdated pin rows := by
      refine (List.map_congr_left fun row there => if_neg ?_).trans (List.map_id _)
      unfold Succession.upToDate
      rw [none row there]
      simp
    unfold Succession.insertOrRefresh
    rw [unrefreshed, if_neg]
    · rfl
    · intro some
      obtain ⟨row, there, opens⟩ := List.any_eq_true.mp some
      cases (none row there).symm.trans opens

end Alone
end Sanshain.Infrastructure
