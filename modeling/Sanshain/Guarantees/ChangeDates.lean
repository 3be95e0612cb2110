import Sanshain.Guarantees.Clients
import Sanshain.Guarantees.Readings
import Sanshain.Infrastructure.Timeline

namespace Sanshain.Guarantees

open Sanshain.Data Sanshain.Domain Sanshain.History Sanshain.Effects Sanshain.Application
open Sanshain.Infrastructure

/-- The main graph, or that of a branch. -/
abbrev Graph := Option BranchInfo

namespace Graph

def track : Graph → MemberTrack
  | none => .trunk
  | some branch => .branch branch.id

def periphery : Graph → PeripheryTrack
  | none => .trunk
  | some branch => .branch branch.id

def scope (graph : Graph) (instant : Instant) : ReportScope :=
  match graph with
  | none => .main (some instant)
  | some branch => .branch branch.name (some instant)

end Graph

/-- What a graph shows at two instants is the same. -/
structure SameView (database : Database) (graph : Graph) (first second : Instant) : Prop where
  pins : database.store.listPinsAt first graph.track = database.store.listPinsAt second graph.track
  periphery : database.store.listPeriphery graph.periphery (some first) =
    database.store.listPeriphery graph.periphery (some second)
  lines : ∀ line, Carries database (graph.scope first) line ↔ Carries database (graph.scope second) line

/-- Between two instants without a change date a graph shows the same. -/
def DatesComplete (database : Database) (graph : Graph) : Prop :=
  ∀ first second, first < second →
    (∀ date ∈ database.store.listGraphChangeDates (graph.map (·.id)),
      ¬ (first < date ∧ date ≤ second)) → SameView database graph first second

/-- The versions of a Producer and an API type that trunk records for an instant. -/
def recordedAt (store : Store) (instant : Instant) (service : String) (apiType : ApiType) :
    Set SemVer :=
  {version | ∃ row ∈ lasting MemberRow.span store.trunkMembers instant,
    row.serviceName = service ∧ row.apiType = apiType ∧ row.version = version}

/-- Some pin or some resource of trunk begins or ends at the instant. -/
def TrunkMoves (store : Store) (instant : Instant) : Prop :=
  (∃ row ∈ store.trunkPins, instant ∈ row.span.bounds) ∨
    ∃ row ∈ store.peripheryOf .trunk, instant ∈ row.span.bounds

/-- A member record of trunk that begins or ends while no pin and no resource does leaves the
highest version of every Producer and API type as it was. -/
def MembersSteady (store : Store) : Prop :=
  ∀ row ∈ store.trunkMembers, ∀ bound ∈ row.span.bounds, 0 < bound → ¬ TrunkMoves store bound →
    ∀ service apiType version,
      IsGreatest (recordedAt store (bound - 1) service apiType) version ↔
        IsGreatest (recordedAt store bound service apiType) version

section Dates

variable {store : Store} {database : Database} {first second : Instant}

theorem mem_sortedDates {dates : List Instant} {date : Instant} :
    date ∈ sortedDates dates ↔ date ∈ dates := by
  simp [sortedDates, List.mem_insertionSort]

theorem mem_trunkDates {date : Instant} :
    date ∈ store.listGraphChangeDates none ↔ TrunkMoves store date := by
  rw [Store.listGraphChangeDates, mem_sortedDates, List.mem_append, List.mem_flatMap,
    List.mem_flatMap]
  rfl

theorem mem_branchDates {branchId : Nat} {date : Instant} :
    date ∈ store.listGraphChangeDates (some branchId) ↔
      ((∃ row ∈ store.branchPinsOf branchId, date ∈ row.span.bounds) ∨
        ∃ row ∈ store.branchMembersOf branchId, date ∈ row.span.bounds) ∨
          ∃ row ∈ store.peripheryOf (.branch branchId), date ∈ row.span.bounds := by
  rw [Store.listGraphChangeDates, mem_sortedDates, List.mem_append, List.mem_append,
    List.mem_flatMap, List.mem_flatMap, List.mem_flatMap]

/-- A branch shows the same between two instants without a change date. -/
theorem branch_complete {branch : BranchInfo} (among : branch ∈ database.store.branches) :
    DatesComplete database (some branch) := by
  intro first second order quiet
  have quiet : ∀ date, (((∃ row ∈ database.store.branchPinsOf branch.id, date ∈ row.span.bounds) ∨
      ∃ row ∈ database.store.branchMembersOf branch.id, date ∈ row.span.bounds) ∨
        ∃ row ∈ database.store.peripheryOf (.branch branch.id), date ∈ row.span.bounds) →
          ¬ (first < date ∧ date ≤ second) :=
    fun date moves => quiet date (mem_branchDates.mpr moves)
  have pins : lasting PinRow.span (database.store.branchPinsOf branch.id) first =
      lasting PinRow.span (database.store.branchPinsOf branch.id) second :=
    lasting_eq_of_quiet order.le fun row among bound ends =>
      quiet bound (.inl (.inl ⟨row, among, ends⟩))
  have members : lasting MemberRow.span (database.store.branchMembersOf branch.id) first =
      lasting MemberRow.span (database.store.branchMembersOf branch.id) second :=
    lasting_eq_of_quiet order.le fun row among bound ends =>
      quiet bound (.inl (.inr ⟨row, among, ends⟩))
  have resources : lasting PeripheryRow.span (database.store.peripheryOf (.branch branch.id)) first =
      lasting PeripheryRow.span (database.store.peripheryOf (.branch branch.id)) second :=
    lasting_eq_of_quiet order.le fun row among bound ends => quiet bound (.inr ⟨row, among, ends⟩)
  have listed : database.store.listBranchPins branch.id (some first) =
      database.store.listBranchPins branch.id (some second) := congrArg listPins pins
  have carried : database.store.listMemberVersions (.branch branch.id) (some first) =
      database.store.listMemberVersions (.branch branch.id) (some second) := by
    simp only [Store.listMemberVersions, shown, members]
  have found := database.linked.branchNamed among
  constructor
  · exact listed
  · simp only [Store.listPeriphery, shown, Graph.periphery, resources]
  · rintro ⟨service, apiType, version⟩
    rw [Graph.scope, Graph.scope, carries_branch_iff found, carries_branch_iff found, listed, carried]

theorem versionsOf_trunk (instant : Instant) (service : String) (apiType : ApiType) :
    versionsOf ((store.listMemberVersions .trunk (some instant)).map (trunkLine (some instant)))
      service apiType = recordedAt store instant service apiType := by
  ext version
  constructor
  · rintro ⟨line, among, rfl, rfl, rfl⟩
    obtain ⟨member, listed, rfl⟩ := List.mem_map.mp among
    rw [Store.listMemberVersions, List.mem_insertionSort] at listed
    obtain ⟨row, held, rfl⟩ := List.mem_map.mp listed
    exact ⟨row, held, rfl, rfl, rfl⟩
  · rintro ⟨row, held, rfl, rfl, rfl⟩
    have listed : memberVersion (fun row => some row.lastProvidedAt) row ∈
        store.listMemberVersions .trunk (some instant) := by
      rw [Store.listMemberVersions, List.mem_insertionSort]
      exact List.mem_map_of_mem held
    exact ⟨_, List.mem_map_of_mem listed, rfl, rfl, rfl⟩

theorem carries_recorded_iff (instant : Instant) (service : String) (apiType : ApiType)
    (version : SemVer) :
    Carries database (Graph.scope none instant) (service, apiType, version) ↔
      IsGreatest (recordedAt database.store instant service apiType) version := by
  rw [Graph.scope, carries_main_iff, versionsOf_trunk]

/-- What trunk carries stays where only steady member records begin and end. -/
theorem MembersSteady.between (steady : MembersSteady store) (order : first ≤ second)
    (quiet : ∀ date, TrunkMoves store date → ¬ (first < date ∧ date ≤ second))
    (service : String) (apiType : ApiType) (version : SemVer) :
    IsGreatest (recordedAt store first service apiType) version ↔
      IsGreatest (recordedAt store second service apiType) version := by
  induction second, order using Nat.le_induction with
  | base => exact Iff.rfl
  | succ instant order ih =>
      have earlier := ih fun date moves within => quiet date moves ⟨within.1, within.2.trans (Nat.le_succ _)⟩
      rw [earlier]
      by_cases moved : ∃ row ∈ store.trunkMembers, instant + 1 ∈ row.span.bounds
      · obtain ⟨row, among, ends⟩ := moved
        have still : ¬ TrunkMoves store (instant + 1) := fun moves =>
          quiet _ moves ⟨Nat.lt_succ_of_le order, le_rfl⟩
        exact steady row among _ ends (Nat.succ_pos instant) still service apiType version
      · have same : lasting MemberRow.span store.trunkMembers instant =
            lasting MemberRow.span store.trunkMembers (instant + 1) := by
          apply lasting_eq_of_quiet (Nat.le_succ instant)
          intro row among bound ends within
          have here : bound = instant + 1 := le_antisymm within.2 (Nat.succ_le_of_lt within.1)
          exact moved ⟨row, among, here ▸ ends⟩
        rw [recordedAt, recordedAt, same]

/-- The change dates of a branch are complete. Those of the main graph are complete exactly when
the member records that begin or end unlisted change nothing. -/
theorem changeDates_complete_iff (database : Database) :
    (∀ branch ∈ database.store.branches, DatesComplete database (some branch)) ∧
      (DatesComplete database none ↔ MembersSteady database.store) := by
  refine ⟨fun branch among => branch_complete among, ?_⟩
  constructor
  · intro complete row among bound ends positive still service apiType version
    have quiet : ∀ date ∈ database.store.listGraphChangeDates none,
        ¬ (bound - 1 < date ∧ date ≤ bound) := by
      intro date listed within
      have here : date = bound := le_antisymm within.2 (Nat.le_of_pred_lt within.1)
      exact still (here ▸ mem_trunkDates.mp listed)
    have view := complete (bound - 1) bound (Nat.sub_lt positive Nat.one_pos) quiet
    rw [← carries_recorded_iff, ← carries_recorded_iff]
    exact view.lines _
  · intro steady first second order quiet
    have quiet : ∀ date, TrunkMoves database.store date → ¬ (first < date ∧ date ≤ second) :=
      fun date moves => quiet date (mem_trunkDates.mpr moves)
    have pins : lasting PinRow.span database.store.trunkPins first =
        lasting PinRow.span database.store.trunkPins second :=
      lasting_eq_of_quiet order.le fun row among bound ends =>
        quiet bound (.inl ⟨row, among, ends⟩)
    have resources : lasting PeripheryRow.span (database.store.peripheryOf .trunk) first =
        lasting PeripheryRow.span (database.store.peripheryOf .trunk) second :=
      lasting_eq_of_quiet order.le fun row among bound ends =>
        quiet bound (.inr ⟨row, among, ends⟩)
    constructor
    · exact congrArg listPins pins
    · simp only [Store.listPeriphery, shown, Graph.periphery, resources]
    · rintro ⟨service, apiType, version⟩
      rw [carries_recorded_iff, carries_recorded_iff]
      exact steady.between order.le quiet service apiType version

end Dates

section Examples

def trunkReleased : Option (Except AppError Outcome × World) :=
  ((Action.provide trunkRelease none).program (quietService markerLibrary) noForms).run
    (World.handle steadyEnvironment) emptyWorld

/-- The record of a trunk that carries a release from the instant 7 on. -/
def trunkRecord : MemberRow where
  serviceId := 1
  serviceName := "p"
  apiType := .proto
  version := ⟨1, 0, 0⟩
  validFrom := 7
  lastProvidedAt := 7
  validTo := none

def recordsRelease (world : World) : Bool :=
  world.store.trunkMembers = [trunkRecord] && world.store.trunkPins.isEmpty &&
    world.store.periphery.isEmpty

/-- A record that begins where nothing else moves is missed. -/
theorem unlisted_begin {database : Database} {record : MemberRow}
    (members : database.store.trunkMembers = [record]) (begun : 0 < record.validFrom)
    (ends : record.validTo = none) (pins : database.store.trunkPins = [])
    (resources : database.store.periphery = []) : ¬ DatesComplete database none := by
  rw [(changeDates_complete_iff database).2]
  intro steady
  have still : ¬ TrunkMoves database.store record.validFrom := by
    simp [TrunkMoves, Store.peripheryOf, pins, resources]
  have begins : record.validFrom ∈ record.span.bounds := by
    simp [MemberRow.span]
  have same := steady record (by simp [members]) record.validFrom begins begun still
    record.serviceName record.apiType record.version
  have later : IsGreatest (recordedAt database.store record.validFrom record.serviceName
      record.apiType) record.version := by
    constructor
    · exact ⟨record, by simp [members, MemberRow.span, Span.At, ends], rfl, rfl, rfl⟩
    · rintro version ⟨row, among, -, -, rfl⟩
      rw [members] at among
      rw [List.mem_singleton.mp (mem_lasting.mp among).1]
  obtain ⟨row, among, -⟩ := (same.mpr later).1
  rw [members] at among
  obtain ⟨here, lasts⟩ := mem_lasting.mp among
  rw [List.mem_singleton.mp here] at lasts
  exact absurd lasts.1 (not_le.mpr (Nat.sub_lt begun Nat.one_pos))

/-- A trunk build that publishes a version nobody requires leaves no change date. -/
theorem changeDates_incomplete :
    ∃ outcome world, trunkReleased = some (.ok outcome, world) ∧
      ¬ DatesComplete world.database none := by
  have ended : answeredWith recordsRelease trunkReleased = true := by decide +kernel
  obtain ⟨outcome, world, ran, recorded⟩ := answeredWith_spec ended
  simp only [recordsRelease, Bool.and_eq_true, decide_eq_true_eq, List.isEmpty_iff] at recorded
  exact ⟨outcome, world, ran, unlisted_begin recorded.1.1 (by decide) rfl recorded.1.2 recorded.2⟩

end Examples
end Sanshain.Guarantees
