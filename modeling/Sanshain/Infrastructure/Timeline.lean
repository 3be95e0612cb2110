import Sanshain.History.Ledger
import Sanshain.Infrastructure.Frame

namespace Sanshain.Infrastructure

open Sanshain.Data Sanshain.Domain Sanshain.History

/-- Client, service, API type, normalized path and method. -/
abbrev PinKey := Nat × Nat × ApiType × String × String

/-- The names of the client and of the service, and the path. -/
abbrev PinLabel := String × String × String

abbrev PinChange := Change PinKey SemVer PinLabel Instant

/-- A pin records the version of its key. -/
def PinRow.entry (row : PinRow) : Entry PinKey SemVer PinLabel Instant :=
  ⟨row.key, row.version, (row.clientName, row.serviceName, row.path), row.validFrom,
    row.lastRequiredAt, row.validTo⟩

theorem PinRow.entry_injective : Function.Injective PinRow.entry := by
  intro first second same
  cases first
  cases second
  simp only [PinRow.entry, PinRow.key, Entry.mk.injEq, Prod.mk.injEq] at same
  simp only [PinRow.mk.injEq]
  tauto

def pinKey (pin : RecordPinParams) : PinKey :=
  (pin.clientId, pin.serviceId, pin.apiType, pin.normalizedPath, pin.method)

/-- The instants that a call writes into the pins of a graph. -/
def pinStamps (now : Instant) : MemberTrack → RepoCall → List Instant
  | .trunk, .recordTrunkPins pins => pins.map (·.nowIso)
  | .trunk, .closeExpiredTrunkData _ nowIso => [nowIso]
  | .trunk, .closeTrunkPinsForServiceApi _ _ nowIso => [nowIso]
  | .trunk, .deleteProducer _ => [now]
  | .trunk, .deleteConsumer _ => [now]
  | .branch branchId, .recordBranchPins target pins =>
      if target = branchId then pins.map (·.nowIso) else []
  | .branch branchId, .copyTrunkPinsToBranch target _ nowIso => if target = branchId then [nowIso] else []
  | .branch branchId, .copyBranchPinsToBranch target _ _ nowIso =>
      if target = branchId then [nowIso] else []
  | _, _ => []

/-- Deleting a branch and resetting the database take the pins of a branch away. -/
def keepsPins : MemberTrack → RepoCall → Prop
  | .branch branchId, .deleteBranch target => target ≠ branchId
  | .branch _, .nukeDatabase => False
  | _, _ => True

namespace Store

def pinsOf (store : Store) : MemberTrack → List PinRow
  | .trunk => store.trunkPins
  | .branch branchId => store.branchPinsOf branchId

/-- The pins of a graph as they are listed for an instant. -/
def listPinsAt (store : Store) (instant : Instant) : MemberTrack → List PinInfo
  | .trunk => store.listTrunkPinsAt instant
  | .branch branchId => store.listBranchPins branchId (some instant)

def putPin (store : Store) (pin : RecordPinParams) : Instant × PinChange :=
  (pin.nowIso, .put (pinKey pin) pin.version
    ((store.clientName? pin.clientId).getD "", (store.serviceName? pin.serviceId).getD "", pin.path))

def putCopy (now : Instant) (row : PinRow) : Instant × PinChange :=
  (now, .put row.key row.version (row.clientName, row.serviceName, row.path))

/-- A call that fails changes nothing. -/
def ifDone (outcome : Except RepositoryError Store) (changes : List (Instant × PinChange)) :
    List (Instant × PinChange) :=
  if outcome.isOk then changes else []

/-- What a call puts into the pins of a graph, and which of them it closes. -/
def pinChanges (store : Store) (now : Instant) : MemberTrack → RepoCall → List (Instant × PinChange)
  | .trunk, .recordTrunkPins pins => ifDone (store.recordTrunkPins pins) (pins.map store.putPin)
  | .trunk, .closeExpiredTrunkData cutoff nowIso => [(nowIso, .close fun _ _ seen => seen < cutoff)]
  | .trunk, .closeTrunkPinsForServiceApi serviceId apiType nowIso =>
      [(nowIso, .close fun key _ _ => key.2.1 = serviceId && key.2.2.1 = apiType)]
  | .trunk, .deleteProducer name => (store.serviceNamed? name).toList.map fun service =>
      (now, .close fun key _ _ => key.2.1 = service.id)
  | .trunk, .deleteConsumer name => (store.clientNamed? name).toList.map fun client =>
      (now, .close fun key _ _ => key.1 = client.1)
  | .branch branchId, .recordBranchPins target pins =>
      if target = branchId then ifDone (store.recordBranchPins target pins) (pins.map store.putPin)
      else []
  | .branch branchId, .copyTrunkPinsToBranch target asOf nowIso =>
      if target = branchId then
        ifDone (store.copyPins target (lasting PinRow.span store.trunkPins asOf) nowIso)
          ((lasting PinRow.span store.trunkPins asOf).map (putCopy nowIso))
      else []
  | .branch branchId, .copyBranchPinsToBranch target source asOf nowIso =>
      if target = branchId then
        ifDone (store.copyPins target (lasting PinRow.span (store.branchPinsOf source) asOf) nowIso)
          ((lasting PinRow.span (store.branchPinsOf source) asOf).map (putCopy nowIso))
      else []
  | _, _ => []

/-- Calls one after another, each at its instant. -/
def performAll (store : Store) (calls : List (Instant × RepoCall)) : Store :=
  calls.foldl (fun store call => (store.perform call.1 call.2).1) store

/-- What a sequence of calls changes of the pins of a graph. -/
def pinChangesAlong (track : MemberTrack) : Store → List (Instant × RepoCall) →
    List (Instant × PinChange)
  | _, [] => []
  | store, call :: rest =>
      store.pinChanges call.1 track call.2 ++ pinChangesAlong track (store.perform call.1 call.2).1 rest

variable {store after : Store} {rows pins : List PinRow}

section Records

theorem entry_refreshPin (pin : RecordPinParams) (row : PinRow) :
    (refreshPin pin row).entry = refresh pin.nowIso (pinKey pin) pin.version row.entry := by
  have unfolded : refreshPin pin row =
      if row.key = pinKey pin ∧ row.validTo = none then
        if row.version = pin.version then { row with lastRequiredAt := pin.nowIso }
        else { row with validTo := some pin.nowIso }
      else row := rfl
  rw [unfolded, refresh]
  have agrees : (row.entry.key = pinKey pin ∧ row.entry.closed.isNone = true) ↔
      (row.key = pinKey pin ∧ row.validTo = none) := by
    rw [Option.isNone_iff_eq_none]
    rfl
  by_cases here : row.key = pinKey pin ∧ row.validTo = none
  · rw [if_pos (agrees.mpr here)]
    by_cases same : row.version = pin.version
    · have confirmed : row.entry.value = pin.version := same
      rw [if_pos here, if_pos same, if_pos confirmed]
      rfl
    · have changed : ¬ row.entry.value = pin.version := same
      rw [if_pos here, if_neg same, if_neg changed]
      rfl
  · rw [if_neg here, if_neg fun there => here (agrees.mp there)]

theorem holds_entry (pin : RecordPinParams) :
    (holds (pinKey pin) pin.version ∘ PinRow.entry) = holdsPin pin := by
  funext row
  rfl

theorem entry_closePinsIf {leaves : PinRow → Bool} {chosen : PinKey → SemVer → Instant → Bool}
    (same : ∀ row, leaves row = chosen row.key row.version row.lastRequiredAt) (now : Instant)
    (row : PinRow) : (closePinsIf leaves now row).entry = closeEntry now chosen row.entry := by
  unfold closePinsIf closeEntry
  have agrees : (row.validTo = none ∧ leaves row = true) ↔
      (row.entry.closed.isNone = true ∧
        chosen row.entry.key row.entry.value row.entry.seen = true) := by
    rw [same row, Option.isNone_iff_eq_none]
    rfl
  by_cases here : row.validTo = none ∧ leaves row = true
  · rw [if_pos here, if_pos (agrees.mp here)]
    rfl
  · rw [if_neg here, if_neg fun there => here (agrees.mpr there)]

/-- Closing pins is closing their records. -/
theorem closePinsIf_applies {leaves : PinRow → Bool} {chosen : PinKey → SemVer → Instant → Bool}
    (same : ∀ row, leaves row = chosen row.key row.version row.lastRequiredAt) (now : Instant) :
    (rows.map (closePinsIf leaves now)).map PinRow.entry =
      applyAll (rows.map PinRow.entry) [(now, .close chosen)] := by
  rw [applyAll_cons, applyAll_nil, Change.apply, List.map_map, List.map_map]
  apply List.map_congr_left
  intro row _
  exact entry_closePinsIf same now row

/-- Recording a pin is putting its version under its key. -/
theorem recordPin_applies {pin : RecordPinParams} (recorded : store.recordPin rows pin = .ok pins) :
    pins.map PinRow.entry =
      (store.putPin pin).2.apply (store.putPin pin).1 (rows.map PinRow.entry) := by
  have refreshed : (rows.map (refreshPin pin)).map PinRow.entry =
      (rows.map PinRow.entry).map (refresh pin.nowIso (pinKey pin) pin.version) := by
    rw [List.map_map, List.map_map]
    apply List.map_congr_left
    intro row _
    exact entry_refreshPin pin row
  have known : (rows.map PinRow.entry).any (holds (pinKey pin) pin.version) =
      rows.any (holdsPin pin) := by
    rw [List.any_map, holds_entry]
  unfold recordPin at recorded
  rw [putPin, Change.apply, known]
  split at recorded
  · rename_i held
    cases recorded
    rw [if_pos held, refreshed]
  · rename_i fresh
    rw [if_neg fresh]
    split at recorded
    · rename_i clientName serviceName client service
      cases recorded
      rw [List.map_append, refreshed, client, service]
      rfl
    · cases recorded

theorem recordPins_applies {batch : List RecordPinParams}
    (recorded : batch.foldlM store.recordPin rows = .ok pins) :
    pins.map PinRow.entry = applyAll (rows.map PinRow.entry) (batch.map store.putPin) := by
  induction batch generalizing rows with
  | nil =>
      cases recorded
      rfl
  | cons pin rest ih =>
      rw [List.foldlM_cons] at recorded
      cases first : store.recordPin rows pin with
      | error error =>
          rw [first] at recorded
          cases recorded
      | ok middle =>
          rw [first] at recorded
          rw [ih recorded, List.map_cons, applyAll_cons, recordPin_applies first]

/-- Copies under keys that no open pin holds are put there one after another. -/
theorem copies_applied {now : Instant}
    (distinct : ((pins.filter (·.validTo = none) ++ rows.map (copiedPin now)).map PinRow.key).Nodup) :
    (pins ++ rows.map (copiedPin now)).map PinRow.entry =
      applyAll (pins.map PinRow.entry) (rows.map (putCopy now)) := by
  induction rows generalizing pins with
  | nil => simp
  | cons row rest ih =>
      have vacant : ∀ pin ∈ pins, ¬ (pin.key = row.key ∧ pin.validTo = none) := by
        rintro pin among ⟨same, fresh⟩
        rw [List.map_append, List.nodup_append] at distinct
        have held : pin.key ∈ (pins.filter (·.validTo = none)).map PinRow.key :=
          List.mem_map_of_mem (List.mem_filter.mpr ⟨among, by simpa using fresh⟩)
        exact distinct.2.2 _ held _ (by simp [copiedPin, PinRow.key]) same
      have absent : (pins.map PinRow.entry).any (holds row.key row.version) = false := by
        rw [List.any_map, List.any_eq_false]
        intro pin among holding
        apply vacant pin among
        simp only [Function.comp_apply, holds, PinRow.entry, Bool.and_eq_true,
          Option.isNone_iff_eq_none] at holding
        exact ⟨of_decide_eq_true holding.1.1, holding.1.2⟩
      have untouched : (pins.map PinRow.entry).map (refresh now row.key row.version) =
          pins.map PinRow.entry := by
        rw [List.map_map]
        apply List.map_congr_left
        intro pin among
        have other := vacant pin among
        rw [Function.comp_apply, refresh, if_neg (by simpa [PinRow.entry] using other)]
      have opened : (copiedPin now row).validTo = none := rfl
      have first : (pins ++ [copiedPin now row]).map PinRow.entry =
          (putCopy now row).2.apply (putCopy now row).1 (pins.map PinRow.entry) := by
        rw [putCopy, Change.apply, if_neg (by simp [absent]), untouched, List.map_append]
        rfl
      have still : (((pins ++ [copiedPin now row]).filter (·.validTo = none) ++
          rest.map (copiedPin now)).map PinRow.key).Nodup := by
        rw [List.filter_append, List.filter_cons_of_pos (by simp [opened]), List.filter_nil]
        simpa using distinct
      rw [List.map_cons, List.map_cons, applyAll_cons, ← first, ← ih still]
      simp

end Records

section Branches

theorem branchPinsOf_setBranchPins (store : Store) (branchId : Nat) (rows : List PinRow) :
    (store.setBranchPins branchId rows).branchPinsOf branchId = rows := by
  rw [branchPinsOf, setBranchPins]
  simp [List.filter_append, List.filter_map, Function.comp_def]

theorem branchPinsOf_setBranchPins_other (store : Store) {branchId other : Nat}
    (apart : other ≠ branchId) (rows : List PinRow) :
    (store.setBranchPins branchId rows).branchPinsOf other = store.branchPinsOf other := by
  have kept : ((store.branchPins.filter (·.1 ≠ branchId)).filter (·.1 = other)) =
      store.branchPins.filter (·.1 = other) := by
    rw [List.filter_filter]
    apply List.filter_congr
    intro row _
    by_cases here : row.1 = other
    · simp [here, apart]
    · simp [here]
  have none : (rows.map fun row => (branchId, row)).filter (·.1 = other) = [] := by
    simp [List.filter_map, Function.comp_def, apart.symm]
  rw [branchPinsOf, branchPinsOf, setBranchPins, List.filter_append, kept, none, List.append_nil]

theorem branchPinsOf_copied (store : Store) (branchId other : Nat) (copies : List PinRow) :
    ({ store with branchPins := store.branchPins ++ copies.map fun row => (branchId, row) } :
      Store).branchPinsOf other =
        store.branchPinsOf other ++ if branchId = other then copies else [] := by
  rw [branchPinsOf, branchPinsOf]
  by_cases same : branchId = other
  · simp [List.filter_append, List.filter_map, Function.comp_def, same]
  · simp [List.filter_append, List.filter_map, Function.comp_def, same]

end Branches

section Calls

variable {now : Instant} {track : MemberTrack} {request : RepoCall}

@[simp] theorem ifDone_ok (changes : List (Instant × PinChange)) :
    ifDone (.ok after) changes = changes := rfl

@[simp] theorem ifDone_error (error : RepositoryError) (changes : List (Instant × PinChange)) :
    ifDone (.error error) changes = [] := rfl

/-- A batch that is recorded puts every pin of it, and one that fails puts none. -/
theorem recordTrunkPins_pins (store : Store) (batch : List RecordPinParams) :
    ((store.triedUnit (store.recordTrunkPins batch)).1.trunkPins).map PinRow.entry =
      applyAll (store.trunkPins.map PinRow.entry)
        (ifDone (store.recordTrunkPins batch) (batch.map store.putPin)) := by
  obtain ⟨error, failed, same⟩ | ⟨after, recorded, same⟩ :=
    triedUnit_cases store (store.recordTrunkPins batch)
  · rw [same, failed]
    rfl
  · rw [same, recorded, ifDone_ok]
    obtain ⟨rows, folded, rfl⟩ := recordTrunkPins_cases recorded
    exact recordPins_applies folded

theorem recordBranchPins_pins (store : Store) (branchId : Nat) (batch : List RecordPinParams) :
    ((store.triedUnit (store.recordBranchPins branchId batch)).1.branchPinsOf branchId).map
        PinRow.entry =
      applyAll ((store.branchPinsOf branchId).map PinRow.entry)
        (ifDone (store.recordBranchPins branchId batch) (batch.map store.putPin)) := by
  obtain ⟨error, failed, same⟩ | ⟨after, recorded, same⟩ :=
    triedUnit_cases store (store.recordBranchPins branchId batch)
  · rw [same, failed]
    rfl
  · rw [same, recorded, ifDone_ok]
    obtain ⟨-, rows, folded, rfl⟩ := recordBranchPins_cases recorded
    change ((store.setBranchPins branchId rows).branchPinsOf branchId).map PinRow.entry = _
    rw [branchPinsOf_setBranchPins]
    exact recordPins_applies folded

theorem recordBranchPins_other (store : Store) {branchId other : Nat} (apart : other ≠ branchId)
    (batch : List RecordPinParams) :
    (store.triedUnit (store.recordBranchPins branchId batch)).1.branchPinsOf other =
      store.branchPinsOf other := by
  obtain ⟨error, -, same⟩ | ⟨after, recorded, same⟩ :=
    triedUnit_cases store (store.recordBranchPins branchId batch)
  · rw [same]
  · rw [same]
    obtain ⟨-, rows, -, rfl⟩ := recordBranchPins_cases recorded
    exact branchPinsOf_setBranchPins_other store apart rows

theorem copyPins_pins (store : Store) (branchId : Nat) (rows : List PinRow) (nowIso : Instant) :
    ((store.triedUnit (store.copyPins branchId rows nowIso)).1.branchPinsOf branchId).map
        PinRow.entry =
      applyAll ((store.branchPinsOf branchId).map PinRow.entry)
        (ifDone (store.copyPins branchId rows nowIso) (rows.map (putCopy nowIso))) := by
  obtain ⟨error, failed, same⟩ | ⟨after, copied, same⟩ :=
    triedUnit_cases store (store.copyPins branchId rows nowIso)
  · rw [same, failed]
    rfl
  · rw [same, copied, ifDone_ok]
    obtain ⟨distinct, rfl⟩ := copyPins_cases copied
    rw [branchPinsOf_copied, if_pos rfl]
    exact copies_applied distinct

theorem copyPins_other (store : Store) {branchId other : Nat} (apart : branchId ≠ other)
    (rows : List PinRow) (nowIso : Instant) :
    (store.triedUnit (store.copyPins branchId rows nowIso)).1.branchPinsOf other =
      store.branchPinsOf other := by
  obtain ⟨error, -, same⟩ | ⟨after, copied, same⟩ :=
    triedUnit_cases store (store.copyPins branchId rows nowIso)
  · rw [same]
  · rw [same, (copyPins_cases copied).2, branchPinsOf_copied, if_neg apart, List.append_nil]

theorem deleteBranch_other (store : Store) {branchId other : Nat} (apart : other ≠ branchId) :
    (store.deleteBranch branchId).branchPinsOf other = store.branchPinsOf other := by
  have kept : ((store.branchPins.filter (·.1 ≠ branchId)).filter (·.1 = other)) =
      store.branchPins.filter (·.1 = other) := by
    rw [List.filter_filter]
    apply List.filter_congr
    intro row _
    by_cases here : row.1 = other
    · simp [here, apart]
    · simp [here]
  rw [branchPinsOf, branchPinsOf, deleteBranch, kept]

theorem trunkPins_frame (store : Store) (now : Instant) (outside : .trunkPins ∉ writes request) :
    (store.perform now request).1.trunkPins = store.trunkPins :=
  perform_frame store now outside

theorem branchPinsOf_frame (store : Store) (now : Instant) (branchId : Nat)
    (outside : .branchPins ∉ writes request) :
    (store.perform now request).1.branchPinsOf branchId = store.branchPinsOf branchId := by
  have same : (store.perform now request).1.branchPins = store.branchPins :=
    perform_frame store now outside
  rw [branchPinsOf, same, branchPinsOf]

/-- A call does to the pins of trunk what it changes of them. -/
theorem perform_trunkPins (store : Store) (now : Instant) (request : RepoCall) :
    ((store.perform now request).1.trunkPins).map PinRow.entry =
      applyAll (store.trunkPins.map PinRow.entry) (store.pinChanges now .trunk request) := by
  cases request with
  | recordTrunkPins batch => exact recordTrunkPins_pins store batch
  | closeExpiredTrunkData cutoff nowIso =>
      apply closePinsIf_applies
      intro row
      rfl
  | closeTrunkPinsForServiceApi serviceId apiType nowIso =>
      apply closePinsIf_applies
      intro row
      simp [PinRow.key, eq_comm]
  | deleteProducer name =>
      change ((store.deleteProducer now name).1.trunkPins).map PinRow.entry =
        applyAll _ ((store.serviceNamed? name).toList.map _)
      unfold deleteProducer
      split
      · rename_i absent
        rw [absent]
        rfl
      · rename_i service found
        rw [found]
        apply closePinsIf_applies
        intro row
        exact Bool.and_true _
  | deleteConsumer name =>
      change ((store.deleteConsumer now name).1.trunkPins).map PinRow.entry =
        applyAll _ ((store.clientNamed? name).toList.map _)
      unfold deleteConsumer
      split
      · rename_i absent
        rw [absent]
        rfl
      · rename_i client found
        rw [found]
        apply closePinsIf_applies
        intro row
        rfl
  | _ => exact congrArg (List.map PinRow.entry) (trunkPins_frame store now (by simp [writes]))

/-- A call that leaves a branch in place does to its pins what it changes of them. -/
theorem perform_branchPins (store : Store) (now : Instant) (branchId : Nat) {request : RepoCall}
    (kept : keepsPins (.branch branchId) request) :
    ((store.perform now request).1.branchPinsOf branchId).map PinRow.entry =
      applyAll ((store.branchPinsOf branchId).map PinRow.entry)
        (store.pinChanges now (.branch branchId) request) := by
  cases request with
  | recordBranchPins target batch =>
      by_cases same : target = branchId
      · subst same
        rw [pinChanges, if_pos rfl]
        exact recordBranchPins_pins store target batch
      · rw [pinChanges, if_neg same, applyAll_nil]
        exact congrArg _ (recordBranchPins_other store (Ne.symm same) batch)
  | copyTrunkPinsToBranch target asOf nowIso =>
      by_cases same : target = branchId
      · subst same
        rw [pinChanges, if_pos rfl]
        exact copyPins_pins store target _ nowIso
      · rw [pinChanges, if_neg same, applyAll_nil]
        exact congrArg _ (copyPins_other store same _ nowIso)
  | copyBranchPinsToBranch target source asOf nowIso =>
      by_cases same : target = branchId
      · subst same
        rw [pinChanges, if_pos rfl]
        exact copyPins_pins store target _ nowIso
      · rw [pinChanges, if_neg same, applyAll_nil]
        exact congrArg _ (copyPins_other store same _ nowIso)
  | deleteBranch target => exact congrArg _ (deleteBranch_other store (Ne.symm kept))
  | nukeDatabase => exact kept.elim
  | _ =>
      exact congrArg (List.map PinRow.entry) (branchPinsOf_frame store now branchId (by simp [writes]))

theorem perform_pins (store : Store) (now : Instant) (track : MemberTrack) {request : RepoCall}
    (kept : keepsPins track request) :
    ((store.perform now request).1.pinsOf track).map PinRow.entry =
      applyAll ((store.pinsOf track).map PinRow.entry) (store.pinChanges now track request) := by
  cases track with
  | trunk => exact perform_trunkPins store now request
  | branch branchId => exact perform_branchPins store now branchId kept

end Calls

section Runs

variable {now : Instant} {track : MemberTrack} {request : RepoCall}

@[simp] theorem performAll_nil (store : Store) : store.performAll [] = store := rfl

@[simp] theorem performAll_cons (store : Store) (call : Instant × RepoCall)
    (rest : List (Instant × RepoCall)) :
    store.performAll (call :: rest) = (store.perform call.1 call.2).1.performAll rest := rfl

theorem performAll_append (store : Store) (first second : List (Instant × RepoCall)) :
    store.performAll (first ++ second) = (store.performAll first).performAll second :=
  List.foldl_append

/-- A sequence of calls does to the pins of a graph what it changes of them. -/
theorem performAll_pins (store : Store) {calls : List (Instant × RepoCall)}
    (kept : ∀ call ∈ calls, keepsPins track call.2) :
    ((store.performAll calls).pinsOf track).map PinRow.entry =
      applyAll ((store.pinsOf track).map PinRow.entry) (pinChangesAlong track store calls) := by
  induction calls generalizing store with
  | nil => rfl
  | cons call rest ih =>
      have first := perform_pins store call.1 track (kept call List.mem_cons_self)
      have later := ih (store.perform call.1 call.2).1 fun other among =>
        kept other (List.mem_cons_of_mem _ among)
      rw [performAll_cons, later, first, pinChangesAlong, applyAll_append]

/-- The changes carry instants of the calls, and come in order when these do. -/
structure Stamped (stamps : List Instant) (changes : List (Instant × PinChange)) : Prop where
  among : ∀ change ∈ changes, change.1 ∈ stamps
  ordered : stamps.Pairwise (· ≤ ·) → (changes.map Prod.fst).Pairwise (· ≤ ·)

theorem stamped_nil (stamps : List Instant) : Stamped stamps [] where
  among _ among := by cases among
  ordered _ := .nil

theorem stamped_at {instant : Instant} {changes : List (Instant × PinChange)}
    (same : ∀ change ∈ changes, change.1 = instant) : Stamped [instant] changes where
  among change among := List.mem_singleton.mpr (same change among)
  ordered _ := by
    have constant : changes.map Prod.fst = changes.map fun _ => instant :=
      List.map_congr_left same
    rw [constant, List.map_const']
    apply List.pairwise_replicate.mpr
    exact .inr le_rfl

theorem stamped_ifDone {stamps : List Instant} {changes : List (Instant × PinChange)}
    (stamped : Stamped stamps changes) (outcome : Except RepositoryError Store) :
    Stamped stamps (ifDone outcome changes) := by
  cases outcome with
  | error error => exact stamped_nil stamps
  | ok after => exact stamped

theorem stamped_batch (store : Store) (batch : List RecordPinParams) :
    Stamped (batch.map (·.nowIso)) (batch.map store.putPin) := by
  have instants : (batch.map store.putPin).map Prod.fst = batch.map (·.nowIso) := by
    rw [List.map_map]
    rfl
  constructor
  · intro change among
    rw [← instants]
    exact List.mem_map_of_mem among
  · intro ordered
    rw [instants]
    exact ordered

theorem Stamped.append {first second : List Instant} {one other : List (Instant × PinChange)}
    (here : Stamped first one) (there : Stamped second other) :
    Stamped (first ++ second) (one ++ other) where
  among := by
    intro change among
    rw [List.mem_append] at among ⊢
    exact among.imp (here.among change) (there.among change)
  ordered := by
    intro ordered
    obtain ⟨before, behind, apart⟩ := List.pairwise_append.mp ordered
    rw [List.map_append]
    apply List.pairwise_append.mpr
    refine ⟨here.ordered before, there.ordered behind, ?_⟩
    intro earlier among later among'
    obtain ⟨change, held, rfl⟩ := List.mem_map.mp among
    obtain ⟨change', held', rfl⟩ := List.mem_map.mp among'
    exact apart _ (here.among change held) _ (there.among change' held')

theorem pinChanges_stamped (store : Store) (now : Instant) (track : MemberTrack)
    (request : RepoCall) :
    Stamped (pinStamps now track request) (store.pinChanges now track request) := by
  have copies : ∀ (rows : List PinRow) (nowIso : Instant),
      Stamped [nowIso] (rows.map (putCopy nowIso)) := by
    intro rows nowIso
    apply stamped_at
    intro change among
    obtain ⟨row, -, rfl⟩ := List.mem_map.mp among
    rfl
  cases track with
  | trunk =>
      cases request with
      | recordTrunkPins batch => exact stamped_ifDone (stamped_batch store batch) _
      | closeExpiredTrunkData cutoff nowIso => exact stamped_at (by simp [pinChanges])
      | closeTrunkPinsForServiceApi serviceId apiType nowIso =>
          exact stamped_at (by simp [pinChanges])
      | deleteProducer name =>
          apply stamped_at
          intro change among
          obtain ⟨service, -, rfl⟩ := List.mem_map.mp among
          rfl
      | deleteConsumer name =>
          apply stamped_at
          intro change among
          obtain ⟨client, -, rfl⟩ := List.mem_map.mp among
          rfl
      | _ => exact stamped_nil []
  | branch branchId =>
      cases request with
      | recordBranchPins target batch =>
          rw [pinStamps, pinChanges]
          split
          · exact stamped_ifDone (stamped_batch store batch) _
          · exact stamped_nil []
      | copyTrunkPinsToBranch target asOf nowIso =>
          rw [pinStamps, pinChanges]
          split
          · exact stamped_ifDone (copies _ nowIso) _
          · exact stamped_nil []
      | copyBranchPinsToBranch target source asOf nowIso =>
          rw [pinStamps, pinChanges]
          split
          · exact stamped_ifDone (copies _ nowIso) _
          · exact stamped_nil []
      | _ => exact stamped_nil []

theorem pinChangesAlong_stamped (track : MemberTrack) (store : Store)
    (calls : List (Instant × RepoCall)) :
    Stamped (calls.flatMap fun call => pinStamps call.1 track call.2)
      (pinChangesAlong track store calls) := by
  induction calls generalizing store with
  | nil => exact stamped_nil []
  | cons call rest ih =>
      rw [List.flatMap_cons]
      exact (pinChanges_stamped store call.1 track call.2).append (ih _)

/-- From pins that are none, an ordered sequence of calls is an ordered sequence of changes. -/
theorem pinChangesAlong_ordered {calls : List (Instant × RepoCall)} (store : Store)
    (ordered : (calls.flatMap fun call => pinStamps call.1 track call.2).Pairwise (· ≤ ·)) :
    Ordered 0 (pinChangesAlong track store calls) := by
  apply List.pairwise_cons.mpr
  exact ⟨fun instant _ => Nat.zero_le instant,
    (pinChangesAlong_stamped track store calls).ordered ordered⟩

end Runs
end Store

section Records

theorem lasting_entries {rows : List PinRow} (instant : Instant) :
    lasting Entry.span (rows.map PinRow.entry) instant =
      (lasting PinRow.span rows instant).map PinRow.entry := by
  rw [lasting, List.filter_map]
  rfl

/-- The participants of a pin, its version, its path and its method. -/
structure PinRecord where
  client : String
  service : String
  apiType : ApiType
  version : SemVer
  path : String
  normalizedPath : String
  method : String
  deriving DecidableEq, Repr

def pinRecord (pin : PinInfo) : PinRecord :=
  ⟨pin.client, pin.service, pin.apiType, pin.version, pin.path, pin.normalizedPath, pin.method⟩

/-- The order in which pins are listed, read off their records. -/
def recordLe (first second : PinRecord) : Prop :=
  first.client < second.client ∨ first.client = second.client ∧
    (first.service < second.service ∨ first.service = second.service ∧
      (first.path < second.path ∨ first.path = second.path ∧ first.method ≤ second.method))

instance (first second : PinRecord) : Decidable (recordLe first second) :=
  inferInstanceAs (Decidable (_ ∨ _))

/-- What a listing records is told by the records of its rows, in their order. -/
theorem listPins_records (rows : List PinRow) :
    (listPins rows).map pinRecord =
      (rows.map fun row => pinRecord (pinInfo row)).insertionSort recordLe := by
  rw [listPins, List.map_insertionSort pinLe recordLe pinRecord _ fun _ _ _ _ => Iff.rfl, List.map_map]
  rfl

/-- A record is part of what its pin says. -/
theorem records_of_said {first second : List PinRow}
    (same : (first.map PinRow.entry).map Entry.said = (second.map PinRow.entry).map Entry.said) :
    (first.map fun row => pinRecord (pinInfo row)) = second.map fun row => pinRecord (pinInfo row) := by
  let told (said : PinKey × SemVer × PinLabel × Instant) : PinRecord :=
    ⟨said.2.2.1.1, said.2.2.1.2.1, said.1.2.2.1, said.2.1, said.2.2.1.2.2, said.1.2.2.2.1,
      said.1.2.2.2.2⟩
  have tells : ∀ row : PinRow, pinRecord (pinInfo row) = told row.entry.said := fun _ => rfl
  have again := congrArg (List.map told) same
  simp only [List.map_map] at again
  calc
    (first.map fun row => pinRecord (pinInfo row)) =
        first.map (told ∘ Entry.said ∘ PinRow.entry) := List.map_congr_left fun row _ => tells row
    _ = second.map (told ∘ Entry.said ∘ PinRow.entry) := again
    _ = second.map fun row => pinRecord (pinInfo row) := List.map_congr_left fun row _ => (tells row).symm

/-- A call that keeps the pins of a branch, and writes later instants into them, leaves what the
branch lists of an instant. -/
theorem Store.listBranchPins_kept (store : Store) (now : Instant) {branchId : Nat}
    {instant : Instant} {request : RepoCall} (kept : keepsPins (.branch branchId) request)
    (later : ∀ stamp ∈ pinStamps now (.branch branchId) request, instant < stamp) :
    ((store.perform now request).1.listBranchPins branchId (some instant)).map pinRecord =
      (store.listBranchPins branchId (some instant)).map pinRecord := by
  have entries := store.perform_pins now (.branch branchId) kept
  have past : ∀ change ∈ store.pinChanges now (.branch branchId) request, instant < change.1 :=
    fun change among => later change.1 ((pinChanges_stamped store now _ request).among change among)
  have said : (lasting Entry.span (applyAll ((store.pinsOf (.branch branchId)).map PinRow.entry)
        (store.pinChanges now (.branch branchId) request)) instant).map Entry.said =
      (lasting Entry.span ((store.pinsOf (.branch branchId)).map PinRow.entry) instant).map
        Entry.said := applyAll_past past
  rw [← entries, lasting_entries, lasting_entries] at said
  rw [listBranchPins, listBranchPins, listPins_records, listPins_records]
  exact congrArg (List.insertionSort recordLe) (records_of_said said)

end Records
end Sanshain.Infrastructure
