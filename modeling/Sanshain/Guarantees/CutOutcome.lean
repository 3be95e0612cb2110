import Sanshain.Guarantees.BranchRequires
import Sanshain.Guarantees.Removals

namespace Sanshain.Guarantees

open Sanshain.Data Sanshain.Domain Sanshain.Effects Sanshain.Application Sanshain.Infrastructure
open Sanshain.History

def openPins (store : Store) (branchId : Nat) : List PinRow :=
  (store.branchPinsOf branchId).filter (·.validTo = none)

def heldPeriphery (store : Store) (branchId : Nat) : List (String × String) :=
  ((store.peripheryOf (.branch branchId)).filter (·.validTo = none)).map
    fun row => (row.system, row.resource)

section Outcomes

/-- The branch holds what its source showed: an open copy of each pin, alone under its key, and
the periphery. -/
structure WholeCut (format : InstantFormat) (params : CreateBranchParams) (before after : Store)
    (branch : BranchInfo) (source : Graph) : Prop where
  names : Names before params.source source
  instant : ∀ raw, params.asOf = some raw → format.parse raw = .ok branch.asOf
  stands : branch ∈ after.branches
  pins : ∀ row ∈ sourcePins before source branch.asOf,
    (openPins after branch.id).filter (·.key = row.key) = [Store.copiedPin branch.createdAt row]
  periphery : heldPeriphery after branch.id =
    (sourcePeriphery before source branch.asOf).map fun row => (row.system, row.resource)

/-- Nothing of a cut is left. -/
structure NothingLeft (before after : Store) : Prop where
  branches : after.branches = before.branches
  pins : after.branchPins = before.branchPins
  periphery : after.periphery = before.periphery
  events : cutEvents after = cutEvents before

/-- A cut is whole where it answers, and nothing where it fails. -/
def AllOrNothing (format : InstantFormat) (params : CreateBranchParams) (before after : Store) :
    Except AppError BranchInfo → Prop
  | .ok branch => ∃ source, WholeCut format params before after branch source
  | .error _ => NothingLeft before after

/-- No pin of the source meets one of its key that others have required into the branch. -/
def PinsFit (others : List (Instant × RepoCall)) (opened : World) (branch : BranchInfo)
    (source : Graph) : Prop :=
  ((openPins (joined others opened).store branch.id ++
    sourcePins opened.store source branch.asOf).map PinRow.key).Nodup

def PeripheryFits (opened : World) (branch : BranchInfo) (source : Graph) : Prop :=
  ((sourcePeriphery opened.store source branch.asOf).map fun row => (row.system, row.resource)).Nodup

/-- Neither copy fails. -/
structure CopiesGo (environment : Environment) (others : List (Instant × RepoCall)) (opened : World)
    (branch : BranchInfo) (source : Graph) : Prop where
  first : environment.fault opened.steps = none
  pins : PinsFit others opened branch source
  second : environment.fault (opened.steps + 1) = none
  periphery : PeripheryFits opened branch source

/-- A failed copy can be undone: the event was sent to nobody, and the next call goes through. -/
structure Undoes (deployment : Deployment) (environment : Environment)
    (others : List (Instant × RepoCall)) (opened : World) (branch : BranchInfo)
    (source : Graph) : Prop where
  noTaker : NoTaker deployment opened.store
  afterPins : environment.fault opened.steps ≠ none ∨ ¬ PinsFit others opened branch source →
    environment.fault (opened.steps + 1) = none
  afterPeriphery : environment.fault opened.steps = none → PinsFit others opened branch source →
    environment.fault (opened.steps + 2) = none

end Outcomes

section Opened

variable {deployment : Deployment} {format : InstantFormat} {params : CreateBranchParams}
  {before opened : Store} {branch : BranchInfo} {source : Graph}

/-- What opening a branch adds to the store. -/
structure Grown (deployment : Deployment) (before opened : Store) (branch : BranchInfo) : Prop where
  fresh : branch.id = before.nextBranchId
  branches : opened.branches = before.branches ++ [branch]
  trunkPins : opened.trunkPins = before.trunkPins
  branchPins : opened.branchPins = before.branchPins
  branchMembers : opened.branchMembers = before.branchMembers
  periphery : opened.periphery = before.periphery
  webhooks : opened.webhooks = before.webhooks
  events : cutEvents opened = cutEvents before ↔ NoTaker deployment before

theorem OpenedCut.grown (cut : OpenedCut deployment format params before opened branch source) :
    Grown deployment before opened branch := by
  obtain ⟨event, inserted, planned⟩ := cut.inserted
  obtain ⟨-, fresh, written⟩ := Store.insertBranch_cases inserted
  have frame := fun table => @Store.table_writeOutbox table _ _ _ written
  have branches := congrArg Prod.fst (frame .branches (by simp) (by simp))
  have trunkPins := frame .trunkPins (by simp) (by simp)
  have branchPins := frame .branchPins (by simp) (by simp)
  have branchMembers := frame .branchMembers (by simp) (by simp)
  have periphery := frame .periphery (by simp) (by simp)
  have webhooks := frame .webhooks (by simp) (by simp)
  refine ⟨fresh, ?_, trunkPins, branchPins, branchMembers, periphery, webhooks, ?_⟩
  · rw [← fresh] at branches
    exact branches
  · have events := cutEvents_writeOutbox written
    rw [events]
    obtain ⟨rfl, none⟩ | ⟨event, rfl, kind, taken⟩ := planned
    · exact ⟨fun _ => none, fun _ => List.append_nil _⟩
    · refine ⟨fun same => ?_, fun none => absurd none taken⟩
      have longer := congrArg List.length same
      simp [cutEvents, kind] at longer

/-- A source is an older branch than the cut. -/
theorem OpenedCut.older (cut : OpenedCut deployment format params before opened branch source)
    (linked : before.Links) {older : BranchInfo} (among : source = some older) :
    older.id ≠ branch.id := by
  obtain ⟨-, none⟩ | ⟨wanted, found, -, same, listed⟩ := cut.names
  · rw [none] at among
    cases among
  · rw [same] at among
    cases among
    have fresh := linked.branchFresh older (List.mem_of_find?_eq_some listed)
    rw [cut.grown.fresh]
    exact Nat.ne_of_lt fresh

/-- A source shows after the opening, and after requires into the branch, what it showed before. -/
theorem OpenedCut.sourcePins_kept {later : Store}
    (cut : OpenedCut deployment format params before opened branch source) (linked : before.Links)
    (trunkPins : later.trunkPins = before.trunkPins)
    (elsewhere : ∀ other, other ≠ branch.id → later.branchPinsOf other = before.branchPinsOf other)
    (instant : Instant) : sourcePins later source instant = sourcePins before source instant := by
  have same : later.pinsOf (Graph.track source) = before.pinsOf (Graph.track source) := by
    cases source with
    | none => exact trunkPins
    | some older => exact elsewhere older.id (cut.older linked rfl)
  rw [sourcePins, same, sourcePins]

theorem sourcePeriphery_kept {later : Store} (periphery : later.periphery = before.periphery)
    (instant : Instant) :
    sourcePeriphery later source instant = sourcePeriphery before source instant := by
  rw [sourcePeriphery, Store.peripheryOf, periphery, sourcePeriphery, Store.peripheryOf]

end Opened

section Copies

variable {store : Store} {branchId : Nat}

theorem keys_copied (rows : List PinRow) (now : Instant) :
    (rows.map (Store.copiedPin now)).map PinRow.key = rows.map PinRow.key := by
  rw [List.map_map]
  rfl

/-- Pins are copied into a branch exactly when no open key would be there twice. -/
theorem copyPins_ok_iff {rows : List PinRow} {now : Instant} (there : store.hasBranch branchId) :
    (∃ after, store.copyPins branchId rows now = .ok after) ↔
      ((openPins store branchId ++ rows).map PinRow.key).Nodup := by
  have keys : ((openPins store branchId ++ rows).map PinRow.key) =
      ((store.branchPinsOf branchId).filter (·.validTo = none) ++
        rows.map (Store.copiedPin now)).map PinRow.key := by
    rw [List.map_append, List.map_append, keys_copied, openPins]
  rw [keys]
  constructor
  · rintro ⟨after, copied⟩
    exact (Store.copyPins_cases copied).1
  · intro distinct
    unfold Store.copyPins
    dsimp only
    rw [if_pos distinct, if_neg (fun missing => missing.2 there)]
    exact ⟨_, rfl⟩

theorem copyPeriphery_ok_iff {rows : List PeripheryRow} {now : Instant}
    (there : store.hasBranch branchId) (empty : store.peripheryOf (.branch branchId) = []) :
    (∃ after, store.copyPeriphery branchId rows now = .ok after) ↔
      (rows.map fun row => (row.system, row.resource)).Nodup := by
  have keys : (rows.map fun row => (row.system, row.resource)) =
      (((store.peripheryOf (.branch branchId)).filter (·.validTo = none) ++
        rows.map (Store.copiedPeriphery branchId now)).map fun row => (row.system, row.resource)) := by
    rw [empty, List.filter_nil, List.nil_append, List.map_map]
    rfl
  rw [keys]
  unfold Store.copyPeriphery
  dsimp only
  constructor
  · rintro ⟨after, copied⟩
    split at copied
    · assumption
    · cases copied
  · intro distinct
    rw [if_pos distinct, if_neg (fun missing => missing.2 there)]
    exact ⟨_, rfl⟩

/-- Among distinct keys, the rows of one key are one row. -/
theorem filter_key_eq_singleton {rows : List PinRow} (distinct : (rows.map PinRow.key).Nodup)
    {row : PinRow} (among : row ∈ rows) : rows.filter (·.key = row.key) = [row] := by
  induction rows with
  | nil => cases among
  | cons first rest ih =>
      rw [List.map_cons, List.nodup_cons] at distinct
      obtain ⟨apart, distinct⟩ := distinct
      rcases List.mem_cons.mp among with rfl | later
      · have none : rest.filter (·.key = row.key) = [] := by
          rw [List.filter_eq_nil_iff]
          intro other there same
          exact apart (List.mem_map.mpr ⟨other, there, by simpa using same⟩)
        simp [none]
      · have other : first.key ≠ row.key := fun same => apart (List.mem_map.mpr ⟨row, later, same.symm⟩)
        simp [other, ih distinct later]

end Copies

section Ends

variable {deployment : Deployment} {format : InstantFormat} {params : CreateBranchParams}

theorem ends_repo (request : RepoCall) : (repo request).Ends :=
  Program.Ends.bind (fun _ => trivial) fun _ => Program.ends_ofExcept _

theorem ends_edgeConsumers (audience : EventAudience) : (edgeConsumers audience).Ends := by
  unfold edgeConsumers
  split
  · refine (ends_repo _).bind fun found => ?_
    cases found with
    | some serviceId => exact ends_repo _
    | none => trivial
  · trivial

theorem ends_planEvent (eventType : WebhookEventType) (audience : EventAudience)
    (data : Document.Value) : (planEvent deployment eventType audience data).Ends := by
  refine Program.Ends.bind ?_ fun hookIds => ?_
  · unfold fanOut
    split
    · refine (ends_repo .listWebhooks).bind fun hooks => ?_
      split
      · trivial
      · exact (ends_edgeConsumers audience).bind fun _ => trivial
    · trivial
  · unfold eventFor
    split
    · trivial
    · exact fun _ _ => trivial

theorem ends_openCut : (openCut deployment format params).Ends := by
  refine Program.Ends.bind (Program.ends_ofExcept _) fun _ => ?_
  refine Program.Ends.bind ?_ fun asOf => ?_
  · unfold cutInstant
    split
    · exact Program.ends_ofExcept _
    · exact fun _ => trivial
  refine Program.Ends.bind ?_ fun source => ?_
  · unfold cutSource
    split
    · trivial
    · refine Program.Ends.bind (Program.Ends.bind (ends_repo _) fun found => ?_) fun _ => trivial
      cases found <;> trivial
  refine Program.Ends.bind (fun _ => trivial) fun now => ?_
  refine (ends_planEvent _ _ _).bind fun event => ?_
  refine Program.Ends.bind (Program.Ends.bind (fun _ => trivial) fun answer => ?_) fun _ => trivial
  cases answer with
  | ok branchId => trivial
  | error reason => cases reason <;> trivial

theorem ends_fillBranch (branch : BranchInfo) (source : Graph) :
    (fillBranch format branch source).Ends := by
  refine Program.Ends.bind ?_ fun copied => ?_
  · unfold copyGraph
    cases source <;>
      · refine Program.Ends.bind (fun _ => trivial) fun first => ?_
        cases first with
        | error reason => trivial
        | ok done => exact fun _ => trivial
  · cases copied with
    | error reason => exact fun _ => trivial
    | ok done => exact fun _ _ => trivial

end Ends

section Theorem

variable {deployment : Deployment} {format : InstantFormat} {params : CreateBranchParams}
  {environment : Environment} {others : List (Instant × RepoCall)} {world opened middle after : World}
  {branch : BranchInfo} {source : Graph}

theorem open_copiedPins (rows : List PinRow) (now : Instant) :
    (rows.map (Store.copiedPin now)).filter (·.validTo = none) = rows.map (Store.copiedPin now) := by
  rw [List.filter_eq_self]
  intro copy there
  obtain ⟨_, -, rfl⟩ := List.mem_map.mp there
  rfl

theorem pins_of_distinct {store pinned : Store} {branchId : Nat} {rows : List PinRow} {now : Instant}
    (copied : store.copyPins branchId rows now = .ok pinned) {row : PinRow} (among : row ∈ rows) :
    (openPins pinned branchId).filter (·.key = row.key) = [Store.copiedPin now row] := by
  obtain ⟨distinct, rfl⟩ := Store.copyPins_cases copied
  have held : openPins { store with
      branchPins := store.branchPins ++ (rows.map (Store.copiedPin now)).map fun row => (branchId, row) }
        branchId = (store.branchPinsOf branchId).filter (·.validTo = none) ++
          rows.map (Store.copiedPin now) := by
    rw [openPins, Store.branchPinsOf_copied, if_pos rfl, List.filter_append, open_copiedPins]
  have there : Store.copiedPin now row ∈ (store.branchPinsOf branchId).filter (·.validTo = none) ++
      rows.map (Store.copiedPin now) := List.mem_append_right _ (List.mem_map_of_mem among)
  rw [held]
  exact filter_key_eq_singleton distinct there

/-- A branch that is new has no periphery. -/
theorem peripheryOf_fresh {store : Store} (linked : store.Links) {branchId : Nat}
    (fresh : ¬ store.hasBranch branchId) : store.peripheryOf (.branch branchId) = [] := by
  rw [Store.peripheryOf, List.filter_eq_nil_iff]
  intro row among same
  exact fresh (linked.peripheryBranch row among branchId (by simpa using same))

theorem peripheryOf_copied {store full : Store} {branchId : Nat} {rows : List PeripheryRow}
    {now : Instant} (empty : store.peripheryOf (.branch branchId) = [])
    (copied : store.copyPeriphery branchId rows now = .ok full) :
    full.peripheryOf (.branch branchId) = rows.map (Store.copiedPeriphery branchId now) := by
  rw [Store.peripheryOf] at empty
  rw [Store.copyPeriphery_cases copied, Store.peripheryOf, List.filter_append, empty,
    List.nil_append, List.filter_eq_self]
  intro row among
  obtain ⟨_, -, rfl⟩ := List.mem_map.mp among
  simp [Store.copiedPeriphery]

theorem open_copiedPeriphery (rows : List PeripheryRow) (branchId : Nat) (now : Instant) :
    (rows.map (Store.copiedPeriphery branchId now)).filter (·.validTo = none) =
      rows.map (Store.copiedPeriphery branchId now) := by
  rw [List.filter_eq_self]
  intro copy there
  obtain ⟨_, -, rfl⟩ := List.mem_map.mp there
  rfl

theorem heldPeriphery_copied {store full : Store} {branchId : Nat} {rows : List PeripheryRow}
    {now : Instant} (empty : store.peripheryOf (.branch branchId) = [])
    (copied : store.copyPeriphery branchId rows now = .ok full) :
    heldPeriphery full branchId = rows.map fun row => (row.system, row.resource) := by
  rw [heldPeriphery, peripheryOf_copied empty copied, open_copiedPeriphery, List.map_map]
  rfl

/-- The state in which a cut fails: its branch is there, and nothing of other graphs is changed. -/
structure Failing (before failed : Store) (branch : BranchInfo) : Prop where
  branches : failed.branches = before.branches ++ [branch]
  elsewhere : pinsElsewhere failed branch.id = pinsElsewhere before branch.id
  periphery : failed.periphery = before.periphery

/-- A failed cut leaves nothing exactly when no webhook was sent its event and its branch goes
away. -/
theorem nothingLeft_iff {before : Store} (linked : before.Links)
    (fresh : branch.id = before.nextBranchId) (failing : Failing before middle.store branch)
    (events : cutEvents middle.store = cutEvents before ↔ NoTaker deployment before)
    (away : TakenAway environment middle after branch.id) :
    NothingLeft before after.store ↔
      NoTaker deployment before ∧ environment.fault middle.steps = none := by
  have new : ¬ before.hasBranch branch.id := by
    rw [fresh]
    exact linked.fresh
  cases away with
  | stays faulty same =>
      refine ⟨fun left => absurd left.branches ?_, fun ended => absurd ended.2 faulty⟩
      rw [same, failing.branches]
      simp
  | gone sound same =>
      have outbox : cutEvents after.store = cutEvents middle.store := by
        rw [same]
        rfl
      refine ⟨fun left => ⟨events.mp (outbox.symm.trans left.events), sound⟩, fun ended => ?_⟩
      refine ⟨?_, ?_, ?_, outbox.trans (events.mpr ended.1)⟩
      · rw [same]
        change middle.store.branches.filter (·.id ≠ branch.id) = _
        rw [failing.branches, List.filter_append]
        have kept : before.branches.filter (·.id ≠ branch.id) = before.branches := by
          rw [List.filter_eq_self]
          intro other among
          have apart : other.id ≠ branch.id :=
            fun same => new (List.mem_map.mpr ⟨other, among, same⟩)
          simpa using apart
        rw [kept]
        simp
      · rw [same]
        change pinsElsewhere middle.store branch.id = _
        rw [failing.elsewhere, pinsElsewhere, List.filter_eq_self]
        intro row among
        have apart : row.1 ≠ branch.id := fun same => new (same ▸ linked.pinBranch row among)
        simpa using apart
      · rw [same]
        change middle.store.periphery.filter (·.track ≠ .branch branch.id) = _
        rw [failing.periphery, List.filter_eq_self]
        intro row among
        have apart : row.track ≠ .branch branch.id :=
          fun same => new (linked.peripheryBranch row among branch.id same)
        simpa using apart

/-- Copies that have gone through make the cut whole. -/
theorem whole_of_copies {before pinned full : Store} {logs : List AuditRow} (linked : before.Links)
    (cut : OpenedCut deployment format params before opened.store branch source)
    (spared : Spared branch.id opened.store (joined others opened).store)
    (pins : (joined others opened).store.copyPins branch.id
      (sourcePins before source branch.asOf) branch.createdAt = .ok pinned)
    (periphery : pinned.copyPeriphery branch.id
      (sourcePeriphery before source branch.asOf) branch.createdAt = .ok full) :
    WholeCut format params before { full with auditLogs := logs } branch source := by
  have grown := cut.grown
  have copied := (Store.copyPins_cases pins).2
  have new : ¬ before.hasBranch branch.id := by
    rw [grown.fresh]
    exact linked.fresh
  have empty : pinned.peripheryOf (.branch branch.id) = [] := by
    have same : pinned.periphery = before.periphery := by
      rw [copied]
      exact spared.periphery.trans grown.periphery
    rw [Store.peripheryOf, same]
    exact peripheryOf_fresh linked new
  have filled := Store.copyPeriphery_cases periphery
  have shown : heldPeriphery { full with auditLogs := logs } branch.id = heldPeriphery full branch.id :=
    rfl
  refine ⟨cut.names, cut.instant, ?_, ?_, shown.trans (heldPeriphery_copied empty periphery)⟩
  · change branch ∈ full.branches
    rw [filled, copied]
    change branch ∈ (joined others opened).store.branches
    rw [spared.branches, grown.branches]
    exact List.mem_append_right _ List.mem_cons_self
  · intro row among
    have same : openPins { full with auditLogs := logs } branch.id = openPins pinned branch.id := by
      rw [filled]
      rfl
    rw [same]
    exact pins_of_distinct pins among

theorem noTaker_iff {first second : Store} (same : first.webhooks = second.webhooks) :
    NoTaker deployment first ↔ NoTaker deployment second := by
  rw [NoTaker, NoTaker, same]

end Theorem

section Filled

variable {deployment : Deployment} {format : InstantFormat} {params : CreateBranchParams}
  {environment : Environment} {others : List (Instant × RepoCall)} {opened middle after : World}
  {before pinned : Store} {branch : BranchInfo} {source : Graph}

theorem OpenedCut.unknown (cut : OpenedCut deployment format params before opened.store branch source)
    (linked : before.Links) : ¬ before.hasBranch branch.id := by
  rw [cut.grown.fresh]
  exact linked.fresh

/-- Before the copies, the branch is there and other graphs are as they were. -/
theorem failing_joined (cut : OpenedCut deployment format params before opened.store branch source)
    (into : ∀ call ∈ others, IntoBranch branch.id call.2) :
    Failing before (joined others opened).store branch := by
  have spared : Spared branch.id opened.store (joined others opened).store := spared_of_joined into
  refine ⟨spared.branches.trans cut.grown.branches, ?_, spared.periphery.trans cut.grown.periphery⟩
  rw [spared.elsewhere, pinsElsewhere, cut.grown.branchPins, pinsElsewhere]

theorem told_joined (cut : OpenedCut deployment format params before opened.store branch source)
    (into : ∀ call ∈ others, IntoBranch branch.id call.2) :
    cutEvents (joined others opened).store = cutEvents before ↔ NoTaker deployment before := by
  have spared : Spared branch.id opened.store (joined others opened).store := spared_of_joined into
  rw [spared.events]
  exact cut.grown.events

theorem opened_sourcePins
    (cut : OpenedCut deployment format params before opened.store branch source)
    (linked : before.Links) :
    sourcePins opened.store source branch.asOf = sourcePins before source branch.asOf := by
  refine cut.sourcePins_kept linked cut.grown.trunkPins (fun other _ => ?_) branch.asOf
  rw [Store.branchPinsOf, cut.grown.branchPins, Store.branchPinsOf]

theorem joined_sourcePins
    (cut : OpenedCut deployment format params before opened.store branch source)
    (linked : before.Links) (into : ∀ call ∈ others, IntoBranch branch.id call.2) :
    sourcePins (joined others opened).store source branch.asOf =
      sourcePins before source branch.asOf := by
  have spared : Spared branch.id opened.store (joined others opened).store := spared_of_joined into
  refine cut.sourcePins_kept linked (spared.trunkPins.trans cut.grown.trunkPins)
    (fun other apart => ?_) branch.asOf
  rw [spared.branchPinsOf apart, Store.branchPinsOf, cut.grown.branchPins, Store.branchPinsOf]

/-- The pins fit exactly when their copy is accepted. -/
theorem pinsFit_iff (cut : OpenedCut deployment format params before opened.store branch source)
    (linked : before.Links) (into : ∀ call ∈ others, IntoBranch branch.id call.2) :
    PinsFit others opened branch source ↔ ∃ pinned, (joined others opened).store.copyPins branch.id
      (sourcePins before source branch.asOf) branch.createdAt = .ok pinned := by
  have there : (joined others opened).store.hasBranch branch.id := by
    rw [Store.hasBranch, (failing_joined cut into).branches]
    simp
  rw [copyPins_ok_iff there, PinsFit, opened_sourcePins cut linked]

/-- Copied pins leave the rest of a failing cut as it was. -/
theorem failing_pinned (failing : Failing before (joined others opened).store branch)
    {rows : List PinRow}
    (copied : (joined others opened).store.copyPins branch.id rows branch.createdAt = .ok pinned) :
    Failing before pinned branch := by
  rw [(Store.copyPins_cases copied).2]
  refine ⟨failing.branches, ?_, failing.periphery⟩
  have own : ((rows.map (Store.copiedPin branch.createdAt)).map fun row => (branch.id, row)).filter
      (·.1 ≠ branch.id) = [] := by
    rw [List.filter_eq_nil_iff]
    intro row among
    obtain ⟨_, -, rfl⟩ := List.mem_map.mp among
    simp
  change List.filter _ (_ ++ _) = _
  rw [List.filter_append, own, List.append_nil]
  exact failing.elsewhere

/-- The periphery fits exactly when its copy is accepted. -/
theorem peripheryFits_iff
    (cut : OpenedCut deployment format params before opened.store branch source)
    (linked : before.Links) (failing : Failing before pinned branch) :
    PeripheryFits opened branch source ↔ ∃ full, pinned.copyPeriphery branch.id
      (sourcePeriphery before source branch.asOf) branch.createdAt = .ok full := by
  have there : pinned.hasBranch branch.id := by
    rw [Store.hasBranch, failing.branches]
    simp
  have empty : pinned.peripheryOf (.branch branch.id) = [] := by
    rw [Store.peripheryOf, failing.periphery]
    exact peripheryOf_fresh linked (cut.unknown linked)
  rw [copyPeriphery_ok_iff there empty, PeripheryFits, sourcePeriphery_kept cut.grown.periphery]

/-- The fill of an open cut makes it whole or leaves nothing of it exactly when its copies go
through, or can be undone and nobody was told of it. -/
theorem filled_all_or_nothing_iff {outcome : Except AppError BranchInfo} (linked : before.Links)
    (cut : OpenedCut deployment format params before opened.store branch source)
    (into : ∀ call ∈ others, IntoBranch branch.id call.2)
    (ran : (fillBranch format branch source).run (intruded environment others) opened =
      some (outcome, after)) :
    AllOrNothing format params before after.store outcome ↔
      CopiesGo environment others opened branch source ∨
        Undoes deployment environment others opened branch source := by
  have grown := cut.grown
  have start := failing_joined cut into
  have fits := pinsFit_iff cut linked into
  have untold := @noTaker_iff deployment _ _ grown.webhooks
  obtain ⟨copied, middle, filled, rest⟩ := fillBranch_cases ran
  cases filled with
  | all steps first pins second periphery =>
      rw [joined_sourcePins cut linked into] at pins
      have failing := failing_pinned start pins
      rw [sourcePeriphery_kept failing.periphery] at periphery
      obtain ⟨-, rfl, logs, kept⟩ | ⟨⟨_, failed⟩, -⟩ := rest
      · refine ⟨fun _ => .inl ?_, fun _ => ⟨source, ?_⟩⟩
        · exact ⟨first, fits.mpr ⟨_, pins⟩, second,
            (peripheryFits_iff cut linked failing).mpr ⟨_, periphery⟩⟩
        · rw [kept]
          exact whole_of_copies linked cut (spared_of_joined into) pins periphery
      · cases failed
  | nothing steps failed same =>
      rw [joined_sourcePins cut linked into] at failed
      obtain ⟨done, -⟩ | ⟨-, ⟨error, rfl⟩, away⟩ := rest
      · cases done
      have stuck : environment.fault opened.steps ≠ none ∨ ¬ PinsFit others opened branch source := by
        refine failed.imp id fun refused fit => ?_
        obtain ⟨pinned, pins⟩ := fits.mp fit
        rw [refused] at pins
        cases pins
      have told := told_joined cut into
      rw [← same] at start told
      change NothingLeft before after.store ↔ _
      rw [nothingLeft_iff linked grown.fresh start told away, steps]
      constructor
      · intro ended
        refine .inr ⟨untold.mpr ended.1, fun _ => ended.2, fun sound fit => ?_⟩
        exact (stuck.elim (fun faulty => faulty sound) fun unfit => unfit fit).elim
      · rintro (goes | undoes)
        · exact (stuck.elim (fun faulty => faulty goes.first) fun unfit => unfit goes.pins).elim
        · exact ⟨untold.mp undoes.noTaker, undoes.afterPins stuck⟩
  | pins steps first pins failed =>
      rw [joined_sourcePins cut linked into] at pins
      have failing := failing_pinned start pins
      rw [sourcePeriphery_kept failing.periphery] at failed
      obtain ⟨done, -⟩ | ⟨-, ⟨error, rfl⟩, away⟩ := rest
      · cases done
      have fit : PinsFit others opened branch source := fits.mpr ⟨_, pins⟩
      have stuck : environment.fault (opened.steps + 1) ≠ none ∨
          ¬ PeripheryFits opened branch source := by
        refine failed.imp id fun refused fit => ?_
        obtain ⟨full, periphery⟩ := (peripheryFits_iff cut linked failing).mp fit
        rw [refused] at periphery
        cases periphery
      have told : cutEvents middle.store = cutEvents before ↔ NoTaker deployment before := by
        rw [(Store.copyPins_cases pins).2]
        exact told_joined cut into
      change NothingLeft before after.store ↔ _
      rw [nothingLeft_iff linked grown.fresh failing told away, steps]
      constructor
      · intro ended
        refine .inr ⟨untold.mpr ended.1, fun unfit => ?_, fun _ _ => ended.2⟩
        exact (unfit.elim (fun faulty => faulty first) fun unfit => unfit fit).elim
      · rintro (goes | undoes)
        · exact (stuck.elim (fun faulty => faulty goes.second) fun unfit => unfit goes.periphery).elim
        · exact ⟨untold.mp undoes.noTaker, undoes.afterPeriphery first fit⟩

/-- Whatever fails and whatever is required into the branch meanwhile, a cut is all or nothing
exactly when its copies go through, or can be undone and nobody was told of it. -/
theorem cut_all_or_nothing_iff (deployment : Deployment) (format : InstantFormat)
    (params : CreateBranchParams) (environment : Environment) (world : World)
    (others : List (Instant × RepoCall))
    (into : ∀ call ∈ others, IntoBranch world.store.nextBranchId call.2) :
    ∃ outcome after, (createBranch deployment format params).run (intruded environment others) world =
        some (outcome, after) ∧
      (AllOrNothing format params world.store after.store outcome ↔
        ∀ opened branch source, (openCut deployment format params).run (World.handle environment) world =
            some (.ok (branch, source), opened) →
          CopiesGo environment others opened branch source ∨
            Undoes deployment environment others opened branch source) := by
  have alike : ∀ start, (openCut deployment format params).run (intruded environment others) start =
      (openCut deployment format params).run (World.handle environment) start := by
    intro start
    refine only_openCut.run_congr (fun state request spares => ?_) start
    simp [intruded, spares]
  obtain ⟨began, opened, opening⟩ := ends_openCut.run (World.handle environment) world
  rw [createBranch_eq, Program.run_bind, alike, opening, Option.bind_some]
  cases began with
  | error error =>
      refine ⟨.error error, opened, rfl, fun _ _ _ _ ran => ?_, fun _ => ?_⟩
      · cases ran
      · have same := openCut_error opening
        exact ⟨by rw [same], by rw [same], by rw [same], by rw [same]⟩
  | ok cut =>
      obtain ⟨branch, source⟩ := cut
      obtain ⟨outcome, after, filling⟩ := (ends_fillBranch branch source).run
        (intruded environment others) opened
      have began := openCut_ok opening
      rw [← began.grown.fresh] at into
      have filled := filled_all_or_nothing_iff world.database.linked began into filling
      refine ⟨outcome, after, filling, fun held opened' branch' source' ran => ?_, fun each => ?_⟩
      · cases ran
        exact filled.mp held
      · exact filled.mpr (each opened branch source rfl)

end Filled

section Examples

/-- A hook that wants every event. -/
def everyEvent : Webhook := ⟨1, .global, [], none, false⟩

/-- Trunk holds a pin, and a hook listens. -/
def hookedDatabase : Database where
  store := { trunkDatabase.store with webhooks := [everyEvent] }
  sound := trunkDatabase.sound.of_tables rfl rfl rfl
  linked := trunkDatabase.linked.of_tables rfl rfl rfl rfl rfl

def emitting : Deployment := { quietSetup.deployment with emissionEnabled := true }

def cutR1 : CreateBranchParams := { name := "r1", createdBy := "rel" }

/-- The copy of the pins fails. -/
def brokenCopy : Environment :=
  { steadyEnvironment with fault := fun step => if step = 6 then some "disk I/O error" else none }

/-- Whether a cut has failed and left the event of it. -/
def eventStays (ended : Option (Except AppError BranchInfo × World)) : Bool :=
  match ended with
  | some (.error _, after) => (cutEvents after.store).length = 1
  | _ => false

theorem eventStays_spec {format : InstantFormat} {params : CreateBranchParams} {before : Store}
    {ended : Option (Except AppError BranchInfo × World)} (quiet : cutEvents before = [])
    (stays : eventStays ended = true) :
    ∃ outcome after, ended = some (outcome, after) ∧
      ¬ AllOrNothing format params before after.store outcome := by
  unfold eventStays at stays
  split at stays
  · rename_i error after
    refine ⟨.error error, after, rfl, fun nothing => ?_⟩
    have events : cutEvents after.store = cutEvents before := nothing.events
    rw [events, quiet] at stays
    cases stays
  · cases stays

/-- The branch is taken away again, and its event has gone out. -/
theorem cut_event_stays :
    ∃ outcome after, (createBranch emitting quietSetup.format cutR1).run (intruded brokenCopy [])
        ⟨hookedDatabase, 0⟩ = some (outcome, after) ∧
      ¬ AllOrNothing quietSetup.format cutR1 hookedDatabase.store after.store outcome :=
  eventStays_spec rfl (by decide +kernel)

/-- A require into the branch holds the key of a pin of its source. -/
theorem cut_all_or_nothing_required :
    ∃ outcome after, (createBranch quietSetup.deployment quietSetup.format cutR1).run
        (intruded steadyEnvironment [(7, .recordBranchPins 1 [shopPin])]) ⟨trunkDatabase, 0⟩ =
          some (outcome, after) ∧
      (AllOrNothing quietSetup.format cutR1 trunkDatabase.store after.store outcome ↔
        ∀ opened branch source, (openCut quietSetup.deployment quietSetup.format cutR1).run
            (World.handle steadyEnvironment) ⟨trunkDatabase, 0⟩ =
              some (.ok (branch, source), opened) →
          CopiesGo steadyEnvironment [(7, .recordBranchPins 1 [shopPin])] opened branch source ∨
            Undoes quietSetup.deployment steadyEnvironment [(7, .recordBranchPins 1 [shopPin])] opened
              branch source) := by
  refine cut_all_or_nothing_iff quietSetup.deployment quietSetup.format cutR1 steadyEnvironment
    ⟨trunkDatabase, 0⟩ [(7, .recordBranchPins 1 [shopPin])] fun call among => ?_
  obtain rfl := List.mem_singleton.mp among
  exact .pins [shopPin]

end Examples
end Sanshain.Guarantees
