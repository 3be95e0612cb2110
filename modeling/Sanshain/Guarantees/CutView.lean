import Sanshain.Guarantees.CutOutcome

namespace Sanshain.Guarantees

open Sanshain.Data Sanshain.Domain Sanshain.Effects Sanshain.Application Sanshain.Infrastructure
open Sanshain.History

/-- A new branch shows now what its source showed at the instant of the cut. -/
structure ShowsSource (before after : Database) (branch : BranchInfo) (source : Graph) : Prop where
  pins : (after.store.listBranchPins branch.id none).map pinRecord =
    (before.store.listPinsAt branch.asOf source.track).map pinRecord
  periphery : after.store.listPeriphery (.branch branch.id) none =
    before.store.listPeriphery source.periphery (some branch.asOf)
  lines : ∀ line, Carries after (.branch branch.name none) line ↔
    Carries before (source.scope branch.asOf) line

/-- The versions of a Producer and an API type that the pins of a graph name at an instant. -/
def pinnedAt (store : Store) (source : Graph) (instant : Instant) (service : String)
    (apiType : ApiType) : Set SemVer :=
  {version | ∃ row ∈ sourcePins store source instant,
    row.serviceName = service ∧ row.apiType = apiType ∧ row.version = version}

/-- The versions that trunk's members record and those that its pins name have the same highest
ones; every member version of a branch is the highest that its pins name. -/
def MembersPinned (store : Store) (instant : Instant) : Graph → Prop
  | none => ∀ service apiType version,
      IsGreatest (recordedAt store instant service apiType) version ↔
        IsGreatest (pinnedAt store none instant service apiType) version
  | some branch => ∀ service apiType member,
      memberOf (store.listMemberVersions (.branch branch.id) (some instant)) service apiType =
          some member →
        IsGreatest (pinnedAt store (some branch) instant service apiType) member.version

section Filled

variable {deployment : Deployment} {format : InstantFormat} {params : CreateBranchParams}
  {environment : Environment} {world after : World} {branch : BranchInfo} {source : Graph}

/-- What a cut that nobody joined makes of the store. -/
structure Filled (before after : Store) (branch : BranchInfo) (source : Graph) : Prop where
  stands : branch ∈ after.branches
  pins : after.branchPinsOf branch.id =
    (sourcePins before source branch.asOf).map (Store.copiedPin branch.createdAt)
  members : after.branchMembersOf branch.id = []
  periphery : after.peripheryOf (.branch branch.id) =
    (sourcePeriphery before source branch.asOf).map
      (Store.copiedPeriphery branch.id branch.createdAt)

theorem intruded_nil : intruded environment [] = World.handle environment := by
  funext world request
  have alone : joined [] world = world := rfl
  rw [intruded, alone, ite_self]

/-- Copies that nobody joined are all that is in the branch. -/
theorem filled_of_copies {before opened pinned full : Store} {logs : List AuditRow}
    (linked : before.Links) (cut : OpenedCut deployment format params before opened branch source)
    (pins : opened.copyPins branch.id (sourcePins before source branch.asOf) branch.createdAt =
      .ok pinned)
    (periphery : pinned.copyPeriphery branch.id (sourcePeriphery before source branch.asOf)
      branch.createdAt = .ok full) :
    Filled before { full with auditLogs := logs } branch source := by
  have grown := cut.grown
  have new : ¬ before.hasBranch branch.id := by
    rw [grown.fresh]
    exact linked.fresh
  have pinned' := (Store.copyPins_cases pins).2
  have full' := Store.copyPeriphery_cases periphery
  have unpinned : opened.branchPinsOf branch.id = [] := by
    rw [Store.branchPinsOf, grown.branchPins, List.map_eq_nil_iff, List.filter_eq_nil_iff]
    intro row among same
    have here : row.1 = branch.id := by simpa using same
    exact new (here ▸ linked.pinBranch row among)
  have empty : pinned.peripheryOf (.branch branch.id) = [] := by
    have same : pinned.periphery = before.periphery := by
      rw [pinned']
      exact grown.periphery
    rw [Store.peripheryOf, same]
    exact peripheryOf_fresh linked new
  constructor
  · change branch ∈ full.branches
    rw [full', pinned']
    change branch ∈ opened.branches
    rw [grown.branches]
    exact List.mem_append_right _ List.mem_cons_self
  · change full.branchPinsOf branch.id = _
    rw [full', pinned']
    change ({ opened with branchPins := _ } : Store).branchPinsOf branch.id = _
    rw [Store.branchPinsOf_copied, if_pos rfl, unpinned, List.nil_append]
  · change full.branchMembersOf branch.id = []
    rw [full', pinned', Store.branchMembersOf, List.map_eq_nil_iff, List.filter_eq_nil_iff]
    change ∀ row ∈ opened.branchMembers, _
    rw [grown.branchMembers]
    intro row among same
    have here : row.1 = branch.id := by simpa using same
    exact new (here ▸ linked.memberBranch row among)
  · change full.peripheryOf (.branch branch.id) = _
    exact peripheryOf_copied empty periphery

/-- A cut that answers has filled its branch from the source it names. -/
theorem filled_of_createBranch
    (ran : (createBranch deployment format params).run (World.handle environment) world =
      some (.ok branch, after)) :
    ∃ source, Names world.store params.source source ∧
      (∀ raw, params.asOf = some raw → format.parse raw = .ok branch.asOf) ∧
      Filled world.store after.store branch source := by
  have linked := world.database.linked
  rw [createBranch_eq] at ran
  obtain ⟨⟨began, source⟩, opened, opening, filling⟩ := Program.run_bind_ok ran
  have cut := openCut_ok opening
  rw [← intruded_nil] at filling
  have into : ∀ call ∈ ([] : List (Instant × RepoCall)), IntoBranch began.id call.2 :=
    fun call among => absurd among List.not_mem_nil
  have start := failing_joined cut into
  obtain ⟨copied, middle, filled, ⟨rfl, done, logs, kept⟩ | ⟨-, ⟨error, refused⟩, -⟩⟩ :=
    fillBranch_cases filling
  · cases done
    refine ⟨source, cut.names, cut.instant, ?_⟩
    cases filled with
    | all steps first pins second periphery =>
        rw [joined_sourcePins cut linked into] at pins
        have failing := failing_pinned start pins
        rw [sourcePeriphery_kept failing.periphery] at periphery
        rw [kept]
        exact filled_of_copies linked cut pins periphery
  · cases refused

end Filled

section Views

variable {before after : Database} {branch : BranchInfo} {source : Graph}

theorem listPinsAt_source (store : Store) (source : Graph) (instant : Instant) :
    store.listPinsAt instant source.track = listPins (sourcePins store source instant) := by
  cases source <;> rfl

/-- The pins of the new branch record what its source's pins did. -/
theorem Filled.listed (filled : Filled before.store after.store branch source) :
    (after.store.listBranchPins branch.id none).map pinRecord =
      (before.store.listPinsAt branch.asOf source.track).map pinRecord := by
  have current : shown PinRow.span (after.store.branchPinsOf branch.id) none =
      (sourcePins before.store source branch.asOf).map (Store.copiedPin branch.createdAt) := by
    rw [filled.pins]
    exact open_copiedPins _ _
  rw [Store.listBranchPins, current, listPinsAt_source, listPins_records, listPins_records,
    List.map_map]
  rfl

theorem Filled.resources (filled : Filled before.store after.store branch source) :
    after.store.listPeriphery (.branch branch.id) none =
      before.store.listPeriphery source.periphery (some branch.asOf) := by
  have current : shown PeripheryRow.span (after.store.peripheryOf (.branch branch.id)) none =
      (sourcePeriphery before.store source branch.asOf).map
        (Store.copiedPeriphery branch.id branch.createdAt) := by
    rw [filled.periphery]
    exact open_copiedPeriphery _ _ _
  rw [Store.listPeriphery, current, List.map_map]
  rfl

/-- Listings with the same records name the same versions. -/
theorem versionsOf_records {first second : List PinInfo}
    (same : first.map pinRecord = second.map pinRecord) (service : String) (apiType : ApiType) :
    versionsOf (first.map pinLine) service apiType =
      versionsOf (second.map pinLine) service apiType := by
  have told : ∀ pins : List PinInfo, versionsOf (pins.map pinLine) service apiType =
      {version | ∃ record ∈ pins.map pinRecord,
        record.service = service ∧ record.apiType = apiType ∧ record.version = version} := by
    intro pins
    ext version
    constructor
    · rintro ⟨line, among, rfl, rfl, rfl⟩
      obtain ⟨pin, listed, rfl⟩ := List.mem_map.mp among
      exact ⟨pinRecord pin, List.mem_map_of_mem listed, rfl, rfl, rfl⟩
    · rintro ⟨record, among, rfl, rfl, rfl⟩
      obtain ⟨pin, listed, rfl⟩ := List.mem_map.mp among
      exact ⟨pinLine pin, List.mem_map_of_mem listed, rfl, rfl, rfl⟩
  rw [told, told, same]

theorem versionsOf_pinned (store : Store) (source : Graph) (instant : Instant) (service : String)
    (apiType : ApiType) :
    versionsOf ((store.listPinsAt instant source.track).map pinLine) service apiType =
      pinnedAt store source instant service apiType := by
  rw [listPinsAt_source]
  ext version
  constructor
  · rintro ⟨line, among, rfl, rfl, rfl⟩
    obtain ⟨pin, listed, rfl⟩ := List.mem_map.mp among
    rw [listPins, List.mem_insertionSort] at listed
    obtain ⟨row, held, rfl⟩ := List.mem_map.mp listed
    exact ⟨row, held, rfl, rfl, rfl⟩
  · rintro ⟨row, held, rfl, rfl, rfl⟩
    have listed : pinInfo row ∈ listPins (sourcePins store source instant) := by
      rw [listPins, List.mem_insertionSort]
      exact List.mem_map_of_mem held
    exact ⟨_, List.mem_map_of_mem listed, rfl, rfl, rfl⟩

/-- The new branch carries the highest versions that its source's pins named. -/
theorem Filled.carries_iff (filled : Filled before.store after.store branch source)
    (service : String) (apiType : ApiType) (version : SemVer) :
    Carries after (.branch branch.name none) (service, apiType, version) ↔
      IsGreatest (pinnedAt before.store source branch.asOf service apiType) version := by
  have found := after.linked.branchNamed filled.stands
  have members : after.store.listMemberVersions (.branch branch.id) none = [] := by
    simp [Store.listMemberVersions, shown, filled.members]
  have none : memberOf [] service apiType = none := rfl
  rw [carries_branch_iff found, members, none, versionsOf_records filled.listed, versionsOf_pinned]
  simp

/-- The lines of the cut are those of its source exactly when the source's members are pinned. -/
theorem lines_iff (filled : Filled before.store after.store branch source) {name : Option String}
    (names : Names before.store name source) :
    (∀ line, Carries after (.branch branch.name none) line ↔
        Carries before (source.scope branch.asOf) line) ↔
      MembersPinned before.store branch.asOf source := by
  have each : (∀ line, Carries after (.branch branch.name none) line ↔
      Carries before (source.scope branch.asOf) line) ↔
        ∀ service apiType version, IsGreatest (pinnedAt before.store source branch.asOf service apiType)
          version ↔ Carries before (source.scope branch.asOf) (service, apiType, version) := by
    constructor
    · intro same service apiType version
      rw [← filled.carries_iff]
      exact same _
    · rintro same ⟨service, apiType, version⟩
      rw [filled.carries_iff]
      exact same service apiType version
  rw [each]
  cases source with
  | none =>
      constructor
      · intro same service apiType version
        rw [← carries_recorded_iff]
        exact (same service apiType version).symm
      · intro pinned service apiType version
        rw [carries_recorded_iff]
        exact (pinned service apiType version).symm
  | some older =>
      obtain ⟨-, other⟩ | ⟨wanted, held, -, same, listed⟩ := names
      · cases other
      cases same
      have among := List.mem_of_find?_eq_some listed
      have found := before.linked.branchNamed among
      have carried : ∀ service apiType version,
          Carries before (Graph.scope (some older) branch.asOf) (service, apiType, version) ↔
            (∃ member, memberOf (before.store.listMemberVersions (.branch older.id)
                (some branch.asOf)) service apiType = some member ∧ member.version = version) ∨
              memberOf (before.store.listMemberVersions (.branch older.id) (some branch.asOf)) service
                  apiType = none ∧
                IsGreatest (pinnedAt before.store (some older) branch.asOf service apiType)
                  version := by
        intro service apiType version
        rw [Graph.scope, carries_branch_iff found, ← versionsOf_pinned]
        rfl
      constructor
      · intro same service apiType member recorded
        rw [same, carried]
        exact .inl ⟨member, recorded, rfl⟩
      · intro pinned service apiType version
        rw [carried]
        cases recorded : memberOf (before.store.listMemberVersions (.branch older.id)
            (some branch.asOf)) service apiType with
        | none => simp
        | some member =>
            have highest := pinned service apiType member recorded
            constructor
            · exact fun top => .inl ⟨member, rfl, highest.unique top⟩
            · rintro (⟨_, same, rfl⟩ | ⟨missing, -⟩)
              · cases same
                exact highest
              · cases missing

/-- A cut that answers shows what its source showed at its instant exactly when what the source's
members record is what its pins name. -/
theorem cut_shows_source_iff (deployment : Deployment) (format : InstantFormat)
    (params : CreateBranchParams) (environment : Environment) (world after : World)
    {branch : BranchInfo}
    (ran : (createBranch deployment format params).run (World.handle environment) world =
      some (.ok branch, after)) :
    (∀ raw, params.asOf = some raw → format.parse raw = .ok branch.asOf) ∧
      ∃ source, Names world.store params.source source ∧
        (ShowsSource world.database after.database branch source ↔
          MembersPinned world.store branch.asOf source) := by
  obtain ⟨source, names, instant, filled⟩ := filled_of_createBranch ran
  refine ⟨instant, source, names, fun shows => ?_, fun pinned => ?_⟩
  · exact (lines_iff filled names).mp shows.lines
  · exact ⟨filled.listed, filled.resources, (lines_iff filled names).mpr pinned⟩

end Views

section Examples

/-- A member record without a pin is missed. -/
theorem unpinned_member {store : Store} {record : MemberRow} {instant : Instant}
    (members : store.trunkMembers = [record]) (begun : record.validFrom ≤ instant)
    (ends : record.validTo = none) (pins : store.trunkPins = []) :
    ¬ MembersPinned store instant none := by
  intro pinned
  have highest : IsGreatest (recordedAt store instant record.serviceName record.apiType)
      record.version := by
    constructor
    · exact ⟨record, by simp [members, MemberRow.span, Span.At, ends, begun], rfl, rfl, rfl⟩
    · rintro version ⟨row, among, -, -, rfl⟩
      rw [members] at among
      rw [List.mem_singleton.mp (mem_lasting.mp among).1]
  obtain ⟨row, among, -⟩ := ((pinned _ _ _).mp highest).1
  have there : row ∈ store.trunkPins := (mem_lasting.mp among).1
  rw [pins] at there
  cases there

def cutR1After (world : World) : Option (Except AppError BranchInfo × World) :=
  (createBranch quietSetup.deployment quietSetup.format cutR1).run (World.handle steadyEnvironment)
    world

def cutsUnpinned (world : World) : Bool :=
  recordsRelease world &&
    match cutR1After world with
    | some (.ok branch, _) => decide (7 ≤ branch.asOf)
    | _ => false

theorem cutsUnpinned_spec {world : World} (cuts : cutsUnpinned world = true) :
    ∃ branch after, cutR1After world = some (.ok branch, after) ∧
      ¬ MembersPinned world.store branch.asOf none := by
  unfold cutsUnpinned at cuts
  rw [Bool.and_eq_true] at cuts
  obtain ⟨records, late⟩ := cuts
  simp only [recordsRelease, Bool.and_eq_true, decide_eq_true_eq, List.isEmpty_iff] at records
  split at late
  · rename_i branch after ran
    have begun : trunkRecord.validFrom ≤ branch.asOf := of_decide_eq_true late
    exact ⟨branch, after, ran, unpinned_member records.1.1 begun rfl records.1.2⟩
  · cases late

/-- Trunk carries a release that nobody requires, and a cut of it does not. -/
theorem cut_misses_member :
    ∃ outcome world branch after, trunkReleased = some (.ok outcome, world) ∧
      cutR1After world = some (.ok branch, after) ∧
      ¬ ShowsSource world.database after.database branch none := by
  have ended : answeredWith cutsUnpinned trunkReleased = true := by decide +kernel
  obtain ⟨outcome, world, released, cuts⟩ := answeredWith_spec ended
  obtain ⟨branch, after, ran, unpinned⟩ := cutsUnpinned_spec cuts
  refine ⟨outcome, world, branch, after, released, ran, fun shows => unpinned ?_⟩
  obtain ⟨source, names, -, filled⟩ := filled_of_createBranch ran
  have trunk : source = none := by
    obtain ⟨-, none⟩ | ⟨wanted, _, named, -⟩ := names
    · exact none
    · cases named
  subst trunk
  exact (lines_iff filled names).mp shows.lines

/-- A cut of trunk pins what trunk pins. -/
theorem cut_shows_source_pinned :
    ∃ branch after, cutR1After ⟨trunkDatabase, 10⟩ = some (.ok branch, after) ∧
      ∃ source, Names trunkDatabase.store none source ∧
        (ShowsSource trunkDatabase after.database branch source ↔
          MembersPinned trunkDatabase.store branch.asOf source) := by
  have ended : answeredWith (fun _ => true) (cutR1After ⟨trunkDatabase, 10⟩) = true := by
    decide +kernel
  obtain ⟨branch, after, ran, -⟩ := answeredWith_spec ended
  exact ⟨branch, after, ran, (cut_shows_source_iff quietSetup.deployment quietSetup.format cutR1
    steadyEnvironment ⟨trunkDatabase, 10⟩ after ran).2⟩

end Examples
end Sanshain.Guarantees
