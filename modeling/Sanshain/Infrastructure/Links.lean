import Sanshain.Infrastructure.Integrity

namespace Sanshain.Infrastructure

open Sanshain.Data Sanshain.Domain

/-- The constraints the schema enforces on the clients and on the branches with their graphs. -/
structure Store.Links (store : Store) : Prop where
  clientIds : (store.clients.map Prod.fst).Nodup
  clientNames : (store.clients.map Prod.snd).Nodup
  clientFresh : ∀ client ∈ store.clients, client.1 < store.nextClientId
  branchIds : (store.branches.map (·.id)).Nodup
  branchNames : (store.branches.map (·.name)).Nodup
  branchFresh : ∀ branch ∈ store.branches, branch.id < store.nextBranchId
  pinBranch : ∀ row ∈ store.branchPins, store.hasBranch row.1
  memberBranch : ∀ row ∈ store.branchMembers, store.hasBranch row.1
  peripheryBranch : ∀ row ∈ store.periphery, ∀ branchId, row.track = .branch branchId →
    store.hasBranch branchId

namespace Store

theorem Links.empty : ({} : Store).Links := by
  constructor <;> simp

section Frames

variable {store after : Store}

/-- The constraints speak of five tables only. -/
theorem Links.of_tables (linked : store.Links)
    (clients : after.table .clients = store.table .clients)
    (branches : after.table .branches = store.table .branches)
    (branchPins : after.table .branchPins = store.table .branchPins)
    (branchMembers : after.table .branchMembers = store.table .branchMembers)
    (periphery : after.table .periphery = store.table .periphery) : after.Links := by
  simp only [table, Prod.mk.injEq] at clients branches branchPins branchMembers periphery
  obtain ⟨clients, nextClient⟩ := clients
  obtain ⟨branches, nextBranch⟩ := branches
  exact
    { clientIds := by rw [clients]; exact linked.clientIds
      clientNames := by rw [clients]; exact linked.clientNames
      clientFresh := by rw [clients, nextClient]; exact linked.clientFresh
      branchIds := by rw [branches]; exact linked.branchIds
      branchNames := by rw [branches]; exact linked.branchNames
      branchFresh := by rw [branches, nextBranch]; exact linked.branchFresh
      pinBranch := by simpa only [branchPins, hasBranch, branches] using linked.pinBranch
      memberBranch := by simpa only [branchMembers, hasBranch, branches] using linked.memberBranch
      peripheryBranch := by simpa only [periphery, hasBranch, branches] using linked.peripheryBranch }

/-- A new identity is no branch's. -/
theorem Links.fresh (linked : store.Links) : ¬ store.hasBranch store.nextBranchId := by
  intro there
  obtain ⟨branch, among, same⟩ := List.mem_map.mp there
  exact absurd (linked.branchFresh branch among) (by simp [same])

/-- A branch is the one of its name. -/
theorem Links.branchNamed (linked : store.Links) {branch : BranchInfo}
    (among : branch ∈ store.branches) :
    store.branches.find? (·.name = branch.name) = some branch := by
  cases found : store.branches.find? (·.name = branch.name) with
  | none => simpa using List.find?_eq_none.mp found branch among
  | some other =>
      have named : other.name = branch.name := by simpa using List.find?_some found
      have held := List.mem_of_find?_eq_some found
      exact congrArg some (List.inj_on_of_nodup_map linked.branchNames held among named)

/-- A name is that of one client. -/
theorem Links.clientId_unique (linked : store.Links) {first second : Nat} {name : String}
    (here : store.clientName? first = some name) (there : store.clientName? second = some name) :
    first = second := by
  rw [clientName?, Option.map_eq_some_iff] at here there
  obtain ⟨one, found, named⟩ := here
  obtain ⟨other, found', named'⟩ := there
  have same := List.inj_on_of_nodup_map linked.clientNames (List.mem_of_find?_eq_some found)
    (List.mem_of_find?_eq_some found') (named.trans named'.symm)
  have first' : one.1 = first := by simpa using List.find?_some found
  have second' : other.1 = second := by simpa using List.find?_some found'
  rw [← first', ← second', same]

end Frames

section Preservation

variable {store after : Store}

theorem Links.ensureClient (linked : store.Links) (name : String) :
    (store.ensureClient name).1.Links := by
  unfold Store.ensureClient
  split
  · exact linked
  · rename_i unknown
    have fresh : ∀ client ∈ store.clients, client.2 ≠ name := by
      simpa [clientNamed?] using unknown
    exact
      { linked with
        clientIds := by
          rw [List.map_append]
          apply linked.clientIds.append (List.nodup_singleton _)
          intro id among new
          cases List.mem_singleton.mp new
          obtain ⟨client, held, same⟩ := List.mem_map.mp among
          have below := linked.clientFresh client held
          simp [same] at below
        clientNames := by
          rw [List.map_append]
          apply linked.clientNames.append (List.nodup_singleton _)
          intro other among new
          cases List.mem_singleton.mp new
          obtain ⟨client, held, same⟩ := List.mem_map.mp among
          exact fresh client held same
        clientFresh := by
          intro client among
          rcases List.mem_append.mp among with old | new
          · exact Nat.lt_succ_of_lt (linked.clientFresh client old)
          · cases List.mem_singleton.mp new
            exact Nat.lt_succ_self _ }

theorem Links.insertBranch (linked : store.Links) {name createdBy source : String}
    {createdAt asOf : Instant} {outbox : List NewWebhookEvent} {branchId : Nat}
    (inserted : store.insertBranch name createdAt createdBy source asOf outbox = .ok (after, branchId)) :
    after.Links := by
  obtain ⟨free, -, emitted⟩ := insertBranch_cases inserted
  have kept : ∀ id, store.hasBranch id → (({ store with
      branches := store.branches ++ [⟨store.nextBranchId, name, createdAt, createdBy, source, asOf⟩]
      nextBranchId := store.nextBranchId + 1 } : Store).hasBranch id) := by
    intro id there
    simp only [hasBranch, List.map_append, List.mem_append]
    exact .inl there
  have opened : ({ store with
      branches := store.branches ++ [⟨store.nextBranchId, name, createdAt, createdBy, source, asOf⟩]
      nextBranchId := store.nextBranchId + 1 } : Store).Links :=
    { linked with
      branchIds := by
        rw [List.map_append]
        apply linked.branchIds.append (List.nodup_singleton _)
        intro id among new
        cases List.mem_singleton.mp new
        exact linked.fresh among
      branchNames := by
        rw [List.map_append]
        apply linked.branchNames.append (List.nodup_singleton _)
        intro other among new
        cases List.mem_singleton.mp new
        exact free among
      branchFresh := by
        intro branch among
        rcases List.mem_append.mp among with old | new
        · exact Nat.lt_succ_of_lt (linked.branchFresh branch old)
        · cases List.mem_singleton.mp new
          exact Nat.lt_succ_self _
      pinBranch := fun row among => kept _ (linked.pinBranch row among)
      memberBranch := fun row among => kept _ (linked.memberBranch row among)
      peripheryBranch := fun row among id same => kept _ (linked.peripheryBranch row among id same) }
  exact opened.of_tables (table_writeOutbox emitted (by decide) (by decide))
    (table_writeOutbox emitted (by decide) (by decide)) (table_writeOutbox emitted (by decide) (by decide))
    (table_writeOutbox emitted (by decide) (by decide)) (table_writeOutbox emitted (by decide) (by decide))

/-- Rewriting branches without moving their identities keeps who has a branch. -/
theorem hasBranch_map {branches : List BranchInfo} {change : BranchInfo → BranchInfo}
    (ids : ∀ branch, (change branch).id = branch.id) :
    (branches.map change).map (·.id) = branches.map (·.id) := by
  rw [List.map_map]
  exact List.map_congr_left fun branch _ => ids branch

theorem Links.renameBranch (linked : store.Links) {branchId : Nat} {newName : String}
    (renamed : store.renameBranch branchId newName = .ok after) : after.Links := by
  have free : ∀ branch ∈ store.branches, branch.id ≠ branchId → branch.name ≠ newName := by
    unfold Store.renameBranch at renamed
    split at renamed
    · cases renamed
    · rename_i unused
      simpa using unused
  rw [renameBranch_cases renamed]
  have ids : ∀ branch : BranchInfo,
      (if branch.id = branchId then { branch with name := newName } else branch).id = branch.id := by
    intro branch
    split <;> rfl
  have same := @hasBranch_map store.branches _ ids
  exact
    { linked with
      branchIds := by
        have kept := linked.branchIds
        rwa [← same] at kept
      branchNames := by
        rw [List.map_map, List.nodup_map_iff_inj_on (List.Nodup.of_map _ linked.branchIds)]
        intro first one second other names
        by_contra different
        have apart : first.id ≠ second.id := fun equal =>
          different (List.inj_on_of_nodup_map linked.branchIds one other equal)
        have named : first.name ≠ second.name := fun equal =>
          different (List.inj_on_of_nodup_map linked.branchNames one other equal)
        simp only [Function.comp_apply] at names
        split at names
        · rename_i here
          rw [if_neg (here ▸ apart.symm)] at names
          exact free second other (here ▸ apart.symm) names.symm
        · rename_i away
          split at names
          · exact free first one away names
          · exact named names
      branchFresh := by
        intro branch among
        obtain ⟨old, held, rfl⟩ := List.mem_map.mp among
        rw [ids]
        exact linked.branchFresh old held
      pinBranch := by
        intro row among
        simp only [hasBranch, same]
        exact linked.pinBranch row among
      memberBranch := by
        intro row among
        simp only [hasBranch, same]
        exact linked.memberBranch row among
      peripheryBranch := by
        intro row among id track
        simp only [hasBranch, same]
        exact linked.peripheryBranch row among id track }

theorem mem_branchPinsOf {branchId : Nat} {row : PinRow} :
    row ∈ store.branchPinsOf branchId ↔ (branchId, row) ∈ store.branchPins := by
  simp [branchPinsOf]

/-- Pins may be added to a branch that is there. -/
theorem Links.withPins (linked : store.Links) {pins : List (Nat × PinRow)}
    (there : ∀ row ∈ pins, row ∈ store.branchPins ∨ store.hasBranch row.1) :
    ({ store with branchPins := pins } : Store).Links :=
  { linked with
    pinBranch := fun row among => (there row among).elim (linked.pinBranch row) id }

theorem Links.recordBranchPins (linked : store.Links) {branchId : Nat} {pins : List RecordPinParams}
    (recorded : store.recordBranchPins branchId pins = .ok after) : after.Links := by
  obtain ⟨there, rows, folded, rfl⟩ := recordBranchPins_cases recorded
  apply linked.withPins
  intro row among
  rcases List.mem_append.mp among with other | mine
  · exact .inl (List.mem_filter.mp other).1
  · obtain ⟨pin, held, rfl⟩ := List.mem_map.mp mine
    rcases there with rfl | there
    · cases folded
      exact .inl (mem_branchPinsOf.mp held)
    · exact .inr there

theorem Links.copyPins (linked : store.Links) {branchId : Nat} {rows : List PinRow} {now : Instant}
    (copied : store.copyPins branchId rows now = .ok after) : after.Links := by
  have there : rows = [] ∨ store.hasBranch branchId := by
    unfold Store.copyPins at copied
    dsimp only at copied
    split at copied
    · split at copied
      · cases copied
      · rename_i possible
        by_contra missing
        rw [not_or] at missing
        exact possible ⟨by simpa using missing.1, missing.2⟩
    · cases copied
  rw [(copyPins_cases copied).2]
  apply linked.withPins
  intro row among
  rcases List.mem_append.mp among with old | new
  · exact .inl old
  · obtain ⟨pin, held, rfl⟩ := List.mem_map.mp new
    rcases there with rfl | there
    · cases held
    · exact .inr there

/-- Periphery may be added to a branch that is there. -/
theorem Links.withPeriphery (linked : store.Links) {rows : List PeripheryRow}
    (there : ∀ row ∈ rows, ∀ branchId, row.track = .branch branchId →
      (∃ old ∈ store.periphery, old.track = row.track) ∨ store.hasBranch branchId) :
    ({ store with periphery := rows } : Store).Links :=
  { linked with
    peripheryBranch := by
      intro row among branchId track
      rcases there row among branchId track with ⟨old, held, same⟩ | found
      · exact linked.peripheryBranch old held branchId (same.trans track)
      · exact found }

theorem Links.copyPeriphery (linked : store.Links) {branchId : Nat} {rows : List PeripheryRow}
    {now : Instant} (copied : store.copyPeriphery branchId rows now = .ok after) : after.Links := by
  have there : rows = [] ∨ store.hasBranch branchId := by
    unfold Store.copyPeriphery at copied
    dsimp only at copied
    split at copied
    · split at copied
      · cases copied
      · rename_i possible
        by_contra missing
        rw [not_or] at missing
        exact possible ⟨by simpa using missing.1, missing.2⟩
    · cases copied
  rw [copyPeriphery_cases copied]
  apply linked.withPeriphery
  intro row among id track
  rcases List.mem_append.mp among with old | new
  · exact .inl ⟨row, old, rfl⟩
  · obtain ⟨source, held, rfl⟩ := List.mem_map.mp new
    cases track
    rcases there with rfl | there
    · cases held
    · exact .inr there

/-- A reconciled track keeps the tracks of its rows, and new rows are of that track. -/
theorem track_of_reconciled {system : String} {resources : List String} {now : Instant}
    {rows : List PeripheryRow} {track : PeripheryTrack} {row : PeripheryRow}
    (among : row ∈ reconcileTrack system resources now rows track) :
    row.track = track ∨ ∃ old ∈ rows, old.track = row.track := by
  rcases List.mem_append.mp among with old | new
  · obtain ⟨before, held, rfl⟩ := List.mem_map.mp old
    refine .inr ⟨before, held, ?_⟩
    split <;> rfl
  · obtain ⟨resource, -, rfl⟩ := List.mem_map.mp new
    exact .inl rfl

theorem Links.reconcilePeriphery (linked : store.Links) {system : String} {trunk changed : Bool}
    {resources : List String} {now : Instant} {outbox : List NewWebhookEvent}
    (reconciled : store.reconcilePeriphery system trunk resources now outbox = .ok (after, changed)) :
    after.Links := by
  have emitted := reconcilePeriphery_cases reconciled
  have rows : ∀ tracks : List PeripheryTrack, (∀ track ∈ tracks, ∀ branchId, track ≠ .branch branchId) →
      ∀ rows row, row ∈ tracks.foldl (reconcileTrack system resources now) rows →
        (∃ branchId, row.track = .branch branchId) → ∃ old ∈ rows, old.track = row.track := by
    intro tracks
    induction tracks with
    | nil => exact fun _ rows row among _ => ⟨row, among, rfl⟩
    | cons track rest ih =>
        intro plain rows row among branch
        obtain ⟨middle, held, same⟩ :=
          ih (fun other later => plain other (List.mem_cons_of_mem _ later)) _ row among branch
        rcases track_of_reconciled held with here | ⟨old, before, old_track⟩
        · obtain ⟨branchId, track'⟩ := branch
          exact absurd (here.symm.trans (same.trans track'))
            (plain track List.mem_cons_self branchId)
        · exact ⟨old, before, old_track.trans same⟩
  have reached : ({ store with
      periphery := (peripheryTracks trunk).foldl (reconcileTrack system resources now)
        store.periphery } : Store).Links := by
    apply linked.withPeriphery
    intro row among branchId track
    refine .inl (rows (peripheryTracks trunk) ?_ _ row among ⟨branchId, track⟩)
    cases trunk <;> simp [peripheryTracks]
  exact reached.of_tables (table_writeOutbox emitted (by decide) (by decide))
    (table_writeOutbox emitted (by decide) (by decide)) (table_writeOutbox emitted (by decide) (by decide))
    (table_writeOutbox emitted (by decide) (by decide)) (table_writeOutbox emitted (by decide) (by decide))

theorem Links.recordBranchMember (linked : store.Links) {branchId serviceId : Nat} {apiType : ApiType}
    {version : SemVer} {now : Instant}
    (recorded : store.recordBranchMember branchId serviceId apiType version now = .ok after) :
    after.Links := by
  have closed : ∀ row ∈ store.branchMembers.map (fun row =>
      if row.1 = branchId ∧ row.2.version ≠ version then
        (row.1, refreshMember serviceId apiType version now row.2)
      else row), store.hasBranch row.1 := by
    intro row among
    obtain ⟨old, held, rfl⟩ := List.mem_map.mp among
    split <;> exact linked.memberBranch old held
  unfold Store.recordBranchMember at recorded
  dsimp only at recorded
  split at recorded
  · cases recorded
    exact { linked with memberBranch := closed }
  · split at recorded
    · cases recorded
    · split at recorded
      · rename_i there
        cases recorded
        exact
          { linked with
            memberBranch := by
              intro row among
              rcases List.mem_append.mp among with old | new
              · exact closed row old
              · cases List.mem_singleton.mp new
                exact there }
      · cases recorded

/-- Clients only go. -/
theorem Links.withoutClients (linked : store.Links) {clients : List (Nat × String)}
    (sublist : clients.Sublist store.clients) : ({ store with clients := clients } : Store).Links :=
  { linked with
    clientIds := linked.clientIds.sublist (sublist.map _)
    clientNames := linked.clientNames.sublist (sublist.map _)
    clientFresh := fun client among => linked.clientFresh client (sublist.subset among) }

theorem Links.deleteBranch (linked : store.Links) (branchId : Nat) :
    (store.deleteBranch branchId).Links := by
  have kept : ∀ id, id ≠ branchId → store.hasBranch id → (store.deleteBranch branchId).hasBranch id := by
    intro id other there
    obtain ⟨branch, among, rfl⟩ := List.mem_map.mp there
    exact List.mem_map.mpr ⟨branch, List.mem_filter.mpr ⟨among, by simpa using other⟩, rfl⟩
  exact
    { linked with
      branchIds := linked.branchIds.sublist (List.filter_sublist.map _)
      branchNames := linked.branchNames.sublist (List.filter_sublist.map _)
      branchFresh := fun branch among => linked.branchFresh branch (List.mem_filter.mp among).1
      pinBranch := by
        intro row among
        obtain ⟨held, other⟩ := List.mem_filter.mp among
        exact kept _ (by simpa using other) (linked.pinBranch row held)
      memberBranch := by
        intro row among
        obtain ⟨held, other⟩ := List.mem_filter.mp among
        exact kept _ (by simpa using other) (linked.memberBranch row held)
      peripheryBranch := by
        intro row among id same
        obtain ⟨held, other⟩ := List.mem_filter.mp among
        rw [same] at other
        exact kept _ (by simpa using other) (linked.peripheryBranch row held id same) }

theorem Links.triedUnit (linked : store.Links) {outcome : Except RepositoryError Store}
    (kept : ∀ after, outcome = .ok after → after.Links) : (store.triedUnit outcome).1.Links := by
  obtain ⟨error, -, same⟩ | ⟨after, done, same⟩ := triedUnit_cases store outcome
  · rw [same]
    exact linked
  · rw [same]
    exact kept after done

theorem Links.tried {Result : Type} (linked : store.Links)
    {outcome : Except RepositoryError (Store × Result)}
    (kept : ∀ after result, outcome = .ok (after, result) → after.Links) :
    (store.tried outcome).1.Links := by
  obtain ⟨error, -, same⟩ | ⟨after, result, done, same⟩ := tried_cases store outcome
  · rw [same]
    exact linked
  · rw [same]
    exact kept after result done

/-- Every call of the store keeps these constraints. -/
theorem Links.perform (linked : store.Links) (now : Instant) (request : RepoCall) :
    (store.perform now request).1.Links := by
  cases request with
  | ensureClient name => exact linked.ensureClient name
  | insertBranch name createdAt createdBy source asOf outbox =>
      exact linked.tried fun after branchId inserted => linked.insertBranch inserted
  | renameBranch branchId newName => exact linked.triedUnit fun after renamed => linked.renameBranch renamed
  | deleteBranch branchId => exact linked.deleteBranch branchId
  | recordBranchPins branchId pins =>
      exact linked.triedUnit fun after recorded => linked.recordBranchPins recorded
  | copyTrunkPinsToBranch branchId asOf nowIso =>
      exact linked.triedUnit fun after copied => linked.copyPins copied
  | copyBranchPinsToBranch targetId sourceId asOf nowIso =>
      exact linked.triedUnit fun after copied => linked.copyPins copied
  | copyTrunkPeripheryToBranch branchId asOf nowIso =>
      exact linked.triedUnit fun after copied => linked.copyPeriphery copied
  | copyBranchPeripheryToBranch targetId sourceId asOf nowIso =>
      exact linked.triedUnit fun after copied => linked.copyPeriphery copied
  | recordBranchMemberVersion branchId serviceId apiType version nowIso =>
      exact linked.triedUnit fun after recorded => linked.recordBranchMember recorded
  | reconcilePeriphery system trunk resources nowIso outbox =>
      exact linked.tried fun after changed reconciled => linked.reconcilePeriphery reconciled
  | deleteConsumer name =>
      change (store.deleteConsumer now name).1.Links
      unfold deleteConsumer
      split
      · exact linked
      · exact (linked.withoutClients List.filter_sublist).of_tables rfl rfl rfl rfl rfl
  | deleteAllClients =>
      exact (linked.withoutClients (List.nil_sublist _)).of_tables rfl rfl rfl rfl rfl
  | nukeDatabase => constructor <;> simp [Store.perform, nukeDatabase]
  | _ =>
      exact linked.of_tables (perform_frame store now (by simp [writes]))
        (perform_frame store now (by simp [writes])) (perform_frame store now (by simp [writes]))
        (perform_frame store now (by simp [writes])) (perform_frame store now (by simp [writes]))

end Preservation
/-- Branch identities are not given twice. -/
theorem nextBranchId_le (store : Store) (now : Instant) (request : RepoCall) :
    store.nextBranchId ≤ (store.perform now request).1.nextBranchId := by
  have framed : .branches ∉ writes request →
      store.nextBranchId ≤ (store.perform now request).1.nextBranchId := fun outside =>
    (Prod.mk.inj (perform_frame store now outside)).2.ge
  cases request with
  | insertBranch name createdAt createdBy source asOf outbox =>
      change _ ≤ (store.tried (store.insertBranch name createdAt createdBy source asOf
        outbox)).1.nextBranchId
      obtain ⟨error, -, same⟩ | ⟨after, branchId, inserted, same⟩ := tried_cases store
        (store.insertBranch name createdAt createdBy source asOf outbox)
      · rw [same]
      · obtain ⟨-, -, emitted⟩ := insertBranch_cases inserted
        have next := (Prod.mk.inj (@table_writeOutbox .branches _ _ _ emitted (by decide)
          (by decide))).2
        rw [same]
        change _ ≤ after.nextBranchId
        rw [next]
        exact Nat.le_succ _
  | renameBranch branchId newName =>
      change _ ≤ (store.triedUnit (store.renameBranch branchId newName)).1.nextBranchId
      obtain ⟨error, -, same⟩ | ⟨after, renamed, same⟩ :=
        triedUnit_cases store (store.renameBranch branchId newName)
      · rw [same]
      · rw [same, renameBranch_cases renamed]
  | deleteBranch branchId => exact le_rfl
  | nukeDatabase => exact le_rfl
  | _ => exact framed (by simp [writes])

end Store
end Sanshain.Infrastructure
