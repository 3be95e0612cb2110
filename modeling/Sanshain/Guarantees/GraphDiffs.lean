import Sanshain.Application.GraphDiff
import Sanshain.Application.Require
import Sanshain.Guarantees.Runs
import Sanshain.Infrastructure.Timeline

namespace Sanshain.Guarantees

open Sanshain.Application Sanshain.Data Sanshain.Document Sanshain.Domain Sanshain.Effects
  Sanshain.History Sanshain.Infrastructure
open OpenApiDocument (sortedSet lookupPath)

/-- The pins of a graph selection, and its periphery. -/
abbrev GraphSelection := List PinInfo × List PeripheralDependency

/-- The key of the pin that a listed change is about, from what is listed of it. -/
def changeKey (change : Application.PinChange) : GraphPinKey :=
  (change.client, change.service, change.apiType, lookupPath change.apiType change.path, change.method)

def changeOf (change : Application.PinChange) : GraphPinKey × SemVer × SemVer :=
  (changeKey change, change.fromVersion, change.toVersion)

/-- No two pins have one key. -/
def DistinctPins (pins : List PinInfo) : Prop := (pins.map graphPinKey).Nodup

/-- The path that pins are matched by is the normalized form of the path they show. -/
def Spelled (pins : List PinInfo) : Prop :=
  ∀ pin ∈ pins, pin.normalizedPath = lookupPath pin.apiType pin.path

/-- The keys and versions after a diff is replayed on the pins of the left side. -/
def replayPins (diff : GraphDiff) (pins : List PinInfo) : List (GraphPinKey × SemVer) :=
  replay graphPinKey (·.version) diff.pinsAdded diff.pinsRemoved (diff.pinsChanged.map changeOf) pins

/-- The periphery after a diff is replayed on that of the left side. -/
def replayPeriphery (diff : GraphDiff) (edges : List PeripheralDependency) : List PeripheralDependency :=
  edges.filter (· ∉ diff.peripheryRemoved) ++ diff.peripheryAdded

def hasProducer (pins : List PinInfo) (name : String) : Prop := ∃ pin ∈ pins, pin.service = name

/-- The diff says exactly how the right side differs from the left one. -/
structure ExactDiff (left right : GraphSelection) (diff : GraphDiff) : Prop where
  pins : (replayPins diff left.1).Perm (right.1.map fun pin => (graphPinKey pin, pin.version))
  periphery : ∀ edge, edge ∈ replayPeriphery diff left.2 ↔ edge ∈ right.2
  apart : (diff.pinsAdded.map graphPinKey ++ diff.pinsRemoved.map graphPinKey ++
    diff.pinsChanged.map changeKey).Nodup
  servicesAdded : ∀ name, name ∈ diff.servicesAdded ↔ hasProducer right.1 name ∧ ¬ hasProducer left.1 name
  servicesRemoved : ∀ name,
    name ∈ diff.servicesRemoved ↔ hasProducer left.1 name ∧ ¬ hasProducer right.1 name
  paths : ∀ change ∈ diff.pinsChanged, ∃ pin ∈ right.1, graphPinKey pin = changeKey change ∧
    pin.path = change.path

/-- One diff is the other one the other way round, up to the path under which a change is shown. -/
structure MirrorDiff (diff back : GraphDiff) : Prop where
  sides : back.left = diff.right ∧ back.right = diff.left
  added : back.pinsAdded.Perm diff.pinsRemoved
  removed : back.pinsRemoved.Perm diff.pinsAdded
  changed : (back.pinsChanged.map changeOf).Perm ((diff.pinsChanged.map changeOf).map reversed)
  servicesAdded : ∀ name, name ∈ back.servicesAdded ↔ name ∈ diff.servicesRemoved
  servicesRemoved : ∀ name, name ∈ back.servicesRemoved ↔ name ∈ diff.servicesAdded
  peripheryAdded : back.peripheryAdded = diff.peripheryRemoved
  peripheryRemoved : back.peripheryRemoved = diff.peripheryAdded

section Maps

variable {pins : List PinInfo}

theorem keys_pinsByKey (pins : List PinInfo) : (pinsByKey pins).keys.Nodup :=
  @Entries.keys_insertAll_nodup GraphPinKey PinInfo _ [] List.nodup_nil _

/-- A key finds the one pin that has it. -/
theorem get?_pinsByKey (distinct : DistinctPins pins) {key : GraphPinKey} {pin : PinInfo} :
    (pinsByKey pins).get? key = some pin ↔ pin ∈ pins ∧ graphPinKey pin = key := by
  have keys : Entries.keys (pins.map fun pin => (graphPinKey pin, pin)).reverse =
      (pins.map graphPinKey).reverse := by
    simp [Entries.keys, Function.comp_def]
  have once : (Entries.keys (pins.map fun pin => (graphPinKey pin, pin)).reverse).Nodup := by
    rw [keys]
    exact List.nodup_reverse.mpr distinct
  rw [pinsByKey, Entries.get?_insertAll, Entries.get?_nil, Option.or_none]
  constructor
  · intro found
    have among := List.mem_reverse.mp (Entries.mem_of_get? found)
    obtain ⟨held, here, same⟩ := List.mem_map.mp among
    cases same
    exact ⟨here, rfl⟩
  · rintro ⟨among, rfl⟩
    exact Entries.get?_of_mem once (List.mem_reverse.mpr (List.mem_map_of_mem among))

theorem get?_pinsByKey_none (distinct : DistinctPins pins) {key : GraphPinKey} :
    (pinsByKey pins).get? key = none ↔ key ∉ pins.map graphPinKey := by
  rw [Option.eq_none_iff_forall_not_mem, List.mem_map, not_exists]
  apply forall_congr'
  intro pin
  exact not_congr (get?_pinsByKey distinct)

theorem mem_pinsByKey (distinct : DistinctPins pins) {entry : GraphPinKey × PinInfo} :
    entry ∈ pinsByKey pins ↔ entry.2 ∈ pins ∧ graphPinKey entry.2 = entry.1 := by
  rw [← get?_pinsByKey distinct]
  exact ⟨fun among => Entries.get?_of_mem (keys_pinsByKey pins) among, Entries.mem_of_get?⟩

/-- What is picked of a map, entry by entry, has its keys. -/
theorem filterMap_keys_sublist {Item : Type} {entries : Entries GraphPinKey PinInfo}
    {pick : GraphPinKey × PinInfo → Option Item} {key : Item → GraphPinKey}
    (keeps : ∀ entry ∈ entries, ∀ item, pick entry = some item → key item = entry.1) :
    ((entries.filterMap pick).map key).Sublist entries.keys := by
  induction entries with
  | nil => exact List.Sublist.refl _
  | cons entry rest ih =>
      have later := ih fun other among => keeps other (List.mem_cons_of_mem _ among)
      cases picked : pick entry with
      | none =>
          rw [List.filterMap_cons_none picked]
          exact later.cons _
      | some item =>
          rw [List.filterMap_cons_some picked, List.map_cons, keeps entry List.mem_cons_self item picked]
          exact later.cons_cons _

end Maps

section Sides

variable {order : HashOrder} {leftPins rightPins : List PinInfo}

theorem visit_keys (order : HashOrder) (pins : List PinInfo) :
    (order.visit (pinsByKey pins)).keys.Nodup :=
  ((order.perm _).map Prod.fst).nodup_iff.mpr (keys_pinsByKey pins)

theorem mem_visit (distinct : DistinctPins rightPins) {entry : GraphPinKey × PinInfo} :
    entry ∈ order.visit (pinsByKey rightPins) ↔ entry.2 ∈ rightPins ∧ graphPinKey entry.2 = entry.1 :=
  (order.perm _).mem_iff.trans (mem_pinsByKey distinct)

theorem mem_pinsWithout (lefts : DistinctPins leftPins) (rights : DistinctPins rightPins) (pin : PinInfo) :
    pin ∈ sortPins (pinsWithout (pinsByKey leftPins) (order.visit (pinsByKey rightPins))) ↔
      pin ∈ rightPins ∧ graphPinKey pin ∉ leftPins.map graphPinKey := by
  rw [sortPins, List.mem_insertionSort, pinsWithout, List.mem_filterMap]
  constructor
  · rintro ⟨⟨key, held⟩, among, picked⟩
    obtain ⟨here, same⟩ := (mem_visit rights).mp among
    split at picked
    · rename_i absent
      cases picked
      rw [← same] at absent
      exact ⟨here, (get?_pinsByKey_none lefts).mp (Option.isNone_iff_eq_none.mp absent)⟩
    · cases picked
  · rintro ⟨here, absent⟩
    refine ⟨(graphPinKey pin, pin), (mem_visit rights).mpr ⟨here, rfl⟩, ?_⟩
    simp [(get?_pinsByKey_none lefts).mpr absent]

theorem pinsWithout_nodup (rights : DistinctPins rightPins) :
    (sortPins (pinsWithout (pinsByKey leftPins) (order.visit (pinsByKey rightPins)))).Nodup := by
  rw [sortPins, (List.perm_insertionSort _ _).nodup_iff]
  apply List.Nodup.of_map graphPinKey
  refine (visit_keys order rightPins).sublist (filterMap_keys_sublist ?_)
  intro entry among item picked
  split at picked
  · cases picked
    exact ((mem_visit rights).mp among).2
  · cases picked

/-- A change of a pin is listed under the key of the pin, whichever way its path is spelled. -/
theorem changeKey_pinChange (rights : DistinctPins rightPins) (spelled : Spelled rightPins)
    {left : Entries GraphPinKey PinInfo} {entry : GraphPinKey × PinInfo} {change : Application.PinChange}
    (among : entry ∈ order.visit (pinsByKey rightPins)) (listed : pinChange left entry = some change) :
    changeKey change = entry.1 ∧ change.path = entry.2.path ∧ ∃ held, left.get? entry.1 = some held ∧
      change.fromVersion = held.version ∧ change.toVersion = entry.2.version ∧
      held.version ≠ entry.2.version := by
  obtain ⟨here, same⟩ := (mem_visit rights).mp among
  unfold pinChange at listed
  cases found : left.get? entry.1 with
  | none =>
      rw [found] at listed
      cases listed
  | some held =>
      simp only [found] at listed
      split at listed
      · rename_i apart
        cases listed
        refine ⟨?_, rfl, held, rfl, rfl, rfl, apart⟩
        rw [← same, changeKey, graphPinKey, ← spelled entry.2 here]
      · cases listed

theorem mem_changes (lefts : DistinctPins leftPins) (rights : DistinctPins rightPins)
    (spelled : Spelled rightPins) (k : GraphPinKey) (a b : SemVer) :
    (k, a, b) ∈ (sortChanges ((order.visit (pinsByKey rightPins)).filterMap
        (pinChange (pinsByKey leftPins)))).map changeOf ↔
      (∃ l ∈ leftPins, graphPinKey l = k ∧ l.version = a) ∧
        (∃ r ∈ rightPins, graphPinKey r = k ∧ r.version = b) ∧ a ≠ b := by
  simp only [List.mem_map, sortChanges, List.mem_insertionSort, List.mem_filterMap]
  constructor
  · rintro ⟨change, ⟨entry, among, listed⟩, same⟩
    obtain ⟨key, -, held, found, before, after, apart⟩ := changeKey_pinChange rights spelled among listed
    obtain ⟨here, own⟩ := (mem_visit rights).mp among
    obtain ⟨there, other⟩ := (get?_pinsByKey lefts).mp found
    simp only [changeOf, Prod.mk.injEq] at same
    obtain ⟨rfl, rfl, rfl⟩ := same
    rw [key, before, after]
    exact ⟨⟨held, there, other, rfl⟩, ⟨entry.2, here, own, rfl⟩, apart⟩
  · rintro ⟨⟨l, onLeft, rfl, rfl⟩, ⟨r, onRight, same, rfl⟩, apart⟩
    have found : (pinsByKey leftPins).get? (graphPinKey r) = some l :=
      (get?_pinsByKey lefts).mpr ⟨onLeft, same.symm⟩
    have listed : pinChange (pinsByKey leftPins) (graphPinKey r, r) =
        some ⟨r.client, r.service, r.apiType, r.path, r.method, l.version, r.version⟩ := by
      simp [pinChange, found, apart]
    have among : (graphPinKey r, r) ∈ order.visit (pinsByKey rightPins) :=
      (mem_visit rights).mpr ⟨onRight, rfl⟩
    refine ⟨_, ⟨_, among, listed⟩, ?_⟩
    rw [changeOf, (changeKey_pinChange rights spelled among listed).1, same]

theorem changes_nodup (rights : DistinctPins rightPins) (spelled : Spelled rightPins)
    (left : Entries GraphPinKey PinInfo) :
    ((sortChanges ((order.visit (pinsByKey rightPins)).filterMap (pinChange left))).map changeOf).Nodup := by
  have sorted : ((sortChanges ((order.visit (pinsByKey rightPins)).filterMap (pinChange left))).map
      changeOf).Perm (((order.visit (pinsByKey rightPins)).filterMap (pinChange left)).map changeOf) :=
    (List.perm_insertionSort _ _).map changeOf
  rw [sorted.nodup_iff]
  apply List.Nodup.of_map Prod.fst
  rw [List.map_map]
  refine (visit_keys order rightPins).sublist (filterMap_keys_sublist ?_)
  intro entry among change listed
  exact (changeKey_pinChange rights spelled among listed).1

theorem mem_producerNames (distinct : DistinctPins rightPins) (name : String) :
    name ∈ producerNames (order.visit (pinsByKey rightPins)) ↔ hasProducer rightPins name := by
  rw [producerNames, sortedSet, List.mem_insertionSort, List.mem_dedup, List.mem_map]
  constructor
  · rintro ⟨entry, among, rfl⟩
    exact ⟨entry.2, ((mem_visit distinct).mp among).1, rfl⟩
  · rintro ⟨pin, among, rfl⟩
    exact ⟨(graphPinKey pin, pin), (mem_visit distinct).mpr ⟨among, rfl⟩, rfl⟩

end Sides

section Diffs

variable {left right : GraphSelection}

/-- The lists of a graph diff are the diff of the pins of its sides. -/
theorem graphDiff_keyed (order : HashOrder) (leftName rightName : String) (lefts : DistinctPins left.1)
    (rights : DistinctPins right.1) (spelled : Spelled right.1) :
    KeyedDiff graphPinKey (·.version) left.1 right.1
      (graphDiff order leftName rightName left right).pinsAdded
      (graphDiff order leftName rightName left right).pinsRemoved
      ((graphDiff order leftName rightName left right).pinsChanged.map changeOf) where
  mem_added := mem_pinsWithout lefts rights
  mem_removed := mem_pinsWithout rights lefts
  mem_changed := mem_changes lefts rights spelled
  addedOnce := pinsWithout_nodup rights
  removedOnce := pinsWithout_nodup lefts
  changedOnce := changes_nodup rights spelled _

theorem exact_graphDiff (order : HashOrder) (leftName rightName : String) (lefts : DistinctPins left.1)
    (rights : DistinctPins right.1) (spelled : Spelled right.1) :
    ExactDiff left right (graphDiff order leftName rightName left right) := by
  have keyed := graphDiff_keyed order leftName rightName lefts rights spelled
  constructor
  · exact keyed.replay_perm lefts rights
  · intro edge
    simp only [replayPeriphery, graphDiff, List.mem_append, List.mem_filter, decide_eq_true_eq]
    tauto
  · have once := keyed.keys_nodup lefts rights
    rwa [List.map_map] at once
  · intro name
    rw [graphDiff, List.mem_filter, decide_eq_true_eq, mem_producerNames rights, mem_producerNames lefts]
  · intro name
    rw [graphDiff, List.mem_filter, decide_eq_true_eq, mem_producerNames rights, mem_producerNames lefts]
  · intro change among
    rw [graphDiff, sortChanges, List.mem_insertionSort, List.mem_filterMap] at among
    obtain ⟨entry, among, listed⟩ := among
    obtain ⟨key, path, -⟩ := changeKey_pinChange rights spelled among listed
    obtain ⟨here, own⟩ := (mem_visit rights).mp among
    exact ⟨entry.2, here, own.trans key.symm, path.symm⟩

theorem mirror_graphDiff (order back : HashOrder) (leftName rightName : String)
    (lefts : DistinctPins left.1) (rights : DistinctPins right.1) (spelled : Spelled left.1)
    (spelled' : Spelled right.1) :
    MirrorDiff (graphDiff order leftName rightName left right)
      (graphDiff back rightName leftName right left) := by
  have forward := (graphDiff_keyed order leftName rightName lefts rights spelled').symm
  have backward := graphDiff_keyed back rightName leftName rights lefts spelled
  obtain ⟨added, removed, changed⟩ := backward.unique forward
  have one := exact_graphDiff order leftName rightName lefts rights spelled'
  have other := exact_graphDiff back rightName leftName rights lefts spelled
  constructor
  · exact ⟨rfl, rfl⟩
  · exact added
  · exact removed
  · exact changed
  · intro name
    rw [other.servicesAdded, one.servicesRemoved]
  · intro name
    rw [other.servicesRemoved, one.servicesAdded]
  · rfl
  · rfl

end Diffs

section Spelling

variable {store : Store} {request : RepoCall}

/-- A call that records pins under the normalized form of their paths. -/
def SpelledCall : RepoCall → Prop
  | .recordTrunkPins pins | .recordBranchPins _ pins =>
      ∀ pin ∈ pins, pin.normalizedPath = lookupPath pin.apiType pin.path
  | _ => True

def SpelledRow (row : PinRow) : Prop := row.normalizedPath = lookupPath row.apiType row.path

/-- Every pin that was ever recorded is matched by the normalized form of its path. -/
def SpelledStore (store : Store) : Prop := ∀ track, ∀ row ∈ store.pinsOf track, SpelledRow row

/-- What holds of everything that is put into a ledger holds of its records. -/
theorem applyAll_forall {Key Value Label Time : Type} [DecidableEq Key] [DecidableEq Value]
    {said : Key → Label → Prop} {ledger : List (Entry Key Value Label Time)}
    {changes : List (Time × Change Key Value Label Time)}
    (held : ∀ entry ∈ ledger, said entry.key entry.label)
    (puts : ∀ change ∈ changes, ∀ key value label, change.2 = .put key value label → said key label) :
    ∀ entry ∈ applyAll ledger changes, said entry.key entry.label := by
  induction changes generalizing ledger with
  | nil => exact held
  | cons change rest ih =>
      refine ih ?_ fun other among => puts other (List.mem_cons_of_mem _ among)
      have kept : ∀ rewrite : Entry Key Value Label Time → Entry Key Value Label Time,
          (∀ entry, (rewrite entry).key = entry.key ∧ (rewrite entry).label = entry.label) →
          ∀ entry ∈ ledger.map rewrite, said entry.key entry.label := by
        intro rewrite same
        rw [List.forall_mem_map]
        intro entry among
        rw [(same entry).1, (same entry).2]
        exact held entry among
      obtain ⟨now, change⟩ := change
      cases change with
      | close leaves =>
          apply kept
          intro entry
          unfold closeEntry
          split <;> exact ⟨rfl, rfl⟩
      | put key value label =>
          have refreshed : ∀ entry ∈ ledger.map (refresh now key value), said entry.key entry.label := by
            apply kept
            intro entry
            unfold refresh
            split
            · split <;> exact ⟨rfl, rfl⟩
            · exact ⟨rfl, rfl⟩
          simp only [Change.apply]
          split
          · exact refreshed
          · rw [List.forall_mem_append]
            refine ⟨refreshed, ?_⟩
            intro entry among
            rw [List.mem_singleton.mp among]
            exact puts _ List.mem_cons_self key value label rfl

/-- What is put into the pins of a graph is spelled. -/
def SpelledPuts (changes : List (Instant × Infrastructure.PinChange)) : Prop :=
  ∀ change ∈ changes, ∀ key value label, change.2 = .put key value label →
    key.2.2.2.1 = lookupPath key.2.2.1 label.2.2

theorem SpelledPuts.ifDone {changes : List (Instant × Infrastructure.PinChange)}
    (spelled : SpelledPuts changes) (outcome : Except RepositoryError Store) :
    SpelledPuts (Store.ifDone outcome changes) := by
  unfold Store.ifDone
  split
  · exact spelled
  · exact fun _ among => absurd among List.not_mem_nil

theorem spelled_putPins {pins : List RecordPinParams}
    (spelled : ∀ pin ∈ pins, pin.normalizedPath = lookupPath pin.apiType pin.path) :
    SpelledPuts (pins.map store.putPin) := by
  unfold SpelledPuts
  rw [List.forall_mem_map]
  intro pin among key value label same
  cases same
  exact spelled pin among

theorem spelled_putCopies (spelled : SpelledStore store) (source : MemberTrack) (asOf nowIso : Instant) :
    SpelledPuts ((lasting PinRow.span (store.pinsOf source) asOf).map (Store.putCopy nowIso)) := by
  unfold SpelledPuts
  rw [List.forall_mem_map]
  intro row among key value label same
  cases same
  exact spelled source row (List.mem_of_mem_filter among)

theorem spelledPuts_nil : SpelledPuts [] := fun _ among => absurd among List.not_mem_nil

theorem spelled_pinChanges (spelled : SpelledStore store) (call : SpelledCall request) (now : Instant)
    (track : MemberTrack) : SpelledPuts (store.pinChanges now track request) := by
  cases track with
  | trunk =>
      cases request with
      | recordTrunkPins pins => exact (spelled_putPins call).ifDone _
      | closeExpiredTrunkData cutoff nowIso => simp [Store.pinChanges, SpelledPuts]
      | closeTrunkPinsForServiceApi serviceId apiType nowIso => simp [Store.pinChanges, SpelledPuts]
      | deleteProducer name =>
          intro change among key value label same
          obtain ⟨service, -, rfl⟩ := List.mem_map.mp among
          cases same
      | deleteConsumer name =>
          intro change among key value label same
          obtain ⟨client, -, rfl⟩ := List.mem_map.mp among
          cases same
      | _ => exact spelledPuts_nil
  | branch branchId =>
      cases request with
      | recordBranchPins target pins =>
          change SpelledPuts (if target = branchId then _ else [])
          split
          · exact (spelled_putPins call).ifDone _
          · exact spelledPuts_nil
      | copyTrunkPinsToBranch target asOf nowIso =>
          change SpelledPuts (if target = branchId then _ else [])
          split
          · exact (spelled_putCopies spelled .trunk asOf nowIso).ifDone _
          · exact spelledPuts_nil
      | copyBranchPinsToBranch target source asOf nowIso =>
          change SpelledPuts (if target = branchId then _ else [])
          split
          · exact (spelled_putCopies spelled (.branch source) asOf nowIso).ifDone _
          · exact spelledPuts_nil
      | _ => exact spelledPuts_nil

/-- A call that spells its pins leaves a store whose pins are spelled. -/
theorem spelled_perform (spelled : SpelledStore store) (call : SpelledCall request) (now : Instant) :
    SpelledStore (store.perform now request).1 := by
  intro track
  by_cases kept : keepsPins track request
  · have entries : ∀ entry ∈ (store.pinsOf track).map PinRow.entry,
        entry.key.2.2.2.1 = lookupPath entry.key.2.2.1 entry.label.2.2 := by
      rw [List.forall_mem_map]
      exact spelled track
    have after := applyAll_forall entries (spelled_pinChanges spelled call now track)
    rw [← Store.perform_pins store now track kept, List.forall_mem_map] at after
    exact after
  · cases track with
    | trunk => exact absurd trivial kept
    | branch branchId =>
        cases request with
        | deleteBranch target =>
            have same : target = branchId := by
              by_contra apart
              exact kept apart
            subst same
            intro row among
            simp [Store.pinsOf, Store.branchPinsOf, Store.perform, Store.deleteBranch] at among
        | nukeDatabase =>
            intro row among
            simp [Store.pinsOf, Store.branchPinsOf, Store.perform, Store.nukeDatabase] at among
        | _ => exact absurd trivial kept

/-- So does every run of such calls. -/
theorem spelled_performAll {calls : List (Instant × RepoCall)} (spelled : SpelledStore store)
    (called : ∀ call ∈ calls, SpelledCall call.2) : SpelledStore (store.performAll calls) := by
  induction calls generalizing store with
  | nil => exact spelled
  | cons call rest ih =>
      rw [Store.performAll_cons]
      exact ih (spelled_perform spelled (called call List.mem_cons_self) call.1)
        fun other among => called other (List.mem_cons_of_mem _ among)

/-- A call of a use case that spells its pins. -/
def Spells : Call → Prop
  | .repo request => SpelledCall request
  | _ => True

theorem spells_of_reads {Value : Type} {program : UseCase Value} {fails : Calls → AppError → Prop}
    (reads : program.Only (fun request => request.readsOnly = true) fails) :
    program.Only Spells fun _ _ => True := by
  refine reads.mono ?_ fun _ _ _ => trivial
  intro request reads
  cases request with
  | repo request => cases request <;> trivial
  | _ => trivial

theorem spells_repo {request : RepoCall} (spelled : SpelledCall request) :
    (repo request).Only Spells fun _ _ => True :=
  (only_repo spelled).mono (fun _ spelled => spelled) fun _ _ _ => trivial

theorem spelled_pinRows (clientId : Nat) (entry : SpecVersionMeta) (now : Instant)
    (endpoints : List (String × String)) :
    ∀ pin ∈ pinRows clientId entry now endpoints, pin.normalizedPath = lookupPath pin.apiType pin.path := by
  unfold pinRows
  rw [List.forall_mem_map]
  intro endpoint among
  rfl

/-- What a Require records is spelled. -/
theorem spells_recordPins (deployment : Deployment) (params : RequireParams) (entry : SpecVersionMeta)
    (endpoints : List (String × String)) (stream : ResolvedStream) :
    (recordPins deployment params entry endpoints stream).Only Spells fun _ _ => True := by
  have clocks : nowIso.Only Spells fun _ _ => True := only_nowIso trivial
  unfold recordPins
  split
  · exact .done ()
  · refine (spells_of_reads (reads_planDependencyEvent deployment params entry endpoints stream)).bind
      fun outbox => ?_
    refine (spells_repo (by trivial)).bind fun clientId => ?_
    refine (spells_repo (by trivial)).bind fun _ => clocks.bind fun now => ?_
    refine (spells_repo (by trivial)).bind fun _ => ?_
    unfold recordStreamPins
    split
    · exact clocks.bind fun now => spells_repo (spelled_pinRows _ _ _ _)
    · exact clocks.bind fun now => spells_repo (spelled_pinRows _ _ _ _)
    · exact .done ()

theorem spells_requireEndpoint (deployment : Deployment) (forms : AnswerForms) (params : RequireParams)
    (path method : String) :
    (requireEndpoint deployment forms params path method).Only Spells fun _ _ => True := by
  refine (spells_of_reads (reads_resolveStream _ _)).bind fun stream => ?_
  refine (spells_of_reads (reading_resolvePin _ _ _)).bind fun found => ?_
  refine (spells_repo (by trivial)).bind fun endpoint => ?_
  cases endpoint with
  | none => exact .fail fun _ => trivial
  | some endpoint =>
      refine (only_endpointAnswer forms params _ endpoint.1).bind fun yaml => ?_
      exact (spells_recordPins deployment params _ _ stream).bind fun _ => .done _

theorem spells_requireBundle (deployment : Deployment) (forms : AnswerForms) (params : RequireParams)
    (endpoints : List (String × String)) :
    (requireBundle deployment forms params endpoints).Only Spells fun _ _ => True := by
  refine (spells_of_reads (reads_resolveStream _ _)).bind fun stream => ?_
  split
  · exact .fail fun _ => trivial
  · refine (spells_of_reads (reading_resolvePin _ _ _)).bind fun found => ?_
    refine (spells_repo (by trivial)).bind fun bulk => ?_
    dsimp only
    split
    · exact .fail fun _ => trivial
    · refine (only_bundleAnswer forms params _ _).bind fun yaml => ?_
      exact (spells_recordPins deployment params _ _ stream).bind fun _ => .done _

/-- The pins that a spelled store lists are spelled. -/
theorem spelled_listed (spelled : SpelledStore store) (track : MemberTrack) (instant : Option Instant) :
    Spelled (listPins (shown PinRow.span (store.pinsOf track) instant)) := by
  intro pin listed
  rw [listPins, List.mem_insertionSort, List.mem_map] at listed
  obtain ⟨row, among, rfl⟩ := listed
  apply spelled track row
  cases instant with
  | none => exact List.mem_of_mem_filter among
  | some instant => exact List.mem_of_mem_filter among

/-- A selection of a spelled store is spelled. -/
theorem spelled_resolved {environment : Environment} {world after : World} {format : InstantFormat}
    {raw : String} {selection : GraphSelection} (spelled : SpelledStore world.store)
    (ran : (resolveGraphSelection format raw).run (World.handle environment) world =
      some (.ok selection, after)) : Spelled selection.1 ∧ after.store = world.store := by
  obtain ⟨⟨name, instant⟩, middle, split, ran⟩ := Program.run_bind_ok ran
  have kept : middle.store = world.store := by
    cases outcome : splitSelector format raw with
    | error error =>
        rw [outcome] at split
        cases split
    | ok value =>
        rw [outcome] at split
        cases split
        rfl
  change (if name = "main" then mainSelection instant else branchSelection name instant).run _ _ = _ at ran
  by_cases main : name = "main"
  · rw [if_pos main] at ran
    cases instant with
    | none =>
        obtain ⟨pins, reached, read, ran⟩ := Program.run_bind_ok ran
        obtain ⟨⟨now, answered⟩, same⟩ := ran_reading rfl read
        obtain ⟨periphery, last, read', ended⟩ := Program.run_bind_ok ran
        obtain ⟨-, same'⟩ := ran_reading rfl read'
        cases ended
        rw [← Except.ok.inj answered, kept]
        exact ⟨spelled_listed spelled .trunk none, same'.trans (same.trans kept)⟩
    | some instant =>
        obtain ⟨pins, reached, read, ran⟩ := Program.run_bind_ok ran
        obtain ⟨⟨now, answered⟩, same⟩ := ran_reading rfl read
        obtain ⟨periphery, last, read', ended⟩ := Program.run_bind_ok ran
        obtain ⟨-, same'⟩ := ran_reading rfl read'
        cases ended
        rw [← Except.ok.inj answered, kept]
        exact ⟨spelled_listed spelled .trunk (some instant), same'.trans (same.trans kept)⟩
  · rw [if_neg main] at ran
    obtain ⟨branch, found, looked, ran⟩ := Program.run_bind_ok ran
    obtain ⟨known, seen, read, ended⟩ := Program.run_bind_ok looked
    obtain ⟨-, same⟩ := ran_reading rfl read
    cases known with
    | none => cases ended
    | some known =>
        cases ended
        obtain ⟨pins, reached, read', ran⟩ := Program.run_bind_ok ran
        obtain ⟨⟨now, answered⟩, same'⟩ := ran_reading rfl read'
        obtain ⟨periphery, last, read'', ended⟩ := Program.run_bind_ok ran
        obtain ⟨-, same''⟩ := ran_reading rfl read''
        cases ended
        rw [← Except.ok.inj answered, same, kept]
        exact ⟨spelled_listed spelled (.branch branch.id) instant,
          same''.trans (same'.trans (same.trans kept))⟩

/-- What `diffGraphs` answers is the diff of two selections, spelled where the store is. -/
theorem ran_diffGraphs {environment : Environment} {world after : World} {format : InstantFormat}
    {order : HashOrder} {left right : String} {diff : GraphDiff} (spelled : SpelledStore world.store)
    (ran : (diffGraphs format order left right).run (World.handle environment) world =
      some (.ok diff, after)) :
    ∃ leftSide rightSide, Spelled leftSide.1 ∧ Spelled rightSide.1 ∧
      diff = graphDiff order left right leftSide rightSide := by
  obtain ⟨leftSide, middle, resolved, ran⟩ := Program.run_bind_ok ran
  obtain ⟨rightSide, reached, resolved', ended⟩ := Program.run_bind_ok ran
  obtain ⟨lefts, kept⟩ := spelled_resolved spelled resolved
  have spelled' : SpelledStore middle.store := by rwa [kept]
  cases ended
  exact ⟨leftSide, rightSide, lefts, (spelled_resolved spelled' resolved').1, rfl⟩

end Spelling

/-- For every two graph selections with distinct pins: replaying the diff on the left side gives the right
side, no key is listed twice, and the diff the other way is the mirror image. -/
theorem graphDiff_exact (order back : HashOrder) (leftName rightName : String) (left right : GraphSelection)
    (lefts : DistinctPins left.1) (rights : DistinctPins right.1) (spelled : Spelled left.1)
    (spelled' : Spelled right.1) :
    ExactDiff left right (graphDiff order leftName rightName left right) ∧
      MirrorDiff (graphDiff order leftName rightName left right)
        (graphDiff back rightName leftName right left) :=
  ⟨exact_graphDiff order leftName rightName lefts rights spelled',
    mirror_graphDiff order back leftName rightName lefts rights spelled spelled'⟩

section Examples

/-- A hash map that gives its entries as they came. -/
def insertionOrder : HashOrder := ⟨id, fun _ => List.Perm.refl _⟩

def storefrontPin (version : SemVer) (path : String) : PinInfo :=
  ⟨"shop", "orders", .openApi, version, path, "/orders/{}", "GET", 7, 7⟩

instance (pins : List PinInfo) : Decidable (DistinctPins pins) := inferInstanceAs (Decidable (List.Nodup _))

instance (pins : List PinInfo) : Decidable (Spelled pins) :=
  inferInstanceAs (Decidable (∀ pin ∈ pins, _ = _))

/-- A pin whose path is respelled between the two sides. -/
theorem graphDiff_exact_respelled :
    ExactDiff ([storefrontPin ⟨1, 0, 0⟩ "/orders/{id}"], []) ([storefrontPin ⟨1, 1, 0⟩ "/orders/{key}"], [])
      (graphDiff insertionOrder "rel" "main" ([storefrontPin ⟨1, 0, 0⟩ "/orders/{id}"], [])
        ([storefrontPin ⟨1, 1, 0⟩ "/orders/{key}"], [])) :=
  (graphDiff_exact insertionOrder insertionOrder "rel" "main" ([storefrontPin ⟨1, 0, 0⟩ "/orders/{id}"], [])
    ([storefrontPin ⟨1, 1, 0⟩ "/orders/{key}"], []) (by decide +kernel) (by decide +kernel)
    (by decide +kernel) (by decide +kernel)).1

/-- Each direction shows such a pin under the path of its own right side. -/
theorem respelled_pin_is_not_mirrored :
    DistinctPins [storefrontPin ⟨1, 0, 0⟩ "/orders/{id}"] ∧ DistinctPins [storefrontPin ⟨1, 1, 0⟩ "/orders/{key}"] ∧
      ¬ (graphDiff insertionOrder "main" "rel" ([storefrontPin ⟨1, 1, 0⟩ "/orders/{key}"], [])
          ([storefrontPin ⟨1, 0, 0⟩ "/orders/{id}"], [])).pinsChanged.Perm
        ((graphDiff insertionOrder "rel" "main" ([storefrontPin ⟨1, 0, 0⟩ "/orders/{id}"], [])
          ([storefrontPin ⟨1, 1, 0⟩ "/orders/{key}"], [])).pinsChanged.map fun change =>
            { change with fromVersion := change.toVersion, toVersion := change.fromVersion }) := by
  decide +kernel

end Examples
end Sanshain.Guarantees
