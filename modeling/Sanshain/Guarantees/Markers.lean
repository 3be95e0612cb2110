import Sanshain.Effects.Steps
import Sanshain.Guarantees.Clients

namespace Sanshain.Guarantees

open Sanshain.Data Sanshain.Domain Sanshain.Effects Sanshain.Application Sanshain.Infrastructure

def openMembers (rows : List MemberRow) : List MemberRow := rows.filter (·.validTo = none)

/-- The version that a member record names. -/
def memberKey (row : MemberRow) : Nat × ApiType × SemVer := (row.serviceId, row.apiType, row.version)

def memberLine (row : MemberRow) : Nat × ApiType := (row.serviceId, row.apiType)

/-- Whether the store holds the version with this marker. -/
def Marked (store : Store) (row : MemberRow) : Prop :=
  ∃ version ∈ store.specVersions, version.key = memberKey row ∧
    version.entry.trunkProvidedAt = some row.lastProvidedAt

/-- A line has one open member record at most, and it agrees with the marker of a version that is
there. -/
structure MarkersAgree (store : Store) : Prop where
  single : ((openMembers store.trunkMembers).map memberLine).Nodup
  marked : ∀ row ∈ openMembers store.trunkMembers, Marked store row

/-- An expiry spares the versions that open member records name, and the services are swept when
there is no open member record. -/
def SparesMembers (database : Database) (call : Instant × RepoCall) : Prop :=
  (∀ cutoff, call.2 = .deleteExpiredSnapshots cutoff →
      ∀ row ∈ openMembers database.store.trunkMembers, ∀ version ∈ database.store.specVersions,
        version.key = memberKey row → Store.expired cutoff version = false) ∧
    (call.2 = .deleteAllServices → openMembers database.store.trunkMembers = [])

section Agreement

variable {store after : Store} {rows : List MemberRow} {change : MemberRow → MemberRow}

theorem mem_openMembers {row : MemberRow} :
    row ∈ openMembers rows ↔ row ∈ rows ∧ row.validTo = none := by
  simp [openMembers]

/-- Closing and refreshing records adds no open record to a line. -/
theorem openMembers_map
    (narrows : ∀ row, (change row).validTo = none →
      row.validTo = none ∧ memberLine (change row) = memberLine row) :
    ((openMembers (rows.map change)).map memberLine).Sublist ((openMembers rows).map memberLine) := by
  induction rows with
  | nil => exact .slnil
  | cons row rest ih =>
      simp only [openMembers, List.map_cons] at ih ⊢
      by_cases still : (change row).validTo = none
      · obtain ⟨before, line⟩ := narrows row still
        rw [List.filter_cons_of_pos (by simpa using still),
          List.filter_cons_of_pos (by simpa using before), List.map_cons, List.map_cons, line]
        exact ih.cons_cons _
      · rw [List.filter_cons_of_neg (by simpa using still)]
        by_cases before : row.validTo = none
        · rw [List.filter_cons_of_pos (by simpa using before), List.map_cons]
          exact ih.cons _
        · rw [List.filter_cons_of_neg (by simpa using before)]
          exact ih

/-- Closing records, and keeping the marked versions of those that stay open. -/
theorem MarkersAgree.narrow (agree : MarkersAgree store)
    (members : after.trunkMembers = store.trunkMembers.map change)
    (settled : ∀ row, (change row).validTo = none → change row = row)
    (versions : ∀ row ∈ openMembers store.trunkMembers, (change row).validTo = none →
      Marked store row → Marked after row) : MarkersAgree after where
  single := by
    rw [members]
    refine List.Nodup.sublist (openMembers_map ?_) agree.single
    intro row still
    have same := settled row still
    rw [same] at still ⊢
    exact ⟨still, rfl⟩
  marked := by
    intro row among
    rw [members] at among
    obtain ⟨held, still⟩ := mem_openMembers.mp among
    obtain ⟨old, there, rfl⟩ := List.mem_map.mp held
    have same := settled old still
    rw [same]
    have opened : old ∈ openMembers store.trunkMembers :=
      mem_openMembers.mpr ⟨there, by rwa [same] at still⟩
    exact versions old opened still (agree.marked old opened)

theorem MarkersAgree.keep (agree : MarkersAgree store)
    (members : after.trunkMembers = store.trunkMembers)
    (versions : ∀ row ∈ openMembers store.trunkMembers, Marked store row → Marked after row) :
    MarkersAgree after :=
  agree.narrow (members.trans (List.map_id _).symm) (fun _ _ => rfl)
    fun row among _ => versions row among

theorem closeMembersIf_settled (leaves : MemberRow → Bool) (now : Instant) (row : MemberRow)
    (still : (Store.closeMembersIf leaves now row).validTo = none) :
    Store.closeMembersIf leaves now row = row := by
  unfold Store.closeMembersIf at still ⊢
  split at still
  · cases still
  · rename_i kept
    rw [if_neg kept]

/-- What stays open was not to be closed. -/
theorem closeMembersIf_kept {leaves : MemberRow → Bool} {now : Instant} {row : MemberRow}
    (before : row.validTo = none) (still : (Store.closeMembersIf leaves now row).validTo = none) :
    leaves row = false := by
  unfold Store.closeMembersIf at still
  split at still
  · cases still
  · rename_i kept
    simpa [before] using kept

/-- Rewriting versions under their keys and with their markers keeps what is marked. -/
theorem Marked.map {row : MemberRow} (marked : Marked store row)
    {rewrite : SpecVersionRow → SpecVersionRow}
    (versions : after.specVersions = store.specVersions.map rewrite)
    (same : ∀ version ∈ store.specVersions, version.key = memberKey row →
      version.entry.trunkProvidedAt = some row.lastProvidedAt →
        (rewrite version).key = version.key ∧
          (rewrite version).entry.trunkProvidedAt = version.entry.trunkProvidedAt) :
    Marked after row := by
  obtain ⟨version, among, key, marker⟩ := marked
  obtain ⟨sameKey, sameMarker⟩ := same version among key marker
  refine ⟨rewrite version, ?_, sameKey.trans key, sameMarker.trans marker⟩
  rw [versions]
  exact List.mem_map_of_mem among

theorem Marked.filter {row : MemberRow} (marked : Marked store row)
    {keep : SpecVersionRow → Bool} (versions : after.specVersions = store.specVersions.filter keep)
    (kept : ∀ version ∈ store.specVersions, version.key = memberKey row → keep version = true) :
    Marked after row := by
  obtain ⟨version, among, key, marker⟩ := marked
  refine ⟨version, ?_, key, marker⟩
  rw [versions]
  exact List.mem_filter.mpr ⟨among, kept version among key⟩

theorem MarkersAgree.touch (agree : MarkersAgree store) (specVersionId : Nat)
    (touched : SpecVersionMeta → SpecVersionMeta)
    (same : ∀ entry : SpecVersionMeta, entry.id = specVersionId →
      (∃ version ∈ store.specVersions, version.entry = entry) →
        ((touched entry).serviceId, (touched entry).apiType, (touched entry).version) =
            (entry.serviceId, entry.apiType, entry.version) ∧
          (touched entry).trunkProvidedAt = entry.trunkProvidedAt) :
    MarkersAgree (store.touch specVersionId touched) := by
  have members : (store.touch specVersionId touched).trunkMembers = store.trunkMembers := rfl
  apply agree.keep members
  intro row _ marked
  have versions : (store.touch specVersionId touched).specVersions =
      store.specVersions.map fun version =>
        if version.entry.id = specVersionId then { version with entry := touched version.entry }
        else version := rfl
  apply marked.map versions
  intro version among _ _
  split
  · rename_i here
    exact same version.entry here ⟨version, among, rfl⟩
  · exact ⟨rfl, rfl⟩

/-- What trunk carries has the marker and the open record of its line, both from now. -/
theorem MarkersAgree.touchTrunk (agree : MarkersAgree store) (sound : store.Integrity)
    (specVersionId : Nat) (now : Instant) : MarkersAgree (store.touchTrunk specVersionId now) := by
  unfold Store.touchTrunk
  split
  · rename_i missing
    apply agree.touch
    rintro entry here ⟨version, among, rfl⟩
    have found := List.find?_eq_none.mp missing version among
    simp [here] at found
  · rename_i touched found
    obtain ⟨among, here⟩ := Store.mem_of_specVersionById? found
    let marker (entry : SpecVersionMeta) : SpecVersionMeta := { entry with trunkProvidedAt := some now }
    let change := Store.refreshMember touched.entry.serviceId touched.entry.apiType touched.entry.version now
    have marksTouched : ∀ row : MemberRow, memberKey row = touched.key → row.lastProvidedAt = now →
        Marked (store.touch specVersionId marker) row := by
      intro row key when
      refine ⟨{ touched with entry := marker touched.entry }, ?_, key.symm, ?_⟩
      · exact List.mem_map.mpr ⟨touched, among, if_pos here⟩
      · rw [when]
    have marksOther : ∀ row ∈ openMembers store.trunkMembers,
        memberLine row ≠ (touched.entry.serviceId, touched.entry.apiType) →
          Marked (store.touch specVersionId marker) row := by
      intro row opened other
      obtain ⟨version, held, key, set⟩ := agree.marked row opened
      refine ⟨version, List.mem_map.mpr ⟨version, held, if_neg fun same => other ?_⟩, key, set⟩
      have one := List.inj_on_of_nodup_map sound.versionIds held among (same.trans here.symm)
      rw [one] at key
      simp only [SpecVersionRow.key, memberKey, Prod.mk.injEq] at key
      simp [memberLine, key.1, key.2.1]
    -- an open record of the touched line stays open exactly when it names the touched version
    have narrows : ∀ row, (change row).validTo = none →
        row.validTo = none ∧ memberLine (change row) = memberLine row ∧
          (memberLine row = (touched.entry.serviceId, touched.entry.apiType) →
            memberKey (change row) = touched.key ∧ (change row).lastProvidedAt = now ∧
              row.version = touched.entry.version) ∧
          (memberLine row ≠ (touched.entry.serviceId, touched.entry.apiType) → change row = row) := by
      intro row still
      unfold change Store.refreshMember at still ⊢
      grind [memberLine, memberKey, SpecVersionRow.key]
    have refreshed : ∀ row ∈ openMembers (store.trunkMembers.map change),
        Marked (store.touch specVersionId marker) row := by
      intro row opened
      obtain ⟨held, still⟩ := mem_openMembers.mp opened
      obtain ⟨old, there, rfl⟩ := List.mem_map.mp held
      obtain ⟨before, -, inside, outside⟩ := narrows old still
      by_cases line : memberLine old = (touched.entry.serviceId, touched.entry.apiType)
      · exact marksTouched _ (inside line).1 (inside line).2.1
      · rw [outside line]
        exact marksOther old (mem_openMembers.mpr ⟨there, before⟩) line
    have single : ((openMembers (store.trunkMembers.map change)).map memberLine).Nodup :=
      List.Nodup.sublist (openMembers_map fun row still =>
        ⟨(narrows row still).1, (narrows row still).2.1⟩) agree.single
    by_cases known : store.trunkMembers.any (Store.isOpenMember touched.entry.serviceId
        touched.entry.apiType touched.entry.version) = true
    · simp only [known, if_true]
      exact ⟨single, refreshed⟩
    · simp only [known, Bool.false_eq_true, if_false]
      split
      · exact ⟨single, refreshed⟩
      · rename_i name _
        have opened : openMembers (store.trunkMembers.map change ++
              [⟨touched.entry.serviceId, name, touched.entry.apiType, touched.entry.version, now,
                now, none⟩]) =
            openMembers (store.trunkMembers.map change) ++
              [⟨touched.entry.serviceId, name, touched.entry.apiType, touched.entry.version, now,
                now, none⟩] := by
          simp [openMembers]
        constructor
        · change ((openMembers (store.trunkMembers.map change ++ _)).map memberLine).Nodup
          rw [opened, List.map_append, List.nodup_append]
          refine ⟨single, List.nodup_singleton _, ?_⟩
          rintro line among' other last same
          obtain ⟨row, held, rfl⟩ := List.mem_map.mp among'
          obtain ⟨held, still⟩ := mem_openMembers.mp held
          obtain ⟨old, there, rfl⟩ := List.mem_map.mp held
          obtain ⟨before, line, inside, -⟩ := narrows old still
          rw [List.map_singleton, List.mem_singleton] at last
          rw [line, last] at same
          apply known
          have number := (inside same).2.2
          simp only [memberLine, Prod.mk.injEq] at same
          exact List.any_eq_true.mpr ⟨old, there, by
            simp [Store.isOpenMember, before, number, same.1, same.2]⟩
        · intro row among'
          change row ∈ openMembers (store.trunkMembers.map change ++ _) at among'
          rw [opened, List.mem_append, List.mem_singleton] at among'
          rcases among' with held | rfl
          · exact refreshed row held
          · exact marksTouched _ rfl rfl

theorem MarkersAgree.upsert (agree : MarkersAgree store) {params : UpsertSpecVersion} {id : Nat}
    (written : store.upsertSpecVersion params = .ok (after, id)) : MarkersAgree after := by
  obtain ⟨middle, -, wrote, -, -, emitted, -⟩ := Store.upsertSpecVersion_cases written
  have rows : after.specVersions = middle.specVersions :=
    Store.specVersions_of_frame (Store.table_writeOutbox emitted (by decide) (by decide))
  have members : after.trunkMembers = store.trunkMembers :=
    (Store.table_writeOutbox emitted (by decide) (by decide)).trans
      (@Store.table_writeVersionRow .trunkMembers _ _ _ wrote (by decide))
  apply agree.keep members
  intro row _ marked
  rcases Store.writeVersionRow_cases wrote with ⟨-, -, appended⟩ | ⟨-, rewritten⟩
  · obtain ⟨version, among, key, marker⟩ := marked
    refine ⟨version, ?_, key, marker⟩
    rw [rows, appended]
    exact List.mem_append_left _ among
  · apply marked.map (rows.trans rewritten)
    intro version _ _ _
    split <;> exact ⟨rfl, rfl⟩

theorem MarkersAgree.deleteSpecVersion (agree : MarkersAgree store) (sound : store.Integrity)
    (now : Instant) (specVersionId : Nat) :
    MarkersAgree (store.deleteSpecVersion now specVersionId).1 := by
  unfold Store.deleteSpecVersion
  split
  · exact ⟨agree.single, agree.marked⟩
  · rename_i gone found
    obtain ⟨among, here⟩ := Store.mem_of_specVersionById? found
    refine agree.narrow rfl (closeMembersIf_settled _ now) ?_
    intro row opened still marked
    have before := (mem_openMembers.mp opened).2
    have stays := closeMembersIf_kept before still
    refine marked.filter rfl ?_
    intro version held key
    rw [decide_eq_true_iff]
    intro same
    have one := List.inj_on_of_nodup_map sound.versionIds held among (same.trans here.symm)
    rw [one] at key
    simp only [SpecVersionRow.key, memberKey, Prod.mk.injEq] at key
    simp [key.1, key.2.1, key.2.2] at stays

theorem MarkersAgree.deleteProducer (agree : MarkersAgree store) (now : Instant) (name : String) :
    MarkersAgree (store.deleteProducer now name).1 := by
  unfold Store.deleteProducer
  split
  · exact agree
  · rename_i service found
    refine agree.narrow rfl (closeMembersIf_settled _ now) ?_
    intro row opened still marked
    have before := (mem_openMembers.mp opened).2
    have stays := closeMembersIf_kept before still
    refine marked.filter rfl ?_
    intro version held key
    simp only [SpecVersionRow.key, memberKey, Prod.mk.injEq] at key
    simpa [key.1] using stays

/-- An expired marker is cleared only where its member record closes. -/
theorem MarkersAgree.closeExpiredTrunkData (agree : MarkersAgree store) (cutoff now : Instant) :
    MarkersAgree (store.closeExpiredTrunkData cutoff now).1 := by
  refine agree.narrow rfl (closeMembersIf_settled _ now) ?_
  intro row opened still marked
  have before := (mem_openMembers.mp opened).2
  have stays := of_decide_eq_false (closeMembersIf_kept before still)
  refine marked.map rfl ?_
  intro version _ _ marker
  have current : Store.clearMarker cutoff version = version := by
    simp [Store.clearMarker, marker, stays]
  rw [current]
  exact ⟨rfl, rfl⟩

theorem MarkersAgree.deleteExpiredSnapshots (agree : MarkersAgree store) (cutoff : Instant)
    (spares : ∀ row ∈ openMembers store.trunkMembers, ∀ version ∈ store.specVersions,
      version.key = memberKey row → Store.expired cutoff version = false) :
    MarkersAgree (store.deleteExpiredSnapshots cutoff).1 := by
  refine agree.keep rfl ?_
  intro row opened marked
  refine marked.filter rfl ?_
  intro version held key
  simp [spares row opened version held key]

/-- A call that writes neither table keeps the two in agreement. -/
theorem MarkersAgree.frame (agree : MarkersAgree store) (now : Instant) {request : RepoCall}
    (versions : .specVersions ∉ writes request) (members : .trunkMembers ∉ writes request) :
    MarkersAgree (store.perform now request).1 := by
  have rows : (store.perform now request).1.specVersions = store.specVersions :=
    (Prod.mk.inj (Store.perform_frame store now versions)).1
  refine agree.keep (Store.perform_frame store now members) ?_
  rintro row - ⟨version, held, key, marker⟩
  exact ⟨version, rows ▸ held, key, marker⟩

/-- Every call that spares the open member records keeps the two tables in agreement. -/
theorem MarkersAgree.perform {database : Database} (agree : MarkersAgree database.store)
    {call : Instant × RepoCall} (spares : SparesMembers database call) :
    MarkersAgree (database.after call).store := by
  obtain ⟨now, request⟩ := call
  have sound := database.sound
  cases request with
  | upsertSpecVersion params =>
      change MarkersAgree (database.store.tried (database.store.upsertSpecVersion params)).1
      obtain ⟨error, -, same⟩ | ⟨after, id, written, same⟩ :=
        Store.tried_cases database.store (database.store.upsertSpecVersion params)
      · rw [same]
        exact agree
      · rw [same]
        exact agree.upsert written
  | touchSpecVersionProvided specVersionId nowIso =>
      exact agree.touch specVersionId (fun entry => { entry with updatedAt := nowIso })
        fun _ _ _ => ⟨rfl, rfl⟩
  | touchSpecVersionRequired specVersionId nowIso =>
      exact agree.touch specVersionId (fun entry => { entry with lastRequiredAt := some nowIso })
        fun _ _ _ => ⟨rfl, rfl⟩
  | touchSpecVersionTrunk specVersionId nowIso => exact agree.touchTrunk sound specVersionId nowIso
  | deleteSpecVersion specVersionId => exact agree.deleteSpecVersion sound now specVersionId
  | deleteExpiredSnapshots cutoff => exact agree.deleteExpiredSnapshots cutoff (spares.1 cutoff rfl)
  | closeExpiredTrunkData cutoff nowIso => exact agree.closeExpiredTrunkData cutoff nowIso
  | closeTrunkPinsForServiceApi serviceId apiType nowIso =>
      exact agree.narrow rfl (closeMembersIf_settled _ nowIso) fun _ _ _ marked => marked
  | deleteProducer name => exact agree.deleteProducer now name
  | deleteAllServices =>
      have none : openMembers database.store.trunkMembers = [] := spares.2 rfl
      refine ⟨agree.single, fun row among => ?_⟩
      change row ∈ openMembers database.store.trunkMembers at among
      rw [none] at among
      cases among
  | nukeDatabase => exact ⟨List.nodup_nil, fun row among => by cases among⟩
  | _ => exact agree.frame now (by simp [writes]) (by simp [writes])

/-- Along every sequence of calls the markers and the member records of trunk agree exactly when
every expiry spares the versions of open member records and no sweep of the services leaves one. -/
theorem markersAgree_iff (calls : List (Instant × RepoCall)) :
    Throughout Database.after (fun database => MarkersAgree database.store) .empty calls ↔
      EveryStep Database.after SparesMembers .empty calls := by
  apply throughout_iff_everyStep fun database => MarkersAgree database.store
  · intro database agree
    exact agree
  · intro database call agree spares
    exact agree.perform spares
  · rintro database ⟨now, request⟩ - agree
    constructor
    · rintro cutoff rfl row opened version held key
      obtain ⟨kept, among, same, -⟩ := agree.marked row opened
      have stayed := List.mem_filter.mp among
      have one := database.sound.row_unique stayed.1 held (same.trans key.symm)
      rw [one] at stayed
      simpa using stayed.2
    · rintro rfl
      rw [List.eq_nil_iff_forall_not_mem]
      intro row opened
      obtain ⟨version, among, -⟩ := agree.marked row opened
      cases among
  · exact ⟨List.nodup_nil, fun row among => by cases among⟩

end Agreement

section Examples

/-- A trunk build releases a version, and then all services are deleted. -/
def providedThenSwept : UseCase Nat :=
  ((Action.provide trunkRelease none).program (quietService markerLibrary) noForms).bind fun _ =>
    Application.deleteAllServices

def keepsMember (world : World) : Bool :=
  !(openMembers world.store.trunkMembers).isEmpty && world.store.specVersions.isEmpty

/-- Trunk's member record names a version that is no longer there. -/
theorem markers_disagree :
    ∃ count world, providedThenSwept.run (World.handle steadyEnvironment) emptyWorld =
        some (.ok count, world) ∧ ¬ MarkersAgree world.store := by
  have ended : answeredWith keepsMember
      (providedThenSwept.run (World.handle steadyEnvironment) emptyWorld) = true := by
    decide +kernel
  obtain ⟨count, world, ran, kept⟩ := answeredWith_spec ended
  refine ⟨count, world, ran, fun agree => ?_⟩
  simp only [keepsMember, Bool.and_eq_true, Bool.not_eq_true', List.isEmpty_eq_false_iff,
    List.isEmpty_iff] at kept
  obtain ⟨row, among⟩ := List.exists_mem_of_ne_nil _ kept.1
  obtain ⟨version, there, -⟩ := agree.marked row among
  rw [kept.2] at there
  cases there

end Examples
end Sanshain.Guarantees
