import Sanshain.Infrastructure.World

namespace Sanshain.Infrastructure

open Sanshain.Data Sanshain.Domain

/-- What an entry is, apart from when it was touched. -/
structure Standing where
  id : Nat
  key : Nat × ApiType × SemVer
  stability : Stability
  content : String
  contentHash : String
  providedBy : String
  endpoints : List EndpointRecord
  deriving DecidableEq, Repr

def SpecVersionRow.standing (row : SpecVersionRow) : Standing :=
  ⟨row.entry.id, row.key, row.entry.stability, row.content, row.entry.contentHash,
    row.entry.providedBy, row.endpoints⟩

/-- What a write makes of an entry under an identity. -/
def writtenStanding (params : UpsertSpecVersion) (id : Nat) : Standing :=
  ⟨id, UpsertSpecVersion.key params, params.stability, params.content, params.contentHash,
    params.providedBy, params.endpoints⟩

namespace Store

variable {store after : Store} {row : SpecVersionRow}

theorem specVersions_of_frame (same : after.table .specVersions = store.table .specVersions) :
    after.specVersions = store.specVersions :=
  (Prod.mk.inj same).1

theorem overwrite_standing (params : UpsertSpecVersion) (row : SpecVersionRow)
    (reached : updatable params row = true) :
    (overwrite params row).standing = writtenStanding params row.entry.id := by
  have same : row.key = UpsertSpecVersion.key params := by
    simp only [updatable, Bool.and_eq_true, decide_eq_true_eq] at reached
    exact reached.1.1
  simp only [SpecVersionRow.standing, writtenStanding, overwrite, ← same]
  rfl

/-- Changing what is no part of an entry's standing keeps every standing. -/
theorem standing_map (change : SpecVersionRow → SpecVersionRow)
    (kept : ∀ row, (change row).standing = row.standing) (rows : List SpecVersionRow) :
    (rows.map change).map SpecVersionRow.standing = rows.map SpecVersionRow.standing := by
  rw [List.map_map]
  exact List.map_congr_left fun row _ => kept row

theorem standing_touch (store : Store) (specVersionId : Nat)
    (change : SpecVersionMeta → SpecVersionMeta)
    (kept : ∀ entry, (⟨(change entry).id, (change entry).serviceId, (change entry).apiType,
      (change entry).version, (change entry).stability, (change entry).contentHash,
      (change entry).providedBy⟩ : Nat × Nat × ApiType × SemVer × Stability × String × String) =
        ⟨entry.id, entry.serviceId, entry.apiType, entry.version, entry.stability, entry.contentHash,
          entry.providedBy⟩) :
    (store.touch specVersionId change).specVersions.map SpecVersionRow.standing =
      store.specVersions.map SpecVersionRow.standing := by
  refine standing_map _ (fun row => ?_) store.specVersions
  split
  · have same := kept row.entry
    simp only [Prod.mk.injEq] at same
    obtain ⟨id, serviceId, apiType, version, stability, contentHash, providedBy⟩ := same
    simp [SpecVersionRow.standing, SpecVersionRow.key, id, serviceId, apiType, version, stability,
      contentHash, providedBy]
  · rfl

/-- How the lines stand after a write of one entry: a new entry at the end, or the snapshot that
the guard lets through, rewritten. -/
theorem writeVersionRow_cases {params : UpsertSpecVersion}
    (written : store.writeVersionRow params = .ok after) :
    (store.specVersion? (UpsertSpecVersion.key params) = none ∧ params.expectedPriorHash = none ∧
        after.specVersions = store.specVersions ++ [store.newRow params]) ∨
      ((∃ row ∈ store.specVersions, updatable params row = true) ∧
        after.specVersions = store.specVersions.map fun row =>
          if updatable params row then overwrite params row else row) := by
  unfold writeVersionRow at written
  split at written
  · rename_i fresh
    split at written
    · cases written
    · cases written
      exact .inl ⟨Option.isNone_iff_eq_none.mp fresh.2, fresh.1, rfl⟩
  · split at written
    · rename_i reached
      cases written
      exact .inr ⟨by simpa using reached, rfl⟩
    · cases written

/-- The entry a write is about is there once its statement went through. -/
theorem writeVersionRow_found {params : UpsertSpecVersion}
    (written : store.writeVersionRow params = .ok after) :
    ∃ row, after.specVersion? (UpsertSpecVersion.key params) = some row := by
  have among : ∃ row ∈ after.specVersions, row.key = UpsertSpecVersion.key params := by
    rcases writeVersionRow_cases written with ⟨-, -, appended⟩ | ⟨⟨row, held, reached⟩, rewritten⟩
    · rw [appended]
      exact ⟨_, List.mem_append_right _ List.mem_cons_self, rfl⟩
    · rw [rewritten]
      refine ⟨overwrite params row, List.mem_map.mpr ⟨row, held, by simp [reached]⟩, ?_⟩
      simp only [updatable, Bool.and_eq_true, decide_eq_true_eq] at reached
      exact reached.1.1
  obtain ⟨row, held, same⟩ := among
  exact Option.isSome_iff_exists.mp (List.find?_isSome.mpr ⟨row, held, by simpa using same⟩)

/-- Clearing a marker leaves every entry standing as it stood. -/
theorem standing_clearMarker (store : Store) (cutoff : Instant) :
    (store.specVersions.map (clearMarker cutoff)).map SpecVersionRow.standing =
      store.specVersions.map SpecVersionRow.standing := by
  apply standing_map _ _ store.specVersions
  intro row
  unfold clearMarker
  split <;> rfl

/-- A released entry stands as it is through every call that does not administer. -/
theorem released_stands (store : Store) (now : Instant) {request : RepoCall}
    (plain : request.administers = false) (among : row ∈ store.specVersions)
    (released : row.entry.stability = .ga) :
    ∃ later ∈ (store.perform now request).1.specVersions, later.standing = row.standing := by
  have framed : ∀ after : Store, after.specVersions.map SpecVersionRow.standing =
      store.specVersions.map SpecVersionRow.standing →
        ∃ later ∈ after.specVersions, later.standing = row.standing := by
    intro after same
    have held : row.standing ∈ after.specVersions.map SpecVersionRow.standing :=
      same ▸ List.mem_map_of_mem among
    obtain ⟨later, found, equal⟩ := List.mem_map.mp held
    exact ⟨later, found, equal⟩
  cases request with
  | deleteProducer name => cases plain
  | deleteSpecVersion specVersionId => cases plain
  | deleteAllServices => cases plain
  | nukeDatabase => cases plain
  | closeExpiredTrunkData cutoff now' => exact framed _ (standing_clearMarker store cutoff)
  | upsertSpecVersion params =>
      change ∃ later ∈ (store.tried (store.upsertSpecVersion params)).1.specVersions, _
      obtain ⟨error, -, same⟩ | ⟨after, id, done, same⟩ :=
        tried_cases store (store.upsertSpecVersion params)
      · rw [same]
        exact ⟨row, among, rfl⟩
      · rw [same]
        obtain ⟨middle, -, wrote, -, -, emitted, -⟩ := upsertSpecVersion_cases done
        have rows : after.specVersions = middle.specVersions :=
          specVersions_of_frame (table_writeOutbox emitted (by decide) (by decide))
        rw [show (after, Except.ok id).1.specVersions = middle.specVersions from rows]
        rcases writeVersionRow_cases wrote with ⟨-, -, appended⟩ | ⟨-, rewritten⟩
        · exact ⟨row, by rw [appended]; exact List.mem_append_left _ among, rfl⟩
        · have unreached : updatable params row = false := by
            simp [updatable, released]
          refine ⟨row, ?_, rfl⟩
          rw [rewritten]
          exact List.mem_map.mpr ⟨row, among, by simp [unreached]⟩
  | touchSpecVersionProvided specVersionId now' =>
      exact framed _ (standing_touch store specVersionId _ fun _ => rfl)
  | touchSpecVersionRequired specVersionId now' =>
      exact framed _ (standing_touch store specVersionId _ fun _ => rfl)
  | touchSpecVersionTrunk specVersionId now' =>
      refine framed (store.touchTrunk specVersionId now') ?_
      have marked := standing_touch store specVersionId
        (fun entry => { entry with trunkProvidedAt := some now' }) fun _ => rfl
      unfold touchTrunk
      split <;> exact marked
  | deleteExpiredSnapshots cutoff =>
      refine ⟨row, List.mem_filter.mpr ⟨among, ?_⟩, rfl⟩
      simp [expired, released]
  | _ =>
      refine ⟨row, ?_, rfl⟩
      rw [specVersions_of_frame (perform_frame store now (by simp [writes]))]
      exact among

/-- Where an entry stands after a call, it stood before, or the call wrote it. -/
theorem standing_before (store : Store) (now : Instant) {request : RepoCall}
    (among : row ∈ (store.perform now request).1.specVersions) :
    (∃ earlier ∈ store.specVersions, earlier.standing = row.standing) ∨
      ∃ params id, request = .upsertSpecVersion params ∧
        store.upsertSpecVersion params = .ok ((store.perform now request).1, id) ∧
        row.standing = writtenStanding params row.entry.id := by
  have framed : ∀ after : Store, row ∈ after.specVersions →
      after.specVersions.map SpecVersionRow.standing =
        store.specVersions.map SpecVersionRow.standing →
      ∃ earlier ∈ store.specVersions, earlier.standing = row.standing := by
    intro after among same
    have held : row.standing ∈ store.specVersions.map SpecVersionRow.standing :=
      same ▸ List.mem_map_of_mem among
    obtain ⟨earlier, found, equal⟩ := List.mem_map.mp held
    exact ⟨earlier, found, equal⟩
  cases request with
  | deleteProducer name =>
      left
      change row ∈ (store.deleteProducer now name).1.specVersions at among
      unfold deleteProducer at among
      split at among
      · exact ⟨row, among, rfl⟩
      · exact ⟨row, (List.mem_filter.mp among).1, rfl⟩
  | deleteSpecVersion specVersionId =>
      left
      change row ∈ (store.deleteSpecVersion now specVersionId).1.specVersions at among
      unfold deleteSpecVersion at among
      split at among
      · exact ⟨row, among, rfl⟩
      · exact ⟨row, (List.mem_filter.mp among).1, rfl⟩
  | deleteAllServices => cases among
  | nukeDatabase => cases among
  | closeExpiredTrunkData cutoff now' =>
      exact .inl (framed _ among (standing_clearMarker store cutoff))
  | upsertSpecVersion params =>
      change row ∈ (store.tried (store.upsertSpecVersion params)).1.specVersions at among
      obtain ⟨error, -, same⟩ | ⟨after, id, done, same⟩ :=
        tried_cases store (store.upsertSpecVersion params)
      · rw [same] at among
        exact .inl ⟨row, among, rfl⟩
      · obtain ⟨middle, -, wrote, -, -, emitted, -⟩ := upsertSpecVersion_cases done
        have rows : after.specVersions = middle.specVersions :=
          specVersions_of_frame (table_writeOutbox emitted (by decide) (by decide))
        rw [same] at among
        change row ∈ after.specVersions at among
        rw [rows] at among
        have performed : (store.perform now (.upsertSpecVersion params)).1 = after :=
          congrArg Prod.fst same
        rw [performed]
        rcases writeVersionRow_cases wrote with ⟨-, -, appended⟩ | ⟨-, rewritten⟩
        · rw [appended] at among
          rcases List.mem_append.mp among with old | new
          · exact .inl ⟨row, old, rfl⟩
          · cases List.mem_singleton.mp new
            exact .inr ⟨params, id, rfl, done, rfl⟩
        · rw [rewritten] at among
          obtain ⟨earlier, held, became⟩ := List.mem_map.mp among
          split at became
          · rename_i reached
            refine .inr ⟨params, id, rfl, done, ?_⟩
            rw [← became]
            exact overwrite_standing params earlier reached
          · exact .inl ⟨earlier, held, became ▸ rfl⟩
  | touchSpecVersionProvided specVersionId now' =>
      exact .inl (framed _ among (standing_touch store specVersionId _ fun _ => rfl))
  | touchSpecVersionRequired specVersionId now' =>
      exact .inl (framed _ among (standing_touch store specVersionId _ fun _ => rfl))
  | touchSpecVersionTrunk specVersionId now' =>
      refine .inl (framed (store.touchTrunk specVersionId now') among ?_)
      have marked := standing_touch store specVersionId
        (fun entry => { entry with trunkProvidedAt := some now' }) fun _ => rfl
      unfold touchTrunk
      split <;> exact marked
  | deleteExpiredSnapshots cutoff => exact .inl ⟨row, (List.mem_filter.mp among).1, rfl⟩
  | _ =>
      rw [specVersions_of_frame (perform_frame store now (by simp [writes]))] at among
      exact .inl ⟨row, among, rfl⟩

/-- A writer has lost the race for its line: the number is released by now, or the entry is no
longer the one that a compare-and-set expects. -/
def LostTo (store : Store) (params : UpsertSpecVersion) : Prop :=
  (∃ row, store.specVersion? (UpsertSpecVersion.key params) = some row ∧ row.entry.stability = .ga) ∨
    ∃ expected, params.expectedPriorHash = some expected ∧
      ∀ row, store.specVersion? (UpsertSpecVersion.key params) = some row →
        row.entry.contentHash ≠ expected

/-- A write that lost is refused. -/
theorem upsert_lost (sound : store.Integrity) {params : UpsertSpecVersion}
    (lost : store.LostTo params) : store.upsertSpecVersion params = .error .conflict := by
  have guarded : store.specVersions.any (updatable params) = false := by
    rw [List.any_eq_false]
    intro other among reached
    simp only [updatable, Bool.and_eq_true, decide_eq_true_eq] at reached
    have found := sound.specVersion?_of_mem among
    rw [reached.1.1] at found
    rcases lost with ⟨row, stored, released⟩ | ⟨expected, declared, moved⟩
    · cases found.symm.trans stored
      exact reached.1.2 released
    · refine moved other found ?_
      simpa [declared] using reached.2
  have known : ¬ (params.expectedPriorHash = none ∧
      (store.specVersion? (UpsertSpecVersion.key params)).isNone = true) := by
    rintro ⟨plain, absent⟩
    rcases lost with ⟨row, stored, -⟩ | ⟨expected, declared, -⟩
    · simp [stored] at absent
    · cases declared.symm.trans plain
  have refused : store.writeVersionRow params = .error .conflict := by
    rw [writeVersionRow, if_neg known, if_neg (by simp [guarded])]
  rw [upsertSpecVersion, refused]

end Store
end Sanshain.Infrastructure
