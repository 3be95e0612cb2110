import Sanshain.Domain.SpecTexts
import Sanshain.Infrastructure.World

namespace Sanshain.Infrastructure

open Sanshain.Data Sanshain.Domain

/-- An endpoint with the last text that is set for it. -/
def EndpointRecord.rewritten (endpoint : EndpointRecord)
    (texts : List ((ApiType × String × String) × String)) : EndpointRecord :=
  texts.foldl (fun endpoint text =>
    if endpointKey endpoint = text.1 then { endpoint with yamlContent := text.2 } else endpoint) endpoint

/-- A version with the texts and the digest it is given. -/
def SpecVersionRow.rewritten (row : SpecVersionRow) (params : RewriteSpecText) : SpecVersionRow :=
  { entry := { row.entry with contentHash := params.contentHash }
    content := params.content
    endpoints := row.endpoints.map fun endpoint => EndpointRecord.rewritten endpoint params.endpointTexts }

namespace Store

/-- The texts of one version, in one transaction. -/
def rewriteSpecText (store : Store) (params : RewriteSpecText) : Store :=
  { store with
    specVersions := store.specVersions.map fun row =>
      if row.entry.id = params.specVersionId then row.rewritten params else row }

def setSetting (store : Store) (key value : String) : Store :=
  { store with settings := Entries.insert store.settings key value }

section Constraints

variable {store : Store}

theorem endpointKey_rewritten (endpoint : EndpointRecord)
    (texts : List ((ApiType × String × String) × String)) :
    endpointKey (EndpointRecord.rewritten endpoint texts) = endpointKey endpoint := by
  unfold EndpointRecord.rewritten
  induction texts generalizing endpoint with
  | nil => rfl
  | cons text rest ih =>
      rw [List.foldl_cons, ih]
      split <;> rfl

theorem Integrity.rewriteSpecText (sound : store.Integrity) (params : RewriteSpecText) :
    (store.rewriteSpecText params).Integrity := by
  refine sound.map_versions _ ?_ ?_ ?_
  · intro row _
    split <;> rfl
  · intro row _
    split <;> rfl
  · intro row among
    split
    · have keys : (row.rewritten params).endpoints.map endpointKey = row.endpoints.map endpointKey := by
        rw [SpecVersionRow.rewritten, List.map_map]
        exact List.map_congr_left fun endpoint _ => endpointKey_rewritten endpoint _
      rw [keys]
      exact sound.endpointKeys row among
    · exact sound.endpointKeys row among

theorem Links.rewriteSpecText (linked : store.Links) (params : RewriteSpecText) :
    (store.rewriteSpecText params).Links := linked.of_tables rfl rfl rfl rfl rfl

theorem Integrity.setSetting (sound : store.Integrity) (key value : String) :
    (store.setSetting key value).Integrity := sound.of_tables rfl rfl rfl

theorem Links.setSetting (linked : store.Links) (key value : String) :
    (store.setSetting key value).Links := linked.of_tables rfl rfl rfl rfl rfl

end Constraints

end Store

/-- A store and how many calls it has answered. -/
structure Storage where
  store : Store
  steps : Nat := 0

namespace Storage

/-- One call: a fault answers an internal error and changes nothing. -/
def handle (environment : Environment) :
    Effects.Handler Storage MigrationRequest MigrationRequest.Answer
  | storage, .now => (⟨storage.store, storage.steps + 1⟩, environment.clock storage.steps)
  | storage, .repo request =>
      match environment.fault storage.steps with
      | some reason => (⟨storage.store, storage.steps + 1⟩, .error (.internal reason))
      | none =>
          let outcome := storage.store.perform (environment.clock storage.steps) request
          (⟨outcome.1, storage.steps + 1⟩, outcome.2)
  | storage, .rewriteSpecText params =>
      match environment.fault storage.steps with
      | some reason => (⟨storage.store, storage.steps + 1⟩, .error (.internal reason))
      | none => (⟨storage.store.rewriteSpecText params, storage.steps + 1⟩, .ok ())
  | storage, .setSetting key value =>
      match environment.fault storage.steps with
      | some reason => (⟨storage.store, storage.steps + 1⟩, .error (.internal reason))
      | none => (⟨storage.store.setSetting key value, storage.steps + 1⟩, .ok ())

/-- The constraints of the tables hold after every call. -/
theorem handle_sound (environment : Environment) {storage : Storage}
    (sound : storage.store.Integrity ∧ storage.store.Links) (request : MigrationRequest) :
    (handle environment storage request).1.store.Integrity ∧
      (handle environment storage request).1.store.Links := by
  cases fault : environment.fault storage.steps with
  | some reason => cases request <;> simpa only [handle, fault] using sound
  | none =>
      cases request with
      | now => exact sound
      | repo request =>
          simp only [handle, fault]
          exact ⟨sound.1.perform _ request, sound.2.perform _ request⟩
      | rewriteSpecText params =>
          simp only [handle, fault]
          exact ⟨sound.1.rewriteSpecText params, sound.2.rewriteSpecText params⟩
      | setSetting key value =>
          simp only [handle, fault]
          exact ⟨sound.1.setSetting key value, sound.2.setSetting key value⟩

theorem run_sound {environment : Environment} {Error Value : Type}
    {program : Effects.Program MigrationRequest MigrationRequest.Answer Error Value}
    {storage after : Storage} {outcome : Except Error Value}
    (sound : storage.store.Integrity ∧ storage.store.Links)
    (ran : program.run (handle environment) storage = some (outcome, after)) :
    after.store.Integrity ∧ after.store.Links := by
  induction program generalizing storage with
  | done value =>
      cases ran
      exact sound
  | fail error =>
      cases ran
      exact sound
  | spin => cases ran
  | call request next ih => exact ih _ (handle_sound environment sound request) ran

end Storage
end Sanshain.Infrastructure
