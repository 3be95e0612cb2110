import Sanshain.Application.SpecTextMigration
import Sanshain.Document.SpecForm
import Sanshain.Effects.Ensures
import Sanshain.Guarantees.CutOutcome
import Sanshain.Guarantees.Immutability
import Sanshain.Guarantees.Origins
import Sanshain.Infrastructure.SpecTexts

namespace Sanshain.Guarantees

open Sanshain.Data Sanshain.Domain Sanshain.Document Sanshain.Effects Sanshain.Application
open Sanshain.Infrastructure Sanshain.Text

section Texts

variable (external : External)

def normalSnippet (endpoint : EndpointRecord) : EndpointRecord :=
  { endpoint with yamlContent := normalizeSpecText endpoint.yamlContent }

/-- A version with normal texts and the digest of its document. -/
def normalRow (row : SpecVersionRow) : SpecVersionRow :=
  { entry := { row.entry with contentHash := contentHash external (normalizeSpecText row.content) }
    content := normalizeSpecText row.content
    endpoints := row.endpoints.map normalSnippet }

/-- The versions of a store, those under the identities that were reached with normal texts. -/
def reachedRows (start : Store) (reached : List Nat) : List SpecVersionRow :=
  start.specVersions.map fun row => if row.entry.id ∈ reached then normalRow external row else row

variable {external} {endpoint : EndpointRecord} {endpoints : List EndpointRecord}

theorem endpoint_rewritten {texts : List ((ApiType × String × String) × String)} {text : String}
    (only : ∀ entry ∈ texts, entry.1 = endpointKey endpoint → entry.2 = text) :
    EndpointRecord.rewritten endpoint texts =
      if endpointKey endpoint ∈ texts.map Prod.fst then { endpoint with yamlContent := text }
      else endpoint := by
  unfold EndpointRecord.rewritten
  induction texts generalizing endpoint with
  | nil => rfl
  | cons entry rest ih =>
      have later := fun other among => only other (List.mem_cons_of_mem _ among)
      rw [List.foldl_cons, List.map_cons]
      by_cases own : endpointKey endpoint = entry.1
      · rw [if_pos own, only entry List.mem_cons_self own.symm, if_pos (own ▸ List.mem_cons_self)]
        exact (@ih { endpoint with yamlContent := text } later).trans (ite_self _)
      · rw [if_neg own, ih later]
        exact if_congr (by simp [own]) rfl rfl

theorem mem_rewrittenEndpoints {entry : (ApiType × String × String) × String} :
    entry ∈ rewrittenEndpoints endpoints ↔ ∃ endpoint ∈ endpoints,
      normalizeSpecText endpoint.yamlContent ≠ endpoint.yamlContent ∧
        entry = (endpointKey endpoint, normalizeSpecText endpoint.yamlContent) := by
  simp only [rewrittenEndpoints, List.mem_filterMap, Option.ite_none_right_eq_some,
    Option.some.injEq, endpointKey]
  simp only [eq_comm (b := entry)]

/-- Rewriting the snippets that change leaves every snippet in its normal form. -/
theorem normalSnippet_rewritten (distinct : (endpoints.map endpointKey).Nodup)
    (among : endpoint ∈ endpoints) :
    EndpointRecord.rewritten endpoint (rewrittenEndpoints endpoints) = normalSnippet endpoint := by
  rw [@endpoint_rewritten endpoint _ (normalizeSpecText endpoint.yamlContent)]
  · split
    · rfl
    · rename_i kept
      have same : normalizeSpecText endpoint.yamlContent = endpoint.yamlContent := by
        by_contra changed
        exact kept (List.mem_map_of_mem (mem_rewrittenEndpoints.mpr ⟨endpoint, among, changed, rfl⟩))
      rw [normalSnippet, same]
  · intro entry held key
    obtain ⟨other, there, -, rfl⟩ := mem_rewrittenEndpoints.mp held
    rw [List.inj_on_of_nodup_map distinct there among key]

theorem normalRow_rewritten {row : SpecVersionRow} (distinct : (row.endpoints.map endpointKey).Nodup) :
    row.rewritten ⟨row.entry.id, normalizeSpecText row.content,
      contentHash external (normalizeSpecText row.content), rewrittenEndpoints row.endpoints⟩ =
        normalRow external row := by
  have endpoints := List.map_congr_left fun endpoint among =>
    @normalSnippet_rewritten endpoint row.endpoints distinct among
  rw [SpecVersionRow.rewritten, normalRow, endpoints]

/-- A version whose texts are normal already is left alone. -/
theorem normalRow_eq_self {row : SpecVersionRow} (distinct : (row.endpoints.map endpointKey).Nodup)
    (content : normalizeSpecText row.content = row.content)
    (hash : contentHash external (normalizeSpecText row.content) = row.entry.contentHash)
    (texts : rewrittenEndpoints row.endpoints = []) : normalRow external row = row := by
  rw [← normalRow_rewritten distinct, SpecVersionRow.rewritten, content, texts]
  rw [content] at hash
  simp [hash, EndpointRecord.rewritten]

end Texts

section Stages

/-- What a migration needs of the tables: its versions have identities of their own, Producers and
distinct endpoints. -/
structure Identified (store : Store) : Prop where
  versionIds : (store.specVersions.map (·.entry.id)).Nodup
  versionService : ∀ row ∈ store.specVersions, (store.serviceName? row.entry.serviceId).isSome
  endpointKeys : ∀ row ∈ store.specVersions, (row.endpoints.map endpointKey).Nodup

variable {external : External} {environment : Environment} {start : Store} {reached : List Nat}
  {storage : Storage} {row : SpecVersionRow}

/-- The store of a migration on its way: some of the versions have normal texts, and no setting
was changed. -/
structure Stage (external : External) (start : Store) (reached : List Nat) (store : Store) : Prop where
  rows : store.specVersions = reachedRows external start reached
  services : store.services = start.services
  settings : store.settings = start.settings

theorem reachedRows_id (external : External) (reached : List Nat) (row : SpecVersionRow) :
    (if row.entry.id ∈ reached then normalRow external row else row).entry.id = row.entry.id := by
  split <;> rfl

/-- A version that was not reached stands as it was. -/
theorem find_reachedRows (sound : Identified start) (among : row ∈ start.specVersions)
    (unreached : row.entry.id ∉ reached) :
    (reachedRows external start reached).find? (·.entry.id = row.entry.id) = some row := by
  have own : start.specVersions.find? (·.entry.id = row.entry.id) = some row := by
    cases found : start.specVersions.find? (·.entry.id = row.entry.id) with
    | none => simpa using List.find?_eq_none.mp found row among
    | some other =>
        have same : other.entry.id = row.entry.id := by simpa using List.find?_some found
        exact congrArg some
          (List.inj_on_of_nodup_map sound.versionIds (List.mem_of_find?_eq_some found) among same)
  rw [reachedRows, List.find?_map]
  simp only [Function.comp_def, reachedRows_id, own, Option.map_some, if_neg unreached]

theorem reachedRows_cons (same : normalRow external row = row) (sound : Identified start)
    (among : row ∈ start.specVersions) :
    reachedRows external start (row.entry.id :: reached) = reachedRows external start reached := by
  refine List.map_congr_left fun other there => ?_
  by_cases own : other.entry.id = row.entry.id
  · rw [List.inj_on_of_nodup_map sound.versionIds there among own, same, ite_self, ite_self]
  · simp [own]

/-- Rewriting a version is what reaching it means. -/
theorem rewriteSpecText_reachedRows (sound : Identified start) (among : row ∈ start.specVersions)
    (unreached : row.entry.id ∉ reached) {store : Store}
    (rows : store.specVersions = reachedRows external start reached) :
    (store.rewriteSpecText ⟨row.entry.id, normalizeSpecText row.content,
      contentHash external (normalizeSpecText row.content), rewrittenEndpoints row.endpoints⟩).specVersions =
        reachedRows external start (row.entry.id :: reached) := by
  rw [Store.rewriteSpecText, rows, reachedRows, List.map_map]
  refine List.map_congr_left fun other there => ?_
  dsimp only [Function.comp_apply]
  rw [reachedRows_id]
  by_cases own : other.entry.id = row.entry.id
  · have same := List.inj_on_of_nodup_map sound.versionIds there among own
    subst same
    rw [if_pos rfl, if_neg unreached, if_pos List.mem_cons_self]
    exact normalRow_rewritten (sound.endpointKeys other there)
  · simp [own]

end Stages

section Runs

variable {external : External} {environment : Environment} {start : Store} {reached : List Nat}
  {storage : Storage} {row : SpecVersionRow}

/-- A call of the store fails for its own reasons or by a fault, or is answered. -/
theorem ensures_migrationRepo {request : RepoCall} {fails : Store → Prop}
    (returns : request.Result → Store → Prop) (faulty : fails storage.store)
    (answered : ∀ now result, (storage.store.perform now request).2 = .ok result →
      returns result (storage.store.perform now request).1)
    (failed : ∀ now reason, (storage.store.perform now request).2 = .error reason →
      fails (storage.store.perform now request).1) :
    (migrationRepo request).Ensures (Storage.handle environment)
      (fun result after => returns result after.store) (fun _ after => fails after.store) storage := by
  unfold migrationRepo
  refine Program.Ensures.call ?_
  cases fault : environment.fault storage.steps with
  | some reason =>
      simp only [Storage.handle, fault]
      exact Program.Ensures.fail faulty
  | none =>
      simp only [Storage.handle, fault]
      cases outcome : (storage.store.perform (environment.clock storage.steps) request).2 with
      | ok result => exact Program.Ensures.done (answered _ _ outcome)
      | error reason => exact Program.Ensures.fail (failed _ _ outcome)

/-- A reading call answers what the store holds and changes nothing. -/
theorem ensures_migrationRead {request : RepoCall} (held : request.Result) (kept : Store → Prop)
    (reads : ∀ now, storage.store.perform now request = (storage.store, .ok held))
    (holds : kept storage.store) :
    (migrationRepo request).Ensures (Storage.handle environment)
      (fun result after => result = held ∧ kept after.store) (fun _ after => kept after.store) storage := by
  refine ensures_migrationRepo (fun result after => result = held ∧ kept after) holds ?_ ?_
  · intro now result answer
    rw [reads] at answer ⊢
    exact ⟨(Except.ok.inj answer).symm, holds⟩
  · intro now reason answer
    rw [reads] at answer
    cases answer

theorem ensures_rewriteSpecText {params : RewriteSpecText} {kept : Store → Prop}
    (done : Store → Prop) (faulty : kept storage.store) (rewritten : done (storage.store.rewriteSpecText params)) :
    (rewriteSpecText params).Ensures (Storage.handle environment)
      (fun _ after => done after.store) (fun _ after => kept after.store) storage := by
  unfold rewriteSpecText
  refine Program.Ensures.call ?_
  cases fault : environment.fault storage.steps with
  | some reason =>
      simp only [Storage.handle, fault]
      exact Program.Ensures.fail faulty
  | none =>
      simp only [Storage.handle, fault]
      exact Program.Ensures.done rewritten

theorem ensures_setSetting {key value : String} {kept : Store → Prop} (done : Store → Prop)
    (faulty : kept storage.store) (recorded : done (storage.store.setSetting key value)) :
    (setSetting key value).Ensures (Storage.handle environment)
      (fun _ after => done after.store) (fun _ after => kept after.store) storage := by
  unfold setSetting
  refine Program.Ensures.call ?_
  cases fault : environment.fault storage.steps with
  | some reason =>
      simp only [Storage.handle, fault]
      exact Program.Ensures.fail faulty
  | none =>
      simp only [Storage.handle, fault]
      exact Program.Ensures.done recorded

/-- One turn reaches its version, or fails and leaves everything as it was. -/
theorem ensures_normalizeVersion (sound : Identified start) (among : row ∈ start.specVersions)
    (unreached : row.entry.id ∉ reached) (stage : Stage external start reached storage.store)
    (summary : SpecTextNormalization) :
    (normalizeVersion external summary row.entry).Ensures (Storage.handle environment)
      (fun _ after => Stage external start (row.entry.id :: reached) after.store)
      (fun _ after => Stage external start reached after.store) storage := by
  have found : ∀ store, Stage external start reached store →
      store.specVersionById? row.entry.id = some row := by
    intro store stage
    rw [Store.specVersionById?, stage.rows]
    exact find_reachedRows sound among unreached
  unfold normalizeVersion
  refine (ensures_migrationRead (some row.content) (Stage external start reached)
    (fun now => ?_) stage).bind ?_
  · rw [Store.perform, found _ stage]
    rfl
  rintro content first ⟨rfl, stage⟩
  dsimp only
  refine (ensures_migrationRead row.endpoints (Stage external start reached)
    (fun now => ?_) stage).bind ?_
  · rw [Store.perform, Store.endpointsOf, found _ stage]
    rfl
  rintro endpoints second ⟨rfl, stage⟩
  split
  · rename_i normal
    have same := normalRow_eq_self (sound.endpointKeys row among) normal.1 normal.2.1 normal.2.2
    exact Program.Ensures.done
      ⟨by rw [stage.rows, reachedRows_cons same sound among], stage.services, stage.settings⟩
  · refine (ensures_rewriteSpecText (Stage external start (row.entry.id :: reached)) stage
      ⟨rewriteSpecText_reachedRows sound among unreached stage.rows, stage.services,
        stage.settings⟩).bind ?_
    exact fun _ third stage => Program.Ensures.done stage

/-- The loop reaches its versions one after another. -/
theorem ensures_normalizeVersions (sound : Identified start)
    {versions : List (String × SpecVersionMeta × Nat)}
    (listed : ∀ version ∈ versions, ∃ row ∈ start.specVersions, row.entry = version.2.1)
    (distinct : (versions.map fun version => version.2.1.id).Nodup)
    (unreached : ∀ version ∈ versions, version.2.1.id ∉ reached)
    (stage : Stage external start reached storage.store) (summary : SpecTextNormalization) :
    (Program.foldEach (fun summary version => normalizeVersion external summary version.2.1) summary
        versions).Ensures (Storage.handle environment)
      (fun _ after => ∃ later, reached ⊆ later ∧ (∀ version ∈ versions, version.2.1.id ∈ later) ∧
        Stage external start later after.store)
      (fun _ after => ∃ later, Stage external start later after.store) storage := by
  induction versions generalizing reached storage summary with
  | nil => exact Program.Ensures.done ⟨reached, List.Subset.refl _, by simp, stage⟩
  | cons version rest ih =>
      obtain ⟨row, among, same⟩ := listed version List.mem_cons_self
      rw [List.map_cons, List.nodup_cons] at distinct
      have turn : (normalizeVersion external summary row.entry).Ensures (Storage.handle environment)
          _ _ storage :=
        ensures_normalizeVersion sound among (same ▸ unreached version List.mem_cons_self) stage summary
      rw [same] at turn
      refine (turn.mono (fun _ _ held => held) fun _ _ kept => ⟨reached, kept⟩).bind ?_
      intro next middle stage
      refine (ih (fun other there => listed other (List.mem_cons_of_mem _ there)) distinct.2 ?_ stage
        next).mono ?_ fun _ _ kept => kept
      · intro other there
        rw [List.mem_cons, not_or]
        refine ⟨?_, unreached other (List.mem_cons_of_mem _ there)⟩
        intro same
        exact distinct.1 (same ▸ List.mem_map_of_mem (f := fun version => version.2.1.id) there)
      · rintro _ after ⟨later, within, all, stage⟩
        refine ⟨later, fun id held => within (List.mem_cons_of_mem _ held), ?_, stage⟩
        intro other there
        rcases List.mem_cons.mp there with rfl | there
        · exact within List.mem_cons_self
        · exact all other there

/-- Writing a contract leaves versions and settings alone. -/
theorem ensures_normalizeContract (stage : Stage external start reached storage.store)
    (summary : SpecTextNormalization) (contract : ChannelMessageContract) :
    (normalizeContract summary contract).Ensures (Storage.handle environment)
      (fun _ after => Stage external start reached after.store)
      (fun _ after => Stage external start reached after.store) storage := by
  unfold normalizeContract
  dsimp only
  split
  · have kept : ∀ now contract, Stage external start reached
        (storage.store.perform now (.upsertChannelMessageContract contract)).1 := by
      intro now contract
      have rows := @Store.perform_frame .specVersions storage.store now
        (.upsertChannelMessageContract contract) (by simp [writes])
      have services := @Store.perform_frame .services storage.store now
        (.upsertChannelMessageContract contract) (by simp [writes])
      have settings := @Store.perform_frame .settings storage.store now
        (.upsertChannelMessageContract contract) (by simp [writes])
      exact ⟨(Prod.mk.inj rows).1.trans stage.rows, (Prod.mk.inj services).1.trans stage.services,
        settings.trans stage.settings⟩
    refine (ensures_migrationRepo (fun _ => Stage external start reached) stage
      (fun now _ _ => kept now _) fun now _ _ => kept now _).bind ?_
    exact fun _ _ stage => Program.Ensures.done stage
  · exact Program.Ensures.done stage

end Runs

section Migrating

variable {external : External} {environment : Environment} {store start : Store} {storage : Storage}

theorem mem_listAllSpecVersions {version : String × SpecVersionMeta × Nat} :
    version ∈ store.listAllSpecVersions ↔ ∃ row ∈ store.specVersions, ∃ service,
      store.serviceName? row.entry.serviceId = some service ∧
        (service, row.entry, row.endpoints.length) = version := by
  rw [Store.listAllSpecVersions, List.mem_insertionSort, List.mem_filterMap]
  simp only [Option.map_eq_some_iff]

theorem listAllSpecVersions_ids (sound : Identified store) :
    (store.listAllSpecVersions.map fun version => version.2.1.id).Nodup := by
  rw [Store.listAllSpecVersions]
  refine ((List.perm_insertionSort _ _).map _).nodup_iff.mpr ?_
  refine sound.versionIds.sublist ?_
  generalize store.specVersions = rows
  induction rows with
  | nil => exact List.Sublist.slnil
  | cons row rest ih =>
      rw [List.filterMap_cons, List.map_cons]
      cases store.serviceName? row.entry.serviceId with
      | none => exact ih.cons _
      | some service => exact ih.cons_cons _

/-- The setting says that the stored texts were normalized. -/
def NormalizationRecorded (store : Store) : Prop :=
  (Entries.get? store.settings specTextNormalizedSetting).isSome = true

/-- A migration that succeeds leaves normal texts everywhere, unless it found itself recorded; one
that fails leaves them in some versions. -/
theorem ensures_normalizeStoredSpecText (sound : Identified storage.store) :
    (normalizeStoredSpecText external).Ensures (Storage.handle environment)
      (fun _ after => NormalizationRecorded storage.store ∧ after.store = storage.store ∨
        after.store.specVersions = storage.store.specVersions.map (normalRow external))
      (fun _ after => ∃ reached, Stage external storage.store reached after.store) storage := by
  have begins : Stage external storage.store [] storage.store :=
    ⟨by simp [reachedRows], rfl, rfl⟩
  have failing {Result : Type} {returns : Result → Storage → Prop} {program : Migration Result}
      {reached : List Nat} {reading : Storage}
      (met : program.Ensures (Storage.handle environment) returns
        (fun _ after => Stage external storage.store reached after.store) reading) :
      program.Ensures (Storage.handle environment) returns
        (fun _ after => ∃ reached, Stage external storage.store reached after.store) reading :=
    met.mono (fun _ _ held => held) fun _ _ kept => ⟨reached, kept⟩
  unfold normalizeStoredSpecText
  refine (ensures_migrationRead (Entries.get? storage.store.settings specTextNormalizedSetting)
    (fun after => after = storage.store) (fun now => rfl) rfl).mono (fun _ _ held => held)
      (fun _ after same => ⟨[], same ▸ begins⟩) |>.bind ?_
  rintro recorded first ⟨rfl, same⟩
  split
  · rename_i recorded
    exact Program.Ensures.done (.inl ⟨recorded, same⟩)
  refine (ensures_migrationRead storage.store.listAllSpecVersions (fun after => after = storage.store)
    (fun now => by rw [same]; rfl) same).mono (fun _ _ held => held)
      (fun _ after same => ⟨[], same ▸ begins⟩) |>.bind ?_
  rintro versions second ⟨rfl, same⟩
  have reading : Stage external storage.store [] second.store := by
    rw [same]
    exact begins
  refine (ensures_normalizeVersions sound ?_ (listAllSpecVersions_ids sound) (by simp) reading
    {}).bind ?_
  · intro version listed
    obtain ⟨row, among, service, -, rfl⟩ := mem_listAllSpecVersions.mp listed
    exact ⟨row, among, rfl⟩
  rintro summary third ⟨reached, -, all, stage⟩
  have whole : reachedRows external storage.store reached =
      storage.store.specVersions.map (normalRow external) := by
    refine List.map_congr_left fun row among => ?_
    obtain ⟨service, named⟩ := Option.isSome_iff_exists.mp (sound.versionService row among)
    exact if_pos (all _ (mem_listAllSpecVersions.mpr ⟨row, among, service, named, rfl⟩))
  refine (failing (ensures_migrationRead third.store.listContracts
    (Stage external storage.store reached) (fun now => rfl) stage)).bind ?_
  rintro listed fourth ⟨rfl, stage⟩
  have contracts : (Program.foldEach normalizeContract summary third.store.listContracts).Ensures
      (Storage.handle environment) (fun _ after => Stage external storage.store reached after.store)
      (fun _ after => Stage external storage.store reached after.store) fourth :=
    Program.Ensures.foldEach
      (fun summary state contract _ stage => ensures_normalizeContract stage summary contract) stage
  refine (failing contracts).bind ?_
  intro summary fifth stage
  refine Program.Ensures.call ?_
  have recording : (setSetting specTextNormalizedSetting
      (toString (environment.clock fifth.steps))).Ensures (Storage.handle environment)
      (fun _ after => after.store.specVersions = storage.store.specVersions.map (normalRow external))
      (fun _ after => Stage external storage.store reached after.store)
      (Storage.mk fifth.store (fifth.steps + 1)) :=
    ensures_setSetting (fun after => after.specVersions =
      storage.store.specVersions.map (normalRow external)) stage (stage.rows.trans whole)
  exact (failing recording).bind fun _ sixth rows => Program.Ensures.done (.inr rows)

/-- Runs of the migration one after another, of which only the last one succeeds. -/
inductive Migrates (external : External) (environment : Environment) : Storage → Storage → Prop
  | succeeds {summary : SpecTextNormalization} {storage after : Storage}
      (ran : (normalizeStoredSpecText external).run (Storage.handle environment) storage =
        some (.ok summary, after)) : Migrates external environment storage after
  | failed {error : AppError} {storage middle after : Storage}
      (ran : (normalizeStoredSpecText external).run (Storage.handle environment) storage =
        some (.error error, middle))
      (rest : Migrates external environment middle after) : Migrates external environment storage after

/-- A migration keeps the constraints of the tables, whether it fails or not. -/
theorem Migrates.sound {start last : Storage} (migrates : Migrates external environment start last)
    (sound : start.store.Integrity ∧ start.store.Links) :
    last.store.Integrity ∧ last.store.Links := by
  induction migrates with
  | succeeds ran => exact Storage.run_sound sound ran
  | failed ran rest ih => exact ih (Storage.run_sound sound ran)

/-- The document of a version is in its normal form, and the digest is that of the document. -/
def NormalDocument (external : External) (row : SpecVersionRow) : Prop :=
  normalizeSpecText row.content = row.content ∧
    row.entry.contentHash = contentHash external row.content

/-- No document starts with two byte order marks, and where the setting is recorded all are normal. -/
def Ready (external : External) (store : Store) : Prop :=
  ∀ row ∈ store.specVersions, ¬DoublyMarked row.content ∧
    (NormalizationRecorded store → NormalDocument external row)

/-- Every document is one of the start, perhaps in its normal form. -/
def Descends (start store : Store) : Prop :=
  ∀ row ∈ store.specVersions, ∃ before ∈ start.specVersions, before.entry.id = row.entry.id ∧
    normalizeSpecText row.content = normalizeSpecText before.content

theorem single_normalizeSpecText {text : String} (single : ¬DoublyMarked text) :
    ¬DoublyMarked (normalizeSpecText text) := by
  rintro ⟨rest, chars⟩
  refine single (marked_normalizeSpecText.mp ?_)
  rw [MarkedText, chars]
  rfl

theorem normalRow_normal {row : SpecVersionRow} (single : ¬DoublyMarked row.content) :
    NormalDocument external (normalRow external row) :=
  ⟨normalizeSpecText_twice_iff.mpr single, rfl⟩

theorem Stage.mem {reached : List Nat} (stage : Stage external start reached store)
    {row : SpecVersionRow} (among : row ∈ store.specVersions) :
    ∃ before ∈ start.specVersions, row = before ∨ row = normalRow external before := by
  rw [stage.rows, reachedRows] at among
  obtain ⟨before, there, rfl⟩ := List.mem_map.mp among
  refine ⟨before, there, ?_⟩
  split
  · exact .inr rfl
  · exact .inl rfl

theorem Stage.identified {reached : List Nat} (sound : Identified start)
    (stage : Stage external start reached store) : Identified store := by
  constructor
  · rw [stage.rows, reachedRows, List.map_map]
    have ids : ((fun row : SpecVersionRow => row.entry.id) ∘ fun row =>
        if row.entry.id ∈ reached then normalRow external row else row) = fun row => row.entry.id :=
      funext fun row => reachedRows_id external reached row
    rw [ids]
    exact sound.versionIds
  · intro row among
    have names : ∀ id, store.serviceName? id = start.serviceName? id := by
      intro id
      rw [Store.serviceName?, Store.serviceName?, stage.services]
    rw [names]
    obtain ⟨before, there, rfl | rfl⟩ := stage.mem among
    · exact sound.versionService _ there
    · exact sound.versionService before there
  · intro row among
    obtain ⟨before, there, rfl | rfl⟩ := stage.mem among
    · exact sound.endpointKeys _ there
    · have keys : (normalRow external before).endpoints.map endpointKey =
          before.endpoints.map endpointKey := by
        rw [normalRow, List.map_map]
        rfl
      rw [keys]
      exact sound.endpointKeys before there

/-- A run that fails leaves a store that the next one may begin with. -/
theorem Stage.ready {reached : List Nat} (ready : Ready external start)
    (stage : Stage external start reached store) : Ready external store ∧ Descends start store := by
  have recorded : NormalizationRecorded store → NormalizationRecorded start := by
    unfold NormalizationRecorded
    rw [stage.settings]
    exact id
  refine ⟨fun row among => ?_, fun row among => ?_⟩
  · obtain ⟨before, there, rfl | rfl⟩ := stage.mem among
    · exact ⟨(ready _ there).1, fun known => (ready _ there).2 (recorded known)⟩
    · have single := (ready before there).1
      exact ⟨single_normalizeSpecText single, fun _ => normalRow_normal single⟩
  · obtain ⟨before, there, rfl | rfl⟩ := stage.mem among
    · exact ⟨_, there, rfl, rfl⟩
    · exact ⟨before, there, rfl, normalizeSpecText_twice_iff.mpr (ready before there).1⟩

theorem Descends.trans {middle : Store} (first : Descends start middle)
    (second : Descends middle store) : Descends start store := by
  intro row among
  obtain ⟨between, held, same, form⟩ := second row among
  obtain ⟨before, there, same', form'⟩ := first between held
  exact ⟨before, there, same'.trans same, form.trans form'⟩

/-- However often a migration failed before, once it succeeds every document is in the normal form
of the one that was stored. -/
theorem Migrates.normal {start last : Storage} (migrates : Migrates external environment start last)
    (sound : Identified start.store) (ready : Ready external start.store) :
    (∀ row ∈ last.store.specVersions, NormalDocument external row) ∧
      Descends start.store last.store := by
  induction migrates with
  | succeeds ran =>
      rcases (ensures_normalizeStoredSpecText sound).1 _ _ ran with ⟨recorded, same⟩ | rows
      · rw [same]
        exact ⟨fun row among => (ready row among).2 recorded, fun row among => ⟨row, among, rfl, rfl⟩⟩
      · rw [rows]
        refine ⟨fun row among => ?_, fun row among => ?_⟩
        · obtain ⟨before, there, rfl⟩ := List.mem_map.mp among
          exact normalRow_normal (ready before there).1
        · rw [rows] at among
          obtain ⟨before, there, rfl⟩ := List.mem_map.mp among
          exact ⟨before, there, rfl, normalizeSpecText_twice_iff.mpr (ready before there).1⟩
  | failed ran rest ih =>
      obtain ⟨reached, stage⟩ := (ensures_normalizeStoredSpecText sound).2 _ _ ran
      obtain ⟨ready', descends⟩ := stage.ready ready
      obtain ⟨normal, descends'⟩ := ih (stage.identified sound) ready'
      exact ⟨normal, descends.trans descends'⟩

end Migrating

section Meeting

variable {State Call : Type} {Answer : Call → Type} {Error Value Result : Type}
  {handle : Handler State Call Answer} {good : Except Error Result → State → Prop} {state : State}

/-- A run that does end, as wanted. -/
def Meets (handle : Handler State Call Answer) (good : Except Error Result → State → Prop)
    (program : Program Call Answer Error Result) (state : State) : Prop :=
  ∃ outcome after, program.run handle state = some (outcome, after) ∧ good outcome after

theorem Meets.bind {program : Program Call Answer Error Value}
    {next : Value → Program Call Answer Error Result} (ends : program.Ends)
    (failing : ∀ error after, program.run handle state = some (.error error, after) →
      good (.error error) after)
    (rest : ∀ value middle, program.run handle state = some (.ok value, middle) →
      Meets handle good (next value) middle) : Meets handle good (program.bind next) state := by
  obtain ⟨outcome, reached, ran⟩ := ends.run handle state
  cases outcome with
  | error error =>
      refine ⟨.error error, reached, ?_, failing error reached ran⟩
      rw [Program.run_bind, ran]
      rfl
  | ok value =>
      obtain ⟨outcome, after, ended, met⟩ := rest value reached ran
      refine ⟨outcome, after, ?_, met⟩
      rw [Program.run_bind, ran]
      exact ended

theorem ends_attempt {Other : Type} {program : Program Call Answer Error Value}
    (ends : program.Ends) : (program.attempt : Program Call Answer Other _).Ends := by
  induction program with
  | done value => trivial
  | fail error => trivial
  | spin => exact ends.elim
  | call request next ih => exact fun answer => ih answer (ends answer)

theorem ends_foldEach {Element : Type} {body : Value → Element → Program Call Answer Error Value}
    (ends : ∀ value element, (body value element).Ends) (value : Value) (elements : List Element) :
    (Program.foldEach body value elements).Ends := by
  induction elements generalizing value with
  | nil => trivial
  | cons element rest ih => exact (ends value element).bind ih

end Meeting

section Endings

variable {deployment : Deployment} {params : ProvideSpecParams}
  (submission : Submission deployment.external params)

theorem ends_resolveStream (trunk : Bool) (tag : Option String) : (resolveStream trunk tag).Ends := by
  unfold resolveStream
  split
  · trivial
  · split
    · trivial
    · refine (ends_repo _).bind fun found => ?_
      cases found <;> trivial

theorem ends_refuse {Value : Type} (reason message : String) (proposed : Option SemVer)
    (error : AppError) : (refuse deployment submission reason message proposed error : UseCase Value).Ends := by
  unfold refuse
  refine Program.Ends.bind ?_ fun _ => trivial
  unfold recordVersionRejection
  split
  · trivial
  · refine Program.Ends.bind (fun _ => trivial) fun found => ?_
    split
    · refine Program.Ends.bind (fun _ => trivial) fun _ => ?_
      unfold emitRejection
      refine (ends_attempt (ends_planEvent _ _ _)).bind fun planned => ?_
      split
      · exact Program.Ends.bind (fun _ => trivial) fun _ => trivial
      · trivial
    · trivial

theorem ends_gateRelease : (gateRelease deployment submission).Ends := by
  unfold gateRelease
  split
  · trivial
  · exact ends_refuse submission _ _ _ _

theorem ends_serviceFor (params : ProvideSpecParams) : (serviceFor params).Ends := by
  unfold serviceFor
  split
  · exact (ends_repo _).bind fun _ => trivial
  · refine (ends_repo _).bind fun serviceId => ?_
    split
    · exact (ends_repo _).bind fun _ => trivial
    · trivial

theorem ends_lineOf (apiType : ApiType) (serviceId : Nat) : (lineOf apiType serviceId).Ends := by
  unfold lineOf
  split
  · exact (ends_repo _).bind fun _ => trivial
  · trivial

theorem ends_harvestSubscription (external : External) (stability : Stability) (planned : Harvest)
    (sub : AsyncApiDocument.PubMessage) : (harvestSubscription external stability planned sub).Ends := by
  unfold harvestSubscription
  refine (ends_repo _).bind fun contract => ?_
  refine Program.Ends.bind ?_ fun owner => (Program.ends_ofExcept _).bind fun _ => trivial
  unfold liveOwner
  split
  · trivial
  · refine (ends_repo _).bind fun name => ?_
    split <;> trivial

theorem ends_planHarvest : (planHarvest deployment submission).Ends := by
  unfold planHarvest
  split
  · unfold orRefuseContract planSubscriptionHarvest
    refine (ends_attempt ((Program.ends_ofExcept _).bind fun subs =>
      ends_foldEach (ends_harvestSubscription _ _) _ _)).bind fun planned => ?_
    split
    · trivial
    · unfold refuseContract
      split
      · exact ends_refuse submission _ _ _ _
      · exact ends_refuse submission _ _ _ _
      · trivial
  · trivial

theorem ends_refreshIdentical (origin : VersionOrigin) (serviceId : Nat) (harvest : Harvest)
    (entry : SpecVersionMeta) : (refreshIdentical submission origin serviceId harvest entry).Ends := by
  unfold refreshIdentical
  split
  · trivial
  refine Program.Ends.bind ?_ fun _ => Program.Ends.bind ?_ fun _ => Program.Ends.bind ?_ fun _ =>
    Program.Ends.bind ?_ fun _ => ?_
  · unfold touchProvided
    split
    · exact Program.Ends.bind (fun _ => trivial) fun _ => ends_repo _
    · trivial
  · unfold touchTrunkOf
    split
    · exact Program.Ends.bind (fun _ => trivial) fun _ => ends_repo _
    · trivial
  · unfold recordMember
    split
    · exact Program.Ends.bind (fun _ => trivial) fun _ => ends_repo _
    · trivial
  · unfold reconcile reconcileHarvest
    split
    · exact (ends_repo _).bind fun _ => Program.Ends.bind (fun _ => trivial) fun _ => ends_repo _
    · trivial
  · unfold refreshOrigin
    split
    · trivial
    · refine (ends_repo _).bind fun stored => ?_
      split
      · trivial
      · exact Program.Ends.bind (fun _ => trivial) fun _ => ends_repo _

end Endings

section Reproviding

variable {environment : Environment} {deployment : Deployment} {params : ProvideSpecParams}
  {origin : VersionOrigin} {world after : World} {row : SpecVersionRow}

/-- What may keep a Provide of known bytes from its answer: the store, a release that is not
allowed, or the subscriptions of a channel document. -/
inductive Interrupted (params : ProvideSpecParams) : AppError → Prop
  | store (reason : RepositoryError) : Interrupted params reason.toAppError
  | unreleased (message : String) (denied : params.mayRelease = false) :
      Interrupted params (.forbiddenWithReason message)
  | harvest {error : AppError} (channels : params.apiType = .asyncApi)
      (refused : (∃ message, error = .badRequest message) ∨ (∃ message, error = .conflict message) ∨
        ∃ message, error = .breakingChange message) : Interrupted params error

/-- A Provide that changes nothing of an entry and says so, unless something interrupts it. -/
structure IsNoOp (row : SpecVersionRow) (params : ProvideSpecParams)
    (outcome : Except AppError ProvideResponse) (after : World) : Prop where
  answered : ∀ response, outcome = .ok response → response.version = row.entry.version ∧
    response.stability = row.entry.stability ∧ response.contentHash = row.entry.contentHash ∧
    response.changes = {} ∧ response.promoted = false
  interrupted : ∀ error, outcome = .error error → Interrupted params error
  stands : ∃ later ∈ after.store.specVersions, later.standing = row.standing

theorem interrupted_of_call {events : Calls} {error : AppError} (failed : CallFailed events error) :
    Interrupted params error := by
  obtain ⟨request, reason, -, rfl⟩ := failed
  exact .store reason

theorem only_serviceFor (params : ProvideSpecParams) :
    (serviceFor params).Only (fun _ => True) CallFailed := by
  unfold serviceFor
  split
  · exact (only_repo trivial).bind fun found => .done _
  · refine (only_repo trivial).bind fun serviceId => ?_
    split
    · exact (only_repo trivial).bind fun _ => .done _
    · exact .done _

theorem only_refreshIdentical (submission : Submission deployment.external params)
    (origin : VersionOrigin) (serviceId : Nat) (harvest : Harvest) (entry : SpecVersionMeta) :
    (refreshIdentical submission origin serviceId harvest entry).Only
      (Application.Follows params entry.id) CallFailed := by
  unfold refreshIdentical
  split
  · exact .done ()
  · refine (only_touchProvided params entry).bind fun _ => ?_
    refine (only_touchTrunkOf submission entry.id).bind fun _ => ?_
    refine (only_recordMember submission serviceId entry.id).bind fun _ => ?_
    exact (only_reconcile submission harvest entry.id).bind fun _ =>
      only_refreshOrigin submission origin entry

/-- A released entry stands through a Provide. -/
theorem provide_stands (among : row ∈ world.store.specVersions) (released : row.entry.stability = .ga)
    {outcome : Except AppError ProvideResponse}
    (ran : (provideSpecInner deployment params origin).run (World.handle environment) world =
      some (outcome, after)) : ∃ later ∈ after.store.specVersions, later.standing = row.standing := by
  obtain ⟨events, replayed⟩ := Program.replay_of_run [] ran
  refine ((along_provideSpecInner deployment origin (by simp)).replay
    (fun reached _ => ∃ later ∈ reached.store.specVersions, later.standing = row.standing) ?_
      ⟨row, among, rfl⟩ replayed).1
  intro reached _ request stands allowed
  refine handle_released reached ?_ released stands
  rintro wanted rfl
  exact provideAllows_plain allowed

/-- A Provide of the bytes of a released entry is a no-op. -/
theorem provide_known (released : row.entry.stability = .ga) {parsed : ParsedSpec}
    (parses : parseSpec deployment.external params.apiType params.normalContent = .ok parsed)
    (standing : standingRow world.store params parsed.version = some row)
    (hash : row.entry.contentHash = parsed.hash) :
    ∃ outcome after, (provideSpecInner deployment params origin).run (World.handle environment) world =
      some (outcome, after) ∧ IsNoOp row params outcome after := by
  have refusing : ∀ error (after : World), Interrupted params error →
      ((∀ response, (Except.error error : Except AppError ProvideResponse) = .ok response →
        response.version = row.entry.version ∧ response.stability = row.entry.stability ∧
          response.contentHash = row.entry.contentHash ∧ response.changes = {} ∧
          response.promoted = false) ∧
      ∀ reason, (Except.error error : Except AppError ProvideResponse) = .error reason →
        Interrupted params reason) := by
    intro error after interrupted
    constructor
    · intro response same
      cases same
    · intro reason same
      cases same
      exact interrupted
  have met : Meets (World.handle environment) (fun (outcome : Except AppError ProvideResponse) _ =>
      (∀ response, outcome = .ok response → response.version = row.entry.version ∧
        response.stability = row.entry.stability ∧ response.contentHash = row.entry.contentHash ∧
        response.changes = {} ∧ response.promoted = false) ∧
      ∀ error, outcome = .error error → Interrupted params error)
      (provideSpecInner deployment params origin) world := by
    refine Meets.bind (ends_resolveStream _ _) ?_ fun stream first resolved => ?_
    · intro error after ran
      obtain ⟨events, failed⟩ := failed_along (reads_resolveStream _ _ []) ran
      exact refusing error after (interrupted_of_call failed)
    refine Meets.bind (Program.ends_ofExcept _) ?_ fun submission second read => ?_
    · intro error after ran
      exfalso
      cases taken : readSubmission deployment.external params stream with
      | ok submission =>
          rw [taken] at ran
          cases ran
      | error reason =>
          unfold readSubmission at taken
          split at taken
          · cases taken
          · rename_i unread
            rw [parses] at unread
            cases unread
    refine Meets.bind (ends_gateRelease submission) ?_ fun _ third gated => ?_
    · intro error after ran
      obtain ⟨events, denied, message, rfl⟩ := failed_along (along_gateRelease submission []) ran
      exact refusing _ after (.unreleased message denied)
    refine Meets.bind (ends_serviceFor params) ?_ fun serviceId fourth served => ?_
    · intro error after ran
      obtain ⟨events, failed⟩ := failed_along (only_serviceFor params []) ran
      exact refusing error after (interrupted_of_call failed)
    refine Meets.bind (ends_lineOf _ _) ?_ fun line fifth listed => ?_
    · intro error after ran
      obtain ⟨events, failed⟩ := failed_along (along_lineOf _ _ []) ran
      exact refusing error after (interrupted_of_call failed)
    refine Meets.bind (ends_planHarvest submission) ?_ fun harvest reached planned => ?_
    · intro error after ran
      by_cases harvests : submission.harvests = true
      · have channels : params.apiType = .asyncApi := by
          simp only [Submission.harvests, Bool.and_eq_true, decide_eq_true_eq] at harvests
          exact harvests.1
        obtain ⟨events, failed | refused⟩ := failed_along (along_planHarvest submission []) ran
        · exact refusing error after (interrupted_of_call failed)
        · exact refusing error after (.harvest channels refused)
      · rw [planHarvest, if_neg harvests] at ran
        cases ran
    have kept := ran_only_reads (reads_resolveStream _ _) resolved
    obtain ⟨-, rfl⟩ := Program.run_ofExcept_ok read
    have online := onLine_planned kept gated served listed planned
    obtain ⟨number, bytes⟩ := submission_parsed submission parses
    have found : (submission.existing line).filter submission.isNoOp = some row.entry := by
      rw [online.found, number, standing, Option.map_some, Option.filter_some, if_pos]
      rw [Submission.isNoOp, hash, bytes, released]
      simp
    rw [found]
    refine Meets.bind (ends_refreshIdentical submission _ _ _ _) ?_ fun _ last refreshed => ?_
    · intro error after ran
      obtain ⟨events, failed⟩ := failed_along (only_refreshIdentical submission _ _ _ _ []) ran
      exact refusing error after (interrupted_of_call failed)
    refine ⟨_, last, rfl, fun response same => ?_, fun error same => by cases same⟩
    cases same
    have key := (Store.mem_of_specVersion? (Option.bind_eq_some_iff.mp standing).choose_spec.2).2
    simp only [SpecVersionRow.key, Prod.mk.injEq] at key
    exact ⟨number.trans key.2.2.symm, rfl, bytes.trans hash.symm, rfl, rfl⟩
  obtain ⟨outcome, after, ran, answered, interrupted⟩ := met
  obtain ⟨service, -, stored⟩ := Option.bind_eq_some_iff.mp standing
  have among := (Store.mem_of_specVersion? stored).1
  exact ⟨outcome, after, ran, answered, interrupted, provide_stands among released ran⟩

end Reproviding

section Claims

variable {external : External} {store before : Store} {row : SpecVersionRow}
  {params : ProvideSpecParams}

/-- A document that is stored is provided again, in whatever line endings: as it is stored now, or
as it was before a migration. -/
structure Reprovides (external : External) (before store : Store) (row : SpecVersionRow)
    (params : ProvideSpecParams) : Prop where
  producer : store.serviceName? row.entry.serviceId = some params.producername
  apiType : params.apiType = row.entry.apiType
  version : ∃ parsed, parseSpec external params.apiType row.content = .ok parsed ∧
    parsed.version = row.entry.version
  respelled : Respelled params.content row.content ∨ ∃ earlier ∈ before.specVersions,
    earlier.entry.id = row.entry.id ∧ SameLines params.content.toList earlier.content.toList

theorem parseSpec_hash {apiType : ApiType} {content : String} {parsed : ParsedSpec}
    (parses : parseSpec external apiType content = .ok parsed) :
    parsed.hash = contentHash external content := by
  unfold parseSpec at parses
  split at parses
  · cases parses
  · split at parses
    · cases parses
    · cases parses
      rfl

/-- The normal form of what is provided again is what is stored. -/
theorem Reprovides.normalContent (again : Reprovides external before store row params)
    (normal : normalizeSpecText row.content = row.content) (descends : Descends before store)
    (distinct : (before.specVersions.map (·.entry.id)).Nodup) (among : row ∈ store.specVersions) :
    params.normalContent = row.content := by
  rw [ProvideSpecParams.normalContent]
  rcases again.respelled with respelled | ⟨earlier, held, same, lines⟩
  · exact normalizeSpecText_of_respelled normal respelled
  · obtain ⟨other, there, same', form⟩ := descends row among
    have own : earlier = other := List.inj_on_of_nodup_map distinct held there (same.trans same'.symm)
    rw [normalizeSpecText_eq_iff.mpr (sameLines_unmarked lines), own, ← form, normal]

/-- The normal form has no carriage return, and it is without a mark and its own normal form exactly
for texts that do not start with two marks; respelled texts have one form exactly when their lines
are the same or neither starts with two marks; and once a migration succeeds on a store without such
texts, however often it failed before, a released document is provided again without an effect. -/
theorem spec_text_normalized_iff (deployment : Deployment) (environment serving : Environment) :
    (∀ text, '\r' ∉ (normalizeSpecText text).toList ∧
      (¬MarkedText (normalizeSpecText text) ∧
          normalizeSpecText (normalizeSpecText text) = normalizeSpecText text ↔
        ¬DoublyMarked text)) ∧
    (∀ text other, Respelled text other → (normalizeSpecText text = normalizeSpecText other ↔
      SameLines text.toList other.toList ∨ ¬DoublyMarked text ∧ ¬DoublyMarked other)) ∧
    ∀ start last : Storage, start.store.Integrity → Ready deployment.external start.store →
      Migrates deployment.external environment start last →
      ∀ row ∈ last.store.specVersions, row.entry.stability = .ga →
      ∀ params origin, ∀ world : World, world.store = last.store →
      Reprovides deployment.external start.store last.store row params →
      ∃ outcome after, (provideSpecInner deployment params origin).run (World.handle serving) world =
        some (outcome, after) ∧ IsNoOp row params outcome after := by
  refine ⟨fun text => ⟨return_notMem_normalizeSpecText text, ?_⟩,
    fun text other => normalizeSpecText_respelled_iff, ?_⟩
  · rw [marked_normalizeSpecText, normalizeSpecText_twice_iff]
    exact and_self_iff
  · intro start last sound ready migrates row among released params origin world same again
    have identified : Identified start.store :=
      ⟨sound.versionIds, sound.versionService, sound.endpointKeys⟩
    obtain ⟨normal, descends⟩ := migrates.normal identified ready
    have content := again.normalContent (normal row among).1 descends sound.versionIds among
    obtain ⟨parsed, parses, number⟩ := again.version
    refine provide_known released (by rw [content]; exact parses) ?_ ?_
    · have stored : row ∈ world.store.specVersions := by
        rw [same]
        exact among
      obtain ⟨service, found, name⟩ := Option.map_eq_some_iff.mp again.producer
      have held : service ∈ world.store.services := same ▸ List.mem_of_find?_eq_some found
      have own : service.id = row.entry.serviceId := by simpa using List.find?_some found
      rw [standingRow, ← name, world.database.sound.serviceNamed?_of_mem held, Option.bind_some, own,
        again.apiType, number]
      exact world.database.sound.specVersion?_of_mem stored
    · rw [parseSpec_hash parses]
      exact (normal row among).2

section Stored

/-- A release whose document was stored with the line endings of its platform. -/
def foreignRow : SpecVersionRow where
  entry :=
    { id := 1
      serviceId := 1
      apiType := .proto
      version := ⟨1, 0, 0⟩
      stability := .ga
      contentHash := "sha256:of the other endings"
      providedBy := "rel"
      createdAt := 0
      updatedAt := 0
      lastRequiredAt := none
      trunkProvidedAt := none }
  content := "//sanshain-version:1\r\n"
  endpoints := []

/-- The document as a migration leaves it. -/
def migratedRow : SpecVersionRow := normalRow (asciiPlatform markerLibrary) foreignRow

def foreignStorage : Storage :=
  { store := { services := [⟨1, "p"⟩], nextServiceId := 2, specVersions := [foreignRow],
               nextSpecVersionId := 2 } }

/-- The rewriting call of the first run fails. -/
def hinderedEnvironment : Environment :=
  { steadyEnvironment with fault := fun step => if step = 4 then some "disk I/O error" else none }

/-- Two runs of the migration, of which the first one fails. -/
def migratedAgain : Option Storage :=
  match (normalizeStoredSpecText (asciiPlatform markerLibrary)).run
      (Storage.handle hinderedEnvironment) foreignStorage with
  | some (.error _, middle) =>
      match (normalizeStoredSpecText (asciiPlatform markerLibrary)).run
          (Storage.handle hinderedEnvironment) middle with
      | some (.ok _, last) => some last
      | _ => none
  | _ => none

theorem migratedAgain_spec {last : Storage} (ended : migratedAgain = some last) :
    Migrates (asciiPlatform markerLibrary) hinderedEnvironment foreignStorage last := by
  unfold migratedAgain at ended
  split at ended
  · rename_i error middle failed
    split at ended
    · rename_i summary after succeeded
      cases ended
      exact .failed failed (.succeeds succeeded)
    · cases ended
  · cases ended

theorem foreignStorage_sound : foreignStorage.store.Integrity ∧ foreignStorage.store.Links := by
  constructor
  · constructor <;> simp [foreignStorage, foreignRow, Store.serviceName?]
  · constructor <;> simp [foreignStorage]

theorem foreignStorage_ready : Ready (asciiPlatform markerLibrary) foreignStorage.store := by
  intro row among
  obtain rfl := List.mem_singleton.mp among
  constructor
  · rintro ⟨rest, chars⟩
    cases chars
  · intro recorded
    cases recorded

end Stored

theorem spec_text_normalized_foreign :
    normalizeSpecText (normalizeSpecText "\ufeffa\r\nb") = normalizeSpecText "\ufeffa\r\nb" ∧
      normalizeSpecText "\ufeffa\r\nb" = normalizeSpecText "a\rb" ∧
      ∃ (last : Storage) (world : World) (outcome : Except AppError ProvideResponse) (after : World),
        Migrates (asciiPlatform markerLibrary) hinderedEnvironment foreignStorage last ∧
        world.store = last.store ∧ migratedRow ∈ last.store.specVersions ∧
        (provideSpecInner (quietService markerLibrary)
          (releaseOf "p" .proto "//sanshain-version:1\r\n") {}).run (World.handle steadyEnvironment)
            world = some (outcome, after) ∧
        IsNoOp migratedRow (releaseOf "p" .proto "//sanshain-version:1\r\n") outcome after := by
  obtain ⟨normal, respelled, migrated⟩ :=
    spec_text_normalized_iff (quietService markerLibrary) hinderedEnvironment steadyEnvironment
  have single : ∀ rest : List Char, "\ufeffa\r\nb".toList ≠ mark :: mark :: rest := by
    intro rest same
    exact absurd (List.cons.inj (List.cons.inj same).2).1 (by decide)
  have single' : ∀ rest : List Char, "a\rb".toList ≠ mark :: mark :: rest := by
    intro rest same
    exact absurd (List.cons.inj same).1 (by decide)
  refine ⟨((normal _).2.mpr fun doubly => single _ doubly.choose_spec).2, ?_, ?_⟩
  · refine (respelled _ _ (.inr (.inl (by decide +kernel)))).mpr (.inr ⟨?_, ?_⟩)
    · exact fun doubly => single _ doubly.choose_spec
    · exact fun doubly => single' _ doubly.choose_spec
  · have ended : migratedAgain.any (fun last => last.store.specVersions = [migratedRow] &&
        last.store.serviceName? 1 = some "p") = true := by decide +kernel
    obtain ⟨last, ran, shown⟩ := (Option.any_eq_true _ _).mp ended
    rw [Bool.and_eq_true, decide_eq_true_eq, decide_eq_true_eq] at shown
    obtain ⟨rows, named⟩ := shown
    have migrates := migratedAgain_spec ran
    have sound := migrates.sound foreignStorage_sound
    have read : (parseSpec (asciiPlatform markerLibrary) .proto migratedRow.content).toOption.any
        (fun parsed => parsed.version = ⟨1, 0, 0⟩) = true := by decide +kernel
    obtain ⟨parsed, parses, number⟩ := (Option.any_eq_true _ _).mp read
    have among : migratedRow ∈ last.store.specVersions := rows ▸ List.mem_singleton_self _
    obtain ⟨outcome, after, provided, noOp⟩ := migrated foreignStorage last foreignStorage_sound.1
      foreignStorage_ready migrates migratedRow among rfl
      (releaseOf "p" .proto "//sanshain-version:1\r\n") {} ⟨⟨last.store, sound.1, sound.2⟩, 0⟩ rfl
      { producer := named
        apiType := rfl
        version := ⟨parsed, ok_of_toOption parses, of_decide_eq_true number⟩
        respelled := .inl (.inl (by decide +kernel)) }
    exact ⟨last, _, outcome, after, migrates, rfl, among, provided, noOp⟩

/-- A text with two byte order marks loses one of them at a time. -/
theorem second_mark_is_kept : normalizeSpecText "\ufeff\ufeffa" = "\ufeffa" ∧
    normalizeSpecText (normalizeSpecText "\ufeff\ufeffa") = "a" := by decide +kernel

end Claims

end Sanshain.Guarantees
