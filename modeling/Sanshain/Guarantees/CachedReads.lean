import Sanshain.Effects.Steps
import Sanshain.Guarantees.Bundles
import Sanshain.Guarantees.CacheTruth

namespace Sanshain.Guarantees

open Sanshain.Data Sanshain.Domain Sanshain.Document Sanshain.Effects Sanshain.Infrastructure

section Coherence

/-- The caches tell what the database says, and hold nothing while they are off. -/
structure Coherent (spelling : Spelling) (repo : CachedSpecRepository) : Prop where
  tells : Kept.Tells (truth spelling repo.inner.store) (StandsForOne spelling) repo.kept
  off : repo.isDisabled = true → ∀ key, repo.kept key = none

variable {spelling : Spelling} {repo : CachedSpecRepository}

theorem coherent_opened (database : Database) (memoryLimitMb : Nat) :
    Coherent spelling (.new database memoryLimitMb) where
  tells := Kept.tells_empty
  off _ _ := rfl

theorem Coherent.through (coherent : Coherent spelling repo) {key : CacheKey}
    {found : Except RepositoryError (Option key.Value)}
    (fresh : StandsForOne spelling key → ∀ value, found = .ok value →
      value = truth spelling repo.inner.store key) :
    Coherent spelling (repo.through key found).1 where
  tells := Kept.readThrough_tells coherent.tells fresh
  off disabled other := by
    have before : repo.isDisabled = true := disabled
    simp only [CachedSpecRepository.through, before, Bool.not_true, Kept.readThrough_disabled]
    exact coherent.off before other

/-- A read of a key that stands for one thing answers what the database says. -/
theorem Coherent.answer (coherent : Coherent spelling repo) (key : CacheKey)
    (right : StandsForOne spelling key) :
    (repo.through key (.ok (truth spelling repo.inner.store key))).2 =
      .ok (truth spelling repo.inner.store key) := by
  have fresh : ∀ found, Except.ok (truth spelling repo.inner.store key) =
      (.ok found : Except RepositoryError _) → found = truth spelling repo.inner.store key :=
    fun found same => (Except.ok.inj same).symm
  have enabled : (!repo.isDisabled) = true → Kept.Tells (truth spelling repo.inner.store)
      (StandsForOne spelling) repo.kept := fun _ => coherent.tells
  obtain answered | ⟨error, failed, -⟩ := Kept.readThrough_answer enabled right fresh
  · exact answered
  · cases failed

/-- The requests whose answers stand for one thing of the database. -/
def AsksOne (spelling : Spelling) : RepoCall → Prop
  | .listConsumers => False
  | .findEndpoint specVersionId apiType path method =>
      StandsForOne spelling (.wanted specVersionId apiType (path, method))
  | .findEndpointsBulk specVersionId apiType endpoints =>
      ∀ endpoint ∈ endpoints, StandsForOne spelling (.wanted specVersionId apiType endpoint)
  | _ => True

/-- A channel or method whose normalized form is in the table is asked for in its one spelling. -/
def SpeltAs (spelling : Spelling) (apiType : ApiType) (path : String) : Prop :=
  apiType ≠ .openApi → ∀ text,
    spelling (OpenApiDocument.normalizePath path) = some text → path = text

def Spelt (spelling : Spelling) : RepoCall → Prop
  | .findEndpoint _ apiType path _ => SpeltAs spelling apiType path
  | .findEndpointsBulk _ apiType endpoints =>
      ∀ endpoint ∈ endpoints, SpeltAs spelling apiType endpoint.1
  | _ => True

/-- Two answers say the same; of a bulk of endpoints, about every endpoint. -/
def SameAnswer : (request : RepoCall) → Except RepositoryError request.Result →
    Except RepositoryError request.Result → Prop
  | .findEndpointsBulk _ _ _, first, second =>
      first.map (fun found endpoint => Entries.get? found endpoint) =
        second.map fun found endpoint => Entries.get? found endpoint
  | _, first, second => first = second

/-- What is answered from behind the caches is the database's answer. -/
theorem behind_answers {fault : Option RepositoryError} {now : Instant} {request : RepoCall}
    {answer : request.Result} (answered : (repo.behind fault now request).2 = .ok answer) :
    (repo.inner.store.perform now request).2 = .ok answer := by
  cases fault with
  | some error => cases answered
  | none => exact answered

theorem of_map_ok {Value Other : Type} {outcome : Except RepositoryError Value} {change : Value → Other}
    {after : Other} (mapped : outcome.map change = .ok after) :
    ∃ value, outcome = .ok value ∧ change value = after := by
  cases outcome with
  | error error => cases mapped
  | ok value => exact ⟨value, rfl, Except.ok.inj mapped⟩

/-- A call behind the caches that fails changes nothing, and one that answers is the database's. -/
theorem behind_cases (repo : CachedSpecRepository) (fault : Option RepositoryError) (now : Instant)
    (request : RepoCall) :
    (∃ error, (repo.behind fault now request).2 = .error error ∧
        (repo.behind fault now request).1.store = repo.inner.store) ∨
      ∃ result, (repo.behind fault now request).2 = .ok result ∧
        (repo.behind fault now request).1 = (repo.inner.perform now request).1 ∧
        (repo.inner.store.perform now request).2 = .ok result := by
  cases fault with
  | some error => exact .inl ⟨error, rfl, rfl⟩
  | none =>
      cases answered : (repo.inner.store.perform now request).2 with
      | error error => exact .inl ⟨error, answered, perform_failed now answered⟩
      | ok result => exact .inr ⟨result, answered, rfl, rfl⟩

/-- While the caches are off, there is nothing to clear. -/
theorem Coherent.cleared (coherent : Coherent spelling repo) (gone : CacheKey → Bool) :
    (if repo.isDisabled then repo.kept else repo.kept.clear gone) = repo.kept.clear gone := by
  split
  · rename_i disabled
    funext key
    rw [Kept.clear, coherent.off disabled key, ite_self]
  · rfl

/-- A database that says the same of every key that is not cleared. -/
theorem Coherent.moves (coherent : Coherent spelling repo) {inner : Database} {gone : CacheKey → Bool}
    (same : ∀ key, StandsForOne spelling key → gone key = false →
      truth spelling inner.store key = truth spelling repo.inner.store key) :
    Coherent spelling { repo with inner := inner, kept := repo.kept.clear gone } where
  tells := coherent.tells.moves same
  off disabled key := by
    simp only [Kept.clear, coherent.off disabled key, ite_self]

/-- A call that fails leaves what is kept and what it tells of. -/
theorem Coherent.failed (coherent : Coherent spelling repo) {inner : Database}
    (same : inner.store = repo.inner.store) : Coherent spelling { repo with inner := inner } where
  tells := by
    rw [same]
    exact coherent.tells
  off := coherent.off

/-- A write that clears what it reaches keeps the caches right. -/
theorem Coherent.write (coherent : Coherent spelling repo) (fault : Option RepositoryError)
    (now : Instant) {request : RepoCall}
    (covers : ∀ result key, reaches request result key = true →
      CachedSpecRepository.invalidates request result key = true) :
    Coherent spelling (repo.write fault now request).1 := by
  obtain ⟨error, failed, same⟩ | ⟨result, answered, same, ended⟩ := behind_cases repo fault now request
  · simp only [CachedSpecRepository.write, failed]
    exact coherent.failed same
  · simp only [CachedSpecRepository.write, answered, coherent.cleared]
    rw [same]
    refine coherent.moves fun key right uncleared => ?_
    refine truth_unreached repo.inner.sound now ended right (Bool.eq_false_iff.mpr fun reached => ?_)
    exact Bool.eq_false_iff.mp uncleared (covers result key reached)

theorem Coherent.upsertSpecVersion (coherent : Coherent spelling repo) (fault : Option RepositoryError)
    (now : Instant) (params : UpsertSpecVersion) :
    Coherent spelling (repo.upsertSpecVersion fault now params).1 := by
  simp only [CachedSpecRepository.upsertSpecVersion, coherent.cleared]
  refine coherent.moves fun key right uncleared => ?_
  obtain ⟨error, -, same⟩ | ⟨result, -, same, ended⟩ :=
    behind_cases repo fault now (.upsertSpecVersion params)
  · rw [same]
  · rw [same]
    exact truth_unreached repo.inner.sound now ended right uncleared

/-- The identifier that is kept is the one that was answered. -/
theorem Coherent.ensureService (coherent : Coherent spelling repo) (fault : Option RepositoryError)
    (now : Instant) (name : String) : Coherent spelling (repo.ensureService fault now name).1 := by
  obtain ⟨error, failed, same⟩ | ⟨id, answered, same, ended⟩ :=
    behind_cases repo fault now (.ensureService name)
  · simp only [CachedSpecRepository.ensureService, failed]
    exact coherent.failed same
  · have reached : Coherent spelling { repo with
        inner := (repo.inner.perform now (.ensureService name)).1
        kept := repo.kept.clear fun key => key = .serviceId name || key.isServicesList } :=
      coherent.moves fun key right uncleared =>
        truth_unreached repo.inner.sound now ended right uncleared
    have ensured : truth spelling (repo.inner.perform now (.ensureService name)).1.store
        (.serviceId name) = some id := by
      rw [← Except.ok.inj ended]
      exact serviceNamed?_ensured name
    simp only [CachedSpecRepository.ensureService, answered, same]
    cases disabled : repo.isDisabled with
    | true =>
        have nothing : repo.kept = repo.kept.clear
            (fun key => key = .serviceId name || key.isServicesList) := by
          rw [← coherent.cleared, disabled, if_pos rfl]
        rw [if_pos rfl, nothing]
        exact reached
    | false =>
        have put : (repo.kept.put (.serviceId name) id).clear CacheKey.isServicesList =
            ((repo.kept.clear fun key => key = .serviceId name || key.isServicesList).put
              (.serviceId name) id).clear CacheKey.isServicesList := by
          funext key
          by_cases at_name : key = .serviceId name
          · subst at_name
            simp [Kept.clear, Kept.put]
          · cases listed : key.isServicesList <;> simp [Kept.clear, Kept.put, at_name, listed]
        rw [if_neg Bool.false_ne_true, put]
        exact
          { tells := (reached.tells.put fun _ => ensured).clear _
            off := fun off _ => absurd (disabled.symm.trans off) Bool.false_ne_true }

/-- A setting is cleared under its own key alone. -/
theorem Coherent.setSetting (coherent : Coherent spelling repo) (fault : Option RepositoryError)
    (key value : String) : Coherent spelling (repo.setSetting fault key value).1 := by
  cases fault with
  | some error => exact coherent
  | none =>
      refine coherent.moves fun other right uncleared => ?_
      cases other with
      | setting name =>
          have away : key ≠ name := by
            rintro rfl
            simp at uncleared
          exact congrArg some ((Entries.get?_insert _ _ _ _).trans (if_neg away))
      | clientsList text => exact right.elim
      | _ => exact truth_frame right rfl

theorem Coherent.rewriteSpecText (coherent : Coherent spelling repo) (fault : Option RepositoryError)
    (params : RewriteSpecText) : Coherent spelling (repo.rewriteSpecText fault params).1 := by
  simp only [CachedSpecRepository.rewriteSpecText, coherent.cleared]
  refine coherent.moves fun key right uncleared => ?_
  cases fault with
  | some error => rfl
  | none =>
      cases key with
      | clientsList text => exact right.elim
      | serviceId | servicesList | setting | groupsList => exact truth_frame right rfl
      | _ => cases uncleared

theorem coherent_rebuilt (repo : CachedSpecRepository) (newLimitMb : Nat) :
    Coherent spelling (repo.rebuildCaches newLimitMb) where
  tells := by
    intro key right value held
    cases held
  off _ _ := rfl

theorem Coherent.lose (coherent : Coherent spelling repo) (key : CacheKey) :
    Coherent spelling { repo with kept := repo.kept.clear fun other => other = key } :=
  coherent.moves fun _ _ _ => rfl

/-- Endpoints that were found are kept as what they are. -/
theorem tells_puts {kept : Kept CacheKey CacheKey.Value} {specVersionId : Nat} {apiType : ApiType}
    {found : Entries (String × String) (String × Bool)} {store : Store}
    (tells : Kept.Tells (truth spelling store) (StandsForOne spelling) kept)
    (stored : ∀ entry ∈ found,
      SpeltAs spelling apiType entry.1.1 ∧
        store.findEndpoint specVersionId apiType entry.1.1 entry.1.2 = some entry.2) :
    Kept.Tells (truth spelling store) (StandsForOne spelling)
      (found.foldl (fun kept entry => kept.put (.wanted specVersionId apiType entry.1) entry.2) kept) := by
  induction found generalizing kept with
  | nil => exact tells
  | cons entry rest ih =>
      obtain ⟨spelt, there⟩ := stored entry List.mem_cons_self
      exact ih (tells.put fun right => (truth_wanted right spelt).trans there)
        fun other among => stored other (List.mem_cons_of_mem _ among)

/-- Endpoints that are asked for together, where some of them are kept. -/
theorem Coherent.findEndpointsBulk (coherent : Coherent spelling repo)
    (fault : Option RepositoryError) (now : Instant) {specVersionId : Nat} {apiType : ApiType}
    {endpoints : List (String × String)}
    (spelt : ∀ endpoint ∈ endpoints, SpeltAs spelling apiType endpoint.1) :
    Coherent spelling (repo.findEndpointsBulk fault now specVersionId apiType endpoints).1 := by
  unfold CachedSpecRepository.findEndpointsBulk
  split
  · exact coherent
  · rename_i enabled
    dsimp only
    split
    · exact coherent
    · split
      · exact coherent
      · rename_i found answered
        have fetched := behind_answers answered
        cases fetched
        refine ⟨tells_puts coherent.tells fun entry among => ?_, fun disabled => absurd disabled enabled⟩
        obtain ⟨endpoint, missed, there⟩ := List.mem_filterMap.mp among
        obtain ⟨value, stored, rfl⟩ := Option.map_eq_some_iff.mp there
        exact ⟨spelt endpoint (List.mem_filter.mp missed).1, stored⟩

/-- Every call keeps the caches right. -/
theorem Coherent.perform (coherent : Coherent spelling repo) (fault : Option RepositoryError)
    (now : Instant) {request : RepoCall} (spelt : Spelt spelling request) :
    Coherent spelling (repo.perform fault now request).1 := by
  cases request with
  | findSpecVersion serviceId apiType version =>
      refine coherent.through fun _ value found => ?_
      have told := behind_answers found
      cases told
      exact (truth_specVersion serviceId apiType version).symm
  | getSpecContent | findService =>
      refine coherent.through fun _ value found => ?_
      have told := behind_answers found
      cases told
      rfl
  | findEndpoint specVersionId apiType path method =>
      refine coherent.through fun right value found => ?_
      have told := behind_answers found
      cases told
      exact (truth_wanted right spelt).symm
  | findEndpointsBulk specVersionId apiType endpoints =>
      exact coherent.findEndpointsBulk fault now spelt
  | getEndpointsForVersion | listProducers | listGroups | getSetting =>
      refine coherent.through fun _ value found => ?_
      obtain ⟨answer, answered, rfl⟩ := of_map_ok found
      have told := behind_answers answered
      cases told
      rfl
  | listConsumers => exact coherent.through fun right => right.elim
  | upsertSpecVersion params => exact coherent.upsertSpecVersion fault now params
  | ensureService name => exact coherent.ensureService fault now name
  | _ => exact coherent.write fault now fun _ _ reached => reached

end Coherence

section Answers

variable {spelling : Spelling} {repo : CachedSpecRepository}

/-- A call leaves the database as it would without the caches. -/
theorem perform_inner (repo : CachedSpecRepository) (now : Instant) (request : RepoCall) :
    (repo.perform none now request).1.inner = (repo.inner.perform now request).1 := by
  cases request with
  | findEndpointsBulk specVersionId apiType endpoints =>
      simp only [CachedSpecRepository.perform, CachedSpecRepository.findEndpointsBulk]
      split
      · rfl
      · split
        · rfl
        · split <;> rfl
  | _ => rfl

/-- The endpoints that are kept and those that are found behind the caches are those of the database. -/
theorem Coherent.bulk (coherent : Coherent spelling repo) {specVersionId : Nat} {apiType : ApiType}
    {endpoints : List (String × String)}
    (asks : ∀ endpoint ∈ endpoints, StandsForOne spelling (.wanted specVersionId apiType endpoint))
    (spelt : ∀ endpoint ∈ endpoints, SpeltAs spelling apiType endpoint.1)
    (wanted : String × String) :
    Entries.get? ((endpoints.filterMap fun endpoint =>
        (repo.kept (.wanted specVersionId apiType endpoint)).map fun value => (endpoint, value)) ++
      repo.inner.store.findEndpointsBulk specVersionId apiType (endpoints.filter fun endpoint =>
        (repo.kept (.wanted specVersionId apiType endpoint)).isNone)) wanted =
    Entries.get? (repo.inner.store.findEndpointsBulk specVersionId apiType endpoints) wanted := by
  have hits := get?_lookups (fun endpoint : String × String =>
    repo.kept (.wanted specVersionId apiType endpoint)) wanted endpoints
  have fetched := fun keys => get?_lookups (fun key : String × String =>
    repo.inner.store.findEndpoint specVersionId apiType key.1 key.2) wanted keys
  rw [Entries.get?, List.find?_append, Option.map_or]
  change (Entries.get? _ wanted).or (Entries.get? _ wanted) = _
  rw [hits, Store.findEndpointsBulk, fetched, Store.findEndpointsBulk, fetched]
  by_cases among : wanted ∈ endpoints
  · rw [if_pos among, if_pos among]
    cases held : repo.kept (.wanted specVersionId apiType wanted) with
    | none => simp [among, held]
    | some value =>
        have told := coherent.tells _ (asks wanted among) value held
        rw [truth_wanted (asks wanted among) (spelt wanted among)] at told
        rw [told]
        rfl
  · simp [among]

/-- What is always found behind the caches is answered as it was found. -/
theorem whole_ok {Value : Type} (absent : Value) {value : Value}
    {outcome : CachedSpecRepository × Except RepositoryError (Option Value)}
    (answered : outcome.2 = .ok (some value)) :
    (CachedSpecRepository.whole absent outcome).2 = .ok value := by
  rw [CachedSpecRepository.whole, answered]
  rfl

/-- A call that is not refused by a fault answers as the database does. -/
theorem Coherent.answers (coherent : Coherent spelling repo) (now : Instant) {request : RepoCall}
    (asks : AsksOne spelling request) (spelt : Spelt spelling request) :
    SameAnswer request (repo.perform none now request).2 (repo.inner.perform now request).2 := by
  cases request with
  | findSpecVersion serviceId apiType version =>
      have answered := coherent.answer (.specVersion serviceId apiType version.display) trivial
      rw [truth_specVersion] at answered
      exact answered
  | findEndpoint specVersionId apiType path method =>
      have answered := coherent.answer (.wanted specVersionId apiType (path, method)) asks
      rw [truth_wanted asks spelt] at answered
      exact answered
  | findEndpointsBulk specVersionId apiType endpoints =>
      have bulk := coherent.bulk asks spelt
      simp only [SameAnswer, CachedSpecRepository.perform, CachedSpecRepository.findEndpointsBulk]
      split
      · rfl
      · split
        · rename_i none_missed
          rw [none_missed] at bulk
          simp only [Store.findEndpointsBulk, List.filterMap_nil, List.append_nil] at bulk
          exact congrArg Except.ok (funext bulk)
        · exact congrArg Except.ok (funext bulk)
  | listConsumers => exact asks.elim
  | getSpecContent specVersionId => exact coherent.answer (.specContent specVersionId) trivial
  | findService name => exact coherent.answer (.serviceId name) trivial
  | getEndpointsForVersion specVersionId =>
      exact whole_ok _ (coherent.answer (.versionEndpoints specVersionId) trivial)
  | listProducers => exact whole_ok _ (coherent.answer (.servicesList sentinel) trivial)
  | listGroups => exact whole_ok _ (coherent.answer .groupsList trivial)
  | getSetting key => exact whole_ok _ (coherent.answer (.setting key) trivial)
  | _ => rfl

end Answers

section Runs

variable {spelling : Spelling} {repo : CachedSpecRepository}

/-- A step that asks for each listed channel or method in its one spelling. -/
def SpeltStep (spelling : Spelling) : CachedSpecRepository.Step → Prop
  | .call _ _ request => Spelt spelling request
  | _ => True

theorem Coherent.step (coherent : Coherent spelling repo) {action : CachedSpecRepository.Step}
    (spelt : SpeltStep spelling action) : Coherent spelling (repo.step action) := by
  cases action with
  | call fault now request => exact coherent.perform fault now spelt
  | setSetting fault key value => exact coherent.setSetting fault key value
  | rewriteSpecText fault params => exact coherent.rewriteSpecText fault params
  | rebuildCaches newLimitMb => exact coherent_rebuilt repo newLimitMb
  | lose key => exact coherent.lose key

theorem Coherent.run (coherent : Coherent spelling repo) {actions : List CachedSpecRepository.Step}
    (spelt : ∀ action ∈ actions, SpeltStep spelling action) :
    Coherent spelling (runSteps CachedSpecRepository.step repo actions) := by
  induction actions generalizing repo with
  | nil => exact coherent
  | cons action rest ih =>
      exact ih (coherent.step (spelt action List.mem_cons_self))
        fun other among => spelt other (List.mem_cons_of_mem _ among)

end Runs

end Sanshain.Guarantees
