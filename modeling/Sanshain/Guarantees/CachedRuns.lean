import Sanshain.Application.UseCase
import Sanshain.Effects.Beside
import Sanshain.Guarantees.CachedReads
import Sanshain.Guarantees.Departures

namespace Sanshain.Guarantees

open Sanshain.Data Sanshain.Domain Sanshain.Document Sanshain.Effects Sanshain.Infrastructure
open Sanshain.Application

section UseCases

variable {spelling : Spelling}

/-- The calls whose answers are the same values with and without the caches. -/
def AsksExactly (spelling : Spelling) : Call → Prop
  | .repo (.findEndpointsBulk _ _ _) => False
  | .repo request => AsksOne spelling request ∧ Spelt spelling request
  | _ => True

theorem sameAnswer_eq {request : RepoCall} (exact_one : AsksExactly spelling (.repo request))
    {first second : Except RepositoryError request.Result} (same : SameAnswer request first second) :
    first = second := by
  cases request with
  | findEndpointsBulk => exact exact_one.elim
  | _ => exact same

theorem asksExactly_repo {request : RepoCall} (exact_one : AsksExactly spelling (.repo request)) :
    AsksOne spelling request ∧ Spelt spelling request := by
  cases request with
  | findEndpointsBulk => exact exact_one.elim
  | _ => exact exact_one

/-- A call of a use case through coherent caches: the answer of the database, which moves as it does
without them. -/
theorem Coherent.handle {environment : Environment} (reliable : environment.Reliable)
    {world : CachedWorld} (coherent : Coherent spelling world.repo) {request : Call}
    (exact_one : AsksExactly spelling request) :
    (CachedWorld.handle environment world request).2 =
        (World.handle environment world.behind request).2 ∧
      (CachedWorld.handle environment world request).1.behind =
        (World.handle environment world.behind request).1 ∧
      Coherent spelling (CachedWorld.handle environment world request).1.repo := by
  cases request with
  | nowIso => exact ⟨rfl, rfl, coherent⟩
  | newUuid => exact ⟨rfl, rfl, coherent⟩
  | repo request =>
      obtain ⟨asks, spelt⟩ := asksExactly_repo exact_one
      simp only [CachedWorld.handle, World.handle, CachedWorld.behind, reliable world.steps,
        Option.map_none, perform_inner]
      exact ⟨sameAnswer_eq exact_one (coherent.answers _ asks spelt), trivial,
        coherent.perform none _ spelt⟩

/-- With no table of spellings, every call is spelt. -/
theorem speltStep_none (action : CachedSpecRepository.Step) : SpeltStep (fun _ => none) action := by
  cases action with
  | call fault now request =>
      cases request with
      | findEndpoint => exact fun _ text spelt => by cases spelt
      | findEndpointsBulk => exact fun _ _ _ text spelt => by cases spelt
      | _ => trivial
  | _ => trivial

end UseCases

section Consumers

/-- What is listed as a Consumer in the caches is a client of the database. -/
def ListsClients (repo : CachedSpecRepository) : Prop :=
  ∀ text names, repo.kept (.clientsList text) = some names →
    ∀ name ∈ names, name ∈ repo.inner.store.clients.map Prod.snd

variable {spelling : Spelling} {repo : CachedSpecRepository}

theorem client_of_listConsumers {store : Store} {name : String} (listed : name ∈ store.listConsumers) :
    name ∈ store.clients.map Prod.snd := by
  obtain ⟨client, among, named, -⟩ := mem_listConsumers.mp listed
  exact List.mem_map.mpr ⟨client, among, named⟩

/-- A read of another key leaves the lists as they were. -/
theorem ListsClients.through (lists : ListsClients repo) {key : CacheKey}
    (other : ∀ text, key ≠ .clientsList text) (found : Except RepositoryError (Option key.Value)) :
    ListsClients (repo.through key found).1 := by
  intro text names held
  simp only [CachedSpecRepository.through, Kept.readThrough_other (other text).symm] at held
  exact lists text names held

/-- A call that writes clients clears the lists. -/
theorem invalidates_clients {request : RepoCall} (written : Table.clients ∈ writes request)
    (result : request.Result) (text : String) :
    CachedSpecRepository.invalidates request result (.clientsList text) = true := by
  cases request <;> first | rfl | simp [writes] at written

theorem ListsClients.write (lists : ListsClients repo) (coherent : Coherent spelling repo)
    (fault : Option RepositoryError) (now : Instant) (request : RepoCall) :
    ListsClients (repo.write fault now request).1 := by
  obtain ⟨error, failed, same⟩ | ⟨result, answered, same, ended⟩ := behind_cases repo fault now request
  · simp only [CachedSpecRepository.write, failed]
    intro text names held
    rw [same]
    exact lists text names held
  · simp only [CachedSpecRepository.write, answered, coherent.cleared, same]
    intro text names held
    by_cases written : Table.clients ∈ writes request
    · simp only [Kept.clear, invalidates_clients written result text, if_true] at held
      cases held
    · have clients := Store.perform_frame repo.inner.store now written
      simp only [Store.table, Prod.mk.injEq] at clients
      simp only [Kept.clear] at held
      split at held
      · cases held
      · exact clients.1 ▸ lists text names held

theorem ListsClients.ofListing (lists : ListsClients repo) (fault : Option RepositoryError)
    (now : Instant) : ListsClients (repo.listConsumers fault now).1 := by
  intro text names held
  by_cases same : text = sentinel
  · subst same
    obtain kept | found := Kept.readThrough_self held
    · exact lists sentinel names kept
    · obtain ⟨answer, answered, same⟩ := of_map_ok found
      have told := behind_answers answered
      cases told
      cases same
      exact fun name listed => client_of_listConsumers listed
  · simp only [CachedSpecRepository.listConsumers, CachedSpecRepository.whole,
      CachedSpecRepository.through] at held
    rw [Kept.readThrough_other fun equal => same (CacheKey.clientsList.inj equal)] at held
    exact lists text names held

/-- Endpoints that were found are kept beside the lists. -/
theorem puts_other {specVersionId : Nat} {apiType : ApiType}
    (found : Entries (String × String) (String × Bool)) (kept : Kept CacheKey CacheKey.Value)
    (text : String) :
    found.foldl (fun kept entry => kept.put (.wanted specVersionId apiType entry.1) entry.2) kept
      (.clientsList text) = kept (.clientsList text) := by
  induction found generalizing kept with
  | nil => rfl
  | cons entry rest ih =>
      rw [List.foldl_cons, ih]
      exact Function.update_of_ne (fun same => by cases same) _ _

theorem ListsClients.findEndpointsBulk (lists : ListsClients repo) (fault : Option RepositoryError)
    (now : Instant) (specVersionId : Nat) (apiType : ApiType) (endpoints : List (String × String)) :
    ListsClients (repo.findEndpointsBulk fault now specVersionId apiType endpoints).1 := by
  unfold CachedSpecRepository.findEndpointsBulk
  split
  · exact lists
  · dsimp only
    split
    · exact lists
    · split
      · exact lists
      · intro text names held
        simp only [puts_other] at held
        exact lists text names held

/-- A write that leaves the clients as they are. -/
theorem ListsClients.keeps (lists : ListsClients repo) {after : CachedSpecRepository}
    (clients : after.inner.store.clients = repo.inner.store.clients)
    (kept : ∀ text names, after.kept (.clientsList text) = some names →
      repo.kept (.clientsList text) = some names) : ListsClients after := by
  intro text names held
  rw [clients]
  exact lists text names (kept text names held)

/-- A call behind the caches that writes no clients leaves them. -/
theorem behind_clients (fault : Option RepositoryError) (now : Instant) {request : RepoCall}
    (unwritten : Table.clients ∉ writes request) :
    (repo.behind fault now request).1.store.clients = repo.inner.store.clients := by
  obtain ⟨error, -, same⟩ | ⟨result, -, same, -⟩ := behind_cases repo fault now request
  · rw [same]
  · have clients := Store.perform_frame repo.inner.store now unwritten
    simp only [Store.table, Prod.mk.injEq] at clients
    rw [same]
    exact clients.1

theorem ListsClients.perform (lists : ListsClients repo) (coherent : Coherent spelling repo)
    (fault : Option RepositoryError) (now : Instant) (request : RepoCall) :
    ListsClients (repo.perform fault now request).1 := by
  cases request with
  | findSpecVersion | getSpecContent | findService | findEndpoint | getEndpointsForVersion
  | listProducers | listGroups | getSetting =>
      exact lists.through (fun text same => by cases same) _
  | listConsumers => exact lists.ofListing fault now
  | findEndpointsBulk specVersionId apiType endpoints =>
      exact lists.findEndpointsBulk fault now specVersionId apiType endpoints
  | upsertSpecVersion params =>
      refine lists.keeps (behind_clients fault now (by simp [writes])) fun text names held => ?_
      simp only [CachedSpecRepository.perform, CachedSpecRepository.upsertSpecVersion,
        coherent.cleared] at held
      exact held
  | ensureService name =>
      refine lists.keeps (behind_clients fault now (by simp [writes])) fun text names held => ?_
      obtain ⟨error, failed, -⟩ | ⟨id, answered, -, -⟩ := behind_cases repo fault now (.ensureService name)
      · simp only [CachedSpecRepository.perform, CachedSpecRepository.ensureService, failed] at held
        exact held
      · simp only [CachedSpecRepository.perform, CachedSpecRepository.ensureService, answered] at held
        split at held
        · exact held
        · exact held
  | _ => exact lists.write coherent fault now _

theorem ListsClients.step (lists : ListsClients repo) (coherent : Coherent spelling repo)
    (action : CachedSpecRepository.Step) : ListsClients (repo.step action) := by
  cases action with
  | call fault now request => exact lists.perform coherent fault now request
  | setSetting fault key value =>
      cases fault with
      | some error => exact lists
      | none => exact lists.keeps rfl fun text names held => held
  | rewriteSpecText fault params =>
      refine lists.keeps (by cases fault <;> rfl) fun text names held => ?_
      simp only [CachedSpecRepository.step, CachedSpecRepository.rewriteSpecText,
        coherent.cleared] at held
      exact held
  | rebuildCaches newLimitMb => exact lists.keeps rfl fun text names held => by cases held
  | lose key =>
      refine lists.keeps rfl fun text names held => ?_
      simp only [CachedSpecRepository.step, Kept.clear] at held
      split at held
      · cases held
      · exact held

theorem ListsClients.run (lists : ListsClients repo) (coherent : Coherent (fun _ => none) repo)
    (actions : List CachedSpecRepository.Step) :
    ListsClients (runSteps CachedSpecRepository.step repo actions) := by
  induction actions generalizing repo with
  | nil => exact lists
  | cons action rest ih => exact ih (lists.step coherent action) (coherent.step (speltStep_none action))

/-- However long the caches hold the list of Consumers, it names clients that are registered now: one
that was deleted is not listed again. -/
theorem listed_consumers_registered (database : Database) (memoryLimitMb : Nat)
    (actions : List CachedSpecRepository.Step) (fault : Option RepositoryError) (now : Instant)
    (names : List String) :
    let repo := runSteps CachedSpecRepository.step (.new database memoryLimitMb) actions
    (repo.listConsumers fault now).2 = .ok names →
      ∀ name ∈ names, name ∈ repo.inner.store.clients.map Prod.snd := by
  intro repo answered name listed
  have lists : ListsClients repo := ListsClients.run (fun _ _ held => by cases held)
    (coherent_opened database memoryLimitMb) actions
  obtain ⟨found, told, rfl⟩ := of_map_ok answered
  cases found with
  | none => cases listed
  | some names =>
      obtain kept | fresh := Kept.readThrough_source told
      · exact lists sentinel names kept name listed
      · obtain ⟨answer, asked, same⟩ := of_map_ok fresh
        have fetched := behind_answers asked
        cases fetched
        cases same
        exact client_of_listConsumers listed

/-- A list that was kept outlives the one dependency of its Consumer, who is still registered. -/
theorem listed_consumers_registered_stale :
    let repo := runSteps CachedSpecRepository.step (.new .empty 64)
      [.call none 0 (.ensureService "orders"),
        .call none 1 (.upsertSpecVersion
          ⟨1, .openApi, ⟨1, 0, 0⟩, .ga, "", "", "ci", none, 1, [], []⟩),
        .call none 2 (.ensureClient "web"),
        .call none 3 (.recordDependenciesBulk [⟨1, 1, .openApi, "/a", "/a", "GET"⟩] []),
        .call none 4 .listConsumers, .call none 5 (.deleteSpecVersion 1)]
    ∀ name ∈ ["web"], name ∈ repo.inner.store.clients.map Prod.snd :=
  listed_consumers_registered .empty 64 _ none 6 ["web"] (by decide)

end Consumers

end Sanshain.Guarantees
