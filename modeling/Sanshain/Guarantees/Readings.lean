import Sanshain.Application.Graphs
import Sanshain.Infrastructure.World

namespace Sanshain.Guarantees

open Sanshain.Data Sanshain.Domain Sanshain.Effects Sanshain.Application Sanshain.Infrastructure

variable {environment : Environment} {database : Database} {Value Result : Type}

/-- A use case answers with this value and leaves the database as it is. -/
def Answers (environment : Environment) (database : Database) (program : UseCase Value)
    (value : Value) : Prop :=
  ∀ steps, ∃ later, program.run (World.handle environment) ⟨database, steps⟩ =
    some (.ok value, ⟨database, later⟩)

theorem answers_done (value : Value) :
    Answers environment database (Program.done value) value :=
  fun steps => ⟨steps, rfl⟩

theorem Answers.bind {program : UseCase Value} {next : Value → UseCase Result} {value : Value}
    {result : Result} (first : Answers environment database program value)
    (second : Answers environment database (next value) result) :
    Answers environment database (program.bind next) result := by
  intro steps
  obtain ⟨middle, ran⟩ := first steps
  obtain ⟨later, finished⟩ := second middle
  refine ⟨later, ?_⟩
  rw [Program.run_bind, ran]
  exact finished

/-- A call that only reads answers what the store shows, unless a fault strikes. -/
theorem answers_repo (reliable : environment.Reliable) {request : RepoCall}
    (reads : request.readsOnly = true) {result : request.Result}
    (shown : ∀ now, (database.store.perform now request).2 = .ok result) :
    Answers environment database (repo request) result := by
  intro steps
  have performed : World.handle environment ⟨database, steps⟩ (.repo request) =
      (⟨database, steps + 1⟩, .ok result) := by
    obtain ⟨reason, -, faulty⟩ | performed := World.handle_repo environment ⟨database, steps⟩ request
    · rw [reliable steps] at faulty
      cases faulty
    · have kept : (database.perform (environment.clock steps) request).1 = database := by
        have same := Store.perform_readsOnly database.store (environment.clock steps) reads
        cases database
        simpa only [Database.perform, Database.mk.injEq] using same
      rw [performed, kept]
      exact congrArg (Prod.mk _) (shown _)
  refine ⟨steps + 1, ?_⟩
  change ((tryRepo request).bind _).run _ _ = _
  rw [tryRepo, Program.ask_bind, Program.run, performed]
  rfl

/-- A branch is found under its name. -/
theorem answers_existingBranch (reliable : environment.Reliable) {name suffix : String}
    {branch : BranchInfo} (found : database.store.branches.find? (·.name = name) = some branch) :
    Answers environment database (existingBranch name suffix) branch := by
  have answer : Answers environment database (repo (.findBranch name)) (some branch) :=
    answers_repo reliable rfl fun _ => by rw [← found]; rfl
  exact answer.bind (answers_done branch)

section Scopes

theorem answers_scopeChannels (reliable : environment.Reliable) (apiType : ApiType)
    (entry : Option SpecVersionMeta) :
    ∃ channels, Answers environment database (scopeChannels apiType entry) channels := by
  unfold scopeChannels
  split
  · exact ⟨_, (answers_repo reliable rfl fun _ => rfl).bind (answers_done _)⟩
  · exact ⟨[], answers_done []⟩

theorem answers_addScopedLine (reliable : environment.Reliable)
    (entries : Entries (String × ApiType × SemVer) SpecVersionMeta) (instant : Option Instant)
    (producers : List ScopeProducer) (line : ScopedLine) :
    ∃ result, Answers environment database (addScopedLine entries instant producers line) result ∧
      producerLines result = producerLines producers ++ [line.carried] := by
  obtain ⟨channels, answered⟩ := @answers_scopeChannels environment database reliable line.apiType
    (entries.get? (line.service, line.apiType, line.version))
  exact ⟨_, answered.bind (answers_done _), producerLines_addVersionLine _ _ _⟩

/-- The Producers of a scope carry its lines, in their order. -/
theorem answers_addScopedLines (reliable : environment.Reliable)
    (entries : Entries (String × ApiType × SemVer) SpecVersionMeta) (instant : Option Instant)
    (producers : List ScopeProducer) (lines : List ScopedLine) :
    ∃ result, Answers environment database
        (Program.foldEach (addScopedLine entries instant) producers lines) result ∧
      producerLines result = producerLines producers ++ lines.map ScopedLine.carried := by
  induction lines generalizing producers with
  | nil => exact ⟨producers, answers_done producers, by simp⟩
  | cons line rest ih =>
      obtain ⟨middle, added, tells⟩ :=
        @answers_addScopedLine environment database reliable entries instant producers line
      obtain ⟨result, finished, saying⟩ := ih middle
      refine ⟨result, added.bind finished, ?_⟩
      rw [saying, tells, List.map_cons, List.append_assoc]
      rfl

/-- A scope shows the lines that were found for it. -/
theorem answers_getGraphScope (reliable : environment.Reliable) {scope : ReportScope}
    {lines : ScopedLines}
    (found : ∀ entries, Answers environment database (scopedLines entries scope) lines) :
    ∃ data, Answers environment database (getGraphScope scope) data ∧
      data.lines = (sortedLines lines).map ScopedLine.carried := by
  have stored : Answers environment database (repo .listAllSpecVersions)
      database.store.listAllSpecVersions := answers_repo reliable rfl fun _ => rfl
  have harvested : Answers environment database (repo .listCurrentHarvestedSubscriptions)
      database.store.listCurrentHarvested := answers_repo reliable rfl fun _ => rfl
  have systems : Answers environment database (repo .listSystemContexts)
      database.store.listSystemContexts := answers_repo reliable rfl fun _ => rfl
  obtain ⟨producers, added, saying⟩ := @answers_addScopedLines environment database reliable
    (storedEntries database.store.listAllSpecVersions) scope.instant [] (sortedLines lines)
  refine ⟨_, stored.bind ((found _).bind (added.bind (harvested.bind
    (systems.bind (answers_done _))))), ?_⟩
  exact saying

theorem answers_mainLines (reliable : environment.Reliable) (instant : Option Instant)
    (entries : Entries (String × ApiType × SemVer) SpecVersionMeta) :
    Answers environment database (scopedLines entries (.main instant))
      (((database.store.listMemberVersions .trunk instant).map (trunkLine instant)).foldl
        keepHighest []) :=
  (answers_repo reliable rfl fun _ => rfl).bind (answers_done _)

theorem answers_branchLines (reliable : environment.Reliable) {name : String} {branch : BranchInfo}
    (found : database.store.branches.find? (·.name = name) = some branch)
    (instant : Option Instant) (entries : Entries (String × ApiType × SemVer) SpecVersionMeta) :
    Answers environment database (scopedLines entries (.branch name instant))
      (branchLines (database.store.listBranchPins branch.id instant)
        (database.store.listMemberVersions (.branch branch.id) instant)) :=
  (answers_existingBranch reliable found).bind ((answers_repo reliable rfl fun _ => rfl).bind
    ((answers_repo reliable rfl fun _ => rfl).bind (answers_done _)))

end Scopes

/-- The service, asked for the graph of a scope while no call fails, shows this line. -/
def Carries (database : Database) (scope : ReportScope) (line : String × ApiType × SemVer) : Prop :=
  ∀ environment, environment.Reliable → ∀ steps, ∃ data after,
    (getGraphScope scope).run (World.handle environment) ⟨database, steps⟩ = some (.ok data, after) ∧
      line ∈ data.lines

theorem carries_iff {scope : ReportScope} {lines : ScopedLines}
    (found : ∀ environment, environment.Reliable → ∀ entries,
      Answers environment database (scopedLines entries scope) lines)
    (line : String × ApiType × SemVer) :
    Carries database scope line ↔ line ∈ (sortedLines lines).map ScopedLine.carried := by
  constructor
  · intro carries
    have reliable : (Environment.mk (fun _ => 0) (fun _ => "") fun _ => none).Reliable :=
      fun _ => rfl
    obtain ⟨data, after, ran, among⟩ := carries _ reliable 0
    obtain ⟨data', answered, tells⟩ := answers_getGraphScope reliable (found _ reliable)
    obtain ⟨later, ran'⟩ := answered 0
    rw [ran] at ran'
    cases ran'
    rwa [← tells]
  · intro among environment reliable steps
    obtain ⟨data, answered, tells⟩ := answers_getGraphScope reliable (found environment reliable)
    obtain ⟨later, ran⟩ := answered steps
    exact ⟨data, _, ran, tells ▸ among⟩

/-- The main graph carries the highest member version of each Producer and API type. -/
theorem carries_main_iff (instant : Option Instant) (service : String) (apiType : ApiType)
    (version : SemVer) :
    Carries database (.main instant) (service, apiType, version) ↔
      IsGreatest (versionsOf ((database.store.listMemberVersions .trunk instant).map
        (trunkLine instant)) service apiType) version := by
  rw [carries_iff fun environment reliable => answers_mainLines reliable instant]
  exact carried_keepHighest _ service apiType version

/-- A branch carries its member versions, and the highest pinned ones where it has none. -/
theorem carries_branch_iff {name : String} {branch : BranchInfo}
    (found : database.store.branches.find? (·.name = name) = some branch)
    (instant : Option Instant) (service : String) (apiType : ApiType) (version : SemVer) :
    Carries database (.branch name instant) (service, apiType, version) ↔
      (∃ member, memberOf (database.store.listMemberVersions (.branch branch.id) instant) service
          apiType = some member ∧ member.version = version) ∨
        memberOf (database.store.listMemberVersions (.branch branch.id) instant) service apiType =
            none ∧
          IsGreatest (versionsOf ((database.store.listBranchPins branch.id instant).map pinLine)
            service apiType) version := by
  rw [carries_iff fun environment reliable => answers_branchLines reliable found instant]
  exact carried_branchLines _ _ service apiType version

end Sanshain.Guarantees
