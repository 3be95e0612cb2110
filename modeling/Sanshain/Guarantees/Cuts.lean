import Sanshain.Guarantees.ChangeDates
import Sanshain.Guarantees.Runs

namespace Sanshain.Guarantees

open Sanshain.Data Sanshain.Domain Sanshain.Effects Sanshain.Application Sanshain.Infrastructure
open Sanshain.History

-- the check of a name is not computed to see what a cut goes on with
attribute [local irreducible] validateBranchName

/-- The pins that a source shows at an instant. -/
def sourcePins (store : Store) (source : Graph) (instant : Instant) : List PinRow :=
  lasting PinRow.span (store.pinsOf source.track) instant

def sourcePeriphery (store : Store) (source : Graph) (instant : Instant) : List PeripheryRow :=
  lasting PeripheryRow.span (store.peripheryOf source.periphery) instant

/-- The source that a cut names: trunk, or the branch of this name. -/
def Names (store : Store) (name : Option String) (source : Graph) : Prop :=
  (name = none ∧ source = none) ∨ ∃ wanted branch, name = some wanted ∧ source = some branch ∧
    store.branches.find? (·.name = wanted) = some branch

/-- No webhook is sent the event of a cut. -/
def NoTaker (deployment : Deployment) (store : Store) : Prop :=
  deployment.emissionEnabled = true →
    ∀ hook ∈ store.webhooks, hookWants hook .branchCut none [] = false

section Opening

/-- What a cut does before it fills the branch. -/
def openCut (deployment : Deployment) (format : InstantFormat) (params : CreateBranchParams) :
    UseCase (BranchInfo × Graph) := do
  let name := Text.trim params.name
  Program.ofExcept (validateBranchName name)
  let asOf ← cutInstant format params.asOf
  let source ← cutSource params.source
  let now ← nowIso
  let event ← planEvent deployment .branchCut .global
    (branchCutData format name (sourceLabel source) asOf now params.createdBy)
  let branchId ← openBranch name now params.createdBy (sourceLabel source) asOf event.toList
  .done (⟨branchId, name, now, params.createdBy, sourceLabel source, asOf⟩, source)

variable {deployment : Deployment} {format : InstantFormat} {params : CreateBranchParams}

/-- A cut opens its branch, then fills it. -/
theorem createBranch_eq :
    createBranch deployment format params =
      (openCut deployment format params).bind fun cut => fillBranch format cut.1 cut.2 := by
  simp only [createBranch, openCut, Program.bind_eq, Program.bind_assoc, Program.done_bind]

/-- A branch is open, and its event is planned when some webhook takes it. -/
structure OpenedCut (deployment : Deployment) (format : InstantFormat) (params : CreateBranchParams)
    (before after : Store) (branch : BranchInfo) (source : Graph) : Prop where
  names : Names before params.source source
  instant : ∀ raw, params.asOf = some raw → format.parse raw = .ok branch.asOf
  inserted : ∃ event, before.insertBranch branch.name branch.createdAt branch.createdBy branch.source
      branch.asOf (Option.toList event) = .ok (after, branch.id) ∧
    ((event = none ∧ NoTaker deployment before) ∨ ∃ planned, event = some planned ∧
      planned.eventType = .branchCut ∧ ¬ NoTaker deployment before)

variable {environment : Environment} {world after : World}

/-- An event is planned for a cut when some webhook takes it. -/
theorem planned_branchCut {data : Document.Value} {event : Option NewWebhookEvent}
    (ran : (planEvent deployment .branchCut .global data).run (World.handle environment) world =
      some (.ok event, after)) :
    (event = none ∧ NoTaker deployment world.store) ∨ ∃ planned, event = some planned ∧
      planned.eventType = .branchCut ∧ ¬ NoTaker deployment world.store := by
  obtain ⟨hookIds, middle, fanned, ended⟩ := Program.run_bind_ok ran
  have taken : hookIds = [] ↔ NoTaker deployment world.store := by
    unfold fanOut at fanned
    split at fanned
    · rename_i enabled
      obtain ⟨hooks, second, listed, fanned⟩ := Program.run_bind_ok fanned
      obtain ⟨⟨_, shown⟩, -⟩ := ran_reading rfl listed
      cases shown
      have wanted : (∀ hook ∈ world.store.webhooks, hookWants hook .branchCut none [] = false) ↔
          NoTaker deployment world.store := ⟨fun none _ => none, fun none => none enabled⟩
      rw [← wanted]
      split at fanned
      · rename_i empty
        cases fanned
        rw [List.isEmpty_iff.mp empty]
        simp
      · cases fanned
        rw [List.map_eq_nil_iff, List.filter_eq_nil_iff]
        simp [EventAudience.global]
    · rename_i disabled
      cases fanned
      exact ⟨fun _ enabled => absurd enabled disabled, fun _ => rfl⟩
  unfold eventFor at ended
  split at ended
  · rename_i empty
    cases ended
    exact .inl ⟨rfl, taken.mp (List.isEmpty_iff.mp empty)⟩
  · rename_i some
    obtain ⟨id, _, drawn, ended⟩ := Program.run_bind_ok ended
    obtain ⟨now, _, clocked, ended⟩ := Program.run_bind_ok ended
    cases ended
    exact .inr ⟨_, rfl, rfl, fun none => some (List.isEmpty_iff.mpr (taken.mpr none))⟩

theorem names_of_cutSource {name : Option String} {source : Graph}
    (ran : (cutSource name).run (World.handle environment) world = some (.ok source, after)) :
    Names world.store name source := by
  unfold cutSource at ran
  split at ran
  · cases ran
    exact .inl ⟨rfl, rfl⟩
  · rename_i wanted
    obtain ⟨branch, _, existing, ended⟩ := Program.run_bind_ok ran
    cases ended
    obtain ⟨found, _, asked, ended⟩ := Program.run_bind_ok existing
    obtain ⟨⟨_, shown⟩, -⟩ := ran_reading rfl asked
    cases shown
    cases same : world.store.branches.find? (·.name = wanted) with
    | none =>
        rw [same] at ended
        cases ended
    | some held =>
        rw [same] at ended
        cases ended
        exact .inr ⟨wanted, _, rfl, rfl, same⟩

theorem parsed_of_cutInstant {raw : String} {asOf : Instant}
    (ran : (cutInstant format (some raw)).run (World.handle environment) world =
      some (.ok asOf, after)) : format.parse raw = .ok asOf := by
  simp only [cutInstant, normalizeInstant] at ran
  cases parsed : format.parse raw with
  | error reason =>
      rw [parsed] at ran
      cases ran
  | ok instant =>
      rw [parsed] at ran
      cases ran
      rfl

theorem reads_cutInstant (raw : Option String) :
    (cutInstant format raw).Only (fun request => request.readsOnly = true) fun _ _ => True := by
  unfold cutInstant
  split
  · exact .ofExcept fun _ _ _ => trivial
  · exact only_nowIso rfl

theorem reads_cutSource (name : Option String) :
    (cutSource name).Only (fun request => request.readsOnly = true) fun _ _ => True := by
  unfold cutSource
  split
  · exact .done none
  · refine Program.Only.bind (Program.Only.bind ((reads_repo rfl).mono (fun _ reads => reads)
      fun _ _ _ => trivial) fun branch => ?_) fun branch => .done _
    cases branch with
    | none => exact .fail fun _ => trivial
    | some branch => exact .done branch

/-- A branch is opened, or the store is left as it was. -/
theorem openBranch_cases {name createdBy source : String} {now asOf : Instant}
    {outbox : List NewWebhookEvent} {outcome : Except AppError Nat}
    (ran : (openBranch name now createdBy source asOf outbox).run (World.handle environment) world =
      some (outcome, after)) :
    ((∃ error, outcome = .error error) ∧ after.store = world.store) ∨
      ∃ branchId, outcome = .ok branchId ∧
        world.store.insertBranch name now createdBy source asOf outbox =
          .ok (after.store, branchId) := by
  obtain ⟨_, -, failed⟩ | ⟨answer, middle, asked, ended⟩ := Program.run_bind_cases ran
  · cases failed
  obtain ⟨-, ⟨branchId, rfl, inserted, -⟩ | ⟨reason, rfl, same, -⟩⟩ :=
    tried_of_asked (fun _ => rfl) asked
  · cases ended
    exact .inr ⟨branchId, rfl, inserted⟩
  · cases reason <;>
      · cases ended
        exact .inl ⟨⟨_, rfl⟩, same⟩

/-- Opening a cut changes nothing when it is refused. -/
theorem openCut_error {error : AppError}
    (ran : (openCut deployment format params).run (World.handle environment) world =
      some (.error error, after)) : after.store = world.store := by
  have checks : (Program.ofExcept (validateBranchName (Text.trim params.name)) : UseCase Unit).Only
      (fun request => request.readsOnly = true) fun _ _ => True := .ofExcept fun _ _ _ => trivial
  have clocks : nowIso.Only (fun request => request.readsOnly = true) fun _ _ => True := only_nowIso rfl
  obtain ⟨_, -, failed⟩ | ⟨_, first, checked, ran⟩ := Program.run_bind_cases ran
  · exact ran_only_reads checks failed
  rw [← ran_only_reads checks checked]
  obtain ⟨_, -, failed⟩ | ⟨asOf, second, clocked, ran⟩ := Program.run_bind_cases ran
  · exact ran_only_reads (reads_cutInstant params.asOf) failed
  rw [← ran_only_reads (reads_cutInstant params.asOf) clocked]
  obtain ⟨_, -, failed⟩ | ⟨source, third, found, ran⟩ := Program.run_bind_cases ran
  · exact ran_only_reads (reads_cutSource params.source) failed
  rw [← ran_only_reads (reads_cutSource params.source) found]
  obtain ⟨_, -, failed⟩ | ⟨now, fourth, stamped, ran⟩ := Program.run_bind_cases ran
  · exact ran_only_reads clocks failed
  rw [← ran_only_reads clocks stamped]
  obtain ⟨_, -, failed⟩ | ⟨event, fifth, planned, ran⟩ := Program.run_bind_cases ran
  · exact ran_only_reads (reads_planEvent _ _ _ _) failed
  rw [← ran_only_reads (reads_planEvent _ _ _ _) planned]
  obtain ⟨_, -, failed⟩ | ⟨branchId, sixth, opened, ran⟩ := Program.run_bind_cases ran
  · obtain ⟨-, same⟩ | ⟨branchId, done, -⟩ := openBranch_cases failed
    · exact same
    · cases done
  · cases ran

/-- Opening a cut adds its branch and its event. -/
theorem openCut_ok {branch : BranchInfo} {source : Graph}
    (ran : (openCut deployment format params).run (World.handle environment) world =
      some (.ok (branch, source), after)) :
    OpenedCut deployment format params world.store after.store branch source := by
  have checks : (Program.ofExcept (validateBranchName (Text.trim params.name)) : UseCase Unit).Only
      (fun request => request.readsOnly = true) fun _ _ => True := .ofExcept fun _ _ _ => trivial
  have clocks : nowIso.Only (fun request => request.readsOnly = true) fun _ _ => True := only_nowIso rfl
  obtain ⟨_, first, checked, ran⟩ := Program.run_bind_ok ran
  rw [← ran_only_reads checks checked]
  obtain ⟨asOf, second, clocked, ran⟩ := Program.run_bind_ok ran
  rw [← ran_only_reads (reads_cutInstant params.asOf) clocked]
  obtain ⟨chosen, third, found, ran⟩ := Program.run_bind_ok ran
  have names := names_of_cutSource found
  rw [← ran_only_reads (reads_cutSource params.source) found] at names ⊢
  obtain ⟨now, fourth, stamped, ran⟩ := Program.run_bind_ok ran
  rw [← ran_only_reads clocks stamped] at names ⊢
  obtain ⟨event, fifth, planned, ran⟩ := Program.run_bind_ok ran
  have taken := planned_branchCut planned
  rw [← ran_only_reads (reads_planEvent _ _ _ _) planned] at names taken ⊢
  obtain ⟨branchId, sixth, opened, ran⟩ := Program.run_bind_ok ran
  cases ran
  obtain ⟨⟨_, refused⟩, -⟩ | ⟨opening, done, inserted⟩ := openBranch_cases opened
  · cases refused
  cases done
  have instant : ∀ raw, params.asOf = some raw → format.parse raw = .ok asOf := by
    intro raw given
    rw [given] at clocked
    exact parsed_of_cutInstant clocked
  exact ⟨names, instant, event, inserted, taken⟩

end Opening

section Filling

/-- The copy that comes first once a branch is opened. -/
def copiesPins : Call → Bool
  | .repo (.copyTrunkPinsToBranch _ _ _) | .repo (.copyBranchPinsToBranch _ _ _ _) => true
  | _ => false

/-- The world when others have made these calls. -/
def joined (others : List (Instant × RepoCall)) (world : World) : World :=
  ⟨others.foldl Database.after world.database, world.steps⟩

/-- The calls of others come in between the opening of a branch and the copy of its pins. -/
def intruded (environment : Environment) (others : List (Instant × RepoCall)) :
    Handler World Call Call.Answer := fun world request =>
  World.handle environment (if copiesPins request then joined others world else world) request

variable {deployment : Deployment} {format : InstantFormat} {params : CreateBranchParams}
  {environment : Environment} {others : List (Instant × RepoCall)} {world after : World}
  {branch : BranchInfo} {source : Graph}

theorem only_openCut :
    (openCut deployment format params).Only (fun request => copiesPins request = false)
      fun _ _ => True := by
  have spares : ∀ {Value : Type} {program : UseCase Value} {fails : Calls → AppError → Prop},
      program.Only (fun request => request.readsOnly = true) fails →
        program.Only (fun request => copiesPins request = false) fun _ _ => True := by
    intro Value program fails reads
    refine reads.mono (fun request reading => ?_) fun _ _ _ => trivial
    cases request with
    | repo request => cases request <;> first | rfl | cases reading
    | _ => rfl
  refine Program.Only.bind (.ofExcept fun _ _ _ => trivial) fun _ => ?_
  refine (spares (reads_cutInstant params.asOf)).bind fun asOf => ?_
  refine (spares (reads_cutSource params.source)).bind fun source => ?_
  refine (spares reads_nowIso).bind fun now => ?_
  refine (spares (reads_planEvent _ _ _ _)).bind fun event => ?_
  have opens : (openBranch (Text.trim params.name) now params.createdBy (sourceLabel source) asOf
      event.toList).Only (fun request => copiesPins request = false) fun _ _ => True := by
    refine Program.Only.bind (Program.Only.ask rfl) fun answer => ?_
    cases answer with
    | ok branchId => exact .done branchId
    | error reason => cases reason <;> exact .fail fun _ => trivial
  exact opens.bind fun branchId => .done _

/-- The copy of the pins meets what others have done, and every other call does not. -/
theorem asked_joined {request : RepoCall} (copies : copiesPins (.repo request) = true) :
    (tryRepo request).run (intruded environment others) world =
      (tryRepo request).run (World.handle environment) (joined others world) := by
  simp [tryRepo, Program.ask, Program.run, intruded, copies]

theorem asked_plain {request : RepoCall} (spares : copiesPins (.repo request) = false) :
    (tryRepo request).run (intruded environment others) world =
      (tryRepo request).run (World.handle environment) world := by
  simp [tryRepo, Program.ask, Program.run, intruded, spares]

theorem tried_ok {done : Store} {outcome : Except RepositoryError Store}
    (tried : (outcome.map fun after => (after, ())) = .ok (done, ())) : outcome = .ok done := by
  obtain ⟨after, rfl, same⟩ := Store.ok_of_map tried
  rw [(Prod.mk.inj same).1]

theorem tried_error {reason : RepositoryError} {outcome : Except RepositoryError Store}
    (tried : (outcome.map fun after => (after, ())) = .error reason) : outcome = .error reason := by
  cases outcome with
  | ok store => cases tried
  | error error =>
      cases tried
      rfl

/-- What the copies of a cut come to: all of it, nothing, or the pins alone. -/
inductive Copied (environment : Environment) (joined after : World) (branchId : Nat)
    (source : Graph) (asOf now : Instant) : Except RepositoryError Unit → Prop
  | all {pinned : Store} (steps : after.steps = joined.steps + 2)
      (first : environment.fault joined.steps = none)
      (pins : joined.store.copyPins branchId (sourcePins joined.store source asOf) now = .ok pinned)
      (second : environment.fault (joined.steps + 1) = none)
      (periphery : pinned.copyPeriphery branchId (sourcePeriphery pinned source asOf) now =
        .ok after.store) : Copied environment joined after branchId source asOf now (.ok ())
  | nothing {reason : RepositoryError} (steps : after.steps = joined.steps + 1)
      (failed : environment.fault joined.steps ≠ none ∨
        joined.store.copyPins branchId (sourcePins joined.store source asOf) now = .error reason)
      (same : after.store = joined.store) :
      Copied environment joined after branchId source asOf now (.error reason)
  | pins {reason : RepositoryError} (steps : after.steps = joined.steps + 2)
      (first : environment.fault joined.steps = none)
      (pins : joined.store.copyPins branchId (sourcePins joined.store source asOf) now =
        .ok after.store)
      (failed : environment.fault (joined.steps + 1) ≠ none ∨
        after.store.copyPeriphery branchId (sourcePeriphery after.store source asOf) now =
          .error reason) : Copied environment joined after branchId source asOf now (.error reason)

theorem copied_of_copyGraph {outcome : Except AppError (Except RepositoryError Unit)}
    {branchId : Nat} {asOf now : Instant}
    (ran : (copyGraph branchId source asOf now).run (intruded environment others) world =
      some (outcome, after)) :
    ∃ copied, outcome = .ok copied ∧
      Copied environment (joined others world) after branchId source asOf now copied := by
  -- the calls differ with the source, and come to the same
  cases source <;>
    · obtain ⟨_, -, failed⟩ | ⟨first, pinned, asked, ended⟩ := Program.run_bind_cases ran
      · cases failed
      rw [asked_joined rfl] at asked
      obtain ⟨steps, ⟨_, rfl, done, sound⟩ | ⟨reason, rfl, same, failed⟩⟩ :=
        tried_of_asked (fun _ => rfl) asked
      · obtain ⟨copied, rfl⟩ : ∃ copied, outcome = .ok copied := by
          cases ended
          exact ⟨_, rfl⟩
        have made := tried_ok done
        rw [asked_plain rfl] at ended
        obtain ⟨later, ⟨_, rfl, last, second⟩ | ⟨reason, rfl, same, failed⟩⟩ :=
          tried_of_asked (fun _ => rfl) ended
        · rw [steps] at second later
          exact ⟨_, rfl, .all later sound made second (tried_ok last)⟩
        · rw [steps] at failed later
          rw [← same] at made failed
          exact ⟨_, rfl, .pins later sound made (failed.imp id tried_error)⟩
      · cases ended
        exact ⟨_, rfl, .nothing steps (failed.imp id tried_error) same⟩

/-- What is left after a cut has failed: the branch is taken away, or stays. -/
inductive TakenAway (environment : Environment) (failed after : World) (branchId : Nat) : Prop
  | gone (sound : environment.fault failed.steps = none)
      (same : after.store = failed.store.deleteBranch branchId) :
      TakenAway environment failed after branchId
  | stays (faulty : environment.fault failed.steps ≠ none) (same : after.store = failed.store) :
      TakenAway environment failed after branchId

/-- The last steps of a cut write an audit row at most. -/
theorem ran_closing {username action details : String} {outcome : Except AppError BranchInfo}
    (ran : ((auditBranch username action details).bind fun _ => reportBranches.bind fun _ =>
      .done branch).run (intruded environment others) world = some (outcome, after)) :
    outcome = .ok branch ∧ ∃ logs, after.store = { world.store with auditLogs := logs } := by
  obtain ⟨_, -, failed⟩ | ⟨_, audited, audit, ended⟩ := Program.run_bind_cases ran
  · cases failed
  obtain ⟨_, -, failed⟩ | ⟨_, reported, report, ended⟩ := Program.run_bind_cases ended
  · cases failed
  cases ended
  refine ⟨rfl, ?_⟩
  have unchanged : after.store = audited.store := by
    cases report
    exact @World.handle_readsOnly environment audited (.repo .listBranches) rfl
  rw [unchanged]
  cases audit
  obtain ⟨reason, failed, -⟩ | stored := World.handle_repo environment world
    (.insertAuditLog username { action := action, details := details, actionType := some "WRITE" })
  · exact ⟨world.store.auditLogs, congrArg (fun end' => end'.1.store) failed⟩
  · exact ⟨_, congrArg (fun end' => end'.1.store) stored⟩

/-- A branch is filled with a copy of its source's graph, or taken away again. -/
theorem fillBranch_cases {outcome : Except AppError BranchInfo}
    (ran : (fillBranch format branch source).run (intruded environment others) world =
      some (outcome, after)) :
    ∃ copied middle, Copied environment (joined others world) middle branch.id source branch.asOf
        branch.createdAt copied ∧
      ((copied = .ok () ∧ outcome = .ok branch ∧
          ∃ logs, after.store = { middle.store with auditLogs := logs }) ∨
        (∃ reason, copied = .error reason) ∧ (∃ error, outcome = .error error) ∧
          TakenAway environment middle after branch.id) := by
  obtain ⟨error, -, failed⟩ | ⟨copied, middle, copying, ended⟩ := Program.run_bind_cases ran
  · obtain ⟨_, done, -⟩ := copied_of_copyGraph failed
    cases done
  obtain ⟨_, done, filled⟩ := copied_of_copyGraph copying
  cases done
  refine ⟨copied, middle, filled, ?_⟩
  cases copied with
  | error reason =>
      right
      obtain ⟨_, -, failed⟩ | ⟨answer, last, asked, ended⟩ := Program.run_bind_cases ended
      · cases failed
      cases ended
      refine ⟨⟨_, rfl⟩, ⟨_, rfl⟩, ?_⟩
      rw [asked_plain rfl] at asked
      have deletes : ∀ now, middle.store.perform now (.deleteBranch branch.id) =
          middle.store.tried (.ok (middle.store.deleteBranch branch.id, ())) := fun _ => rfl
      obtain ⟨-, ⟨_, -, done, sound⟩ | ⟨reason, -, same, faulty | refused⟩⟩ :=
        tried_of_asked deletes asked
      · exact .gone sound (congrArg Prod.fst (Except.ok.inj done)).symm
      · exact .stays faulty same
      · cases refused
  | ok done =>
      obtain ⟨answered, closed⟩ := ran_closing ended
      exact .inl ⟨rfl, answered, closed⟩

end Filling
end Sanshain.Guarantees
