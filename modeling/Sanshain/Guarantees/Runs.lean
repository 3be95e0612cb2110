import Sanshain.Application.Calls
import Sanshain.Infrastructure.World

namespace Sanshain.Guarantees

open Sanshain.Data Sanshain.Domain Sanshain.Effects Sanshain.Application Sanshain.Infrastructure

variable {environment : Environment} {world after : World}

/-- A store call of a run that goes on was performed, and answered what it returned. -/
theorem ran_repo {request : RepoCall} {result : request.Result}
    (ran : (repo request).run (World.handle environment) world = some (.ok result, after)) :
    ∃ now, (world.store.perform now request).2 = .ok result ∧
      after.store = (world.store.perform now request).1 := by
  change ((tryRepo request).bind _).run _ _ = _ at ran
  rw [tryRepo, Program.ask_bind, Program.run] at ran
  obtain ⟨reason, failed, -⟩ | performed := World.handle_repo environment world request
  · rw [failed] at ran
    cases ran
  · rw [performed] at ran
    refine ⟨environment.clock world.steps, ?_⟩
    change (Program.ofExcept ((world.store.perform (environment.clock world.steps) request).2.mapError
      RepositoryError.toAppError)).run _ _ = _ at ran
    cases answered : (world.store.perform (environment.clock world.steps) request).2 with
    | error reason =>
        rw [answered] at ran
        cases ran
    | ok value =>
        rw [answered] at ran
        cases ran
        exact ⟨rfl, rfl⟩

/-- A store call that fails was not performed, or was refused. -/
theorem ran_repo_failed {request : RepoCall} {error : AppError}
    (ran : (repo request).run (World.handle environment) world = some (.error error, after)) :
    after.store = world.store ∨ ∃ now reason, (world.store.perform now request).2 = .error reason ∧
      after.store = (world.store.perform now request).1 := by
  change ((tryRepo request).bind _).run _ _ = _ at ran
  rw [tryRepo, Program.ask_bind, Program.run] at ran
  obtain ⟨reason, failed, -⟩ | performed := World.handle_repo environment world request
  · rw [failed] at ran
    cases ran
    exact .inl rfl
  · rw [performed] at ran
    change (Program.ofExcept ((world.store.perform (environment.clock world.steps) request).2.mapError
      RepositoryError.toAppError)).run _ _ = _ at ran
    cases answered : (world.store.perform (environment.clock world.steps) request).2 with
    | error reason =>
        rw [answered] at ran
        cases ran
        exact .inr ⟨environment.clock world.steps, reason, answered, rfl⟩
    | ok value =>
        rw [answered] at ran
        cases ran

/-- A call of one statement is done, or leaves the store as it was: it was failed, or refused. -/
theorem tried_of_asked {request : RepoCall} {answer : Except RepositoryError request.Result}
    {outcome : Except RepositoryError (Store × request.Result)}
    (tries : ∀ now, world.store.perform now request = world.store.tried outcome)
    (ran : (tryRepo request).run (World.handle environment) world = some (.ok answer, after)) :
    after.steps = world.steps + 1 ∧
      ((∃ result, answer = .ok result ∧ outcome = .ok (after.store, result) ∧
          environment.fault world.steps = none) ∨
        ∃ reason, answer = .error reason ∧ after.store = world.store ∧
          (environment.fault world.steps ≠ none ∨ outcome = .error reason)) := by
  cases faulty : environment.fault world.steps with
  | some reason =>
      have failed : World.handle environment world (.repo request) =
          (⟨world.database, world.steps + 1⟩, .error (.internal reason)) := by
        simp [World.handle, faulty]
      rw [tryRepo, Program.ask, Program.run, failed] at ran
      cases ran
      exact ⟨rfl, .inr ⟨_, rfl, rfl, .inl (by simp)⟩⟩
  | none =>
      have performed : World.handle environment world (.repo request) =
          (⟨(world.database.perform (environment.clock world.steps) request).1, world.steps + 1⟩,
            (world.database.perform (environment.clock world.steps) request).2) := by
        simp [World.handle, faulty]
      rw [tryRepo, Program.ask, Program.run, performed] at ran
      cases ran
      have done := tries (environment.clock world.steps)
      obtain ⟨reason, failed, same⟩ | ⟨stored, result, rfl, same⟩ :=
        Store.tried_cases world.store outcome
      · rw [same] at done
        exact ⟨rfl, .inr ⟨reason, congrArg Prod.snd done, congrArg Prod.fst done, .inr failed⟩⟩
      · rw [same] at done
        have store : (world.database.perform (environment.clock world.steps) request).1.store = stored :=
          congrArg Prod.fst done
        exact ⟨rfl, .inl ⟨result, congrArg Prod.snd done, by rw [← store], rfl⟩⟩

theorem ran_nowIso {now : Instant}
    (ran : nowIso.run (World.handle environment) world = some (.ok now, after)) :
    after.store = world.store := by
  cases ran
  rfl

/-- A store call that only reads returned what the store shows. -/
theorem ran_reading {request : RepoCall} (reads : request.readsOnly = true) {result : request.Result}
    (ran : (repo request).run (World.handle environment) world = some (.ok result, after)) :
    (∃ now, (world.store.perform now request).2 = .ok result) ∧ after.store = world.store := by
  obtain ⟨now, answered, same⟩ := ran_repo ran
  exact ⟨⟨now, answered⟩, same.trans (Store.perform_readsOnly world.store now reads)⟩

/-- A use case that only reads leaves the store as it was. -/
theorem ran_only_reads {Value : Type} {program : UseCase Value} {fails : Calls → AppError → Prop}
    (reads : program.Only (fun request => request.readsOnly = true) fails)
    {outcome : Except AppError Value}
    (ran : program.run (World.handle environment) world = some (outcome, after)) :
    after.store = world.store := by
  obtain ⟨events, replayed⟩ := Program.replay_of_run [] ran
  refine ((reads []).replay (fun reached _ => reached.store = world.store) ?_ rfl replayed).1
  intro reached _ request same reading
  exact (World.handle_readsOnly environment reached reading).trans same

/-- What a use case knows when it fails. -/
theorem failed_along {Value : Type} {program : UseCase Value} {guard : Calls → Call → Prop}
    {onDone : Calls → Value → Prop} {onFail : Calls → AppError → Prop}
    (along : program.Along guard onDone onFail []) {error : AppError}
    (ran : program.run (World.handle environment) world = some (.error error, after)) :
    ∃ events, onFail events error := by
  obtain ⟨events, replayed⟩ := Program.replay_of_run [] ran
  exact ⟨events, (along.replay (fun _ _ => True) (fun _ _ _ _ _ => trivial) trivial replayed).2.2
    error rfl⟩

end Sanshain.Guarantees
