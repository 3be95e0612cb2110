import Sanshain.Effects.Program
import Sanshain.Infrastructure.Links

namespace Sanshain.Infrastructure

open Sanshain.Data Sanshain.Domain

/-- A store whose constraints hold: no other can be built or reached. -/
structure Database where
  store : Store
  sound : store.Integrity
  linked : store.Links

def Database.empty : Database := ⟨{}, .empty, .empty⟩

/-- A call on the database. -/
def Database.perform (database : Database) (now : Instant) (request : RepoCall) :
    Database × Except RepositoryError request.Result :=
  (⟨(database.store.perform now request).1, database.sound.perform now request,
      database.linked.perform now request⟩,
    (database.store.perform now request).2)

/-- The database after a call at its instant. -/
def Database.after (database : Database) (call : Instant × RepoCall) : Database :=
  (database.perform call.1 call.2).1

/-- What the use cases cannot foresee: the clock, the generated identifiers, and which calls of
the database fail. -/
structure Environment where
  clock : Nat → Instant
  uuid : Nat → String
  fault : Nat → Option String

/-- No call fails but for the store's own reasons. -/
def Environment.Reliable (environment : Environment) : Prop := ∀ step, environment.fault step = none

/-- The database and how many calls it has answered. -/
structure World where
  database : Database
  steps : Nat := 0

namespace World

abbrev store (world : World) : Store := world.database.store

/-- One call: a fault answers an internal error and changes nothing. -/
def handle (environment : Environment) : Effects.Handler World Call Call.Answer
  | world, .nowIso => (⟨world.database, world.steps + 1⟩, environment.clock world.steps)
  | world, .newUuid => (⟨world.database, world.steps + 1⟩, environment.uuid world.steps)
  | world, .repo request =>
      match environment.fault world.steps with
      | some reason => (⟨world.database, world.steps + 1⟩, .error (.internal reason))
      | none =>
          let outcome := world.database.perform (environment.clock world.steps) request
          (⟨outcome.1, world.steps + 1⟩, outcome.2)

/-- A repository call either fails by a fault and changes nothing, or is the store's own. -/
theorem handle_repo (environment : Environment) (world : World) (request : RepoCall) :
    (∃ reason, handle environment world (.repo request) =
        (⟨world.database, world.steps + 1⟩, .error (.internal reason)) ∧
        environment.fault world.steps = some reason) ∨
      handle environment world (.repo request) =
        (⟨(world.database.perform (environment.clock world.steps) request).1, world.steps + 1⟩,
          (world.database.perform (environment.clock world.steps) request).2) := by
  cases faulty : environment.fault world.steps with
  | some reason => exact .inl ⟨reason, by simp [handle, faulty], rfl⟩
  | none => exact .inr (by simp [handle, faulty])

/-- A call that only reads leaves the store as it was. -/
theorem handle_readsOnly (environment : Environment) (world : World) {request : Call}
    (reads : request.readsOnly = true) :
    (handle environment world request).1.store = world.store := by
  cases request with
  | repo request =>
      obtain ⟨reason, failed, -⟩ | performed := handle_repo environment world request
      · rw [failed]
      · rw [performed]
        exact Store.perform_readsOnly world.store _ reads
  | _ => rfl

end World
end Sanshain.Infrastructure
