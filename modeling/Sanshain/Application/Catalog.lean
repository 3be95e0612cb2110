import Sanshain.Application.Calls
import Sanshain.Document.OpenApi

namespace Sanshain.Application

open Sanshain.Data Sanshain.Domain Sanshain.Document Sanshain.Effects

section Departures

/-- Every Producer and Consumer name: who counts as a participant. -/
def participants : UseCase (List String) := do
  let producers ← repo .listProducers
  let consumers ← repo .listConsumers
  .done (OpenApiDocument.sortedSet (producers ++ consumers))

/-- The dev and trunk periphery of a system closes, and its context goes. -/
def forgetSystem (now : Instant) (system : String) : UseCase Unit := do
  let _ ← repo (.reconcilePeriphery system true [] now [])
  repo (.deleteSystemContext system)

/-- The candidates that are no longer a Producer or a Consumer leave nothing behind. -/
def closeCatalogOfDeparted (candidates : List String) : UseCase Unit := do
  let remaining ← participants
  let now ← nowIso
  Program.forEach (fun system => if system ∈ remaining then .done () else forgetSystem now system)
    candidates

end Departures

section Calls

/-- What forgetting the departed among these systems may do. -/
inductive Forgets (candidates : List String) : Call → Prop
  | reads {request : Call} (reads : request.readsOnly = true) : Forgets candidates request
  | periphery (system : String) (among : system ∈ candidates) (now : Instant) :
      Forgets candidates (.repo (.reconcilePeriphery system true [] now []))
  | context (system : String) (among : system ∈ candidates) :
      Forgets candidates (.repo (.deleteSystemContext system))

theorem reads_participants : Reads participants :=
  (reads_repo rfl).bind fun _ => (reads_repo rfl).bind fun _ => .done _

theorem only_closeCatalogOfDeparted (candidates : List String) :
    (closeCatalogOfDeparted candidates).Only (Forgets candidates) fun _ _ => True := by
  refine (reads_participants.mono (fun _ reads => .reads reads) fun _ _ _ => trivial).bind
    fun remaining => (only_nowIso (.reads rfl)).bind fun now => ?_
  intro history
  refine (Program.along_forEach (fun _ _ => True) trivial ?_)
  intro before system events ⟨rest, whole⟩ _
  have among : system ∈ candidates := by
    rw [← whole]
    simp
  split
  · trivial
  · have forgotten : Forgets candidates (.repo (.deleteSystemContext system)) := .context system among
    refine along_repo_bind (.periphery system among now) (fun _ => trivial) fun changed => ?_
    exact (only_repo forgotten _).mono (fun _ _ forgets => forgets) (fun _ _ held => held)
      fun _ _ _ => trivial

end Calls
end Sanshain.Application
