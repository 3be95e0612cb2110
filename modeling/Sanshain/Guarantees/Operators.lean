import Sanshain.Application.Operations
import Sanshain.Guarantees.Clients

namespace Sanshain.Guarantees

open Sanshain.Data Sanshain.Domain Sanshain.Effects Sanshain.Application Sanshain.Infrastructure

/-- Operations under way, and the world they share. -/
abbrev Operators := Pool World Call Call.Answer AppError Reply

abbrev Operator := Client Call Call.Answer AppError Reply

/-- How the service is set up: what is fixed while it runs, and its external formats. -/
structure Setup where
  deployment : Deployment
  forms : AnswerForms
  format : InstantFormat

/-- One operator for each operation, none of which has begun. -/
def staffed (setup : Setup) (world : World) (operations : List Operation) : Operators :=
  ⟨world, operations.map fun operation =>
    ⟨operation.program setup.deployment setup.forms setup.format, []⟩⟩

/-- The operator at a place keeps to the rules of the operation it was given. -/
def Obeys (setup : Setup) (operations : List Operation) (place : Nat) (client : Operator) : Prop :=
  ∃ operation, operations[place]? = some operation ∧
    client.Keeps (operation.Allows setup.deployment) (fun _ _ => True) (fun _ _ => True)

section Runs

variable {setup : Setup} {world : World} {operations : List Operation} {environment : Environment}

theorem staffed_obeys {invariant : World → Prop} (start : invariant world) :
    (staffed setup world operations).Holds invariant (Obeys setup operations) where
  state := start
  clients := by
    intro place client found
    rw [staffed, List.getElem?_map, Option.map_eq_some_iff] at found
    obtain ⟨operation, there, rfl⟩ := found
    exact ⟨operation, there, operation.along_program⟩

theorem Obeys.turn {place : Nat} {client : Operator} (obeys : Obeys setup operations place client)
    {request : Call} {rest : Call.Answer request → UseCase Reply}
    (issued : client.program = .call request rest) (answer : Call.Answer request) :
    Obeys setup operations place ⟨rest answer, ⟨request, answer⟩ :: client.history⟩ := by
  obtain ⟨operation, there, keeps⟩ := obeys
  exact ⟨operation, there, (keeps.turn issued answer).2⟩

/-- The call an operator issues next is one that its operation allows. -/
theorem Obeys.allows {place : Nat} {client : Operator} (obeys : Obeys setup operations place client)
    {request : Call} (issued : client.next? = some request) :
    ∃ operation, operations[place]? = some operation ∧
      operation.Allows setup.deployment client.history request := by
  obtain ⟨operation, there, keeps⟩ := obeys
  obtain ⟨program, history⟩ := client
  cases program with
  | call request' rest =>
      cases issued
      exact ⟨operation, there, keeps.1⟩
  | _ => cases issued

/-- A turn of an operator with a call left issues that call. -/
theorem next_of_call {client : Operator} {request : Call}
    {rest : Call.Answer request → UseCase Reply} (issued : client.program = .call request rest) :
    client.next? = some request := by
  simp [Client.next?, issued]

/-- A property of the steps that follows on every reachable pool from a condition weaker than it
holds at every step exactly when the condition does. -/
theorem operator_steps_iff {property condition : Operators → Nat → Prop}
    (weaker : ∀ pool place, property pool place → condition pool place)
    (implies : ∀ pool place, pool.Holds (fun _ => True) (Obeys setup operations) →
      condition pool place → property pool place) (schedule : List Nat) :
    Pool.Steps (World.handle environment) property (staffed setup world operations) schedule ↔
      Pool.Steps (World.handle environment) condition (staffed setup world operations) schedule := by
  have obeyed : (staffed setup world operations).Holds (fun _ => True) (Obeys setup operations) :=
    staffed_obeys trivial
  have stepped : ∀ (state : World) place (client : Operator) request rest, True →
      Obeys setup operations place client → client.program = .call request rest →
      True ∧ Obeys setup operations place ⟨rest (World.handle environment state request).2,
        ⟨request, (World.handle environment state request).2⟩ :: client.history⟩ :=
    fun _ _ _ _ _ _ obeys issued => ⟨trivial, obeys.turn issued _⟩
  constructor
  · exact Pool.Steps.imp obeyed stepped fun pool place _ => weaker pool place
  · exact Pool.Steps.imp obeyed stepped implies

/-- Whether the operation at a place has ended with an answer. -/
def endedOk (pool : Operators) (place : Nat) : Bool :=
  match (pool.clients[place]?).bind Client.outcome? with
  | some (.ok _) => true
  | _ => false

end Runs

section Examples

def quietSetup : Setup :=
  ⟨quietService markerLibrary, noForms, ⟨fun _ => .error "no instant", fun instant => toString instant⟩⟩

end Examples
end Sanshain.Guarantees
