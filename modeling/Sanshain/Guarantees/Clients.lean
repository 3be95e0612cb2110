import Sanshain.Application.Actions
import Sanshain.Document.Platform
import Sanshain.Effects.Pool
import Sanshain.Infrastructure.Lines

namespace Sanshain.Guarantees

open Sanshain.Data Sanshain.Domain Sanshain.Document Sanshain.Effects Sanshain.Application
open Sanshain.Infrastructure

/-- The clients of the service, and the world they share. -/
abbrev Clients := Pool World Call Call.Answer AppError Outcome

abbrev ServiceClient := Client Call Call.Answer AppError Outcome

/-- One client for each action, none of which has begun. -/
def opening (deployment : Deployment) (forms : AnswerForms) (world : World)
    (actions : List Action) : Clients :=
  ⟨world, actions.map fun action => ⟨action.program deployment forms, []⟩⟩

/-- The client at a place keeps to the rules of the action it was given. -/
def Follows (deployment : Deployment) (actions : List Action) (place : Nat)
    (client : ServiceClient) : Prop :=
  ∃ action, actions[place]? = some action ∧
    client.Keeps (action.Allows deployment) (action.Done deployment)
      (action.Failed deployment)

section Runs

variable {deployment : Deployment} {forms : AnswerForms} {world : World}
  {actions : List Action} {environment : Environment} {invariant : World → Prop}

theorem opening_follows (start : invariant world) :
    (opening deployment forms world actions).Holds invariant (Follows deployment actions) where
  state := start
  clients := by
    intro place client found
    rw [opening, List.getElem?_map, Option.map_eq_some_iff] at found
    obtain ⟨action, there, rfl⟩ := found
    exact ⟨action, there, Action.along_program deployment forms action⟩

theorem Follows.turn {place : Nat} {client : ServiceClient} (follows : Follows deployment actions
    place client) {request : Call} {rest : Call.Answer request → UseCase Outcome}
    (issued : client.program = .call request rest) (answer : Call.Answer request) :
    Follows deployment actions place ⟨rest answer, ⟨request, answer⟩ :: client.history⟩ := by
  obtain ⟨action, there, keeps⟩ := follows
  exact ⟨action, there, (keeps.turn issued answer).2⟩

/-- The call a client issues next is one that its action allows. -/
theorem Follows.allows {place : Nat} {client : ServiceClient} (follows : Follows deployment actions
    place client) {request : Call} {rest : Call.Answer request → UseCase Outcome}
    (issued : client.program = .call request rest) :
    ∃ action, actions[place]? = some action ∧
      action.Allows deployment client.history request := by
  obtain ⟨action, there, keeps⟩ := follows
  rw [Client.Keeps, issued] at keeps
  exact ⟨action, there, keeps.1⟩

theorem Follows.next {place : Nat} {client : ServiceClient} (follows : Follows deployment actions
    place client) {request : Call} (issued : client.next? = some request) :
    ∃ action, actions[place]? = some action ∧
      action.Allows deployment client.history request := by
  obtain ⟨program, history⟩ := client
  cases program with
  | call request rest =>
      cases issued
      exact follows.allows rfl
  | _ => cases issued

/-- What only a Provide issues is issued by a submission. -/
theorem Follows.provides {place : Nat} {client : ServiceClient} (follows : Follows deployment actions
    place client) {request : RepoCall} (issued : client.next? = some (.repo request))
    (provides : request.provides = true) :
    ∃ action params, actions[place]? = some action ∧ action.Submits params ∧
      ProvideAllows deployment params client.history (.repo request) := by
  obtain ⟨action, there, allowed⟩ := follows.next issued
  cases allowed with
  | reads reads =>
      have writes := RepoCall.readsOnly_of_provides provides
      exact absurd (show request.readsOnly = true from reads) (by simp [writes])
  | submits params submits allowed => exact ⟨action, params, there, submits, allowed⟩
  | otherwise otherwise => exact absurd otherwise (Action.otherwise_not_provides provides)

/-- What every allowed call of a client preserves of the world holds of every reachable pool. -/
theorem reachable (start : invariant world)
    (preserved : ∀ world action events request, action ∈ actions → invariant world →
      action.Allows deployment events request → invariant (World.handle environment world request).1)
    (schedule : List Nat) :
    ((opening deployment forms world actions).run (World.handle environment) schedule).Holds
      invariant (Follows deployment actions) := by
  refine (opening_follows start).run ?_ schedule
  intro state place client request rest kept follows issued
  obtain ⟨action, there, allowed⟩ := follows.allows issued
  exact ⟨preserved state action _ request (List.mem_of_getElem? there) kept allowed,
    follows.turn issued _⟩

/-- A property that follows on every reachable pool from a condition weaker than it holds at
every step exactly when the condition does. -/
theorem steps_iff {property condition : Clients → Nat → Prop}
    (weaker : ∀ pool place, property pool place → condition pool place)
    (implies : ∀ pool place, pool.Holds (fun _ => True) (Follows deployment actions) →
      condition pool place → property pool place) (schedule : List Nat) :
    Pool.Steps (World.handle environment) property (opening deployment forms world actions) schedule ↔
      Pool.Steps (World.handle environment) condition (opening deployment forms world actions)
        schedule := by
  have follows : (opening deployment forms world actions).Holds (fun _ => True)
      (Follows deployment actions) := opening_follows trivial
  have stepped : ∀ (state : World) place (client : ServiceClient) request rest, True →
      Follows deployment actions place client → client.program = .call request rest →
      True ∧ Follows deployment actions place ⟨rest (World.handle environment state request).2,
        ⟨request, (World.handle environment state request).2⟩ :: client.history⟩ :=
    fun _ _ _ _ _ _ follows issued => ⟨trivial, follows.turn issued _⟩
  constructor
  · exact Pool.Steps.imp follows stepped fun pool place _ => weaker pool place
  · exact Pool.Steps.imp follows stepped implies

end Runs

section Readers

variable {Value : Type}

def isConflict : AppError → Bool
  | .conflict _ => true
  | _ => false

def isInternal : AppError → Bool
  | .internal _ => true
  | _ => false

def isForbidden : AppError → Bool
  | .forbiddenWithReason _ => true
  | _ => false

theorem isConflict_iff (error : AppError) : isConflict error = true ↔ ∃ message, error = .conflict message := by
  cases error <;> simp [isConflict]

theorem isInternal_iff (error : AppError) : isInternal error = true ↔ ∃ message, error = .internal message := by
  cases error <;> simp [isInternal]

theorem isForbidden_iff (error : AppError) :
    isForbidden error = true ↔ ∃ message, error = .forbiddenWithReason message := by
  cases error <;> simp [isForbidden]

/-- Whether a run has ended with an error of this kind, in a world with this property. -/
def refusedWith (kind : AppError → Bool) (property : World → Bool) :
    Option (Except AppError Value × World) → Bool
  | some (.error error, after) => kind error && property after
  | _ => false

theorem refusedWith_spec {kind : AppError → Bool} {property : World → Bool}
    {ended : Option (Except AppError Value × World)} (refused : refusedWith kind property ended = true) :
    ∃ error after, ended = some (.error error, after) ∧ kind error = true ∧ property after = true := by
  unfold refusedWith at refused
  split at refused
  · rename_i error after
    exact ⟨error, after, rfl, by simpa using refused⟩
  · cases refused

/-- Whether a run has ended with an answer, in a world with this property. -/
def answeredWith (property : World → Bool) : Option (Except AppError Value × World) → Bool
  | some (.ok _, after) => property after
  | _ => false

theorem answeredWith_spec {property : World → Bool} {ended : Option (Except AppError Value × World)}
    (answered : answeredWith property ended = true) :
    ∃ value after, ended = some (.ok value, after) ∧ property after = true := by
  unfold answeredWith at answered
  split at answered
  · rename_i value after
    exact ⟨value, after, rfl, answered⟩
  · cases answered

theorem ok_of_toOption {Error : Type} {outcome : Except Error Value} {value : Value}
    (answered : outcome.toOption = some value) : outcome = .ok value := by
  cases outcome with
  | error error => cases answered
  | ok other =>
      cases answered
      rfl

end Readers

section Examples

/-- One-line documents that declare the number 1. -/
def markerLibrary : Library where
  digests :=
    [("//sanshain-version:1", "7b767b7d7057277be748f5de8a4f4d97b70d54e46373d3d5c3a52e868f60360f"),
      ("//sanshain-version:1\n", "ea48e67a47ac1a7e8bd8303fa8b6a6ec4f27efc1c0f08ed346b97d6f8abcd450")]

def quietService (library : Library) : Deployment := ⟨asciiPlatform library, false⟩

def noForms : AnswerForms := ⟨fun _ _ _ => .error "no form", fun _ => .error "no form"⟩

/-- An instant and an identifier for every step, and no fault. -/
def steadyEnvironment : Environment := ⟨id, fun step => toString step, fun _ => none⟩

def emptyWorld : World := ⟨.empty, 0⟩

def releaser : Actor := { userId := 1, username := "rel", roles := [.releaser] }

def developer (userId : Nat) (username : String) : Actor := { userId := userId, username := username }

def releaseOf (producername : String) (apiType : ApiType) (content : String) : ProvideSpecParams :=
  { producername := producername
    apiType := apiType
    content := content
    stability := .ga
    caller := some releaser }

def snapshotOf (apiType : ApiType) (caller : Actor) (content : String) : ProvideSpecParams :=
  { producername := "p"
    apiType := apiType
    content := content
    stability := .snapshot
    caller := some caller }

/-- A release that a trunk build publishes. -/
def trunkRelease : ProvideSpecParams :=
  { releaseOf "p" .proto "//sanshain-version:1" with trunk := true }

/-- Two releases of one number with different bytes. -/
def releaseRace : List Action :=
  [.provide (releaseOf "p" .proto "//sanshain-version:1") none,
    .provide (releaseOf "p" .proto "//sanshain-version:1\n") none]

/-- Two developers who pick one number for different bytes. -/
def snapshotRace : List Action :=
  [.provide (snapshotOf .proto (developer 2 "alice") "//sanshain-version:1") none,
    .provide (snapshotOf .proto (developer 3 "bob") "//sanshain-version:1\n") none]

def payloadRoot (type : String) : Value := .object [("type", .string type)]

def payloadText (type : String) : String := "type: " ++ type ++ "\n"

/-- A document that publishes one message with a payload of this type. -/
def channelRoot (type : String) : Value :=
  .object [("asyncapi", .string "2.0.0"), ("info", .object [("version", .string "1")]),
    ("channels", .object [("c", .object [("publish", .object [("message",
      .object [("name", .string "m"), ("payload", payloadRoot type)])])])])]

def channelText (type : String) : String :=
  "asyncapi: 2.0.0\ninfo:\n  version: '1'\nchannels:\n  c:\n    publish:\n      message:\n        name: m\n        payload:\n          type: "
    ++ type ++ "\n"

theorem payloadRoot_formed (type : String) : (payloadRoot type).WellFormed := by
  simp [payloadRoot, Value.WellFormed, Value.WellFormedEntries]

theorem channelRoot_formed (type : String) : (channelRoot type).WellFormed := by
  simp [channelRoot, payloadRoot, Value.WellFormed, Value.WellFormedEntries]

def channelLibrary : Library where
  digests :=
    [(channelText "string", "58dcf1d6f7ac78bbce4fa366b5baf8a64c6255a6cf8766c9772f5c90dd56a93f"),
      (channelText "integer", "bcba8356ea13eb0d1a1337ebdee379ce69d83b424c7570c5c9f3a717f8f740cb")]
  documents := ["string", "integer"].flatMap fun type =>
    [(channelText type, ⟨channelRoot type, channelRoot_formed type⟩),
      (payloadText type, ⟨payloadRoot type, payloadRoot_formed type⟩)]
  snippets := ["string", "integer"].flatMap fun type =>
    [(channelRoot type, channelText type), (payloadRoot type, payloadText type)]

/-- Two Producers that release one message with payloads of two types. -/
def messageRace : List Action :=
  [.provide (releaseOf "p" .asyncApi (channelText "string")) none,
    .provide (releaseOf "q" .asyncApi (channelText "integer")) none]

def channelService : Deployment := quietService channelLibrary

/-- A Consumer's trunk build that requires the message of a release. -/
def shopRequires : RequireParams where
  consumername := "shop"
  producername := "p"
  version := ⟨1, 0, 0⟩
  apiType := .asyncApi
  trunk := true

/-- A Producer releases a message, and then a Consumer requires it. -/
def messageRequired : UseCase Outcome :=
  ((Action.provide (releaseOf "p" .asyncApi (channelText "string")) none).program channelService
    noForms).bind fun _ =>
      (Action.requireEndpoint shopRequires "c" "PUB").program channelService noForms

end Examples
end Sanshain.Guarantees
