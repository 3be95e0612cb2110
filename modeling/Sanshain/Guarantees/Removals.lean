import Sanshain.Guarantees.FrozenCuts

namespace Sanshain.Guarantees

open Sanshain.Data Sanshain.Domain Sanshain.Effects Sanshain.Application Sanshain.Infrastructure

/-- The call that removes a participant on this side. -/
def removal (name : String) : ParticipantRole → RepoCall
  | .producer => .deleteProducer name
  | .consumer => .deleteConsumer name

/-- Whether the store knows the participant on this side. -/
def known (store : Store) (name : String) : ParticipantRole → Bool
  | .producer => (store.serviceNamed? name).isSome
  | .consumer => (store.clientNamed? name).isSome

/-- An existing branch holds an open pin of the participant. -/
structure InCut (store : Store) (name : String) (role : ParticipantRole) (branch : BranchInfo) :
    Prop where
  stands : branch ∈ store.branches
  pinned : ∃ row ∈ store.branchPinsOf branch.id, row.validTo = none ∧
    namesParticipant name role (pinInfo row) = true

/-- The turn of the operator at this place removes a participant. -/
structure RemovesNow (environment : Environment) (pool : Operators) (place : Nat)
    (client : Operator) (name : String) (role : ParticipantRole) : Prop where
  issues : pool.Issues place client (.repo (removal name role))
  performed : environment.fault pool.state.steps = none
  known : known pool.state.store name role = true

/-- The turn removes no participant of a recorded graph. -/
def SparesCuts (environment : Environment) (pool : Operators) (place : Nat) : Prop :=
  ∀ client name role, RemovesNow environment pool place client name role →
    ∀ branch, ¬ InCut pool.state.store name role branch

/-- The branches whose open pins name what the turn removes had been there, with a pin of it,
when the operation read the branches and their pins. -/
def SawCuts (environment : Environment) (pool : Operators) (place : Nat) : Prop :=
  ∀ client name role, RemovesNow environment pool place client name role →
    ∀ branch, InCut pool.state.store name role branch →
      (∀ branches, Heard client.history .listBranches branches → branch.id ∈ branches.map (·.id)) ∧
        ∀ pins, Heard client.history (.listBranchPins branch.id none) pins →
          ∃ pin ∈ pins, namesParticipant name role pin = true

section Removals

variable {setup : Setup} {operations : List Operation} {environment : Environment}

/-- A participant is removed by an operation that read the recorded graphs before. -/
theorem removal_unreferenced {deployment : Deployment} {operation : Operation} {events : Calls}
    {name : String} {role : ParticipantRole}
    (allowed : operation.Allows deployment events (.repo (removal name role))) :
    Unreferenced name role events := by
  cases role with
  | producer =>
      cases allowed with
      | reads reads => cases reads
      | acts action same other allowed => cases allows_plain other allowed
      | removes name role participant removes =>
          cases removes with
          | reads reads => cases reads
          | producer side unreferenced => exact side ▸ unreferenced
          | catalog forgets => cases forgets with | reads reads => cases reads
      | cuts params same cuts =>
          cases cuts with
          | reads reads => cases reads
          | fills opened' opened filled => cases filled
      | plain plain => cases operation <;> cases plain
  | consumer =>
      cases allowed with
      | reads reads => cases reads
      | acts action same other allowed => cases allows_plain other allowed
      | removes name role participant removes =>
          cases removes with
          | reads reads => cases reads
          | consumer side unreferenced => exact side ▸ unreferenced
          | catalog forgets => cases forgets with | reads reads => cases reads
      | cuts params same cuts =>
          cases cuts with
          | reads reads => cases reads
          | fills opened' opened filled => cases filled
      | plain plain => cases operation <;> cases plain

/-- An operation that was shown the participant in a recorded graph has been refused before. -/
theorem spares_of_saw {pool : Operators} {place : Nat}
    (held : pool.Holds (fun _ => True) (Obeys setup operations))
    (saw : SawCuts environment pool place) : SparesCuts environment pool place := by
  intro client name role removes branch cut
  obtain ⟨found, issued⟩ := removes.issues
  obtain ⟨operation, -, allowed⟩ := (held.clients place client found).allows issued
  obtain ⟨branches, listed, unnamed⟩ := removal_unreferenced allowed
  obtain ⟨there, shown⟩ := saw client name role removes branch cut
  obtain ⟨other, among, same⟩ := List.mem_map.mp (there branches listed)
  obtain ⟨pins, heard, none⟩ := unnamed other among
  obtain ⟨pin, held, named⟩ := shown pins (same ▸ heard)
  rw [none pin held] at named
  cases named

/-- In a run, no delete that answers Ok removes a participant of a recorded graph exactly when
what each such delete had read of the branches showed every graph that held the participant at the
removal. -/
theorem removals_spare_iff (setup : Setup) (environment : Environment) (world : World)
    (operations : List Operation) (schedule : List Nat) :
    let ended := (staffed setup world operations).run (World.handle environment) schedule
    Pool.Steps (World.handle environment)
        (fun pool place => endedOk ended place = true → SparesCuts environment pool place)
        (staffed setup world operations) schedule ↔
      Pool.Steps (World.handle environment)
        (fun pool place => endedOk ended place = true → SawCuts environment pool place)
        (staffed setup world operations) schedule := by
  intro ended
  apply operator_steps_iff
  · intro pool place spares answered client name role removes branch cut
    exact absurd cut (spares answered client name role removes branch)
  · intro pool place held saw answered
    exact spares_of_saw held (saw answered)

end Removals

section Examples

/-- Trunk holds a pin of a Consumer. -/
def trunkDatabase : Database :=
  [(1, .ensureService "p"), (2, .ensureClient "shop"), (6, .recordTrunkPins [shopPin])].foldl
    Database.after .empty

/-- A Consumer is deleted while a release is cut. -/
def cutWhileDeleted : List Operation :=
  [.deleteConsumer "shop", .createBranch { name := "r1", createdBy := "rel" }]

def removesPinned (environment : Environment) (pool : Operators) (place : Nat) : Bool :=
  match (pool.clients[place]?).bind Client.next? with
  | some (.repo (.deleteConsumer name)) =>
      (environment.fault pool.state.steps).isNone && known pool.state.store name .consumer &&
        pool.state.store.branches.any fun branch =>
          (pool.state.store.branchPinsOf branch.id).any fun row =>
            row.validTo.isNone && namesParticipant name .consumer (pinInfo row)
  | _ => false

theorem removesPinned_spec {pool : Operators} {place : Nat}
    (removes : removesPinned environment pool place = true) :
    ∃ client name branch, RemovesNow environment pool place client name .consumer ∧
      InCut pool.state.store name .consumer branch := by
  unfold removesPinned at removes
  split at removes
  · rename_i name next
    obtain ⟨client, found, issued⟩ := Option.bind_eq_some_iff.mp next
    simp only [Bool.and_eq_true, Option.isNone_iff_eq_none, List.any_eq_true] at removes
    obtain ⟨⟨performed, known⟩, branch, there, row, held, stays, named⟩ := removes
    exact ⟨client, name, branch, ⟨⟨found, issued⟩, performed, known⟩, there, row, held, stays, named⟩
  · cases removes

/-- The branch is opened and filled between the check and the removal, and both answer Ok. -/
theorem consumer_of_cut_removed :
    let start := staffed quietSetup ⟨trunkDatabase, 10⟩ cutWhileDeleted
    (∃ client name branch,
      RemovesNow steadyEnvironment
        (start.run (World.handle steadyEnvironment) [0, 1, 1, 1, 1, 1]) 0 client name .consumer ∧
      InCut (start.run (World.handle steadyEnvironment) [0, 1, 1, 1, 1, 1]).state.store name .consumer
        branch) ∧
    ∀ place < 2, endedOk (start.run (World.handle steadyEnvironment)
      ([0, 1, 1, 1, 1, 1] ++ [0, 0, 0, 0, 0, 0, 1, 1, 1])) place = true := by
  constructor
  · exact removesPinned_spec (by decide +kernel)
  · decide +kernel

end Examples
end Sanshain.Guarantees
