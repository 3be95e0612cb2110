import Sanshain.Guarantees.Immutability
import Sanshain.Guarantees.Operators
import Sanshain.Infrastructure.Timeline

namespace Sanshain.Guarantees

open Sanshain.Data Sanshain.Domain Sanshain.Effects Sanshain.Application Sanshain.Infrastructure

/-- The calls that leave the record of a branch alone: it is not deleted, the database is not
reset, and what is required into it is required later. -/
def Leaves (branchId : Nat) (instant : Instant) : Operation → RepoCall → Prop
  | .deleteBranch _ _, .deleteBranch target => target ≠ branchId
  | .nukeDatabase, .nukeDatabase => False
  | .act _, .recordBranchPins target pins => target = branchId → ∀ pin ∈ pins, instant < pin.nowIso
  | _, _ => True

/-- The operator whose turn it is leaves the record of the branch alone. -/
def LeavesRecord (branchId : Nat) (instant : Instant) (operations : List Operation)
    (pool : Operators) (place : Nat) : Prop :=
  ∀ client request, pool.Issues place client (.repo request) →
    ∀ operation, operations[place]? = some operation → Leaves branchId instant operation request

section Writers

variable {deployment : Deployment} {operation : Operation} {events : Calls} {request : RepoCall}

/-- A branch is filled by the cut that opened it, and taken away by that cut or as such. -/
theorem targets_own {branchId : Nat} (allowed : operation.Allows deployment events (.repo request))
    (target : request.target? = some branchId) :
    Opened branchId events ∨
      (∃ name actor, operation = .deleteBranch name actor) ∧ request = .deleteBranch branchId := by
  have administers : request.administers = true := by
    cases request <;> first | rfl | cases target
  cases allowed with
  | reads reads =>
      have plain := RepoCall.plain_of_readsOnly reads
      rw [administers] at plain
      cases plain
  | acts action same other allowed =>
      have plain := allows_plain other allowed
      rw [administers] at plain
      cases plain
  | removes name role participant removes =>
      cases removes with
      | reads reads =>
          have plain := RepoCall.plain_of_readsOnly reads
          rw [administers] at plain
          cases plain
      | producer side unreferenced => cases target
      | consumer side unreferenced => cases target
      | catalog forgets =>
          cases forgets with
          | reads reads =>
              have plain := RepoCall.plain_of_readsOnly reads
              rw [administers] at plain
              cases plain
          | periphery system among now => cases target
          | context system among => cases target
  | cuts params same cuts =>
      cases cuts with
      | reads reads =>
          have plain := RepoCall.plain_of_readsOnly reads
          rw [administers] at plain
          cases plain
      | opens name createdAt createdBy source asOf outbox => cases target
      | fills opened' opened filled =>
          rw [target] at filled
          cases filled
          exact .inl opened
      | audits username log => cases target
  | plain plain =>
      right
      cases request with
      | deleteBranch gone =>
          cases target
          cases operation with
          | deleteBranch name actor => exact ⟨⟨name, actor, rfl⟩, rfl⟩
          | _ => cases plain
      | copyTrunkPinsToBranch => cases operation <;> cases plain
      | copyTrunkPeripheryToBranch => cases operation <;> cases plain
      | copyBranchPinsToBranch => cases operation <;> cases plain
      | copyBranchPeripheryToBranch => cases operation <;> cases plain
      | _ => cases target

/-- Pins are recorded in a branch by what clients do. -/
theorem records_act {branchId : Nat} {pins : List RecordPinParams}
    (allowed : operation.Allows deployment events (.repo (.recordBranchPins branchId pins))) :
    ∃ action, operation = .act action := by
  cases allowed with
  | reads reads => cases reads
  | acts action same other allowed => exact ⟨action, same⟩
  | removes name role participant removes =>
      cases removes with
      | reads reads => cases reads
      | catalog forgets => cases forgets with | reads reads => cases reads
  | cuts params same cuts =>
      cases cuts with
      | reads reads => cases reads
      | fills opened' opened filled => cases filled
  | plain plain => cases operation <;> cases plain

theorem resets_nuke (allowed : operation.Allows deployment events (.repo .nukeDatabase)) :
    operation = .nukeDatabase := by
  cases allowed with
  | reads reads => cases reads
  | acts action same other allowed => cases allows_plain other allowed
  | removes name role participant removes =>
      cases removes with
      | reads reads => cases reads
      | catalog forgets => cases forgets with | reads reads => cases reads
  | cuts params same cuts =>
      cases cuts with
      | reads reads => cases reads
      | fills opened' opened filled => cases filled
  | plain plain =>
      cases operation with
      | nukeDatabase => rfl
      | _ => cases plain

/-- What an operation does to the pins of a branch that it did not open, and leaves alone. -/
theorem Leaves.kept {branchId : Nat} {instant : Instant} (now : Instant)
    (leaves : Leaves branchId instant operation request)
    (allowed : operation.Allows deployment events (.repo request)) (other : ¬ Opened branchId events) :
    keepsPins (.branch branchId) request ∧
      ∀ stamp ∈ pinStamps now (.branch branchId) request, instant < stamp := by
  cases request with
  | recordBranchPins target pins =>
      obtain ⟨action, rfl⟩ := records_act allowed
      refine ⟨trivial, fun stamp among => ?_⟩
      rw [pinStamps] at among
      split at among
      · rename_i here
        obtain ⟨pin, held, rfl⟩ := List.mem_map.mp among
        exact leaves here pin held
      · cases among
  | copyTrunkPinsToBranch target asOf nowIso =>
      have away : target ≠ branchId := by
        rintro rfl
        obtain opened | ⟨-, same⟩ := targets_own allowed rfl
        · exact other opened
        · cases same
      exact ⟨trivial, fun stamp among => by simp [pinStamps, away] at among⟩
  | copyBranchPinsToBranch target source asOf nowIso =>
      have away : target ≠ branchId := by
        rintro rfl
        obtain opened | ⟨-, same⟩ := targets_own allowed rfl
        · exact other opened
        · cases same
      exact ⟨trivial, fun stamp among => by simp [pinStamps, away] at among⟩
  | deleteBranch target =>
      refine ⟨?_, fun stamp among => by cases among⟩
      rintro rfl
      obtain opened | ⟨⟨name, actor, rfl⟩, -⟩ := targets_own allowed rfl
      · exact other opened
      · exact leaves rfl
  | nukeDatabase =>
      obtain rfl := resets_nuke allowed
      exact leaves.elim
  | _ => exact ⟨trivial, fun stamp among => by cases among⟩

end Writers

section Runs

variable {setup : Setup} {environment : Environment}

/-- The branches an operator has opened are not this one. -/
def OpensOther (branchId : Nat) (client : Operator) : Prop := ¬ Opened branchId client.history

/-- A call that opens a branch answers with an identity that none had before. -/
theorem opens_other {branchId : Nat} {world : World} {client : Operator} {request : Call}
    (within : branchId < world.store.nextBranchId) (other : OpensOther branchId client) :
    ¬ Opened branchId (⟨request, (World.handle environment world request).2⟩ :: client.history) := by
  rintro ⟨name, createdAt, createdBy, source, asOf, outbox, heard⟩
  rcases List.mem_cons.mp heard with now | before
  · obtain ⟨rfl, answered⟩ := Event.mk.inj now
    have answered := eq_of_heq answered
    obtain ⟨reason, failed, -⟩ | performed := World.handle_repo environment world
      (.insertBranch name createdAt createdBy source asOf outbox)
    · rw [failed] at answered
      cases answered
    · rw [performed] at answered
      change Except.ok branchId = (Store.tried _ (Store.insertBranch _ _ _ _ _ _ _)).2 at answered
      obtain ⟨error, -, same⟩ | ⟨after, opened, inserted, same⟩ := Store.tried_cases world.store
        (world.store.insertBranch name createdAt createdBy source asOf outbox)
      · rw [same] at answered
        cases answered
      · rw [same] at answered
        cases answered
        obtain ⟨-, rfl, -⟩ := Store.insertBranch_cases inserted
        exact lt_irrefl _ within
  · exact other ⟨name, createdAt, createdBy, source, asOf, outbox, before⟩

/-- A release cut is a frozen record: whatever operations run, in any order of their steps, a
branch lists for an instant what it listed before, unless it is deleted, the database is reset or
something is required into it at that instant or earlier. -/
theorem branch_record_stands (world : World) (branch : BranchInfo)
    (there : branch ∈ world.store.branches) (instant : Instant) (operations : List Operation)
    (schedule : List Nat)
    (left : Pool.Steps (World.handle environment) (LeavesRecord branch.id instant operations)
      (staffed setup world operations) schedule) :
    (((staffed setup world operations).run (World.handle environment) schedule).state.store.listBranchPins
        branch.id (some instant)).map pinRecord =
      (world.store.listBranchPins branch.id (some instant)).map pinRecord := by
  let recorded (reached : World) : Prop :=
    (reached.store.listBranchPins branch.id (some instant)).map pinRecord =
      (world.store.listBranchPins branch.id (some instant)).map pinRecord ∧
        branch.id < reached.store.nextBranchId
  have begun : recorded world := ⟨rfl, world.database.linked.branchFresh branch there⟩
  have start : (staffed setup world operations).Holds recorded fun place client =>
      Obeys setup operations place client ∧ OpensOther branch.id client := by
    refine ⟨begun, fun place client found => ⟨(staffed_obeys begun).clients place client found, ?_⟩⟩
    rw [staffed, List.getElem?_map, Option.map_eq_some_iff] at found
    obtain ⟨operation, -, rfl⟩ := found
    rintro ⟨name, createdAt, createdBy, source, asOf, outbox, heard⟩
    cases heard
  refine (start.along ?_ left).state.1
  intro pool place client request rest held leaves found issued
  obtain ⟨records, within⟩ := held.state
  obtain ⟨obeys, other⟩ := held.clients place client found
  refine ⟨?_, obeys.turn issued _, opens_other within other⟩
  have next := next_of_call issued
  obtain ⟨operation, given, allowed⟩ := obeys.allows next
  cases request with
  | repo request =>
      have leaves := leaves client request ⟨found, next⟩ operation given
      obtain ⟨reason, failed, -⟩ | performed := World.handle_repo environment pool.state request
      · rw [failed]
        exact ⟨records, within⟩
      · rw [performed]
        obtain ⟨stays, later⟩ := Leaves.kept (environment.clock pool.state.steps) leaves allowed other
        refine ⟨?_, within.trans_le (Store.nextBranchId_le _ _ request)⟩
        exact (Store.listBranchPins_kept pool.state.store _ stays later).trans records
  | _ => exact ⟨records, within⟩

end Runs

section Examples

def shopPin : RecordPinParams where
  clientId := 1
  serviceId := 1
  apiType := .proto
  version := ⟨1, 0, 0⟩
  path := "/p.S/Get"
  normalizedPath := "/p.S/Get"
  method := "RPC"
  nowIso := 6

def releaseCut : BranchInfo where
  id := 1
  name := "r1"
  createdAt := 5
  createdBy := "rel"
  source := "trunk"
  asOf := 5

/-- A release cut whose record holds one pin. -/
def cutDatabase : Database :=
  [(1, .ensureService "p"), (2, .ensureClient "shop"), (5, .insertBranch "r1" 5 "rel" "trunk" 5 []),
    (6, .recordBranchPins 1 [shopPin])].foldl Database.after .empty

/-- The record outlasts its participants. -/
theorem branch_record_stands_swept :
    (((staffed quietSetup ⟨cutDatabase, 0⟩ [.deleteAllServices, .deleteAllClients]).run
        (World.handle steadyEnvironment) [0, 1, 0, 1, 0, 1, 0, 0, 0, 1, 1, 1]).state.store.listBranchPins 1
          (some 7)).map pinRecord =
      [⟨"shop", "p", .proto, ⟨1, 0, 0⟩, "/p.S/Get", "/p.S/Get", "RPC"⟩] := by
  have left := @Pool.Steps.of_always _ _ _ _ _ (World.handle steadyEnvironment)
    (LeavesRecord 1 7 [.deleteAllServices, .deleteAllClients])
    (by
      intro pool place client request _ operation given
      have among := List.mem_of_getElem? given
      simp only [List.mem_cons, List.not_mem_nil, or_false] at among
      rcases among with rfl | rfl <;> trivial)
    (staffed quietSetup ⟨cutDatabase, 0⟩ [.deleteAllServices, .deleteAllClients])
    [0, 1, 0, 1, 0, 1, 0, 0, 0, 1, 1, 1]
  have there : releaseCut ∈ cutDatabase.store.branches := by decide
  have listed : (cutDatabase.store.listBranchPins 1 (some 7)).map pinRecord =
      [⟨"shop", "p", .proto, ⟨1, 0, 0⟩, "/p.S/Get", "/p.S/Get", "RPC"⟩] := by decide +kernel
  exact (branch_record_stands ⟨cutDatabase, 0⟩ releaseCut there 7 _ _ left).trans listed

end Examples
end Sanshain.Guarantees
