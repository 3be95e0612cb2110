import Sanshain.Application.Catalog

namespace Sanshain.Application

open Sanshain.Data Sanshain.Domain Sanshain.Effects Sanshain.Text

section Participants

/-- Which side of an edge a delete removes: one name may appear as both. -/
inductive ParticipantRole where
  | consumer
  | producer
  deriving DecidableEq, Repr

/-- The branches that hold a Producer through a pin or a member version alone. -/
def memberBranches (name : String) : ParticipantRole → UseCase (List String)
  | .producer => do
      match ← repo (.findService name) with
      | some serviceId => repo (.listBranchMembershipsForService serviceId)
      | none => .done []
  | .consumer => .done []

/-- Whether a pin names the participant on this side. -/
def namesParticipant (name : String) (role : ParticipantRole) (pin : PinInfo) : Bool :=
  match role with
  | .consumer => pin.client = name
  | .producer => pin.service = name

def branchTouched (name : String) (role : ParticipantRole) (members referencing : List String)
    (branch : BranchInfo) : UseCase (List String) := do
  let pins ← repo (.listBranchPins branch.id none)
  .done (if pins.any (namesParticipant name role) || members.contains branch.name then
    referencing ++ [branch.name] else referencing)

/-- The branches whose recorded graph references the participant. -/
def listParticipantBranchReferences (name : String) (role : ParticipantRole) :
    UseCase (List String) := do
  let members ← memberBranches name role
  let branches ← repo .listBranches
  Program.foldEach (branchTouched name role members) [] branches

def refuseIfAReleaseGraphNeedsIt (name : String) (role : ParticipantRole) : UseCase Unit := do
  let branches ← listParticipantBranchReferences name role
  if branches.isEmpty then .done ()
  else
    let names := join ", " branches
    .fail (.conflict s!"'{name}' is part of the recorded graph of sanshain-branch(es) {names} — deleting it would remove those edges from release cuts that already happened. Delete the branch(es) first if the record is no longer needed.")

/-- A participant goes unless a release graph needs it, and leaves nothing in the catalog when
it has no other role. -/
def removeParticipant (name : String) (role : ParticipantRole) (remove : UseCase Bool) :
    UseCase Bool := do
  refuseIfAReleaseGraphNeedsIt name role
  let deleted ← remove
  if deleted then do
    closeCatalogOfDeparted [name]
    .done deleted
  else .done deleted

def deleteProducer (name : String) : UseCase Bool :=
  removeParticipant name .producer (repo (.deleteProducer name))

def deleteConsumer (name : String) : UseCase Bool :=
  removeParticipant name .consumer (repo (.deleteConsumer name))

end Participants

section Bulk

/-- Only participants that this removes lose their periphery and context. -/
def deleteAllServices : UseCase Nat := do
  let before ← participants
  let deleted ← repo .deleteAllServices
  closeCatalogOfDeparted before
  .done deleted

def deleteAllClients : UseCase Nat := do
  let before ← participants
  let deleted ← repo .deleteAllClients
  closeCatalogOfDeparted before
  .done deleted

def nukeDatabase : UseCase Unit := repo .nukeDatabase

/-- The Consumers pinned to a version, and the branches whose graph holds it. -/
def versionDependents (entry : SpecVersionMeta) : UseCase (List String) := do
  let dependents ← repo (.listVersionDependents entry.id)
  let branches ← repo (.listBranchesReferencing entry.serviceId entry.apiType entry.version)
  .done (dependents ++ branches.map fun branch => s!"sanshain-branch '{branch}'")

/-- The one way out of the immutability of a release: its number is free again. -/
def deleteVersion (producer : String) (apiType : ApiType) (version : SemVer) :
    UseCase (List String) := do
  let entry ← findVersionEntry producer apiType version
  let dependents ← versionDependents entry
  let _ ← repo (.deleteSpecVersion entry.id)
  .done dependents

end Bulk

section Calls

/-- What deleting a participant may do. -/
inductive Deletes (name : String) (role : ParticipantRole) : Call → Prop
  | reads {request : Call} (reads : request.readsOnly = true) : Deletes name role request
  | producer (side : role = .producer) : Deletes name role (.repo (.deleteProducer name))
  | consumer (side : role = .consumer) : Deletes name role (.repo (.deleteConsumer name))
  | catalog {request : Call} (forgets : Forgets [name] request) : Deletes name role request

theorem reads_memberBranches (name : String) (role : ParticipantRole) :
    Reads (memberBranches name role) := by
  cases role with
  | consumer => exact .done []
  | producer =>
      refine (reads_repo rfl).bind fun found => ?_
      cases found with
      | none => exact .done []
      | some serviceId => exact reads_repo rfl

theorem reads_listParticipantBranchReferences (name : String) (role : ParticipantRole) :
    Reads (listParticipantBranchReferences name role) := by
  refine (reads_memberBranches name role).bind fun members => ?_
  refine (reads_repo rfl).bind fun branches => ?_
  exact .foldEach (fun referencing branch => (reads_repo rfl).bind fun pins => .done _) [] branches

theorem only_refuseIfAReleaseGraphNeedsIt (name : String) (role : ParticipantRole) :
    (refuseIfAReleaseGraphNeedsIt name role).Only (fun request => request.readsOnly = true)
      fun _ _ => True := by
  refine ((reads_listParticipantBranchReferences name role).mono (fun _ reads => reads)
    fun _ _ _ => trivial).bind fun branches => ?_
  split
  · exact .done ()
  · exact .fail fun _ => trivial

theorem only_removeParticipant {name : String} {role : ParticipantRole} {remove : UseCase Bool}
    (removes : remove.Only (Deletes name role) fun _ _ => True) :
    (removeParticipant name role remove).Only (Deletes name role) fun _ _ => True := by
  have refused : (refuseIfAReleaseGraphNeedsIt name role).Only (Deletes name role)
      fun _ _ => True :=
    (only_refuseIfAReleaseGraphNeedsIt name role).mono (fun _ reads => .reads reads)
      fun _ _ failed => failed
  have forgotten : (closeCatalogOfDeparted [name]).Only (Deletes name role) fun _ _ => True :=
    (only_closeCatalogOfDeparted [name]).mono (fun _ forgets => .catalog forgets)
      fun _ _ failed => failed
  refine refused.bind fun _ => removes.bind fun deleted => ?_
  split
  · exact forgotten.bind fun _ => .done _
  · exact .done _

theorem only_deleteProducer (name : String) :
    (deleteProducer name).Only (Deletes name .producer) fun _ _ => True :=
  only_removeParticipant ((only_repo (.producer rfl)).mono (fun _ removes => removes)
    fun _ _ _ => trivial)

/-- The recorded graphs were read, and none of them names the participant. -/
def Unreferenced (name : String) (role : ParticipantRole) (events : Calls) : Prop :=
  ∃ branches, Heard events .listBranches branches ∧ ∀ branch ∈ branches, ∃ pins,
    Heard events (.listBranchPins branch.id none) pins ∧
      ∀ pin ∈ pins, namesParticipant name role pin = false

/-- What removing a participant may do, and what it knows when it does. -/
inductive Removes (name : String) (role : ParticipantRole) (events : Calls) : Call → Prop
  | reads {request : Call} (reads : request.readsOnly = true) : Removes name role events request
  | producer (side : role = .producer) (unreferenced : Unreferenced name role events) :
      Removes name role events (.repo (.deleteProducer name))
  | consumer (side : role = .consumer) (unreferenced : Unreferenced name role events) :
      Removes name role events (.repo (.deleteConsumer name))
  | catalog {request : Call} (forgets : Forgets [name] request) : Removes name role events request

/-- A branch is touched when its pins, as they were read, name the participant. -/
theorem along_branchTouched {name : String} {role : ParticipantRole}
    {members referencing : List String} {branch : BranchInfo} {events : Calls} :
    (branchTouched name role members referencing branch).Along
      (fun _ request => request.readsOnly = true)
      (fun later touched => events <:+ later ∧ (touched = [] → referencing = [] ∧ ∃ pins,
        Heard later (.listBranchPins branch.id none) pins ∧
          ∀ pin ∈ pins, namesParticipant name role pin = false))
      (fun _ _ => True) events := by
  unfold branchTouched
  refine along_repo_bind rfl (fun _ => trivial) fun pins => ?_
  refine ⟨List.suffix_cons _ _, fun none => ?_⟩
  split at none
  · exact absurd none (by simp)
  · rename_i untouched
    simp only [Bool.or_eq_true, not_or, List.any_eq_true, not_exists, not_and,
      Bool.not_eq_true] at untouched
    exact ⟨none, pins, heard_now _ _ pins, untouched.1⟩

theorem along_listParticipantBranchReferences {name : String} {role : ParticipantRole}
    {events : Calls} :
    (listParticipantBranchReferences name role).Along (fun _ request => request.readsOnly = true)
      (fun later referencing => referencing = [] → Unreferenced name role later)
      (fun _ _ => True) events := by
  refine ((reads_memberBranches name role _).mono (fun _ _ reads => reads) (fun _ _ held => held)
    fun _ _ _ => trivial).seq fun later members _ _ => ?_
  refine along_repo_bind rfl (fun _ => trivial) fun branches => ?_
  refine (Program.along_foldEach (fun before referencing events =>
    Heard events .listBranches branches ∧
      (referencing = [] → ∀ branch ∈ before, ∃ pins,
        Heard events (.listBranchPins branch.id none) pins ∧
          ∀ pin ∈ pins, namesParticipant name role pin = false))
    ⟨heard_now _ _ branches, fun _ _ among => by cases among⟩ ?_).mono
    (fun _ _ reads => reads) ?_ fun _ _ failed => failed
  · intro before branch referencing events _ ⟨listed, clean⟩
    refine along_branchTouched.mono (fun _ _ reads => reads) ?_ fun _ _ failed => failed
    rintro later touched ⟨grown, untouched⟩
    refine ⟨listed.grow grown, fun none other among => ?_⟩
    obtain ⟨still, pins, heard, unnamed⟩ := untouched none
    rcases List.mem_append.mp among with earlier | here
    · obtain ⟨pins, heard, unnamed⟩ := clean still other earlier
      exact ⟨pins, heard.grow grown, unnamed⟩
    · rw [List.mem_singleton.mp here]
      exact ⟨pins, heard, unnamed⟩
  · rintro events referencing ⟨listed, clean⟩ none
    exact ⟨branches, listed, clean none⟩

theorem along_refuseIfAReleaseGraphNeedsIt {name : String} {role : ParticipantRole}
    {events : Calls} :
    (refuseIfAReleaseGraphNeedsIt name role).Along (fun _ request => request.readsOnly = true)
      (fun later _ => Unreferenced name role later) (fun _ _ => True) events := by
  refine along_listParticipantBranchReferences.seq fun later referencing _ clean => ?_
  split
  · rename_i none
    exact clean (List.isEmpty_iff.mp none)
  · trivial

/-- A participant is removed when no recorded graph that was read names it. -/
theorem along_removeParticipant {name : String} {role : ParticipantRole} {remove : UseCase Bool}
    (removes : ∀ events, Unreferenced name role events →
      remove.Along (Removes name role) (fun _ _ => True) (fun _ _ => True) events) :
    (removeParticipant name role remove).Along (Removes name role) (fun _ _ => True)
      (fun _ _ => True) [] := by
  have forgotten : (closeCatalogOfDeparted [name]).Only (Forgets [name]) fun _ _ => True :=
    only_closeCatalogOfDeparted [name]
  refine (along_refuseIfAReleaseGraphNeedsIt.mono (fun _ _ reads => .reads reads)
    (fun _ _ held => held) fun _ _ failed => failed).seq fun later _ _ unreferenced => ?_
  refine (removes later unreferenced).seq fun last deleted _ _ => ?_
  split
  · exact ((forgotten last).mono (fun _ _ forgets => .catalog forgets) (fun _ _ held => held)
      fun _ _ failed => failed).seq fun _ _ _ _ => trivial
  · trivial

theorem along_deleteProducer (name : String) :
    (deleteProducer name).Along (Removes name .producer) (fun _ _ => True) (fun _ _ => True) [] :=
  along_removeParticipant fun _ unreferenced =>
    along_repo.mpr ⟨.producer rfl unreferenced, fun _ => trivial, fun _ => trivial⟩

theorem along_deleteConsumer (name : String) :
    (deleteConsumer name).Along (Removes name .consumer) (fun _ _ => True) (fun _ _ => True) [] :=
  along_removeParticipant fun _ unreferenced =>
    along_repo.mpr ⟨.consumer rfl unreferenced, fun _ => trivial, fun _ => trivial⟩

end Calls
end Sanshain.Application
