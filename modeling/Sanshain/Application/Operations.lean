import Sanshain.Application.Actions
import Sanshain.Application.Graphs

namespace Sanshain.Application

open Sanshain.Data Sanshain.Domain Sanshain.Document Sanshain.Effects

-- the check of a name is not computed to see what a program goes on with
attribute [local irreducible] validateBranchName

/-- What clients, releasers and administrators may ask of the service. -/
inductive Operation where
  | act (action : Action)
  | deleteConsumer (name : String)
  | deleteAllServices
  | deleteAllClients
  | nukeDatabase
  | deleteVersion (producer : String) (apiType : ApiType) (version : SemVer)
  | cleanupStaleTrunkData
  | createBranch (params : CreateBranchParams)
  | renameBranch (name newName actor : String)
  | deleteBranch (name actor : String)

inductive Reply where
  | outcome (outcome : Outcome)
  | deleted (deleted : Bool)
  | swept (count : Nat)
  | dependents (names : List String)
  | branch (branch : BranchInfo)
  | finished
  deriving DecidableEq, Repr

section Cuts

/-- The store answered that the branch is new. -/
def Opened (branchId : Nat) (events : Calls) : Prop :=
  ∃ name createdAt createdBy source asOf outbox,
    Heard events (.insertBranch name createdAt createdBy source asOf outbox) branchId

/-- What cutting a branch may do: it fills the branch it opened, or takes it away again. -/
inductive Cuts (events : Calls) : Call → Prop
  | reads {request : Call} (reads : request.readsOnly = true) : Cuts events request
  | opens (name : String) (createdAt : Instant) (createdBy source : String) (asOf : Instant)
      (outbox : List NewWebhookEvent) :
      Cuts events (.repo (.insertBranch name createdAt createdBy source asOf outbox))
  | fills {request : RepoCall} (branchId : Nat) (opened : Opened branchId events)
      (target : request.target? = some branchId) : Cuts events (.repo request)
  | audits (username : String) (log : NewAuditLog) : Cuts events (.repo (.insertAuditLog username log))

variable {deployment : Deployment} {format : InstantFormat} {events : Calls}

theorem Opened.cons {branchId : Nat} (opened : Opened branchId events)
    (event : Event Call Call.Answer) : Opened branchId (event :: events) := by
  obtain ⟨name, createdAt, createdBy, source, asOf, outbox, heard⟩ := opened
  exact ⟨name, createdAt, createdBy, source, asOf, outbox, heard.cons event⟩

theorem Opened.grow {branchId : Nat} {later : Calls} (opened : Opened branchId events)
    (grown : events <:+ later) : Opened branchId later := by
  obtain ⟨name, createdAt, createdBy, source, asOf, outbox, heard⟩ := opened
  exact ⟨name, createdAt, createdBy, source, asOf, outbox, heard.grow grown⟩

theorem along_copyGraph {branchId : Nat} (opened : Opened branchId events)
    (source : Option BranchInfo) (asOf now : Instant) :
    (copyGraph branchId source asOf now).Along Cuts (fun _ _ => True) (fun _ _ => True) events := by
  have filled : ∀ {request : RepoCall}, request.target? = some branchId →
      ∀ event, Cuts (event :: events) (.repo request) :=
    fun target event => .fills branchId (opened.cons event) target
  unfold copyGraph
  cases source with
  | none =>
      refine ⟨.fills branchId opened rfl, fun answer => ?_⟩
      cases answer with
      | error reason => trivial
      | ok done => exact ⟨filled rfl _, fun _ => trivial⟩
  | some source =>
      refine ⟨.fills branchId opened rfl, fun answer => ?_⟩
      cases answer with
      | error reason => trivial
      | ok done => exact ⟨filled rfl _, fun _ => trivial⟩

theorem along_fillBranch {branch : BranchInfo} (opened : Opened branch.id events)
    (source : Option BranchInfo) :
    (fillBranch format branch source).Along Cuts (fun _ _ => True) (fun _ _ => True) events := by
  refine (along_copyGraph opened source branch.asOf branch.createdAt).seq fun later copied grown _ => ?_
  cases copied with
  | error reason => exact ⟨.fills branch.id (opened.grow grown) rfl, fun _ => trivial⟩
  | ok done => exact ⟨.audits _ _, fun _ => ⟨.reads rfl, fun _ => trivial⟩⟩

/-- A cut reads its source before it opens the branch, and fills what it opened. -/
theorem along_createBranch (params : CreateBranchParams) :
    (createBranch deployment format params).Along Cuts (fun _ _ => True) (fun _ _ => True) [] := by
  have instant : (cutInstant format params.asOf).Only (fun request => request.readsOnly = true)
      fun _ _ => True := by
    unfold cutInstant
    split
    · exact .ofExcept fun _ _ _ => trivial
    · exact only_nowIso rfl
  have found : (cutSource params.source).Only (fun request => request.readsOnly = true)
      fun _ _ => True := by
    unfold cutSource
    split
    · exact .done none
    · refine Program.Only.bind (Program.Only.bind ((reads_repo rfl).mono (fun _ reads => reads)
        fun _ _ _ => trivial) fun branch => ?_) fun branch => .done _
      cases branch with
      | none => exact .fail fun _ => trivial
      | some branch => exact .done branch
  have reading : ∀ {Value : Type} {program : UseCase Value} {history : Calls},
      program.Only (fun request => request.readsOnly = true) (fun _ _ => True) →
        program.Along Cuts (fun _ _ => True) (fun _ _ => True) history :=
    fun only => (only _).mono (fun _ _ reads => .reads reads) (fun _ _ held => held)
      fun _ _ failed => failed
  refine (reading (.ofExcept fun _ _ _ => trivial)).seq fun _ _ _ _ => ?_
  refine (reading instant).seq fun _ asOf _ _ => ?_
  refine (reading found).seq fun _ source _ _ => ?_
  refine along_nowIso_bind (.reads rfl) fun now => ?_
  refine (reading ((reads_planEvent deployment _ _ _).mono (fun _ reads => reads)
    fun _ _ _ => trivial)).seq fun later event _ _ => ?_
  refine (Program.along_bind _ _).mpr ⟨.opens _ _ _ _ _ _, fun answer => ?_⟩
  cases answer with
  | ok branchId =>
      exact along_fillBranch ⟨_, _, _, _, _, _, heard_now _ _ branchId⟩ source
  | error reason => cases reason <;> trivial

end Cuts

namespace Operation

def program (deployment : Deployment) (forms : AnswerForms) (format : InstantFormat) :
    Operation → UseCase Reply
  | .act action => (action.program deployment forms).bind fun outcome => .done (.outcome outcome)
  | .deleteConsumer name => (Application.deleteConsumer name).bind fun deleted => .done (.deleted deleted)
  | .deleteAllServices => Application.deleteAllServices.bind fun count => .done (.swept count)
  | .deleteAllClients => Application.deleteAllClients.bind fun count => .done (.swept count)
  | .nukeDatabase => Application.nukeDatabase.bind fun _ => .done .finished
  | .deleteVersion producer apiType version =>
      (Application.deleteVersion producer apiType version).bind fun names => .done (.dependents names)
  | .cleanupStaleTrunkData => Application.cleanupStaleTrunkData.bind fun count => .done (.swept count)
  | .createBranch params =>
      (Application.createBranch deployment format params).bind fun branch => .done (.branch branch)
  | .renameBranch name newName actor =>
      (Application.renameBranch name newName actor).bind fun branch => .done (.branch branch)
  | .deleteBranch name actor => (Application.deleteBranch name actor).bind fun _ => .done .finished

/-- The participant that an operation removes after it has read the recorded graphs. -/
def removes? : Operation → Option (String × ParticipantRole)
  | .act (.deleteProducer name) => some (name, .producer)
  | .deleteConsumer name => some (name, .consumer)
  | _ => none

/-- The writes that the other operations make. -/
def plainly : Operation → RepoCall → Bool
  | .deleteAllServices, .deleteAllServices => true
  | .deleteAllClients, .deleteAllClients => true
  | .deleteAllServices, .reconcilePeriphery _ _ _ _ _ => true
  | .deleteAllServices, .deleteSystemContext _ => true
  | .deleteAllClients, .reconcilePeriphery _ _ _ _ _ => true
  | .deleteAllClients, .deleteSystemContext _ => true
  | .nukeDatabase, .nukeDatabase => true
  | .deleteVersion _ _ _, .deleteSpecVersion _ => true
  | .cleanupStaleTrunkData, .closeExpiredTrunkData _ _ => true
  | .renameBranch _ _ _, .renameBranch _ _ => true
  | .renameBranch _ _ _, .insertAuditLog _ _ => true
  | .deleteBranch _ _, .deleteBranch _ => true
  | .deleteBranch _ _, .insertAuditLog _ _ => true
  | _, _ => false

/-- Every call an operation may issue, with what it knows when it does. -/
inductive Allows (deployment : Deployment) (operation : Operation) (events : Calls) : Call → Prop
  | reads {request : Call} (reads : request.readsOnly = true) :
      Allows deployment operation events request
  | acts {request : Call} (action : Action) (same : operation = .act action)
      (other : ∀ name, action ≠ .deleteProducer name)
      (allowed : action.Allows deployment events request) :
      Allows deployment operation events request
  | removes {request : Call} (name : String) (role : ParticipantRole)
      (participant : operation.removes? = some (name, role))
      (removes : Removes name role events request) : Allows deployment operation events request
  | cuts {request : Call} (params : CreateBranchParams) (same : operation = .createBranch params)
      (cuts : Cuts events request) : Allows deployment operation events request
  | plain {request : RepoCall} (plain : operation.plainly request = true) :
      Allows deployment operation events (.repo request)

section Spec

variable {deployment : Deployment} {forms : AnswerForms} {format : InstantFormat}

/-- What an operation reads, and the writes it makes otherwise. -/
def Plain (operation : Operation) (request : Call) : Prop :=
  request.readsOnly = true ∨ ∃ wanted, request = .repo wanted ∧ operation.plainly wanted = true

theorem along_plain {operation : Operation} {Value : Type} {program : UseCase Value}
    (only : program.Only operation.Plain fun _ _ => True) (reply : Value → Reply) :
    (program.bind fun value => .done (reply value)).Along (operation.Allows deployment)
      (fun _ _ => True) (fun _ _ => True) [] := by
  refine ((only []).mono ?_ (fun _ _ held => held) fun _ _ failed => failed).seq fun _ _ _ _ => trivial
  rintro events request (reads | ⟨wanted, rfl, plain⟩)
  · exact .reads reads
  · exact .plain plain

theorem only_plain {operation : Operation} {request : RepoCall}
    (plain : request.readsOnly = true ∨ operation.plainly request = true) :
    (repo request).Only operation.Plain fun _ _ => True := by
  refine (only_repo ?_).mono (fun _ plain => plain) fun _ _ _ => trivial
  rcases plain with reads | plain
  · exact .inl reads
  · exact .inr ⟨request, rfl, plain⟩

theorem only_reading {operation : Operation} {Value : Type} {program : UseCase Value}
    (reads : Reads program) : program.Only operation.Plain fun _ _ => True :=
  reads.mono (fun _ reads => .inl reads) fun _ _ _ => trivial

theorem only_forgotten {operation : Operation} {candidates : List String}
    (periphery : ∀ system now, operation.plainly (.reconcilePeriphery system true [] now []) = true)
    (context : ∀ system, operation.plainly (.deleteSystemContext system) = true) :
    (closeCatalogOfDeparted candidates).Only operation.Plain fun _ _ => True := by
  refine (only_closeCatalogOfDeparted candidates).mono ?_ fun _ _ failed => failed
  intro request forgets
  cases forgets with
  | reads reads => exact .inl reads
  | periphery system among now => exact .inr ⟨_, rfl, periphery system now⟩
  | context system among => exact .inr ⟨_, rfl, context system⟩

theorem only_auditBranch {operation : Operation} {username action details : String}
    (audits : ∀ log, operation.plainly (.insertAuditLog username log) = true) :
    (auditBranch username action details).Only operation.Plain fun _ _ => True :=
  (only_tryRepo (.inr ⟨_, rfl, audits _⟩)).bind fun _ => .done ()

theorem only_existingBranch (operation : Operation) (name suffix : String) :
    (existingBranch name suffix).Only operation.Plain fun _ _ => True := by
  refine (only_plain (.inl rfl)).bind fun found => ?_
  cases found with
  | none => exact .fail fun _ => trivial
  | some branch => exact .done branch

theorem only_deleteAllServices :
    Application.deleteAllServices.Only (Plain .deleteAllServices) fun _ _ => True := by
  refine (only_reading reads_participants).bind fun before => ?_
  refine (only_plain (.inr rfl)).bind fun deleted => ?_
  exact (only_forgotten (fun _ _ => rfl) fun _ => rfl).bind fun _ => .done deleted

theorem only_deleteAllClients :
    Application.deleteAllClients.Only (Plain .deleteAllClients) fun _ _ => True := by
  refine (only_reading reads_participants).bind fun before => ?_
  refine (only_plain (.inr rfl)).bind fun deleted => ?_
  exact (only_forgotten (fun _ _ => rfl) fun _ => rfl).bind fun _ => .done deleted

theorem only_deleteVersion (producer : String) (apiType : ApiType) (version : SemVer) :
    (Application.deleteVersion producer apiType version).Only
      (Plain (.deleteVersion producer apiType version)) fun _ _ => True := by
  have entry : (findVersionEntry producer apiType version).Only
      (Plain (.deleteVersion producer apiType version)) fun _ _ => True := by
    refine (only_plain (.inl rfl)).bind fun found => ?_
    cases found with
    | none => exact .fail fun _ => trivial
    | some serviceId =>
        refine (only_plain (.inl rfl)).bind fun found => ?_
        cases found with
        | none => exact .fail fun _ => trivial
        | some entry => exact .done entry
  refine entry.bind fun entry => ?_
  refine Program.Only.bind (Program.Only.bind (only_plain (.inl rfl)) fun names =>
    (only_plain (.inl rfl)).bind fun branches => .done _) fun dependents => ?_
  exact (only_plain (.inr rfl)).bind fun _ => .done dependents

theorem only_cleanupStaleTrunkData :
    Application.cleanupStaleTrunkData.Only (Plain .cleanupStaleTrunkData) fun _ _ => True := by
  refine Program.Only.bind ((only_plain (.inl rfl)).bind fun stored => .done _) fun days => ?_
  split
  · exact .done 0
  · exact (only_nowIso (.inl rfl)).bind fun now => only_plain (.inr rfl)

theorem only_renameBranch (name newName actor : String) :
    (Application.renameBranch name newName actor).Only (Plain (.renameBranch name newName actor))
      fun _ _ => True := by
  refine Program.Only.bind (.ofExcept fun _ _ _ => trivial) fun _ => ?_
  refine (only_existingBranch _ name "").bind fun branch => ?_
  refine (only_tryRepo (.inr ⟨_, rfl, rfl⟩)).bind fun renamed => ?_
  cases renamed with
  | ok done => exact (only_auditBranch fun _ => rfl).bind fun _ => .done _
  | error reason => cases reason <;> exact .fail fun _ => trivial

theorem only_deleteBranch (name actor : String) :
    (Application.deleteBranch name actor).Only (Plain (.deleteBranch name actor)) fun _ _ => True := by
  refine (only_existingBranch _ name "").bind fun branch => ?_
  refine (only_plain (.inr rfl)).bind fun _ => ?_
  refine (only_auditBranch fun _ => rfl).bind fun _ => ?_
  exact (only_tryRepo (.inl rfl)).bind fun _ => .done ()

/-- Whatever the store answers, every operation keeps to its rules. -/
theorem along_program (operation : Operation) :
    (operation.program deployment forms format).Along (operation.Allows deployment)
      (fun _ _ => True) (fun _ _ => True) [] := by
  cases operation with
  | act action =>
      rw [program]
      by_cases other : ∀ name, action ≠ .deleteProducer name
      · exact ((Action.along_program deployment forms action).mono
          (fun _ _ allowed => .acts action rfl other allowed) (fun _ _ _ => trivial)
          fun _ _ _ => trivial).seq fun _ _ _ _ => trivial
      · obtain ⟨name, deletes⟩ := not_forall.mp other
        rw [not_not.mp deletes, Action.program, Program.bind_assoc]
        exact ((along_deleteProducer name).mono (fun _ _ removes => .removes name .producer rfl removes)
          (fun _ _ held => held) fun _ _ failed => failed).seq fun _ _ _ _ => trivial
  | deleteConsumer name =>
      rw [program]
      exact ((along_deleteConsumer name).mono (fun _ _ removes => .removes name .consumer rfl removes)
        (fun _ _ held => held) fun _ _ failed => failed).seq fun _ _ _ _ => trivial
  | createBranch params =>
      have cut : (Application.createBranch deployment format params).Along
          (Allows deployment (.createBranch params)) (fun _ _ => True) (fun _ _ => True) [] :=
        (along_createBranch params).mono (fun _ _ cuts => .cuts params rfl cuts)
          (fun _ _ held => held) fun _ _ failed => failed
      rw [program]
      exact cut.seq fun _ _ _ _ => trivial
  | deleteAllServices =>
      rw [program]
      exact along_plain only_deleteAllServices .swept
  | deleteAllClients =>
      rw [program]
      exact along_plain only_deleteAllClients .swept
  | nukeDatabase =>
      rw [program]
      exact along_plain (only_plain (.inr rfl)) fun _ => .finished
  | deleteVersion producer apiType version =>
      rw [program]
      exact along_plain (only_deleteVersion producer apiType version) .dependents
  | cleanupStaleTrunkData =>
      rw [program]
      exact along_plain only_cleanupStaleTrunkData .swept
  | renameBranch name newName actor =>
      rw [program]
      exact along_plain (only_renameBranch name newName actor) .branch
  | deleteBranch name actor =>
      rw [program]
      exact along_plain (only_deleteBranch name actor) fun _ => .finished

end Spec
end Operation
end Sanshain.Application
