import Sanshain.Application.Webhooks

namespace Sanshain.Application

open Sanshain.Data Sanshain.Domain Sanshain.Document Sanshain.Effects Sanshain.Text

/-- The reader and the writer of RFC 3339 instants. -/
structure InstantFormat where
  parse : String → Except String Instant
  render : Instant → String

def normalizeInstant (format : InstantFormat) (field raw : String) : Except AppError Instant :=
  (format.parse raw).mapError fun reason =>
    .badRequest s!"{field} is not an RFC 3339 instant: {reason}"

/-- The names that the built-in graphs and streams claim. -/
def reservedBranchNames : List String := ["main", "dev", "trunk"]

def validateBranchName (name : String) : Except AppError Unit :=
  if name = "" then .error (.badRequest "a sanshain-branch needs a non-empty name")
  else if name ∈ reservedBranchNames then
    .error (.badRequest s!"'{name}' is reserved for the built-in graph views and streams, and cannot name a sanshain-branch")
  else .ok ()

structure CreateBranchParams where
  name : String
  source : Option String := none
  asOf : Option String := none
  createdBy : String
  deriving DecidableEq, Repr

def branchCutData (format : InstantFormat) (name source : String) (asOf cutAt : Instant)
    (createdBy : String) : Value :=
  .object [("name", .string name), ("source", .string source), ("as_of", .string (format.render asOf)),
    ("cut_at", .string (format.render cutAt)), ("actor", .string createdBy)]

def EventAudience.global : EventAudience := ⟨none, [], false⟩

/-- The branch that a name stands for, where there has to be one. -/
def existingBranch (name suffix : String) : UseCase BranchInfo := do
  match ← repo (.findBranch name) with
  | some branch => .done branch
  | none => .fail (.notFound s!"no sanshain-branch '{name}'{suffix}")

/-- The source of a cut: trunk when none is named. -/
def cutSource : Option String → UseCase (Option BranchInfo)
  | none => .done none
  | some name => (existingBranch name " to branch from").bind fun branch => .done (some branch)

def sourceLabel (source : Option BranchInfo) : String := (source.map (·.name)).getD "trunk"

/-- The instant a cut is taken at: now when none is given. -/
def cutInstant (format : InstantFormat) : Option String → UseCase Instant
  | some raw => .ofExcept (normalizeInstant format "as_of" raw)
  | none => nowIso

/-- The row of a new branch, whose name has to be free. -/
def openBranch (name : String) (now : Instant) (createdBy source : String) (asOf : Instant)
    (outbox : List NewWebhookEvent) : UseCase Nat := do
  match ← tryRepo (.insertBranch name now createdBy source asOf outbox) with
  | .ok branchId => .done branchId
  | .error .conflict => .fail (.conflict s!"a sanshain-branch named '{name}' already exists — pick another name, or have an admin rename/delete the existing one")
  | .error reason => .fail reason.toAppError

/-- The pins of the source, then its periphery: the second is not copied when the first fails. -/
def copyGraph (branchId : Nat) (source : Option BranchInfo) (asOf now : Instant) :
    UseCase (Except RepositoryError Unit) :=
  match source with
  | some source => do
      match ← tryRepo (.copyBranchPinsToBranch branchId source.id asOf now) with
      | .error reason => .done (.error reason)
      | .ok () => tryRepo (.copyBranchPeripheryToBranch branchId source.id asOf now)
  | none => do
      match ← tryRepo (.copyTrunkPinsToBranch branchId asOf now) with
      | .error reason => .done (.error reason)
      | .ok () => tryRepo (.copyTrunkPeripheryToBranch branchId asOf now)

/-- An audit row that is written if it can be. -/
def auditBranch (username action details : String) : UseCase Unit := do
  let _ ← tryRepo (.insertAuditLog username
    { action := action, details := details, actionType := some "WRITE" })
  .done ()

/-- The number of branches is reported, if it can be read. -/
def reportBranches : UseCase Unit := do
  let _ ← tryRepo .listBranches
  .done ()

/-- What remains of a cut once its row is there: a copy that fails takes the row away again. -/
def fillBranch (format : InstantFormat) (branch : BranchInfo) (source : Option BranchInfo) :
    UseCase BranchInfo := do
  match ← copyGraph branch.id source branch.asOf branch.createdAt with
  | .error reason => do
      let _ ← tryRepo (.deleteBranch branch.id)
      .fail reason.toAppError
  | .ok () => do
      auditBranch branch.createdBy "BRANCH_CREATED"
        s!"Created sanshain-branch '{branch.name}' from {branch.source} as of {format.render branch.asOf}"
      reportBranches
      .done branch

def createBranch (deployment : Deployment) (format : InstantFormat) (params : CreateBranchParams) :
    UseCase BranchInfo := do
  let name := trim params.name
  Program.ofExcept (validateBranchName name)
  let asOf ← cutInstant format params.asOf
  let source ← cutSource params.source
  let now ← nowIso
  let event ← planEvent deployment .branchCut .global
    (branchCutData format name (sourceLabel source) asOf now params.createdBy)
  let branchId ← openBranch name now params.createdBy (sourceLabel source) asOf event.toList
  fillBranch format ⟨branchId, name, now, params.createdBy, sourceLabel source, asOf⟩ source

/-- A branch keeps its identity and its record under another name. -/
def renameBranch (name newName actor : String) : UseCase BranchInfo := do
  let newName := trim newName
  Program.ofExcept (validateBranchName newName)
  let branch ← existingBranch name ""
  match ← tryRepo (.renameBranch branch.id newName) with
  | .error .conflict => .fail (.conflict s!"a sanshain-branch named '{newName}' already exists")
  | .error reason => .fail reason.toAppError
  | .ok () => do
      auditBranch actor "BRANCH_RENAMED" s!"Renamed sanshain-branch '{name}' to '{newName}'"
      .done { branch with name := newName }

def deleteBranch (name actor : String) : UseCase Unit := do
  let branch ← existingBranch name ""
  repo (.deleteBranch branch.id)
  auditBranch actor "BRANCH_DELETED" s!"Deleted sanshain-branch '{name}' — the name is free again"
  reportBranches

end Sanshain.Application
