import Sanshain.Application.Graphs
import Sanshain.Text.Fields

namespace Sanshain.Application

open Sanshain.Domain Sanshain.Effects Sanshain.Text

/-- A graph selector `name[@instant]`: what follows the last `@` is an instant only when it is read as
one, and a name otherwise, unless what precedes it can be no branch name. -/
def splitSelector (format : InstantFormat) (raw : String) : Except AppError (String × Option Instant) :=
  match rsplitOnce '@' raw.toList with
  | none => .ok (raw, none)
  | some (front, back) =>
      let name := String.ofList front
      match normalizeInstant format "the selector's instant" (String.ofList back) with
      | .ok normalized => .ok (name, some normalized)
      | .error error => if name ∈ reservedBranchNames then .error error else .ok (raw, none)

/-- The scope of a report, `dev` when none is given. -/
def ReportScope.parse (format : InstantFormat) : Option String → Except AppError ReportScope
  | none => .ok .dev
  | some raw => do
      let (name, instant) ← splitSelector format raw
      if name = "dev" then
        match instant with
        | none => .ok .dev
        | some _ => .error (.badRequest "the dev scope is accumulated activity and has no timeline — read main or a sanshain-branch at an instant instead")
      else if name = "main" then .ok (.main instant)
      else .ok (.branch name instant)

/-- The trunk graph, current or at an instant. -/
def mainSelection (instant : Option Instant) : UseCase (List PinInfo × List PeripheralDependency) := do
  let pins ← match instant with
    | some instant => repo (.listTrunkPinsAt instant)
    | none => repo .listCurrentTrunkPins
  let periphery ← repo (.listPeriphery .trunk instant)
  .done (pins, periphery)

/-- The graph of a branch, current or at an instant. -/
def branchSelection (name : String) (instant : Option Instant) :
    UseCase (List PinInfo × List PeripheralDependency) := do
  let branch ← existingBranch name ""
  let pins ← repo (.listBranchPins branch.id instant)
  let periphery ← repo (.listPeriphery (.branch branch.id) instant)
  .done (pins, periphery)

/-- One side of a graph diff: its pins and its periphery at the same instant. -/
def resolveGraphSelection (format : InstantFormat) (raw : String) :
    UseCase (List PinInfo × List PeripheralDependency) := do
  let (name, instant) ← Program.ofExcept (splitSelector format raw)
  if name = "main" then mainSelection instant else branchSelection name instant

/-- The selector an answer was computed for. -/
structure ScopeStamp where
  scope : String
  instant : Option String
  deriving DecidableEq, Repr

/-- A scope and an instant as one selector; an empty instant is none. -/
def parseScope (format : InstantFormat) (scope instant : Option String) :
    Except AppError (ReportScope × ScopeStamp) :=
  let name := scope.getD "dev"
  let given := instant.filter (· ≠ "")
  if name = "" then .error (.badRequest "scope must not be empty")
  else
    let selector := match given with
      | some instant => s!"{name}@{instant}"
      | none => name
    (ReportScope.parse format (some selector)).map fun parsed => (parsed, ⟨name, given⟩)

end Sanshain.Application
