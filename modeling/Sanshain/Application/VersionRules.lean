import Sanshain.Document.SpecText

namespace Sanshain.Application

open Sanshain.Data Sanshain.Domain Sanshain.Document
open OpenApiDocument (EndpointSpec)

section Proposals

/-- The first number from the proposal on that is not taken; a number that no longer moves and
is taken is never left, and the loop has no answer. -/
def proposeFrom (step : SemVer → SemVer) (taken : List SemVer) : Nat → SemVer → Option SemVer
  | 0, _ => none
  | fuel + 1, proposal =>
      if proposal ∈ taken then proposeFrom step taken fuel (step proposal) else some proposal

/-- One attempt more than there are taken numbers meets a free one, unless a number repeats. -/
def proposeFree (line : List SpecVersionMeta) (candidate : SemVer) : Option SemVer :=
  proposeFrom (·.increment .patch) (line.map (·.version)) (line.length + 1) candidate

/-- The number a second line of work is sent to. -/
def proposeFreeMinor (line : List SpecVersionMeta) (version : SemVer) : Option SemVer :=
  proposeFrom (·.increment .minor) (line.map (·.version)) (line.length + 1)
    (version.increment .minor)

theorem proposeFrom_not_mem {step : SemVer → SemVer} {taken : List SemVer} {fuel : Nat}
    {candidate proposed : SemVer} (found : proposeFrom step taken fuel candidate = some proposed) :
    proposed ∉ taken := by
  induction fuel generalizing candidate with
  | zero => cases found
  | succ fuel ih =>
      rw [proposeFrom] at found
      split at found
      · exact ih found
      · rename_i free
        cases found
        exact free

theorem proposeFree_not_mem {line : List SpecVersionMeta} {candidate proposed : SemVer}
    (found : proposeFree line candidate = some proposed) : proposed ∉ line.map (·.version) :=
  proposeFrom_not_mem found

theorem proposeFreeMinor_not_mem {line : List SpecVersionMeta} {version proposed : SemVer}
    (found : proposeFreeMinor line version = some proposed) : proposed ∉ line.map (·.version) :=
  proposeFrom_not_mem found

end Proposals

/-- Breaking is major, additive is minor, the same shape is a patch. -/
def classifyChange (external : External) (apiType : ApiType) (oldContent newContent : String)
    (inserts : Nat) : Option Impact :=
  let counted := if 0 < inserts then Impact.minor else .patch
  match checkCompatibility external apiType oldContent newContent with
  | .endless => none
  | .refuse _ => some .major
  | .pass =>
      match apiType with
      | .openApi =>
          (OpenApiDocument.analyzeImpact external oldContent newContent).map fun impact =>
            impact.max counted
      | _ => some counted

section Endpoints

def endpointMapKey (endpoint : EndpointRecord) : String × String :=
  (endpoint.normalizedPath, endpoint.method)

/-- The counts after the submitted endpoints have each met what is left of the stored ones. -/
def diffAgainst : Entries (String × String) EndpointRecord → List EndpointSpec → ProvideChanges →
    ProvideChanges
  | stored, [], changes => { changes with deletes := stored.length }
  | stored, endpoint :: rest, changes =>
      let key := (endpoint.normalizedPath, endpoint.method)
      match stored.get? key with
      | none => diffAgainst stored rest { changes with inserts := changes.inserts + 1 }
      | some existing =>
          let changed := existing.yamlContent ≠ endpoint.yamlContent ∨
            existing.path ≠ endpoint.path ∨ existing.deprecated ≠ endpoint.deprecated
          diffAgainst (stored.erase key) rest
            (if changed then { changes with updates := changes.updates + 1 } else changes)

def diffEndpoints (old : List EndpointRecord) (new : List EndpointSpec) : ProvideChanges :=
  diffAgainst (Entries.insertAll [] (old.map fun endpoint => (endpointMapKey endpoint, endpoint)))
    new {}

end Endpoints

section Baseline

/-- The entry with the largest version, the last of equals. -/
def latest : List SpecVersionMeta → Option SpecVersionMeta
  | [] => none
  | entry :: rest => match latest rest with
      | none => some entry
      | some later => if later.version < entry.version then some entry else some later

/-- The highest GA of the line strictly below the incoming version. -/
def gaBaseline (line : List SpecVersionMeta) (below : SemVer) : Option SpecVersionMeta :=
  latest (line.filter fun entry => entry.stability = .ga ∧ entry.version < below)

theorem latest_none {line : List SpecVersionMeta} : latest line = none ↔ line = [] := by
  cases line with
  | nil => simp [latest]
  | cons entry rest =>
      rw [latest]
      split
      · simp
      · split <;> simp

theorem latest_mem {line : List SpecVersionMeta} {entry : SpecVersionMeta}
    (found : latest line = some entry) : entry ∈ line := by
  induction line with
  | nil => cases found
  | cons first rest ih =>
      rw [latest] at found
      split at found
      · cases found
        exact List.mem_cons_self
      · rename_i later held
        split at found
        · cases found
          exact List.mem_cons_self
        · cases found
          exact List.mem_cons_of_mem _ (ih held)

theorem latest_max {line : List SpecVersionMeta} {entry other : SpecVersionMeta}
    (found : latest line = some entry) (among : other ∈ line) : other.version ≤ entry.version := by
  induction line generalizing entry with
  | nil => cases among
  | cons first rest ih =>
      rw [latest] at found
      split at found
      · rename_i empty
        cases found
        rw [latest_none.mp empty, List.mem_singleton] at among
        exact among ▸ le_rfl
      · rename_i later held
        split at found
        · rename_i less
          cases found
          rcases List.mem_cons.mp among with rfl | behind
          · exact le_rfl
          · exact (ih held behind).trans less.le
        · rename_i notLess
          cases found
          rcases List.mem_cons.mp among with rfl | behind
          · exact not_lt.mp notLess
          · exact ih held behind

theorem gaBaseline_spec {line : List SpecVersionMeta} {below : SemVer} {entry : SpecVersionMeta}
    (found : gaBaseline line below = some entry) :
    entry ∈ line ∧ entry.stability = .ga ∧ entry.version < below ∧
      ∀ other ∈ line, other.stability = .ga → other.version < below →
        other.version ≤ entry.version := by
  have among := latest_mem found
  simp only [List.mem_filter, decide_eq_true_eq] at among
  refine ⟨among.1, among.2.1, among.2.2, fun other held ga less => ?_⟩
  exact latest_max found (List.mem_filter.mpr ⟨held, by simp [ga, less]⟩)

theorem gaBaseline_none {line : List SpecVersionMeta} {below : SemVer} :
    gaBaseline line below = none ↔
      ∀ other ∈ line, other.stability = .ga → ¬ other.version < below := by
  rw [gaBaseline, latest_none, List.filter_eq_nil_iff]
  simp

end Baseline
end Sanshain.Application
