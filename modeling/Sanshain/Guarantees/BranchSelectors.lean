import Sanshain.Application.Selectors
import Sanshain.Guarantees.Readings

namespace Sanshain.Guarantees

open Sanshain.Application Sanshain.Data Sanshain.Domain Sanshain.Effects Sanshain.Infrastructure Sanshain.Text

/-- The stamp of an answer says which graph was read, and at which instant. -/
def ScopeStamp.Names (format : InstantFormat) (stamp : ScopeStamp) : ReportScope → Prop
  | .dev => stamp = ⟨"dev", none⟩
  | .main instant => stamp.scope = "main" ∧ stamp.instant.map format.parse = instant.map .ok
  | .branch name instant => stamp.scope = name ∧ stamp.instant.map format.parse = instant.map .ok

/-- Every selector of a name, alone or with an instant, stands for the branch of that name. -/
structure Selectable (format : InstantFormat) (name : String) : Prop where
  split : splitSelector format name = .ok (name, none)
  splitAt : ∀ raw instant, format.parse raw = .ok instant →
    splitSelector format s!"{name}@{raw}" = .ok (name, some instant)
  scope : ReportScope.parse format (some name) = .ok (.branch name none)
  scopeAt : ∀ raw instant, format.parse raw = .ok instant →
    ReportScope.parse format (some s!"{name}@{raw}") = .ok (.branch name (some instant))
  graph : resolveGraphSelection format name = branchSelection name none
  graphAt : ∀ raw instant, format.parse raw = .ok instant →
    resolveGraphSelection format s!"{name}@{raw}" = branchSelection name (some instant)
  stamp : ∃ stamp, parseScope format (some name) none = .ok (.branch name none, stamp) ∧
    ScopeStamp.Names format stamp (.branch name none)
  stampAt : ∀ raw instant, format.parse raw = .ok instant →
    ∃ stamp, parseScope format (some name) (some raw) = .ok (.branch name (some instant), stamp) ∧
      ScopeStamp.Names format stamp (.branch name (some instant))

/-- What follows the last `@` of a name is no instant, and what precedes it is no built-in selector. -/
def Unambiguous (format : InstantFormat) (name : String) : Prop :=
  ∀ front back, rsplitOnce '@' name.toList = some (front, back) →
    (∀ instant, format.parse (String.ofList back) ≠ .ok instant) ∧
      String.ofList front ∉ reservedBranchNames

/-- A name that a branch can be given: what remains of a text, where it is accepted. -/
def AcceptedName (name : String) : Prop :=
  ∃ raw, trim raw = name ∧ validateBranchName name = .ok ()

section Names

variable {format : InstantFormat} {name : String}

theorem AcceptedName.named (accepted : AcceptedName name) : name ≠ "" ∧ name ∉ reservedBranchNames := by
  obtain ⟨raw, -, valid⟩ := accepted
  unfold validateBranchName at valid
  split at valid
  · cases valid
  · split at valid
    · cases valid
    · constructor <;> assumption

/-- A name that is split into itself is read as the branch of that name. -/
theorem parse_of_split {raw : String} {instant : Option Instant} (accepted : AcceptedName name)
    (split : splitSelector format raw = .ok (name, instant)) :
    ReportScope.parse format (some raw) = .ok (.branch name instant) := by
  have named := accepted.named.2
  simp only [reservedBranchNames, List.mem_cons, not_or] at named
  change (splitSelector format raw >>= _) = _
  rw [split]
  change (if name = "dev" then _ else _) = _
  rw [if_neg named.2.1, if_neg named.1]

theorem graph_of_split {raw : String} {instant : Option Instant} (accepted : AcceptedName name)
    (split : splitSelector format raw = .ok (name, instant)) :
    resolveGraphSelection format raw = branchSelection name instant := by
  have named := accepted.named.2
  simp only [reservedBranchNames, List.mem_cons, not_or] at named
  unfold resolveGraphSelection
  rw [split]
  change (if name = "main" then _ else _) = _
  rw [if_neg named.1]

/-- With an instant, the last `@` is the one before it. -/
theorem splitSelector_instant (plain : ∀ raw instant, format.parse raw = .ok instant → '@' ∉ raw.toList)
    {raw : String} {instant : Instant} (read : format.parse raw = .ok instant) (name : String) :
    splitSelector format s!"{name}@{raw}" = .ok (name, some instant) := by
  have text : (s!"{name}@{raw}").toList = name.toList ++ '@' :: raw.toList := by
    rw [String.toList_append, String.toList_append, List.append_assoc]
    rfl
  unfold splitSelector
  rw [text, rsplitOnce_append (plain raw instant read)]
  simp only [String.ofList_toList, normalizeInstant, read]
  rfl

theorem splitSelector_name_iff :
    splitSelector format name = .ok (name, none) ↔ Unambiguous format name := by
  unfold splitSelector Unambiguous
  cases found : rsplitOnce '@' name.toList with
  | none => simp
  | some parts =>
      obtain ⟨front, back⟩ := parts
      simp only [Option.some.injEq, Prod.mk.injEq]
      cases read : format.parse (String.ofList back) with
      | ok instant =>
          simp only [normalizeInstant, read, Except.mapError]
          constructor
          · intro same
            simp at same
          · intro free
            exact absurd read ((free front back ⟨rfl, rfl⟩).1 instant)
      | error reason =>
          simp only [normalizeInstant, read, Except.mapError]
          by_cases reserved : String.ofList front ∈ reservedBranchNames
          · rw [if_pos reserved]
            constructor
            · intro same
              cases same
            · intro free
              exact absurd reserved (free front back ⟨rfl, rfl⟩).2
          · rw [if_neg reserved]
            constructor
            · intro _ front' back' same
              obtain ⟨rfl, rfl⟩ := same
              exact ⟨by rw [read]; simp, reserved⟩
            · intro _
              rfl

/-- A branch that is cut has a name that is accepted. -/
theorem accepted_of_createBranch {State : Type} {handle : Handler State Call Call.Answer}
    {state after : State} {deployment : Deployment} {params : CreateBranchParams} {branch : BranchInfo}
    (ran : (createBranch deployment format params).run handle state = some (.ok branch, after)) :
    AcceptedName branch.name := by
  obtain ⟨⟨⟩, _, checked, ran⟩ := Program.run_bind_ok ran
  obtain ⟨valid, -⟩ := Program.run_ofExcept_ok checked
  obtain ⟨asOf, _, -, ran⟩ := Program.run_bind_ok ran
  obtain ⟨source, _, -, ran⟩ := Program.run_bind_ok ran
  obtain ⟨now, _, -, ran⟩ := Program.run_bind_ok ran
  obtain ⟨event, _, -, ran⟩ := Program.run_bind_ok ran
  obtain ⟨branchId, _, -, ran⟩ := Program.run_bind_ok ran
  obtain ⟨copied, _, -, ran⟩ := Program.run_bind_ok ran
  cases copied with
  | error reason =>
      obtain ⟨_, _, -, ran⟩ := Program.run_bind_ok ran
      cases ran
  | ok value =>
      obtain ⟨_, _, -, ran⟩ := Program.run_bind_ok ran
      obtain ⟨_, _, -, ran⟩ := Program.run_bind_ok ran
      cases ran
      exact ⟨params.name, rfl, valid⟩

/-- So has one that is renamed. -/
theorem accepted_of_renameBranch {State : Type} {handle : Handler State Call Call.Answer}
    {state after : State} {newName actor : String} {branch : BranchInfo}
    (ran : (renameBranch name newName actor).run handle state = some (.ok branch, after)) :
    AcceptedName branch.name := by
  obtain ⟨⟨⟩, _, checked, ran⟩ := Program.run_bind_ok ran
  obtain ⟨valid, -⟩ := Program.run_ofExcept_ok checked
  obtain ⟨renamed, _, -, ran⟩ := Program.run_bind_ok ran
  obtain ⟨outcome, _, -, ran⟩ := Program.run_bind_ok ran
  cases outcome with
  | error reason => cases reason <;> cases ran
  | ok value =>
      obtain ⟨_, _, -, ran⟩ := Program.run_bind_ok ran
      cases ran
      exact ⟨newName, rfl, valid⟩

/-- The selection of a branch answers the pins and the periphery of the branch of that name. -/
theorem answers_branchSelection {environment : Environment} {database : Database} {branch : BranchInfo}
    (reliable : environment.Reliable) (instant : Option Instant)
    (found : database.store.branches.find? (·.name = name) = some branch) :
    Answers environment database (branchSelection name instant)
      (database.store.listBranchPins branch.id instant,
        database.store.listPeriphery (.branch branch.id) instant) := by
  have pins : Answers environment database (repo (.listBranchPins branch.id instant))
      (database.store.listBranchPins branch.id instant) := answers_repo reliable rfl fun _ => rfl
  have periphery : Answers environment database (repo (.listPeriphery (.branch branch.id) instant))
      (database.store.listPeriphery (.branch branch.id) instant) := answers_repo reliable rfl fun _ => rfl
  exact (answers_existingBranch reliable found).bind (pins.bind (periphery.bind (answers_done _)))

end Names

/-- For every name that a branch can be given: each of its selectors stands for that branch exactly when
the name does not end in an `@` and an instant, nor begins with a built-in selector before its last `@`. -/
theorem selectable_iff (format : InstantFormat)
    (plain : ∀ raw instant, format.parse raw = .ok instant → '@' ∉ raw.toList ∧ raw ≠ "")
    (name : String) (accepted : AcceptedName name) :
    Selectable format name ↔ Unambiguous format name := by
  have named := accepted.named.1
  have timed : ∀ raw instant, format.parse raw = .ok instant →
      splitSelector format s!"{name}@{raw}" = .ok (name, some instant) :=
    fun raw instant read => splitSelector_instant (fun raw instant read => (plain raw instant read).1) read name
  constructor
  · intro selectable
    exact splitSelector_name_iff.mp selectable.split
  · intro free
    have alone := splitSelector_name_iff.mpr free
    constructor
    · exact alone
    · exact timed
    · exact parse_of_split accepted alone
    · intro raw instant read
      exact parse_of_split accepted (timed raw instant read)
    · exact graph_of_split accepted alone
    · intro raw instant read
      exact graph_of_split accepted (timed raw instant read)
    · refine ⟨⟨name, none⟩, ?_, rfl, rfl⟩
      simp only [parseScope, Option.getD_some, Option.filter_none, if_neg named,
        parse_of_split accepted alone]
      rfl
    · intro raw instant read
      have given : (some raw).filter (· ≠ "") = some raw := by
        simp [(plain raw instant read).2]
      refine ⟨⟨name, some raw⟩, ?_, rfl, congrArg some read⟩
      simp only [parseScope, Option.getD_some, if_neg named, given,
        parse_of_split accepted (timed raw instant read)]
      rfl

section Examples

/-- A reader that knows one instant. -/
def newYear : InstantFormat where
  parse raw :=
    if raw = "2026-01-01T00:00:00Z" then .ok 1767225600 else .error "input contains invalid characters"
  render _ := "2026-01-01T00:00:00Z"

/-- A branch can be given a name that is read as another branch at an instant. -/
theorem dated_name_is_not_selectable :
    AcceptedName "rel@2026-01-01T00:00:00Z" ∧ ¬ Selectable newYear "rel@2026-01-01T00:00:00Z" ∧
      parseScope newYear (some "rel@2026-01-01T00:00:00Z") none =
        .ok (.branch "rel" (some 1767225600), ⟨"rel@2026-01-01T00:00:00Z", none⟩) := by
  have read : parseScope newYear (some "rel@2026-01-01T00:00:00Z") none =
      .ok (.branch "rel" (some 1767225600), ⟨"rel@2026-01-01T00:00:00Z", none⟩) := by decide +kernel
  refine ⟨⟨"rel@2026-01-01T00:00:00Z", by decide +kernel, by decide +kernel⟩, ?_, read⟩
  intro selectable
  obtain ⟨stamp, other, -⟩ := selectable.stamp
  rw [read] at other
  simp at other

theorem selectable_release : Selectable newYear "release@7" := by
  have parts : rsplitOnce '@' "release@7".toList = some ("release".toList, "7".toList) := by
    decide +kernel
  have unread : newYear.parse "7" = .error "input contains invalid characters" := by decide +kernel
  refine (selectable_iff newYear ?_ "release@7" ⟨" release@7", by decide +kernel, by decide +kernel⟩).mpr ?_
  · intro raw instant read
    change (if raw = "2026-01-01T00:00:00Z" then _ else _) = _ at read
    split at read
    · rename_i same
      subst same
      decide +kernel
    · cases read
  · intro front back found
    cases parts.symm.trans found
    rw [String.ofList_toList, String.ofList_toList, unread]
    exact ⟨by simp, by decide +kernel⟩

end Examples
end Sanshain.Guarantees
