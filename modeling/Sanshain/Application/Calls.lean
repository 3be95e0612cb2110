import Sanshain.Application.UseCase

namespace Sanshain.Application

open Sanshain.Data Sanshain.Domain Sanshain.Document Sanshain.Effects

/-- The calls of one use case so far, the most recent one first. -/
abbrev Calls := History Call Call.Answer

/-- The store was asked and answered this. -/
def Heard (events : Calls) (request : RepoCall) (result : request.Result) : Prop :=
  (⟨.repo request, .ok result⟩ : Event Call Call.Answer) ∈ events

/-- The store failed a call, and the use case answers so. -/
def CallFailed (events : Calls) (error : AppError) : Prop :=
  ∃ request reason, (⟨.repo request, .error reason⟩ : Event Call Call.Answer) ∈ events ∧
    error = reason.toAppError

theorem Heard.grow {events later : Calls} {request : RepoCall} {result : request.Result}
    (heard : Heard events request result) (grown : events <:+ later) : Heard later request result :=
  grown.subset heard

theorem Heard.cons {events : Calls} {request : RepoCall} {result : request.Result}
    (heard : Heard events request result) (event : Event Call Call.Answer) :
    Heard (event :: events) request result :=
  List.mem_cons_of_mem _ heard

theorem CallFailed.grow {events later : Calls} {error : AppError} (failed : CallFailed events error)
    (grown : events <:+ later) : CallFailed later error := by
  obtain ⟨request, reason, among, same⟩ := failed
  exact ⟨request, reason, grown.subset among, same⟩

theorem heard_now (events : Calls) (request : RepoCall) (result : request.Result) :
    Heard (⟨.repo request, .ok result⟩ :: events) request result :=
  List.mem_cons_self

theorem callFailed_now (events : Calls) (request : RepoCall) (reason : RepositoryError) :
    CallFailed (⟨.repo request, .error reason⟩ :: events) reason.toAppError :=
  ⟨request, reason, List.mem_cons_self, rfl⟩

section Rules

variable {Value Result : Type} {guard : Calls → Call → Prop} {onDone : Calls → Value → Prop}
  {onFail : Calls → AppError → Prop} {events : Calls}

/-- A store call goes on with its answer or ends with its failure. -/
theorem along_repo {request : RepoCall} {onDone : Calls → request.Result → Prop} :
    (repo request).Along guard onDone onFail events ↔
      guard events (.repo request) ∧
        (∀ result, onDone (⟨.repo request, .ok result⟩ :: events) result) ∧
          ∀ reason, onFail (⟨.repo request, .error reason⟩ :: events) reason.toAppError := by
  constructor
  · rintro ⟨allowed, each⟩
    exact ⟨allowed, fun result => each (.ok result), fun reason => each (.error reason)⟩
  · rintro ⟨allowed, heard, failed⟩
    refine ⟨allowed, fun answer => ?_⟩
    cases answer with
    | ok result => exact heard result
    | error reason => exact failed reason

/-- What is asked of the store first, and how the use case goes on. -/
theorem along_repo_bind {request : RepoCall} {next : request.Result → UseCase Value}
    (allowed : guard events (.repo request))
    (failed : ∀ reason, onFail (⟨.repo request, .error reason⟩ :: events) reason.toAppError)
    (rest : ∀ result, (next result).Along guard onDone onFail
      (⟨.repo request, .ok result⟩ :: events)) :
    ((repo request).bind next).Along guard onDone onFail events :=
  (Program.along_bind _ _).mpr (along_repo.mpr ⟨allowed, rest, failed⟩)

theorem along_nowIso_bind {next : Instant → UseCase Value} (allowed : guard events .nowIso)
    (rest : ∀ now, (next now).Along guard onDone onFail
      ((⟨.nowIso, now⟩ : Event Call Call.Answer) :: events)) :
    (nowIso.bind next).Along guard onDone onFail events :=
  ⟨allowed, rest⟩

theorem along_orSpin {outcome : Option Value} :
    (orSpin outcome).Along guard onDone onFail events ↔
      ∀ value, outcome = some value → onDone events value := by
  cases outcome <;> simp [orSpin]

end Rules

section Only

variable {Value : Type} {allowed : Call → Prop} {fails : Calls → AppError → Prop}

theorem only_tryRepo {request : RepoCall} (among : allowed (.repo request)) :
    (tryRepo request).Only allowed fails :=
  Program.Only.ask among

theorem only_repo {request : RepoCall} (among : allowed (.repo request)) :
    (repo request).Only allowed CallFailed :=
  fun events => along_repo.mpr ⟨among, fun _ => trivial, callFailed_now events request⟩

theorem only_nowIso (among : allowed .nowIso) : nowIso.Only allowed fails :=
  Program.Only.ask among

theorem only_newUuid (among : allowed .newUuid) : newUuid.Only allowed fails :=
  Program.Only.ask among

theorem only_orSpin (outcome : Option Value) : (orSpin outcome).Only allowed fails :=
  fun _ => along_orSpin.mpr fun _ _ => trivial

/-- A use case that changes nothing and fails only where the store does. -/
abbrev Reads (program : UseCase Value) : Prop :=
  program.Only (fun request => request.readsOnly = true) CallFailed

theorem reads_repo {request : RepoCall} (reads : request.readsOnly = true) : Reads (repo request) :=
  only_repo reads

theorem reads_nowIso : Reads nowIso := only_nowIso rfl

theorem reads_newUuid : Reads newUuid := only_newUuid rfl

theorem reads_resolveStream (trunk : Bool) (tag : Option String) : Reads (resolveStream trunk tag) := by
  unfold resolveStream
  split
  · exact .done _
  · split
    · exact .done _
    · refine (reads_repo rfl).bind fun found => ?_
      cases found <;> exact .done _

end Only
end Sanshain.Application
