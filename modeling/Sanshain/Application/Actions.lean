import Sanshain.Application.Admin
import Sanshain.Application.Deletion
import Sanshain.Application.ProvideRules
import Sanshain.Application.Require

namespace Sanshain.Application

open Sanshain.Data Sanshain.Domain Sanshain.Document Sanshain.Effects

/-- What a client may ask of the service. -/
inductive Action where
  | provide (params : ProvideSpecParams) (origin : Option VersionOrigin)
  | promote (producername : String) (apiType : ApiType) (version : SemVer) (caller : Option Actor)
  | requireEndpoint (params : RequireParams) (path method : String)
  | requireBundle (params : RequireParams) (endpoints : List (String × String))
  | expireSnapshots
  | retire (producer : String) (apiType : ApiType) (caller : Option Actor) (dryRun : Bool)
  | deleteProducer (name : String)

/-- What the service answers. -/
inductive Outcome where
  | provided (response : ProvideResponse)
  | required (response : RequireResponse)
  | expired (count : Nat)
  | retired (result : RetiredProtocol)
  | deleted (deleted : Bool)
  deriving DecidableEq, Repr

namespace Action

def program (deployment : Deployment) (forms : AnswerForms) : Action → UseCase Outcome
  | .provide params none => (provideSpec deployment params).bind fun response => .done (.provided response)
  | .provide params (some origin) =>
      (provideSpecWithOrigin deployment params origin).bind fun response => .done (.provided response)
  | .promote producername apiType version caller =>
      (promoteVersion deployment producername apiType version caller).bind
        fun response => .done (.provided response)
  | .requireEndpoint params path method =>
      (Application.requireEndpoint deployment forms params path method).bind
        fun response => .done (.required response)
  | .requireBundle params endpoints =>
      (Application.requireBundle deployment forms params endpoints).bind fun response => .done (.required response)
  | .expireSnapshots => cleanupExpiredSnapshots.bind fun count => .done (.expired count)
  | .retire producer apiType caller dryRun =>
      (retireProtocolFamily producer apiType caller dryRun).bind fun result => .done (.retired result)
  | .deleteProducer name => (Application.deleteProducer name).bind fun deleted => .done (.deleted deleted)

/-- The submissions an action may make: a promotion submits what it finds stored. -/
def Submits : Action → ProvideSpecParams → Prop
  | .provide params _, submitted => submitted = params
  | .promote producername apiType _ caller, submitted =>
      ∃ content, submitted = promotion producername apiType content caller
  | _, _ => False

/-- What the actions that submit nothing may do. -/
def Otherwise : Action → Calls → Call → Prop
  | .requireEndpoint params _ _, _, request => RequireWrites params request
  | .requireBundle params _, _, request => RequireWrites params request
  | .expireSnapshots, _, request => Expires request
  | .retire producer apiType _ _, events, request => Retires producer apiType events request
  | .deleteProducer name, _, request => Deletes name .producer request
  | _, _, _ => False

/-- Every call an action may issue, with what it knows when it does. -/
inductive Allows (deployment : Deployment) (action : Action) (events : Calls) : Call → Prop
  | reads {request : Call} (reads : request.readsOnly = true) : Allows deployment action events request
  | submits {request : Call} (params : ProvideSpecParams) (submits : action.Submits params)
      (allowed : ProvideAllows deployment params events request) :
      Allows deployment action events request
  | otherwise {request : Call} (otherwise : action.Otherwise events request) :
      Allows deployment action events request

/-- How an action that answers Ok has ended. -/
inductive Done (deployment : Deployment) (action : Action) (events : Calls) : Outcome → Prop
  | provided (params : ProvideSpecParams) (response : ProvideResponse)
      (submits : action.Submits params) (done : ProvideDone deployment params events response) :
      Done deployment action events (.provided response)
  | other {outcome : Outcome} (writeless : ∀ params, ¬ action.Submits params) :
      Done deployment action events outcome

/-- Why an action that does not answer Ok has ended. -/
inductive Failed (deployment : Deployment) (action : Action) (events : Calls) : AppError → Prop
  | submitted {error : AppError} (params : ProvideSpecParams) (submits : action.Submits params)
      (failed : ProvideFailed deployment params events error) :
      Failed deployment action events error
  | before {error : AppError} (quiet : ∀ event ∈ events, event.request.readsOnly = true) :
      Failed deployment action events error
  | other {error : AppError} (writeless : ∀ params, ¬ action.Submits params) :
      Failed deployment action events error

section Spec

variable {deployment : Deployment} {action : Action} {Value : Type}

/-- What only a Provide issues is issued by no other action. -/
theorem otherwise_not_provides {events : Calls} {request : RepoCall} (provides : request.provides = true) :
    ¬ action.Otherwise events (.repo request) := by
  intro otherwise
  have writes : ¬ request.readsOnly = true := by
    simp [RepoCall.readsOnly_of_provides provides]
  cases action with
  | provide params origin => exact otherwise
  | promote producername apiType version caller => exact otherwise
  | requireEndpoint params path method =>
      cases otherwise with
      | reads reads => exact writes reads
      | _ => cases provides
  | requireBundle params endpoints =>
      cases otherwise with
      | reads reads => exact writes reads
      | _ => cases provides
  | expireSnapshots =>
      rcases otherwise with reads | ⟨cutoff, same⟩
      · exact writes reads
      · cases same
        cases provides
  | retire producer apiType caller dryRun =>
      cases otherwise with
      | reads reads => exact writes reads
      | _ => cases provides
  | deleteProducer name =>
      cases otherwise with
      | reads reads => exact writes reads
      | producer side => cases provides
      | consumer side => cases provides
      | catalog forgets =>
          cases forgets with
          | reads reads => exact writes reads
          | _ => cases provides

/-- An action that submits does nothing else. -/
theorem Submits.not_otherwise {params : ProvideSpecParams} (submits : action.Submits params)
    {events : Calls} {request : Call} : ¬ action.Otherwise events request := by
  cases action <;> first | exact id | exact submits.elim

/-- An action that submits nothing may end in any way. -/
theorem along_otherwise {program : UseCase Value} {outcome : Value → Outcome}
    (writeless : ∀ params, ¬ action.Submits params)
    (along : program.Along (action.Otherwise) (fun _ _ => True) (fun _ _ => True) []) :
    (program.bind fun value => .done (outcome value)).Along (action.Allows deployment)
      (action.Done deployment) (action.Failed deployment) [] :=
  (along.mono (fun _ _ allowed => .otherwise allowed) (fun _ _ held => held)
    fun _ _ _ => .other writeless).seq fun _ _ _ _ => .other writeless

theorem along_provide (params : ProvideSpecParams) (origin : Option VersionOrigin)
    (forms : AnswerForms) :
    ((provide params origin).program deployment forms).Along ((provide params origin).Allows deployment)
      ((provide params origin).Done deployment) ((provide params origin).Failed deployment) [] := by
  have ruled : ∀ origin', (provideSpecInner deployment params origin').Along
      ((provide params origin).Allows deployment)
      (fun events response => ProvideDone deployment params events response)
      ((provide params origin).Failed deployment) [] := fun origin' =>
    (along_provideSpecInner deployment origin' (by simp)).mono
      (fun _ _ allowed => .submits params rfl allowed) (fun _ _ done => done)
      fun _ _ failed => .submitted params rfl failed
  cases origin with
  | none => exact (ruled {}).seq fun _ response _ done => .provided params response rfl done
  | some origin =>
      change (((Program.ofExcept _).bind fun origin' =>
        provideSpecInner deployment params origin').bind _).Along _ _ _ _
      rw [Program.bind_assoc, Program.along_bind, Program.along_ofExcept]
      constructor
      · intro origin' _
        exact (ruled origin').seq fun _ response _ done => .provided params response rfl done
      · intro error _
        exact .before (by simp)

theorem along_promote (producername : String) (apiType : ApiType) (version : SemVer)
    (caller : Option Actor) (forms : AnswerForms) :
    ((promote producername apiType version caller).program deployment forms).Along
      ((promote producername apiType version caller).Allows deployment)
      ((promote producername apiType version caller).Done deployment)
      ((promote producername apiType version caller).Failed deployment) [] := by
  refine ((along_promoteVersion deployment producername apiType version caller).mono ?_
    (fun _ _ done => done) ?_).seq ?_
  · rintro events request (reads | ⟨content, allowed⟩)
    · exact .reads reads
    · exact .submits _ ⟨content, rfl⟩ allowed
  · rintro events error (quiet | ⟨content, failed⟩)
    · exact .before quiet
    · exact .submitted _ ⟨content, rfl⟩ failed
  · rintro events response - ⟨content, done⟩
    exact .provided _ response ⟨content, rfl⟩ done

/-- Whatever the store answers, every action keeps to its rules. -/
theorem along_program (deployment : Deployment) (forms : AnswerForms) (action : Action) :
    (action.program deployment forms).Along (action.Allows deployment)
      (action.Done deployment) (action.Failed deployment) [] := by
  cases action with
  | provide params origin => exact along_provide params origin forms
  | promote producername apiType version caller =>
      exact along_promote producername apiType version caller forms
  | requireEndpoint params path method =>
      exact along_otherwise (fun _ => id) (only_requireEndpoint deployment forms params path method [])
  | requireBundle params endpoints =>
      exact along_otherwise (fun _ => id) (only_requireBundle deployment forms params endpoints [])
  | expireSnapshots => exact along_otherwise (fun _ => id) (only_cleanupExpiredSnapshots [])
  | retire producer apiType caller dryRun =>
      exact along_otherwise (fun _ => id) (along_retireProtocolFamily producer apiType caller dryRun)
  | deleteProducer name => exact along_otherwise (fun _ => id) (only_deleteProducer name [])

end Spec
end Action
end Sanshain.Application
