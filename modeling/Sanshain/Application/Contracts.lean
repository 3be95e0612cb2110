import Sanshain.Application.Calls
import Sanshain.Document.AsyncApi

namespace Sanshain.Application

open Sanshain.Data Sanshain.Domain Sanshain.Document Sanshain.Effects
open AsyncApiDocument (PubMessage)

section Harvest

/-- The inputs of a reconciliation, and what the answer reports of each. -/
abbrev Harvest := List HarvestedSubInput × List HarvestedSubscriptionResult

/-- The live owner of a contract; an owner that vanished leaves the message unfulfilled. -/
def liveOwner : Option ChannelMessageContract → UseCase (Option (Nat × String))
  | none => .done none
  | some contract => do
      match ← repo (.getServiceNameById contract.ownerServiceId) with
      | some name => .done (some (contract.ownerServiceId, name))
      | none => .done none

/-- Where a contract falls short of an expectation, which a release may not accept. -/
def expectationDrift (external : External) (stability : Stability) (sub : PubMessage) :
    Option ChannelMessageContract → Except AppError (Option String)
  | none => .ok none
  | some contract =>
      match AsyncApiDocument.checkExpectationSatisfied external contract.payloadYaml
          sub.payloadYaml with
      | .ok () => .ok none
      | .error reason =>
          let detail := s!"channel '{sub.channel}' message '{sub.messageName}': {reason}"
          if stability = .ga then
            .error (.conflict s!"AsyncAPI subscription expectation is not satisfiable by the current contract — {detail}")
          else .ok (some detail)

def harvestSubscription (external : External) (stability : Stability) (planned : Harvest)
    (sub : PubMessage) : UseCase Harvest := do
  let contract ← repo (.getChannelMessageContract sub.channel sub.messageName)
  let owner ← liveOwner contract
  let drift ← .ofExcept (expectationDrift external stability sub contract)
  .done (planned.1 ++ [⟨sub.channel, sub.messageName, owner.map Prod.fst, owner.map Prod.snd⟩],
    planned.2 ++ [⟨sub.channel, sub.messageName, owner.map Prod.snd, drift⟩])

/-- What a Provide would record of the subscriptions its document declares. -/
def planSubscriptionHarvest (external : External) (content : String) (stability : Stability) :
    UseCase Harvest := do
  let subs ← .ofExcept ((AsyncApiDocument.extractSubMessages external content).mapError .badRequest)
  Program.foldEach (harvestSubscription external stability) ([], []) subs

def reconcileHarvest (producername : String) (trunk : Bool) (inputs : List HarvestedSubInput) :
    UseCase Unit := do
  let clientId ← repo (.ensureClient producername)
  let now ← nowIso
  repo (.reconcileHarvestedSubscriptions clientId producername trunk inputs now)

end Harvest

section Ownership

inductive ContractOp where
  | upsert (contract : ChannelMessageContract)
  | delete (channel messageName : String)
  deriving DecidableEq, Repr

def newContract (message : PubMessage) (serviceId : Nat) : ChannelMessageContract :=
  ⟨message.channel, message.messageName, serviceId, message.payloadYaml⟩

/-- Whether the owner of a contract still exists. -/
def ownerAlive : Option ChannelMessageContract → UseCase Bool
  | none => .done false
  | some contract => do
      let name ← repo (.getServiceNameById contract.ownerServiceId)
      .done name.isSome

/-- The refusal of a message that another live service owns with another schema. -/
def refuseForeignMessage (message : PubMessage) (contract : ChannelMessageContract) :
    UseCase (List ContractOp) := do
  let name ← repo (.getServiceNameById contract.ownerServiceId)
  let owner := name.getD "another service"
  .fail (.conflict s!"AsyncAPI message '{message.messageName}' on channel '{message.channel}' is owned by service '{owner}' with a different schema; align the schema or rename your message")

/-- A message nobody alive owns is claimed, an owned one is widened, and one of another live
service is only accepted as it is. -/
def planMessage (external : External) (serviceId : Nat) (message : PubMessage) :
    Option ChannelMessageContract → Bool → UseCase (List ContractOp)
  | none, _ => .done [.upsert (newContract message serviceId)]
  | some _, false => .done [.upsert (newContract message serviceId)]
  | some contract, true =>
      if contract.ownerServiceId = serviceId then
        match AsyncApiDocument.checkPayloadCompatible external contract.payloadYaml
            message.payloadYaml with
        | .ok () => .done [.upsert (newContract message serviceId)]
        | .error reason =>
            .fail (.breakingChange s!"Incompatible change to owned AsyncAPI message '{message.messageName}' on channel '{message.channel}': {reason}")
      else if AsyncApiDocument.payloadsEqual external contract.payloadYaml message.payloadYaml then
        .done []
      else refuseForeignMessage message contract

def claimMessage (external : External) (serviceId : Nat) (ops : List ContractOp)
    (message : PubMessage) : UseCase (List ContractOp) := do
  let existing ← repo (.getChannelMessageContract message.channel message.messageName)
  let alive ← ownerAlive existing
  let planned ← planMessage external serviceId message existing alive
  .done (ops ++ planned)

/-- The contracts a service still owns and no longer provides. -/
def droppedContracts (serviceId : Nat) (messages : List PubMessage)
    (contracts : List ChannelMessageContract) : List ContractOp :=
  (contracts.filter fun contract =>
    contract.ownerServiceId = serviceId &&
      !(messages.any fun message =>
        message.channel = contract.channel && message.messageName = contract.messageName)).map
    fun contract => .delete contract.channel contract.messageName

/-- The contract changes of a released channel document, read and not yet written. -/
def planChannelMessageContracts (external : External) (serviceId : Nat) (content : String) :
    UseCase (List ContractOp) := do
  let messages ← .ofExcept
    ((AsyncApiDocument.extractPubMessages external content).mapError .badRequest)
  let ops ← Program.foldEach (claimMessage external serviceId) [] messages
  let contracts ← repo .listChannelMessageContracts
  .done (ops ++ droppedContracts serviceId messages contracts)

def applyContractOp : ContractOp → UseCase Unit
  | .upsert contract => repo (.upsertChannelMessageContract contract)
  | .delete channel messageName => repo (.deleteChannelMessageContract channel messageName)

def applyContractOps (ops : List ContractOp) : UseCase Unit :=
  Program.forEach applyContractOp ops

end Ownership

section Plans

/-- A plan fails with its document, with a refusal, or where the store does. -/
def PlanFailed (events : Calls) (error : AppError) : Prop :=
  CallFailed events error ∨ (∃ message, error = .badRequest message) ∨
    (∃ message, error = .conflict message) ∨ ∃ message, error = .breakingChange message

/-- Every declared subscription was found acceptable as the contracts were read. -/
def HarvestPlanned (external : External) (stability : Stability) (content : String)
    (events : Calls) : Prop :=
  ∃ subs, AsyncApiDocument.extractSubMessages external content = .ok subs ∧
    ∀ sub ∈ subs, ∃ contract drift,
      Heard events (.getChannelMessageContract sub.channel sub.messageName) contract ∧
        expectationDrift external stability sub contract = .ok drift

/-- What was read of a message, and the changes that follow from it. -/
inductive MessagePlanned (external : External) (serviceId : Nat) (events : Calls)
    (message : PubMessage) : List ContractOp → Prop
  | unclaimed
      (heard : Heard events (.getChannelMessageContract message.channel message.messageName) none) :
      MessagePlanned external serviceId events message [.upsert (newContract message serviceId)]
  | orphaned (contract : ChannelMessageContract)
      (heard : Heard events (.getChannelMessageContract message.channel message.messageName)
        (some contract))
      (gone : Heard events (.getServiceNameById contract.ownerServiceId) none) :
      MessagePlanned external serviceId events message [.upsert (newContract message serviceId)]
  | owned (contract : ChannelMessageContract) (name : String)
      (heard : Heard events (.getChannelMessageContract message.channel message.messageName)
        (some contract))
      (alive : Heard events (.getServiceNameById contract.ownerServiceId) (some name))
      (own : contract.ownerServiceId = serviceId)
      (widened : AsyncApiDocument.checkPayloadCompatible external contract.payloadYaml
        message.payloadYaml = .ok ()) :
      MessagePlanned external serviceId events message [.upsert (newContract message serviceId)]
  | shared (contract : ChannelMessageContract) (name : String)
      (heard : Heard events (.getChannelMessageContract message.channel message.messageName)
        (some contract))
      (alive : Heard events (.getServiceNameById contract.ownerServiceId) (some name))
      (foreign : contract.ownerServiceId ≠ serviceId)
      (equal : AsyncApiDocument.payloadsEqual external contract.payloadYaml message.payloadYaml = true) :
      MessagePlanned external serviceId events message []

/-- The changes of a whole document: one plan for each message, and what it no longer names. -/
inductive ContractsPlanned (external : External) (serviceId : Nat) (content : String)
    (events : Calls) : List ContractOp → Prop
  | of (planned : List (PubMessage × List ContractOp)) (contracts : List ChannelMessageContract)
      (read : AsyncApiDocument.extractPubMessages external content = .ok (planned.map Prod.fst))
      (listed : Heard events .listChannelMessageContracts contracts)
      (each : ∀ plan ∈ planned, MessagePlanned external serviceId events plan.1 plan.2) :
      ContractsPlanned external serviceId content events
        (planned.flatMap Prod.snd ++ droppedContracts serviceId (planned.map Prod.fst) contracts)

variable {external : External} {serviceId : Nat} {events later : Calls} {message : PubMessage}
  {content : String} {ops : List ContractOp}

theorem PlanFailed.grow {error : AppError} (failed : PlanFailed events error)
    (grown : events <:+ later) : PlanFailed later error :=
  failed.imp_left fun call => call.grow grown

theorem HarvestPlanned.grow {stability : Stability}
    (planned : HarvestPlanned external stability content events) (grown : events <:+ later) :
    HarvestPlanned external stability content later := by
  obtain ⟨subs, read, each⟩ := planned
  refine ⟨subs, read, fun sub among => ?_⟩
  obtain ⟨contract, drift, heard, satisfied⟩ := each sub among
  exact ⟨contract, drift, heard.grow grown, satisfied⟩

theorem MessagePlanned.grow (planned : MessagePlanned external serviceId events message ops)
    (grown : events <:+ later) : MessagePlanned external serviceId later message ops := by
  cases planned with
  | unclaimed heard => exact .unclaimed (heard.grow grown)
  | orphaned contract heard gone => exact .orphaned contract (heard.grow grown) (gone.grow grown)
  | owned contract name heard alive own widened =>
      exact .owned contract name (heard.grow grown) (alive.grow grown) own widened
  | shared contract name heard alive foreign equal =>
      exact .shared contract name (heard.grow grown) (alive.grow grown) foreign equal

theorem ContractsPlanned.grow (planned : ContractsPlanned external serviceId content events ops)
    (grown : events <:+ later) : ContractsPlanned external serviceId content later ops := by
  obtain ⟨planned, contracts, read, listed, each⟩ := planned
  exact .of planned contracts read (listed.grow grown)
    fun plan among => (each plan among).grow grown

/-- A message is left as it is or claimed, and nothing else. -/
theorem MessagePlanned.ops_eq (planned : MessagePlanned external serviceId events message ops) :
    ops = [] ∨ ops = [.upsert (newContract message serviceId)] := by
  cases planned with
  | shared contract name heard alive foreign equal => exact .inl rfl
  | _ => exact .inr rfl

/-- A claim is that of a message whose plan it is. -/
theorem ContractsPlanned.claimed (planned : ContractsPlanned external serviceId content events ops)
    {contract : ChannelMessageContract} (among : .upsert contract ∈ ops) :
    ∃ messages, AsyncApiDocument.extractPubMessages external content = .ok messages ∧
      ∃ message ∈ messages, contract = newContract message serviceId ∧
        MessagePlanned external serviceId events message [.upsert contract] := by
  obtain ⟨planned, contracts, read, listed, each⟩ := planned
  refine ⟨_, read, ?_⟩
  rcases List.mem_append.mp among with claimed | dropped
  · obtain ⟨plan, held, own⟩ := List.mem_flatMap.mp claimed
    have fits := each plan held
    rcases fits.ops_eq with none | one
    · rw [none] at own
      cases own
    · rw [one, List.mem_singleton] at own
      cases own
      exact ⟨plan.1, List.mem_map_of_mem held, rfl, one ▸ fits⟩
  · obtain ⟨dropped, -, same⟩ := List.mem_map.mp dropped
    cases same

/-- What is released was listed as the service's own, and is no message of the document. -/
theorem ContractsPlanned.dropped (planned : ContractsPlanned external serviceId content events ops)
    {channel name : String} (among : .delete channel name ∈ ops) :
    ∃ messages contracts, AsyncApiDocument.extractPubMessages external content = .ok messages ∧
      Heard events .listChannelMessageContracts contracts ∧
      (∃ contract ∈ contracts, contract.ownerServiceId = serviceId ∧ contract.channel = channel ∧
        contract.messageName = name) ∧
      ∀ message ∈ messages, ¬ (message.channel = channel ∧ message.messageName = name) := by
  obtain ⟨planned, contracts, read, listed, each⟩ := planned
  refine ⟨_, contracts, read, listed, ?_⟩
  rcases List.mem_append.mp among with claimed | dropped
  · obtain ⟨plan, held, own⟩ := List.mem_flatMap.mp claimed
    rcases (each plan held).ops_eq with none | one
    · rw [none] at own
      cases own
    · rw [one, List.mem_singleton] at own
      cases own
  · obtain ⟨contract, held, same⟩ := List.mem_map.mp dropped
    obtain ⟨listed, mine⟩ := List.mem_filter.mp held
    cases same
    simp only [Bool.and_eq_true, decide_eq_true_eq, Bool.not_eq_true', List.any_eq_false] at mine
    exact ⟨⟨contract, listed, mine.1, rfl, rfl⟩, fun message among same =>
      mine.2 message among (by simp [same.1, same.2])⟩

theorem reads_liveOwner (contract : Option ChannelMessageContract) : Reads (liveOwner contract) := by
  unfold liveOwner
  cases contract with
  | none => exact Program.Only.done none
  | some contract =>
      refine (reads_repo rfl).bind fun name => ?_
      cases name <;> exact Program.Only.done _

/-- One subscription is read, and accepted or refused. -/
theorem along_harvestSubscription (external : External) (stability : Stability) (planned : Harvest)
    (sub : PubMessage) (events : Calls) :
    (harvestSubscription external stability planned sub).Along
      (fun _ request => request.readsOnly = true)
      (fun later _ => ∃ contract drift,
        Heard later (.getChannelMessageContract sub.channel sub.messageName) contract ∧
          expectationDrift external stability sub contract = .ok drift)
      PlanFailed events := by
  refine along_repo_bind rfl (fun reason => .inl (callFailed_now _ _ reason)) fun contract => ?_
  refine (((reads_liveOwner contract).mono (fun _ reads => reads) fun _ _ => Or.inl) _).seq
    fun later owner grown _ => ?_
  rw [Program.bind_eq, Program.along_bind, Program.along_ofExcept]
  constructor
  · intro drift satisfied
    exact ⟨contract, drift, (heard_now _ _ _).grow grown, satisfied⟩
  · intro error refused
    unfold expectationDrift at refused
    split at refused
    · cases refused
    · split at refused
      · cases refused
      · split at refused
        · cases refused
          exact .inr (.inr (.inl ⟨_, rfl⟩))
        · cases refused

theorem along_planSubscriptionHarvest (external : External) (content : String)
    (stability : Stability) (events : Calls) :
    (planSubscriptionHarvest external content stability).Along
      (fun _ request => request.readsOnly = true)
      (fun later _ => HarvestPlanned external stability content later) PlanFailed events := by
  unfold planSubscriptionHarvest
  rw [Program.bind_eq, Program.along_bind, Program.along_ofExcept]
  constructor
  · intro subs read
    have extracted : AsyncApiDocument.extractSubMessages external content = .ok subs := by
      cases outcome : AsyncApiDocument.extractSubMessages external content <;>
        simp_all [Except.mapError]
    refine (Program.along_foldEach (fun before _ later => ∀ sub ∈ before, ∃ contract drift,
        Heard later (.getChannelMessageContract sub.channel sub.messageName) contract ∧
          expectationDrift external stability sub contract = .ok drift) (by simp) ?_).mono
      (fun _ _ reads => reads) (fun later _ each => ⟨subs, extracted, each⟩) fun _ _ failed => failed
    intro before sub planned earlier _ each
    apply Program.Along.of_grown (List.suffix_refl earlier)
    refine (along_harvestSubscription external stability planned sub earlier).mono
      (fun _ _ reads _ => reads) ?_ fun _ _ failed _ => failed
    intro later _ accepted grown other among
    rcases List.mem_append.mp among with old | new
    · obtain ⟨contract, drift, heard, satisfied⟩ := each other old
      exact ⟨contract, drift, heard.grow grown, satisfied⟩
    · exact List.mem_singleton.mp new ▸ accepted
  · intro error failed
    cases outcome : AsyncApiDocument.extractSubMessages external content with
    | ok subs => simp [outcome, Except.mapError] at failed
    | error reason =>
        simp only [outcome, Except.mapError, Except.error.injEq] at failed
        exact .inr (.inl ⟨reason, failed.symm⟩)

theorem along_ownerAlive (existing : Option ChannelMessageContract) (events : Calls) :
    (ownerAlive existing).Along (fun _ request => request.readsOnly = true)
      (fun later alive => match existing with
        | none => True
        | some contract => ∃ name, Heard later (.getServiceNameById contract.ownerServiceId) name ∧
            alive = name.isSome)
      CallFailed events := by
  cases existing with
  | none => trivial
  | some contract =>
      refine along_repo_bind rfl (callFailed_now _ _) fun name => ?_
      exact ⟨name, heard_now _ _ _, rfl⟩

theorem along_refuseForeignMessage (message : PubMessage) (contract : ChannelMessageContract)
    (events : Calls) {onDone : Calls → List ContractOp → Prop} :
    (refuseForeignMessage message contract).Along (fun _ request => request.readsOnly = true)
      onDone PlanFailed events := by
  refine along_repo_bind rfl (fun reason => .inl (callFailed_now _ _ reason)) fun name => ?_
  exact .inr (.inr (.inl ⟨_, rfl⟩))

/-- One message is read, and its plan follows from what was read. -/
theorem along_claimMessage (external : External) (serviceId : Nat) (ops : List ContractOp)
    (message : PubMessage) (events : Calls) :
    (claimMessage external serviceId ops message).Along
      (fun _ request => request.readsOnly = true)
      (fun later planned => ∃ own, MessagePlanned external serviceId later message own ∧
        planned = ops ++ own)
      PlanFailed events := by
  refine along_repo_bind rfl (fun reason => .inl (callFailed_now _ _ reason)) fun existing => ?_
  refine ((along_ownerAlive existing _).mono (fun _ _ reads => reads) (fun _ _ held => held)
    fun _ _ => Or.inl).seq fun later alive grown known => ?_
  have heard := (heard_now events
    (.getChannelMessageContract message.channel message.messageName) existing).grow grown
  rw [Program.bind_eq, Program.along_bind]
  cases existing with
  | none => exact ⟨_, .unclaimed heard, rfl⟩
  | some contract =>
      obtain ⟨name, named, rfl⟩ := known
      cases name with
      | none => exact ⟨_, .orphaned contract heard named, rfl⟩
      | some name =>
          simp only [Option.isSome_some, planMessage]
          split
          · rename_i own
            split
            · rename_i widened
              exact ⟨_, .owned contract name heard named own widened, rfl⟩
            · exact .inr (.inr (.inr ⟨_, rfl⟩))
          · rename_i foreign
            split
            · rename_i equal
              exact ⟨_, .shared contract name heard named foreign equal, rfl⟩
            · exact along_refuseForeignMessage message contract later

theorem along_planChannelMessageContracts (external : External) (serviceId : Nat)
    (content : String) (events : Calls) :
    (planChannelMessageContracts external serviceId content).Along
      (fun _ request => request.readsOnly = true)
      (fun later ops => ContractsPlanned external serviceId content later ops)
      PlanFailed events := by
  unfold planChannelMessageContracts
  rw [Program.bind_eq, Program.along_bind, Program.along_ofExcept]
  constructor
  · intro messages read
    have extracted : AsyncApiDocument.extractPubMessages external content = .ok messages := by
      cases outcome : AsyncApiDocument.extractPubMessages external content <;>
        simp_all [Except.mapError]
    refine Program.Along.seq (Program.along_foldEach (fun before ops later =>
        ∃ planned : List (PubMessage × List ContractOp), planned.map Prod.fst = before ∧
          ops = planned.flatMap Prod.snd ∧
          ∀ plan ∈ planned, MessagePlanned external serviceId later plan.1 plan.2)
      ⟨[], by simp⟩ ?_) ?_
    · rintro before message ops earlier _ ⟨planned, rfl, rfl, each⟩
      apply Program.Along.of_grown (List.suffix_refl earlier)
      refine (along_claimMessage external serviceId _ message earlier).mono
        (fun _ _ reads _ => reads) ?_ fun _ _ failed _ => failed
      rintro later _ ⟨own, ownPlanned, rfl⟩ grown
      refine ⟨planned ++ [(message, own)], by simp, by simp, fun plan among => ?_⟩
      rcases List.mem_append.mp among with old | new
      · exact (each plan old).grow grown
      · exact List.mem_singleton.mp new ▸ ownPlanned
    · rintro later ops _ ⟨planned, rfl, rfl, each⟩
      refine along_repo_bind rfl (fun reason => .inl (callFailed_now _ _ reason)) fun contracts => ?_
      exact .of planned contracts extracted (heard_now _ _ _)
        fun plan among => (each plan among).grow (List.suffix_cons _ _)
  · intro error failed
    cases outcome : AsyncApiDocument.extractPubMessages external content with
    | ok messages => simp [outcome, Except.mapError] at failed
    | error reason =>
        simp only [outcome, Except.mapError, Except.error.injEq] at failed
        exact .inr (.inl ⟨reason, failed.symm⟩)

end Plans
end Sanshain.Application
