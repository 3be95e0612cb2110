import Sanshain.Guarantees.Clients

namespace Sanshain.Guarantees

open Sanshain.Data Sanshain.Domain Sanshain.Document Sanshain.Effects Sanshain.Application
open Sanshain.Infrastructure

section Writers

variable {deployment : Deployment} {actions : List Action} {place : Nat} {client : ServiceClient}

/-- A client that writes a line does so as its submission, with what it was told. -/
theorem Follows.upserts (follows : Follows deployment actions place client)
    {record : UpsertSpecVersion} (issued : client.next? = some (.repo (.upsertSpecVersion record))) :
    ∃ action params, actions[place]? = some action ∧ action.Submits params ∧
      ∃ (submission : Submission deployment.external params) (serviceId : Nat)
        (line : List SpecVersionMeta) (ops : List ContractOp) (now : Instant)
        (outbox : List NewWebhookEvent),
        params.dryRun = false ∧ Admitted submission serviceId line ops client.history ∧
          record = upsertRecord submission serviceId (submission.existing line) now outbox := by
  obtain ⟨action, params, there, submits, allowed⟩ := follows.provides issued rfl
  refine ⟨action, params, there, submits, ?_⟩
  cases allowed with
  | reads reads => cases reads
  | prepare preparing prepares own => exact absurd rfl (prepares.not_upsert record)
  | refresh written identical untried follows => exact absurd rfl (follows.not_upsert record)
  | upsert written preparing admitted now outbox =>
      exact ⟨_, _, _, _, now, outbox, written, admitted, rfl⟩
  | follow written admitted landed applied follows => exact absurd rfl (follows.not_upsert record)

/-- A client that claims a message planned to, from what it read of it. -/
theorem Follows.claims (follows : Follows deployment actions place client)
    {contract : ChannelMessageContract}
    (issued : client.next? = some (.repo (.upsertChannelMessageContract contract))) :
    ∃ message serviceId, contract = newContract message serviceId ∧
      MessagePlanned deployment.external serviceId client.history message [.upsert contract] := by
  obtain ⟨action, params, there, submits, allowed⟩ := follows.provides issued rfl
  cases allowed with
  | reads reads => cases reads
  | prepare preparing prepares own => exact absurd rfl (prepares.not_claim contract)
  | refresh written identical untried follows => cases follows
  | claim written admitted landed contract next =>
      have among := next.subset (List.mem_append_right _ List.mem_cons_self)
      obtain ⟨-, -, message, -, same, planned⟩ := (admitted.planned_of_mem among).claimed among
      exact ⟨message, _, same, planned⟩
  | follow written admitted landed applied follows => cases follows

/-- A submission that releases a contract listed it as its own. -/
theorem Follows.releases (follows : Follows deployment actions place client)
    {action : Action} {params : ProvideSpecParams} (there : actions[place]? = some action)
    (submits : action.Submits params) {channel messageName : String}
    (issued : client.next? = some (.repo (.deleteChannelMessageContract channel messageName))) :
    ∃ name serviceId contracts, Heard client.history (.ensureService name) serviceId ∧
      Heard client.history .listChannelMessageContracts contracts ∧
      ∃ contract ∈ contracts, contract.ownerServiceId = serviceId ∧ contract.channel = channel ∧
        contract.messageName = messageName := by
  obtain ⟨other, here, allowed⟩ := follows.next issued
  cases here.symm.trans there
  cases allowed with
  | reads reads => cases reads
  | otherwise otherwise => exact absurd otherwise submits.not_otherwise
  | submits params submits allowed =>
      cases allowed with
      | reads reads => cases reads
      | prepare preparing prepares own => exact absurd rfl (prepares.not_release channel messageName)
      | refresh written identical untried follows => cases follows
      | release written admitted landed channel messageName next =>
          have among := next.subset (List.mem_append_right _ List.mem_cons_self)
          obtain ⟨-, contracts, -, listed, own, -⟩ := (admitted.planned_of_mem among).dropped among
          exact ⟨_, _, contracts, admitted.served.ensured written, listed, own⟩
      | follow written admitted landed applied follows => cases follows

end Writers

section Snapshots

/-- An authenticated caller is about to replace someone else's snapshot with other bytes, and
the write will land. -/
structure ForeignSnapshot (environment : Environment) (actions : List Action) (pool : Clients)
    (place : Nat) (client : ServiceClient) (record : UpsertSpecVersion) (row : SpecVersionRow) :
    Prop where
  issues : pool.Issues place client (.repo (.upsertSpecVersion record))
  declared : ∃ params origin actor, actions[place]? = some (.provide params origin) ∧
    params.stability = .snapshot ∧ params.caller = some actor ∧ row.entry.providedBy ≠ actor.username
  stored : pool.state.store.specVersion? (UpsertSpecVersion.key record) = some row
  snapshot : row.entry.stability = .snapshot
  owned : row.entry.providedBy ≠ ""
  differs : row.content ≠ record.content
  lands : ∃ id, (World.handle environment pool.state (.repo (.upsertSpecVersion record))).2 = .ok id

/-- The turn replaces nobody else's snapshot. -/
def KeepsSnapshots (environment : Environment) (actions : List Action) (pool : Clients)
    (place : Nat) : Prop :=
  ∀ client record row, ¬ ForeignSnapshot environment actions pool place client record row

/-- Where the turn would replace someone else's snapshot, the writer's own reading of the line
had shown that provider under the number. -/
def SawProvider (environment : Environment) (actions : List Action) (pool : Clients)
    (place : Nat) : Prop :=
  ∀ client record row, ForeignSnapshot environment actions pool place client record row →
    ∀ entries, Heard client.history (.listSpecVersions record.serviceId) entries →
      ∃ entry, (entries.filter (·.apiType = record.apiType)).find? (·.version = record.version) =
        some entry ∧ entry.providedBy = row.entry.providedBy

variable {deployment : Deployment} {forms : AnswerForms} {environment : Environment} {world : World}
  {actions : List Action}

/-- A writer that was shown the other provider has been refused before. -/
theorem keeps_of_sawProvider {pool : Clients} {place : Nat}
    (held : pool.Holds (fun _ => True) (Follows deployment actions))
    (saw : SawProvider environment actions pool place) :
    KeepsSnapshots environment actions pool place := by
  intro client record row foreign
  obtain ⟨params, origin, actor, there, declared, caller, other⟩ := foreign.declared
  obtain ⟨found, issued⟩ := foreign.issues
  obtain ⟨action, submitted, here, submits, submission, serviceId, line, ops, now, outbox, written,
    admitted, rfl⟩ := (held.clients place client found).upserts issued
  cases here.symm.trans there
  obtain rfl : submitted = params := submits
  rcases admitted.served.listed with ⟨unknown, -⟩ | ⟨entries, heard, rfl⟩
  · -- no stored entry belongs to the service that does not exist
    have sound := pool.state.database.sound
    obtain ⟨among, keyed⟩ := Store.mem_of_specVersion? foreign.stored
    have owner : row.entry.serviceId = serviceId := congrArg Prod.fst keyed
    obtain ⟨service, known, same⟩ := (Store.serviceName?_isSome_iff _ _).mp
      (sound.versionService row among)
    have positive := (sound.serviceFresh service known).1
    omega
  · obtain ⟨entry, existing, provider⟩ := saw client _ row foreign entries heard
    have mine := (admitted.number entry existing).2 declared
    simp [ownedByOther, ProvideSpecParams.username, caller, provider, foreign.owned, Ne.symm other]
      at mine

/-- Nobody's snapshot is replaced by another user in a run exactly when every writer had been
shown the provider whose snapshot it would replace. -/
theorem snapshots_kept_iff (deployment : Deployment) (forms : AnswerForms)
    (environment : Environment) (world : World) (actions : List Action) (schedule : List Nat) :
    Pool.Steps (World.handle environment) (KeepsSnapshots environment actions)
        (opening deployment forms world actions) schedule ↔
      Pool.Steps (World.handle environment) (SawProvider environment actions)
        (opening deployment forms world actions) schedule :=
  steps_iff (fun _ _ keeps client record row foreign => absurd foreign (keeps client record row))
    (fun _ _ held => keeps_of_sawProvider held) schedule

/-- Whether the next call of a client replaces the snapshot of a user other than this one. -/
def replacesOther (environment : Environment) (pool : Clients) (place : Nat) (username : String) :
    Bool :=
  match (pool.clients[place]?).bind Client.next? with
  | some (.repo (.upsertSpecVersion record)) =>
      (pool.state.store.specVersion? (UpsertSpecVersion.key record)).any (fun row =>
        row.entry.stability = .snapshot && row.entry.providedBy ≠ "" &&
          row.entry.providedBy ≠ username && row.content ≠ record.content) &&
      (World.handle environment pool.state (.repo (.upsertSpecVersion record))).2.isOk
  | _ => false

theorem replacesOther_spec {pool : Clients} {place : Nat} {params : ProvideSpecParams}
    {origin : Option VersionOrigin} {actor : Actor}
    (there : actions[place]? = some (.provide params origin)) (declared : params.stability = .snapshot)
    (caller : params.caller = some actor)
    (replaces : replacesOther environment pool place actor.username = true) :
    ∃ client record row, ForeignSnapshot environment actions pool place client record row := by
  unfold replacesOther at replaces
  split at replaces
  · rename_i record next
    obtain ⟨client, found, issued⟩ := Option.bind_eq_some_iff.mp next
    obtain ⟨held, lands⟩ := (Bool.and_eq_true _ _).mp replaces
    obtain ⟨row, stored, fitting⟩ := (Option.any_eq_true _ _).mp held
    simp only [Bool.and_eq_true, decide_eq_true_eq] at fitting
    obtain ⟨⟨⟨snapshot, owned⟩, other⟩, differs⟩ := fitting
    refine ⟨client, record, row, ⟨found, issued⟩, ⟨params, origin, actor, there, declared, caller,
      other⟩, stored, snapshot, owned, differs, ?_⟩
    revert lands
    cases (World.handle environment pool.state (.repo (.upsertSpecVersion record))).2 with
    | ok id => exact fun _ => ⟨id, rfl⟩
    | error error => exact fun lands => by cases lands
  · cases replaces

def answersOk (pool : Clients) (place : Nat) : Bool :=
  match (pool.clients[place]?).bind Client.outcome? with
  | some (.ok _) => true
  | _ => false

/-- Two developers who both found a number unused both answer Ok, the second one over the
snapshot of the first. -/
theorem snapshot_of_other_replaced :
    let start := opening (quietService markerLibrary) noForms emptyWorld snapshotRace
    (∃ client record row, ForeignSnapshot steadyEnvironment snapshotRace
      (start.run (World.handle steadyEnvironment) [0, 0, 0, 0, 1, 1, 1, 1, 0]) 1 client record row) ∧
    ∀ place < 2, answersOk (start.run (World.handle steadyEnvironment)
      ([0, 0, 0, 0, 1, 1, 1, 1, 0] ++ [1, 1, 1, 0, 0])) place = true := by
  have there : snapshotRace[1]? = some (.provide (snapshotOf .proto (developer 3 "bob")
    "//sanshain-version:1\n") none) := rfl
  constructor
  · exact replacesOther_spec there rfl rfl (by decide +kernel)
  · decide +kernel

end Snapshots

section Contracts

/-- A client was shown a contract as it stands, with an owner who is there. -/
structure Shown (history : Calls) (row : ChannelMessageContract) : Prop where
  contract : ∀ found, Heard history (.getChannelMessageContract row.channel row.messageName) found →
    found = some row
  owner : ∀ name, Heard history (.getServiceNameById row.ownerServiceId) name → name ≠ none
  listed : ∀ contracts, Heard history .listChannelMessageContracts contracts →
    ∀ other ∈ contracts, other.channel = row.channel → other.messageName = row.messageName →
      other = row

/-- A submission is about to change a stored contract against its owner: it takes or removes what
another live service owns, or narrows what it owns itself. -/
inductive Violates (external : External) (environment : Environment) (actions : List Action)
    (pool : Clients) (place : Nat) (client : ServiceClient) (row : ChannelMessageContract) : Prop
  | taken (contract : ChannelMessageContract)
      (issues : pool.Issues place client (.repo (.upsertChannelMessageContract contract)))
      (stored : pool.state.store.contract? contract.channel contract.messageName = some row)
      (lands : (World.handle environment pool.state
        (.repo (.upsertChannelMessageContract contract))).2 = .ok ())
      (foreign : row.ownerServiceId ≠ contract.ownerServiceId)
      (live : (pool.state.store.serviceName? row.ownerServiceId).isSome)
  | narrowed (contract : ChannelMessageContract)
      (issues : pool.Issues place client (.repo (.upsertChannelMessageContract contract)))
      (stored : pool.state.store.contract? contract.channel contract.messageName = some row)
      (lands : (World.handle environment pool.state
        (.repo (.upsertChannelMessageContract contract))).2 = .ok ())
      (own : row.ownerServiceId = contract.ownerServiceId)
      (breaks : AsyncApiDocument.checkPayloadCompatible external row.payloadYaml
        contract.payloadYaml ≠ .ok ())
  | removed (channel messageName : String) (action : Action) (params : ProvideSpecParams)
      (there : actions[place]? = some action) (submits : action.Submits params)
      (issues : pool.Issues place client
        (.repo (.deleteChannelMessageContract channel messageName)))
      (stored : pool.state.store.contract? channel messageName = some row)
      (lands : (World.handle environment pool.state
        (.repo (.deleteChannelMessageContract channel messageName))).2 = .ok ())
      (foreign : ∀ name, ¬ Heard client.history (.ensureService name) row.ownerServiceId)
      (live : (pool.state.store.serviceName? row.ownerServiceId).isSome)

/-- The turn changes no contract against its owner. -/
def KeepsContracts (external : External) (environment : Environment) (actions : List Action)
    (pool : Clients) (place : Nat) : Prop :=
  ∀ client row, ¬ Violates external environment actions pool place client row

/-- Where the turn would change a contract against its owner, the writer's planning had been
shown that contract as it stands. -/
def SawContracts (external : External) (environment : Environment) (actions : List Action)
    (pool : Clients) (place : Nat) : Prop :=
  ∀ client row, Violates external environment actions pool place client row →
    Shown client.history row

variable {deployment : Deployment} {environment : Environment} {actions : List Action}

/-- What was shown as it stands is planned for as it stands. -/
theorem claim_of_shown {serviceId : Nat} {history : Calls} {message : AsyncApiDocument.PubMessage}
    {contract row : ChannelMessageContract}
    (planned : MessagePlanned deployment.external serviceId history message [.upsert contract])
    (shown : Shown history row) (channel : row.channel = message.channel)
    (name : row.messageName = message.messageName) :
    row.ownerServiceId = serviceId ∧
      AsyncApiDocument.checkPayloadCompatible deployment.external row.payloadYaml
        message.payloadYaml = .ok () := by
  have read := shown.contract
  rw [channel, name] at read
  cases planned with
  | unclaimed heard => cases read _ heard
  | orphaned contract heard gone =>
      cases read _ heard
      exact absurd rfl (shown.owner _ gone)
  | owned contract name heard alive own widened =>
      cases read _ heard
      exact ⟨own, widened⟩

theorem keeps_of_sawContracts {pool : Clients} {place : Nat}
    (held : pool.Holds (fun _ => True) (Follows deployment actions))
    (saw : SawContracts deployment.external environment actions pool place) :
    KeepsContracts deployment.external environment actions pool place := by
  intro client row violates
  have shown := saw client row violates
  cases violates with
  | taken contract issues stored lands foreign live =>
      obtain ⟨found, issued⟩ := issues
      obtain ⟨message, serviceId, rfl, planned⟩ := (held.clients place client found).claims issued
      obtain ⟨-, channel, name⟩ := Store.mem_of_contract? stored
      exact foreign (claim_of_shown planned shown channel name).1
  | narrowed contract issues stored lands own breaks =>
      obtain ⟨found, issued⟩ := issues
      obtain ⟨message, serviceId, rfl, planned⟩ := (held.clients place client found).claims issued
      obtain ⟨-, channel, name⟩ := Store.mem_of_contract? stored
      exact breaks (claim_of_shown planned shown channel name).2
  | removed channel messageName action params there submits issues stored lands foreign live =>
      obtain ⟨found, issued⟩ := issues
      obtain ⟨name, serviceId, contracts, ensured, listed, contract, among, own, rfl, rfl⟩ :=
        (held.clients place client found).releases there submits issued
      obtain ⟨-, channel, name⟩ := Store.mem_of_contract? stored
      rw [← shown.listed contracts listed contract among channel.symm name.symm, own] at foreign
      exact foreign _ ensured

/-- No contract changes against its owner in a run exactly when every writer that might have
done so had planned from the contract as it stood. -/
theorem contracts_kept_iff (deployment : Deployment) (forms : AnswerForms)
    (environment : Environment) (world : World) (actions : List Action) (schedule : List Nat) :
    Pool.Steps (World.handle environment)
        (KeepsContracts deployment.external environment actions)
        (opening deployment forms world actions) schedule ↔
      Pool.Steps (World.handle environment)
        (SawContracts deployment.external environment actions)
        (opening deployment forms world actions) schedule :=
  steps_iff (fun _ _ keeps client row violates => absurd violates (keeps client row))
    (fun _ _ held => keeps_of_sawContracts held) schedule

/-- Whether the next call of a client takes a message from another live owner. -/
def takesContract (environment : Environment) (pool : Clients) (place : Nat) : Bool :=
  match (pool.clients[place]?).bind Client.next? with
  | some (.repo (.upsertChannelMessageContract contract)) =>
      (pool.state.store.contract? contract.channel contract.messageName).any (fun row =>
        row.ownerServiceId ≠ contract.ownerServiceId &&
          (pool.state.store.serviceName? row.ownerServiceId).isSome) &&
      (World.handle environment pool.state
        (.repo (.upsertChannelMessageContract contract))).2.isOk
  | _ => false

theorem takesContract_spec {pool : Clients} {place : Nat}
    (takes : takesContract environment pool place = true) (external : External) :
    ∃ client row, Violates external environment actions pool place client row := by
  unfold takesContract at takes
  split at takes
  · rename_i contract next
    obtain ⟨client, found, issued⟩ := Option.bind_eq_some_iff.mp next
    obtain ⟨held, lands⟩ := (Bool.and_eq_true _ _).mp takes
    obtain ⟨row, stored, fitting⟩ := (Option.any_eq_true _ _).mp held
    simp only [Bool.and_eq_true, decide_eq_true_eq] at fitting
    refine ⟨client, row, .taken contract ⟨found, issued⟩ stored ?_ fitting.1 fitting.2⟩
    revert lands
    cases (World.handle environment pool.state
        (.repo (.upsertChannelMessageContract contract))).2 with
    | ok done => exact fun _ => rfl
    | error error => exact fun lands => by cases lands
  · cases takes

/-- Two Producers that both found a message unclaimed both answer Ok, and the second one takes
the message from the first. -/
theorem message_of_other_taken :
    let start := opening (quietService channelLibrary) noForms emptyWorld messageRace
    (∃ client row, Violates (quietService channelLibrary).external steadyEnvironment messageRace
      (start.run (World.handle steadyEnvironment) [0, 0, 0, 0, 0, 1, 1, 1, 1, 1, 0, 0, 0, 1, 1]) 1
      client row) ∧
    ∀ place < 2, answersOk (start.run (World.handle steadyEnvironment)
      ([0, 0, 0, 0, 0, 1, 1, 1, 1, 1, 0, 0, 0, 1, 1] ++
        [1, 1, 1, 1, 1, 1, 0, 0, 0, 0, 0])) place = true := by
  constructor
  · exact takesContract_spec (by decide +kernel) _
  · decide +kernel

end Contracts
end Sanshain.Guarantees
