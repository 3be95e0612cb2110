import Sanshain.Effects.Transaction
import Sanshain.Infrastructure.Lines

namespace Sanshain.Infrastructure

open Sanshain.Data Sanshain.Domain Sanshain.Effects

abbrev StoreStatement := Statement Store RepositoryError

section Statements

/-- The row of an event; an identifier is used once. -/
def insertEvent (event : NewWebhookEvent) : StoreStatement := fun store =>
  if event.id ∈ store.outbox.map (·.id) then .error (constraintFailed "UNIQUE")
  else .ok { store with outbox := store.outbox ++ [event] }

/-- One row of the fan-out; a delivery needs its hook. -/
def insertDelivery (event : NewWebhookEvent) (hookId : Nat) : StoreStatement := fun store =>
  if hookId ∈ store.webhooks.map (·.id) then
    .ok { store with deliveries := store.deliveries ++ [⟨hookId, event.id, event.occurredAt⟩] }
  else .error (constraintFailed "FOREIGN KEY")

/-- Events and their fan-out rows inside the caller's transaction. -/
def writeOutboxStatements (events : List NewWebhookEvent) : List StoreStatement :=
  events.flatMap fun event => insertEvent event :: event.hookIds.map (insertDelivery event)

/-- The insert or the compare-and-set of a version's row, with the endpoints that replace its own. -/
def upsertVersionStatement (params : UpsertSpecVersion) : StoreStatement := fun store =>
  store.writeVersionRow params

def selectVersionStatement (params : UpsertSpecVersion) : StoreStatement := fun store =>
  if (store.specVersion? (UpsertSpecVersion.key params)).isSome then .ok store
  else .error (.internal "no rows returned by a query that expected to return at least one row")

/-- The inserts of the endpoints, of which a version has each once. -/
def insertEndpointsStatement (params : UpsertSpecVersion) : StoreStatement := fun store =>
  if (params.endpoints.map endpointKey).Nodup then .ok store
  else .error (constraintFailed "UNIQUE")

def insertDependenciesStatement (now : Instant) (params : List RecordDependencyParams) :
    StoreStatement := fun store =>
  if params.any fun p => (store.clientName? p.clientId).isNone ||
      (store.specVersionById? p.specVersionId).isNone then
    .error (constraintFailed "FOREIGN KEY")
  else .ok { store with dependencies := params.foldl (Store.recordDependency now) store.dependencies }

def reconcileTrackStatement (system : String) (resources : List String) (now : Instant)
    (track : PeripheryTrack) : StoreStatement := fun store =>
  .ok { store with periphery := Store.reconcileTrack system resources now store.periphery track }

def insertBranchStatement (name : String) (createdAt : Instant) (createdBy source : String)
    (asOf : Instant) : StoreStatement := fun store =>
  if name ∈ store.branches.map (·.name) then .error .conflict
  else .ok { store with
    branches := store.branches ++ [⟨store.nextBranchId, name, createdAt, createdBy, source, asOf⟩]
    nextBranchId := store.nextBranchId + 1 }

end Statements

/-- A write of a fact together with its events. -/
inductive FactWrite where
  | upsertSpecVersion (params : UpsertSpecVersion)
  | recordDependenciesBulk (params : List RecordDependencyParams) (outbox : List NewWebhookEvent)
  | reconcilePeriphery (system : String) (trunk : Bool) (resources : List String) (nowIso : Instant)
      (outbox : List NewWebhookEvent)
  | insertBranch (name : String) (createdAt : Instant) (createdBy source : String) (asOf : Instant)
      (outbox : List NewWebhookEvent)

namespace FactWrite

def outbox : FactWrite → List NewWebhookEvent
  | .upsertSpecVersion params => params.outbox
  | .recordDependenciesBulk _ outbox | .reconcilePeriphery _ _ _ _ outbox
  | .insertBranch _ _ _ _ _ outbox => outbox

def request : FactWrite → RepoCall
  | .upsertSpecVersion params => .upsertSpecVersion params
  | .recordDependenciesBulk params outbox => .recordDependenciesBulk params outbox
  | .reconcilePeriphery system trunk resources nowIso outbox =>
      .reconcilePeriphery system trunk resources nowIso outbox
  | .insertBranch name createdAt createdBy source asOf outbox =>
      .insertBranch name createdAt createdBy source asOf outbox

/-- The statements of the fact. Without dependencies there is none. -/
def factStatements (now : Instant) : FactWrite → List StoreStatement
  | .upsertSpecVersion params =>
      [upsertVersionStatement params, selectVersionStatement params, insertEndpointsStatement params]
  | .recordDependenciesBulk params _ =>
      if params.isEmpty then [] else [insertDependenciesStatement now params]
  | .reconcilePeriphery system trunk resources nowIso _ =>
      (Store.peripheryTracks trunk).map (reconcileTrackStatement system resources nowIso)
  | .insertBranch name createdAt createdBy source asOf _ =>
      [insertBranchStatement name createdAt createdBy source asOf]

def statements (now : Instant) (write : FactWrite) : List StoreStatement :=
  write.factStatements now ++ writeOutboxStatements write.outbox

/-- The call, where the begin, a statement or the commit may fail. With nothing to write there is no
transaction. -/
def attempt (fault : Nat → Option RepositoryError) (now : Instant) (write : FactWrite)
    (store : Store) : Store × Except RepositoryError Unit :=
  if (write.statements now).isEmpty then (store, .ok ())
  else transact fault (write.statements now) store

end FactWrite

section Outbox

variable {store after : Store}

theorem inSequence_insertDelivery (event : NewWebhookEvent) (hookIds : List Nat) (store : Store) :
    inSequence (hookIds.map (insertDelivery event)) store =
      if hookIds.any fun hook => hook ∉ store.webhooks.map (·.id) then
        .error (constraintFailed "FOREIGN KEY")
      else .ok { store with
        deliveries := store.deliveries ++ hookIds.map fun hook =>
          ⟨hook, event.id, event.occurredAt⟩ } := by
  induction hookIds generalizing store with
  | nil => simp [inSequence]
  | cons hook rest ih =>
      by_cases known : hook ∈ store.webhooks.map (·.id)
      · simp only [List.map_cons, inSequence, insertDelivery, if_pos known, List.any_cons]
        rw [ih]
        simp only [known, not_true, decide_false, Bool.false_or]
        split
        · rfl
        · rw [List.append_assoc]
          rfl
      · simp only [List.map_cons, inSequence, insertDelivery, if_neg known, List.any_cons]
        simp [known]

/-- The statements of the outbox, one after another, are the write of the outbox. -/
theorem inSequence_writeOutbox (events : List NewWebhookEvent) (store : Store) :
    inSequence (writeOutboxStatements events) store = store.writeOutbox events := by
  induction events generalizing store with
  | nil => rfl
  | cons event rest ih =>
      have split : writeOutboxStatements (event :: rest) =
          insertEvent event :: (event.hookIds.map (insertDelivery event) ++
            writeOutboxStatements rest) := rfl
      rw [split, Store.writeOutbox]
      by_cases used : event.id ∈ store.outbox.map (·.id)
      · simp only [inSequence, insertEvent, if_pos used]
      · simp only [inSequence, insertEvent, if_neg used]
        rw [inSequence_append, inSequence_insertDelivery]
        by_cases missing : (event.hookIds.any fun hook => hook ∉ store.webhooks.map (·.id)) = true
        · simp only [if_pos missing]
        · simp only [if_neg missing]
          exact ih _

end Outbox

section Refinement

variable {store after : Store} {now : Instant}

/-- The statements of the tracks are their reconciliation, one after another. -/
theorem inSequence_reconcileTracks (system : String) (resources : List String) (nowIso : Instant)
    (tracks : List PeripheryTrack) (store : Store) :
    inSequence (tracks.map (reconcileTrackStatement system resources nowIso)) store =
      .ok { store with
        periphery := tracks.foldl (Store.reconcileTrack system resources nowIso)
          store.periphery } := by
  induction tracks generalizing store with
  | nil => rfl
  | cons track rest ih => exact ih _

/-- The statements of a write, where none of them is struck, do what the call does. -/
theorem statements_perform (write : FactWrite) :
    (∃ after, inSequence (write.statements now) store = .ok after ∧
        (store.perform now write.request).1 = after ∧
        ∃ result, (store.perform now write.request).2 = .ok result) ∨
      ∃ error, inSequence (write.statements now) store = .error error ∧
        store.perform now write.request = (store, .error error) := by
  unfold FactWrite.statements
  rw [inSequence_append]
  cases write with
  | upsertSpecVersion params =>
      cases wrote : store.writeVersionRow params with
      | error error =>
          refine .inr ⟨error, ?_, ?_⟩
          · simp only [FactWrite.factStatements, inSequence, upsertVersionStatement, wrote]
          · simp only [FactWrite.request, Store.perform, Store.upsertSpecVersion, wrote, Store.tried]
      | ok written =>
          obtain ⟨row, found⟩ := Store.writeVersionRow_found wrote
          by_cases distinct : (params.endpoints.map endpointKey).Nodup
          · simp only [FactWrite.factStatements, inSequence, upsertVersionStatement, wrote,
              selectVersionStatement, found, Option.isSome_some, if_true, insertEndpointsStatement,
              if_pos distinct, inSequence_writeOutbox, FactWrite.outbox, FactWrite.request,
              Store.perform, Store.upsertSpecVersion]
            cases written.writeOutbox params.outbox with
            | error error => exact .inr ⟨error, rfl, rfl⟩
            | ok after => exact .inl ⟨after, rfl, rfl, row.entry.id, rfl⟩
          · simp only [FactWrite.factStatements, inSequence, upsertVersionStatement, wrote,
              selectVersionStatement, found, Option.isSome_some, if_true, insertEndpointsStatement,
              if_neg distinct, FactWrite.request, Store.perform, Store.upsertSpecVersion]
            exact .inr ⟨_, rfl, rfl⟩
  | recordDependenciesBulk params outbox =>
      simp only [FactWrite.factStatements, FactWrite.outbox, FactWrite.request, Store.perform,
        Store.recordDependenciesBulk]
      by_cases missing : (params.any fun p => (store.clientName? p.clientId).isNone ||
          (store.specVersionById? p.specVersionId).isNone) = true
      · have some : params.isEmpty = false := by
          cases params with
          | nil => cases missing
          | cons first rest => rfl
        simp only [some, Bool.false_eq_true, if_false, inSequence, insertDependenciesStatement,
          if_pos missing]
        exact .inr ⟨_, rfl, rfl⟩
      · have recorded : inSequence (if params.isEmpty then []
            else [insertDependenciesStatement now params]) store =
              .ok { store with
                dependencies := params.foldl (Store.recordDependency now) store.dependencies } := by
          cases params with
          | nil => rfl
          | cons first rest =>
              simp only [List.isEmpty_cons, Bool.false_eq_true, if_false, inSequence,
                insertDependenciesStatement, if_neg missing]
        rw [recorded, if_neg missing]
        simp only [inSequence_writeOutbox]
        cases ({ store with
            dependencies := params.foldl (Store.recordDependency now) store.dependencies } :
              Store).writeOutbox outbox with
        | error error => exact .inr ⟨error, rfl, rfl⟩
        | ok after => exact .inl ⟨after, rfl, rfl, (), rfl⟩
  | reconcilePeriphery system trunk resources nowIso outbox =>
      simp only [FactWrite.factStatements, FactWrite.outbox, FactWrite.request, Store.perform,
        Store.reconcilePeriphery, inSequence_reconcileTracks, inSequence_writeOutbox]
      cases ({ store with
          periphery := (Store.peripheryTracks trunk).foldl
            (Store.reconcileTrack system resources nowIso) store.periphery } :
              Store).writeOutbox outbox with
      | error error => exact .inr ⟨error, rfl, rfl⟩
      | ok after => exact .inl ⟨after, rfl, rfl, _, rfl⟩
  | insertBranch name createdAt createdBy source asOf outbox =>
      simp only [FactWrite.factStatements, FactWrite.outbox, FactWrite.request, Store.perform,
        Store.insertBranch, inSequence, insertBranchStatement]
      by_cases used : name ∈ store.branches.map (·.name)
      · simp only [if_pos used]
        exact .inr ⟨_, rfl, rfl⟩
      · simp only [if_neg used, inSequence_writeOutbox]
        cases ({ store with
            branches := store.branches ++
              [⟨store.nextBranchId, name, createdAt, createdBy, source, asOf⟩]
            nextBranchId := store.nextBranchId + 1 } : Store).writeOutbox outbox with
        | error error => exact .inr ⟨error, rfl, rfl⟩
        | ok after => exact .inl ⟨after, rfl, rfl, store.nextBranchId, rfl⟩

/-- An attempt has done what the call does, or nothing. -/
theorem FactWrite.attempt_cases (fault : Nat → Option RepositoryError) (now : Instant)
    (write : FactWrite) (store : Store) :
    (∃ after, inSequence (write.statements now) store = .ok after ∧
        write.attempt fault now store = (after, .ok ())) ∨
      ∃ error, write.attempt fault now store = (store, .error error) := by
  unfold attempt
  split
  · rename_i empty
    rw [List.isEmpty_iff.mp empty]
    exact .inl ⟨store, rfl, rfl⟩
  · exact transact_cases fault (write.statements now) store

end Refinement
end Sanshain.Infrastructure
