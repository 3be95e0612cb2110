import Sanshain.Domain.Deliveries

namespace Sanshain.Infrastructure

open Sanshain.Domain

/-- The hooks and their deliveries; a delivery is one row. -/
structure DeliveryTables where
  webhooks : List DeliveryHook
  deliveries : List WebhookDelivery
  distinct : (deliveries.map (·.id)).Nodup

/-- The columns that one attempt outcome writes. -/
structure AttemptColumns where
  status : WebhookDeliveryStatus
  attempted : Bool
  next : Option Instant
  code : Option Nat
  error : Option String
  delivered : Bool

def attemptColumns : WebhookAttemptOutcome → AttemptColumns
  | .delivered code => ⟨.delivered, true, none, some code, none, true⟩
  | .failed code error nextAttemptAt => ⟨.failed, true, some nextAttemptAt, code, some error, false⟩
  | .dead code error => ⟨.dead, true, none, code, some error, false⟩
  | .expired error => ⟨.dead, false, none, none, some error, false⟩

@[simp] theorem attemptColumns_attempted (outcome : WebhookAttemptOutcome) :
    (attemptColumns outcome).attempted = outcome.attempted := by
  cases outcome <;> rfl

section Rows

/-- A row that a pass at the instant may claim, as far as the row says. -/
def isDue (now : Instant) (row : WebhookDelivery) : Bool :=
  !row.status.settled && decide (row.nextAttemptAt ≤ now)

/-- A row that a manual reset at the instant takes: settled, or due. -/
def isResettable (now : Instant) (row : WebhookDelivery) : Bool :=
  row.status.settled || decide (row.nextAttemptAt ≤ now)

def resetRow (now : Instant) (row : WebhookDelivery) : WebhookDelivery :=
  { row with status := .pending, nextAttemptAt := now, redeliveredAt := some now, updatedAt := now }

def leaseRow (leaseUntil : Instant) (row : WebhookDelivery) : WebhookDelivery :=
  { row with nextAttemptAt := leaseUntil }

def recordRow (now : Instant) (columns : AttemptColumns) (row : WebhookDelivery) : WebhookDelivery :=
  { row with
    status := columns.status
    attempts := row.attempts + if columns.attempted then 1 else 0
    nextAttemptAt := columns.next.getD row.nextAttemptAt
    lastResponseCode := columns.code
    lastError := columns.error
    deliveredAt := if columns.delivered then some now else none
    updatedAt := now }

@[simp] theorem resetRow_id (now : Instant) (row : WebhookDelivery) :
    (resetRow now row).id = row.id := rfl

@[simp] theorem leaseRow_id (leaseUntil : Instant) (row : WebhookDelivery) :
    (leaseRow leaseUntil row).id = row.id := rfl

@[simp] theorem recordRow_id (now : Instant) (columns : AttemptColumns) (row : WebhookDelivery) :
    (recordRow now columns row).id = row.id := rfl

/-- The order in which due rows are claimed. -/
def dueLe (first second : WebhookDelivery) : Prop :=
  first.nextAttemptAt < second.nextAttemptAt ∨
    first.nextAttemptAt = second.nextAttemptAt ∧ first.id ≤ second.id

instance (first second : WebhookDelivery) : Decidable (dueLe first second) :=
  inferInstanceAs (Decidable (_ ∨ _))

end Rows

namespace DeliveryTables

def hook? (tables : DeliveryTables) (hookId : Nat) : Option DeliveryHook :=
  tables.webhooks.find? (·.id = hookId)

/-- An update of the rows that a condition selects, which keeps their identifiers. -/
def update (tables : DeliveryTables) (selects : WebhookDelivery → Bool)
    (change : WebhookDelivery → WebhookDelivery) (keeps : ∀ row, (change row).id = row.id) :
    DeliveryTables where
  webhooks := tables.webhooks
  deliveries := tables.deliveries.map fun row => if selects row then change row else row
  distinct := by
    have same : (fun row : WebhookDelivery => (if selects row then change row else row).id) =
        fun row => row.id := by
      funext row
      split
      · exact keeps row
      · rfl
    rw [List.map_map]
    exact (congrArg (fun names => (tables.deliveries.map names).Nodup) same).mpr tables.distinct

/-- A row is the one row of its identifier. -/
theorem row_unique {tables : DeliveryTables} {row other : WebhookDelivery}
    (held : row ∈ tables.deliveries) (held' : other ∈ tables.deliveries) (same : row.id = other.id) :
    row = other :=
  List.inj_on_of_nodup_map tables.distinct held held' same

def resetWebhookDelivery (tables : DeliveryTables) (deliveryId : Nat) (now : Instant) :
    DeliveryTables × Bool :=
  (tables.update (fun row => row.id = deliveryId && isResettable now row) (resetRow now) fun _ => rfl,
    tables.deliveries.any fun row => row.id = deliveryId && isResettable now row)

/-- A row joined with its hook, unless the hook is paused. -/
def dueOf (tables : DeliveryTables) (row : WebhookDelivery) : Option DueWebhookDelivery :=
  (tables.hook? row.hookId).bind fun hook => if hook.paused then none else some ⟨row, hook⟩

/-- The due rows of hooks that are not paused, the longest due first. -/
def dueRows (tables : DeliveryTables) (now : Instant) : List DueWebhookDelivery :=
  ((tables.deliveries.filter (isDue now)).insertionSort dueLe).filterMap tables.dueOf

/-- The claimed rows carry the lease as their next instant. -/
def claimDueWebhookDeliveries (tables : DeliveryTables) (now leaseUntil : Instant) (limit : Nat) :
    DeliveryTables × List DueWebhookDelivery :=
  let due := (tables.dueRows now).take limit
  (tables.update (fun row => row.id ∈ due.map (·.delivery.id)) (leaseRow leaseUntil) fun _ => rfl, due)

/-- The outcome is written only while the row carries the lease of the claim. -/
def recordWebhookAttempt (tables : DeliveryTables) (deliveryId : Nat) (now : Instant)
    (outcome : WebhookAttemptOutcome) (leaseUntil : Instant) : DeliveryTables × Bool :=
  (tables.update (fun row => row.id = deliveryId && row.nextAttemptAt = leaseUntil)
      (recordRow now (attemptColumns outcome)) fun _ => rfl,
    tables.deliveries.any fun row => row.id = deliveryId && row.nextAttemptAt = leaseUntil)

/-- Pausing a hook leaves its deliveries. -/
def pauseWebhook (tables : DeliveryTables) (hookId : Nat) (paused : Bool) : DeliveryTables :=
  { tables with
    webhooks := tables.webhooks.map fun hook =>
      if hook.id = hookId then { hook with paused := paused } else hook }

theorem dueOf_delivery {tables : DeliveryTables} {row : WebhookDelivery} {due : DueWebhookDelivery}
    (found : tables.dueOf row = some due) : due.delivery = row := by
  obtain ⟨hook, -, chosen⟩ := Option.bind_eq_some_iff.mp found
  split at chosen
  · cases chosen
  · cases chosen
    rfl

/-- A claimed row was a due row. -/
theorem mem_dueRows {tables : DeliveryTables} {now : Instant} {due : DueWebhookDelivery}
    (held : due ∈ tables.dueRows now) :
    due.delivery ∈ tables.deliveries ∧ isDue now due.delivery = true := by
  obtain ⟨row, sorted, found⟩ := List.mem_filterMap.mp held
  rw [List.mem_insertionSort, List.mem_filter] at sorted
  exact (dueOf_delivery found).symm ▸ sorted

/-- No row is claimed twice at once. -/
theorem dueRows_nodup (tables : DeliveryTables) (now : Instant) :
    ((tables.dueRows now).map (·.delivery.id)).Nodup := by
  have sorted : (((tables.deliveries.filter (isDue now)).insertionSort dueLe).map (·.id)).Nodup := by
    refine ((List.perm_insertionSort dueLe _).map _).nodup_iff.mpr ?_
    exact tables.distinct.sublist (List.filter_sublist.map _)
  refine sorted.sublist ?_
  rw [dueRows]
  generalize (tables.deliveries.filter (isDue now)).insertionSort dueLe = rows
  induction rows with
  | nil => exact .slnil
  | cons row rest ih =>
      cases found : tables.dueOf row with
      | none =>
          rw [List.filterMap_cons_none found]
          exact ih.cons _
      | some due =>
          rw [List.filterMap_cons_some found, List.map_cons, List.map_cons, dueOf_delivery found]
          exact ih.cons_cons _

/-- What a row is after a claim: leased if it was among the claimed ones, which were due. -/
theorem mem_claimed {tables : DeliveryTables} {now leaseUntil : Instant} {limit : Nat}
    {row : WebhookDelivery}
    (held : row ∈ (tables.claimDueWebhookDeliveries now leaseUntil limit).1.deliveries) :
    ∃ old ∈ tables.deliveries,
      (old.id ∉ ((tables.dueRows now).take limit).map (·.delivery.id) ∧ row = old) ∨
        (isDue now old = true ∧ old.id ∈ ((tables.dueRows now).take limit).map (·.delivery.id) ∧
          row = leaseRow leaseUntil old) := by
  obtain ⟨old, among, same⟩ := List.mem_map.mp held
  refine ⟨old, among, ?_⟩
  split at same
  · rename_i chosen
    have taken := of_decide_eq_true chosen
    obtain ⟨item, first, named⟩ := List.mem_map.mp taken
    obtain ⟨there, due⟩ := mem_dueRows (List.mem_of_mem_take first)
    exact .inr ⟨row_unique there among named ▸ due, taken, same.symm⟩
  · rename_i other
    exact .inl ⟨fun chosen => other (decide_eq_true chosen), same.symm⟩

/-- What a row is after a reset: pending and due if it is the one, and was settled or due. -/
theorem mem_reset {tables : DeliveryTables} {now : Instant} {deliveryId : Nat} {row : WebhookDelivery}
    (held : row ∈ (tables.resetWebhookDelivery deliveryId now).1.deliveries) :
    ∃ old ∈ tables.deliveries,
      (¬ (old.id = deliveryId ∧ isResettable now old = true) ∧ row = old) ∨
        (old.id = deliveryId ∧ isResettable now old = true ∧ row = resetRow now old) := by
  obtain ⟨old, among, same⟩ := List.mem_map.mp held
  refine ⟨old, among, ?_⟩
  split at same
  · rename_i chosen
    simp only [Bool.and_eq_true, decide_eq_true_eq] at chosen
    exact .inr ⟨chosen.1, chosen.2, same.symm⟩
  · rename_i other
    simp only [Bool.and_eq_true, decide_eq_true_eq] at other
    exact .inl ⟨other, same.symm⟩

/-- What a row is after a report: it took the outcome if it has the lease of the claim. -/
theorem mem_recorded {tables : DeliveryTables} {now leaseUntil : Instant} {deliveryId : Nat}
    {outcome : WebhookAttemptOutcome} {row : WebhookDelivery}
    (held : row ∈ (tables.recordWebhookAttempt deliveryId now outcome leaseUntil).1.deliveries) :
    ∃ old ∈ tables.deliveries,
      (¬ (old.id = deliveryId ∧ old.nextAttemptAt = leaseUntil) ∧ row = old) ∨
        (old.id = deliveryId ∧ old.nextAttemptAt = leaseUntil ∧
          row = recordRow now (attemptColumns outcome) old) := by
  obtain ⟨old, among, same⟩ := List.mem_map.mp held
  refine ⟨old, among, ?_⟩
  split at same
  · rename_i chosen
    simp only [Bool.and_eq_true, decide_eq_true_eq] at chosen
    exact .inr ⟨chosen.1, chosen.2, same.symm⟩
  · rename_i other
    simp only [Bool.and_eq_true, decide_eq_true_eq] at other
    exact .inl ⟨other, same.symm⟩

/-- An outcome is accepted by the row of its delivery that has the lease. -/
theorem accepted_iff {tables : DeliveryTables} {now leaseUntil : Instant} {deliveryId : Nat}
    {outcome : WebhookAttemptOutcome} :
    (tables.recordWebhookAttempt deliveryId now outcome leaseUntil).2 = true ↔
      ∃ row ∈ tables.deliveries, row.id = deliveryId ∧ row.nextAttemptAt = leaseUntil := by
  simp [recordWebhookAttempt]

end DeliveryTables
end Sanshain.Infrastructure
