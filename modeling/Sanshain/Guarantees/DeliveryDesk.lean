import Sanshain.Application.WebhookDelivery
import Sanshain.Effects.Steps
import Sanshain.Infrastructure.Deliveries

namespace Sanshain.Guarantees

open Sanshain.Domain Sanshain.Effects Sanshain.Application Sanshain.Infrastructure

/-- A claim whose outcome has not been recorded: what the pass read, when it began, where its lease
ends, and whether its row has been claimed again or reset since. -/
structure Claim where
  item : DueWebhookDelivery
  pass : Moment
  leaseUntil : Instant
  disturbed : Bool := false

def Claim.deliveryId (claim : Claim) : Nat := claim.item.delivery.id

/-- An outcome that a row took, with the pass it is of. -/
structure Recorded where
  deliveryId : Nat
  pass : Moment
  outcome : WebhookAttemptOutcome

/-- The delivery tables with the claims of all workers, and what has been recorded and reset. -/
structure Desk where
  tables : DeliveryTables
  claims : List Claim := []
  recorded : List Recorded := []
  redelivered : List Nat := []
  clock : Moment

/-- A worker claims, reports the outcome of one of the claims, or reports never; an operator
redelivers or pauses. A report is of any claim that is out, whoever holds it. -/
inductive DeskStep where
  | claim (now : Moment) (leaseSecs : Nat) (limit : Nat)
  | report (now : Moment) (place : Nat) (allowed : List String) (baseUrl : Option String)
  | redeliver (now : Moment) (deliveryId : Nat)
  | pause (now : Moment) (hookId : Nat) (paused : Bool)

/-- A claim holds its rows for some time. -/
def DeskStep.leases : DeskStep → Bool
  | .claim _ leaseSecs _ => decide (0 < leaseSecs)
  | _ => true

def DeskStep.now : DeskStep → Moment
  | .claim now _ _ | .report now _ _ _ | .redeliver now _ | .pause now _ _ => now

/-- The claims of these rows are no longer undisturbed. -/
def disturb (ids : List Nat) (claim : Claim) : Claim :=
  if claim.deliveryId ∈ ids then { claim with disturbed := true } else claim

@[simp] theorem disturb_deliveryId (ids : List Nat) (claim : Claim) :
    (disturb ids claim).deliveryId = claim.deliveryId := by
  unfold disturb
  split <;> rfl

@[simp] theorem disturb_leaseUntil (ids : List Nat) (claim : Claim) :
    (disturb ids claim).leaseUntil = claim.leaseUntil := by
  unfold disturb
  split <;> rfl

@[simp] theorem disturb_pass (ids : List Nat) (claim : Claim) :
    (disturb ids claim).pass = claim.pass := by
  unfold disturb
  split <;> rfl

@[simp] theorem disturb_item (ids : List Nat) (claim : Claim) :
    (disturb ids claim).item = claim.item := by
  unfold disturb
  split <;> rfl

theorem disturb_disturbed (ids : List Nat) (claim : Claim) :
    (disturb ids claim).disturbed = (claim.disturbed || decide (claim.deliveryId ∈ ids)) := by
  unfold disturb
  split <;> simp [*]

@[simp] theorem disturb_nil (claim : Claim) : disturb [] claim = claim := by
  simp [disturb]

namespace Desk

/-- A pass of a worker begins. -/
def claim (desk : Desk) (now : Moment) (leaseSecs limit : Nat) : Desk :=
  let leaseUntil := (after now leaseSecs).iso
  let claimed := desk.tables.claimDueWebhookDeliveries now.iso leaseUntil limit
  { desk with
    tables := claimed.1
    claims := desk.claims.map (disturb (claimed.2.map (·.delivery.id))) ++
      claimed.2.map fun item => ⟨item, now, leaseUntil, false⟩
    clock := now }

/-- The outcome of a claim. -/
def outcome (receiver : Receiver) (claim : Claim) (allowed : List String) (baseUrl : Option String) :
    WebhookAttemptOutcome :=
  attempt receiver claim.item allowed baseUrl claim.pass

/-- The attempt of a claim is over: its outcome is recorded if the row still has its lease. -/
def record (desk : Desk) (now : Moment) (place : Nat) (claim : Claim)
    (outcome : WebhookAttemptOutcome) : Desk :=
  let written := desk.tables.recordWebhookAttempt claim.deliveryId claim.pass.iso outcome
    claim.leaseUntil
  { desk with
    tables := written.1
    claims := desk.claims.eraseIdx place
    recorded := if written.2 then desk.recorded ++ [⟨claim.deliveryId, claim.pass, outcome⟩]
      else desk.recorded
    clock := now }

def report (receiver : Receiver) (desk : Desk) (now : Moment) (place : Nat) (allowed : List String)
    (baseUrl : Option String) : Desk :=
  match desk.claims[place]? with
  | none => { desk with clock := now }
  | some claim => desk.record now place claim (outcome receiver claim allowed baseUrl)

def redeliver (desk : Desk) (now : Moment) (deliveryId : Nat) : Desk :=
  let reset := desk.tables.resetWebhookDelivery deliveryId now.iso
  { desk with
    tables := reset.1
    claims := if reset.2 then desk.claims.map (disturb [deliveryId]) else desk.claims
    redelivered := if reset.2 then desk.redelivered ++ [deliveryId] else desk.redelivered
    clock := now }

def step (receiver : Receiver) (desk : Desk) : DeskStep → Desk
  | .claim now leaseSecs limit => desk.claim now leaseSecs limit
  | .report now place allowed baseUrl => desk.report receiver now place allowed baseUrl
  | .redeliver now deliveryId => desk.redeliver now deliveryId
  | .pause now hookId paused =>
      { desk with tables := desk.tables.pauseWebhook hookId paused, clock := now }

/-- No worker is under way and nothing has been recorded. -/
def opened (tables : DeliveryTables) (clock : Moment) : Desk := { tables := tables, clock := clock }

/-- The clock does not go back, and a lease is positive. -/
def Timely (desk : Desk) (next : DeskStep) : Prop :=
  desk.clock ≤ next.now ∧ next.leases = true

instance (desk : Desk) (next : DeskStep) : Decidable (desk.Timely next) :=
  inferInstanceAs (Decidable (_ ∧ _))

end Desk

/-- How a claim that is out stands to its row: it holds it, or it lost it and its lease is over, and
a row that has the lease still is one that was reset. -/
structure Claim.Stands (claim : Claim) (clock : Moment) (row : WebhookDelivery) : Prop where
  lost : claim.disturbed = true →
    claim.leaseUntil ≤ clock.iso ∧ claim.leaseUntil ≤ row.nextAttemptAt ∧
      (row.nextAttemptAt = claim.leaseUntil → row.status.settled = false)
  holds : claim.disturbed = false →
    row.nextAttemptAt = claim.leaseUntil ∧ row.status.settled = false

/-- Leases follow each other: a delivery is claimed again only from the end of the lease before. -/
structure Leased (desk : Desk) : Prop where
  passes : ∀ claim ∈ desk.claims, claim.pass ≤ desk.clock ∧ claim.pass.iso < claim.leaseUntil
  ordered : desk.claims.Pairwise fun claim other => claim.deliveryId = other.deliveryId →
    claim.leaseUntil ≤ other.pass.iso
  stands : ∀ row ∈ desk.tables.deliveries, ∀ claim ∈ desk.claims, claim.deliveryId = row.id →
    claim.Stands desk.clock row

section Claims

variable {claim : Claim} {row : WebhookDelivery} {clock now : Moment}

theorem Claim.Stands.stays (stands : claim.Stands clock row) (le : clock ≤ now) :
    claim.Stands now row where
  lost := fun disturbed =>
    ⟨(stands.lost disturbed).1.trans (Moment.iso_mono le), (stands.lost disturbed).2⟩
  holds := stands.holds

/-- A claim whose row may be claimed or reset has a lease that is over. -/
theorem Claim.Stands.ended (stands : claim.Stands clock row) (le : clock ≤ now)
    (free : row.status.settled = true ∨ row.nextAttemptAt ≤ now.iso) :
    claim.leaseUntil ≤ now.iso := by
  cases disturbed : claim.disturbed with
  | true => exact (stands.lost disturbed).1.trans (Moment.iso_mono le)
  | false =>
      obtain ⟨lease, unsettled⟩ := stands.holds disturbed
      obtain settled | due := free
      · rw [unsettled] at settled
        cases settled
      · exact lease ▸ due

/-- A settled row takes no outcome. -/
theorem Claim.Stands.unsettled (stands : claim.Stands clock row)
    (lease : row.nextAttemptAt = claim.leaseUntil) : row.status.settled = false := by
  cases disturbed : claim.disturbed with
  | true => exact (stands.lost disturbed).2.2 lease
  | false => exact (stands.holds disturbed).2

/-- A claim whose row moved on past its lease is over for good. -/
theorem Claim.Stands.of_lost {row' : WebhookDelivery} (disturbed : claim.disturbed = true)
    (ended : claim.leaseUntil ≤ now.iso) (passed : claim.leaseUntil < row'.nextAttemptAt) :
    claim.Stands now row' where
  lost := fun _ => ⟨ended, passed.le, fun lease => absurd lease passed.ne'⟩
  holds := fun undisturbed => absurd disturbed (by simp [undisturbed])

theorem free_of_isDue {now : Instant} (due : isDue now row = true) :
    row.status.settled = false ∧ row.nextAttemptAt ≤ now := by
  simpa [isDue] using due

theorem free_of_isResettable {now : Instant} (free : isResettable now row = true) :
    row.status.settled = true ∨ row.nextAttemptAt ≤ now := by
  simpa [isResettable] using free

/-- The claims but the one at a place are those before it and those after it. -/
theorem eraseIdx_around {claims : List Claim} {place : Nat} (out : claims[place]? = some claim) :
    ∃ before behind, claims = before ++ claim :: behind ∧
      claims.eraseIdx place = before ++ behind := by
  induction claims generalizing place with
  | nil => cases out
  | cons first rest ih =>
      cases place with
      | zero =>
          cases out
          exact ⟨[], rest, rfl, rfl⟩
      | succ place =>
          obtain ⟨before, behind, whole, erased⟩ := ih out
          exact ⟨first :: before, behind, congrArg (first :: ·) whole, congrArg (first :: ·) erased⟩

end Claims

section Steps

variable {receiver : Receiver} {desk : Desk}

@[simp] theorem Desk.step_clock (next : DeskStep) : (desk.step receiver next).clock = next.now := by
  cases next with
  | report now place allowed baseUrl =>
      simp only [Desk.step, Desk.report]
      split <;> rfl
  | _ => rfl

theorem leased_opened (tables : DeliveryTables) (clock : Moment) :
    Leased (Desk.opened tables clock) :=
  ⟨fun _ out => absurd out List.not_mem_nil, .nil, fun _ _ _ out => absurd out List.not_mem_nil⟩

/-- Time passes. -/
theorem Leased.clocked (leased : Leased desk) {now : Moment} (le : desk.clock ≤ now) :
    Leased { desk with clock := now } := by
  constructor
  · intro claim out
    exact ⟨(leased.passes claim out).1.trans le, (leased.passes claim out).2⟩
  · exact leased.ordered
  · intro row held claim out same
    exact (leased.stands row held claim out same).stays le

/-- A claim of a due row leaves every claim before it with its lease over. -/
theorem Leased.claim (leased : Leased desk) {now : Moment} {leaseSecs limit : Nat}
    (le : desk.clock ≤ now) (positive : 0 < leaseSecs) :
    Leased (desk.claim now leaseSecs limit) := by
  let due := (desk.tables.dueRows now.iso).take limit
  have fresh : now.iso < (after now leaseSecs).iso := by
    rw [after_iso]
    exact Nat.lt_add_of_pos_right positive
  have taken : ∀ item ∈ due, item.delivery ∈ desk.tables.deliveries ∧
      isDue now.iso item.delivery = true := fun item held =>
    DeliveryTables.mem_dueRows (List.mem_of_mem_take held)
  have ends : ∀ row ∈ desk.tables.deliveries, isDue now.iso row = true → ∀ claim ∈ desk.claims,
      claim.deliveryId = row.id → claim.leaseUntil ≤ now.iso := fun row held free claim out same =>
    (leased.stands row held claim out same).ended le (.inr (free_of_isDue free).2)
  constructor
  · intro claim out
    obtain old | new := List.mem_append.mp out
    · obtain ⟨first, among, rfl⟩ := List.mem_map.mp old
      rw [disturb_pass, disturb_leaseUntil]
      exact ⟨(leased.passes first among).1.trans le, (leased.passes first among).2⟩
    · obtain ⟨item, held, rfl⟩ := List.mem_map.mp new
      exact ⟨le_rfl, fresh⟩
  · refine List.pairwise_append.mpr ⟨?_, ?_, ?_⟩
    · rw [List.pairwise_map]
      simpa using leased.ordered
    · have distinct : (due.map (·.delivery.id)).Nodup :=
        (DeliveryTables.dueRows_nodup desk.tables now.iso).sublist
          ((List.take_sublist limit _).map _)
      rw [List.pairwise_map]
      rw [List.nodup_iff_pairwise_ne, List.pairwise_map] at distinct
      exact distinct.imp fun apart same => absurd same apart
    · intro claim old other new same
      obtain ⟨first, among, rfl⟩ := List.mem_map.mp old
      obtain ⟨item, held, rfl⟩ := List.mem_map.mp new
      rw [disturb_deliveryId] at same
      rw [disturb_leaseUntil]
      exact ends _ (taken item held).1 (taken item held).2 first among same
  · intro row held claim out same
    obtain ⟨old, among, ⟨spared, rfl⟩ | ⟨free, chosen, rfl⟩⟩ := DeliveryTables.mem_claimed held
    · obtain kept | new := List.mem_append.mp out
      · obtain ⟨first, there, rfl⟩ := List.mem_map.mp kept
        rw [disturb_deliveryId] at same
        have untouched : disturb (due.map (·.delivery.id)) first = first := if_neg (same ▸ spared)
        change (disturb (due.map (·.delivery.id)) first).Stands now row
        rw [untouched]
        exact (leased.stands row among first there same).stays le
      · obtain ⟨item, there, rfl⟩ := List.mem_map.mp new
        exact absurd (List.mem_map.mpr ⟨item, there, same⟩) spared
    · rw [leaseRow_id] at same
      obtain kept | new := List.mem_append.mp out
      · obtain ⟨first, there, rfl⟩ := List.mem_map.mp kept
        rw [disturb_deliveryId] at same
        have lost : (disturb (due.map (·.delivery.id)) first).disturbed = true := by
          rw [disturb_disturbed, same]
          simp only [Bool.or_eq_true, decide_eq_true_eq]
          exact .inr chosen
        have ended := ends old among free first there same
        change (disturb (due.map (·.delivery.id)) first).Stands now _
        refine .of_lost lost ?_ ?_ <;> rw [disturb_leaseUntil]
        · exact ended
        · exact ended.trans_lt fresh
      · obtain ⟨item, there, rfl⟩ := List.mem_map.mp new
        exact ⟨fun disturbed => (Bool.false_ne_true disturbed).elim,
          fun _ => ⟨rfl, (free_of_isDue free).1⟩⟩

/-- Beside the claim that holds a row, every claim of the row lost it before that claim's pass. -/
theorem Leased.others_lost (leased : Leased desk) {place : Nat} {claim other : Claim}
    {row : WebhookDelivery} (held : row ∈ desk.tables.deliveries)
    (out : desk.claims[place]? = some claim) (there : other ∈ desk.claims.eraseIdx place)
    (named : claim.deliveryId = row.id) (named' : other.deliveryId = row.id)
    (lease : row.nextAttemptAt = claim.leaseUntil) :
    other.disturbed = true ∧ other.leaseUntil < row.nextAttemptAt ∧
      other.leaseUntil ≤ claim.pass.iso := by
  obtain ⟨before, behind, whole, erased⟩ := eraseIdx_around out
  have among : other ∈ desk.claims := List.mem_of_mem_eraseIdx there
  have fresh := (leased.passes claim (List.mem_of_getElem? out)).2
  have fresh' := (leased.passes other among).2
  have alike : other.deliveryId = claim.deliveryId := named'.trans named.symm
  have stands := leased.stands row held other among named'
  have ordered := leased.ordered
  rw [whole, List.pairwise_append, List.pairwise_cons] at ordered
  rw [erased, List.mem_append] at there
  obtain earlier | behindIt := there
  · have ended : other.leaseUntil ≤ claim.pass.iso :=
      ordered.2.2 other earlier claim List.mem_cons_self alike
    cases disturbed : other.disturbed with
    | true =>
        have passed : other.leaseUntil < row.nextAttemptAt := lease ▸ ended.trans_lt fresh
        exact ⟨rfl, passed, ended⟩
    | false =>
        have same := (stands.holds disturbed).1.symm.trans lease
        exact absurd same (ended.trans_lt fresh).ne
  · have beyond : claim.leaseUntil < other.leaseUntil :=
      (ordered.2.1.1 other behindIt alike.symm).trans_lt fresh'
    cases disturbed : other.disturbed with
    | true => exact absurd ((stands.lost disturbed).2.1.trans_eq lease) beyond.not_ge
    | false => exact absurd ((stands.holds disturbed).1.symm.trans lease) beyond.ne'

/-- An outcome leaves the instant of its row, or puts it off past the pass it is of. -/
theorem recorded_next (claim : Claim) (allowed : List String) (baseUrl : Option String)
    (row : WebhookDelivery) {instant : Instant} (before : instant < row.nextAttemptAt)
    (begun : instant ≤ claim.pass.iso) :
    instant < (recordRow claim.pass.iso
      (attemptColumns (Desk.outcome receiver claim allowed baseUrl)) row).nextAttemptAt := by
  cases result : Desk.outcome receiver claim allowed baseUrl with
  | failed code error next =>
      obtain ⟨rfl, -⟩ := attempt_failed result
      exact begun.trans_lt (Nat.lt_add_of_pos_right (backoffSecs_pos _))
  | delivered code => exact before
  | dead code error => exact before
  | expired error => exact before

/-- A report takes its claim away; the claims that stay lost the row before. -/
theorem Leased.record (leased : Leased desk) {now : Moment} {place : Nat} {claim : Claim}
    {allowed : List String} {baseUrl : Option String} (le : desk.clock ≤ now)
    (out : desk.claims[place]? = some claim) :
    Leased (desk.record now place claim (Desk.outcome receiver claim allowed baseUrl)) := by
  have others : ∀ other ∈ desk.claims.eraseIdx place, other ∈ desk.claims :=
    fun other => List.mem_of_mem_eraseIdx
  constructor
  · intro other there
    obtain ⟨begun, fresh⟩ := leased.passes other (others other there)
    exact ⟨begun.trans le, fresh⟩
  · exact leased.ordered.sublist (List.eraseIdx_sublist _ _)
  · intro row held other there same
    obtain ⟨old, among, ⟨-, rfl⟩ | ⟨named, lease, rfl⟩⟩ := DeliveryTables.mem_recorded held
    · exact (leased.stands row among other (others other there) same).stays le
    · rw [recordRow_id] at same
      obtain ⟨lost, passed, ended⟩ := leased.others_lost among out there named.symm same lease
      have begun := (leased.passes claim (List.mem_of_getElem? out)).1.trans le
      exact .of_lost lost (ended.trans (Moment.iso_mono begun))
        (recorded_next claim allowed baseUrl old passed ended)

theorem Leased.report (leased : Leased desk) {now : Moment} {place : Nat} {allowed : List String}
    {baseUrl : Option String} (le : desk.clock ≤ now) :
    Leased (desk.report receiver now place allowed baseUrl) := by
  cases out : desk.claims[place]? with
  | none =>
      simp only [Desk.report, out]
      exact leased.clocked le
  | some claim =>
      simp only [Desk.report, out]
      exact leased.record le out

/-- The rows that a redelivery resets: one or none. -/
def Desk.resetIds (desk : Desk) (now : Moment) (deliveryId : Nat) : List Nat :=
  if (desk.tables.resetWebhookDelivery deliveryId now.iso).2 then [deliveryId] else []

theorem Desk.redeliver_claims (desk : Desk) (now : Moment) (deliveryId : Nat) :
    (desk.redeliver now deliveryId).claims =
      desk.claims.map (disturb (desk.resetIds now deliveryId)) := by
  have none : disturb [] = id := funext disturb_nil
  simp only [Desk.redeliver, Desk.resetIds]
  split
  · rfl
  · rw [none, List.map_id]

/-- The claims of a row that is not reset stay undisturbed. -/
theorem Desk.spared_redeliver (desk : Desk) {now : Moment} {deliveryId : Nat} {row : WebhookDelivery}
    {claim : Claim} (held : row ∈ desk.tables.deliveries)
    (spared : ¬ (row.id = deliveryId ∧ isResettable now.iso row = true))
    (same : claim.deliveryId = row.id) : claim.deliveryId ∉ desk.resetIds now deliveryId := by
  intro chosen
  simp only [Desk.resetIds] at chosen
  split at chosen
  · rename_i done
    obtain ⟨other, found, matched⟩ := List.any_eq_true.mp done
    simp only [Bool.and_eq_true, decide_eq_true_eq] at matched
    have named := List.mem_singleton.mp chosen
    have one := DeliveryTables.row_unique found held (matched.1.trans (named.symm.trans same))
    exact spared (one ▸ matched)
  · cases chosen

/-- A reset of a row takes it from the claims that are out, whose leases are over. -/
theorem Leased.redeliver (leased : Leased desk) {now : Moment} {deliveryId : Nat}
    (le : desk.clock ≤ now) : Leased (desk.redeliver now deliveryId) := by
  constructor
  · intro claim out
    obtain ⟨first, among, rfl⟩ := List.mem_map.mp (desk.redeliver_claims now deliveryId ▸ out)
    rw [disturb_pass, disturb_leaseUntil]
    exact ⟨(leased.passes first among).1.trans le, (leased.passes first among).2⟩
  · rw [desk.redeliver_claims, List.pairwise_map]
    simpa using leased.ordered
  · intro row held claim out same
    obtain ⟨first, there, rfl⟩ := List.mem_map.mp (desk.redeliver_claims now deliveryId ▸ out)
    rw [disturb_deliveryId] at same
    obtain ⟨old, among, ⟨spared, rfl⟩ | ⟨named, free, rfl⟩⟩ := DeliveryTables.mem_reset held
    · rw [disturb, if_neg (desk.spared_redeliver among spared same)]
      exact (leased.stands row among first there same).stays le
    · rw [resetRow_id] at same
      have done : (desk.tables.resetWebhookDelivery deliveryId now.iso).2 = true :=
        List.any_eq_true.mpr ⟨old, among, by simp [named, free]⟩
      have lost : (disturb (desk.resetIds now deliveryId) first).disturbed = true := by
        rw [disturb_disturbed, Desk.resetIds, if_pos done]
        simp [same.trans named]
      have ended : first.leaseUntil ≤ now.iso :=
        (leased.stands old among first there same).ended le (free_of_isResettable free)
      refine ⟨fun _ => ?_, fun undisturbed => absurd lost (by simp [undisturbed])⟩
      rw [disturb_leaseUntil]
      exact ⟨ended, ended, fun _ => rfl⟩

theorem Leased.step (leased : Leased desk) {next : DeskStep} (timely : desk.Timely next) :
    Leased (desk.step receiver next) := by
  cases next with
  | claim now leaseSecs limit => exact leased.claim timely.1 (of_decide_eq_true timely.2)
  | report now place allowed baseUrl => exact leased.report timely.1
  | redeliver now deliveryId => exact leased.redeliver timely.1
  | pause now hookId paused =>
      have clocked := leased.clocked timely.1
      exact ⟨clocked.passes, clocked.ordered, clocked.stands⟩

end Steps

section Examples

/-- A receiver that takes every request. -/
def acceptingReceiver : Receiver := ⟨fun _ _ => true, fun _ _ _ => .ok 200⟩

/-- One hook with one delivery that is due. -/
def oneDelivery : DeliveryTables where
  webhooks := [⟨⟨1, .global, [], none, false⟩, "https://hooks.example/1", .json, "key", true⟩]
  deliveries := [
    { id := 1, hookId := 1, eventId := "e1", eventType := .test, occurredAt := 0, nextAttemptAt := 0,
      updatedAt := 0 }]
  distinct := by decide

end Examples
end Sanshain.Guarantees
