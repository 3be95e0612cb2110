import Sanshain.Guarantees.DeliveryDesk

namespace Sanshain.Guarantees

open Sanshain.Domain Sanshain.Effects Sanshain.Application Sanshain.Infrastructure

/-- The recorded attempts of a delivery by passes from a moment on. -/
def Desk.attemptsFrom (desk : Desk) (deliveryId : Nat) (moment : Moment) : Nat :=
  (desk.recorded.filter fun entry =>
    entry.deliveryId = deliveryId && entry.outcome.attempted && decide (moment ≤ entry.pass)).length

/-- How often a delivery was redelivered by hand. -/
def Desk.redeliveries (desk : Desk) (deliveryId : Nat) : Nat := desk.redelivered.count deliveryId

/-- The deliveries are as their events opened them: none was redelivered. -/
def FreshTables (tables : DeliveryTables) : Prop :=
  ∀ row ∈ tables.deliveries, row.redeliveredAt = none

/-- What a step promises about the cutoff: a scheduled retry comes before it, a recorded failure of
a pass from it on leaves the row dead, and the attempts recorded of such passes are at most as many
as the redeliveries. -/
structure CutoffLaw (receiver : Receiver) (desk : Desk) (next : DeskStep) : Prop where
  scheduled : ∀ now place allowed baseUrl, next = .report now place allowed baseUrl →
    ∀ claim, desk.claims[place]? = some claim → ∀ code error retry,
      Desk.outcome receiver claim allowed baseUrl = .failed code error retry →
        parseIso retry < cutoff claim.item.delivery
  givenUp : ∀ now place allowed baseUrl, next = .report now place allowed baseUrl →
    ∀ claim, desk.claims[place]? = some claim →
      ∀ row ∈ desk.tables.deliveries, row.id = claim.deliveryId →
        row.nextAttemptAt = claim.leaseUntil → cutoff row ≤ claim.pass →
          (Desk.outcome receiver claim allowed baseUrl).failing = true →
            ∀ row' ∈ (desk.step receiver next).tables.deliveries, row'.id = row.id →
              row'.status = .dead
  bounded : ∀ row ∈ (desk.step receiver next).tables.deliveries,
    (desk.step receiver next).attemptsFrom row.id (cutoff row) ≤
      (desk.step receiver next).redeliveries row.id

/-- A claim has read of its row what does not change: when its event occurred, and that it was
redelivered. -/
def ReadsRow (claim : Claim) (row : WebhookDelivery) : Prop :=
  claim.item.delivery.occurredAt = row.occurredAt ∧
    (claim.item.delivery.redeliveredAt ≠ none → row.redeliveredAt ≠ none)

/-- A redelivery grants one attempt, and the row stays open until it is used. -/
def Granted (desk : Desk) (row : WebhookDelivery) : Prop :=
  desk.attemptsFrom row.id (cutoff row) ≤ desk.redeliveries row.id ∧
    (row.status.settled = false → row.redeliveredAt ≠ none →
      desk.attemptsFrom row.id (cutoff row) < desk.redeliveries row.id)

/-- What the claims have read and what the rows were granted. -/
structure Accounted (desk : Desk) : Prop where
  reads : ∀ row ∈ desk.tables.deliveries, ∀ claim ∈ desk.claims, claim.deliveryId = row.id →
    ReadsRow claim row
  granted : ∀ row ∈ desk.tables.deliveries, Granted desk row

section Steps

variable {receiver : Receiver} {desk : Desk}

theorem cutoff_congr {row row' : WebhookDelivery} (same : row.occurredAt = row'.occurredAt) :
    cutoff row = cutoff row' := by
  simp only [cutoff, same]

theorem ReadsRow.cutoff {claim : Claim} {row : WebhookDelivery} (reads : ReadsRow claim row) :
    cutoff claim.item.delivery = cutoff row :=
  cutoff_congr reads.1

theorem ReadsRow.disturb {claim : Claim} {row : WebhookDelivery} (reads : ReadsRow claim row)
    (ids : List Nat) : ReadsRow (disturb ids claim) row := by
  rw [ReadsRow, disturb_item]
  exact reads

theorem accounted_opened {tables : DeliveryTables} (fresh : FreshTables tables) (clock : Moment) :
    Accounted (Desk.opened tables clock) where
  reads := fun _ _ _ out => absurd out List.not_mem_nil
  granted := fun row held => ⟨le_rfl, fun _ redelivered => absurd (fresh row held) redelivered⟩

theorem Accounted.claim (accounted : Accounted desk) {now : Moment} {leaseSecs limit : Nat} :
    Accounted (desk.claim now leaseSecs limit) := by
  constructor
  · intro row held claim out same
    obtain ⟨old, among, reads⟩ : ∃ old ∈ desk.tables.deliveries, row.id = old.id ∧
        ∀ claim, ReadsRow claim old → ReadsRow claim row := by
      obtain ⟨old, among, ⟨-, rfl⟩ | ⟨-, -, rfl⟩⟩ := DeliveryTables.mem_claimed held
      · exact ⟨row, among, rfl, fun _ reads => reads⟩
      · exact ⟨old, among, rfl, fun _ reads => reads⟩
    refine reads.2 claim ?_
    obtain kept | new := List.mem_append.mp out
    · obtain ⟨first, there, rfl⟩ := List.mem_map.mp kept
      rw [disturb_deliveryId] at same
      exact (accounted.reads old among first there (same.trans reads.1)).disturb _
    · obtain ⟨item, taken, rfl⟩ := List.mem_map.mp new
      have read := (DeliveryTables.mem_dueRows (List.mem_of_mem_take taken)).1
      have one : item.delivery = old := DeliveryTables.row_unique read among (same.trans reads.1)
      exact ⟨congrArg _ one, fun set => one ▸ set⟩
  · intro row held
    obtain ⟨old, among, ⟨-, rfl⟩ | ⟨-, -, rfl⟩⟩ := DeliveryTables.mem_claimed held
    · exact accounted.granted row among
    · exact accounted.granted old among

/-- A redelivery grants one attempt more. -/
theorem Accounted.redeliver (accounted : Accounted desk) {now : Moment} {deliveryId : Nat} :
    Accounted (desk.redeliver now deliveryId) := by
  have grown (id : Nat) : desk.redeliveries id ≤ (desk.redeliver now deliveryId).redeliveries id := by
    simp only [Desk.redeliver, Desk.redeliveries]
    split
    · rw [List.count_append]
      exact Nat.le_add_right _ _
    · exact le_rfl
  constructor
  · intro row held claim out same
    obtain ⟨first, there, rfl⟩ := List.mem_map.mp (desk.redeliver_claims now deliveryId ▸ out)
    rw [disturb_deliveryId] at same
    obtain ⟨old, among, ⟨-, rfl⟩ | ⟨-, -, rfl⟩⟩ := DeliveryTables.mem_reset held
    · exact (accounted.reads row among first there same).disturb _
    · rw [resetRow_id] at same
      obtain ⟨occurred, -⟩ := (accounted.reads old among first there same).disturb
        (desk.resetIds now deliveryId)
      exact ⟨occurred, fun _ => Option.some_ne_none _⟩
  · intro row held
    obtain ⟨old, among, ⟨-, rfl⟩ | ⟨named, free, rfl⟩⟩ := DeliveryTables.mem_reset held
    · obtain ⟨bounded, strictly⟩ := accounted.granted row among
      exact ⟨bounded.trans (grown _), fun unsettled redelivered =>
        (strictly unsettled redelivered).trans_le (grown _)⟩
    · have done : (desk.tables.resetWebhookDelivery deliveryId now.iso).2 = true :=
        List.any_eq_true.mpr ⟨old, among, by simp [named, free]⟩
      have one : (desk.redeliver now deliveryId).redeliveries old.id = desk.redeliveries old.id + 1 := by
        simp only [Desk.redeliver, Desk.redeliveries, done, if_true]
        rw [List.count_append, named, List.count_singleton_self]
      have bounded := (accounted.granted old among).1
      have more : (desk.redeliver now deliveryId).attemptsFrom old.id (cutoff old) <
          (desk.redeliver now deliveryId).redeliveries old.id :=
        one ▸ Nat.lt_succ_of_le bounded
      exact ⟨more.le, fun _ _ => more⟩

/-- An accepted attempt counts from the moments up to its pass. -/
theorem attemptsFrom_record {now moment : Moment} {place : Nat} {claim : Claim}
    {outcome : WebhookAttemptOutcome} {row : WebhookDelivery} (held : row ∈ desk.tables.deliveries) :
    (desk.record now place claim outcome).attemptsFrom row.id moment = desk.attemptsFrom row.id moment +
      if row.id = claim.deliveryId ∧ row.nextAttemptAt = claim.leaseUntil ∧
        outcome.attempted = true ∧ moment ≤ claim.pass then 1 else 0 := by
  simp only [Desk.record, Desk.attemptsFrom]
  split
  · rename_i written
    obtain ⟨other, found, named, lease⟩ := DeliveryTables.accepted_iff.mp written
    by_cases mine : claim.deliveryId = row.id
    · have one := DeliveryTables.row_unique found held (named.trans mine)
      have same : row.nextAttemptAt = claim.leaseUntil := one ▸ lease
      by_cases reached : moment ≤ claim.pass <;>
        cases counts : outcome.attempted <;> simp [mine, same, counts, reached]
    · simp [mine, Ne.symm mine]
  · rename_i dropped
    have apart : ¬ (row.id = claim.deliveryId ∧ row.nextAttemptAt = claim.leaseUntil ∧
        outcome.attempted = true ∧ moment ≤ claim.pass) := fun taken =>
      dropped (DeliveryTables.accepted_iff.mpr ⟨row, held, taken.1, taken.2.1⟩)
    rw [if_neg apart, Nat.add_zero]

/-- An attempt from the cutoff on settles its row and uses up a grant. -/
theorem Accounted.record (accounted : Accounted desk) (leased : Leased desk) {now : Moment}
    {place : Nat} {claim : Claim} {allowed : List String} {baseUrl : Option String}
    (out : desk.claims[place]? = some claim) :
    Accounted (desk.record now place claim (Desk.outcome receiver claim allowed baseUrl)) := by
  have among : claim ∈ desk.claims := List.mem_of_getElem? out
  constructor
  · intro row held other there same
    have kept : other ∈ desk.claims := List.mem_of_mem_eraseIdx there
    obtain ⟨old, before, ⟨-, rfl⟩ | ⟨-, -, rfl⟩⟩ := DeliveryTables.mem_recorded held
    · exact accounted.reads row before other kept same
    · exact accounted.reads old before other kept same
  · intro row held
    obtain ⟨old, before, ⟨spared, rfl⟩ | ⟨named, lease, rfl⟩⟩ := DeliveryTables.mem_recorded held
    · have apart : ¬ (row.id = claim.deliveryId ∧ row.nextAttemptAt = claim.leaseUntil ∧
          (Desk.outcome receiver claim allowed baseUrl).attempted = true ∧ cutoff row ≤ claim.pass) :=
        fun taken => spared ⟨taken.1, taken.2.1⟩
      have same : (desk.record now place claim (Desk.outcome receiver claim allowed baseUrl)).attemptsFrom
          row.id (cutoff row) = desk.attemptsFrom row.id (cutoff row) := by
        rw [attemptsFrom_record before, if_neg apart, Nat.add_zero]
      rw [Granted, same]
      exact accounted.granted row before
    · have unsettled := (leased.stands old before claim among named.symm).unsettled lease
      have reads := accounted.reads old before claim among named.symm
      obtain ⟨bounded, strictly⟩ := accounted.granted old before
      rw [Granted, recordRow_id]
      change _ ≤ desk.redeliveries old.id ∧ (_ → old.redeliveredAt ≠ none →
        _ < desk.redeliveries old.id)
      rw [show cutoff (recordRow claim.pass.iso _ old) = cutoff old from cutoff_congr rfl,
        attemptsFrom_record before]
      by_cases late : cutoff old ≤ claim.pass
      · cases counts : (Desk.outcome receiver claim allowed baseUrl).attempted with
        | false =>
            simp only [Bool.false_eq_true, false_and, and_false, if_false, Nat.add_zero]
            exact ⟨bounded, fun _ => strictly unsettled⟩
        | true =>
            rw [if_pos ⟨named, lease, rfl, late⟩]
            have passed : cutoff claim.item.delivery ≤ claim.pass := reads.cutoff ▸ late
            have redelivered := reads.2 (attempt_granted passed counts)
            refine ⟨strictly unsettled redelivered, fun open' => ?_⟩
            -- what a late attempt records settles the row
            obtain ⟨code, same⟩ | ⟨code, error, same⟩ | ⟨error, same⟩ :=
              @attempt_settles receiver claim.item allowed baseUrl claim.pass passed
            all_goals
              rw [Desk.outcome, same] at open'
              exact absurd open' (by simp [recordRow, attemptColumns, WebhookDeliveryStatus.settled])
      · rw [if_neg fun taken => late taken.2.2.2, Nat.add_zero]
        exact ⟨bounded, fun _ => strictly unsettled⟩

theorem Accounted.step (accounted : Accounted desk) (leased : Leased desk) (next : DeskStep) :
    Accounted (desk.step receiver next) := by
  cases next with
  | claim now leaseSecs limit => exact accounted.claim
  | redeliver now deliveryId => exact accounted.redeliver
  | pause now hookId paused => exact ⟨accounted.reads, accounted.granted⟩
  | report now place allowed baseUrl =>
      cases out : desk.claims[place]? with
      | none =>
          simp only [Desk.step, Desk.report, out]
          exact ⟨accounted.reads, accounted.granted⟩
      | some claim =>
          simp only [Desk.step, Desk.report, out]
          exact accounted.record leased out

/-- From the cutoff on a failing attempt is dead. -/
theorem outcome_dead {claim : Claim} {allowed : List String} {baseUrl : Option String}
    (late : cutoff claim.item.delivery ≤ claim.pass)
    (fails : (Desk.outcome receiver claim allowed baseUrl).failing = true) :
    (attemptColumns (Desk.outcome receiver claim allowed baseUrl)).status = .dead := by
  obtain ⟨code, same⟩ | ⟨code, error, same⟩ | ⟨error, same⟩ :=
    @attempt_settles receiver claim.item allowed baseUrl claim.pass late
  · rw [Desk.outcome, same] at fails
    cases fails
  · rw [Desk.outcome, same]
    rfl
  · rw [Desk.outcome, same]
    rfl

/-- Along every run of passes, redeliveries and pauses that begins with deliveries as their events
opened them, the cutoff binds every retry. -/
theorem cutoff_binds (receiver : Receiver) (tables : DeliveryTables) (fresh : FreshTables tables)
    (clock : Moment) (steps : List DeskStep)
    (timely : EveryStep (Desk.step receiver) Desk.Timely (Desk.opened tables clock) steps) :
    EveryStep (Desk.step receiver) (CutoffLaw receiver) (Desk.opened tables clock) steps := by
  refine timely.of_invariant (fun desk => Leased desk ∧ Accounted desk)
    ⟨leased_opened tables clock, accounted_opened fresh clock⟩ ?_
  intro desk next ⟨leased, accounted⟩ timely
  have accounted' := @Accounted.step receiver desk accounted leased next
  refine ⟨⟨leased.step timely, accounted'⟩, ?_, ?_, fun row held => (accounted'.granted row held).1⟩
  · intro now place allowed baseUrl same claim out code error retry failed
    exact (attempt_failed failed).2
  · rintro now place allowed baseUrl rfl claim out row held named lease late fails row' held' same
    simp only [Desk.step, Desk.report, out] at held'
    have reads := accounted.reads row held claim (List.mem_of_getElem? out) named.symm
    obtain ⟨old, before, ⟨spared, rfl⟩ | ⟨-, -, rfl⟩⟩ := DeliveryTables.mem_recorded held'
    · have one := DeliveryTables.row_unique before held same
      exact absurd ⟨one ▸ named, one ▸ lease⟩ spared
    · exact outcome_dead (reads.cutoff ▸ late) fails

/-- The delivery is found a second day after its event, given up, redelivered and delivered. -/
def redeliveredLate : List DeskStep :=
  [.claim ⟨100000, 5⟩ 60 50, .report ⟨100001, 0⟩ 0 [] none, .redeliver ⟨100002, 0⟩ 1,
    .claim ⟨100003, 0⟩ 60 50, .report ⟨100003, 7⟩ 0 [] none]

theorem cutoff_binds_redelivered :
    EveryStep (Desk.step acceptingReceiver) (CutoffLaw acceptingReceiver)
      (Desk.opened oneDelivery ⟨0, 0⟩) redeliveredLate :=
  cutoff_binds acceptingReceiver oneDelivery (by simp [FreshTables, oneDelivery]) ⟨0, 0⟩
    redeliveredLate (by decide +kernel)

example : (runSteps (Desk.step acceptingReceiver) (Desk.opened oneDelivery ⟨0, 0⟩)
    redeliveredLate).attemptsFrom 1 ⟨86400, 0⟩ = 1 := by
  decide +kernel

end Steps
end Sanshain.Guarantees
