import Sanshain.Guarantees.DeliveryDesk

namespace Sanshain.Guarantees

open Sanshain.Domain Sanshain.Effects Sanshain.Application Sanshain.Infrastructure

/-- The accepted outcomes of a delivery that count as attempts. -/
def Desk.attemptsOf (desk : Desk) (deliveryId : Nat) : Nat :=
  (desk.recorded.filter fun entry => entry.deliveryId = deliveryId && entry.outcome.attempted).length

/-- The counter of every row counts the accepted attempts. -/
def Counted (start : DeliveryTables) (desk : Desk) : Prop :=
  ∀ row ∈ desk.tables.deliveries, ∃ first ∈ start.deliveries, first.id = row.id ∧
    row.attempts = first.attempts + desk.attemptsOf row.id

/-- A row takes no outcome of a claim that lost it. -/
def Sharp (desk : Desk) : Prop :=
  ∀ row ∈ desk.tables.deliveries, ∀ claim ∈ desk.claims, claim.deliveryId = row.id →
    row.nextAttemptAt = claim.leaseUntil → claim.disturbed = false

/-- What a state of the desk promises: at most one claim of a delivery has an unexpired lease, a row
takes an outcome only of a claim since which it has been neither claimed nor reset, and its
counter counts the accepted attempts. -/
structure Fenced (start : DeliveryTables) (desk : Desk) : Prop where
  exclusive : desk.claims.Pairwise fun claim other => claim.deliveryId = other.deliveryId →
    ¬ (desk.clock.iso < claim.leaseUntil ∧ desk.clock.iso < other.leaseUntil)
  fenced : Sharp desk
  counted : Counted start desk

/-- A settled row changes its status by a reset only. -/
def KeepsSettled (receiver : Receiver) (desk : Desk) (next : DeskStep) : Prop :=
  ∀ row ∈ desk.tables.deliveries, row.status.settled = true →
    ∀ row' ∈ (desk.step receiver next).tables.deliveries, row'.id = row.id →
      row'.status ≠ row.status → ∃ now, next = .redeliver now row.id

/-- The step resets no row in the second in which the lease of a claim that is out ends. -/
def SparesEndingLeases (desk : Desk) (next : DeskStep) : Prop :=
  ∀ now deliveryId, next = .redeliver now deliveryId →
    ∀ row ∈ desk.tables.deliveries, row.id = deliveryId → isResettable now.iso row = true →
      ∀ claim ∈ desk.claims, claim.deliveryId = deliveryId → claim.leaseUntil ≠ now.iso

section Steps

variable {receiver : Receiver} {desk : Desk}

/-- Of two claims of a delivery, the earlier one has a lease that is over. -/
theorem Leased.exclusive (leased : Leased desk) :
    desk.claims.Pairwise fun claim other => claim.deliveryId = other.deliveryId →
      ¬ (desk.clock.iso < claim.leaseUntil ∧ desk.clock.iso < other.leaseUntil) := by
  refine leased.ordered.imp_of_mem fun {claim other} _ there ordered same both => ?_
  have begun : other.pass.iso ≤ desk.clock.iso := Moment.iso_mono (leased.passes other there).1
  exact absurd both.1 ((ordered same).trans begun).not_gt

theorem sharp_opened (tables : DeliveryTables) (clock : Moment) : Sharp (Desk.opened tables clock) :=
  fun _ _ _ out => absurd out List.not_mem_nil

theorem Sharp.claim (sharp : Sharp desk) (leased : Leased desk) {now : Moment} {leaseSecs limit : Nat}
    (le : desk.clock ≤ now) (positive : 0 < leaseSecs) : Sharp (desk.claim now leaseSecs limit) := by
  intro row held claim out same lease
  obtain kept | new := List.mem_append.mp out
  · obtain ⟨first, there, rfl⟩ := List.mem_map.mp kept
    rw [disturb_deliveryId] at same
    rw [disturb_leaseUntil] at lease
    obtain ⟨old, among, ⟨spared, rfl⟩ | ⟨free, chosen, rfl⟩⟩ := DeliveryTables.mem_claimed held
    · have untouched : disturb (((desk.tables.dueRows now.iso).take limit).map (·.delivery.id)) first =
          first := if_neg (same ▸ spared)
      exact (congrArg Claim.disturbed untouched).trans (sharp row among first there same lease)
    · rw [leaseRow_id] at same
      have ended := (leased.stands old among first there same).ended le (.inr (free_of_isDue free).2)
      have beyond : now.iso < first.leaseUntil := lease ▸ Nat.lt_add_of_pos_right positive
      exact absurd ended beyond.not_ge
  · obtain ⟨item, there, rfl⟩ := List.mem_map.mp new
    rfl

theorem Sharp.record (sharp : Sharp desk) (leased : Leased desk) {now : Moment} {place : Nat}
    {claim : Claim} {allowed : List String} {baseUrl : Option String}
    (out : desk.claims[place]? = some claim) :
    Sharp (desk.record now place claim (Desk.outcome receiver claim allowed baseUrl)) := by
  intro row held other there same lease
  have kept : other ∈ desk.claims := List.mem_of_mem_eraseIdx there
  obtain ⟨old, among, ⟨-, rfl⟩ | ⟨named, lease', rfl⟩⟩ := DeliveryTables.mem_recorded held
  · exact sharp row among other kept same lease
  · rw [recordRow_id] at same
    obtain ⟨-, passed, ended⟩ := leased.others_lost among out there named.symm same lease'
    exact absurd lease (recorded_next claim allowed baseUrl old passed ended).ne'

theorem Sharp.redeliver (sharp : Sharp desk) {now : Moment} {deliveryId : Nat}
    (spares : SparesEndingLeases desk (.redeliver now deliveryId)) :
    Sharp (desk.redeliver now deliveryId) := by
  intro row held claim out same lease
  obtain ⟨first, there, rfl⟩ := List.mem_map.mp (desk.redeliver_claims now deliveryId ▸ out)
  rw [disturb_deliveryId] at same
  rw [disturb_leaseUntil] at lease
  obtain ⟨old, among, ⟨spared, rfl⟩ | ⟨named, free, rfl⟩⟩ := DeliveryTables.mem_reset held
  · rw [disturb, if_neg (desk.spared_redeliver among spared same)]
    exact sharp row among first there same lease
  · rw [resetRow_id] at same
    exact absurd lease.symm (spares now deliveryId rfl old among named free first there
      (same.trans named))

theorem Sharp.step (sharp : Sharp desk) (leased : Leased desk) {next : DeskStep}
    (timely : desk.Timely next) (spares : SparesEndingLeases desk next) :
    Sharp (desk.step receiver next) := by
  cases next with
  | claim now leaseSecs limit => exact sharp.claim leased timely.1 (of_decide_eq_true timely.2)
  | redeliver now deliveryId => exact sharp.redeliver spares
  | pause now hookId paused => exact sharp
  | report now place allowed baseUrl =>
      cases out : desk.claims[place]? with
      | none =>
          simp only [Desk.step, Desk.report, out]
          exact sharp
      | some claim =>
          simp only [Desk.step, Desk.report, out]
          exact sharp.record leased out

theorem counted_opened (tables : DeliveryTables) (clock : Moment) :
    Counted tables (Desk.opened tables clock) :=
  fun row held => ⟨row, held, rfl, rfl⟩

/-- An accepted attempt counts for its delivery, and for no other one. -/
theorem attemptsOf_record {now : Moment} {place : Nat} {claim : Claim}
    {outcome : WebhookAttemptOutcome} {row : WebhookDelivery}
    (held : row ∈ desk.tables.deliveries) :
    (desk.record now place claim outcome).attemptsOf row.id = desk.attemptsOf row.id +
      if row.id = claim.deliveryId ∧ row.nextAttemptAt = claim.leaseUntil ∧ outcome.attempted = true
      then 1 else 0 := by
  simp only [Desk.record, Desk.attemptsOf]
  split
  · rename_i written
    obtain ⟨other, found, named, lease⟩ := DeliveryTables.accepted_iff.mp written
    by_cases mine : claim.deliveryId = row.id
    · have one := DeliveryTables.row_unique found held (named.trans mine)
      have same : row.nextAttemptAt = claim.leaseUntil := one ▸ lease
      cases counts : outcome.attempted <;> simp [mine, same, counts]
    · simp [mine, Ne.symm mine]
  · rename_i dropped
    have apart : ¬ (row.id = claim.deliveryId ∧ row.nextAttemptAt = claim.leaseUntil ∧
        outcome.attempted = true) := fun taken =>
      dropped (DeliveryTables.accepted_iff.mpr ⟨row, held, taken.1, taken.2.1⟩)
    rw [if_neg apart, Nat.add_zero]

theorem Counted.step {start : DeliveryTables} (counted : Counted start desk) (next : DeskStep) :
    Counted start (desk.step receiver next) := by
  cases next with
  | claim now leaseSecs limit =>
      intro row held
      obtain ⟨old, among, ⟨-, rfl⟩ | ⟨-, -, rfl⟩⟩ := DeliveryTables.mem_claimed held
      · exact counted row among
      · exact counted old among
  | redeliver now deliveryId =>
      intro row held
      obtain ⟨old, among, ⟨-, rfl⟩ | ⟨-, -, rfl⟩⟩ := DeliveryTables.mem_reset held
      · exact counted row among
      · exact counted old among
  | pause now hookId paused => exact counted
  | report now place allowed baseUrl =>
      cases out : desk.claims[place]? with
      | none =>
          simp only [Desk.step, Desk.report, out]
          exact counted
      | some claim =>
          simp only [Desk.step, Desk.report, out]
          intro row held
          obtain ⟨old, among, ⟨spared, rfl⟩ | ⟨named, lease, rfl⟩⟩ := DeliveryTables.mem_recorded held
          · obtain ⟨first, started, same, counts⟩ := counted row among
            refine ⟨first, started, same, ?_⟩
            rw [attemptsOf_record among, if_neg fun taken => spared ⟨taken.1, taken.2.1⟩]
            exact counts
          · obtain ⟨first, started, same, counts⟩ := counted old among
            refine ⟨first, started, same, ?_⟩
            rw [recordRow_id, attemptsOf_record among, recordRow, attemptColumns_attempted, counts]
            simp [named, lease, Nat.add_assoc]

/-- Only a claim that holds a row may change it, and a row held is not settled. -/
theorem Leased.keepsSettled (leased : Leased desk) (next : DeskStep) :
    KeepsSettled receiver desk next := by
  intro row held settled row' held' same changed
  cases next with
  | claim now leaseSecs limit =>
      obtain ⟨old, among, ⟨-, rfl⟩ | ⟨-, -, rfl⟩⟩ := DeliveryTables.mem_claimed held'
      · exact absurd (congrArg _ (DeliveryTables.row_unique among held same)) changed
      · rw [leaseRow_id] at same
        exact absurd (congrArg WebhookDelivery.status
          (DeliveryTables.row_unique among held same)) changed
  | pause now hookId paused =>
      exact absurd (congrArg _ (DeliveryTables.row_unique held' held same)) changed
  | redeliver now deliveryId =>
      obtain ⟨old, among, ⟨-, rfl⟩ | ⟨named, -, rfl⟩⟩ := DeliveryTables.mem_reset held'
      · exact absurd (congrArg _ (DeliveryTables.row_unique among held same)) changed
      · rw [resetRow_id] at same
        exact ⟨now, by rw [← same, named]⟩
  | report now place allowed baseUrl =>
      cases out : desk.claims[place]? with
      | none =>
          simp only [Desk.step, Desk.report, out] at held'
          exact absurd (congrArg _ (DeliveryTables.row_unique held' held same)) changed
      | some claim =>
          simp only [Desk.step, Desk.report, out] at held'
          obtain ⟨old, among, ⟨-, rfl⟩ | ⟨named, lease, rfl⟩⟩ := DeliveryTables.mem_recorded held'
          · exact absurd (congrArg _ (DeliveryTables.row_unique among held same)) changed
          · rw [recordRow_id] at same
            have one := DeliveryTables.row_unique among held same
            have unsettled := (leased.stands old among claim (List.mem_of_getElem? out)
              named.symm).unsettled lease
            rw [one, settled] at unsettled
            cases unsettled

/-- Where a lease ends in the second of a reset, the row takes the outcome of a claim that it was
taken from. -/
theorem sparesEndingLeases_of_fenced {start : DeliveryTables} {next : DeskStep}
    (fenced : Fenced start (desk.step receiver next)) : SparesEndingLeases desk next := by
  rintro now deliveryId rfl row held named free claim out same lease
  have done : (desk.tables.resetWebhookDelivery deliveryId now.iso).2 = true :=
    List.any_eq_true.mpr ⟨row, held, by simp [named, free]⟩
  have taken : resetRow now.iso row ∈ (desk.redeliver now deliveryId).tables.deliveries :=
    List.mem_map.mpr ⟨row, held, if_pos (by simp [named, free])⟩
  have lost : disturb [deliveryId] claim ∈ (desk.redeliver now deliveryId).claims := by
    simp only [Desk.redeliver, done, if_true]
    exact List.mem_map_of_mem out
  have undisturbed := fenced.fenced _ taken _ lost
    (by rw [disturb_deliveryId, resetRow_id, same, named])
    (by rw [disturb_leaseUntil, lease]; rfl)
  rw [disturb_disturbed] at undisturbed
  simp [same] at undisturbed

/-- The law of leases at one step. -/
def LeaseLaw (receiver : Receiver) (start : DeliveryTables) (desk : Desk) (next : DeskStep) : Prop :=
  Fenced start (desk.step receiver next) ∧ KeepsSettled receiver desk next

/-- Along every run of workers, redeliveries and pauses from any table, leases exclude each other
and stale outcomes are dropped exactly when no row is reset in the second in which the lease of an
unreported claim of it ends. -/
theorem leases_exclude_iff (receiver : Receiver) (tables : DeliveryTables) (clock : Moment)
    (steps : List DeskStep)
    (timely : EveryStep (Desk.step receiver) Desk.Timely (Desk.opened tables clock) steps) :
    EveryStep (Desk.step receiver) (LeaseLaw receiver tables) (Desk.opened tables clock) steps ↔
      EveryStep (Desk.step receiver) SparesEndingLeases (Desk.opened tables clock) steps := by
  refine timely.iff_of_invariant (fun desk => Leased desk ∧ Counted tables desk ∧ Sharp desk)
    ⟨leased_opened tables clock, counted_opened tables clock, sharp_opened tables clock⟩ ?_ ?_
  · intro desk next ⟨leased, counted, sharp⟩ timely spares
    have leased' := @Leased.step receiver desk leased next timely
    have counted' := @Counted.step receiver desk tables counted next
    have sharp' := @Sharp.step receiver desk sharp leased next timely spares
    exact ⟨⟨leased', counted', sharp'⟩, ⟨leased'.exclusive, sharp', counted'⟩,
      leased.keepsSettled next⟩
  · intro desk next _ _ lawful
    exact sparesEndingLeases_of_fenced lawful.1

end Steps

section Examples

/-- The delivery is claimed for a minute and reset in the second in which that minute ends. -/
def resetAtLeaseEnd : List DeskStep := [.claim ⟨0, 0⟩ 60 50, .redeliver ⟨60, 0⟩ 1]

/-- The delivery is claimed for a minute and reset a second later. -/
def resetAfterLease : List DeskStep := [.claim ⟨0, 0⟩ 60 50, .redeliver ⟨61, 0⟩ 1]

theorem leases_exclude_after :
    EveryStep (Desk.step acceptingReceiver) (LeaseLaw acceptingReceiver oneDelivery)
        (Desk.opened oneDelivery ⟨0, 0⟩) resetAfterLease ↔
      EveryStep (Desk.step acceptingReceiver) SparesEndingLeases
        (Desk.opened oneDelivery ⟨0, 0⟩) resetAfterLease :=
  leases_exclude_iff acceptingReceiver oneDelivery ⟨0, 0⟩ resetAfterLease (by decide +kernel)

/-- Whether a row would take the outcome of a claim that it was taken from. -/
def takesStale (desk : Desk) : Bool :=
  desk.tables.deliveries.any fun row => desk.claims.any fun claim =>
    claim.deliveryId = row.id && row.nextAttemptAt = claim.leaseUntil && claim.disturbed

theorem takesStale_spec {start : DeliveryTables} {desk : Desk} (takes : takesStale desk = true) :
    ¬ Fenced start desk := by
  intro fenced
  obtain ⟨row, held, found⟩ := List.any_eq_true.mp takes
  obtain ⟨claim, out, matched⟩ := List.any_eq_true.mp found
  simp only [Bool.and_eq_true, decide_eq_true_eq] at matched
  have undisturbed := fenced.fenced row held claim out matched.1.1 matched.1.2
  rw [matched.2] at undisturbed
  cases undisturbed

/-- A timely run breaks the law: the redelivered row takes the outcome of the claim before. -/
theorem stale_outcome_taken :
    EveryStep (Desk.step acceptingReceiver) Desk.Timely (Desk.opened oneDelivery ⟨0, 0⟩)
        resetAtLeaseEnd ∧
      ¬ EveryStep (Desk.step acceptingReceiver) (LeaseLaw acceptingReceiver oneDelivery)
        (Desk.opened oneDelivery ⟨0, 0⟩) resetAtLeaseEnd ∧
      ((runSteps (Desk.step acceptingReceiver) (Desk.opened oneDelivery ⟨0, 0⟩)
        (resetAtLeaseEnd ++ [.report ⟨60, 0⟩ 0 [] none])).tables.deliveries.map (·.status)) =
        [.delivered] := by
  refine ⟨by decide +kernel, fun lawful => ?_, by decide +kernel⟩
  exact takesStale_spec (by decide +kernel) lawful.2.1.1

end Examples
end Sanshain.Guarantees
