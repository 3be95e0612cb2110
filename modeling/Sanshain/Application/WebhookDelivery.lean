import Sanshain.Domain.Deliveries

namespace Sanshain.Application

open Sanshain.Domain

instance nanosOfSecond : NeZero 1000000000 := ⟨by decide⟩

/-- A point in time: its stamp of whole seconds, and the nanoseconds that a stamp drops. -/
@[ext] structure Moment where
  iso : Instant
  nanos : Fin 1000000000 := 0
  deriving DecidableEq, Repr

namespace Moment

def parts (moment : Moment) : ℕ ×ₗ Fin 1000000000 := toLex (moment.iso, moment.nanos)

theorem parts_injective : Function.Injective parts := by
  intro first second same
  simp only [parts, EmbeddingLike.apply_eq_iff_eq, Prod.mk.injEq] at same
  exact Moment.ext same.1 same.2

instance : LinearOrder Moment := LinearOrder.lift' parts parts_injective

theorem le_iff (first second : Moment) :
    first ≤ second ↔ first.iso < second.iso ∨ first.iso = second.iso ∧ first.nanos ≤ second.nanos := by
  change parts first ≤ parts second ↔ _
  simp [parts, Prod.Lex.toLex_le_toLex]

theorem iso_mono {first second : Moment} (le : first ≤ second) : first.iso ≤ second.iso := by
  obtain less | ⟨same, -⟩ := (le_iff first second).mp le
  · exact less.le
  · exact same.le

end Moment

/-- The moment a stamp is read as. -/
def parseIso (stamp : Instant) : Moment := ⟨stamp, 0⟩

def after (moment : Moment) (secs : Nat) : Moment := ⟨moment.iso + secs, moment.nanos⟩

theorem after_iso (moment : Moment) (secs : Nat) : (after moment secs).iso = moment.iso + secs := rfl

theorem le_after (moment : Moment) (secs : Nat) : moment ≤ after moment secs := by
  rw [Moment.le_iff, after_iso]
  obtain rfl | positive := Nat.eq_zero_or_pos secs
  · exact .inr ⟨rfl, le_rfl⟩
  · exact .inl (Nat.lt_add_of_pos_right positive)

/-- The stamp of a moment is read as one that is not later. -/
theorem parseIso_iso_le (moment : Moment) : parseIso moment.iso ≤ moment :=
  (Moment.le_iff _ _).mpr (.inr ⟨rfl, Fin.zero_le _⟩)

def firstBackoffSecs : Nat := 30
def maxBackoffSecs : Nat := 3600
def cutoffHours : Nat := 24
def leaseMarginSecs : Nat := 60

/-- Seconds to wait before the next attempt, given how many were made. -/
def backoffSecs (attemptsMade : Nat) : Nat :=
  min (firstBackoffSecs * 2 ^ min attemptsMade 30) maxBackoffSecs

theorem backoffSecs_pos (attemptsMade : Nat) : 0 < backoffSecs attemptsMade :=
  lt_min (Nat.mul_pos (by decide) (Nat.two_pow_pos _)) (by decide)

example : [0, 1, 2, 6, 7, 40].map backoffSecs = [30, 60, 120, 1920, 3600, 3600] := by decide

structure WebhookDeliveryConfig where
  publicBaseUrl : Option String := none
  batchSize : Nat := 50
  deliveryTimeoutSecs : Nat := 10

/-- How long a claim holds its rows: the longest pass and a margin, at most what the counter holds. -/
def WebhookDeliveryConfig.leaseSecs (config : WebhookDeliveryConfig) : Nat :=
  let largest := 2 ^ 63 - 1
  min (min (config.batchSize * min config.deliveryTimeoutSecs largest) largest + leaseMarginSecs)
    largest

theorem WebhookDeliveryConfig.leaseSecs_pos (config : WebhookDeliveryConfig) :
    0 < config.leaseSecs := by
  simp only [leaseSecs, leaseMarginSecs]
  omega

/-- What the worker does not decide: which hosts the allow-list admits, and how the receiver
answers the signed request of a delivery. -/
structure Receiver where
  hostAllowed : String → List String → Bool
  send : DueWebhookDelivery → Option String → Moment → Except String Nat

section Attempt

variable (receiver : Receiver) (item : DueWebhookDelivery) (allowed : List String)
  (baseUrl : Option String) (now : Moment)

/-- A delivery is given up this long after its event. -/
def cutoff (delivery : WebhookDelivery) : Moment :=
  after (parseIso delivery.occurredAt) (cutoffHours * 3600)

/-- A retry due after the cutoff would only be marked dead then. -/
def failAttempt (code : Option Nat) (error : String) : WebhookAttemptOutcome :=
  let next := after now (backoffSecs item.delivery.attempts)
  if cutoff item.delivery ≤ next then .dead code error else .failed code error next.iso

/-- One attempt; past the cutoff only a delivery redelivered by hand is tried. -/
def attempt : WebhookAttemptOutcome :=
  if cutoff item.delivery ≤ now ∧ item.delivery.redeliveredAt = none then
    .expired s!"given up: {cutoffHours} hours have passed since the event"
  else if !item.hook.allowListExempt && !receiver.hostAllowed item.hook.url allowed then
    failAttempt item now none
      "the hook's host is not in the allow-list (webhook_allowed_hosts) any more"
  else match receiver.send item baseUrl now with
    | .ok status =>
        if 200 ≤ status ∧ status < 300 then .delivered status
        else failAttempt item now (some status) s!"the receiver answered HTTP {status}"
    | .error error => failAttempt item now none error

variable {receiver item allowed baseUrl now}

/-- An attempt is given up untried, succeeds, or fails with a retry before the cutoff or none. -/
theorem attempt_cases :
    (∃ error, attempt receiver item allowed baseUrl now = .expired error ∧
        cutoff item.delivery ≤ now ∧ item.delivery.redeliveredAt = none) ∨
      (cutoff item.delivery ≤ now → item.delivery.redeliveredAt ≠ none) ∧
        ((∃ code, attempt receiver item allowed baseUrl now = .delivered code) ∨
          ∃ code error, attempt receiver item allowed baseUrl now = failAttempt item now code error) := by
  by_cases late : cutoff item.delivery ≤ now ∧ item.delivery.redeliveredAt = none
  · exact .inl ⟨_, by rw [attempt, if_pos late], late⟩
  · refine .inr ⟨fun passed unset => late ⟨passed, unset⟩, ?_⟩
    rw [attempt, if_neg late]
    split
    · exact .inr ⟨_, _, rfl⟩
    · cases receiver.send item baseUrl now with
      | error error => exact .inr ⟨_, _, rfl⟩
      | ok status =>
          by_cases accepted : 200 ≤ status ∧ status < 300
          · exact .inl ⟨status, by simp only [if_pos accepted]⟩
          · exact .inr ⟨some status, s!"the receiver answered HTTP {status}",
          by simp only [if_neg accepted]⟩

/-- A scheduled retry comes after the backoff and before the cutoff. -/
theorem attempt_failed {code : Option Nat} {error : String} {next : Instant}
    (failed : attempt receiver item allowed baseUrl now = .failed code error next) :
    next = now.iso + backoffSecs item.delivery.attempts ∧
      parseIso next < cutoff item.delivery := by
  obtain ⟨_, expired, -⟩ | ⟨-, ⟨_, delivered⟩ | ⟨_, _, tried⟩⟩ :=
    @attempt_cases receiver item allowed baseUrl now
  · rw [expired] at failed
    cases failed
  · rw [delivered] at failed
    cases failed
  · rw [tried, failAttempt] at failed
    by_cases late : cutoff item.delivery ≤ after now (backoffSecs item.delivery.attempts)
    · rw [if_pos late] at failed
      cases failed
    · rw [if_neg late] at failed
      cases failed
      exact ⟨rfl, (parseIso_iso_le _).trans_lt (not_le.mp late)⟩

/-- From the cutoff on no attempt is put off to a later one. -/
theorem attempt_settles (late : cutoff item.delivery ≤ now) :
    (∃ code, attempt receiver item allowed baseUrl now = .delivered code) ∨
      (∃ code error, attempt receiver item allowed baseUrl now = .dead code error) ∨
        ∃ error, attempt receiver item allowed baseUrl now = .expired error := by
  obtain ⟨error, expired, -⟩ | ⟨-, delivered | ⟨code, error, tried⟩⟩ :=
    @attempt_cases receiver item allowed baseUrl now
  · exact .inr (.inr ⟨error, expired⟩)
  · exact .inl delivered
  · have passed : cutoff item.delivery ≤ after now (backoffSecs item.delivery.attempts) :=
      late.trans (le_after _ _)
    exact .inr (.inl ⟨code, error, by rw [tried, failAttempt, if_pos passed]⟩)

/-- From the cutoff on only a delivery redelivered by hand is attempted. -/
theorem attempt_granted (late : cutoff item.delivery ≤ now)
    (attempted : (attempt receiver item allowed baseUrl now).attempted = true) :
    item.delivery.redeliveredAt ≠ none := by
  obtain ⟨_, expired, -⟩ | ⟨granted, -⟩ := @attempt_cases receiver item allowed baseUrl now
  · rw [expired] at attempted
    cases attempted
  · exact granted late

end Attempt
end Sanshain.Application
