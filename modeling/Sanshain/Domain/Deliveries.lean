import Sanshain.Domain.Ports

namespace Sanshain.Domain

open Sanshain.Document

inductive WebhookDeliveryStatus where
  | pending
  | delivered
  | failed
  | dead
  deriving DecidableEq, Repr

/-- A delivery that only a manual reset makes due again. -/
def WebhookDeliveryStatus.settled : WebhookDeliveryStatus → Bool
  | .delivered | .dead => true
  | .pending | .failed => false

inductive WebhookFormat where
  | json
  | slack
  | teams
  deriving DecidableEq, Repr

/-- A registered hook with what the worker reads of it. -/
structure DeliveryHook extends Webhook where
  url : String
  format : WebhookFormat
  secret : String
  allowListExempt : Bool
  deriving DecidableEq, Repr

/-- One hook's delivery of one event, with the columns it reads of the event. -/
structure WebhookDelivery where
  id : Nat
  hookId : Nat
  eventId : String
  eventType : WebhookEventType
  occurredAt : Instant
  status : WebhookDeliveryStatus := .pending
  attempts : Nat := 0
  nextAttemptAt : Instant
  lastResponseCode : Option Nat := none
  lastError : Option String := none
  deliveredAt : Option Instant := none
  redeliveredAt : Option Instant := none
  updatedAt : Instant
  deriving DecidableEq, Repr

/-- A delivery the worker claimed, as it was read, with everything one attempt needs. -/
structure DueWebhookDelivery where
  delivery : WebhookDelivery
  hook : DeliveryHook

/-- How one attempt ended, as the worker records it. -/
inductive WebhookAttemptOutcome where
  | delivered (code : Nat)
  | failed (code : Option Nat) (error : String) (nextAttemptAt : Instant)
  | dead (code : Option Nat) (error : String)
  | expired (error : String)
  deriving DecidableEq, Repr

/-- Whether the outcome counts as an attempt: a delivery found past the cutoff is not tried. -/
def WebhookAttemptOutcome.attempted : WebhookAttemptOutcome → Bool
  | .expired _ => false
  | _ => true

/-- Whether the outcome is a failing attempt. -/
def WebhookAttemptOutcome.failing : WebhookAttemptOutcome → Bool
  | .failed _ _ _ | .dead _ _ => true
  | _ => false

end Sanshain.Domain
