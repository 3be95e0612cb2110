import Sanshain.Application.Webhooks
import Sanshain.Effects.Ensures
import Sanshain.Effects.Steps
import Sanshain.Infrastructure.Emitted

namespace Sanshain.Guarantees

open Sanshain.Data Sanshain.Domain Sanshain.Document Sanshain.Effects Sanshain.Application
  Sanshain.Infrastructure

/-- The store, and the events whose fan-out has been decided. -/
structure Emission where
  store : Store
  planned : List NewWebhookEvent := []

/-- What happens to the outbox: a fan-out is decided on the hooks of the moment, or for a test of one
hook; a fact is written with its events, or events alone; hooks come and go; what is settled and
old is deleted; and every other call of the store. -/
inductive EmissionStep where
  | plan (id : String) (eventType : WebhookEventType) (producer : Option String)
      (consumers : List String) (occurredAt : Instant) (data : Value)
  | planTest (id : String) (hookId : Nat) (occurredAt : Instant) (data : Value)
  | write (fault : Nat → Option RepositoryError) (now : Instant) (write : FactWrite)
  | insertWebhookEvents (fault : Nat → Option RepositoryError) (events : List NewWebhookEvent)
  | createWebhook (hook : Webhook)
  | deleteWebhook (hookId : Nat)
  | deleteOldWebhookData (settled : DeliveryRow → Bool) (cutoff : Instant)
  | other (now : Instant) (request : RepoCall)

/-- The hooks that want an event, as the fan-out finds them. -/
def decidedHooks (store : Store) (eventType : WebhookEventType) (producer : Option String)
    (consumers : List String) : List Nat :=
  (store.webhooks.filter fun hook => hookWants hook eventType producer consumers).map (·.id)

/-- A hook's deliveries go with it. -/
def withoutWebhook (store : Store) (hookId : Nat) : Store :=
  { store with
    webhooks := store.webhooks.filter (·.id ≠ hookId)
    deliveries := store.deliveries.filter (·.hookId ≠ hookId) }

/-- Settled deliveries go, and old events that no delivery is left of. -/
def withoutOldWebhookData (store : Store) (settled : DeliveryRow → Bool) (cutoff : Instant) : Store :=
  { store with
    deliveries := store.deliveries.filter (!settled ·)
    outbox := store.outbox.filter fun event =>
      ¬ (event.occurredAt < cutoff ∧
        event.id ∉ (store.deliveries.filter (!settled ·)).map (·.eventId)) }

namespace Emission

def step (emission : Emission) : EmissionStep → Emission
  | .plan id eventType producer consumers occurredAt data =>
      let hookIds := decidedHooks emission.store eventType producer consumers
      if hookIds.isEmpty then emission
      else { emission with
        planned := emission.planned ++ [⟨id, eventType, producer, occurredAt, data, hookIds⟩] }
  | .planTest id hookId occurredAt data =>
      { emission with
        planned := emission.planned ++ [⟨id, .test, none, occurredAt, data, [hookId]⟩] }
  | .write fault now write => { emission with store := (write.attempt fault now emission.store).1 }
  | .insertWebhookEvents fault events =>
      if events.isEmpty then emission
      else { emission with
        store := (transact fault (writeOutboxStatements events) emission.store).1 }
  | .createWebhook hook =>
      if hook.id ∈ emission.store.webhooks.map (·.id) then emission
      else { emission with
        store := { emission.store with webhooks := emission.store.webhooks ++ [hook] } }
  | .deleteWebhook hookId => { emission with store := withoutWebhook emission.store hookId }
  | .deleteOldWebhookData settled cutoff =>
      { emission with store := withoutOldWebhookData emission.store settled cutoff }
  | .other now request => { emission with store := (emission.store.perform now request).1 }

/-- Events are written as they were planned, and a call that is not one of the writes of events
touches neither the outbox nor the hooks, or empties the store. -/
def Orderly (emission : Emission) : EmissionStep → Prop
  | .write _ _ write => ∀ event ∈ write.outbox, event ∈ emission.planned
  | .insertWebhookEvents _ events => ∀ event ∈ events, event ∈ emission.planned
  | .other _ request => request = .nukeDatabase ∨
      Table.webhooks ∉ writes request ∧ Table.outbox ∉ writes request ∧
        Table.deliveries ∉ writes request
  | _ => True

end Emission

/-- The events of a write exist, each with one delivery for every decided hook, exactly when the fact
was written: all of it is there, or nothing has changed. -/
structure AsOne (now : Instant) (write : FactWrite) (store : Store)
    (outcome : Store × Except RepositoryError Unit) : Prop where
  written : outcome.2 = .ok () → write.Recorded now outcome.1 ∧
    ∀ event ∈ write.outbox, event.id ∉ store.outbox.map (·.id) ∧ Emitted event outcome.1
  unwritten : outcome.2 ≠ .ok () → outcome.1 = store
  emitted_iff : ∀ event ∈ write.outbox, event.id ∉ store.outbox.map (·.id) →
    (Emitted event outcome.1 ↔ outcome.2 = .ok ())

def WritesAsOne (emission : Emission) (next : EmissionStep) : Prop :=
  ∀ fault now write, next = .write fault now write →
    AsOne now write emission.store (write.attempt fault now emission.store)

/-- An event is in the outbox at most once, and has at most one delivery for each hook. -/
def OncePerHook (emission : Emission) : Prop :=
  (emission.store.outbox.map (·.id)).Nodup ∧
    (emission.store.deliveries.map fun row => (row.hookId, row.eventId)).Nodup

/-- The outbox is sound, and the planned events have each hook once. -/
structure Planned (emission : Emission) : Prop where
  sound : OutboxSound emission.store
  distinct : ∀ event ∈ emission.planned, event.hookIds.Nodup

section Writes

variable {store : Store} {now : Instant} {write : FactWrite}

theorem asOne_attempt (sound : OutboxSound store)
    (distinct : ∀ event ∈ write.outbox, event.hookIds.Nodup)
    (fault : Nat → Option RepositoryError) :
    AsOne now write store (write.attempt fault now store) := by
  obtain ⟨after, done, same⟩ | ⟨error, same⟩ := write.attempt_cases fault now store
  · obtain ⟨recorded, -, emitted⟩ := write.recorded_and_emitted sound distinct done
    rw [same]
    exact ⟨fun _ => ⟨recorded, emitted⟩, fun failed => absurd rfl failed,
      fun event there _ => ⟨fun _ => rfl, fun _ => (emitted event there).2⟩⟩
  · rw [same]
    refine ⟨(nomatch ·), fun _ => rfl, fun event there unused => ?_⟩
    exact ⟨fun emitted => absurd emitted.mem unused, (nomatch ·)⟩

theorem sound_attempt (sound : OutboxSound store)
    (distinct : ∀ event ∈ write.outbox, event.hookIds.Nodup)
    (fault : Nat → Option RepositoryError) : OutboxSound (write.attempt fault now store).1 := by
  obtain ⟨after, done, same⟩ | ⟨error, same⟩ := write.attempt_cases fault now store
  · rw [same]
    exact (write.recorded_and_emitted sound distinct done).2.1
  · rw [same]
    exact sound

theorem sound_insertWebhookEvents (sound : OutboxSound store) {events : List NewWebhookEvent}
    (distinct : ∀ event ∈ events, event.hookIds.Nodup) (fault : Nat → Option RepositoryError) :
    OutboxSound (transact fault (writeOutboxStatements events) store).1 := by
  obtain ⟨after, done, same⟩ | ⟨error, same⟩ :=
    transact_cases fault (writeOutboxStatements events) store
  · rw [same]
    rw [inSequence_writeOutbox] at done
    exact (sound.writeOutbox distinct done).1
  · rw [same]
    exact sound

theorem sound_withoutWebhook (sound : OutboxSound store) (hookId : Nat) :
    OutboxSound (withoutWebhook store hookId) where
  hooks := sound.hooks.sublist (List.filter_sublist.map _)
  events := sound.events
  known row there := sound.known row (List.mem_filter.mp there).1
  once := sound.once.sublist (List.filter_sublist.map _)

theorem sound_withoutOldWebhookData (sound : OutboxSound store) (settled : DeliveryRow → Bool)
    (cutoff : Instant) : OutboxSound (withoutOldWebhookData store settled cutoff) where
  hooks := sound.hooks
  events := sound.events.sublist (List.filter_sublist.map _)
  known row there := by
    obtain ⟨event, held, same⟩ := List.mem_map.mp (sound.known row (List.mem_filter.mp there).1)
    refine List.mem_map.mpr ⟨event, List.mem_filter.mpr ⟨held, decide_eq_true ?_⟩, same⟩
    exact fun old => old.2 (List.mem_map.mpr ⟨row, there, same.symm⟩)
  once := sound.once.sublist (List.filter_sublist.map _)

theorem sound_createWebhook (sound : OutboxSound store) {hook : Webhook}
    (new : hook.id ∉ store.webhooks.map (·.id)) :
    OutboxSound { store with webhooks := store.webhooks ++ [hook] } where
  hooks := by
    rw [List.map_append]
    refine List.nodup_append.mpr ⟨sound.hooks, List.nodup_singleton _, ?_⟩
    rintro id there _ last rfl
    have same : id = hook.id := List.mem_singleton.mp last
    exact new (same ▸ there)
  events := sound.events
  known := sound.known
  once := sound.once

theorem sound_other (sound : OutboxSound store) {request : RepoCall}
    (aside : request = .nukeDatabase ∨ Table.webhooks ∉ writes request ∧
      Table.outbox ∉ writes request ∧ Table.deliveries ∉ writes request) :
    OutboxSound (store.perform now request).1 := by
  obtain rfl | ⟨hooks, events, deliveries⟩ := aside
  · exact ⟨List.nodup_nil, List.nodup_nil, fun _ there => absurd there List.not_mem_nil,
      List.nodup_nil⟩
  · exact sound.of_tables (Store.perform_frame store now hooks) (Store.perform_frame store now events)
      (Store.perform_frame store now deliveries)

/-- Hooks are listed once, and so are those that want an event. -/
theorem nodup_decidedHooks (sound : OutboxSound store) (eventType : WebhookEventType)
    (producer : Option String) (consumers : List String) :
    (decidedHooks store eventType producer consumers).Nodup :=
  sound.hooks.sublist (List.filter_sublist.map _)

/-- What a call of the fan-out decides are the hooks of the moment that want the event, under some
Consumers, or none. -/
theorem fanOut_decides (environment : Environment) (deployment : Deployment)
    (eventType : WebhookEventType) (audience : EventAudience) (world : World) :
    (fanOut deployment eventType audience).Ensures (World.handle environment)
      (fun hookIds _ => hookIds = [] ∨ ∃ consumers,
        hookIds = decidedHooks world.store eventType audience.producer consumers)
      (fun _ _ => True) world := by
  have asked : (tryRepo .listWebhooks).Ensures (World.handle environment)
      (fun answer _ => ∀ hooks, answer = .ok hooks → hooks = world.store.webhooks)
      (fun _ _ => True) world := by
    refine Program.Ensures.call (Program.Ensures.done ?_)
    intro hooks answered
    obtain ⟨reason, failed, -⟩ | performed := World.handle_repo environment world .listWebhooks
    · rw [failed] at answered
      cases answered
    · rw [performed] at answered
      exact (Except.ok.inj answered).symm
  have listed : (repo .listWebhooks).Ensures (World.handle environment)
      (fun hooks _ => hooks = world.store.webhooks) (fun _ _ => True) world := by
    refine asked.bind fun answer reached known => ?_
    refine Program.Ensures.ofExcept (fun hooks same => ?_) (fun _ _ => trivial)
    cases answer with
    | error error => cases same
    | ok found =>
        obtain rfl := Except.ok.inj same
        exact known _ rfl
  unfold fanOut
  split
  · refine listed.bind fun hooks reached known => ?_
    split
    · exact Program.Ensures.done (.inl rfl)
    · have edges : (edgeConsumers audience).Ensures (World.handle environment)
          (fun _ _ => True) (fun _ _ => True) reached := ⟨fun _ _ _ => trivial, fun _ _ _ => trivial⟩
      refine edges.bind fun consumers _ _ =>
        Program.Ensures.done (.inr ⟨audience.consumers ++ consumers, ?_⟩)
      rw [known]
      rfl
  · exact Program.Ensures.done (.inl rfl)

end Writes

section Steps

variable {emission : Emission}

theorem Planned.step (planned : Planned emission) {next : EmissionStep}
    (orderly : emission.Orderly next) : Planned (emission.step next) := by
  obtain ⟨sound, distinct⟩ := planned
  cases next with
  | plan id eventType producer consumers occurredAt data =>
      unfold Emission.step
      dsimp only
      split
      · exact ⟨sound, distinct⟩
      · refine ⟨sound, fun event there => ?_⟩
        obtain old | new := List.mem_append.mp there
        · exact distinct event old
        · rw [List.mem_singleton.mp new]
          exact nodup_decidedHooks sound eventType producer consumers
  | planTest id hookId occurredAt data =>
      refine ⟨sound, fun event there => ?_⟩
      obtain old | new := List.mem_append.mp there
      · exact distinct event old
      · rw [List.mem_singleton.mp new]
        exact List.nodup_singleton hookId
  | write fault now write =>
      exact ⟨sound_attempt sound (fun event there => distinct event (orderly event there)) fault, distinct⟩
  | insertWebhookEvents fault events =>
      unfold Emission.step
      dsimp only
      split
      · exact ⟨sound, distinct⟩
      · exact ⟨sound_insertWebhookEvents sound (fun event there => distinct event (orderly event there))
          fault, distinct⟩
  | createWebhook hook =>
      unfold Emission.step
      dsimp only
      split
      · exact ⟨sound, distinct⟩
      · rename_i new
        exact ⟨sound_createWebhook sound new, distinct⟩
  | deleteWebhook hookId => exact ⟨sound_withoutWebhook sound hookId, distinct⟩
  | deleteOldWebhookData settled cutoff =>
      exact ⟨sound_withoutOldWebhookData sound settled cutoff, distinct⟩
  | other now request => exact ⟨sound_other sound orderly, distinct⟩

theorem Planned.writesAsOne (planned : Planned emission) {next : EmissionStep}
    (orderly : emission.Orderly next) : WritesAsOne emission next := by
  rintro fault now write rfl
  exact asOne_attempt planned.sound (fun event there => planned.distinct event (orderly event there))
    fault

end Steps

/-- A fact and its events are one at every failure point of every write, whatever hooks come and go
in between, and in every state an event is there at most once, with one delivery for each hook. -/
theorem fact_and_event_are_one (store : Store) (sound : OutboxSound store)
    (steps : List EmissionStep)
    (orderly : EveryStep Emission.step Emission.Orderly ⟨store, []⟩ steps) :
    EveryStep Emission.step WritesAsOne ⟨store, []⟩ steps ∧
      Throughout Emission.step OncePerHook ⟨store, []⟩ steps := by
  have start : Planned ⟨store, []⟩ := ⟨sound, fun _ there => absurd there List.not_mem_nil⟩
  constructor
  · refine orderly.of_invariant Planned start fun emission next planned allowed => ?_
    exact ⟨planned.step allowed, planned.writesAsOne allowed⟩
  · generalize (⟨store, []⟩ : Emission) = emission at orderly start
    induction steps generalizing emission with
    | nil => exact ⟨start.sound.events, start.sound.once⟩
    | cons next rest ih =>
        exact ⟨⟨start.sound.events, start.sound.once⟩, ih _ orderly.2 (start.step orderly.1)⟩

/-- A hook of every event. -/
def oneHook : Store := { webhooks := [⟨7, .global, [], none, false⟩] }

def cutEvent (id : String) : NewWebhookEvent := ⟨id, .branchCut, none, 1, .null, [7]⟩

theorem oneHook_sound : OutboxSound oneHook := by
  constructor
  · exact List.nodup_singleton _
  · exact List.nodup_nil
  · exact fun row there => absurd there List.not_mem_nil
  · exact List.nodup_nil

/-- Two cuts whose fan-outs are decided while the hook is there; it is gone before the second one is
written. -/
theorem fact_and_event_are_one_oneHook :
    EveryStep Emission.step WritesAsOne ⟨oneHook, []⟩
        [.plan "first" .branchCut none [] 1 .null, .plan "second" .branchCut none [] 1 .null,
          .write (fun _ => none) 2 (.insertBranch "r1" 2 "anna" "main" 2 [cutEvent "first"]),
          .deleteWebhook 7,
          .write (fun _ => none) 3 (.insertBranch "r2" 3 "anna" "main" 3 [cutEvent "second"])] ∧
      Throughout Emission.step OncePerHook ⟨oneHook, []⟩
        [.plan "first" .branchCut none [] 1 .null, .plan "second" .branchCut none [] 1 .null,
          .write (fun _ => none) 2 (.insertBranch "r1" 2 "anna" "main" 2 [cutEvent "first"]),
          .deleteWebhook 7,
          .write (fun _ => none) 3 (.insertBranch "r2" 3 "anna" "main" 3 [cutEvent "second"])] := by
  refine fact_and_event_are_one oneHook oneHook_sound _ ⟨trivial, trivial, ?_, trivial, ?_, trivial⟩
  · intro event there
    obtain rfl := List.mem_singleton.mp there
    exact List.mem_cons_self
  · intro event there
    obtain rfl := List.mem_singleton.mp there
    exact List.mem_cons_of_mem _ (List.mem_singleton_self _)

end Sanshain.Guarantees
