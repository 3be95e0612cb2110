import Sanshain.Infrastructure.World

namespace Sanshain.Infrastructure

open Sanshain.Data Sanshain.Domain

/-- What a row is about. -/
def HarvestedRow.key (row : HarvestedRow) : Nat × String × String :=
  (row.clientId, row.channel, row.messageName)

/-- Two rows that the index of the open rows lets stand beside each other. -/
def HarvestedRow.Apart (first second : HarvestedRow) : Prop :=
  first.validTo = none → second.validTo = none → first.key ≠ second.key

namespace Store

/-- The constraints of the subscriptions: one open row for each client, channel and message, and no
row without its client. -/
structure Subscribed (store : Store) : Prop where
  once : store.harvested.Pairwise HarvestedRow.Apart
  known : ∀ row ∈ store.harvested, row.clientId ∈ store.clients.map Prod.fst

def openHarvested (store : Store) : List HarvestedRow := store.harvested.filter (·.validTo.isNone)

theorem Subscribed.empty : ({} : Store).Subscribed := by
  constructor <;> simp

theorem Subscribed.of_tables {store after : Store} (sound : store.Subscribed)
    (harvested : after.table .harvested = store.table .harvested)
    (clients : after.table .clients = store.table .clients) : after.Subscribed := by
  change after.harvested = store.harvested at harvested
  have clients : after.clients = store.clients := (Prod.mk.inj clients).1
  exact ⟨by rw [harvested]; exact sound.once, by rw [harvested, clients]; exact sound.known⟩

/-- No two open rows are about the same. -/
theorem Subscribed.openKeys {store : Store} (sound : store.Subscribed) :
    (store.openHarvested.map HarvestedRow.key).Nodup := by
  rw [List.nodup_iff_pairwise_ne, List.pairwise_map]
  refine List.Pairwise.imp_of_mem ?_ (sound.once.filter _)
  intro first second one other apart
  exact apart (Option.isNone_iff_eq_none.mp (List.mem_filter.mp one).2)
    (Option.isNone_iff_eq_none.mp (List.mem_filter.mp other).2)

section Reconciling

variable {store after : Store} {clientId : Nat} {clientName : String} {trunk : Bool}
  {subs : List HarvestedSubInput} {now : Instant} {row : HarvestedRow} {sub : HarvestedSubInput}

@[simp] theorem closeUndeclared_key :
    (closeUndeclared clientId trunk subs now row).key = row.key := by
  unfold closeUndeclared
  split <;> rfl

@[simp] theorem closeUndeclared_clientId :
    (closeUndeclared clientId trunk subs now row).clientId = row.clientId := by
  unfold closeUndeclared
  split <;> rfl

@[simp] theorem closeUndeclared_trunk :
    (closeUndeclared clientId trunk subs now row).trunk = row.trunk := by
  unfold closeUndeclared
  split <;> rfl

theorem closeUndeclared_other (other : row.clientId ≠ clientId) :
    closeUndeclared clientId trunk subs now row = row := by
  simp [closeUndeclared, other]

/-- A row is open afterwards if it was, and is another client's or still declared. -/
theorem closeUndeclared_open : (closeUndeclared clientId trunk subs now row).validTo = none ↔
    row.validTo = none ∧
      (row.clientId = clientId → ∃ sub ∈ subs, harvestUnchanged trunk row sub = true) := by
  unfold closeUndeclared
  split
  · rename_i gone
    simp only [Bool.and_eq_true, Bool.not_eq_true', decide_eq_true_eq, List.any_eq_false] at gone
    obtain ⟨⟨own, -⟩, undeclared⟩ := gone
    simp only [reduceCtorEq, false_iff, not_and, not_forall]
    rintro -
    exact ⟨own, fun declared => by
      obtain ⟨sub, among, same⟩ := declared
      exact undeclared sub among same⟩
  · rename_i stays
    refine ⟨fun isOpen => ⟨isOpen, fun own => ?_⟩, fun kept => kept.1⟩
    simpa [own, isOpen] using stays

theorem openFor_iff : openFor clientId row sub = true ↔
    row.validTo = none ∧ row.key = (clientId, sub.channel, sub.messageName) := by
  simp only [openFor, HarvestedRow.key, Bool.and_eq_true, decide_eq_true_eq, Option.isNone_iff_eq_none,
    Prod.mk.injEq]
  tauto

/-- What a reconciliation leaves: the rows there were, some of them closed, and those it adds. -/
structure Swept (store after : Store) (clientId : Nat) (clientName : String) (trunk : Bool)
    (subs : List HarvestedSubInput) (now : Instant) (added : List HarvestedRow) : Prop where
  filled : after.harvested = fill (openFor clientId) (declaredRow clientId clientName trunk now)
    (store.harvested.map (closeUndeclared clientId trunk subs now)) subs
  rows : after.harvested = store.harvested.map (closeUndeclared clientId trunk subs now) ++ added
  clients : after.clients = store.clients
  fresh : ∀ row ∈ added, ∃ sub ∈ subs, row = declaredRow clientId clientName trunk now sub
  known : ∀ row ∈ added, store.harvestedKnown row = true

theorem swept_of_reconciled
    (done : store.reconcileHarvested clientId clientName trunk subs now = .ok after) :
    ∃ added, Swept store after clientId clientName trunk subs now added := by
  have clients : after.table .clients = store.table .clients :=
    table_reconcileHarvested done (by decide)
  obtain ⟨added, same, fresh⟩ := fill_eq_append (openFor clientId)
    (declaredRow clientId clientName trunk now)
    (store.harvested.map (closeUndeclared clientId trunk subs now)) subs
  unfold reconcileHarvested at done
  dsimp only at done
  split at done
  · rename_i known
    cases done
    rw [same, List.drop_left] at known
    exact ⟨added, rfl, same, (Prod.mk.inj clients).1, fresh, List.all_eq_true.mp known⟩
  · cases done

theorem mem_clients_of_name {name : String} (named : store.clientName? clientId = some name) :
    clientId ∈ store.clients.map Prod.fst := by
  obtain ⟨client, found, -⟩ := Option.map_eq_some_iff.mp named
  have same : client.1 = clientId := by simpa using List.find?_some found
  exact List.mem_map.mpr ⟨client, List.mem_of_find?_eq_some found, same⟩

theorem Subscribed.reconcileHarvested (sound : store.Subscribed)
    (done : store.reconcileHarvested clientId clientName trunk subs now = .ok after) :
    after.Subscribed := by
  obtain ⟨added, swept⟩ := swept_of_reconciled done
  constructor
  · rw [swept.filled]
    refine pairwise_fill ?_ ?_ subs
    · intro row sub unanswered isOpen _ same
      have answered : openFor clientId row sub = true := openFor_iff.mpr ⟨isOpen, same⟩
      rw [unanswered] at answered
      cases answered
    · rw [List.pairwise_map]
      refine sound.once.imp fun apart isOpen isOpen' => ?_
      rw [closeUndeclared_key, closeUndeclared_key]
      exact apart (closeUndeclared_open.mp isOpen).1 (closeUndeclared_open.mp isOpen').1
  · intro row among
    rw [swept.clients]
    rw [swept.rows] at among
    obtain kept | new := List.mem_append.mp among
    · obtain ⟨old, held, rfl⟩ := List.mem_map.mp kept
      rw [closeUndeclared_clientId]
      exact sound.known old held
    · obtain ⟨there, -⟩ := Bool.and_eq_true_iff.mp (swept.known row new)
      obtain ⟨name, named⟩ := Option.isSome_iff_exists.mp there
      exact mem_clients_of_name named

/-- A client is subscribed afterwards to what is declared. -/
theorem open_reconciled
    (done : store.reconcileHarvested clientId clientName trunk subs now = .ok after)
    (channel messageName : String) :
    (∃ row ∈ after.openHarvested, row.key = (clientId, channel, messageName)) ↔
      ∃ sub ∈ subs, sub.channel = channel ∧ sub.messageName = messageName := by
  obtain ⟨added, swept⟩ := swept_of_reconciled done
  constructor
  · rintro ⟨row, among, about⟩
    obtain ⟨among, isOpen⟩ := List.mem_filter.mp among
    rw [swept.rows] at among
    obtain kept | new := List.mem_append.mp among
    · obtain ⟨old, -, rfl⟩ := List.mem_map.mp kept
      rw [closeUndeclared_key] at about
      obtain ⟨-, declared⟩ := closeUndeclared_open.mp (Option.isNone_iff_eq_none.mp isOpen)
      obtain ⟨sub, wanted, unchanged⟩ := declared (Prod.mk.inj about).1
      simp only [harvestUnchanged, Bool.and_eq_true, decide_eq_true_eq] at unchanged
      obtain ⟨⟨⟨sameChannel, sameName⟩, -⟩, -⟩ := unchanged
      obtain ⟨-, rest⟩ := Prod.mk.inj about
      obtain ⟨named, called⟩ := Prod.mk.inj rest
      exact ⟨sub, wanted, sameChannel.symm.trans named, sameName.symm.trans called⟩
    · obtain ⟨sub, wanted, rfl⟩ := swept.fresh row new
      obtain ⟨-, rest⟩ := Prod.mk.inj about
      obtain ⟨named, called⟩ := Prod.mk.inj rest
      exact ⟨sub, wanted, named, called⟩
  · rintro ⟨sub, wanted, rfl, rfl⟩
    have own (want : HarvestedSubInput) :
        openFor clientId (declaredRow clientId clientName trunk now want) want = true :=
      openFor_iff.mpr ⟨rfl, rfl⟩
    obtain ⟨row, among, answered⟩ := answered_fill own
      (store.harvested.map (closeUndeclared clientId trunk subs now)) wanted
    rw [← swept.filled] at among
    obtain ⟨isOpen, about⟩ := openFor_iff.mp answered
    exact ⟨row, List.mem_filter.mpr ⟨among, Option.isNone_iff_eq_none.mpr isOpen⟩, about⟩

/-- A reconciliation outside trunk takes all the client's open rows out of trunk, and no others. -/
theorem trunk_reconciled
    (done : store.reconcileHarvested clientId clientName false subs now = .ok after) :
    after.openHarvested.filter (·.trunk) =
      (store.openHarvested.filter (·.trunk)).filter (·.clientId ≠ clientId) := by
  obtain ⟨added, swept⟩ := swept_of_reconciled done
  have plain : (added.filter (·.validTo.isNone)).filter (·.trunk) = [] := by
    rw [List.filter_eq_nil_iff]
    intro row among
    obtain ⟨sub, -, rfl⟩ := swept.fresh row (List.mem_filter.mp among).1
    exact Bool.false_ne_true
  have shown : ((fun row : HarvestedRow => row.trunk && row.validTo.isNone) ∘
      closeUndeclared clientId false subs now) =
        fun row => decide (row.clientId ≠ clientId) && row.trunk && row.validTo.isNone := by
    funext row
    rw [Bool.eq_iff_iff]
    simp only [Function.comp_apply, closeUndeclared_trunk, Bool.and_eq_true, Option.isNone_iff_eq_none,
      closeUndeclared_open, decide_eq_true_eq]
    constructor
    · rintro ⟨onTrunk, isOpen, declared⟩
      refine ⟨⟨fun own => ?_, onTrunk⟩, isOpen⟩
      obtain ⟨sub, -, unchanged⟩ := declared own
      simp [harvestUnchanged, onTrunk] at unchanged
    · rintro ⟨⟨other, onTrunk⟩, isOpen⟩
      exact ⟨onTrunk, isOpen, fun own => absurd own other⟩
  rw [openHarvested, swept.rows, List.filter_append, List.filter_append, plain, List.append_nil,
    openHarvested, List.filter_filter, List.filter_map, List.filter_filter, List.filter_filter,
    shown]
  refine (List.map_congr_left fun row among => ?_).trans (List.map_id _)
  have kept := (List.mem_filter.mp among).2
  simp only [Bool.and_eq_true, decide_eq_true_eq] at kept
  exact closeUndeclared_other kept.1.1

end Reconciling

section Preservation

variable {store : Store}

/-- Rows and clients only go, and a row that stays has its client. -/
theorem Subscribed.without {after : Store} (sound : store.Subscribed)
    (rows : after.harvested.Sublist store.harvested)
    (there : ∀ row ∈ after.harvested, row.clientId ∈ store.clients.map Prod.fst →
      row.clientId ∈ after.clients.map Prod.fst) : after.Subscribed :=
  ⟨sound.once.sublist rows, fun row among => there row among (sound.known row (rows.subset among))⟩

/-- What a row is about does not depend on its owner. -/
theorem Subscribed.disowned {after : Store} {disown : HarvestedRow → HarvestedRow}
    (sound : store.Subscribed) (rows : after.harvested = store.harvested.map disown)
    (clients : after.clients = store.clients)
    (kept : ∀ row, (disown row).key = row.key ∧ (disown row).validTo = row.validTo) :
    after.Subscribed := by
  constructor
  · rw [rows, List.pairwise_map]
    refine sound.once.imp fun apart isOpen isOpen' => ?_
    rw [(kept _).2] at isOpen isOpen'
    rw [(kept _).1, (kept _).1]
    exact apart isOpen isOpen'
  · rw [rows, clients]
    intro row among
    obtain ⟨old, held, rfl⟩ := List.mem_map.mp among
    rw [(Prod.mk.inj (kept old).1).1]
    exact sound.known old held

/-- Every call keeps the constraints of the subscriptions. -/
theorem Subscribed.perform (sound : store.Subscribed) (now : Instant) (request : RepoCall) :
    (store.perform now request).1.Subscribed := by
  cases request with
  | ensureClient name =>
      refine ⟨?_, fun row among => ?_⟩
      · have rows : (store.perform now (.ensureClient name)).1.table .harvested =
            store.table .harvested := perform_frame store now (by simp [writes])
        change (store.perform now (.ensureClient name)).1.harvested = store.harvested at rows
        rw [rows]
        exact sound.once
      · change row ∈ (store.ensureClient name).1.harvested at among
        change row.clientId ∈ (store.ensureClient name).1.clients.map Prod.fst
        unfold ensureClient at among ⊢
        split
        · rename_i found
          rw [found] at among
          exact sound.known row among
        · rename_i unknown
          rw [unknown] at among
          rw [List.map_append]
          exact List.mem_append.mpr (.inl (sound.known row among))
  | reconcileHarvestedSubscriptions clientId clientName trunk subs nowIso =>
      change (store.triedUnit
        (store.reconcileHarvested clientId clientName trunk subs nowIso)).1.Subscribed
      obtain ⟨error, -, same⟩ | ⟨after, done, same⟩ :=
        triedUnit_cases store (store.reconcileHarvested clientId clientName trunk subs nowIso)
      · rw [same]
        exact sound
      · rw [same]
        exact sound.reconcileHarvested done
  | deleteProducer name =>
      change (store.deleteProducer now name).1.Subscribed
      unfold deleteProducer
      split
      · exact sound
      · refine sound.disowned rfl rfl fun row => ?_
        split <;> exact ⟨rfl, rfl⟩
  | deleteConsumer name =>
      change (store.deleteConsumer now name).1.Subscribed
      unfold deleteConsumer
      split
      · exact sound
      · refine sound.without List.filter_sublist fun row among there => ?_
        have other := (List.mem_filter.mp among).2
        obtain ⟨client, held, same⟩ := List.mem_map.mp there
        refine List.mem_map.mpr ⟨client, List.mem_filter.mpr ⟨held, ?_⟩, same⟩
        rw [same]
        exact other
  | deleteAllServices =>
      exact sound.disowned rfl rfl fun row => ⟨rfl, rfl⟩
  | deleteAllClients =>
      exact sound.without (List.nil_sublist _) fun row among => by cases among
  | nukeDatabase =>
      exact sound.without (List.nil_sublist _) fun row among => by cases among
  | _ =>
      exact sound.of_tables (perform_frame store now (by simp [writes]))
        (perform_frame store now (by simp [writes]))

/-- The client that is ensured is the one of its name. -/
theorem clientNamed?_ensureClient (store : Store) (name : String) :
    ((store.ensureClient name).1.clientNamed? name).map Prod.fst = some (store.ensureClient name).2 := by
  unfold ensureClient
  split
  · rename_i client found
    rw [found]
    rfl
  · rename_i unknown
    rw [clientNamed?, List.find?_append, ← clientNamed?, unknown]
    simp

end Preservation

end Store
end Sanshain.Infrastructure
