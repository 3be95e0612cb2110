import Sanshain.Infrastructure.PostgresPins

namespace Sanshain.Guarantees

open Sanshain.Domain Sanshain.Effects Sanshain.Infrastructure

section Kept

variable {Row Entry : Type} (rule : Succession Row Entry)

/-- The rows are those of the transactions one after another in some order, and every required
version is among them. -/
def PinsKept (start : List Row) (transactions : List (List Entry)) (rows : List Row) : Prop :=
  (∃ order, order.Perm (List.range transactions.length) ∧
      rows = rule.inOrder transactions start order) ∧
    ∀ pins ∈ transactions, ∀ pin ∈ pins, ∃ row ∈ rows, rule.records pin row = true

/-- The rows after the transactions have taken their steps in the order of the schedule. -/
def afterSchedule (start : List Row) (transactions : List (List Entry)) (schedule : List Nat) :
    Contention Row Entry :=
  runSteps rule.step (Contention.opened start transactions) schedule

/-- No insert of the schedule meets an open row of another version. -/
def InsertsMeetTheirOwn (start : List Row) (transactions : List (List Entry))
    (schedule : List Nat) : Prop :=
  EveryStep rule.step (fun state self => rule.MeetsItsOwn state self = true)
    (Contention.opened start transactions) schedule

instance (start : List Row) (transactions : List (List Entry)) (schedule : List Nat) :
    Decidable (InsertsMeetTheirOwn rule start transactions schedule) :=
  inferInstanceAs (Decidable (EveryStep _ _ _ _))

end Kept

/-- Concurrent pins of one key, in trunk or in one branch, are kept in every interleaving of their
statements in which no insert meets an open row of another version. -/
theorem concurrent_pins_kept (names : PinNames) (branchId : Nat) (key : PinKey) :
    (∀ (start : List PinRow) (transactions : List (List (KeyedPin key))) (schedule : List Nat),
      (trunkPinStatements names key).OneOpen start →
      InsertsMeetTheirOwn (trunkPinStatements names key) start transactions schedule →
      (afterSchedule (trunkPinStatements names key) start transactions schedule).Complete →
      PinsKept (trunkPinStatements names key) start transactions
        (afterSchedule (trunkPinStatements names key) start transactions schedule).rows) ∧
    ∀ (start : List (Nat × PinRow)) (transactions : List (List (KeyedPin key)))
      (schedule : List Nat),
      (branchPinStatements names branchId key).OneOpen start →
      InsertsMeetTheirOwn (branchPinStatements names branchId key) start transactions schedule →
      (afterSchedule (branchPinStatements names branchId key) start transactions schedule).Complete →
      PinsKept (branchPinStatements names branchId key) start transactions
        (afterSchedule (branchPinStatements names branchId key) start transactions schedule).rows :=
  ⟨fun _ _ _ one own complete => serializable one own complete,
    fun _ _ _ one own complete => serializable one own complete⟩

section Example

def billingKey : PinKey := (1, 1, .openApi, "/orders", "GET")

def billingPin (version : SemVer) (now : Instant) : KeyedPin billingKey :=
  ⟨⟨1, 1, .openApi, version, "/orders", "/orders", "GET", now⟩, rfl⟩

/-- Two builds of a consumer, and the version that each requires of one endpoint. -/
def twoBuilds (first second : SemVer) : List (List (KeyedPin billingKey)) :=
  [[billingPin first 1], [billingPin second 2]]

/-- Both builds look for an open row before either inserts one. -/
def bothLookFirst : List Nat := [0, 0, 0, 0, 1, 1, 1, 1, 0, 0, 1, 1]

def billingNames : PinNames := ⟨fun _ => "billing", fun _ => "orders"⟩

/-- Of two builds that require the same version, the second refreshes the row of the first. -/
theorem concurrent_pins_kept_twoBuilds :
    PinsKept (trunkPinStatements billingNames billingKey) [] (twoBuilds ⟨1, 0, 0⟩ ⟨1, 0, 0⟩)
        (afterSchedule (trunkPinStatements billingNames billingKey) []
          (twoBuilds ⟨1, 0, 0⟩ ⟨1, 0, 0⟩) bothLookFirst).rows ∧
      PinsKept (branchPinStatements billingNames 7 billingKey) [] (twoBuilds ⟨1, 0, 0⟩ ⟨1, 0, 0⟩)
        (afterSchedule (branchPinStatements billingNames 7 billingKey) []
          (twoBuilds ⟨1, 0, 0⟩ ⟨1, 0, 0⟩) bothLookFirst).rows :=
  ⟨(concurrent_pins_kept billingNames 7 billingKey).1 [] _ _ List.Pairwise.nil
      (by decide +kernel) (by unfold Contention.Complete; decide +kernel),
    (concurrent_pins_kept billingNames 7 billingKey).2 [] _ _ List.Pairwise.nil
      (by decide +kernel) (by unfold Contention.Complete; decide +kernel)⟩

/-- Of two builds that require different versions, the second refreshes the row of the first as
well, and the version that it required is in no row. -/
theorem concurrent_pin_lost :
    ¬ ∀ (names : PinNames) (key : PinKey) (start : List PinRow)
      (transactions : List (List (KeyedPin key))) (schedule : List Nat),
      (trunkPinStatements names key).OneOpen start →
      (afterSchedule (trunkPinStatements names key) start transactions schedule).Complete →
      PinsKept (trunkPinStatements names key) start transactions
        (afterSchedule (trunkPinStatements names key) start transactions schedule).rows := by
  intro always
  have kept := always billingNames billingKey [] (twoBuilds ⟨1, 0, 0⟩ ⟨1, 1, 0⟩) bothLookFirst
    List.Pairwise.nil (by unfold Contention.Complete; decide +kernel)
  have second := kept.2 _ (List.mem_cons_of_mem _ (List.mem_singleton_self _)) _
    (List.mem_singleton_self _)
  have lost : ¬ ∃ row ∈ (afterSchedule (trunkPinStatements billingNames billingKey) []
      (twoBuilds ⟨1, 0, 0⟩ ⟨1, 1, 0⟩) bothLookFirst).rows,
      (trunkPinStatements billingNames billingKey).records (billingPin ⟨1, 1, 0⟩ 2) row = true := by
    decide +kernel
  exact lost second

end Example

end Sanshain.Guarantees
