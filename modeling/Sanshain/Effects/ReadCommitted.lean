import Sanshain.Effects.Steps

namespace Sanshain.Effects

/-- Rows of which at most one is open, and the entries that are recorded in them: an entry closes
the open row, unless that records it already, and opens a row of its own. -/
structure Succession (Row Entry : Type) where
  isOpen : Row → Bool
  records : Entry → Row → Bool
  close : Entry → Row → Row
  refresh : Entry → Row → Row
  fresh : Entry → Row
  isOpen_close : ∀ entry row, isOpen (close entry row) = false
  isOpen_refresh : ∀ entry row, isOpen (refresh entry row) = isOpen row
  isOpen_fresh : ∀ entry, isOpen (fresh entry) = true
  records_close : ∀ entry other row, records entry (close other row) = records entry row
  records_refresh : ∀ entry other row, records entry (refresh other row) = records entry row
  records_fresh : ∀ entry, records entry (fresh entry) = true

/-- A row as a concurrent transaction finds it: as it was last committed, and as the transaction
that has changed it leaves it. -/
structure Slot (Row : Type) where
  committed : Option Row
  pending : Option (Nat × Row) := none
  deriving DecidableEq

/-- Where a transaction is within an entry: before a statement, or in an update that has chosen its
rows by its snapshot and has not locked them yet. -/
inductive Phase where
  | close
  | closing (targets : List Nat)
  | refresh
  | refreshing (targets : List Nat)
  | insert
  deriving DecidableEq

structure Recording (Entry : Type) where
  entries : List Entry
  phase : Phase := .close
  ended : Bool := false

/-- The rows, the transactions under way, and those that have committed, in order. -/
structure Contention (Row Entry : Type) where
  slots : List (Slot Row)
  recordings : List (Recording Entry)
  order : List Nat := []

variable {Row Entry : Type}

namespace Slot

/-- A transaction sees what is committed and what it has written itself. -/
def visible (self : Nat) (slot : Slot Row) : Option Row :=
  match slot.pending with
  | some (holder, row) => if holder = self then some row else slot.committed
  | none => slot.committed

def heldByOther (self : Nat) (slot : Slot Row) : Bool :=
  match slot.pending with
  | some (holder, _) => holder != self
  | none => false

/-- The row is changed where it still meets the condition. -/
def touch (self : Nat) (condition : Row → Bool) (change : Row → Row) (slot : Slot Row) : Slot Row :=
  match slot.visible self with
  | some row => if condition row then { slot with pending := some (self, change row) } else slot
  | none => slot

def settle (self : Nat) (slot : Slot Row) : Slot Row :=
  match slot.pending with
  | some (holder, row) => if holder = self then ⟨some row, none⟩ else slot
  | none => slot

/-- The row with whatever has been written to it. -/
def current (slot : Slot Row) : Option Row :=
  match slot.pending with
  | some (_, row) => some row
  | none => slot.committed

end Slot

/-- The rows that meet the condition in the snapshot of a statement. -/
def chosen (self : Nat) (condition : Row → Bool) (slots : List (Slot Row)) : List Nat :=
  (List.range slots.length).filter fun index =>
    (slots[index]?).any fun slot => (slot.visible self).any condition

/-- A chosen row has been changed by a transaction that has not committed. -/
def locked (self : Nat) (targets : List Nat) (slots : List (Slot Row)) : Bool :=
  targets.any fun index => (slots[index]?).any (·.heldByOther self)

/-- A chosen row still meets the condition. -/
def hits (self : Nat) (targets : List Nat) (condition : Row → Bool) (slots : List (Slot Row)) : Bool :=
  targets.any fun index => (slots[index]?).any fun slot => (slot.visible self).any condition

def update (self : Nat) (targets : List Nat) (condition : Row → Bool) (change : Row → Row)
    (slots : List (Slot Row)) : List (Slot Row) :=
  slots.mapIdx fun index slot => if index ∈ targets then slot.touch self condition change else slot

namespace Succession

variable (rule : Succession Row Entry)

def outdated (entry : Entry) (row : Row) : Bool := rule.isOpen row && !rule.records entry row

def upToDate (entry : Entry) (row : Row) : Bool := rule.isOpen row && rule.records entry row

def closeOutdated (entry : Entry) (rows : List Row) : List Row :=
  rows.map fun row => if rule.outdated entry row then rule.close entry row else row

def refreshUpToDate (entry : Entry) (rows : List Row) : List Row :=
  rows.map fun row => if rule.upToDate entry row then rule.refresh entry row else row

/-- The insert: an open row takes the arm of the conflict, which only refreshes it. -/
def insertOrRefresh (entry : Entry) (rows : List Row) : List Row :=
  if rows.any rule.isOpen then
    rows.map fun row => if rule.isOpen row then rule.refresh entry row else row
  else rows ++ [rule.fresh entry]

/-- The three statements of an entry, with nobody else at the rows. -/
def record (rows : List Row) (entry : Entry) : List Row :=
  if (rule.closeOutdated entry rows).any (rule.upToDate entry) then
    rule.refreshUpToDate entry (rule.closeOutdated entry rows)
  else rule.insertOrRefresh entry (rule.closeOutdated entry rows)

def recordAll (rows : List Row) (entries : List Entry) : List Row :=
  entries.foldl rule.record rows

/-- The transactions one after another. -/
def inOrder (transactions : List (List Entry)) (rows : List Row) (order : List Nat) : List Row :=
  order.foldl (fun rows index => rule.recordAll rows ((transactions[index]?).getD [])) rows

/-- The insert of a transaction. An entry in the unique index that another transaction has made, or
whose row it has changed, makes the insert wait. -/
def insert (self : Nat) (entry : Entry) (slots : List (Slot Row)) : List (Slot Row) :=
  if slots.any fun slot => (slot.visible self).any rule.isOpen then
    slots.map (·.touch self rule.isOpen (rule.refresh entry))
  else slots ++ [⟨none, some (self, rule.fresh entry)⟩]

/-- The next step of a transaction; one that has to wait does nothing. -/
def step (state : Contention Row Entry) (self : Nat) : Contention Row Entry :=
  match state.recordings[self]? with
  | none | some ⟨_, _, true⟩ => state
  | some ⟨[], phase, false⟩ =>
      { slots := state.slots.map (·.settle self)
        recordings := state.recordings.set self ⟨[], phase, true⟩
        order := state.order ++ [self] }
  | some ⟨entry :: rest, .close, false⟩ =>
      { state with
        recordings := state.recordings.set self ⟨entry :: rest,
          .closing (chosen self (rule.outdated entry) state.slots), false⟩ }
  | some ⟨entry :: rest, .closing targets, false⟩ =>
      if locked self targets state.slots then state
      else
        { state with
          slots := update self targets (rule.outdated entry) (rule.close entry) state.slots
          recordings := state.recordings.set self ⟨entry :: rest, .refresh, false⟩ }
  | some ⟨entry :: rest, .refresh, false⟩ =>
      { state with
        recordings := state.recordings.set self ⟨entry :: rest,
          .refreshing (chosen self (rule.upToDate entry) state.slots), false⟩ }
  | some ⟨entry :: rest, .refreshing targets, false⟩ =>
      if locked self targets state.slots then state
      else if hits self targets (rule.upToDate entry) state.slots then
        { state with
          slots := update self targets (rule.upToDate entry) (rule.refresh entry) state.slots
          recordings := state.recordings.set self ⟨rest, .close, false⟩ }
      else
        { state with recordings := state.recordings.set self ⟨entry :: rest, .insert, false⟩ }
  | some ⟨entry :: rest, .insert, false⟩ =>
      if state.slots.any (·.heldByOther self) then state
      else
        { state with
          slots := rule.insert self entry state.slots
          recordings := state.recordings.set self ⟨rest, .close, false⟩ }

/-- An insert that meets an open row meets one that records its entry. -/
def MeetsItsOwn (state : Contention Row Entry) (self : Nat) : Bool :=
  match state.recordings[self]? with
  | some ⟨entry :: _, .insert, false⟩ =>
      state.slots.any (·.heldByOther self) || state.slots.all fun slot =>
        (slot.visible self).all fun row => !rule.isOpen row || rule.records entry row
  | _ => true

end Succession

namespace Contention

/-- The transactions are about to begin. -/
def opened (rows : List Row) (transactions : List (List Entry)) : Contention Row Entry where
  slots := rows.map fun row => ⟨some row, none⟩
  recordings := transactions.map fun entries => ⟨entries, .close, false⟩

def rows (state : Contention Row Entry) : List Row := state.slots.filterMap (·.committed)

def Complete (state : Contention Row Entry) : Prop := ∀ recording ∈ state.recordings, recording.ended

end Contention
end Sanshain.Effects
