import Mathlib.Tactic

namespace Sanshain.Effects

variable {State Error : Type}

/-- A statement changes the state of its transaction, or is refused. -/
abbrev Statement (State Error : Type) := State → Except Error State

/-- Statements one after another, up to one that is refused. -/
def inSequence : List (Statement State Error) → Statement State Error
  | [], state => .ok state
  | statement :: rest, state =>
      match statement state with
      | .ok after => inSequence rest after
      | .error error => .error error

/-- The same, where the statement at a place may be struck by a fault of its own; the end of the
list is the commit. -/
def underFaults (fault : Nat → Option Error) :
    Nat → List (Statement State Error) → Statement State Error
  | place, [], state =>
      match fault place with
      | some error => .error error
      | none => .ok state
  | place, statement :: rest, state =>
      match fault place with
      | some error => .error error
      | none =>
          match statement state with
          | .ok after => underFaults fault (place + 1) rest after
          | .error error => .error error

/-- A transaction is all of its statements, or nothing: place 0 is its begin. -/
def transact (fault : Nat → Option Error) (statements : List (Statement State Error))
    (state : State) : State × Except Error Unit :=
  match fault 0 with
  | some error => (state, .error error)
  | none =>
      match underFaults fault 1 statements state with
      | .ok after => (after, .ok ())
      | .error error => (state, .error error)

theorem inSequence_append (first second : List (Statement State Error)) (state : State) :
    inSequence (first ++ second) state =
      match inSequence first state with
      | .ok middle => inSequence second middle
      | .error error => .error error := by
  induction first generalizing state with
  | nil => rfl
  | cons statement rest ih =>
      simp only [List.cons_append, inSequence]
      cases statement state with
      | ok after => exact ih after
      | error error => rfl

/-- What the statements bring about under faults, they bring about without. -/
theorem inSequence_of_underFaults {fault : Nat → Option Error} {place : Nat}
    {statements : List (Statement State Error)} {state after : State}
    (ended : underFaults fault place statements state = .ok after) :
    inSequence statements state = .ok after := by
  induction statements generalizing place state with
  | nil =>
      unfold underFaults at ended
      split at ended
      · cases ended
      · exact ended
  | cons statement rest ih =>
      unfold underFaults at ended
      split at ended
      · cases ended
      · cases done : statement state with
        | ok middle =>
            rw [done] at ended
            simp only [inSequence, done]
            exact ih ended
        | error error =>
            rw [done] at ended
            cases ended

theorem underFaults_none {statements : List (Statement State Error)} (place : Nat) (state : State) :
    underFaults (fun _ => none) place statements state = inSequence statements state := by
  induction statements generalizing place state with
  | nil => rfl
  | cons statement rest ih =>
      simp only [underFaults, inSequence]
      cases statement state with
      | ok after => exact ih (place + 1) after
      | error error => rfl

/-- A transaction that answers has done all, and one that fails nothing. -/
theorem transact_cases (fault : Nat → Option Error) (statements : List (Statement State Error))
    (state : State) :
    (∃ after, inSequence statements state = .ok after ∧
        transact fault statements state = (after, .ok ())) ∨
      ∃ error, transact fault statements state = (state, .error error) := by
  unfold transact
  split
  · exact .inr ⟨_, rfl⟩
  · cases ended : underFaults fault 1 statements state with
    | ok after => exact .inl ⟨after, inSequence_of_underFaults ended, rfl⟩
    | error error => exact .inr ⟨error, rfl⟩

end Sanshain.Effects
