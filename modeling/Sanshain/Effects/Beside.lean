import Sanshain.Effects.Guard

namespace Sanshain.Effects

variable {State Other Call Extra : Type} {Answer : Call → Type} {Reply : Extra → Type}
  {Error Value Result : Type}

/-- One handler for the calls of two kinds on one state. -/
def Handler.beside (handle : Handler State Call Answer) (reply : Handler State Extra Reply) :
    Handler State (Call ⊕ Extra) (Sum.elim Answer Reply)
  | state, .inl request => handle state request
  | state, .inr request => reply state request

/-- A handler that leaves a further part of the state alone. -/
def Handler.onFirst (handle : Handler State Call Answer) : Handler (State × Other) Call Answer
  | (state, other), request => (((handle state request).1, other), (handle state request).2)

namespace Program

/-- A program among calls of a further kind, none of which it issues. -/
def beside : Program Call Answer Error Value →
    Program (Call ⊕ Extra) (Sum.elim Answer Reply) Error Value
  | .done value => .done value
  | .fail error => .fail error
  | .spin => .spin
  | .call request next => .call (.inl request) fun answer => (next answer).beside

theorem beside_bind (program : Program Call Answer Error Value)
    (next : Value → Program Call Answer Error Result) :
    ((program.bind next).beside : Program (Call ⊕ Extra) (Sum.elim Answer Reply) Error Result) =
      program.beside.bind fun value => (next value).beside := by
  induction program with
  | done value => rfl
  | fail error => rfl
  | spin => rfl
  | call request rest ih =>
      simp only [call_bind, beside]
      congr 1
      funext answer
      exact ih answer

/-- What a program may ask alone, it may ask among further calls. -/
theorem Only.beside {allowed : Call → Prop} {allowed' : Call ⊕ Extra → Prop}
    {program : Program Call Answer Error Value} (only : program.Only allowed fun _ _ => True)
    (among : ∀ request, allowed request → allowed' (.inl request)) :
    (program.beside : Program (Call ⊕ Extra) (Sum.elim Answer Reply) Error Value).Only allowed'
      fun _ _ => True := by
  suffices along : ∀ history, program.Along (fun _ request => allowed request) (fun _ _ => True)
      (fun _ _ => True) history →
        (program.beside : Program (Call ⊕ Extra) (Sum.elim Answer Reply) Error Value).Only allowed'
          fun _ _ => True from along [] (only [])
  clear only
  intro history along
  induction program generalizing history with
  | done value => exact Only.done value
  | fail error => exact Only.fail fun _ => trivial
  | spin => exact Only.spin
  | call request rest ih =>
      exact fun _ => ⟨among request along.1, fun answer => ih answer _ (along.2 answer) _⟩

/-- It runs as it does alone. -/
theorem run_beside (handle : Handler State Call Answer) (reply : Handler State Extra Reply)
    (program : Program Call Answer Error Value) (state : State) :
    (program.beside : Program (Call ⊕ Extra) (Sum.elim Answer Reply) Error Value).run
        (handle.beside reply) state = program.run handle state := by
  induction program generalizing state with
  | done value => rfl
  | fail error => rfl
  | spin => rfl
  | call request next ih => exact ih _ _

/-- It runs on its own part of a larger state. -/
theorem run_onFirst (handle : Handler State Call Answer) (program : Program Call Answer Error Value)
    (state : State) (other : Other) :
    program.run handle.onFirst (state, other) =
      (program.run handle state).map fun done => (done.1, done.2, other) := by
  induction program generalizing state with
  | done value => rfl
  | fail error => rfl
  | spin => rfl
  | call request next ih => exact ih _ _

section Simulation

/-- Every call that the run makes meets the condition. -/
def Makes (handle : Handler State Call Answer) (condition : Call → Prop) :
    Program Call Answer Error Value → State → Prop
  | .done _, _ | .fail _, _ | .spin, _ => True
  | .call request rest, state =>
      condition request ∧
        (rest (handle state request).2).Makes handle condition (handle state request).1

variable {concrete : Handler State Call Answer} {abstract : Handler Other Call Answer}
  {condition : Call → Prop}

/-- Where one handler answers as another does on its view of the state, so does every run that makes
only such calls. -/
theorem run_simulates (view : State → Other) (invariant : State → Prop)
    (answers : ∀ state request, invariant state → condition request →
      (concrete state request).2 = (abstract (view state) request).2)
    (moves : ∀ state request, invariant state → condition request →
      view (concrete state request).1 = (abstract (view state) request).1)
    (kept : ∀ state request, invariant state → condition request → invariant (concrete state request).1)
    {program : Program Call Answer Error Value} {state : State} (start : invariant state)
    (makes : program.Makes abstract condition (view state)) :
    (program.run concrete state).map (fun ended => (ended.1, view ended.2)) =
      program.run abstract (view state) := by
  induction program generalizing state with
  | done value => rfl
  | fail error => rfl
  | spin => rfl
  | call request rest ih =>
      obtain ⟨meets, later⟩ := makes
      have answered := answers state request start meets
      have moved := moves state request start meets
      simp only [run]
      rw [← answered, ← moved] at later ⊢
      exact ih _ (kept state request start meets) later

end Simulation

end Program
end Sanshain.Effects
