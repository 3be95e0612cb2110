import Mathlib.Tactic

namespace Sanshain.Effects

/-- A program issues typed calls one at a time and continues with each answer. -/
inductive Program (Call : Type) (Answer : Call → Type) (Error Value : Type) where
  | done (value : Value)
  | fail (error : Error)
  | spin
  | call (request : Call) (next : Answer request → Program Call Answer Error Value)

/-- An event is one issued call with the answer it received. -/
structure Event (Call : Type) (Answer : Call → Type) where
  request : Call
  answer : Answer request

/-- A history lists the events of one program, the most recent one first. -/
abbrev History (Call : Type) (Answer : Call → Type) := List (Event Call Answer)

/-- A handler performs one call on the state and answers it. -/
abbrev Handler (State Call : Type) (Answer : Call → Type) :=
  State → (request : Call) → State × Answer request

namespace Program

variable {State Call : Type} {Answer : Call → Type} {Error Value Result Other : Type}

/-- Sequencing continues a finished program with its value. -/
def bind : Program Call Answer Error Value →
    (Value → Program Call Answer Error Result) → Program Call Answer Error Result
  | .done value, next => next value
  | .fail error, _ => .fail error
  | .spin, _ => .spin
  | .call request rest, next => .call request fun answer => (rest answer).bind next

instance : Monad (Program Call Answer Error) where
  pure := .done
  bind := bind

@[simp] theorem pure_eq (value : Value) :
    (pure value : Program Call Answer Error Value) = .done value := rfl

@[simp] theorem bind_eq (program : Program Call Answer Error Value)
    (next : Value → Program Call Answer Error Result) :
    (program >>= next) = program.bind next := rfl

@[simp] theorem done_bind (value : Value)
    (next : Value → Program Call Answer Error Result) :
    (Program.done value).bind next = next value := rfl

@[simp] theorem fail_bind (error : Error)
    (next : Value → Program Call Answer Error Result) :
    (Program.fail error).bind next = .fail error := rfl

@[simp] theorem spin_bind (next : Value → Program Call Answer Error Result) :
    (Program.spin : Program Call Answer Error Value).bind next = .spin := rfl

@[simp] theorem call_bind (request : Call)
    (rest : Answer request → Program Call Answer Error Value)
    (next : Value → Program Call Answer Error Result) :
    (Program.call request rest).bind next =
      .call request fun answer => (rest answer).bind next := rfl

theorem bind_done (program : Program Call Answer Error Value) :
    program.bind .done = program := by
  induction program with
  | done value => rfl
  | fail error => rfl
  | spin => rfl
  | call request rest ih =>
      simp only [call_bind]
      congr 1
      funext answer
      exact ih answer

theorem bind_assoc (program : Program Call Answer Error Value)
    (next : Value → Program Call Answer Error Result)
    (last : Result → Program Call Answer Error Other) :
    (program.bind next).bind last = program.bind fun value => (next value).bind last := by
  induction program with
  | done value => rfl
  | fail error => rfl
  | spin => rfl
  | call request rest ih =>
      simp only [call_bind]
      congr 1
      funext answer
      exact ih answer

instance : LawfulMonad (Program Call Answer Error) :=
  LawfulMonad.mk' _ bind_done (fun _ _ => rfl) bind_assoc

/-- The program that issues one call and returns its answer. -/
def ask (request : Call) : Program Call Answer Error (Answer request) :=
  .call request .done

@[simp] theorem ask_bind (request : Call)
    (next : Answer request → Program Call Answer Error Value) :
    (ask request : Program Call Answer Error _).bind next = .call request next := rfl

/-- An error-free reading of a program hands its outcome on as a value. -/
def attempt : Program Call Answer Error Value → Program Call Answer Other (Except Error Value)
  | .done value => .done (.ok value)
  | .fail error => .done (.error error)
  | .spin => .spin
  | .call request rest => .call request fun answer => (rest answer).attempt

/-- A fixed outcome becomes a program. -/
def ofExcept : Except Error Value → Program Call Answer Error Value
  | .ok value => .done value
  | .error error => .fail error

@[simp] theorem ofExcept_ok (value : Value) :
    (ofExcept (.ok value) : Program Call Answer Error Value) = .done value := rfl

@[simp] theorem ofExcept_error (error : Error) :
    (ofExcept (.error error) : Program Call Answer Error Value) = .fail error := rfl

/-- A loop performs one program per element in order. -/
def forEach {Element : Type} (body : Element → Program Call Answer Error Unit) :
    List Element → Program Call Answer Error Unit
  | [] => .done ()
  | element :: rest => (body element).bind fun _ => forEach body rest

/-- An accumulating loop threads a value through one program per element. -/
def foldEach {Element : Type} (body : Value → Element → Program Call Answer Error Value) :
    Value → List Element → Program Call Answer Error Value
  | value, [] => .done value
  | value, element :: rest => (body value element).bind fun next => foldEach body next rest

/-- A replay performs every call of the program on the state and records the events. -/
def replay (handle : Handler State Call Answer) :
    Program Call Answer Error Value → State → History Call Answer →
      Option (Except Error Value × State × History Call Answer)
  | .done value, state, history => some (.ok value, state, history)
  | .fail error, state, history => some (.error error, state, history)
  | .spin, _, _ => none
  | .call request rest, state, history =>
      (rest (handle state request).2).replay handle (handle state request).1
        (⟨request, (handle state request).2⟩ :: history)

/-- A run performs every call of the program on the state. -/
def run (handle : Handler State Call Answer) :
    Program Call Answer Error Value → State → Option (Except Error Value × State)
  | .done value, state => some (.ok value, state)
  | .fail error, state => some (.error error, state)
  | .spin, _ => none
  | .call request rest, state =>
      (rest (handle state request).2).run handle (handle state request).1

theorem replay_run (handle : Handler State Call Answer)
    (program : Program Call Answer Error Value) (state : State)
    (history : History Call Answer) :
    (program.replay handle state history).map (fun end' => (end'.1, end'.2.1)) =
      program.run handle state := by
  induction program generalizing state history with
  | done value => rfl
  | fail error => rfl
  | spin => rfl
  | call request rest ih => exact ih _ _ _

theorem replay_of_run {handle : Handler State Call Answer}
    {program : Program Call Answer Error Value} {state after : State}
    {outcome : Except Error Value} (history : History Call Answer)
    (ran : program.run handle state = some (outcome, after)) :
    ∃ events, program.replay handle state history = some (outcome, after, events) := by
  have recorded := replay_run handle program state history
  rw [ran] at recorded
  obtain ⟨⟨outcome', after', events⟩, replayed, same⟩ := Option.map_eq_some_iff.mp recorded
  cases same
  exact ⟨events, replayed⟩

theorem run_bind (handle : Handler State Call Answer)
    (program : Program Call Answer Error Value)
    (next : Value → Program Call Answer Error Result) (state : State) :
    (program.bind next).run handle state =
      (program.run handle state).bind fun
        | (.ok value, after) => (next value).run handle after
        | (.error error, after) => some (.error error, after) := by
  induction program generalizing state with
  | done value => rfl
  | fail error => rfl
  | spin => rfl
  | call request rest ih => exact ih _ _

theorem run_attempt (handle : Handler State Call Answer)
    (program : Program Call Answer Error Value) (state : State) :
    (program.attempt : Program Call Answer Other _).run handle state =
      (program.run handle state).map fun ended => (.ok ended.1, ended.2) := by
  induction program generalizing state with
  | done value => rfl
  | fail error => rfl
  | spin => rfl
  | call request rest ih => exact ih _ _

/-- A sequence that has ended did so in its first part, or in a second one after it. -/
theorem run_bind_cases {handle : Handler State Call Answer}
    {program : Program Call Answer Error Value} {next : Value → Program Call Answer Error Result}
    {state after : State} {outcome : Except Error Result}
    (ran : (program.bind next).run handle state = some (outcome, after)) :
    (∃ error, outcome = .error error ∧ program.run handle state = some (.error error, after)) ∨
      ∃ value middle, program.run handle state = some (.ok value, middle) ∧
        (next value).run handle middle = some (outcome, after) := by
  rw [run_bind, Option.bind_eq_some_iff] at ran
  obtain ⟨⟨first, middle⟩, began, ended⟩ := ran
  cases first with
  | ok value => exact .inr ⟨value, middle, began, ended⟩
  | error error =>
      cases ended
      exact .inl ⟨error, rfl, began⟩

/-- A sequence that has ended well is a first part that did, and a second one after it. -/
theorem run_bind_ok {handle : Handler State Call Answer} {program : Program Call Answer Error Value}
    {next : Value → Program Call Answer Error Result} {state after : State} {result : Result}
    (ran : (program.bind next).run handle state = some (.ok result, after)) :
    ∃ value middle, program.run handle state = some (.ok value, middle) ∧
      (next value).run handle middle = some (.ok result, after) := by
  rw [run_bind, Option.bind_eq_some_iff] at ran
  obtain ⟨⟨outcome, middle⟩, first, second⟩ := ran
  cases outcome with
  | ok value => exact ⟨value, middle, first, second⟩
  | error error => cases second

/-- A check that has been passed leaves the state as it was. -/
theorem run_ofExcept_ok {handle : Handler State Call Answer} {outcome : Except Error Value} {value : Value}
    {state after : State}
    (ran : (ofExcept outcome : Program Call Answer Error Value).run handle state = some (.ok value, after)) :
    outcome = .ok value ∧ after = state := by
  cases outcome with
  | ok other =>
      cases ran
      exact ⟨rfl, rfl⟩
  | error error => cases ran

/-- Whatever is answered, the program ends. -/
def Ends : Program Call Answer Error Value → Prop
  | .done _ | .fail _ => True
  | .spin => False
  | .call _ next => ∀ answer, (next answer).Ends

theorem Ends.bind {program : Program Call Answer Error Value}
    {next : Value → Program Call Answer Error Result} (ends : program.Ends)
    (rest : ∀ value, (next value).Ends) : (program.bind next).Ends := by
  induction program with
  | done value => exact rest value
  | fail error => trivial
  | spin => exact ends.elim
  | call request first ih => exact fun answer => ih answer (ends answer)

theorem ends_ofExcept (outcome : Except Error Value) :
    (ofExcept outcome : Program Call Answer Error Value).Ends := by
  cases outcome <;> trivial

theorem Ends.run {program : Program Call Answer Error Value} (ends : program.Ends)
    (handle : Handler State Call Answer) (state : State) :
    ∃ outcome after, program.run handle state = some (outcome, after) := by
  induction program generalizing state with
  | done value => exact ⟨.ok value, state, rfl⟩
  | fail error => exact ⟨.error error, state, rfl⟩
  | spin => exact ends.elim
  | call request next ih => exact ih _ (ends _) _

/-- What one element of a loop relates, all of them relate one after another. -/
theorem run_forEach_ok {Element : Type} {handle : Handler State Call Answer}
    {body : Element → Program Call Answer Error Unit} (relation : List Element → State → State → Prop)
    (start : ∀ state, relation [] state state)
    (step : ∀ element rest state middle after, (body element).run handle state = some (.ok (), middle) →
      relation rest middle after → relation (element :: rest) state after)
    {elements : List Element} {state after : State}
    (ran : (forEach body elements).run handle state = some (.ok (), after)) :
    relation elements state after := by
  induction elements generalizing state with
  | nil =>
      cases ran
      exact start _
  | cons element rest ih =>
      obtain ⟨_, middle, first, second⟩ := run_bind_ok ran
      exact step element rest state middle after first (ih second)

end Program
end Sanshain.Effects
