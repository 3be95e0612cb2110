import Sanshain.Effects.Program

namespace Sanshain.Effects.Program

variable {State Call : Type} {Answer : Call → Type} {Error Value Result : Type}
  {handle : Handler State Call Answer} {returns : Value → State → Prop} {fails : Error → State → Prop}
  {state : State}

/-- A run that ends well ends in `returns`, and one that fails ends in `fails`. -/
def Ensures (handle : Handler State Call Answer) (returns : Value → State → Prop)
    (fails : Error → State → Prop) (program : Program Call Answer Error Value) (state : State) :
    Prop :=
  (∀ value after, program.run handle state = some (.ok value, after) → returns value after) ∧
    ∀ error after, program.run handle state = some (.error error, after) → fails error after

namespace Ensures

theorem done {value : Value} (met : returns value state) :
    (Program.done value).Ensures handle returns fails state := by
  constructor
  · intro value' after ran
    cases ran
    exact met
  · intro error after ran
    cases ran

theorem fail {error : Error} (met : fails error state) :
    (Program.fail error).Ensures handle returns fails state := by
  constructor
  · intro value after ran
    cases ran
  · intro error' after ran
    cases ran
    exact met

theorem ofExcept {outcome : Except Error Value} (good : ∀ value, outcome = .ok value → returns value state)
    (bad : ∀ error, outcome = .error error → fails error state) :
    (Program.ofExcept outcome).Ensures handle returns fails state := by
  cases outcome with
  | ok value => exact done (good value rfl)
  | error error => exact fail (bad error rfl)

theorem ofExcept_bind {outcome : Except Error Value} {returns : Result → State → Prop}
    {next : Value → Program Call Answer Error Result}
    (good : ∀ value, outcome = .ok value → (next value).Ensures handle returns fails state)
    (bad : ∀ error, outcome = .error error → fails error state) :
    ((Program.ofExcept outcome).bind next).Ensures handle returns fails state := by
  cases outcome with
  | ok value => exact good value rfl
  | error error => exact fail (bad error rfl)

theorem call {request : Call} {next : Answer request → Program Call Answer Error Value}
    (rest : (next (handle state request).2).Ensures handle returns fails (handle state request).1) :
    (Program.call request next).Ensures handle returns fails state := rest

/-- What the first part returns in is where the second one begins. -/
theorem bind {middle : Value → State → Prop} {returns : Result → State → Prop}
    {program : Program Call Answer Error Value} {next : Value → Program Call Answer Error Result}
    (first : program.Ensures handle middle fails state)
    (rest : ∀ value reached, middle value reached →
      (next value).Ensures handle returns fails reached) :
    (program.bind next).Ensures handle returns fails state := by
  constructor
  · intro result after ran
    obtain ⟨value, reached, began, ended⟩ := run_bind_ok ran
    exact (rest value reached (first.1 value reached began)).1 result after ended
  · intro error after ran
    obtain ⟨failure, same, began⟩ | ⟨value, reached, began, ended⟩ := run_bind_cases ran
    · cases same
      exact first.2 error after began
    · exact (rest value reached (first.1 value reached began)).2 error after ended

theorem mono {returns' : Value → State → Prop} {fails' : Error → State → Prop}
    {program : Program Call Answer Error Value} (met : program.Ensures handle returns fails state)
    (good : ∀ value after, returns value after → returns' value after)
    (bad : ∀ error after, fails error after → fails' error after) :
    program.Ensures handle returns' fails' state :=
  ⟨fun value after ran => good value after (met.1 value after ran),
    fun error after ran => bad error after (met.2 error after ran)⟩

/-- An accumulating loop keeps what each of its turns keeps. -/
theorem foldEach {Element : Type} {body : Value → Element → Program Call Answer Error Value}
    {elements : List Element}
    (turn : ∀ value state, ∀ element ∈ elements, returns value state →
      (body value element).Ensures handle returns fails state)
    {value : Value} (start : returns value state) :
    (Program.foldEach body value elements).Ensures handle returns fails state := by
  induction elements generalizing value state with
  | nil => exact done start
  | cons element rest ih =>
      refine bind (turn value state element List.mem_cons_self start) fun next reached kept => ?_
      exact ih (fun value state other among => turn value state other (List.mem_cons_of_mem _ among)) kept

/-- What holds however the program ends holds where its run does. -/
theorem always {property : State → Prop} {program : Program Call Answer Error Value}
    (met : program.Ensures handle (fun _ => property) (fun _ => property) state)
    {outcome : Except Error Value} {after : State}
    (ran : program.run handle state = some (outcome, after)) : property after := by
  cases outcome with
  | ok value => exact met.1 value after ran
  | error error => exact met.2 error after ran

end Ensures

/-- A run that does end, well and in `returns`. -/
def Returns (handle : Handler State Call Answer) (returns : Value → State → Prop)
    (program : Program Call Answer Error Value) (state : State) : Prop :=
  ∃ value after, program.run handle state = some (.ok value, after) ∧ returns value after

/-- A run that does end, with an error and in `fails`. -/
def Refuses (handle : Handler State Call Answer) (fails : Error → State → Prop)
    (program : Program Call Answer Error Value) (state : State) : Prop :=
  ∃ error after, program.run handle state = some (.error error, after) ∧ fails error after

namespace Returns

theorem done {value : Value} (met : returns value state) :
    (Program.done value : Program Call Answer Error Value).Returns handle returns state :=
  ⟨value, state, rfl, met⟩

theorem bind {middle : Value → State → Prop} {returns : Result → State → Prop}
    {program : Program Call Answer Error Value} {next : Value → Program Call Answer Error Result}
    (first : program.Returns handle middle state)
    (rest : ∀ value reached, middle value reached → (next value).Returns handle returns reached) :
    (program.bind next).Returns handle returns state := by
  obtain ⟨value, reached, began, met⟩ := first
  obtain ⟨result, after, ended, met⟩ := rest value reached met
  exact ⟨result, after, by rw [run_bind, began]; exact ended, met⟩

theorem bind_refuses {middle : Value → State → Prop} {program : Program Call Answer Error Value}
    {next : Value → Program Call Answer Error Result} (first : program.Returns handle middle state)
    (rest : ∀ value reached, middle value reached → (next value).Refuses handle fails reached) :
    (program.bind next).Refuses handle fails state := by
  obtain ⟨value, reached, began, met⟩ := first
  obtain ⟨error, after, ended, met⟩ := rest value reached met
  exact ⟨error, after, by rw [run_bind, began]; exact ended, met⟩

theorem mono {returns' : Value → State → Prop} {program : Program Call Answer Error Value}
    (met : program.Returns handle returns state)
    (good : ∀ value after, returns value after → returns' value after) :
    program.Returns handle returns' state := by
  obtain ⟨value, after, ran, met⟩ := met
  exact ⟨value, after, ran, good value after met⟩

/-- An accumulating loop returns when each of its turns does, and knows what it has gone through. -/
theorem foldEach {Element : Type} {body : Value → Element → Program Call Answer Error Value}
    (gone : List Element → Value → State → Prop)
    (turn : ∀ past value state element, gone past value state →
      (body value element).Returns handle (gone (past ++ [element])) state)
    (past elements : List Element) {value : Value} (start : gone past value state) :
    (Program.foldEach body value elements).Returns handle (gone (past ++ elements)) state := by
  induction elements generalizing past value state with
  | nil =>
      rw [List.append_nil]
      exact done start
  | cons element rest ih =>
      refine bind (turn past value state element start) fun next reached kept => ?_
      rw [List.append_cons past element rest]
      exact ih (past ++ [element]) kept

/-- A run has one outcome. -/
theorem outcome {program : Program Call Answer Error Value} (met : program.Returns handle returns state)
    {outcome : Except Error Value} {after : State}
    (ran : program.run handle state = some (outcome, after)) :
    ∃ value, outcome = .ok value ∧ returns value after := by
  obtain ⟨value, reached, same, met⟩ := met
  cases ran.symm.trans same
  exact ⟨value, rfl, met⟩

/-- A run that has ended went through what returns first. -/
theorem bind_ran {program : Program Call Answer Error Value}
    {next : Value → Program Call Answer Error Result} (first : program.Returns handle returns state)
    {outcome : Except Error Result} {after : State}
    (ran : (program.bind next).run handle state = some (outcome, after)) :
    ∃ value middle, returns value middle ∧ (next value).run handle middle = some (outcome, after) := by
  obtain ⟨value, middle, began, met⟩ := first
  rw [run_bind, began] at ran
  exact ⟨value, middle, met, ran⟩

end Returns

namespace Refuses

theorem mono {fails' : Error → State → Prop} {program : Program Call Answer Error Value}
    (met : program.Refuses handle fails state)
    (bad : ∀ error after, fails error after → fails' error after) :
    program.Refuses handle fails' state := by
  obtain ⟨error, after, ran, met⟩ := met
  exact ⟨error, after, ran, bad error after met⟩

theorem fail {error : Error} (met : fails error state) :
    (Program.fail error : Program Call Answer Error Value).Refuses handle fails state :=
  ⟨error, state, rfl, met⟩

theorem bind {program : Program Call Answer Error Value} {next : Value → Program Call Answer Error Result}
    (first : program.Refuses handle fails state) : (program.bind next).Refuses handle fails state := by
  obtain ⟨error, after, ran, met⟩ := first
  exact ⟨error, after, by rw [run_bind, ran]; rfl, met⟩

theorem outcome {program : Program Call Answer Error Value} (met : program.Refuses handle fails state)
    {outcome : Except Error Value} {after : State}
    (ran : program.run handle state = some (outcome, after)) :
    ∃ error, outcome = .error error ∧ fails error after := by
  obtain ⟨error, reached, same, met⟩ := met
  cases ran.symm.trans same
  exact ⟨error, rfl, met⟩

end Refuses

/-- An evaluated run has returned, with what the property asks of the value and the state. -/
def returnedWith (property : Value → State → Bool) : Option (Except Error Value × State) → Bool
  | some (.ok value, after) => property value after
  | _ => false

theorem returnedWith_spec {property : Value → State → Bool}
    {ended : Option (Except Error Value × State)} (returned : returnedWith property ended = true) :
    ∃ value after, ended = some (.ok value, after) ∧ property value after = true := by
  unfold returnedWith at returned
  split at returned
  · rename_i value after
    exact ⟨value, after, rfl, returned⟩
  · cases returned

end Sanshain.Effects.Program
