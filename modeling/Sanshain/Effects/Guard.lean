import Sanshain.Effects.Program

namespace Sanshain.Effects.Program

variable {State Call : Type} {Answer : Call → Type} {Error Value Result Other : Type}

/-- Whatever each call answers, the guard allows it after the events before it and the ends hold. -/
def Along (guard : History Call Answer → Call → Prop)
    (onDone : History Call Answer → Value → Prop)
    (onFail : History Call Answer → Error → Prop) :
    Program Call Answer Error Value → History Call Answer → Prop
  | .done value, history => onDone history value
  | .fail error, history => onFail history error
  | .spin, _ => True
  | .call request rest, history =>
      guard history request ∧
        ∀ answer, (rest answer).Along guard onDone onFail (⟨request, answer⟩ :: history)

section Rules

variable {guard guard' : History Call Answer → Call → Prop}
  {onDone onDone' : History Call Answer → Value → Prop}
  {onFail onFail' : History Call Answer → Error → Prop}
  {history : History Call Answer}

@[simp] theorem along_done (value : Value) :
    (Program.done value).Along guard onDone onFail history ↔ onDone history value := Iff.rfl

@[simp] theorem along_fail (error : Error) :
    (Program.fail error : Program Call Answer Error Value).Along guard onDone onFail history ↔
      onFail history error := Iff.rfl

@[simp] theorem along_spin :
    (Program.spin : Program Call Answer Error Value).Along guard onDone onFail history ↔ True :=
  Iff.rfl

@[simp] theorem along_call (request : Call)
    (rest : Answer request → Program Call Answer Error Value) :
    (Program.call request rest).Along guard onDone onFail history ↔
      guard history request ∧
        ∀ answer, (rest answer).Along guard onDone onFail (⟨request, answer⟩ :: history) :=
  Iff.rfl

theorem along_bind (program : Program Call Answer Error Value)
    (next : Value → Program Call Answer Error Result)
    {onDone : History Call Answer → Result → Prop} :
    (program.bind next).Along guard onDone onFail history ↔
      program.Along guard (fun events value => (next value).Along guard onDone onFail events)
        onFail history := by
  induction program generalizing history with
  | done value => rfl
  | fail error => rfl
  | spin => rfl
  | call request rest ih => simp only [call_bind, along_call, ih]

theorem along_attempt (program : Program Call Answer Error Value)
    {onDone : History Call Answer → Except Error Value → Prop}
    {onFail : History Call Answer → Other → Prop} :
    program.attempt.Along guard onDone onFail history ↔
      program.Along guard (fun events value => onDone events (.ok value))
        (fun events error => onDone events (.error error)) history := by
  induction program generalizing history with
  | done value => rfl
  | fail error => rfl
  | spin => rfl
  | call request rest ih => simp only [attempt, along_call, ih]

theorem along_ofExcept (outcome : Except Error Value) :
    (ofExcept outcome : Program Call Answer Error Value).Along guard onDone onFail history ↔
      (∀ value, outcome = .ok value → onDone history value) ∧
        ∀ error, outcome = .error error → onFail history error := by
  cases outcome <;> simp

theorem Along.mono {program : Program Call Answer Error Value}
    (along : program.Along guard onDone onFail history)
    (calls : ∀ events request, guard events request → guard' events request)
    (dones : ∀ events value, onDone events value → onDone' events value)
    (fails : ∀ events error, onFail events error → onFail' events error) :
    program.Along guard' onDone' onFail' history := by
  induction program generalizing history with
  | done value => exact dones _ _ along
  | fail error => exact fails _ _ along
  | spin => trivial
  | call request rest ih =>
      exact ⟨calls _ _ along.1, fun answer => ih answer (along.2 answer)⟩

theorem Along.and {program : Program Call Answer Error Value}
    (left : program.Along guard onDone onFail history)
    (right : program.Along guard' onDone' onFail' history) :
    program.Along (fun events request => guard events request ∧ guard' events request)
      (fun events value => onDone events value ∧ onDone' events value)
      (fun events error => onFail events error ∧ onFail' events error) history := by
  induction program generalizing history with
  | done value => exact ⟨left, right⟩
  | fail error => exact ⟨left, right⟩
  | spin => trivial
  | call request rest ih =>
      exact ⟨⟨left.1, right.1⟩, fun answer => ih answer (left.2 answer) (right.2 answer)⟩

/-- A program may assume, at every point, that its history extends the one it began with. -/
theorem Along.of_grown {program : Program Call Answer Error Value}
    {start : History Call Answer} (grown : start <:+ history)
    (along : program.Along (fun events request => start <:+ events → guard events request)
      (fun events value => start <:+ events → onDone events value)
      (fun events error => start <:+ events → onFail events error) history) :
    program.Along guard onDone onFail history := by
  induction program generalizing history with
  | done value => exact along grown
  | fail error => exact along grown
  | spin => trivial
  | call request rest ih =>
      exact ⟨along.1 grown, fun answer =>
        ih answer (grown.trans (List.suffix_cons _ _)) (along.2 answer)⟩

theorem Along.grown {program : Program Call Answer Error Value}
    (along : program.Along guard onDone onFail history) :
    program.Along guard (fun events value => history <:+ events ∧ onDone events value)
      (fun events error => history <:+ events ∧ onFail events error) history := by
  apply Along.of_grown (List.suffix_refl history)
  exact along.mono (fun _ _ allowed _ => allowed) (fun _ _ held grown => ⟨grown, held⟩)
    fun _ _ failed grown => ⟨grown, failed⟩

/-- The second part of a sequence may assume that its history extends that of the first. -/
theorem Along.seq {program : Program Call Answer Error Value}
    {next : Value → Program Call Answer Error Result} {onEnd : History Call Answer → Result → Prop}
    (first : program.Along guard onDone onFail history)
    (second : ∀ events value, history <:+ events → onDone events value →
      (next value).Along guard onEnd onFail events) :
    (program.bind next).Along guard onEnd onFail history := by
  rw [along_bind]
  apply Along.of_grown (List.suffix_refl history)
  exact first.mono (fun _ _ allowed _ => allowed)
    (fun events value held grown => second events value grown held) (fun _ _ failed _ => failed)

/-- What every allowed call preserves of the history holds at every point. -/
theorem Along.preserved {program : Program Call Answer Error Value}
    (along : program.Along guard onDone onFail history) (keeps : History Call Answer → Prop)
    (step : ∀ events request answer, keeps events → guard events request →
      keeps (⟨request, answer⟩ :: events))
    (start : keeps history) :
    program.Along (fun events request => keeps events ∧ guard events request)
      (fun events value => keeps events ∧ onDone events value)
      (fun events error => keeps events ∧ onFail events error) history := by
  induction program generalizing history with
  | done value => exact ⟨start, along⟩
  | fail error => exact ⟨start, along⟩
  | spin => trivial
  | call request rest ih =>
      exact ⟨⟨start, along.1⟩, fun answer => ih answer (along.2 answer)
        (step history request answer start along.1)⟩

/-- The loop invariant speaks of the elements already processed. -/
theorem along_foldEach {Element : Type} {body : Value → Element → Program Call Answer Error Value}
    {elements : List Element} {value : Value}
    (invariant : List Element → Value → History Call Answer → Prop)
    (start : invariant [] value history)
    (step : ∀ before element value events, before ++ [element] <+: elements →
      invariant before value events →
        (body value element).Along guard
          (fun events next => invariant (before ++ [element]) next events) onFail events) :
    (foldEach body value elements).Along guard (fun events value => invariant elements value events)
      onFail history := by
  suffices general : ∀ rest before value events, before ++ rest = elements →
      invariant before value events →
      (foldEach body value rest).Along guard
        (fun events value => invariant elements value events) onFail events from
    general elements [] value history rfl start
  intro rest
  induction rest with
  | nil =>
      intro before value events whole held
      simpa [foldEach, ← whole] using held
  | cons element rest ih =>
      intro before value events whole held
      rw [foldEach, along_bind]
      have prefixed : before ++ [element] <+: elements := ⟨rest, by simp [← whole]⟩
      exact (step before element value events prefixed held).mono (fun _ _ allowed => allowed)
        (fun events next kept => ih (before ++ [element]) next events (by simp [← whole]) kept)
        (fun _ _ failed => failed)

theorem forEach_eq_foldEach {Element : Type} (body : Element → Program Call Answer Error Unit)
    (elements : List Element) :
    forEach body elements = foldEach (fun _ element => body element) () elements := by
  induction elements with
  | nil => rfl
  | cons element rest ih => simp only [forEach, foldEach, ih]

theorem along_forEach {Element : Type} {body : Element → Program Call Answer Error Unit}
    {elements : List Element} (invariant : List Element → History Call Answer → Prop)
    (start : invariant [] history)
    (step : ∀ before element events, before ++ [element] <+: elements →
      invariant before events →
        (body element).Along guard (fun events _ => invariant (before ++ [element]) events)
          onFail events) :
    (forEach body elements).Along guard (fun events _ => invariant elements events)
      onFail history := by
  rw [forEach_eq_foldEach]
  exact along_foldEach (fun before _ events => invariant before events) start
    fun before element _ events => step before element events

/-- From any history on, every call is allowed and a failure is one of these. -/
def Only (allowed : Call → Prop) (fails : History Call Answer → Error → Prop)
    (program : Program Call Answer Error Value) : Prop :=
  ∀ history, program.Along (fun _ request => allowed request) (fun _ _ => True) fails history

section Only

variable {allowed allowed' : Call → Prop} {fails fails' : History Call Answer → Error → Prop}

theorem Only.done (value : Value) :
    (Program.done value : Program Call Answer Error Value).Only allowed fails :=
  fun _ => trivial

theorem Only.spin : (Program.spin : Program Call Answer Error Value).Only allowed fails :=
  fun _ => trivial

theorem Only.fail {error : Error} (failed : ∀ history, fails history error) :
    (Program.fail error : Program Call Answer Error Value).Only allowed fails :=
  failed

theorem Only.bind {program : Program Call Answer Error Value}
    {next : Value → Program Call Answer Error Result} (first : program.Only allowed fails)
    (second : ∀ value, (next value).Only allowed fails) : (program.bind next).Only allowed fails :=
  fun history => (first history).seq fun events value _ _ => second value events

theorem Only.ask {request : Call} (among : allowed request) :
    (Program.ask request : Program Call Answer Error _).Only allowed fails :=
  fun _ => ⟨among, fun _ => trivial⟩

theorem Only.attempt {program : Program Call Answer Error Value} (only : program.Only allowed fails)
    {fails' : History Call Answer → Other → Prop} : program.attempt.Only allowed fails' :=
  fun history => (along_attempt program).mpr
    ((only history).mono (fun _ _ held => held) (fun _ _ _ => trivial) fun _ _ _ => trivial)

theorem Only.ofExcept {outcome : Except Error Value}
    (failed : ∀ error, outcome = .error error → ∀ history, fails history error) :
    (Program.ofExcept outcome : Program Call Answer Error Value).Only allowed fails :=
  fun history => (along_ofExcept outcome).mpr
    ⟨fun _ _ => trivial, fun error same => failed error same history⟩

theorem Only.foldEach {Element : Type} {body : Value → Element → Program Call Answer Error Value}
    (each : ∀ value element, (body value element).Only allowed fails) (value : Value)
    (elements : List Element) : (Program.foldEach body value elements).Only allowed fails := by
  induction elements generalizing value with
  | nil => exact Only.done value
  | cons element rest ih => exact (each value element).bind fun next => ih next

theorem Only.mono {program : Program Call Answer Error Value} (only : program.Only allowed fails)
    (calls : ∀ request, allowed request → allowed' request)
    (failures : ∀ events error, fails events error → fails' events error) :
    program.Only allowed' fails' :=
  fun history => (only history).mono (fun _ request => calls request) (fun _ _ held => held) failures

/-- Two handlers that agree on what a program may ask run it alike. -/
theorem Only.run_congr {State : Type} {handle other : Handler State Call Answer}
    {program : Program Call Answer Error Value} (only : program.Only allowed fails)
    (agree : ∀ state request, allowed request → handle state request = other state request)
    (state : State) : program.run handle state = program.run other state := by
  suffices along : ∀ history, program.Along (fun _ request => allowed request) (fun _ _ => True) fails
      history → program.run handle state = program.run other state from along [] (only [])
  clear only
  intro history along
  induction program generalizing state history with
  | done value => rfl
  | fail error => rfl
  | spin => rfl
  | call request rest ih =>
      obtain ⟨among, later⟩ := along
      simp only [Program.run, agree state request among]
      exact ih _ _ _ (later _)

end Only

end Rules

section Yielding

/-- A program fails at once or after one more call, whatever that call answers. -/
def Concedes (allowed : Call → Prop) (fails : Error → Prop) : Program Call Answer Error Value → Prop
  | .fail error => fails error
  | .call request next => allowed request ∧ ∀ answer, ∃ error, next answer = .fail error ∧ fails error
  | _ => False

/-- Wherever a call has the answer that gives way, the program concedes. -/
def Yields (gives : (request : Call) → Answer request → Prop) (allowed : Call → Prop)
    (fails : Error → Prop) : Program Call Answer Error Value → Prop
  | .call request next => ∀ answer, (gives request answer → (next answer).Concedes allowed fails) ∧
      (next answer).Yields gives allowed fails
  | _ => True

variable {gives : (request : Call) → Answer request → Prop} {allowed : Call → Prop}
  {fails : Error → Prop} {program : Program Call Answer Error Value}

theorem Concedes.bind (concedes : program.Concedes allowed fails)
    (next : Value → Program Call Answer Error Result) : (program.bind next).Concedes allowed fails := by
  cases program with
  | fail error => exact concedes
  | call request rest =>
      refine ⟨concedes.1, fun answer => ?_⟩
      obtain ⟨error, failed, fitting⟩ := concedes.2 answer
      exact ⟨error, by simp only [failed, fail_bind], fitting⟩
  | done value => exact concedes.elim
  | spin => exact concedes.elim

theorem Yields.bind {next : Value → Program Call Answer Error Result}
    (first : program.Yields gives allowed fails)
    (second : ∀ value, (next value).Yields gives allowed fails) :
    (program.bind next).Yields gives allowed fails := by
  induction program with
  | done value => exact second value
  | fail error => trivial
  | spin => trivial
  | call request rest ih =>
      exact fun answer => ⟨fun given => ((first answer).1 given).bind next,
        ih answer (first answer).2⟩

/-- A program that issues no call which gives way yields to nothing. -/
theorem Along.yields {guard : History Call Answer → Call → Prop}
    {onDone : History Call Answer → Value → Prop} {onFail : History Call Answer → Error → Prop}
    {history : History Call Answer} (along : program.Along guard onDone onFail history)
    (never : ∀ events request answer, guard events request → ¬ gives request answer) :
    program.Yields gives allowed fails := by
  induction program generalizing history with
  | done value => trivial
  | fail error => trivial
  | spin => trivial
  | call request rest ih =>
      exact fun answer => ⟨fun given => absurd given (never _ _ _ along.1), ih answer (along.2 answer)⟩

theorem Yields.ofExcept {outcome : Except Error Value} :
    (Program.ofExcept outcome : Program Call Answer Error Value).Yields gives allowed fails := by
  cases outcome <;> trivial

end Yielding

section Runs

variable {handle : Handler State Call Answer}
  {guard : History Call Answer → Call → Prop}
  {onDone : History Call Answer → Value → Prop}
  {onFail : History Call Answer → Error → Prop}

/-- What an allowed call preserves holds where the run ends, with the end's own fact. -/
theorem Along.replay {program : Program Call Answer Error Value} {history : History Call Answer}
    (along : program.Along guard onDone onFail history)
    (invariant : State → History Call Answer → Prop)
    (step : ∀ state events request, invariant state events → guard events request →
      invariant (handle state request).1 (⟨request, (handle state request).2⟩ :: events))
    {state after : State} {events : History Call Answer} {outcome : Except Error Value}
    (start : invariant state history)
    (replayed : program.replay handle state history = some (outcome, after, events)) :
    invariant after events ∧
      (∀ value, outcome = .ok value → onDone events value) ∧
        ∀ error, outcome = .error error → onFail events error := by
  induction program generalizing state history with
  | done value =>
      cases replayed
      exact ⟨start, fun _ same => Except.ok.inj same ▸ along, nofun⟩
  | fail error =>
      cases replayed
      exact ⟨start, nofun, fun _ same => Except.error.inj same ▸ along⟩
  | spin => cases replayed
  | call request rest ih =>
      exact ih _ (along.2 _) (step state history request start along.1) replayed

end Runs
end Sanshain.Effects.Program
