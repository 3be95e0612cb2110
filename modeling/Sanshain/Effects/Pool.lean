import Sanshain.Effects.Guard

namespace Sanshain.Effects

variable {State Call : Type} {Answer : Call → Type} {Error Value : Type}

/-- A client is a program under way with the events it has had so far. -/
structure Client (Call : Type) (Answer : Call → Type) (Error Value : Type) where
  program : Program Call Answer Error Value
  history : History Call Answer := []

namespace Client

/-- A client's turn performs its next call, and nothing once it has ended. -/
def turn (handle : Handler State Call Answer) (client : Client Call Answer Error Value)
    (state : State) : State × Client Call Answer Error Value :=
  match client.program with
  | .call request rest =>
      ((handle state request).1,
        ⟨rest (handle state request).2, ⟨request, (handle state request).2⟩ :: client.history⟩)
  | _ => (state, client)

/-- The call a client issues on its next turn. -/
def next? (client : Client Call Answer Error Value) : Option Call :=
  match client.program with
  | .call request _ => some request
  | _ => none

/-- A client's outcome is known once its program has ended. -/
def outcome? (client : Client Call Answer Error Value) : Option (Except Error Value) :=
  match client.program with
  | .done value => some (.ok value)
  | .fail error => some (.error error)
  | _ => none

/-- A client keeps to its guard for the rest of its program. -/
def Keeps (guard : History Call Answer → Call → Prop) (onDone : History Call Answer → Value → Prop)
    (onFail : History Call Answer → Error → Prop) (client : Client Call Answer Error Value) : Prop :=
  client.program.Along guard onDone onFail client.history

/-- A client's turn is an allowed call, and leaves it within its guard. -/
theorem Keeps.turn {guard : History Call Answer → Call → Prop}
    {onDone : History Call Answer → Value → Prop} {onFail : History Call Answer → Error → Prop}
    {client : Client Call Answer Error Value} (keeps : client.Keeps guard onDone onFail)
    {request : Call} {rest : Answer request → Program Call Answer Error Value}
    (issued : client.program = .call request rest) (answer : Answer request) :
    guard client.history request ∧
      Keeps guard onDone onFail ⟨rest answer, ⟨request, answer⟩ :: client.history⟩ := by
  rw [Keeps, issued] at keeps
  exact ⟨keeps.1, keeps.2 answer⟩

end Client

/-- Several clients share one state and take their turns in any order. -/
structure Pool (State Call : Type) (Answer : Call → Type) (Error Value : Type) where
  state : State
  clients : List (Client Call Answer Error Value)

namespace Pool

/-- One turn of the client at this place. -/
def turn (handle : Handler State Call Answer) (pool : Pool State Call Answer Error Value)
    (place : Nat) : Pool State Call Answer Error Value :=
  match pool.clients[place]? with
  | some client =>
      ⟨(client.turn handle pool.state).1, pool.clients.set place (client.turn handle pool.state).2⟩
  | none => pool

/-- A schedule names whose turn it is at every step. -/
def run (handle : Handler State Call Answer) (pool : Pool State Call Answer Error Value)
    (schedule : List Nat) : Pool State Call Answer Error Value :=
  schedule.foldl (turn handle) pool

@[simp] theorem run_nil (handle : Handler State Call Answer)
    (pool : Pool State Call Answer Error Value) : pool.run handle [] = pool := rfl

@[simp] theorem run_cons (handle : Handler State Call Answer)
    (pool : Pool State Call Answer Error Value) (place : Nat) (rest : List Nat) :
    pool.run handle (place :: rest) = (pool.turn handle place).run handle rest := rfl

/-- The call that the client at this place would issue on its turn, with that client. -/
def Issues (pool : Pool State Call Answer Error Value) (place : Nat)
    (client : Client Call Answer Error Value) (request : Call) : Prop :=
  pool.clients[place]? = some client ∧ client.next? = some request

/-- Every step of the schedule has the property, stated of the pool before it. -/
def Steps (handle : Handler State Call Answer)
    (property : Pool State Call Answer Error Value → Nat → Prop) :
    Pool State Call Answer Error Value → List Nat → Prop
  | _, [] => True
  | pool, place :: rest => property pool place ∧ Steps handle property (pool.turn handle place) rest

/-- A property of the shared state, and of the client at every place. -/
structure Holds (pool : Pool State Call Answer Error Value) (invariant : State → Prop)
    (fits : Nat → Client Call Answer Error Value → Prop) : Prop where
  state : invariant pool.state
  clients : ∀ place client, pool.clients[place]? = some client → fits place client

section Rules

variable {handle : Handler State Call Answer} {pool : Pool State Call Answer Error Value}
  {invariant : State → Prop} {fits : Nat → Client Call Answer Error Value → Prop}

/-- A turn either changes nothing or performs the call of one client. -/
theorem turn_cases (handle : Handler State Call Answer)
    (pool : Pool State Call Answer Error Value) (place : Nat) :
    pool.turn handle place = pool ∨
      ∃ client request rest, pool.clients[place]? = some client ∧
        client.program = .call request rest ∧
        pool.turn handle place =
          ⟨(handle pool.state request).1, pool.clients.set place
            ⟨rest (handle pool.state request).2,
              ⟨request, (handle pool.state request).2⟩ :: client.history⟩⟩ := by
  cases found : pool.clients[place]? with
  | none => exact .inl (by simp [turn, found])
  | some client =>
      obtain ⟨program, history⟩ := client
      cases program with
      | call request rest =>
          exact .inr ⟨_, request, rest, rfl, rfl, by simp [turn, found, Client.turn]⟩
      | _ =>
          left
          obtain ⟨state, clients⟩ := pool
          obtain ⟨inside, same⟩ := List.getElem?_eq_some_iff.mp found
          have unchanged := List.set_getElem_self inside
          rw [same] at unchanged
          simpa [turn, found, Client.turn] using unchanged

/-- What the turn of the client at this place preserves holds after it. -/
theorem Holds.turn_at (held : pool.Holds invariant fits) {place : Nat}
    (step : ∀ client request rest, pool.clients[place]? = some client →
      client.program = .call request rest →
        invariant (handle pool.state request).1 ∧
          fits place ⟨rest (handle pool.state request).2,
            ⟨request, (handle pool.state request).2⟩ :: client.history⟩) :
    (pool.turn handle place).Holds invariant fits := by
  obtain same | ⟨client, request, rest, found, issued, moved⟩ := turn_cases handle pool place
  · rw [same]
    exact held
  · rw [moved]
    obtain ⟨kept, fitted⟩ := step client request rest found issued
    refine ⟨kept, fun other later among => ?_⟩
    rw [List.getElem?_set] at among
    split at among
    · rename_i here
      subst here
      split at among
      · exact Option.some.inj among ▸ fitted
      · cases among
    · exact held.clients other later among

/-- What a turn of one client preserves is preserved by every turn of the pool. -/
theorem Holds.turn (held : pool.Holds invariant fits)
    (step : ∀ state place client request rest, invariant state → fits place client →
      client.program = .call request rest →
        invariant (handle state request).1 ∧
          fits place ⟨rest (handle state request).2,
            ⟨request, (handle state request).2⟩ :: client.history⟩)
    (place : Nat) : (pool.turn handle place).Holds invariant fits :=
  held.turn_at fun client request rest found issued =>
    step pool.state place client request rest held.state (held.clients place client found) issued

theorem Holds.run (held : pool.Holds invariant fits)
    (step : ∀ state place client request rest, invariant state → fits place client →
      client.program = .call request rest →
        invariant (handle state request).1 ∧
          fits place ⟨rest (handle state request).2,
            ⟨request, (handle state request).2⟩ :: client.history⟩)
    (schedule : List Nat) : (pool.run handle schedule).Holds invariant fits := by
  induction schedule generalizing pool with
  | nil => exact held
  | cons place rest ih => exact ih (held.turn step place)

theorem Steps.of_always {property : Pool State Call Answer Error Value → Nat → Prop}
    (always : ∀ pool place, property pool place) (pool : Pool State Call Answer Error Value)
    (schedule : List Nat) : Steps handle property pool schedule := by
  induction schedule generalizing pool with
  | nil => trivial
  | cons place rest ih => exact ⟨always pool place, ih _⟩

/-- What every step that meets the condition preserves holds where such a run ends. -/
theorem Holds.along {condition : Pool State Call Answer Error Value → Nat → Prop}
    (held : pool.Holds invariant fits)
    (step : ∀ (pool : Pool State Call Answer Error Value) place client request rest,
      pool.Holds invariant fits → condition pool place → pool.clients[place]? = some client →
        client.program = .call request rest →
          invariant (handle pool.state request).1 ∧
            fits place ⟨rest (handle pool.state request).2,
              ⟨request, (handle pool.state request).2⟩ :: client.history⟩)
    {schedule : List Nat} (conditions : Steps handle condition pool schedule) :
    (pool.run handle schedule).Holds invariant fits := by
  induction schedule generalizing pool with
  | nil => exact held
  | cons place rest ih =>
      have turned : (pool.turn handle place).Holds invariant fits :=
        held.turn_at fun client request rest found issued =>
          step pool place client request rest held conditions.1 found issued
      exact ih turned conditions.2

/-- What holds of every reachable pool and follows from the condition holds at every step. -/
theorem Steps.imp {condition property : Pool State Call Answer Error Value → Nat → Prop}
    (held : pool.Holds invariant fits)
    (step : ∀ state place client request rest, invariant state → fits place client →
      client.program = .call request rest →
        invariant (handle state request).1 ∧
          fits place ⟨rest (handle state request).2,
            ⟨request, (handle state request).2⟩ :: client.history⟩)
    (implies : ∀ (pool : Pool State Call Answer Error Value) place, pool.Holds invariant fits →
      condition pool place → property pool place)
    {schedule : List Nat} (conditions : Steps handle condition pool schedule) :
    Steps handle property pool schedule := by
  induction schedule generalizing pool with
  | nil => trivial
  | cons place rest ih =>
      exact ⟨implies pool place held conditions.1, ih (held.turn step place) conditions.2⟩

end Rules

section Concessions

variable {handle : Handler State Call Answer} {pool : Pool State Call Answer Error Value}
  {allowed : Call → Prop} {fails : Error → Prop}

theorem conceded_turn {place : Nat} {client : Client Call Answer Error Value}
    (found : pool.clients[place]? = some client) (conceded : client.program.Concedes allowed fails)
    (turn : Nat) :
    ∃ later, (pool.turn handle turn).clients[place]? = some later ∧
      later.program.Concedes allowed fails ∧
      ((turn = place ∨ ∃ error, client.program = .fail error) → ∃ error, later.program = .fail error) := by
  obtain same | ⟨other, request, rest, there, issued, moved⟩ := turn_cases handle pool turn
  · refine ⟨client, by rw [same]; exact found, conceded, ?_⟩
    rintro (rfl | failed)
    · obtain ⟨program, history⟩ := client
      cases program with
      | fail error => exact ⟨error, rfl⟩
      | call request rest =>
          -- a client with a call left is moved by its turn
          have inside := (List.getElem?_eq_some_iff.mp found).1
          have moved := congrArg (fun pool => pool.clients[turn]?) same
          simp only [Pool.turn, found, Client.turn, List.getElem?_set_self inside,
            Option.some.injEq, Client.mk.injEq] at moved
          exact absurd (congrArg List.length moved.2) (by simp)
      | done value => exact conceded.elim
      | spin => exact conceded.elim
    · exact failed
  · rw [moved]
    by_cases here : turn = place
    · subst here
      cases found.symm.trans there
      have inside := (List.getElem?_eq_some_iff.mp found).1
      rw [issued] at conceded
      obtain ⟨error, failed, fitting⟩ := conceded.2 (handle pool.state request).2
      refine ⟨_, List.getElem?_set_self inside, ?_, fun _ => ⟨error, failed⟩⟩
      rw [failed]
      exact fitting
    · refine ⟨client, by rw [List.getElem?_set_ne here]; exact found, conceded, ?_⟩
      rintro (same | failed)
      · exact absurd same here
      · exact failed

/-- A client that has conceded fails by its next turn at the latest, whoever else moves. -/
theorem conceded_run {place : Nat} {client : Client Call Answer Error Value}
    (found : pool.clients[place]? = some client) (conceded : client.program.Concedes allowed fails)
    (schedule : List Nat) :
    ∃ later, (pool.run handle schedule).clients[place]? = some later ∧
      later.program.Concedes allowed fails ∧
      ((place ∈ schedule ∨ ∃ error, client.program = .fail error) →
        ∃ error, later.program = .fail error) := by
  induction schedule generalizing pool client with
  | nil => exact ⟨client, found, conceded, by simp⟩
  | cons turn rest ih =>
      obtain ⟨next, there, concedes, first⟩ := conceded_turn found conceded turn
      obtain ⟨later, at_end, conceding, last⟩ := ih there concedes
      refine ⟨later, at_end, conceding, ?_⟩
      rintro (among | failed)
      · rcases List.mem_cons.mp among with same | behind
        · exact last (.inr (first (.inl same.symm)))
        · exact last (.inl behind)
      · exact last (.inr (first (.inr failed)))

end Concessions
end Pool
end Sanshain.Effects
