import Sanshain.Effects.Pool

namespace Sanshain.Effects.Pool

variable {State Call : Type} {Answer : Call → Type} {Error Value : Type}
  {handle : Handler State Call Answer} {pool : Pool State Call Answer Error Value}

/-- A client's call was answered so, after such a history of its own. -/
def Happened (pool : Pool State Call Answer Error Value)
    (what : Nat → History Call Answer → Event Call Answer → Prop) : Prop :=
  ∃ place client later event earlier, pool.clients[place]? = some client ∧
    client.history = later ++ event :: earlier ∧ what place earlier event

variable {what what' : Nat → History Call Answer → Event Call Answer → Prop}

theorem Happened.imp (happened : pool.Happened what)
    (wider : ∀ place earlier event, what place earlier event → what' place earlier event) :
    pool.Happened what' := by
  obtain ⟨place, client, later, event, earlier, found, recorded, fits⟩ := happened
  exact ⟨place, client, later, event, earlier, found, recorded, wider place earlier event fits⟩

/-- The pool after the call that its client issues. -/
theorem turn_eq {place : Nat} {client : Client Call Answer Error Value} {request : Call}
    {rest : Answer request → Program Call Answer Error Value}
    (found : pool.clients[place]? = some client) (issued : client.program = .call request rest) :
    pool.turn handle place =
      ⟨(handle pool.state request).1, pool.clients.set place
        ⟨rest (handle pool.state request).2,
          ⟨request, (handle pool.state request).2⟩ :: client.history⟩⟩ := by
  obtain ⟨program, history⟩ := client
  subst issued
  simp [turn, found, Client.turn]

/-- What has happened stays so, whoever moves. -/
theorem Happened.turn (happened : pool.Happened what) (turned : Nat) :
    (pool.turn handle turned).Happened what := by
  obtain ⟨place, client, later, event, earlier, found, recorded, fits⟩ := happened
  obtain same | ⟨other, request, rest, there, issued, moved⟩ := turn_cases handle pool turned
  · exact ⟨place, client, later, event, earlier, by rw [same]; exact found, recorded, fits⟩
  · rw [moved]
    by_cases here : turned = place
    · subst here
      cases found.symm.trans there
      have inside := (List.getElem?_eq_some_iff.mp found).1
      refine ⟨turned, _, ⟨request, (handle pool.state request).2⟩ :: later, event, earlier,
        List.getElem?_set_self inside, ?_, fits⟩
      rw [recorded, List.cons_append]
    · exact ⟨place, client, later, event, earlier, by rw [List.getElem?_set_ne here]; exact found,
        recorded, fits⟩

/-- The call of a turn has happened after it. -/
theorem happened_turn {place : Nat} {client : Client Call Answer Error Value} {request : Call}
    {rest : Answer request → Program Call Answer Error Value}
    (found : pool.clients[place]? = some client) (issued : client.program = .call request rest)
    (now : what place client.history ⟨request, (handle pool.state request).2⟩) :
    (pool.turn handle place).Happened what := by
  rw [turn_eq found issued]
  have inside := (List.getElem?_eq_some_iff.mp found).1
  exact ⟨place, _, [], _, client.history, List.getElem?_set_self inside, rfl, now⟩

/-- What a client has on record after a turn is the call of the turn, or it was there before. -/
theorem recorded_before {place other : Nat} {client later : Client Call Answer Error Value} {request : Call}
    {rest : Answer request → Program Call Answer Error Value} {event : Event Call Answer}
    (found : pool.clients[place]? = some client) (issued : client.program = .call request rest)
    (there : (pool.turn handle place).clients[other]? = some later) (recorded : event ∈ later.history) :
    event = ⟨request, (handle pool.state request).2⟩ ∨
      ∃ earlier, pool.clients[other]? = some earlier ∧ event ∈ earlier.history := by
  rw [turn_eq found issued, List.getElem?_set] at there
  split at there
  · rename_i here
    split at there
    · cases there
      obtain rfl | before := List.mem_cons.mp recorded
      · exact .inl rfl
      · exact .inr ⟨client, here ▸ found, before⟩
    · cases there
  · exact .inr ⟨later, there, recorded⟩

/-- What every call of a client preserves of the whole pool holds after any schedule. -/
theorem run_keeps {property : Pool State Call Answer Error Value → Prop} (held : property pool)
    (step : ∀ (pool : Pool State Call Answer Error Value) place client request rest, property pool →
      pool.clients[place]? = some client → client.program = .call request rest →
        property (pool.turn handle place))
    (schedule : List Nat) : property (pool.run handle schedule) := by
  induction schedule generalizing pool with
  | nil => exact held
  | cons place later ih =>
      refine ih ?_
      obtain same | ⟨client, request, rest, found, issued, -⟩ := turn_cases handle pool place
      · rw [same]
        exact held
      · exact step pool place client request rest held found issued

end Sanshain.Effects.Pool
