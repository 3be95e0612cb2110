import Mathlib.Logic.Function.Basic

namespace Sanshain.Effects

/-- What a cache holds of some of its keys. -/
abbrev Kept (Key : Type) (Value : Key → Type) := (key : Key) → Option (Value key)

namespace Kept

variable {Key : Type} {Value : Key → Type} {Error : Type}

def empty : Kept Key Value := fun _ => none

def clear (kept : Kept Key Value) (gone : Key → Bool) : Kept Key Value :=
  fun key => if gone key then none else kept key

section Reads

variable [DecidableEq Key]

def put (kept : Kept Key Value) (key : Key) (value : Value key) : Kept Key Value :=
  Function.update kept key (some value)

/-- A hit answers; a miss asks behind the cache, and what is found there is kept. -/
def readThrough (enabled : Bool) (kept : Kept Key Value) (key : Key)
    (behind : Except Error (Option (Value key))) :
    Kept Key Value × Except Error (Option (Value key)) :=
  match if enabled then kept key else none with
  | some value => (kept, .ok (some value))
  | none =>
      match behind with
      | .ok (some value) => (if enabled then kept.put key value else kept, .ok (some value))
      | .ok none => (kept, .ok none)
      | .error error => (kept, .error error)

end Reads

/-- Of the keys it is right about, a cache holds what is true of them now. -/
def Tells (truth : (key : Key) → Option (Value key)) (right : Key → Prop) (kept : Kept Key Value) :
    Prop :=
  ∀ key, right key → ∀ value, kept key = some value → truth key = some value

variable {truth after : (key : Key) → Option (Value key)} {right : Key → Prop} {kept : Kept Key Value}

theorem tells_empty : Tells truth right (empty : Kept Key Value) := by
  intro key among value held
  cases held

/-- A change of what is true is followed by clearing every key it reaches. -/
theorem Tells.moves (tells : Tells truth right kept) {gone : Key → Bool}
    (same : ∀ key, right key → gone key = false → after key = truth key) :
    Tells after right (kept.clear gone) := by
  intro key among value held
  cases cleared : gone key with
  | true =>
      rw [clear, cleared] at held
      cases held
  | false =>
      rw [clear, cleared] at held
      rw [same key among cleared]
      exact tells key among value held

theorem Tells.clear (tells : Tells truth right kept) (gone : Key → Bool) :
    Tells truth right (kept.clear gone) :=
  tells.moves fun _ _ _ => rfl

section Reads

variable [DecidableEq Key]

theorem Tells.put (tells : Tells truth right kept) {key : Key} {value : Value key}
    (true_now : right key → truth key = some value) : Tells truth right (kept.put key value) := by
  intro other among held there
  by_cases same : other = key
  · subst same
    rw [Kept.put, Function.update_self] at there
    rw [true_now among, there]
  · rw [Kept.put, Function.update_of_ne same] at there
    exact tells other among held there

/-- A read of a key that the cache is right about answers what is true, unless it has to ask behind
the cache and that fails. -/
theorem readThrough_answer {enabled : Bool} {key : Key} {behind : Except Error (Option (Value key))}
    (tells : enabled = true → Tells truth right kept) (among : right key)
    (fresh : ∀ found, behind = .ok found → found = truth key) :
    (readThrough enabled kept key behind).2 = .ok (truth key) ∨
      ∃ error, behind = .error error ∧ (readThrough enabled kept key behind).2 = .error error := by
  unfold readThrough
  split
  · rename_i value hit
    left
    split at hit
    · rename_i on
      rw [tells on key among value hit]
    · cases hit
  · split
    · left
      rw [← fresh _ rfl]
    · left
      rw [← fresh _ rfl]
    · rename_i error
      exact .inr ⟨error, rfl, rfl⟩

theorem readThrough_tells {enabled : Bool} {key : Key} {behind : Except Error (Option (Value key))}
    (tells : Tells truth right kept)
    (fresh : right key → ∀ found, behind = .ok found → found = truth key) :
    Tells truth right (readThrough enabled kept key behind).1 := by
  unfold readThrough
  split
  · exact tells
  · split
    · rename_i value
      split
      · exact tells.put fun among => (fresh among _ rfl).symm
      · exact tells
    · exact tells
    · exact tells

/-- What is not enabled is not filled. -/
theorem readThrough_disabled {key : Key} {behind : Except Error (Option (Value key))} :
    (readThrough false kept key behind).1 = kept := by
  unfold readThrough
  split
  · rfl
  · split <;> rfl

/-- What a read answers was kept, or has been found now. -/
theorem readThrough_source {enabled : Bool} {key : Key} {behind : Except Error (Option (Value key))}
    {value : Value key} (answered : (readThrough enabled kept key behind).2 = .ok (some value)) :
    kept key = some value ∨ behind = .ok (some value) := by
  unfold readThrough at answered
  split at answered
  · rename_i found hit
    cases answered
    split at hit
    · exact .inl hit
    · cases hit
  · split at answered
    · exact .inr answered
    · cases answered
    · cases answered

/-- What a read leaves of its key was kept, or has been found now. -/
theorem readThrough_self {enabled : Bool} {key : Key} {behind : Except Error (Option (Value key))}
    {value : Value key} (held : (readThrough enabled kept key behind).1 key = some value) :
    kept key = some value ∨ behind = .ok (some value) := by
  unfold readThrough at held
  split at held
  · exact .inl held
  · split at held
    · rename_i found
      split at held
      · change Function.update kept key (some found) key = some value at held
        rw [Function.update_self] at held
        cases held
        exact .inr rfl
      · exact .inl held
    · exact .inl held
    · exact .inl held

/-- A read leaves every other key as it was. -/
theorem readThrough_other {enabled : Bool} {key other : Key}
    {behind : Except Error (Option (Value key))} (away : other ≠ key) :
    (readThrough enabled kept key behind).1 other = kept other := by
  unfold readThrough
  split
  · rfl
  · split
    · split
      · exact Function.update_of_ne away _ _
      · rfl
    · rfl
    · rfl

end Reads

end Kept
end Sanshain.Effects
