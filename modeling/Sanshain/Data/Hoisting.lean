import Sanshain.Data.IndexMap

namespace Sanshain.Data

/-- Sources that are held under names: each has a form, and leads to further named sources. -/
structure Hoisting (Name Source Form Error : Type) where
  form : Source → Except Error (Form × List (Name × Source))
  alike : Form → Form → Bool
  clash : Source → Name → Error

namespace Hoisting

variable {Name Source Form Error : Type}

/-- The entries are taken up in their order until one of them stops. -/
def holdEach (hold : IndexMap Name Form → Name → Source → Option (Except Error (IndexMap Name Form)))
    (held : IndexMap Name Form) :
    List (Name × Source) → Option (Except Error (IndexMap Name Form))
  | [] => some (.ok held)
  | (name, source) :: rest =>
      match hold held name source with
      | some (.ok after) => holdEach hold after rest
      | stopped => stopped

section Entries

variable {Other : Type} {held : IndexMap Name Form}
  {hold : IndexMap Name Form → Name → Source → Option (Except Error (IndexMap Name Form))}

theorem holdEach_map {into : Source → Other}
    {hold' : IndexMap Name Form → Name → Other → Option (Except Error (IndexMap Name Form))}
    (each : ∀ held name source, hold held name source = hold' held name (into source))
    (entries : List (Name × Source)) :
    holdEach hold held entries =
      holdEach hold' held (entries.map fun entry => (entry.1, into entry.2)) := by
  induction entries generalizing held with
  | nil => rfl
  | cons entry rest ih =>
      rw [List.map_cons, holdEach, holdEach, each]
      split
      · exact ih
      · rfl

theorem holdEach_append (entries more : List (Name × Source)) :
    holdEach hold held (entries ++ more) =
      match holdEach hold held entries with
      | some (.ok after) => holdEach hold after more
      | stopped => stopped := by
  induction entries generalizing held with
  | nil => rfl
  | cons entry rest ih =>
      rw [List.cons_append, holdEach, holdEach]
      cases first : hold held entry.1 entry.2 with
      | none => rfl
      | some outcome =>
          cases outcome with
          | error reason => rfl
          | ok after => exact ih

end Entries

variable [DecidableEq Name] (hoisting : Hoisting Name Source Form Error)

/-- A source goes under its name before what it leads to; without depth there is no outcome. -/
def hold : ℕ → IndexMap Name Form → Name → Source → Option (Except Error (IndexMap Name Form))
  | 0, _, _, _ => none
  | depth + 1, held, name, source =>
      match hoisting.form source with
      | .error reason => some (.error reason)
      | .ok (form, leads) =>
          match held.get? name with
          | some existing =>
              if hoisting.alike existing form then some (.ok held)
              else some (.error (hoisting.clash source name))
          | none => holdEach (hold depth) (held.insert name form) leads

/-- The named sources that some named sources lead to. -/
inductive Reached (starts : List (Name × Source)) : Name → Source → Prop
  | start {name : Name} {source : Source} (among : (name, source) ∈ starts) :
      Reached starts name source
  | lead {name next : Name} {source target : Source} {form : Form} {leads : List (Name × Source)}
      (before : Reached starts name source) (formed : hoisting.form source = .ok (form, leads))
      (among : (next, target) ∈ leads) : Reached starts next target

/-- Every source that is reached has a form, and those of one name have forms that are alike. -/
structure Agree (starts : List (Name × Source)) : Prop where
  formed : ∀ name source, hoisting.Reached starts name source →
    ∃ form leads, hoisting.form source = .ok (form, leads)
  alike : ∀ name source other form leads form' leads', hoisting.Reached starts name source →
    hoisting.Reached starts name other → hoisting.form source = .ok (form, leads) →
    hoisting.form other = .ok (form', leads') → hoisting.alike form form' = true

/-- A source has a form, and its name holds this form or one like it. -/
def Holds (held : IndexMap Name Form) (name : Name) (source : Source) : Prop :=
  ∃ form leads existing, hoisting.form source = .ok (form, leads) ∧
    held.get? name = some existing ∧ (existing = form ∨ hoisting.alike existing form = true)

/-- A form under a name is that of a reached source whose leads are all held. -/
def Kept (starts : List (Name × Source)) (held : IndexMap Name Form) (name : Name) (form : Form) :
    Prop :=
  ∃ source leads, hoisting.Reached starts name source ∧
    hoisting.form source = .ok (form, leads) ∧
    ∀ entry ∈ leads, hoisting.Holds held entry.1 entry.2

/-- What a name holds stays. -/
def Extends (held after : IndexMap Name Form) : Prop :=
  ∀ name form, held.get? name = some form → after.get? name = some form

/-- Taking up the entries keeps what is held, holds them, and adds only what they lead to. -/
structure Takes (starts : List (Name × Source)) (held after : IndexMap Name Form) : Prop where
  keeps : Extends held after
  holds : ∀ entry ∈ starts, hoisting.Holds after entry.1 entry.2
  adds : ∀ name form, after.get? name = some form →
    held.get? name = some form ∨ hoisting.Kept starts after name form

variable {hoisting} {starts leads : List (Name × Source)} {held after : IndexMap Name Form}
  {name : Name} {source : Source} {form : Form}

theorem Reached.trans (inner : hoisting.Reached leads name source)
    (each : ∀ entry ∈ leads, hoisting.Reached starts entry.1 entry.2) :
    hoisting.Reached starts name source := by
  induction inner with
  | start among => exact each _ among
  | lead _ formed among ih => exact .lead ih formed among

theorem Reached.mono (inner : hoisting.Reached leads name source)
    (each : ∀ entry ∈ leads, entry ∈ starts) : hoisting.Reached starts name source :=
  inner.trans fun entry among => .start (each entry among)

section Taking

theorem Holds.grow (holds : hoisting.Holds held name source) (grows : Extends held after) :
    hoisting.Holds after name source := by
  obtain ⟨form, leads, existing, formed, found, like⟩ := holds
  exact ⟨form, leads, existing, formed, grows name existing found, like⟩

theorem Kept.grow (kept : hoisting.Kept leads held name form) (grows : Extends held after)
    (each : ∀ entry ∈ leads, hoisting.Reached starts entry.1 entry.2) :
    hoisting.Kept starts after name form := by
  obtain ⟨source, further, reached, formed, holds⟩ := kept
  exact ⟨source, further, reached.trans each, formed,
    fun entry among => (holds entry among).grow grows⟩

/-- If one entry after the other is taken up, all of them are. -/
theorem takes_holdEach
    {hold : IndexMap Name Form → Name → Source → Option (Except Error (IndexMap Name Form))}
    (one : ∀ entry ∈ starts, ∀ before next, hold before entry.1 entry.2 = some (.ok next) →
      hoisting.Takes [entry] before next)
    (done : holdEach hold held starts = some (.ok after)) : hoisting.Takes starts held after := by
  induction starts generalizing held with
  | nil =>
      cases done
      exact ⟨fun _ _ found => found, by simp, fun _ _ found => .inl found⟩
  | cons entry rest ih =>
      rw [holdEach] at done
      cases first : hold held entry.1 entry.2 with
      | none => simp [first] at done
      | some outcome =>
          cases outcome with
          | error reason => simp [first] at done
          | ok next =>
              rw [first] at done
              have head := one entry List.mem_cons_self held next first
              have tail := ih (fun later among => one later (List.mem_cons_of_mem _ among)) done
              refine ⟨fun name form found => tail.keeps name form (head.keeps name form found),
                fun later among => ?_, fun name form found => ?_⟩
              · rcases List.mem_cons.mp among with rfl | among
                · exact (head.holds later List.mem_cons_self).grow tail.keeps
                · exact tail.holds later among
              · rcases tail.adds name form found with before | kept
                · rcases head.adds name form before with before | kept
                  · exact .inl before
                  · exact .inr (kept.grow tail.keeps fun other among =>
                      .start (by simpa using .inl (List.mem_singleton.mp among)))
                · exact .inr (kept.grow (fun _ _ found => found) fun other among =>
                    .start (List.mem_cons_of_mem _ among))

theorem takes_hold (depth : ℕ) (done : hoisting.hold depth held name source = some (.ok after)) :
    hoisting.Takes [(name, source)] held after := by
  induction depth generalizing held after name source with
  | zero => cases done
  | succ depth ih =>
      rw [hold] at done
      cases formed : hoisting.form source with
      | error reason => simp [formed] at done
      | ok both =>
          obtain ⟨form, leads⟩ := both
          simp only [formed] at done
          cases found : held.get? name with
          | some existing =>
              simp only [found] at done
              split at done
              · rename_i like
                cases done
                refine ⟨fun _ _ found => found, fun entry among => ?_, fun _ _ found => .inl found⟩
                obtain rfl := List.mem_singleton.mp among
                exact ⟨form, leads, existing, formed, found, .inr like⟩
              · cases done
          | none =>
              simp only [found] at done
              have inner := takes_holdEach (fun entry _ _ _ step => ih step) done
              have inserted (other : Name) : (held.insert name form).get? other =
                  if name = other then some form else held.get? other :=
                Entries.get?_insert held.entries name other form
              have own : after.get? name = some form :=
                inner.keeps name form (by rw [inserted, if_pos rfl])
              have reached : hoisting.Reached [(name, source)] name source :=
                .start List.mem_cons_self
              refine ⟨fun other form' there => inner.keeps other form' ?_, fun entry among => ?_,
                fun other form' there => ?_⟩
              · rw [inserted, if_neg]
                · exact there
                · rintro rfl
                  rw [found] at there
                  cases there
              · obtain rfl := List.mem_singleton.mp among
                exact ⟨form, leads, form, formed, own, .inl rfl⟩
              · rcases inner.adds other form' there with before | kept
                · rw [inserted] at before
                  split at before
                  · rename_i same
                    cases before
                    subst same
                    exact .inr ⟨source, leads, reached, formed, inner.holds⟩
                  · exact .inl before
                · exact .inr (kept.grow (fun _ _ found => found)
                    fun entry among => .lead reached formed among)

end Taking

section Completeness

/-- Where the sources agree and forms that are alike lead to the same names, a completed hoisting
holds everything that is reached. -/
theorem Agree.holds (agree : hoisting.Agree starts) (takes : hoisting.Takes starts ∅ after)
    (follows : ∀ source other form leads form' leads', hoisting.form source = .ok (form, leads) →
      hoisting.form other = .ok (form', leads') → hoisting.alike form' form = true →
      ∀ entry ∈ leads', entry.1 ∈ leads.map Prod.fst)
    (reached : hoisting.Reached starts name source) : hoisting.Holds after name source := by
  have kept (name : Name) (form : Form) (found : after.get? name = some form) :
      hoisting.Kept starts after name form := (takes.adds name form found).resolve_left (by
    intro before
    cases before)
  induction reached with
  | start among => exact takes.holds _ among
  | lead before formed among ih =>
      rename_i _ next from' target form leads
      obtain ⟨form₁, leads₁, existing, formed₁, found, _⟩ := ih
      obtain ⟨first, firstLeads, reached', formed', holds⟩ := kept _ existing found
      have like : hoisting.alike form existing = true :=
        agree.alike _ from' first form leads existing firstLeads before reached' formed formed'
      obtain ⟨entry, there, same⟩ := List.mem_map.mp
        (follows first from' existing firstLeads form leads formed' formed like _ among)
      obtain ⟨_, _, stored, _, held, _⟩ := holds entry there
      rw [same] at held
      obtain ⟨origin, originLeads, reached'', formed'', _⟩ := kept next stored held
      have arrives := Reached.lead before formed among
      obtain ⟨targetForm, targetLeads, formed₂⟩ := agree.formed next target arrives
      exact ⟨targetForm, targetLeads, stored, formed₂, held,
        .inr (agree.alike next origin target _ _ _ _ reached'' arrives formed'' formed₂)⟩

/-- Every form that is held is that of a reached source. -/
def Grounded (hoisting : Hoisting Name Source Form Error) (starts : List (Name × Source))
    (held : IndexMap Name Form) : Prop :=
  ∀ name form, held.get? name = some form →
    ∃ source leads, hoisting.Reached starts name source ∧ hoisting.form source = .ok (form, leads)

theorem Grounded.insert (grounded : hoisting.Grounded starts held)
    (reached : hoisting.Reached starts name source)
    (formed : hoisting.form source = .ok (form, leads)) :
    hoisting.Grounded starts (held.insert name form) := by
  intro other form' found
  rw [IndexMap.get?, IndexMap.insert, Entries.get?_insert] at found
  split at found
  · rename_i same
    cases found
    exact ⟨source, leads, same ▸ reached, formed⟩
  · exact grounded other form' found

/-- Nothing is refused. -/
def Accepts (hoisting : Hoisting Name Source Form Error) (starts : List (Name × Source))
    (outcome : Option (Except Error (IndexMap Name Form))) : Prop :=
  outcome = none ∨ ∃ after, outcome = some (.ok after) ∧ hoisting.Grounded starts after

theorem accepts_holdEach
    {hold : IndexMap Name Form → Name → Source → Option (Except Error (IndexMap Name Form))}
    (one : ∀ entry ∈ leads, ∀ before, hoisting.Grounded starts before →
      hoisting.Accepts starts (hold before entry.1 entry.2))
    (grounded : hoisting.Grounded starts held) : hoisting.Accepts starts (holdEach hold held leads) := by
  induction leads generalizing held with
  | nil => exact .inr ⟨held, rfl, grounded⟩
  | cons entry rest ih =>
      rw [holdEach]
      rcases one entry List.mem_cons_self held grounded with none | ⟨after, done, grounded⟩
      · rw [none]
        exact .inl rfl
      · rw [done]
        exact ih (fun later among => one later (List.mem_cons_of_mem _ among)) grounded

theorem Agree.accepts (agree : hoisting.Agree starts) (depth : ℕ)
    (grounded : hoisting.Grounded starts held) (reached : hoisting.Reached starts name source) :
    hoisting.Accepts starts (hoisting.hold depth held name source) := by
  induction depth generalizing held name source with
  | zero => exact .inl rfl
  | succ depth ih =>
      obtain ⟨form, leads, formed⟩ := agree.formed name source reached
      rw [hold, formed]
      cases found : held.get? name with
      | some existing =>
          obtain ⟨other, leads', reached', formed'⟩ := grounded name existing found
          have like : hoisting.alike existing form = true :=
            agree.alike name other source _ _ _ _ reached' reached formed' formed
          simp only [like, if_true]
          exact .inr ⟨held, rfl, grounded⟩
      | none =>
          exact accepts_holdEach (fun entry among before grounded =>
            ih grounded (.lead reached formed among)) (grounded.insert reached formed)

end Completeness

section Depth

/-- The names of a list under which nothing is held. -/
def vacant (names : List Name) (held : IndexMap Name Form) : List Name :=
  names.filter fun name => (held.get? name).isNone

theorem vacant_grow (names : List Name) (grows : Extends held after) :
    (vacant names after).length ≤ (vacant names held).length := by
  simp only [vacant, ← List.countP_eq_length_filter]
  refine List.countP_mono_left fun name _ free => ?_
  cases found : held.get? name with
  | none => rfl
  | some form =>
      rw [grows name form found] at free
      cases free

theorem vacant_insert {names : List Name} (among : name ∈ names) (free : held.get? name = none)
    (form : Form) : (vacant names (held.insert name form)).length < (vacant names held).length := by
  have inserted (other : Name) : (held.insert name form).get? other =
      if name = other then some form else held.get? other :=
    Entries.get?_insert held.entries name other form
  have fewer : vacant names (held.insert name form) = (vacant names held).filter (· ≠ name) := by
    rw [vacant, vacant, List.filter_filter]
    refine List.filter_congr fun other _ => ?_
    rw [inserted]
    by_cases same : name = other
    · simp [same]
    · simp [same, Ne.symm same]
  rw [fewer]
  exact List.length_filter_lt_length_iff_exists.mpr
    ⟨name, by simpa [vacant, among] using free, by simp⟩

/-- A hoisting whose names all come from a list has an outcome once its depth exceeds the names of
the list that are still vacant. -/
theorem hold_ne_none {names : List Name} {within : Source → Prop}
    (closed : ∀ source form leads, within source → hoisting.form source = .ok (form, leads) →
      ∀ entry ∈ leads, entry.1 ∈ names ∧ within entry.2)
    (depth : ℕ) (among : name ∈ names) (inside : within source)
    (deep : (vacant names held).length < depth) : hoisting.hold depth held name source ≠ none := by
  induction depth generalizing held name source with
  | zero => exact absurd deep (Nat.not_lt_zero _)
  | succ depth ih =>
      rw [hold]
      cases formed : hoisting.form source with
      | error reason => simp
      | ok both =>
          obtain ⟨form, leads⟩ := both
          cases found : held.get? name with
          | some existing =>
              simp only
              split <;> simp
          | none =>
              have fewer : (vacant names (held.insert name form)).length < depth :=
                (vacant_insert among found form).trans_le (Nat.le_of_lt_succ deep)
              have each := closed source form leads inside formed
              clear formed
              simp only
              generalize held.insert name form = next at fewer
              induction leads generalizing next with
              | nil => simp [holdEach]
              | cons entry rest step =>
                  rw [holdEach]
                  have outcome := each entry List.mem_cons_self
                  cases first : hoisting.hold depth next entry.1 entry.2 with
                  | none => exact absurd first (ih outcome.1 outcome.2 fewer)
                  | some result =>
                      cases result with
                      | error reason => simp
                      | ok after =>
                          exact step (fun later there => each later (List.mem_cons_of_mem _ there))
                            after ((vacant_grow names (takes_hold depth first).keeps).trans_lt fewer)

end Depth
end Hoisting
end Sanshain.Data
