import Sanshain.History.Span

namespace Sanshain.History

/-- A record of a value under a key, with when it held and when it was last confirmed. -/
structure Entry (Key Value Label Time : Type) where
  key : Key
  value : Value
  label : Label
  opened : Time
  seen : Time
  closed : Option Time
  deriving DecidableEq, Repr

/-- What happens to a ledger: a value is put under a key, or the open records that are chosen
close. -/
inductive Change (Key Value Label Time : Type) where
  | put (key : Key) (value : Value) (label : Label)
  | close (leaves : Key → Value → Time → Bool)

/-- The plain map that a ledger is a history of: what each key holds, and when it was confirmed. -/
abbrev Present (Key Value Time : Type) := Key → Option (Value × Time)

namespace Entry

variable {Key Value Label Time : Type}

def span (entry : Entry Key Value Label Time) : Span Time := ⟨entry.opened, entry.closed⟩

/-- What a record says, whenever it is read. -/
def said (entry : Entry Key Value Label Time) : Key × Value × Label × Time :=
  (entry.key, entry.value, entry.label, entry.opened)

end Entry

section Definitions

variable {Key Value Label Time : Type}

/-- The open records that are chosen close. -/
def closeEntry (now : Time) (leaves : Key → Value → Time → Bool)
    (entry : Entry Key Value Label Time) : Entry Key Value Label Time :=
  if entry.closed.isNone ∧ leaves entry.key entry.value entry.seen then
    { entry with closed := some now }
  else entry

variable [DecidableEq Key] [DecidableEq Value]

/-- An open record of the key: another value closes it, the same one confirms it. -/
def refresh (now : Time) (key : Key) (value : Value) (entry : Entry Key Value Label Time) :
    Entry Key Value Label Time :=
  if entry.key = key ∧ entry.closed.isNone then
    if entry.value = value then { entry with seen := now } else { entry with closed := some now }
  else entry

def holds (key : Key) (value : Value) (entry : Entry Key Value Label Time) : Bool :=
  decide (entry.key = key) && entry.closed.isNone && decide (entry.value = value)

/-- Records are opened, confirmed and closed, never removed. -/
def Change.apply (now : Time) (ledger : List (Entry Key Value Label Time)) :
    Change Key Value Label Time → List (Entry Key Value Label Time)
  | .put key value label =>
      if ledger.any (holds key value) then ledger.map (refresh now key value)
      else ledger.map (refresh now key value) ++ [⟨key, value, label, now, now, none⟩]
  | .close leaves => ledger.map (closeEntry now leaves)

/-- The same change on the plain map. -/
def Change.replay (now : Time) (present : Present Key Value Time) :
    Change Key Value Label Time → Present Key Value Time
  | .put key value _ => Function.update present key (some (value, now))
  | .close leaves => fun key => (present key).filter fun held => !leaves key held.1 held.2

def applyAll (ledger : List (Entry Key Value Label Time))
    (changes : List (Time × Change Key Value Label Time)) : List (Entry Key Value Label Time) :=
  changes.foldl (fun ledger change => change.2.apply change.1 ledger) ledger

def replayAll (present : Present Key Value Time)
    (changes : List (Time × Change Key Value Label Time)) : Present Key Value Time :=
  changes.foldl (fun present change => change.2.replay change.1 present) present

end Definitions

/-- No record is of the future, and of two records of one key the first ended before the second
began. -/
structure Sound {Key Value Label Time : Type} [LinearOrder Time]
    (ledger : List (Entry Key Value Label Time)) (now : Time) : Prop where
  begun : ∀ entry ∈ ledger, entry.opened ≤ now
  ended : ∀ entry ∈ ledger, ∀ stop ∈ entry.closed, stop ≤ now
  chained : ledger.Pairwise fun earlier later =>
    earlier.key = later.key → ∃ stop ∈ earlier.closed, stop ≤ later.opened

/-- The open records are what the map holds. -/
def Shows {Key Value Label Time : Type} (ledger : List (Entry Key Value Label Time))
    (present : Present Key Value Time) : Prop :=
  ∀ key held, present key = some held ↔
    ∃ entry ∈ ledger, entry.closed = none ∧ entry.key = key ∧ (entry.value, entry.seen) = held

/-- A rewriting of records that ends some of the open ones now and leaves the others as they say. -/
structure Ends {Key Value Label Time : Type} (now : Time)
    (change : Entry Key Value Label Time → Entry Key Value Label Time) : Prop where
  said : ∀ entry, (change entry).said = entry.said
  closed : ∀ entry, (change entry).closed = entry.closed ∨
    entry.closed = none ∧ (change entry).closed = some now
  settled : ∀ entry, entry.closed ≠ none → change entry = entry

section Records

variable {Key Value Label Time : Type} {now : Time}

theorem ends_closeEntry (now : Time) (leaves : Key → Value → Time → Bool) :
    Ends now (closeEntry now leaves : Entry Key Value Label Time → Entry Key Value Label Time) where
  said := by
    intro entry
    unfold closeEntry
    split <;> rfl
  closed := by
    intro entry
    unfold closeEntry
    split
    · rename_i here
      exact .inr ⟨Option.isNone_iff_eq_none.mp here.1, rfl⟩
    · exact .inl rfl
  settled := by
    intro entry past
    unfold closeEntry
    rw [if_neg fun here => past (Option.isNone_iff_eq_none.mp here.1)]

theorem closeEntry_open {leaves : Key → Value → Time → Bool} {entry : Entry Key Value Label Time} :
    (closeEntry now leaves entry).closed = none ↔
      entry.closed = none ∧ leaves entry.key entry.value entry.seen = false := by
  unfold closeEntry
  split
  · rename_i gone
    simp [gone.2]
  · rename_i kept
    rw [not_and, Option.isNone_iff_eq_none, Bool.not_eq_true] at kept
    constructor
    · intro fresh
      exact ⟨fresh, kept fresh⟩
    · exact And.left

theorem ends_refresh [DecidableEq Key] [DecidableEq Value] (now : Time) (key : Key) (value : Value) :
    Ends now (refresh now key value : Entry Key Value Label Time → Entry Key Value Label Time) where
  said := by
    intro entry
    unfold refresh
    split
    · split <;> rfl
    · rfl
  closed := by
    intro entry
    unfold refresh
    split
    · rename_i here
      split
      · exact .inl rfl
      · exact .inr ⟨Option.isNone_iff_eq_none.mp here.2, rfl⟩
    · exact .inl rfl
  settled := by
    intro entry past
    unfold refresh
    rw [if_neg fun here => past (Option.isNone_iff_eq_none.mp here.2)]

variable {change : Entry Key Value Label Time → Entry Key Value Label Time}

theorem Ends.key (ends : Ends now change) (entry : Entry Key Value Label Time) :
    (change entry).key = entry.key :=
  congrArg Prod.fst (ends.said entry)

theorem Ends.value (ends : Ends now change) (entry : Entry Key Value Label Time) :
    (change entry).value = entry.value :=
  congrArg (·.2.1) (ends.said entry)

theorem Ends.opened (ends : Ends now change) (entry : Entry Key Value Label Time) :
    (change entry).opened = entry.opened :=
  congrArg (·.2.2.2) (ends.said entry)

/-- A record that is over is what it was. -/
theorem Ends.stop (ends : Ends now change) {entry : Entry Key Value Label Time} {stop : Time}
    (past : stop ∈ (change entry).closed) : stop ∈ entry.closed ∨ stop = now := by
  rcases ends.closed entry with same | ⟨-, ended⟩
  · exact .inl (same ▸ past)
  · rw [ended] at past
    exact .inr (Option.mem_some.mp past).symm

end Records

section Soundness

variable {Key Value Label Time : Type} [LinearOrder Time] {now later : Time}
  {ledger : List (Entry Key Value Label Time)}
  {change : Entry Key Value Label Time → Entry Key Value Label Time}

theorem Sound.mono (sound : Sound ledger now) (order : now ≤ later) : Sound ledger later where
  begun := fun entry among => (sound.begun entry among).trans order
  ended := fun entry among stop past => (sound.ended entry among stop past).trans order
  chained := sound.chained

/-- What ends now lasted before as long as it did. -/
theorem Ends.at_before (ends : Ends now change) {instant : Time} (passed : instant < now)
    (entry : Entry Key Value Label Time) :
    (change entry).span.At instant ↔ entry.span.At instant := by
  rcases ends.closed entry with kept | ⟨fresh, ended⟩
  · simp only [Span.At, Entry.span, ends.opened, kept]
  · simp [Span.At, Entry.span, ends.opened, fresh, ended, passed]

theorem Sound.map (sound : Sound ledger now) (ends : Ends now change) :
    Sound (ledger.map change) now where
  begun := by
    intro entry among
    obtain ⟨old, held, rfl⟩ := List.mem_map.mp among
    rw [ends.opened]
    exact sound.begun old held
  ended := by
    intro entry among stop past
    obtain ⟨old, held, rfl⟩ := List.mem_map.mp among
    rcases ends.stop past with before | rfl
    · exact sound.ended old held stop before
    · exact le_rfl
  chained := by
    apply List.pairwise_map.mpr
    apply sound.chained.imp
    intro earlier later chained same
    rw [ends.key, ends.key] at same
    obtain ⟨stop, past, order⟩ := chained same
    rw [ends.settled earlier (by rw [past]; exact Option.some_ne_none stop), ends.opened]
    exact ⟨stop, past, order⟩

/-- A new record of a key whose records are all over. -/
theorem Sound.append (sound : Sound ledger now) {entry : Entry Key Value Label Time}
    (opened : entry.opened = now) (fresh : entry.closed = none)
    (past : ∀ other ∈ ledger, other.key = entry.key → other.closed ≠ none) :
    Sound (ledger ++ [entry]) now where
  begun := by
    intro other among
    rcases List.mem_append.mp among with old | new
    · exact sound.begun other old
    · cases List.mem_singleton.mp new
      exact opened.le
  ended := by
    intro other among stop ending
    rcases List.mem_append.mp among with old | new
    · exact sound.ended other old stop ending
    · cases List.mem_singleton.mp new
      rw [fresh] at ending
      cases ending
  chained := by
    rw [List.pairwise_append]
    refine ⟨sound.chained, List.pairwise_singleton _ _, ?_⟩
    intro other held new among same
    cases List.mem_singleton.mp among
    obtain ⟨stop, ending⟩ := Option.ne_none_iff_exists'.mp (past other held same)
    exact ⟨stop, ending, opened ▸ sound.ended other held stop ending⟩

/-- Two records of one key at one place of the order: the first is over when the second begins. -/
theorem Sound.order (sound : Sound ledger now) {first second : Nat}
    {earlier later : Entry Key Value Label Time} (before : first < second)
    (one : ledger[first]? = some earlier) (other : ledger[second]? = some later)
    (same : earlier.key = later.key) : ∃ stop ∈ earlier.closed, stop ≤ later.opened := by
  obtain ⟨inside, rfl⟩ := List.getElem?_eq_some_iff.mp one
  obtain ⟨inside', rfl⟩ := List.getElem?_eq_some_iff.mp other
  exact List.pairwise_iff_getElem.mp sound.chained first second inside inside' before same

/-- At every instant a key has one record at most. -/
theorem Sound.at_most_one (sound : Sound ledger now) {instant : Time} {first second : Nat}
    {one other : Entry Key Value Label Time} (here : ledger[first]? = some one)
    (there : ledger[second]? = some other) (same : one.key = other.key)
    (lasts : one.span.At instant) (lasts' : other.span.At instant) : first = second := by
  rcases lt_trichotomy first second with before | rfl | after
  · obtain ⟨stop, past, order⟩ := sound.order before here there same
    exact absurd (order.trans lasts'.1) (not_le.mpr (lasts.2 stop past))
  · rfl
  · obtain ⟨stop, past, order⟩ := sound.order after there here same.symm
    exact absurd (order.trans lasts.1) (not_le.mpr (lasts'.2 stop past))

/-- A key has one open record at most. -/
theorem Sound.open_unique (sound : Sound ledger now) {first second : Nat}
    {one other : Entry Key Value Label Time} (here : ledger[first]? = some one)
    (there : ledger[second]? = some other) (same : one.key = other.key)
    (fresh : one.closed = none) (fresh' : other.closed = none) : first = second := by
  have lasts : one.span.At (max one.opened other.opened) :=
    ⟨le_max_left _ _, by simp [Entry.span, fresh]⟩
  have lasts' : other.span.At (max one.opened other.opened) :=
    ⟨le_max_right _ _, by simp [Entry.span, fresh']⟩
  exact sound.at_most_one here there same lasts lasts'

/-- What lasts now is what is open. -/
theorem Sound.at_iff (sound : Sound ledger now) {instant : Time} (reached : now ≤ instant)
    {entry : Entry Key Value Label Time} (among : entry ∈ ledger) :
    entry.span.At instant ↔ entry.closed = none := by
  constructor
  · intro lasts
    by_contra past
    obtain ⟨stop, ending⟩ := Option.ne_none_iff_exists'.mp past
    exact absurd ((sound.ended entry among stop ending).trans reached) (not_le.mpr (lasts.2 stop ending))
  · intro fresh
    exact ⟨(sound.begun entry among).trans reached, by simp [Entry.span, fresh]⟩

/-- The records that last at an instant have a key each. -/
theorem Sound.lasting_nodup (sound : Sound ledger now) (instant : Time) :
    ((lasting Entry.span ledger instant).map Entry.key).Nodup := by
  rw [List.Nodup, List.pairwise_map, lasting, List.pairwise_filter]
  apply sound.chained.imp
  intro earlier later chained lasts lasts' same
  obtain ⟨stop, past, order⟩ := chained same
  have lasting := (of_decide_eq_true lasts).2 stop past
  exact absurd (order.trans (of_decide_eq_true lasts').1) (not_le.mpr lasting)

/-- The open records have a key each. -/
theorem Sound.open_nodup (sound : Sound ledger now) :
    ((ledger.filter fun entry => entry.closed = none).map Entry.key).Nodup := by
  have open_now : ledger.filter (fun entry => entry.closed = none) = lasting Entry.span ledger now := by
    apply List.filter_congr
    intro entry among
    rw [decide_eq_decide, sound.at_iff le_rfl among]
  rw [open_now]
  exact sound.lasting_nodup now

end Soundness

section Changes

variable {Key Value Label Time : Type} [DecidableEq Key] [DecidableEq Value] {now : Time}
  {ledger : List (Entry Key Value Label Time)}

/-- A change ends records, and may open one for a key that no record holds any more. -/
theorem Change.apply_cases (now : Time) (ledger : List (Entry Key Value Label Time))
    (change : Change Key Value Label Time) :
    ∃ rewrite added, Ends now rewrite ∧ change.apply now ledger = ledger.map rewrite ++ added ∧
      (added = [] ∨ ∃ key value label, added = [⟨key, value, label, now, now, none⟩] ∧
        ∀ entry ∈ ledger.map rewrite, entry.key = key → entry.closed ≠ none) := by
  cases change with
  | close leaves =>
      exact ⟨_, [], ends_closeEntry now leaves, (List.append_nil _).symm, .inl rfl⟩
  | put key value label =>
      by_cases known : ledger.any (holds key value) = true
      · refine ⟨_, [], ends_refresh now key value, ?_, .inl rfl⟩
        rw [Change.apply, if_pos known, List.append_nil]
      · refine ⟨_, _, ends_refresh now key value, ?_, .inr ⟨key, value, label, rfl, ?_⟩⟩
        · rw [Change.apply, if_neg known]
        · intro entry among same fresh
          obtain ⟨old, held, rfl⟩ := List.mem_map.mp among
          have here : old.key = key := ((ends_refresh now key value).key old).symm.trans same
          have other : old.closed = none → old.value ≠ value := by
            intro still equal
            apply known
            rw [List.any_eq_true]
            exact ⟨old, held, by simp [holds, here, still, equal]⟩
          rcases (ends_refresh now key value).closed old with kept | ⟨-, ended⟩
          · rw [kept] at fresh
            have ended : (refresh now key value old).closed = some now := by
              simp [refresh, here, fresh, other fresh]
            rw [ended] at kept
            rw [← kept] at fresh
            cases fresh
          · rw [ended] at fresh
            cases fresh

/-- A record keeps its place and what it says, and once it is over it keeps everything. -/
theorem Change.apply_getElem? (now : Time) (ledger : List (Entry Key Value Label Time))
    (change : Change Key Value Label Time) {place : Nat} {entry : Entry Key Value Label Time}
    (there : ledger[place]? = some entry) :
    ∃ later, (change.apply now ledger)[place]? = some later ∧ later.said = entry.said ∧
      (entry.closed ≠ none → later = entry) := by
  obtain ⟨rewrite, added, ends, same, -⟩ := Change.apply_cases now ledger change
  refine ⟨rewrite entry, ?_, ends.said entry, ends.settled entry⟩
  have inside : place < (ledger.map rewrite).length := by
    rw [List.length_map]
    exact (List.getElem?_eq_some_iff.mp there).1
  rw [same, List.getElem?_append_left inside, List.getElem?_map, there]
  rfl

/-- What is put is what its key holds, and no other key changes. -/
theorem Change.put_open (now : Time) (ledger : List (Entry Key Value Label Time)) (key : Key)
    (value : Value) (label : Label) (entry : Entry Key Value Label Time)
    (among : entry ∈ (Change.put key value label).apply now ledger) (fresh : entry.closed = none) :
    if entry.key = key then entry.value = value ∧ entry.seen = now else entry ∈ ledger := by
  rw [Change.apply] at among
  have rewritten : ∀ entry ∈ ledger.map (refresh now key value), entry.closed = none →
      if entry.key = key then entry.value = value ∧ entry.seen = now else entry ∈ ledger := by
    intro entry among fresh
    obtain ⟨old, held, rfl⟩ := List.mem_map.mp among
    by_cases here : old.key = key ∧ old.closed.isNone = true
    · by_cases same : old.value = value
      · simp [refresh, here, same]
      · simp [refresh, here, same] at fresh
    · have kept : refresh now key value old = old := by rw [refresh, if_neg here]
      rw [kept] at fresh ⊢
      rw [if_neg fun same => here ⟨same, by simp [fresh]⟩]
      exact held
  split at among
  · exact rewritten entry among fresh
  · rcases List.mem_append.mp among with old | new
    · exact rewritten entry old fresh
    · cases List.mem_singleton.mp new
      simp

theorem Change.put_mem (now : Time) (ledger : List (Entry Key Value Label Time)) (key : Key)
    (value : Value) (label : Label) :
    ∃ entry ∈ (Change.put key value label).apply now ledger, entry.closed = none ∧
      entry.key = key ∧ entry.value = value ∧ entry.seen = now := by
  rw [Change.apply]
  split
  · rename_i known
    obtain ⟨old, held, holding⟩ := List.any_eq_true.mp known
    simp only [holds, Bool.and_eq_true, decide_eq_true_eq] at holding
    obtain ⟨⟨here, fresh⟩, same⟩ := holding
    have confirmed : refresh now key value old = { old with seen := now } := by
      simp [refresh, here, fresh, same]
    refine ⟨_, List.mem_map_of_mem held, ?_⟩
    rw [confirmed]
    exact ⟨Option.isNone_iff_eq_none.mp fresh, here, same, rfl⟩
  · exact ⟨_, List.mem_append_right _ (List.mem_singleton.mpr rfl), rfl, rfl, rfl, rfl⟩

theorem Change.put_kept (now : Time) (ledger : List (Entry Key Value Label Time)) (key : Key)
    (value : Value) (label : Label) {entry : Entry Key Value Label Time} (among : entry ∈ ledger)
    (other : entry.key ≠ key) : entry ∈ (Change.put key value label).apply now ledger := by
  have kept : refresh now key value entry = entry := by
    rw [refresh, if_neg fun here => other here.1]
  have moved : entry ∈ ledger.map (refresh now key value) :=
    List.mem_map.mpr ⟨entry, among, kept⟩
  rw [Change.apply]
  split
  · exact moved
  · exact List.mem_append_left _ moved

theorem Shows.put {present : Present Key Value Time} (agrees : Shows ledger present) (key : Key)
    (value : Value) (label : Label) :
    Shows ((Change.put key value label).apply now ledger)
      ((.put key value label : Change Key Value Label Time).replay now present) := by
  intro other held
  rw [Change.replay]
  by_cases here : other = key
  · subst here
    rw [Function.update_self, Option.some.injEq]
    constructor
    · rintro rfl
      obtain ⟨entry, among, fresh, same, values, confirmed⟩ :=
        Change.put_mem now ledger other value label
      exact ⟨entry, among, fresh, same, by rw [values, confirmed]⟩
    · rintro ⟨entry, among, fresh, same, rfl⟩
      have put := Change.put_open now ledger other value label entry among fresh
      rw [if_pos same] at put
      rw [put.1, put.2]
  · rw [Function.update_of_ne here, agrees other held]
    constructor
    · rintro ⟨entry, among, fresh, same, holding⟩
      exact ⟨entry, Change.put_kept now ledger key value label among (same ▸ here), fresh, same,
        holding⟩
    · rintro ⟨entry, among, fresh, same, holding⟩
      have put := Change.put_open now ledger key value label entry among fresh
      rw [if_neg (same ▸ here)] at put
      exact ⟨entry, put, fresh, same, holding⟩

theorem Shows.close {present : Present Key Value Time} (agrees : Shows ledger present)
    (leaves : Key → Value → Time → Bool) :
    Shows ((Change.close leaves).apply now ledger)
      ((.close leaves : Change Key Value Label Time).replay now present) := by
  intro key held
  have same : ∀ entry : Entry Key Value Label Time, (closeEntry now leaves entry).closed = none →
      closeEntry now leaves entry = entry := by
    intro entry fresh
    have ⟨_, kept⟩ := closeEntry_open.mp fresh
    simp [closeEntry, kept]
  rw [Change.replay, Option.filter_eq_some_iff, agrees key held]
  constructor
  · rintro ⟨⟨entry, among, fresh, rfl, rfl⟩, kept⟩
    have unmoved : closeEntry now leaves entry = entry :=
      same entry (closeEntry_open.mpr ⟨fresh, by simpa using kept⟩)
    exact ⟨entry, List.mem_map.mpr ⟨entry, among, unmoved⟩, fresh, rfl, rfl⟩
  · rintro ⟨later, among, fresh, rfl, rfl⟩
    obtain ⟨entry, held, rfl⟩ := List.mem_map.mp among
    obtain ⟨still, kept⟩ := closeEntry_open.mp fresh
    rw [same entry fresh]
    exact ⟨⟨entry, held, still, rfl, rfl⟩, by simpa using kept⟩

/-- The plain map goes with the ledger. -/
theorem Shows.change {present : Present Key Value Time} (agrees : Shows ledger present)
    (change : Change Key Value Label Time) :
    Shows (change.apply now ledger) (change.replay now present) := by
  cases change with
  | put key value label => exact agrees.put key value label
  | close leaves => exact agrees.close leaves

theorem Sound.change [LinearOrder Time] (sound : Sound ledger now)
    (change : Change Key Value Label Time) : Sound (change.apply now ledger) now := by
  obtain ⟨rewrite, added, ends, same, nothing | ⟨key, value, label, rfl, past⟩⟩ :=
    Change.apply_cases now ledger change
  · rw [same, nothing, List.append_nil]
    exact sound.map ends
  · rw [same]
    exact (sound.map ends).append rfl rfl past

/-- What a ledger says of an instant that has passed it always says. -/
theorem Change.apply_past [LinearOrder Time] {instant : Time} (passed : instant < now)
    (ledger : List (Entry Key Value Label Time)) (change : Change Key Value Label Time) :
    (lasting Entry.span (change.apply now ledger) instant).map Entry.said =
      (lasting Entry.span ledger instant).map Entry.said := by
  obtain ⟨rewrite, added, ends, same, opened⟩ := Change.apply_cases now ledger change
  have unborn : lasting Entry.span added instant = [] := by
    rcases opened with rfl | ⟨key, value, label, rfl, -⟩
    · rfl
    · simp [lasting, Entry.span, Span.At, passed]
  rw [same, lasting, List.filter_append, ← lasting, ← lasting, unborn, List.append_nil, lasting,
    List.filter_map, List.map_map]
  have filtered : ledger.filter ((fun entry => decide (entry.span.At instant)) ∘ rewrite) =
      lasting Entry.span ledger instant := by
    apply List.filter_congr
    intro entry _
    simp only [Function.comp_apply, ends.at_before passed]
  rw [filtered]
  apply List.map_congr_left
  intro entry _
  exact ends.said entry

end Changes

section Readings

variable {Key Value Label Time : Type} {ledger : List (Entry Key Value Label Time)}

theorem exists_said_iff {rows : List (Entry Key Value Label Time)} {key : Key} {value : Value} :
    (∃ entry ∈ rows, entry.key = key ∧ entry.value = value) ↔
      ∃ label opened, (key, value, label, opened) ∈ rows.map Entry.said := by
  constructor
  · rintro ⟨entry, among, rfl, rfl⟩
    exact ⟨entry.label, entry.opened, List.mem_map_of_mem among⟩
  · rintro ⟨label, opened, among⟩
    obtain ⟨entry, held, said⟩ := List.mem_map.mp among
    exact ⟨entry, held, congrArg Prod.fst said, congrArg (·.2.1) said⟩

variable [LinearOrder Time] {start : Time} {present : Present Key Value Time}

/-- The changes of a run come in the order of their instants, none of them before the start. -/
def Ordered (start : Time) (changes : List (Time × Change Key Value Label Time)) : Prop :=
  (start :: changes.map Prod.fst).Pairwise (· ≤ ·)

theorem ordered_cons {change : Time × Change Key Value Label Time}
    {rest : List (Time × Change Key Value Label Time)} :
    Ordered start (change :: rest) ↔ start ≤ change.1 ∧ Ordered change.1 rest := by
  unfold Ordered
  rw [List.map_cons, List.pairwise_cons]
  constructor
  · rintro ⟨first, chain⟩
    exact ⟨first _ List.mem_cons_self, chain⟩
  · rintro ⟨first, chain⟩
    refine ⟨fun instant among => ?_, chain⟩
    rcases List.mem_cons.mp among with rfl | later
    · exact first
    · exact first.trans ((List.pairwise_cons.mp chain).1 instant later)

theorem Ordered.le {changes : List (Time × Change Key Value Label Time)}
    (ordered : Ordered start changes) : ∀ change ∈ changes, start ≤ change.1 := by
  intro change among
  exact (List.pairwise_cons.mp ordered).1 _ (List.mem_map_of_mem among)

/-- An instant that no change has passed shows what the plain map holds. -/
theorem Sound.present_at {instant : Time} (sound : Sound ledger start) (agrees : Shows ledger present)
    (reached : start ≤ instant) (key : Key) (value : Value) :
    (∃ entry ∈ lasting Entry.span ledger instant, entry.key = key ∧ entry.value = value) ↔
      ∃ seen, present key = some (value, seen) := by
  constructor
  · rintro ⟨entry, among, rfl, rfl⟩
    obtain ⟨held, lasts⟩ := mem_lasting.mp among
    have fresh := (sound.at_iff reached held).mp lasts
    exact ⟨entry.seen, (agrees _ _).mpr ⟨entry, held, fresh, rfl, rfl⟩⟩
  · rintro ⟨seen, holding⟩
    obtain ⟨entry, held, fresh, rfl, same⟩ := (agrees _ _).mp holding
    have lasts := (sound.at_iff reached held).mpr fresh
    exact ⟨entry, mem_lasting.mpr ⟨held, lasts⟩, rfl, (Prod.mk.inj same).1⟩

end Readings

section Runs

variable {Key Value Label Time : Type} [DecidableEq Key]

@[simp] theorem replayAll_nil (present : Present Key Value Time) :
    replayAll present ([] : List (Time × Change Key Value Label Time)) = present := rfl

@[simp] theorem replayAll_cons (present : Present Key Value Time)
    (change : Time × Change Key Value Label Time) (rest : List (Time × Change Key Value Label Time)) :
    replayAll present (change :: rest) = replayAll (change.2.replay change.1 present) rest := rfl

variable [DecidableEq Value] {ledger : List (Entry Key Value Label Time)}

@[simp] theorem applyAll_nil (ledger : List (Entry Key Value Label Time)) :
    applyAll ledger [] = ledger := rfl

@[simp] theorem applyAll_cons (ledger : List (Entry Key Value Label Time))
    (change : Time × Change Key Value Label Time) (rest : List (Time × Change Key Value Label Time)) :
    applyAll ledger (change :: rest) = applyAll (change.2.apply change.1 ledger) rest := rfl

theorem applyAll_append (ledger : List (Entry Key Value Label Time))
    (first second : List (Time × Change Key Value Label Time)) :
    applyAll ledger (first ++ second) = applyAll (applyAll ledger first) second :=
  List.foldl_append

/-- A record keeps its place and what it says, and once it is over it keeps everything. -/
theorem applyAll_getElem? (changes : List (Time × Change Key Value Label Time)) {place : Nat}
    {entry : Entry Key Value Label Time} (there : ledger[place]? = some entry) :
    ∃ later, (applyAll ledger changes)[place]? = some later ∧ later.said = entry.said ∧
      (entry.closed ≠ none → later = entry) := by
  induction changes generalizing ledger entry with
  | nil => exact ⟨entry, there, rfl, fun _ => rfl⟩
  | cons change rest ih =>
      obtain ⟨middle, found, said, settled⟩ := change.2.apply_getElem? change.1 ledger there
      obtain ⟨later, at_end, saying, kept⟩ := ih found
      refine ⟨later, at_end, saying.trans said, fun past => ?_⟩
      have same := settled past
      rw [kept (same ▸ past), same]

theorem Shows.run {present : Present Key Value Time} (agrees : Shows ledger present)
    (changes : List (Time × Change Key Value Label Time)) :
    Shows (applyAll ledger changes) (replayAll present changes) := by
  induction changes generalizing ledger present with
  | nil => exact agrees
  | cons change rest ih => exact ih (agrees.change change.2)

variable [LinearOrder Time] {start : Time} {present : Present Key Value Time}

theorem Sound.run {changes : List (Time × Change Key Value Label Time)} (sound : Sound ledger start)
    (ordered : Ordered start changes) : ∃ last, Sound (applyAll ledger changes) last := by
  induction changes generalizing ledger start with
  | nil => exact ⟨start, sound⟩
  | cons change rest ih =>
      obtain ⟨first, later⟩ := ordered_cons.mp ordered
      exact ih ((sound.mono first).change change.2) later

theorem applyAll_past {changes : List (Time × Change Key Value Label Time)} {instant : Time}
    (passed : ∀ change ∈ changes, instant < change.1) :
    (lasting Entry.span (applyAll ledger changes) instant).map Entry.said =
      (lasting Entry.span ledger instant).map Entry.said := by
  induction changes generalizing ledger with
  | nil => rfl
  | cons change rest ih =>
      rw [applyAll_cons, ih fun later among => passed later (List.mem_cons_of_mem _ among)]
      exact change.2.apply_past (passed change List.mem_cons_self) ledger

/-- What a ledger says of an instant is what the plain map held when the changes up to that
instant had been replayed. -/
theorem applyAll_at {changes : List (Time × Change Key Value Label Time)} {instant : Time}
    (sound : Sound ledger start) (agrees : Shows ledger present) (ordered : Ordered start changes)
    (reached : start ≤ instant) (key : Key) (value : Value) :
    (∃ entry ∈ lasting Entry.span (applyAll ledger changes) instant,
        entry.key = key ∧ entry.value = value) ↔
      ∃ seen, replayAll present (changes.filter fun change => change.1 ≤ instant) key =
        some (value, seen) := by
  induction changes generalizing ledger start present with
  | nil => exact sound.present_at agrees reached key value
  | cons change rest ih =>
      obtain ⟨first, later⟩ := ordered_cons.mp ordered
      by_cases within : change.1 ≤ instant
      · rw [applyAll_cons, List.filter_cons_of_pos (by simpa using within), replayAll_cons]
        exact ih ((sound.mono first).change change.2) (agrees.change change.2) later within
      · -- nothing from here on is up to the instant
        have passed : ∀ next ∈ change :: rest, instant < next.1 := by
          intro next among
          rcases List.mem_cons.mp among with rfl | behind
          · exact not_le.mp within
          · exact (not_le.mp within).trans_le (later.le next behind)
        have none : (change :: rest).filter (fun change => change.1 ≤ instant) = [] := by
          rw [List.filter_eq_nil_iff]
          intro next among
          simpa using passed next among
        rw [none, replayAll_nil, ← sound.present_at agrees reached key value, exists_said_iff,
          exists_said_iff, applyAll_past passed]

end Runs
end Sanshain.History
