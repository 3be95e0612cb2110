import Sanshain.Effects.Serializable

namespace Sanshain.Effects

variable {Row Entry : Type}

/-- How far a transaction that has written is, from the rows that its earlier entries leave. -/
def KeepsPace (rule : Succession Row Entry) (slots : List (Slot Row)) (rows : List Row) :
    List Entry → Phase → Prop
  | [], _ => currentRows slots = rows
  | _ :: _, .close => currentRows slots = rows
  | entry :: _, .closing targets =>
      currentRows slots = rows ∧ Covers slots (rule.outdated entry) targets
  | entry :: _, .refresh => currentRows slots = rule.closeOutdated entry rows
  | entry :: _, .refreshing targets =>
      currentRows slots = rule.closeOutdated entry rows ∧ Covers slots (rule.upToDate entry) targets
  | entry :: _, .insert =>
      currentRows slots = rule.closeOutdated entry rows ∧
        ∀ row ∈ currentRows slots, rule.upToDate entry row = false

/-- A transaction that has written has done what it would have done alone; one that has not is still
in its first entry. -/
def Progress (rule : Succession Row Entry) (slots : List (Slot Row)) (self : Nat)
    (entries : List Entry) (recording : Recording Entry) : Prop :=
  ∃ done, entries = done ++ recording.entries ∧
    (Held slots self → KeepsPace rule slots (rule.recordAll (committedRows slots) done)
      recording.entries recording.phase) ∧
    (¬ Held slots self → done = [])

/-- The committed rows are those of the committed transactions one after another, and whoever has
written is alone with the rows. -/
structure Serial (rule : Succession Row Entry) (start : List Row) (transactions : List (List Entry))
    (state : Contention Row Entry) : Prop where
  committed : committedRows state.slots = rule.inOrder transactions start state.order
  exclusive : ∀ self, Held state.slots self → Exclusive state.slots self
  guarded : ∀ self, Held state.slots self → Guarded rule state.slots
  nodup : state.order.Nodup
  ended : ∀ self, self ∈ state.order ↔
    ∃ recording, state.recordings[self]? = some recording ∧ recording.ended = true
  length : state.recordings.length = transactions.length
  progress : ∀ self recording, state.recordings[self]? = some recording →
    recording.ended = false → ∃ entries, transactions[self]? = some entries ∧
      Progress rule state.slots self entries recording

section Moves

variable {rule : Succession Row Entry} {start : List Row} {transactions : List (List Entry)}
  {state : Contention Row Entry} {self : Nat} {recording next : Recording Entry}

theorem get_set_recording {recordings : List (Recording Entry)} {other : Nat}
    {found : Recording Entry} (there : (recordings.set self next)[other]? = some found) :
    other = self ∧ found = next ∨ other ≠ self ∧ recordings[other]? = some found := by
  by_cases same : self = other
  · subst same
    have within : self < recordings.length := by
      simpa using (List.getElem?_eq_some_iff.mp there).1
    rw [List.getElem?_set_self within] at there
    exact .inl ⟨rfl, (Option.some.inj there).symm⟩
  · rw [List.getElem?_set_ne same] at there
    exact .inr ⟨Ne.symm same, there⟩

theorem ended_set (running : state.recordings[self]? = some recording)
    (before : recording.ended = false) (after : next.ended = false) (other : Nat) :
    (∃ found, (state.recordings.set self next)[other]? = some found ∧ found.ended = true) ↔
      ∃ found, state.recordings[other]? = some found ∧ found.ended = true := by
  constructor
  · rintro ⟨found, there, finished⟩
    obtain ⟨-, rfl⟩ | ⟨-, kept⟩ := get_set_recording there
    · cases finished.symm.trans after
    · exact ⟨found, kept, finished⟩
  · rintro ⟨found, there, finished⟩
    have different : self ≠ other := by
      rintro rfl
      obtain rfl := Option.some.inj (running.symm.trans there)
      cases finished.symm.trans before
    exact ⟨found, (List.getElem?_set_ne different).trans there, finished⟩

/-- A step that writes nothing. -/
theorem Serial.quiet (serial : Serial rule start transactions state)
    (running : state.recordings[self]? = some recording) (before : recording.ended = false)
    (after : next.ended = false)
    (moves : ∀ entries, Progress rule state.slots self entries recording →
      Progress rule state.slots self entries next) :
    Serial rule start transactions
      { state with recordings := state.recordings.set self next } where
  committed := serial.committed
  exclusive := serial.exclusive
  guarded := serial.guarded
  nodup := serial.nodup
  ended other := (serial.ended other).trans (ended_set running before after other).symm
  length := List.length_set.trans serial.length
  progress other found there finished := by
    obtain ⟨rfl, rfl⟩ | ⟨-, kept⟩ := get_set_recording there
    · obtain ⟨entries, whole, progress⟩ := serial.progress other recording running before
      exact ⟨entries, whole, moves entries progress⟩
    · exact serial.progress other found kept finished

/-- A step of a transaction that is alone with the rows, and writes. -/
theorem Serial.writes (serial : Serial rule start transactions state)
    (running : state.recordings[self]? = some recording) (before : recording.ended = false)
    (after : next.ended = false) {slots : List (Slot Row)}
    (alone : Exclusive state.slots self) (exclusive : Exclusive slots self)
    (guarded : Guarded rule slots) (committed : committedRows slots = committedRows state.slots)
    (moves : ∀ entries, Progress rule state.slots self entries recording →
      Progress rule slots self entries next) :
    Serial rule start transactions
      { state with slots := slots, recordings := state.recordings.set self next } where
  committed := committed.trans serial.committed
  exclusive other held := by
    by_cases same : other = self
    · rw [same]
      exact exclusive
    · exact absurd held (exclusive.not_held same)
  guarded _ _ := guarded
  nodup := serial.nodup
  ended other := (serial.ended other).trans (ended_set running before after other).symm
  length := List.length_set.trans serial.length
  progress other found there finished := by
    obtain ⟨rfl, rfl⟩ | ⟨different, kept⟩ := get_set_recording there
    · obtain ⟨entries, whole, progress⟩ := serial.progress other recording running before
      exact ⟨entries, whole, moves entries progress⟩
    · -- The others have written nothing, before or after.
      obtain ⟨entries, whole, done, all, -, first⟩ := serial.progress other found kept finished
      exact ⟨entries, whole, done, all, fun held => absurd held (exclusive.not_held different),
        fun _ => first (alone.not_held different)⟩

/-- Before a transaction that has written nothing writes, the rows are the committed ones. -/
theorem Progress.rows {slots : List (Slot Row)} {entries : List Entry}
    (progress : Progress rule slots self entries recording) (exclusive : Exclusive slots self) :
    ∃ done, entries = done ++ recording.entries ∧
      (Held slots self ∧ KeepsPace rule slots (rule.recordAll (committedRows slots) done)
          recording.entries recording.phase ∨
        Unwritten slots ∧ currentRows slots = rule.recordAll (committedRows slots) done) := by
  obtain ⟨done, all, follows, first⟩ := progress
  by_cases held : Held slots self
  · exact ⟨done, all, .inl ⟨held, follows held⟩⟩
  · have untouched := Unwritten.of_exclusive exclusive held
    rw [first held] at all
    exact ⟨[], all, .inr ⟨untouched, untouched.currentRows⟩⟩

theorem Serial.oneOpen (serial : Serial rule start transactions state) (one : rule.OneOpen start) :
    rule.OneOpen (committedRows state.slots) :=
  serial.committed.symm ▸ one.inOrder transactions state.order

variable {entry : Entry} {rest : List Entry} {targets : List Nat}

theorem Serial.close_begins (serial : Serial rule start transactions state)
    (running : state.recordings[self]? = some ⟨entry :: rest, .close, false⟩) :
    Serial rule start transactions
      { state with
        recordings := state.recordings.set self ⟨entry :: rest,
          .closing (chosen self (rule.outdated entry) state.slots), false⟩ } := by
  refine serial.quiet running rfl rfl ?_
  rintro entries ⟨done, all, follows, first⟩
  exact ⟨done, all, fun held => ⟨follows held, covers_chosen (serial.exclusive self held)⟩, first⟩

theorem Serial.refresh_begins (serial : Serial rule start transactions state)
    (running : state.recordings[self]? = some ⟨entry :: rest, .refresh, false⟩) :
    Serial rule start transactions
      { state with
        recordings := state.recordings.set self ⟨entry :: rest,
          .refreshing (chosen self (rule.upToDate entry) state.slots), false⟩ } := by
  refine serial.quiet running rfl rfl ?_
  rintro entries ⟨done, all, follows, first⟩
  exact ⟨done, all, fun held => ⟨follows held, covers_chosen (serial.exclusive self held)⟩, first⟩

/-- Whoever reaches a row that meets the condition is alone with the rows, has them all in its
choice, and guards them by its change. -/
theorem Serial.reaches (serial : Serial rule start transactions state) (one : rule.OneOpen start)
    {condition : Row → Bool} {change : Row → Row}
    (opens : ∀ row, condition row = true → rule.isOpen row = true)
    (covers : Held state.slots self → Covers state.slots condition targets)
    (unlocked : locked self targets state.slots = false)
    (hit : hits self targets condition state.slots = true) :
    Exclusive state.slots self ∧ Covers state.slots condition targets ∧
      Guarded rule (state.slots.map (·.touch self condition change)) ∧
      Held (state.slots.map (·.touch self condition change)) self ∧
      ∃ row ∈ currentRows state.slots, condition row = true := by
  obtain ⟨index, among, slot, row, there, seen, met⟩ := hit_of_hits hit
  have member := List.mem_of_getElem? there
  have takes : Held (state.slots.map (·.touch self condition change)) self :=
    held_touch member seen met
  by_cases held : Held state.slots self
  · have exclusive := serial.exclusive self held
    refine ⟨exclusive, covers held, ?_, takes, row, ?_, met⟩
    · exact Guarded.touch fun slot there row committed opens =>
        .inl (serial.guarded self held slot there row committed opens)
    · exact mem_currentRows member ((Slot.visible_of_free (exclusive slot member)).symm.trans seen)
  · have untouched := untouched_of_hit held serial.guarded opens unlocked hit
    have same := untouched.currentRows
    have single : rule.OneOpen (currentRows state.slots) := same ▸ serial.oneOpen one
    have now : row ∈ currentRows state.slots :=
      mem_currentRows member ((untouched.current member).trans
        ((untouched.visible member).symm.trans seen))
    refine ⟨untouched.exclusive, covers_of_hit untouched single opens hit, ?_, takes, row, now, met⟩
    apply Guarded.touch
    intro other there' row' committed open'
    have seen' : other.visible self = some row' := (untouched.visible there').trans committed
    have now' := mem_currentRows there' ((untouched.current there').trans committed)
    obtain rfl := single.eq_of_mem now now' (opens row met) open'
    exact .inr ⟨seen', met⟩

theorem Serial.close_ends (serial : Serial rule start transactions state) (one : rule.OneOpen start)
    (running : state.recordings[self]? = some ⟨entry :: rest, .closing targets, false⟩)
    (unlocked : locked self targets state.slots = false) :
    Serial rule start transactions
      { state with
        slots := update self targets (rule.outdated entry) (rule.close entry) state.slots
        recordings := state.recordings.set self ⟨entry :: rest, .refresh, false⟩ } := by
  obtain ⟨whole, -, done', -, sees, -⟩ := serial.progress self _ running rfl
  cases hit : hits self targets (rule.outdated entry) state.slots with
  | false =>
      rw [update_eq_self hit]
      refine serial.quiet running rfl rfl ?_
      rintro entries ⟨done, all, follows, first⟩
      refine ⟨done, all, fun held => ?_, first⟩
      obtain ⟨same, covers⟩ := follows held
      have unmet := unmet_of_missed (serial.exclusive self held) covers hit
      rw [same] at unmet
      refine same.trans ((List.map_id _).symm.trans (List.map_congr_left fun row there => ?_))
      rw [unmet row there]
      rfl
  | true =>
      obtain ⟨exclusive, covers, guarded, takes, -⟩ := @Serial.reaches _ _ _ _ _ _ _ _ serial one _
        (rule.close entry) (fun row => Succession.isOpen_of_outdated) (fun held => (sees held).2)
        unlocked hit
      rw [update_eq_map exclusive covers]
      refine serial.writes running rfl rfl exclusive exclusive.touch guarded committedRows_touch ?_
      intro entries progress
      obtain ⟨done, all, state⟩ := progress.rows exclusive
      refine ⟨done, all, fun _ => ?_, fun free => absurd takes free⟩
      unfold KeepsPace
      rw [currentRows_touch exclusive, committedRows_touch]
      obtain ⟨-, same, -⟩ | ⟨-, same⟩ := state
      · rw [same]
        rfl
      · rw [same]
        rfl

theorem Serial.refresh_misses (serial : Serial rule start transactions state)
    (running : state.recordings[self]? = some ⟨entry :: rest, .refreshing targets, false⟩)
    (missed : hits self targets (rule.upToDate entry) state.slots = false) :
    Serial rule start transactions
      { state with recordings := state.recordings.set self ⟨entry :: rest, .insert, false⟩ } := by
  refine serial.quiet running rfl rfl ?_
  rintro entries ⟨done, all, follows, first⟩
  refine ⟨done, all, fun held => ?_, first⟩
  obtain ⟨same, covers⟩ := follows held
  exact ⟨same, unmet_of_missed (serial.exclusive self held) covers missed⟩

/-- An entry is done, and the transaction goes on to the next. -/
theorem Progress.advance {slots after : List (Slot Row)} {done entries : List Entry}
    (all : entries = done ++ entry :: rest) (held : Held after self)
    (committed : committedRows after = committedRows slots)
    (recorded : currentRows after = rule.record (rule.recordAll (committedRows slots) done) entry) :
    Progress rule after self entries ⟨rest, .close, false⟩ := by
  refine ⟨done ++ [entry], by rw [all, List.append_assoc]; rfl, fun _ => ?_, fun free => absurd held free⟩
  have now : currentRows after = rule.recordAll (committedRows after) (done ++ [entry]) := by
    rw [committed, Succession.recordAll_concat, recorded]
  cases rest with
  | nil => exact now
  | cons next later => exact now

theorem Serial.refresh_ends (serial : Serial rule start transactions state)
    (one : rule.OneOpen start)
    (running : state.recordings[self]? = some ⟨entry :: rest, .refreshing targets, false⟩)
    (unlocked : locked self targets state.slots = false)
    (hit : hits self targets (rule.upToDate entry) state.slots = true) :
    Serial rule start transactions
      { state with
        slots := update self targets (rule.upToDate entry) (rule.refresh entry) state.slots
        recordings := state.recordings.set self ⟨rest, .close, false⟩ } := by
  obtain ⟨whole, -, done', -, sees, -⟩ := serial.progress self _ running rfl
  obtain ⟨exclusive, covers, guarded, takes, row, there, met⟩ :=
    @Serial.reaches _ _ _ _ _ _ _ _ serial one _ (rule.refresh entry)
      (fun row => Succession.isOpen_of_upToDate) (fun held => (sees held).2) unlocked hit
  rw [update_eq_map exclusive covers]
  refine serial.writes running rfl rfl exclusive exclusive.touch guarded committedRows_touch ?_
  intro entries progress
  obtain ⟨done, all, seen⟩ := progress.rows exclusive
  refine Progress.advance all takes committedRows_touch ?_
  have closed : currentRows state.slots =
      rule.closeOutdated entry (rule.recordAll (committedRows state.slots) done) := by
    obtain ⟨-, same, -⟩ | ⟨untouched, same⟩ := seen
    · exact same
    · -- The open row records the entry, so that there is nothing to close.
      have single : rule.OneOpen (currentRows state.slots) :=
        untouched.currentRows ▸ serial.oneOpen one
      rw [← same]
      refine (Succession.closeOutdated_eq_self fun other among opens => ?_).symm
      obtain rfl := single.eq_of_mem there among (Succession.isOpen_of_upToDate met) opens
      exact (Bool.and_eq_true_iff.mp met).2
  rw [currentRows_touch exclusive]
  unfold Succession.record
  rw [← closed, if_pos (List.any_eq_true.mpr ⟨row, there, met⟩)]
  rfl

section Insert

variable {slots : List (Slot Row)}

theorem any_visible (exclusive : Exclusive slots self) (condition : Row → Bool) :
    (slots.any fun slot => (slot.visible self).any condition) = (currentRows slots).any condition := by
  rw [Bool.eq_iff_iff, List.any_eq_true, List.any_eq_true]
  constructor
  · rintro ⟨slot, there, met⟩
    obtain ⟨row, seen, met⟩ := Option.any_eq_true _ _ |>.mp met
    rw [Slot.visible_of_free (exclusive slot there)] at seen
    exact ⟨row, mem_currentRows there seen, met⟩
  · rintro ⟨row, there, met⟩
    obtain ⟨slot, among, now⟩ := List.mem_filterMap.mp there
    rw [← Slot.visible_of_free (exclusive slot among)] at now
    exact ⟨slot, among, Option.any_eq_true _ _ |>.mpr ⟨row, now, met⟩⟩

theorem currentRows_insert (exclusive : Exclusive slots self) :
    currentRows (rule.insert self entry slots) = rule.insertOrRefresh entry (currentRows slots) := by
  unfold Succession.insert Succession.insertOrRefresh
  rw [any_visible exclusive]
  split
  · exact currentRows_touch exclusive
  · exact List.filterMap_append

theorem committedRows_insert :
    committedRows (rule.insert self entry slots) = committedRows slots := by
  unfold Succession.insert
  split
  · exact committedRows_touch
  · exact List.filterMap_append.trans (List.append_nil _)

theorem exclusive_insert (exclusive : Exclusive slots self) :
    Exclusive (rule.insert self entry slots) self := by
  unfold Succession.insert
  split
  · exact exclusive.touch
  · intro slot there
    obtain old | new := List.mem_append.mp there
    · exact exclusive slot old
    · rw [List.mem_singleton.mp new]
      simp [Slot.heldByOther]

theorem held_insert : Held (rule.insert self entry slots) self := by
  unfold Succession.insert
  split
  · rename_i found
    obtain ⟨slot, there, met⟩ := List.any_eq_true.mp found
    obtain ⟨row, seen, met⟩ := Option.any_eq_true _ _ |>.mp met
    exact held_touch there seen met
  · exact ⟨_, List.mem_append_right _ (List.mem_singleton_self _), _, rfl⟩

theorem guarded_insert (exclusive : Exclusive slots self)
    (guarded : Held slots self → Guarded rule slots) :
    Guarded rule (rule.insert self entry slots) := by
  have reached : ∀ slot ∈ slots, ∀ row, slot.committed = some row → rule.isOpen row = true →
      slot.pending ≠ none ∨ slot.visible self = some row ∧ rule.isOpen row = true := by
    intro slot there row committed opens
    by_cases held : Held slots self
    · exact .inl (guarded held slot there row committed opens)
    · have untouched := Unwritten.of_exclusive exclusive held
      exact .inr ⟨(untouched.visible there).trans committed, opens⟩
  unfold Succession.insert
  split
  · exact Guarded.touch reached
  · rename_i none
    intro slot there row committed opens
    obtain old | new := List.mem_append.mp there
    · obtain written | ⟨seen, -⟩ := reached slot old row committed opens
      · exact written
      · exact absurd (List.any_eq_true.mpr
          ⟨slot, old, Option.any_eq_true _ _ |>.mpr ⟨row, seen, opens⟩⟩) none
    · rw [List.mem_singleton.mp new] at committed
      cases committed

end Insert

theorem records_of_meetsItsOwn (own : rule.MeetsItsOwn state self = true)
    (running : state.recordings[self]? = some ⟨entry :: rest, .insert, false⟩)
    (alone : (state.slots.any (·.heldByOther self)) = false) {slot : Slot Row}
    (there : slot ∈ state.slots) {row : Row} (seen : slot.visible self = some row)
    (opens : rule.isOpen row = true) : rule.records entry row = true := by
  unfold Succession.MeetsItsOwn at own
  rw [running] at own
  dsimp only at own
  rw [alone, Bool.false_or] at own
  have each := List.all_eq_true.mp own slot there
  rw [seen, Option.all_some, opens] at each
  exact each

theorem Serial.inserts (serial : Serial rule start transactions state)
    (running : state.recordings[self]? = some ⟨entry :: rest, .insert, false⟩)
    (alone : (state.slots.any (·.heldByOther self)) = false) (own : rule.MeetsItsOwn state self = true) :
    Serial rule start transactions
      { state with
        slots := rule.insert self entry state.slots
        recordings := state.recordings.set self ⟨rest, .close, false⟩ } := by
  have exclusive : Exclusive state.slots self := fun slot there =>
    Bool.eq_false_of_not_eq_true (List.any_eq_false.mp alone slot there)
  refine serial.writes running rfl rfl exclusive (exclusive_insert exclusive)
    (guarded_insert exclusive (serial.guarded self)) committedRows_insert ?_
  intro entries progress
  obtain ⟨done, all, seen⟩ := progress.rows exclusive
  refine Progress.advance all held_insert committedRows_insert ?_
  rw [currentRows_insert exclusive]
  obtain ⟨-, same, none⟩ | ⟨untouched, same⟩ := seen
  · unfold Succession.record
    rw [← same, if_neg]
    intro found
    obtain ⟨row, there, met⟩ := List.any_eq_true.mp found
    rw [none row there] at met
    cases met
  · rw [← same]
    refine Succession.insertOrRefresh_eq_record fun row there opens => ?_
    obtain ⟨slot, among, now⟩ := List.mem_filterMap.mp there
    exact records_of_meetsItsOwn own running alone among
      ((Slot.visible_of_free (exclusive slot among)).trans now) opens

section Commit

variable {slots : List (Slot Row)}

/-- The commit of a transaction that has written makes its rows the committed ones. -/
theorem settle_alone (exclusive : Exclusive slots self) :
    Unwritten (slots.map (·.settle self)) ∧
      committedRows (slots.map (·.settle self)) = currentRows slots := by
  have each : ∀ slot ∈ slots, (slot.settle self).pending = none ∧
      (slot.settle self).committed = slot.current := by
    intro slot there
    unfold Slot.settle Slot.current
    cases pending : slot.pending with
    | none => exact ⟨pending, rfl⟩
    | some written =>
        obtain rfl := Slot.holder_of_free (exclusive slot there) pending
        simp
  constructor
  · intro slot there
    obtain ⟨before, among, rfl⟩ := List.mem_map.mp there
    exact (each before among).1
  · unfold committedRows currentRows
    rw [List.filterMap_map]
    exact List.filterMap_congr fun slot there => (each slot there).2

theorem settle_free (free : ¬ Held slots self) : slots.map (·.settle self) = slots := by
  refine (List.map_congr_left fun slot there => ?_).trans (List.map_id _)
  unfold Slot.settle
  cases pending : slot.pending with
  | none => rfl
  | some written =>
      dsimp only
      rw [if_neg]
      · rfl
      · rintro rfl
        exact free ⟨slot, there, written.2, pending⟩

end Commit

theorem Serial.commits (serial : Serial rule start transactions state) {phase : Phase}
    (running : state.recordings[self]? = some ⟨[], phase, false⟩) :
    Serial rule start transactions
      { slots := state.slots.map (·.settle self)
        recordings := state.recordings.set self ⟨[], phase, true⟩
        order := state.order ++ [self] } := by
  obtain ⟨entries, whole, done, all, follows, first⟩ := serial.progress self _ running rfl
  have within : self < state.recordings.length := (List.getElem?_eq_some_iff.mp running).1
  have new : self ∉ state.order := by
    intro there
    obtain ⟨found, same, finished⟩ := (serial.ended self).mp there
    obtain rfl := Option.some.inj (running.symm.trans same)
    cases finished
  rw [List.append_nil] at all
  subst all
  -- A transaction that has written is alone, and one that has not leaves the rows as they are.
  have settled : committedRows (state.slots.map (·.settle self)) =
        rule.recordAll (committedRows state.slots) entries ∧
      (Unwritten (state.slots.map (·.settle self)) ∧ Exclusive state.slots self ∨
        state.slots.map (·.settle self) = state.slots ∧ ¬ Held state.slots self) := by
    by_cases held : Held state.slots self
    · have exclusive := serial.exclusive self held
      obtain ⟨untouched, same⟩ := settle_alone exclusive
      exact ⟨same.trans (follows held), .inl ⟨untouched, exclusive⟩⟩
    · have same := settle_free held
      refine ⟨?_, .inr ⟨same, held⟩⟩
      rw [same, first held]
      rfl
  obtain ⟨rows, alone⟩ := settled
  have held_before : ∀ other, Held (state.slots.map (·.settle self)) other →
      state.slots.map (·.settle self) = state.slots := by
    rintro other ⟨slot, there, row, pending⟩
    obtain ⟨untouched, -⟩ | ⟨same, -⟩ := alone
    · cases (untouched slot there).symm.trans pending
    · exact same
  constructor
  · rw [Succession.inOrder_concat, whole, ← serial.committed]
    exact rows
  · intro other held
    have same := held_before other held
    dsimp only at held ⊢
    rw [same] at held ⊢
    exact serial.exclusive other held
  · intro other held
    have same := held_before other held
    dsimp only at held ⊢
    rw [same] at held ⊢
    exact serial.guarded other held
  · refine List.nodup_append.mpr ⟨serial.nodup, List.nodup_singleton _, ?_⟩
    rintro other there _ last rfl
    exact new (List.mem_singleton.mp last ▸ there)
  · intro other
    rw [List.mem_append, List.mem_singleton]
    constructor
    · rintro (there | rfl)
      · obtain ⟨found, same, finished⟩ := (serial.ended other).mp there
        have different : self ≠ other := fun same => new (same ▸ there)
        exact ⟨found, (List.getElem?_set_ne different).trans same, finished⟩
      · exact ⟨_, List.getElem?_set_self within, rfl⟩
    · rintro ⟨found, there, finished⟩
      obtain ⟨rfl, -⟩ | ⟨-, kept⟩ := get_set_recording there
      · exact .inr rfl
      · exact .inl ((serial.ended other).mpr ⟨found, kept, finished⟩)
  · exact List.length_set.trans serial.length
  · intro other found there going
    obtain ⟨rfl, rfl⟩ | ⟨different, kept⟩ := get_set_recording there
    · cases going
    · obtain ⟨entries', whole', progress⟩ := serial.progress other found kept going
      refine ⟨entries', whole', ?_⟩
      obtain ⟨untouched, exclusive⟩ | ⟨same, -⟩ := alone
      · obtain ⟨done', all', -, first'⟩ := progress
        refine ⟨done', all', ?_, fun _ => first' (exclusive.not_held different)⟩
        rintro ⟨slot, there', row, pending⟩
        cases (untouched slot there').symm.trans pending
      · dsimp only
        rw [same]
        exact progress

theorem Serial.step (serial : Serial rule start transactions state) (one : rule.OneOpen start)
    (self : Nat) (own : rule.MeetsItsOwn state self = true) :
    Serial rule start transactions (rule.step state self) := by
  unfold Succession.step
  split
  · exact serial
  · exact serial
  · rename_i phase running
    exact serial.commits running
  · rename_i entry rest running
    exact serial.close_begins running
  · rename_i entry rest targets running
    split
    · exact serial
    · rename_i unlocked
      exact serial.close_ends one running (Bool.eq_false_of_not_eq_true unlocked)
  · rename_i entry rest running
    exact serial.refresh_begins running
  · rename_i entry rest targets running
    split
    · exact serial
    · rename_i unlocked
      split
      · rename_i hit
        exact serial.refresh_ends one running (Bool.eq_false_of_not_eq_true unlocked) hit
      · rename_i missed
        exact serial.refresh_misses running (Bool.eq_false_of_not_eq_true missed)
  · rename_i entry rest running
    split
    · exact serial
    · rename_i alone
      exact serial.inserts running (Bool.eq_false_of_not_eq_true alone) own

theorem Serial.run (serial : Serial rule start transactions state) (one : rule.OneOpen start)
    {schedule : List Nat} (own : EveryStep rule.step (fun state self => rule.MeetsItsOwn state self = true) state schedule) :
    Serial rule start transactions (runSteps rule.step state schedule) := by
  induction schedule generalizing state with
  | nil => exact serial
  | cons self rest ih => exact ih (serial.step one self own.1) own.2

theorem serial_opened (rows : List Row) (transactions : List (List Entry)) :
    Serial rule rows transactions (Contention.opened rows transactions) := by
  have free : ∀ self, ¬ Held (Contention.opened rows transactions).slots self := by
    rintro self ⟨slot, there, row, pending⟩
    obtain ⟨before, -, rfl⟩ := List.mem_map.mp there
    cases pending
  constructor
  · change committedRows (rows.map _) = rows
    unfold committedRows
    rw [List.filterMap_map]
    exact List.filterMap_some
  · exact fun self held => absurd held (free self)
  · exact fun self held => absurd held (free self)
  · exact List.nodup_nil
  · intro self
    refine ⟨fun there => absurd there List.not_mem_nil, ?_⟩
    rintro ⟨found, there, finished⟩
    obtain ⟨entries, -, rfl⟩ := List.mem_map.mp (List.mem_of_getElem? there)
    cases finished
  · exact List.length_map _
  · intro self recording there _
    have there' : (transactions.map fun entries =>
        (⟨entries, .close, false⟩ : Recording Entry))[self]? = some recording := there
    rw [List.getElem?_map] at there'
    obtain ⟨entries, found, rfl⟩ := Option.map_eq_some_iff.mp there'
    exact ⟨entries, found, [], rfl, fun held => absurd held (free self), fun _ => rfl⟩

/-- Transactions of which no insert meets the open row of another entry are as good as one after
another, in the order of their commits, and what they were to record is recorded. -/
theorem serializable (one : rule.OneOpen start) {schedule : List Nat}
    (own : EveryStep rule.step (fun state self => rule.MeetsItsOwn state self = true)
      (Contention.opened start transactions) schedule)
    (complete : (runSteps rule.step (Contention.opened start transactions) schedule).Complete) :
    (∃ order, order.Perm (List.range transactions.length) ∧
        (runSteps rule.step (Contention.opened start transactions) schedule).rows =
          rule.inOrder transactions start order) ∧
      ∀ entries ∈ transactions, ∀ entry ∈ entries,
        ∃ row ∈ (runSteps rule.step (Contention.opened start transactions) schedule).rows,
          rule.records entry row = true := by
  have serial := (serial_opened start transactions).run one own
  have ran : ∀ index, index < transactions.length →
      index ∈ (runSteps rule.step (Contention.opened start transactions) schedule).order := by
    intro index within
    rw [← serial.length] at within
    exact (serial.ended index).mpr ⟨_, List.getElem?_eq_getElem within,
      complete _ (List.getElem_mem within)⟩
  have known : ∀ index,
      index ∈ (runSteps rule.step (Contention.opened start transactions) schedule).order →
        index < transactions.length := by
    intro index there
    obtain ⟨recording, found, -⟩ := (serial.ended index).mp there
    exact serial.length ▸ (List.getElem?_eq_some_iff.mp found).1
  refine ⟨⟨_, ?_, serial.committed⟩, ?_⟩
  · refine (List.perm_ext_iff_of_nodup serial.nodup List.nodup_range).mpr fun index => ?_
    exact ⟨fun there => List.mem_range.mpr (known index there),
      fun within => ran index (List.mem_range.mp within)⟩
  · intro entries among entry there
    obtain ⟨index, found⟩ := List.mem_iff_getElem?.mp among
    have within := (List.getElem?_eq_some_iff.mp found).1
    obtain ⟨row, held, records⟩ :=
      Succession.inOrder_records transactions start (ran index within) found there
    refine ⟨row, ?_, records⟩
    have rows : (runSteps rule.step (Contention.opened start transactions) schedule).rows = _ :=
      serial.committed
    rw [rows]
    exact held

end Moves

end Sanshain.Effects
