import Sanshain.Effects.ReadCommitted

namespace Sanshain.Effects

variable {Row Entry : Type}

section Slots

variable {self : Nat} {condition : Row → Bool} {change : Row → Row} {slots : List (Slot Row)}

/-- A transaction has written a row. -/
def Held (slots : List (Slot Row)) (self : Nat) : Prop :=
  ∃ slot ∈ slots, ∃ row, slot.pending = some (self, row)

/-- No other transaction has written a row. -/
def Exclusive (slots : List (Slot Row)) (self : Nat) : Prop :=
  ∀ slot ∈ slots, slot.heldByOther self = false

def currentRows (slots : List (Slot Row)) : List Row := slots.filterMap (·.current)

def committedRows (slots : List (Slot Row)) : List Row := slots.filterMap (·.committed)

/-- The choice of a statement has every row that meets the condition now. -/
def Covers (slots : List (Slot Row)) (condition : Row → Bool) (targets : List Nat) : Prop :=
  ∀ index slot row, slots[index]? = some slot → slot.current = some row → condition row = true →
    index ∈ targets

theorem Slot.holder_of_free {slot : Slot Row} {holder : Nat} {row : Row}
    (free : slot.heldByOther self = false) (pending : slot.pending = some (holder, row)) :
    holder = self := by
  unfold heldByOther at free
  rw [pending] at free
  simpa using free

theorem Slot.visible_of_free {slot : Slot Row} (free : slot.heldByOther self = false) :
    slot.visible self = slot.current := by
  unfold visible current
  split
  · rename_i holder row pending
    rw [if_pos (holder_of_free free pending)]
  · rfl

theorem Slot.touch_committed (slot : Slot Row) :
    (slot.touch self condition change).committed = slot.committed := by
  unfold touch
  split
  · split <;> rfl
  · rfl

theorem Slot.touch_current {slot : Slot Row} (free : slot.heldByOther self = false) :
    (slot.touch self condition change).current =
      slot.current.map fun row => if condition row then change row else row := by
  unfold touch
  rw [visible_of_free free]
  cases now : slot.current with
  | none => exact now
  | some row =>
      dsimp only
      split
      · rename_i met
        simp [current, met]
      · rename_i unmet
        simp [now, unmet]

theorem Slot.touch_pending {slot : Slot Row} :
    (slot.touch self condition change).pending = slot.pending ∨
      ∃ row, slot.visible self = some row ∧ condition row = true ∧
        (slot.touch self condition change).pending = some (self, change row) := by
  unfold touch
  split
  · rename_i row seen
    split
    · rename_i met
      exact .inr ⟨row, seen, met, rfl⟩
    · exact .inl rfl
  · exact .inl rfl

theorem Slot.touch_of_unmet {slot : Slot Row}
    (unmet : ∀ row, slot.visible self = some row → condition row = false) :
    slot.touch self condition change = slot := by
  unfold touch
  split
  · rename_i row seen
    rw [unmet row seen]
    rfl
  · rfl

/-- An update whose choice has every row that meets the condition is a change of all rows. -/
theorem update_eq_map {targets : List Nat} (exclusive : Exclusive slots self)
    (covers : Covers slots condition targets) :
    update self targets condition change slots = slots.map (·.touch self condition change) := by
  unfold update
  apply List.ext_getElem
  · simp
  · intro index within _
    simp only [List.length_mapIdx] at within
    simp only [List.getElem_mapIdx, List.getElem_map]
    split
    · rfl
    · rename_i outside
      have free := exclusive _ (List.getElem_mem within)
      refine (Slot.touch_of_unmet fun row seen => ?_).symm
      by_contra met
      rw [Slot.visible_of_free free] at seen
      exact outside (covers index _ row (List.getElem?_eq_getElem within) seen
        (Bool.eq_true_of_not_eq_false met))

/-- An update that hits no row changes nothing. -/
theorem update_eq_self {targets : List Nat} (missed : hits self targets condition slots = false) :
    update self targets condition change slots = slots := by
  unfold update
  apply List.ext_getElem
  · simp
  · intro index within _
    simp only [List.length_mapIdx] at within
    simp only [List.getElem_mapIdx]
    split
    · rename_i among
      refine Slot.touch_of_unmet fun row seen => ?_
      have unmet := (List.any_eq_false.mp missed) index among
      rw [List.getElem?_eq_getElem within] at unmet
      simpa [seen] using unmet
    · rfl

theorem currentRows_touch (exclusive : Exclusive slots self) :
    currentRows (slots.map (·.touch self condition change)) =
      (currentRows slots).map fun row => if condition row then change row else row := by
  unfold currentRows
  rw [List.filterMap_map, List.map_filterMap]
  exact List.filterMap_congr fun slot there => Slot.touch_current (exclusive slot there)

theorem committedRows_touch :
    committedRows (slots.map (·.touch self condition change)) = committedRows slots := by
  unfold committedRows
  rw [List.filterMap_map]
  exact List.filterMap_congr fun slot _ => Slot.touch_committed slot

end Slots

namespace Succession

variable (rule : Succession Row Entry)

/-- At most one row is open, as the unique index has it. -/
def OneOpen (rows : List Row) : Prop :=
  rows.Pairwise fun first second => ¬ (rule.isOpen first = true ∧ rule.isOpen second = true)

variable {rule} {rows : List Row} {entry : Entry}

theorem isOpen_of_outdated {row : Row} (met : rule.outdated entry row = true) :
    rule.isOpen row = true := (Bool.and_eq_true_iff.mp met).1

theorem isOpen_of_upToDate {row : Row} (met : rule.upToDate entry row = true) :
    rule.isOpen row = true := (Bool.and_eq_true_iff.mp met).1

theorem OneOpen.eq_of_get (one : rule.OneOpen rows) {first second : Nat} {row other : Row}
    (there : rows[first]? = some row) (and : rows[second]? = some other)
    (opens : rule.isOpen row = true) (too : rule.isOpen other = true) : first = second := by
  obtain ⟨within, rfl⟩ := List.getElem?_eq_some_iff.mp there
  obtain ⟨inside, rfl⟩ := List.getElem?_eq_some_iff.mp and
  by_contra different
  obtain less | greater := Nat.lt_or_gt_of_ne different
  · exact List.pairwise_iff_getElem.mp one _ _ within inside less ⟨opens, too⟩
  · exact List.pairwise_iff_getElem.mp one _ _ inside within greater ⟨too, opens⟩

/-- Where a row is open, every other is closed. -/
theorem OneOpen.eq_of_mem (one : rule.OneOpen rows) {row other : Row} (there : row ∈ rows)
    (and : other ∈ rows) (opens : rule.isOpen row = true) (too : rule.isOpen other = true) :
    row = other := by
  obtain ⟨first, here⟩ := List.mem_iff_getElem?.mp there
  obtain ⟨second, found⟩ := List.mem_iff_getElem?.mp and
  obtain rfl := one.eq_of_get here found opens too
  exact Option.some.inj (here.symm.trans found)

theorem OneOpen.map (one : rule.OneOpen rows) (change : Row → Row)
    (kept : ∀ row, rule.isOpen (change row) = true → rule.isOpen row = true) :
    rule.OneOpen (rows.map change) :=
  List.pairwise_map.mpr (one.imp fun apart both => apart ⟨kept _ both.1, kept _ both.2⟩)

theorem isOpen_closed {row : Row}
    (opens : rule.isOpen (if rule.outdated entry row then rule.close entry row else row) = true) :
    rule.outdated entry row = false ∧ rule.isOpen row = true := by
  split at opens
  · rw [rule.isOpen_close] at opens
    cases opens
  · rename_i kept
    exact ⟨Bool.eq_false_of_not_eq_true kept, opens⟩

theorem isOpen_refreshed {row : Row} {condition : Row → Bool}
    (opens : rule.isOpen (if condition row then rule.refresh entry row else row) = true) :
    rule.isOpen row = true := by
  split at opens
  · rwa [rule.isOpen_refresh] at opens
  · exact opens

theorem OneOpen.record (one : rule.OneOpen rows) (entry : Entry) :
    rule.OneOpen (rule.record rows entry) := by
  have closed : rule.OneOpen (rule.closeOutdated entry rows) :=
    one.map _ fun row opens => (isOpen_closed opens).2
  unfold Succession.record
  split
  · exact closed.map _ fun row => isOpen_refreshed
  · unfold insertOrRefresh
    split
    · exact closed.map _ fun row => isOpen_refreshed
    · rename_i none
      refine List.pairwise_append.mpr ⟨closed, List.pairwise_singleton _ _, ?_⟩
      intro row there _ _ both
      exact none (List.any_eq_true.mpr ⟨row, there, both.1⟩)

theorem OneOpen.recordAll (one : rule.OneOpen rows) (entries : List Entry) :
    rule.OneOpen (rule.recordAll rows entries) := by
  induction entries generalizing rows with
  | nil => exact one
  | cons entry rest ih => exact ih (one.record entry)

theorem OneOpen.inOrder (one : rule.OneOpen rows) (transactions : List (List Entry))
    (order : List Nat) : rule.OneOpen (rule.inOrder transactions rows order) := by
  induction order generalizing rows with
  | nil => exact one
  | cons index rest ih => exact ih (one.recordAll _)

/-- Once the outdated row is closed, an open row is one that records the entry. -/
theorem upToDate_of_closed {row : Row} (there : row ∈ rule.closeOutdated entry rows)
    (opens : rule.isOpen row = true) : rule.upToDate entry row = true := by
  obtain ⟨before, -, rfl⟩ := List.mem_map.mp there
  obtain ⟨kept, opened⟩ := isOpen_closed opens
  rw [kept]
  unfold upToDate
  unfold outdated at kept
  simp only [opened, Bool.true_and, Bool.not_eq_false'] at kept
  simp [opened, kept]

/-- Where every open row records the entry, there is nothing to close. -/
theorem closeOutdated_eq_self
    (own : ∀ row ∈ rows, rule.isOpen row = true → rule.records entry row = true) :
    rule.closeOutdated entry rows = rows := by
  unfold closeOutdated
  refine (List.map_congr_left fun row there => if_neg ?_).trans (List.map_id _)
  intro met
  obtain ⟨opens, other⟩ := Bool.and_eq_true_iff.mp met
  rw [own row there opens] at other
  cases other

/-- Where every open row records the entry, the arm of the conflict does what the refresh does. -/
theorem insertOrRefresh_eq_record
    (own : ∀ row ∈ rows, rule.isOpen row = true → rule.records entry row = true) :
    rule.insertOrRefresh entry rows = rule.record rows entry := by
  unfold record
  rw [closeOutdated_eq_self own]
  split
  · rename_i found
    obtain ⟨row, there, met⟩ := List.any_eq_true.mp found
    unfold insertOrRefresh refreshUpToDate
    rw [if_pos (List.any_eq_true.mpr ⟨row, there, isOpen_of_upToDate met⟩)]
    refine List.map_congr_left fun other among => ?_
    unfold upToDate
    cases opens : rule.isOpen other with
    | false => rfl
    | true => rw [own other among opens]; rfl
  · rfl

theorem recordAll_append (rows : List Row) (first second : List Entry) :
    rule.recordAll rows (first ++ second) = rule.recordAll (rule.recordAll rows first) second :=
  List.foldl_append

theorem recordAll_concat (rows : List Row) (entries : List Entry) (entry : Entry) :
    rule.recordAll rows (entries ++ [entry]) = rule.record (rule.recordAll rows entries) entry :=
  recordAll_append rows entries [entry]

theorem inOrder_concat (transactions : List (List Entry)) (rows : List Row) (order : List Nat)
    (index : Nat) :
    rule.inOrder transactions rows (order ++ [index]) =
      rule.recordAll (rule.inOrder transactions rows order) ((transactions[index]?).getD []) :=
  List.foldl_append

/-- What is recorded stays so. -/
theorem recorded_record {other : Entry} (recorded : ∃ row ∈ rows, rule.records other row = true)
    (entry : Entry) : ∃ row ∈ rule.record rows entry, rule.records other row = true := by
  have mapped : ∀ (before : List Row) (condition : Row → Bool) (change : Row → Row),
      (∀ row, rule.records other (change row) = rule.records other row) →
      (∃ row ∈ before, rule.records other row = true) →
      ∃ row ∈ before.map fun row => if condition row then change row else row,
        rule.records other row = true := by
    rintro before condition change same ⟨row, there, kept⟩
    refine ⟨_, List.mem_map_of_mem there, ?_⟩
    split
    · rw [same, kept]
    · exact kept
  have closed := mapped rows (rule.outdated entry) (rule.close entry)
    (fun row => rule.records_close other entry row) recorded
  unfold record
  split
  · exact mapped _ _ _ (fun row => rule.records_refresh other entry row) closed
  · unfold insertOrRefresh
    split
    · exact mapped _ _ _ (fun row => rule.records_refresh other entry row) closed
    · obtain ⟨row, there, kept⟩ := closed
      exact ⟨row, List.mem_append_left _ there, kept⟩

theorem recorded_recordAll {other : Entry} (recorded : ∃ row ∈ rows, rule.records other row = true)
    (entries : List Entry) :
    ∃ row ∈ rule.recordAll rows entries, rule.records other row = true := by
  induction entries generalizing rows with
  | nil => exact recorded
  | cons entry rest ih => exact ih (recorded_record recorded entry)

/-- An entry is recorded by its own transaction. -/
theorem record_records (rows : List Row) (entry : Entry) :
    ∃ row ∈ rule.record rows entry, rule.records entry row = true := by
  unfold record
  split
  · rename_i found
    obtain ⟨row, there, met⟩ := List.any_eq_true.mp found
    refine ⟨_, List.mem_map_of_mem there, ?_⟩
    rw [if_pos met, rule.records_refresh]
    exact (Bool.and_eq_true_iff.mp met).2
  · rename_i missing
    unfold insertOrRefresh
    split
    · rename_i found
      obtain ⟨row, there, opens⟩ := List.any_eq_true.mp found
      exact absurd (List.any_eq_true.mpr ⟨row, there, upToDate_of_closed there opens⟩) missing
    · exact ⟨_, List.mem_append_right _ (List.mem_singleton_self _), rule.records_fresh entry⟩

theorem recordAll_records (rows : List Row) {entries : List Entry} (there : entry ∈ entries) :
    ∃ row ∈ rule.recordAll rows entries, rule.records entry row = true := by
  induction entries generalizing rows with
  | nil => cases there
  | cons first rest ih =>
      obtain rfl | later := List.mem_cons.mp there
      · exact recorded_recordAll (record_records rows entry) rest
      · exact ih (rule.record rows first) later

theorem inOrder_records (transactions : List (List Entry)) (rows : List Row) {order : List Nat}
    {index : Nat} {entries : List Entry} (ran : index ∈ order)
    (found : transactions[index]? = some entries) (there : entry ∈ entries) :
    ∃ row ∈ rule.inOrder transactions rows order, rule.records entry row = true := by
  have kept : ∀ (rest : List Nat) (before : List Row),
      (∃ row ∈ before, rule.records entry row = true) →
      ∃ row ∈ rule.inOrder transactions before rest, rule.records entry row = true := by
    intro rest
    induction rest with
    | nil => exact fun _ recorded => recorded
    | cons next rest ih => exact fun before recorded => ih _ (recorded_recordAll recorded _)
  induction order generalizing rows with
  | nil => cases ran
  | cons next rest ih =>
      obtain rfl | later := List.mem_cons.mp ran
      · refine kept rest _ ?_
        dsimp only
        rw [found]
        exact recordAll_records rows there
      · exact ih _ later

end Succession

section Writers

variable {rule : Succession Row Entry} {self : Nat} {condition : Row → Bool} {change : Row → Row}
  {slots : List (Slot Row)}

/-- Nobody has written a row. -/
def Unwritten (slots : List (Slot Row)) : Prop := ∀ slot ∈ slots, slot.pending = none

/-- Every row that was open is written, so that nobody else can get at it. -/
def Guarded (rule : Succession Row Entry) (slots : List (Slot Row)) : Prop :=
  ∀ slot ∈ slots, ∀ row, slot.committed = some row → rule.isOpen row = true → slot.pending ≠ none

theorem Unwritten.current (untouched : Unwritten slots) {slot : Slot Row} (there : slot ∈ slots) :
    slot.current = slot.committed := by
  unfold Slot.current
  rw [untouched slot there]

theorem Unwritten.visible (untouched : Unwritten slots) {slot : Slot Row} (there : slot ∈ slots) :
    slot.visible self = slot.committed := by
  unfold Slot.visible
  rw [untouched slot there]

theorem Unwritten.currentRows (untouched : Unwritten slots) :
    currentRows slots = committedRows slots :=
  List.filterMap_congr fun _ there => untouched.current there

theorem Unwritten.exclusive (untouched : Unwritten slots) : Exclusive slots self := by
  intro slot there
  unfold Slot.heldByOther
  rw [untouched slot there]

theorem Unwritten.of_exclusive (exclusive : Exclusive slots self) (free : ¬ Held slots self) :
    Unwritten slots := by
  intro slot there
  cases pending : slot.pending with
  | none => rfl
  | some written =>
      obtain ⟨holder, row⟩ := written
      obtain rfl := Slot.holder_of_free (exclusive slot there) pending
      exact absurd ⟨slot, there, row, pending⟩ free

theorem Exclusive.not_held (exclusive : Exclusive slots self) {other : Nat} (different : other ≠ self) :
    ¬ Held slots other := by
  rintro ⟨slot, there, row, pending⟩
  exact different (Slot.holder_of_free (exclusive slot there) pending)

theorem Exclusive.touch (exclusive : Exclusive slots self) :
    Exclusive (slots.map (·.touch self condition change)) self := by
  intro slot there
  obtain ⟨before, held, rfl⟩ := List.mem_map.mp there
  obtain same | ⟨row, -, -, pending⟩ := @Slot.touch_pending _ self condition change before
  · have free := exclusive before held
    unfold Slot.heldByOther at free ⊢
    rwa [same]
  · unfold Slot.heldByOther
    rw [pending]
    simp

theorem held_touch {slot : Slot Row} {row : Row} (there : slot ∈ slots)
    (seen : slot.visible self = some row) (met : condition row = true) :
    Held (slots.map (·.touch self condition change)) self := by
  refine ⟨_, List.mem_map_of_mem there, change row, ?_⟩
  unfold Slot.touch
  rw [seen]
  dsimp only
  rw [if_pos met]

theorem Guarded.touch
    (reached : ∀ slot ∈ slots, ∀ row, slot.committed = some row → rule.isOpen row = true →
      slot.pending ≠ none ∨ slot.visible self = some row ∧ condition row = true) :
    Guarded rule (slots.map (·.touch self condition change)) := by
  intro slot there row committed opens
  obtain ⟨before, held, rfl⟩ := List.mem_map.mp there
  rw [Slot.touch_committed] at committed
  obtain written | ⟨seen, met⟩ := reached before held row committed opens
  · obtain same | ⟨other, -, -, pending⟩ := @Slot.touch_pending _ self condition change before
    · rwa [same]
    · rw [pending]
      exact Option.some_ne_none _
  · unfold Slot.touch
    rw [seen]
    dsimp only
    rw [if_pos met]
    exact Option.some_ne_none _

theorem mem_currentRows {slot : Slot Row} {row : Row} (there : slot ∈ slots)
    (now : slot.current = some row) : row ∈ currentRows slots :=
  List.mem_filterMap.mpr ⟨slot, there, now⟩

/-- The choice of a statement that begins has every row that it sees. -/
theorem covers_chosen (exclusive : Exclusive slots self) :
    Covers slots condition (chosen self condition slots) := by
  intro index slot row there now met
  obtain ⟨within, -⟩ := List.getElem?_eq_some_iff.mp there
  refine List.mem_filter.mpr ⟨List.mem_range.mpr within, ?_⟩
  rw [there, Option.any_some, Slot.visible_of_free (exclusive slot (List.mem_of_getElem? there)), now]
  exact met

theorem unmet_of_missed {targets : List Nat} (exclusive : Exclusive slots self)
    (covers : Covers slots condition targets) (missed : hits self targets condition slots = false) :
    ∀ row ∈ currentRows slots, condition row = false := by
  intro row there
  obtain ⟨slot, among, now⟩ := List.mem_filterMap.mp there
  obtain ⟨index, found⟩ := List.mem_iff_getElem?.mp among
  by_contra met
  have chosen := covers index slot row found now (Bool.eq_true_of_not_eq_false met)
  have unmet := (List.any_eq_false.mp missed) index chosen
  rw [found, Option.any_some, Slot.visible_of_free (exclusive slot among), now] at unmet
  exact unmet (Bool.eq_true_of_not_eq_false met)

theorem hit_of_hits {targets : List Nat} (hit : hits self targets condition slots = true) :
    ∃ index ∈ targets, ∃ slot row, slots[index]? = some slot ∧ slot.visible self = some row ∧
      condition row = true := by
  obtain ⟨index, among, found⟩ := List.any_eq_true.mp hit
  obtain ⟨slot, there, seen⟩ := Option.any_eq_true _ _ |>.mp found
  obtain ⟨row, visible, met⟩ := Option.any_eq_true _ _ |>.mp seen
  exact ⟨index, among, slot, row, there, visible, met⟩

/-- A transaction that has written nothing, and reaches an open row that nobody else has written, is
alone with the rows. -/
theorem untouched_of_hit {targets : List Nat} (free : ¬ Held slots self)
    (guarded : ∀ other, Held slots other → Guarded rule slots)
    (opens : ∀ row, condition row = true → rule.isOpen row = true)
    (unlocked : locked self targets slots = false)
    (hit : hits self targets condition slots = true) : Unwritten slots := by
  obtain ⟨index, among, slot, row, there, seen, met⟩ := hit_of_hits hit
  have unheld : slot.heldByOther self = false := by
    have := (List.any_eq_false.mp unlocked) index among
    rw [there] at this
    exact Bool.eq_false_of_not_eq_true this
  have held := List.mem_of_getElem? there
  have clean : slot.pending = none := by
    cases pending : slot.pending with
    | none => rfl
    | some written =>
        obtain rfl := Slot.holder_of_free unheld pending
        exact absurd ⟨slot, held, written.2, pending⟩ free
  have committed : slot.committed = some row := by
    unfold Slot.visible at seen
    rwa [clean] at seen
  intro other there'
  cases pending : other.pending with
  | none => rfl
  | some written =>
      have held' : Held slots written.1 := ⟨other, there', written.2, pending⟩
      exact absurd clean (guarded _ held' slot held row committed (opens row met))

/-- Of one open row, the choice that has it has all. -/
theorem covers_of_hit {targets : List Nat} (untouched : Unwritten slots)
    (one : rule.OneOpen (currentRows slots))
    (opens : ∀ row, condition row = true → rule.isOpen row = true)
    (hit : hits self targets condition slots = true) : Covers slots condition targets := by
  obtain ⟨index, among, slot, row, there, seen, met⟩ := hit_of_hits hit
  have now : slot.current = some row :=
    (untouched.current (List.mem_of_getElem? there)).trans
      ((untouched.visible (List.mem_of_getElem? there)).symm.trans seen)
  intro other slot' row' there' now' met'
  by_contra outside
  have different : index ≠ other := fun same => outside (same ▸ among)
  have apart := List.pairwise_filterMap.mp one
  obtain ⟨within, rfl⟩ := List.getElem?_eq_some_iff.mp there
  obtain ⟨inside, rfl⟩ := List.getElem?_eq_some_iff.mp there'
  obtain less | greater := Nat.lt_or_gt_of_ne different
  · exact List.pairwise_iff_getElem.mp apart _ _ within inside less row now row' now'
      ⟨opens row met, opens row' met'⟩
  · exact List.pairwise_iff_getElem.mp apart _ _ inside within greater row' now' row now
      ⟨opens row' met', opens row met⟩

end Writers

end Sanshain.Effects
