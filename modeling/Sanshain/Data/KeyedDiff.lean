import Mathlib.Tactic

namespace Sanshain.Data

variable {Item Key Value : Type} {key : Item → Key} {value : Item → Value}

/-- What distinguishes two lists of items by their keys: those only on the right, those only on the
left, and the keys that hold another value on the right. -/
structure KeyedDiff (key : Item → Key) (value : Item → Value) (left right added removed : List Item)
    (changed : List (Key × Value × Value)) : Prop where
  mem_added : ∀ item, item ∈ added ↔ item ∈ right ∧ key item ∉ left.map key
  mem_removed : ∀ item, item ∈ removed ↔ item ∈ left ∧ key item ∉ right.map key
  mem_changed : ∀ k a b, (k, a, b) ∈ changed ↔
    (∃ l ∈ left, key l = k ∧ value l = a) ∧ (∃ r ∈ right, key r = k ∧ value r = b) ∧ a ≠ b
  addedOnce : added.Nodup
  removedOnce : removed.Nodup
  changedOnce : changed.Nodup

/-- A change the other way. -/
def reversed (change : Key × Value × Value) : Key × Value × Value := (change.1, change.2.2, change.2.1)

/-- The values of the keys after a diff: what was removed is dropped, what changed is moved from the
one value to the other, and what was added comes on top. -/
def replay [DecidableEq Key] [DecidableEq Value] (key : Item → Key) (value : Item → Value)
    (added removed : List Item) (changed : List (Key × Value × Value)) (left : List Item) :
    List (Key × Value) :=
  (left.filter fun l => key l ∉ removed.map key).map (fun l =>
      (key l, ((changed.find? fun change => change.1 = key l ∧ change.2.1 = value l).map (·.2.2)).getD
        (value l))) ++
    added.map fun r => (key r, value r)

namespace KeyedDiff

variable {left right added removed added' removed' : List Item} {changed changed' : List (Key × Value × Value)}

/-- The diff the other way. -/
theorem symm (diff : KeyedDiff key value left right added removed changed) :
    KeyedDiff key value right left removed added (changed.map reversed) where
  mem_added := diff.mem_removed
  mem_removed := diff.mem_added
  mem_changed k a b := by
    have back : (k, a, b) ∈ changed.map reversed ↔ (k, b, a) ∈ changed := by
      rw [List.mem_map]
      constructor
      · rintro ⟨⟨k', b', a'⟩, among, same⟩
        cases same
        exact among
      · intro among
        exact ⟨(k, b, a), among, rfl⟩
    rw [back, diff.mem_changed]
    constructor
    · rintro ⟨onLeft, onRight, apart⟩
      exact ⟨onRight, onLeft, apart.symm⟩
    · rintro ⟨onRight, onLeft, apart⟩
      exact ⟨onLeft, onRight, apart.symm⟩
  addedOnce := diff.removedOnce
  removedOnce := diff.addedOnce
  changedOnce := by
    refine diff.changedOnce.map ?_
    rintro ⟨k, a, b⟩ ⟨k', a', b'⟩ same
    cases same
    rfl

/-- Two diffs of the same lists are the same, up to the order of what they list. -/
theorem unique (diff : KeyedDiff key value left right added removed changed)
    (other : KeyedDiff key value left right added' removed' changed') :
    added.Perm added' ∧ removed.Perm removed' ∧ changed.Perm changed' := by
  refine ⟨?_, ?_, ?_⟩
  · apply (List.perm_ext_iff_of_nodup diff.addedOnce other.addedOnce).mpr
    intro item
    rw [diff.mem_added, other.mem_added]
  · apply (List.perm_ext_iff_of_nodup diff.removedOnce other.removedOnce).mpr
    intro item
    rw [diff.mem_removed, other.mem_removed]
  · apply (List.perm_ext_iff_of_nodup diff.changedOnce other.changedOnce).mpr
    rintro ⟨k, a, b⟩
    rw [diff.mem_changed, other.mem_changed]

section Distinct

variable (diff : KeyedDiff key value left right added removed changed) (lefts : (left.map key).Nodup)
  (rights : (right.map key).Nodup)
include diff

theorem mem_left_of_changed {change : Key × Value × Value} (among : change ∈ changed) :
    change.1 ∈ left.map key ∧ change.1 ∈ right.map key := by
  obtain ⟨k, a, b⟩ := change
  obtain ⟨⟨l, onLeft, rfl, -⟩, ⟨r, onRight, same, -⟩, -⟩ := (diff.mem_changed k a b).mp among
  exact ⟨List.mem_map_of_mem onLeft, same ▸ List.mem_map_of_mem onRight⟩

include lefts rights in
/-- A key changes once. -/
theorem changedKeys_nodup : (changed.map Prod.fst).Nodup := by
  apply diff.changedOnce.map_on
  rintro ⟨k, a, b⟩ among ⟨k', a', b'⟩ among' same
  cases same
  obtain ⟨⟨l, onLeft, here, rfl⟩, ⟨r, onRight, there, rfl⟩, -⟩ := (diff.mem_changed _ _ _).mp among
  obtain ⟨⟨l', onLeft', here', rfl⟩, ⟨r', onRight', there', rfl⟩, -⟩ := (diff.mem_changed _ _ _).mp among'
  rw [List.inj_on_of_nodup_map lefts onLeft onLeft' (here.trans here'.symm),
    List.inj_on_of_nodup_map rights onRight onRight' (there.trans there'.symm)]

include lefts rights in
/-- No key is listed twice, in one list or in two. -/
theorem keys_nodup : (added.map key ++ removed.map key ++ changed.map Prod.fst).Nodup := by
  rw [List.nodup_append', List.nodup_append']
  refine ⟨⟨?_, ?_, ?_⟩, diff.changedKeys_nodup lefts rights, ?_⟩
  · apply diff.addedOnce.map_on
    intro one among other among' same
    exact List.inj_on_of_nodup_map rights ((diff.mem_added _).mp among).1 ((diff.mem_added _).mp among').1 same
  · apply diff.removedOnce.map_on
    intro one among other among' same
    exact List.inj_on_of_nodup_map lefts ((diff.mem_removed _).mp among).1 ((diff.mem_removed _).mp among').1 same
  · intro k onAdded onRemoved
    obtain ⟨r, among, rfl⟩ := List.mem_map.mp onAdded
    obtain ⟨l, among', same⟩ := List.mem_map.mp onRemoved
    exact ((diff.mem_added _).mp among).2 (same ▸ List.mem_map_of_mem ((diff.mem_removed _).mp among').1)
  · intro k listed onChanged
    obtain ⟨change, among, rfl⟩ := List.mem_map.mp onChanged
    obtain ⟨onLeft, onRight⟩ := diff.mem_left_of_changed among
    rcases List.mem_append.mp listed with onAdded | onRemoved
    · obtain ⟨r, among, same⟩ := List.mem_map.mp onAdded
      exact ((diff.mem_added _).mp among).2 (same ▸ onLeft)
    · obtain ⟨l, among, same⟩ := List.mem_map.mp onRemoved
      exact ((diff.mem_removed _).mp among).2 (same ▸ onRight)

variable [DecidableEq Key] [DecidableEq Value]

include rights in
/-- What a kept item is moved to is what the right side holds for its key. -/
theorem moved {l r : Item} (onLeft : l ∈ left) (onRight : r ∈ right) (same : key r = key l) :
    ((changed.find? fun change => change.1 = key l ∧ change.2.1 = value l).map (·.2.2)).getD (value l) =
      value r := by
  cases found : changed.find? fun change => change.1 = key l ∧ change.2.1 = value l with
  | some change =>
      obtain ⟨k, a, b⟩ := change
      have chosen := List.find?_some found
      simp only [decide_eq_true_eq] at chosen
      obtain ⟨rfl, rfl⟩ := chosen
      obtain ⟨-, ⟨r', onRight', there, rfl⟩, -⟩ := (diff.mem_changed _ _ _).mp (List.mem_of_find?_eq_some found)
      rw [List.inj_on_of_nodup_map rights onRight' onRight (there.trans same.symm)]
      rfl
  | none =>
      by_contra apart
      have listed : (key l, value l, value r) ∈ changed :=
        (diff.mem_changed _ _ _).mpr ⟨⟨l, onLeft, rfl, rfl⟩, ⟨r, onRight, same, rfl⟩, apart⟩
      have missed := List.find?_eq_none.mp found _ listed
      simp at missed

include lefts rights in
/-- Replaying a diff on the left gives the right. -/
theorem replay_perm :
    (replay key value added removed changed left).Perm (right.map fun r => (key r, value r)) := by
  have kept : ∀ l, (l ∈ left.filter fun l => key l ∉ removed.map key) ↔ l ∈ left ∧ key l ∈ right.map key := by
    intro l
    rw [List.mem_filter, decide_eq_true_eq]
    refine and_congr_right fun onLeft => ?_
    constructor
    · intro spared
      by_contra absent
      exact spared (List.mem_map_of_mem ((diff.mem_removed l).mpr ⟨onLeft, absent⟩))
    · intro onRight dropped
      obtain ⟨l', among, same⟩ := List.mem_map.mp dropped
      exact ((diff.mem_removed l').mp among).2 (same ▸ onRight)
  have keys : ((replay key value added removed changed left).map Prod.fst) =
      (left.filter fun l => key l ∉ removed.map key).map key ++ added.map key := by
    simp [replay, Function.comp_def]
  have once : (replay key value added removed changed left).Nodup := by
    apply List.Nodup.of_map Prod.fst
    rw [keys, List.nodup_append']
    refine ⟨lefts.sublist (List.filter_sublist.map key), ?_, ?_⟩
    · have all := diff.keys_nodup lefts rights
      rw [List.append_assoc] at all
      exact (List.nodup_append'.mp all).1
    · intro k onLeft onAdded
      obtain ⟨l, among, rfl⟩ := List.mem_map.mp onLeft
      obtain ⟨r, among', same⟩ := List.mem_map.mp onAdded
      exact ((diff.mem_added r).mp among').2 (same ▸ List.mem_map_of_mem ((kept l).mp among).1)
  have rightOnce : (right.map fun r => (key r, value r)).Nodup := by
    apply List.Nodup.of_map Prod.fst
    rw [List.map_map]
    exact rights
  apply (List.perm_ext_iff_of_nodup once rightOnce).mpr
  rintro ⟨k, v⟩
  rw [replay, List.mem_append, List.mem_map, List.mem_map, List.mem_map]
  constructor
  · rintro (⟨l, among, same⟩ | ⟨r, among, same⟩)
    · obtain ⟨onLeft, onRight⟩ := (kept l).mp among
      obtain ⟨r, onRight, there⟩ := List.mem_map.mp onRight
      rw [diff.moved rights onLeft onRight there] at same
      exact ⟨r, onRight, by rw [there]; exact same⟩
    · exact ⟨r, ((diff.mem_added r).mp among).1, same⟩
  · rintro ⟨r, onRight, same⟩
    by_cases onLeft : key r ∈ left.map key
    · obtain ⟨l, onLeft, there⟩ := List.mem_map.mp onLeft
      refine .inl ⟨l, (kept l).mpr ⟨onLeft, there ▸ List.mem_map_of_mem onRight⟩, ?_⟩
      rw [diff.moved rights onLeft onRight there.symm, there]
      exact same
    · exact .inr ⟨r, (diff.mem_added r).mpr ⟨onRight, onLeft⟩, same⟩

end Distinct
end KeyedDiff
end Sanshain.Data
