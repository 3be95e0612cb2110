import Mathlib.Tactic

namespace Sanshain.Data

variable {Key Value Other : Type}

/-- The entries of a map in insertion order. -/
abbrev Entries (Key Value : Type) := List (Key × Value)

namespace Entries

variable [DecidableEq Key]

def get? (entries : Entries Key Value) (key : Key) : Option Value :=
  (entries.find? (·.1 = key)).map Prod.snd

def keys (entries : Entries Key Value) : List Key := entries.map Prod.fst

/-- A value takes the place its key has, or the last one. -/
def insert : Entries Key Value → Key → Value → Entries Key Value
  | [], key, value => [(key, value)]
  | entry :: rest, key, value =>
      if entry.1 = key then (key, value) :: rest else entry :: insert rest key value

/-- The last entry takes the place of the removed one. -/
def swapRemove (entries : Entries Key Value) (key : Key) : Entries Key Value :=
  match entries.getLast? with
  | none => []
  | some last =>
      if last.1 = key then entries.dropLast
      else if key ∈ entries.keys then
        entries.dropLast.map fun entry => if entry.1 = key then last else entry
      else entries

def erase (entries : Entries Key Value) (key : Key) : Entries Key Value :=
  entries.filter (·.1 ≠ key)

/-- Later entries overwrite earlier ones under the same key. -/
def insertAll (entries added : Entries Key Value) : Entries Key Value :=
  added.foldl (fun held entry => held.insert entry.1 entry.2) entries

@[simp] theorem get?_nil (key : Key) : get? ([] : Entries Key Value) key = none := rfl

theorem get?_cons (entry : Key × Value) (rest : Entries Key Value) (key : Key) :
    get? (entry :: rest) key = if entry.1 = key then some entry.2 else get? rest key := by
  by_cases same : entry.1 = key <;> simp [get?, same]

theorem eq_nil_iff_get? (entries : Entries Key Value) : entries = [] ↔ ∀ key, entries.get? key = none := by
  constructor
  · intro bare key
    rw [bare, get?_nil]
  · intro absent
    cases entries with
    | nil => rfl
    | cons entry rest =>
        have held := absent entry.1
        rw [get?_cons, if_pos rfl] at held
        cases held

theorem get?_insert (entries : Entries Key Value) (key other : Key) (value : Value) :
    (entries.insert key value).get? other = if key = other then some value else entries.get? other := by
  induction entries with
  | nil => simp [insert, get?_cons]
  | cons entry rest ih =>
      obtain ⟨name, held⟩ := entry
      by_cases same : name = key
      · subst same
        by_cases here : name = other <;> simp [insert, get?_cons, here]
      · by_cases here : name = other
        · subst here
          have away : key ≠ name := fun equal => same equal.symm
          simp [insert, same, get?_cons, away]
        · simp [insert, same, get?_cons, here, ih]

theorem keys_insert (entries : Entries Key Value) (key : Key) (value : Value) :
    (entries.insert key value).keys =
      if key ∈ entries.keys then entries.keys else entries.keys ++ [key] := by
  induction entries with
  | nil => simp [insert, keys]
  | cons entry rest ih =>
      by_cases same : entry.1 = key
      · simp [insert, keys, same]
      · have away : key ≠ entry.1 := fun equal => same equal.symm
        simp only [keys] at ih
        by_cases among : key ∈ rest.map Prod.fst
        · simp [insert, keys, same, away, ih, among]
        · simp [insert, keys, same, away, ih, among]

theorem keys_insert_nodup {entries : Entries Key Value} (distinct : entries.keys.Nodup)
    (key : Key) (value : Value) : (entries.insert key value).keys.Nodup := by
  rw [keys_insert]
  split
  · exact distinct
  · rename_i fresh
    exact distinct.append (List.nodup_singleton key) (by simpa using fresh)

theorem keys_insertAll_nodup {entries : Entries Key Value} (distinct : entries.keys.Nodup)
    (added : Entries Key Value) : (entries.insertAll added).keys.Nodup := by
  induction added generalizing entries with
  | nil => exact distinct
  | cons entry rest ih => exact ih (keys_insert_nodup distinct _ _)

theorem get?_of_mem {entries : Entries Key Value} (distinct : entries.keys.Nodup)
    {entry : Key × Value} (among : entry ∈ entries) : entries.get? entry.1 = some entry.2 := by
  induction entries with
  | nil => cases among
  | cons first rest ih =>
      rw [keys, List.map_cons, List.nodup_cons] at distinct
      rcases List.mem_cons.mp among with same | later
      · simp [get?_cons, same]
      · have away : first.1 ≠ entry.1 := fun equal =>
          distinct.1 (equal ▸ List.mem_map_of_mem later)
        rw [get?_cons, if_neg away, ih distinct.2 later]

theorem mem_of_get? {entries : Entries Key Value} {key : Key} {value : Value}
    (found : entries.get? key = some value) : (key, value) ∈ entries := by
  induction entries with
  | nil => cases found
  | cons first rest ih =>
      rw [get?_cons] at found
      split at found
      · rename_i same
        cases found
        exact same ▸ List.mem_cons_self
      · exact List.mem_cons_of_mem _ (ih found)

theorem get?_isSome_iff (entries : Entries Key Value) (key : Key) :
    (entries.get? key).isSome ↔ key ∈ entries.keys := by
  induction entries with
  | nil => simp [keys]
  | cons first rest ih =>
      by_cases same : first.1 = key
      · simp [get?_cons, keys, same]
      · have away : key ≠ first.1 := fun equal => same equal.symm
        simpa [get?_cons, keys, same, away] using ih

/-- After all insertions a key holds the last value inserted under it. -/
theorem get?_insertAll (entries added : Entries Key Value) (key : Key) :
    (entries.insertAll added).get? key =
      (get? added.reverse key).or (entries.get? key) := by
  induction added generalizing entries with
  | nil => simp [insertAll]
  | cons entry rest ih =>
      have unfolded : entries.insertAll (entry :: rest) =
          (entries.insert entry.1 entry.2).insertAll rest := rfl
      have appended : ∀ (front : Entries Key Value) back,
          get? (front ++ [back]) key = (get? front key).or (get? [back] key) := by
        intro front back
        induction front with
        | nil => simp
        | cons head tail step =>
            by_cases here : head.1 = key <;> simp [get?_cons, here] at step ⊢
            simpa [get?_cons] using step
      rw [unfolded, ih, List.reverse_cons, appended, Option.or_assoc]
      by_cases same : entry.1 = key <;> simp [get?_insert, get?_cons, same]

end Entries

/-- A map that keeps its keys distinct and its entries in insertion order. -/
structure IndexMap (Key Value : Type) where
  entries : Entries Key Value
  distinct : entries.keys.Nodup

namespace IndexMap

variable [DecidableEq Key]

def empty : IndexMap Key Value := ⟨[], List.nodup_nil⟩

instance : Inhabited (IndexMap Key Value) := ⟨empty⟩

instance : EmptyCollection (IndexMap Key Value) := ⟨empty⟩

def get? (map : IndexMap Key Value) (key : Key) : Option Value := map.entries.get? key

def contains (map : IndexMap Key Value) (key : Key) : Bool := (map.get? key).isSome

def insert (map : IndexMap Key Value) (key : Key) (value : Value) : IndexMap Key Value :=
  ⟨map.entries.insert key value, Entries.keys_insert_nodup map.distinct key value⟩

/-- The map of a list of entries, where a later entry overwrites an earlier one. -/
def ofEntries (entries : Entries Key Value) : IndexMap Key Value :=
  ⟨Entries.insertAll [] entries,
    @Entries.keys_insertAll_nodup Key Value _ [] List.nodup_nil entries⟩

def isEmpty (map : IndexMap Key Value) : Bool := map.entries.isEmpty

/-- The same entries in the order of their keys. -/
def sortKeys (le : Key → Key → Bool) (map : IndexMap Key Value) : IndexMap Key Value :=
  ⟨map.entries.insertionSort fun first second => le first.1 second.1 = true,
    ((List.perm_insertionSort _ _).map Prod.fst).nodup_iff.mpr map.distinct⟩

theorem get?_of_mem {map : IndexMap Key Value} {entry : Key × Value}
    (among : entry ∈ map.entries) : map.get? entry.1 = some entry.2 :=
  Entries.get?_of_mem map.distinct among

theorem get?_ofEntries (entries : Entries Key Value) (key : Key) :
    (ofEntries entries).get? key = Entries.get? entries.reverse key := by
  rw [get?, ofEntries, Entries.get?_insertAll]
  simp

end IndexMap
end Sanshain.Data
