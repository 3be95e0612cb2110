import Sanshain.History.Ledger

namespace Sanshain.History

variable {Key Value Label Time : Type}

/-- What a record says without its instants: key, value, label, and whether it is open. -/
abbrev Bare (Key Value Label : Type) := Key × Value × Label × Bool

def Entry.bare (entry : Entry Key Value Label Time) : Bare Key Value Label :=
  (entry.key, entry.value, entry.label, entry.closed.isNone)

variable [DecidableEq Key] [DecidableEq Value]

def bareRefresh (key : Key) (value : Value) (row : Bare Key Value Label) : Bare Key Value Label :=
  if row.1 = key ∧ row.2.2.2 = true ∧ row.2.1 ≠ value then (row.1, row.2.1, row.2.2.1, false) else row

def bareHolds (key : Key) (value : Value) (row : Bare Key Value Label) : Bool :=
  decide (row.1 = key) && row.2.2.2 && decide (row.2.1 = value)

/-- A put as far as it does not depend on its instant. -/
def putBare (rows : List (Bare Key Value Label)) (put : Key × Value × Label) :
    List (Bare Key Value Label) :=
  if rows.any (bareHolds put.1 put.2.1) then rows.map (bareRefresh put.1 put.2.1)
  else rows.map (bareRefresh put.1 put.2.1) ++ [(put.1, put.2.1, put.2.2, true)]

section Forgetting

variable {now : Time} {key : Key} {value : Value} {label : Label}

theorem bare_refresh (entry : Entry Key Value Label Time) :
    (refresh now key value entry).bare = bareRefresh key value entry.bare := by
  unfold refresh bareRefresh Entry.bare
  by_cases here : entry.key = key ∧ entry.closed.isNone = true
  · obtain ⟨same, opened⟩ := here
    by_cases confirmed : entry.value = value
    · simp [same, opened, confirmed]
    · simp [same, opened, confirmed]
  · have other : ¬(entry.key = key ∧ entry.closed.isNone = true ∧ entry.value ≠ value) :=
      fun there => here ⟨there.1, there.2.1⟩
    simp only [if_neg here, if_neg other]

/-- What a put does to the records apart from instants depends on nothing else of them. -/
theorem bare_put (ledger : List (Entry Key Value Label Time)) :
    ((Change.put key value label).apply now ledger).map Entry.bare =
      putBare (ledger.map Entry.bare) (key, value, label) := by
  have held : (ledger.map Entry.bare).any (bareHolds key value) = ledger.any (holds key value) := by
    rw [List.any_map]
    rfl
  have refreshed : (ledger.map (refresh now key value)).map Entry.bare =
      (ledger.map Entry.bare).map (bareRefresh key value) := by
    rw [List.map_map, List.map_map]
    exact List.map_congr_left fun entry _ => bare_refresh entry
  rw [Change.apply, putBare, held]
  split
  · exact refreshed
  · rw [List.map_append, refreshed]
    rfl

/-- Puts one after another, whatever their instants. -/
theorem bare_applyAll {Element : Type} (change : Element → Time × Change Key Value Label Time)
    (put : Element → Key × Value × Label)
    (puts : ∀ element, (change element).2 = .put (put element).1 (put element).2.1 (put element).2.2)
    (elements : List Element) (ledger : List (Entry Key Value Label Time)) :
    (applyAll ledger (elements.map change)).map Entry.bare =
      (elements.map put).foldl putBare (ledger.map Entry.bare) := by
  induction elements generalizing ledger with
  | nil => rfl
  | cons element rest ih =>
      rw [List.map_cons, List.map_cons, List.foldl_cons, applyAll_cons, ih, puts element, bare_put]

end Forgetting

section Settled

variable {key other : Key} {value : Value} {label : Label} {rows : List (Bare Key Value Label)}

/-- A key is settled on a value when an open record holds it and no open one holds another. -/
structure Settled (key : Key) (value : Value) (rows : List (Bare Key Value Label)) : Prop where
  held : rows.any (bareHolds key value) = true
  only : ∀ row ∈ rows, row.1 = key → row.2.2.2 = true → row.2.1 = value

theorem bareHolds_bareRefresh (row : Bare Key Value Label) :
    bareHolds key value (bareRefresh key value row) = bareHolds key value row := by
  unfold bareRefresh
  split
  · rename_i here
    simp [bareHolds, here.2.2]
  · rfl

theorem settled_put (rows : List (Bare Key Value Label)) (label : Label) :
    Settled key value (putBare rows (key, value, label)) := by
  have refreshed : ∀ row ∈ rows.map (bareRefresh key value), row.1 = key → row.2.2.2 = true →
      row.2.1 = value := by
    intro row among same opened
    obtain ⟨before, _, rfl⟩ := List.mem_map.mp among
    unfold bareRefresh at same opened ⊢
    split at opened
    · cases opened
    · rename_i kept
      rw [if_neg kept] at same
      rw [if_neg kept]
      by_contra differs
      exact kept ⟨same, opened, differs⟩
  unfold putBare
  split
  · rename_i held
    refine ⟨?_, refreshed⟩
    rw [List.any_map, ← held]
    congr 1
    funext row
    exact bareHolds_bareRefresh row
  · refine ⟨by simp [bareHolds], ?_⟩
    intro row among same opened
    rcases List.mem_append.mp among with among | among
    · exact refreshed row among same opened
    · rw [List.mem_singleton.mp among]

/-- Putting the settled value again changes nothing but instants. -/
theorem Settled.putBare_same (settled : Settled key value rows) (label : Label) :
    putBare rows (key, value, label) = rows := by
  have kept : rows.map (bareRefresh key value) = rows.map id := by
    apply List.map_congr_left
    intro row among
    unfold bareRefresh
    rw [if_neg]
    · rfl
    · intro there
      exact there.2.2 (settled.only row among there.1 there.2.1)
  rw [putBare, if_pos settled.held, kept, List.map_id]

/-- Puts of the same value under any keys keep what is settled. -/
theorem Settled.putBare (settled : Settled key value rows) (other : Key) (label : Label) :
    Settled key value (putBare rows (other, value, label)) := by
  by_cases same : other = key
  · rw [same]
    exact settled_put rows label
  · have away (row : Bare Key Value Label) (here : row.1 = key) : bareRefresh other value row = row := by
      unfold bareRefresh
      rw [if_neg fun there => same (there.1.symm.trans here)]
    have still (row : Bare Key Value Label) : (bareRefresh other value row).1 = row.1 := by
      unfold bareRefresh
      split <;> rfl
    have holds : (rows.map (bareRefresh other value)).any (bareHolds key value) = true := by
      obtain ⟨row, among, held⟩ := List.any_eq_true.mp settled.held
      have here : row.1 = key := by
        simp only [bareHolds, Bool.and_eq_true, decide_eq_true_eq] at held
        exact held.1.1
      exact List.any_eq_true.mpr ⟨row, List.mem_map.mpr ⟨row, among, away row here⟩, held⟩
    have only : ∀ row ∈ rows.map (bareRefresh other value), row.1 = key → row.2.2.2 = true →
        row.2.1 = value := by
      intro row among here opened
      obtain ⟨before, held, rfl⟩ := List.mem_map.mp among
      rw [still] at here
      rw [away before here] at opened ⊢
      exact settled.only before held here opened
    unfold History.putBare
    split
    · exact ⟨holds, only⟩
    · refine ⟨?_, ?_⟩
      · rw [List.any_append, holds]
        rfl
      · intro row among here opened
        rcases List.mem_append.mp among with among | among
        · exact only row among here opened
        · rw [List.mem_singleton.mp among] at here
          exact absurd here same

end Settled
end Sanshain.History
