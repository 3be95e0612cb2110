import Mathlib.Tactic

namespace Sanshain.Data

/-- One operation of an edit script, by the places it takes on both sides. -/
inductive DiffOp where
  | equal (oldIndex newIndex len : Nat)
  | delete (oldIndex oldLen newIndex : Nat)
  | insert (oldIndex newIndex newLen : Nat)
  | replace (oldIndex oldLen newIndex newLen : Nat)
  deriving DecidableEq, Repr

namespace DiffOp

/-- Where the operation begins and ends on the old side. -/
def oldRange : DiffOp → Nat × Nat
  | .equal oldIndex _ len => (oldIndex, oldIndex + len)
  | .delete oldIndex oldLen _ => (oldIndex, oldIndex + oldLen)
  | .insert oldIndex _ _ => (oldIndex, oldIndex)
  | .replace oldIndex oldLen _ _ => (oldIndex, oldIndex + oldLen)

/-- Where the operation begins and ends on the new side. -/
def newRange : DiffOp → Nat × Nat
  | .equal _ newIndex len => (newIndex, newIndex + len)
  | .delete _ _ newIndex => (newIndex, newIndex)
  | .insert _ newIndex newLen => (newIndex, newIndex + newLen)
  | .replace _ _ newIndex newLen => (newIndex, newIndex + newLen)

def isEqual : DiffOp → Bool
  | .equal _ _ _ => true
  | _ => false

def start (op : DiffOp) : Nat × Nat := (op.oldRange.1, op.newRange.1)

def stop (op : DiffOp) : Nat × Nat := (op.oldRange.2, op.newRange.2)

/-- What an operation says is equal is equal. -/
def Pairs {α : Type} (old new : List α) : DiffOp → Prop
  | .equal oldIndex newIndex len => ∀ d < len, ∃ a, old[oldIndex + d]? = some a ∧ new[newIndex + d]? = some a
  | _ => True

/-- It can be decided by looking the places up. -/
theorem pairs_equal_iff {α : Type} {old new : List α} {oldIndex newIndex len : Nat} :
    (DiffOp.equal oldIndex newIndex len).Pairs old new ↔
      ∀ d < len, (old[oldIndex + d]?).isSome ∧ old[oldIndex + d]? = new[newIndex + d]? := by
  apply forall_congr'
  intro d
  apply forall_congr'
  intro inside
  constructor
  · rintro ⟨a, left, right⟩
    exact ⟨by rw [left]; rfl, left.trans right.symm⟩
  · rintro ⟨present, same⟩
    obtain ⟨a, there⟩ := Option.isSome_iff_exists.mp present
    exact ⟨a, there, same ▸ there⟩

instance {α : Type} [DecidableEq α] (old new : List α) : (op : DiffOp) → Decidable (op.Pairs old new)
  | .equal _ _ _ => decidable_of_iff _ pairs_equal_iff.symm
  | .delete _ _ _ => .isTrue trivial
  | .insert _ _ _ => .isTrue trivial
  | .replace _ _ _ _ => .isTrue trivial

theorem oldRange_le (op : DiffOp) : op.oldRange.1 ≤ op.oldRange.2 := by
  cases op <;> simp [oldRange]

theorem newRange_le (op : DiffOp) : op.newRange.1 ≤ op.newRange.2 := by
  cases op <;> simp [newRange]

end DiffOp

/-- The operations follow one another on both sides, from one pair of places to another. -/
inductive Chain : Nat × Nat → List DiffOp → Nat × Nat → Prop
  | nil (place : Nat × Nat) : Chain place [] place
  | cons {op : DiffOp} {rest : List DiffOp} {last : Nat × Nat} (later : Chain op.stop rest last) :
      Chain op.start (op :: rest) last

/-- The operations lead from the old list to the new one, in order. -/
structure EditScript {α : Type} (old new : List α) (ops : List DiffOp) : Prop where
  chain : Chain (0, 0) ops (old.length, new.length)
  pairs : ∀ op ∈ ops, op.Pairs old new

section Chains

variable {ops rest : List DiffOp} {first last : Nat × Nat}

theorem chain_cons {op : DiffOp} :
    Chain first (op :: rest) last ↔ first = op.start ∧ Chain op.stop rest last := by
  constructor
  · rintro ⟨⟩
    exact ⟨rfl, by assumption⟩
  · rintro ⟨rfl, later⟩
    exact .cons later

@[simp] theorem chain_nil : Chain first [] last ↔ first = last := by
  constructor
  · rintro ⟨⟩
    rfl
  · rintro rfl
    exact .nil _

theorem Chain.le (chain : Chain first ops last) : first.1 ≤ last.1 ∧ first.2 ≤ last.2 := by
  induction chain with
  | nil => exact ⟨le_rfl, le_rfl⟩
  | @cons op rest last later ih => exact ⟨op.oldRange_le.trans ih.1, op.newRange_le.trans ih.2⟩

theorem chain_append : Chain first (ops ++ rest) last ↔
    ∃ middle, Chain first ops middle ∧ Chain middle rest last := by
  induction ops generalizing first with
  | nil => simp
  | cons op more ih =>
      rw [List.cons_append, chain_cons, ih]
      simp only [chain_cons]
      constructor
      · rintro ⟨rfl, middle, front, back⟩
        exact ⟨middle, ⟨rfl, front⟩, back⟩
      · rintro ⟨middle, ⟨rfl, front⟩, back⟩
        exact ⟨rfl, middle, front, back⟩

/-- A part of a list between two places. -/
def between {α : Type} (list : List α) (start stop : Nat) : List α := (list.drop start).take (stop - start)

@[simp] theorem between_self {α : Type} (list : List α) (place : Nat) : between list place place = [] := by
  simp [between]

theorem between_append {α : Type} (list : List α) {start middle stop : Nat} (before : start ≤ middle)
    (after : middle ≤ stop) :
    between list start middle ++ between list middle stop = between list start stop := by
  have split : stop - start = (middle - start) + (stop - middle) := by omega
  have place : middle = start + (middle - start) := by omega
  unfold between
  rw [split, List.take_add, List.drop_drop, ← place]

theorem between_zero {α : Type} (list : List α) : between list 0 list.length = list := by
  simp [between]

theorem between_length_le {α : Type} (list : List α) (start stop : Nat) :
    (between list start stop).length ≤ stop - start := by
  rw [between, List.length_take]
  exact Nat.min_le_left _ _

theorem getElem?_between {α : Type} (list : List α) {start stop place : Nat} (inside : place < stop - start) :
    (between list start stop)[place]? = list[start + place]? := by
  rw [between, List.getElem?_take_of_lt inside, List.getElem?_drop]

/-- Where every operation is an equal one, both sides are the same. -/
theorem Chain.same {α : Type} {old new : List α} (chain : Chain first ops last)
    (equal : ∀ op ∈ ops, op.isEqual = true) (pairs : ∀ op ∈ ops, op.Pairs old new) :
    between old first.1 last.1 = between new first.2 last.2 := by
  induction chain with
  | nil => simp
  | @cons op rest last later ih =>
      have tail := ih (fun other among => equal other (List.mem_cons_of_mem _ among))
        fun other among => pairs other (List.mem_cons_of_mem _ among)
      have here : between old op.start.1 op.stop.1 = between new op.start.2 op.stop.2 := by
        have paired := pairs op List.mem_cons_self
        cases op with
        | equal oldIndex newIndex len =>
            apply List.ext_getElem?
            intro place
            change (between old oldIndex (oldIndex + len))[place]? =
              (between new newIndex (newIndex + len))[place]?
            by_cases inside : place < len
            · rw [getElem?_between _ (by omega), getElem?_between _ (by omega)]
              obtain ⟨a, left, right⟩ := paired place inside
              rw [left, right]
            · have left := between_length_le old oldIndex (oldIndex + len)
              have right := between_length_le new newIndex (newIndex + len)
              rw [List.getElem?_eq_none (by omega), List.getElem?_eq_none (by omega)]
        | delete => exact absurd (equal _ List.mem_cons_self) (by simp [DiffOp.isEqual])
        | insert => exact absurd (equal _ List.mem_cons_self) (by simp [DiffOp.isEqual])
        | replace => exact absurd (equal _ List.mem_cons_self) (by simp [DiffOp.isEqual])
      calc
        between old op.start.1 last.1
          = between old op.start.1 op.stop.1 ++ between old op.stop.1 last.1 :=
            (between_append old op.oldRange_le later.le.1).symm
        _ = between new op.start.2 op.stop.2 ++ between new op.stop.2 last.2 := congrArg₂ _ here tail
        _ = between new op.start.2 last.2 := between_append new op.newRange_le later.le.2

end Chains

section Clusters

/-- The same operations with equal ones cut into pieces. -/
inductive Splits : List DiffOp → List DiffOp → Prop
  | nil : Splits [] []
  | keep {ops pieces : List DiffOp} (op : DiffOp) (later : Splits ops pieces) :
      Splits (op :: ops) (op :: pieces)
  | cut {ops pieces : List DiffOp} (oldIndex newIndex first rest : Nat)
      (later : Splits (.equal (oldIndex + first) (newIndex + first) rest :: ops) pieces) :
      Splits (.equal oldIndex newIndex (first + rest) :: ops) (.equal oldIndex newIndex first :: pieces)

/-- Groups of operations that each change something, with nothing but equal ones between them. -/
inductive Clusters : List DiffOp → List (List DiffOp) → Prop
  | quiet {gap : List DiffOp} (equal : ∀ op ∈ gap, op.isEqual = true) : Clusters gap []
  | next {gap group rest : List DiffOp} {groups : List (List DiffOp)}
      (equal : ∀ op ∈ gap, op.isEqual = true) (changes : ∃ op ∈ group, op.isEqual = false)
      (later : Clusters rest groups) : Clusters (gap ++ (group ++ rest)) (group :: groups)

/-- The clusters of changes of a script, isolated by leaving out stretches where nothing changes. -/
def Grouped (ops : List DiffOp) (groups : List (List DiffOp)) : Prop :=
  ∃ pieces, Splits ops pieces ∧ Clusters pieces groups

variable {ops pieces : List DiffOp} {groups : List (List DiffOp)}

theorem Splits.chain (splits : Splits ops pieces) {first last : Nat × Nat}
    (chain : Chain first ops last) : Chain first pieces last := by
  induction splits generalizing first with
  | nil => exact chain
  | keep op _ ih =>
      obtain ⟨rfl, later⟩ := chain_cons.mp chain
      exact .cons (ih later)
  | @cut more _ oldIndex newIndex len rest _ ih =>
      obtain ⟨rfl, later⟩ := chain_cons.mp chain
      have split : Chain (DiffOp.equal oldIndex newIndex len).stop
          (.equal (oldIndex + len) (newIndex + len) rest :: more) last := by
        refine chain_cons.mpr ⟨rfl, ?_⟩
        simpa [DiffOp.stop, DiffOp.oldRange, DiffOp.newRange, Nat.add_assoc] using later
      exact .cons (ih split)

theorem Splits.pairs {α : Type} {old new : List α} (splits : Splits ops pieces)
    (pairs : ∀ op ∈ ops, op.Pairs old new) : ∀ op ∈ pieces, op.Pairs old new := by
  induction splits with
  | nil => exact pairs
  | keep op _ ih =>
      rw [List.forall_mem_cons] at pairs ⊢
      exact ⟨pairs.1, ih pairs.2⟩
  | cut oldIndex newIndex len rest _ ih =>
      rw [List.forall_mem_cons] at pairs ⊢
      refine ⟨fun d inside => pairs.1 d (by omega), ih (List.forall_mem_cons.mpr ⟨?_, pairs.2⟩)⟩
      intro d inside
      simpa [Nat.add_assoc] using pairs.1 (len + d) (by omega)

theorem Splits.equal_iff (splits : Splits ops pieces) :
    (∀ op ∈ pieces, op.isEqual = true) ↔ ∀ op ∈ ops, op.isEqual = true := by
  induction splits with
  | nil => rfl
  | keep op _ ih => simp only [List.forall_mem_cons, ih]
  | cut oldIndex newIndex len rest _ ih =>
      rw [List.forall_mem_cons, List.forall_mem_cons, ih, List.forall_mem_cons]
      simp [DiffOp.isEqual]

theorem splits_refl (ops : List DiffOp) : Splits ops ops := by
  induction ops with
  | nil => exact .nil
  | cons op rest ih => exact .keep op ih

/-- A script that changes something may stay in one group. -/
theorem grouped_whole (changes : ∃ op ∈ ops, op.isEqual = false) : Grouped ops [ops] := by
  have whole : Clusters ([] ++ (ops ++ [])) [ops] := .next (by simp) changes (.quiet (by simp))
  rw [List.nil_append, List.append_nil] at whole
  exact ⟨ops, splits_refl ops, whole⟩

/-- There are no clusters exactly when nothing changes. -/
theorem Clusters.nil_iff (clusters : Clusters ops groups) :
    groups = [] ↔ ∀ op ∈ ops, op.isEqual = true := by
  cases clusters with
  | quiet equal => exact ⟨fun _ => equal, fun _ => rfl⟩
  | next equal changes later =>
      constructor
      · intro none
        cases none
      · intro equal
        obtain ⟨op, among, change⟩ := changes
        rw [equal op (by simp [among])] at change
        cases change

theorem Grouped.nil_iff (grouped : Grouped ops groups) :
    groups = [] ↔ ∀ op ∈ ops, op.isEqual = true := by
  obtain ⟨pieces, splits, clusters⟩ := grouped
  rw [clusters.nil_iff, splits.equal_iff]

end Clusters

section Patches

variable {α : Type}

/-- What a part of a list is replaced by. -/
structure Replacement (α : Type) where
  start : Nat
  stop : Nat
  lines : List α

/-- The list from a place on with each part replaced in its turn; what is outside the parts goes
through a map. -/
def patch (outside : α → α) (list : List α) : Nat → List (Replacement α) → List α
  | place, [] => (list.drop place).map outside
  | place, part :: rest =>
      (between list place part.start).map outside ++ part.lines ++ patch outside list part.stop rest

/-- Parts that follow one another within the list. -/
def Fits (list : List α) : Nat → List (Replacement α) → Prop
  | place, [] => place ≤ list.length
  | place, part :: rest => place ≤ part.start ∧ part.start ≤ part.stop ∧ Fits list part.stop rest

variable {list old new : List α} {place : Nat} {parts : List (Replacement α)}

theorem Fits.le (fits : Fits list place parts) : place ≤ list.length := by
  induction parts generalizing place with
  | nil => exact fits
  | cons part rest ih => exact fits.1.trans (fits.2.1.trans (ih fits.2.2))

theorem Fits.inside (fits : Fits list place parts) :
    ∀ part ∈ parts, place ≤ part.start ∧ part.start ≤ part.stop ∧ part.stop ≤ list.length := by
  induction parts generalizing place with
  | nil => simp
  | cons part rest ih =>
      obtain ⟨before, within, later⟩ := fits
      intro other among
      rcases List.mem_cons.mp among with rfl | held
      · exact ⟨before, within, later.le⟩
      · obtain ⟨start, rest, last⟩ := ih later other held
        exact ⟨before.trans (within.trans start), rest, last⟩

theorem Fits.ordered (fits : Fits list place parts) :
    parts.Pairwise fun earlier later => earlier.stop ≤ later.start := by
  induction parts generalizing place with
  | nil => exact .nil
  | cons part rest ih =>
      obtain ⟨-, -, later⟩ := fits
      exact .cons (fun other among => (later.inside other among).1) (ih later)

/-- Replacing parts by what they are changes nothing. -/
theorem patch_own (fits : Fits list place parts)
    (own : ∀ part ∈ parts, part.lines = between list part.start part.stop) :
    patch id list place parts = list.drop place := by
  induction parts generalizing place with
  | nil => simp [patch]
  | cons part rest ih =>
      obtain ⟨before, within, later⟩ := fits
      have whole : between list part.start list.length = list.drop part.start := by
        rw [between, List.take_of_length_le (by rw [List.length_drop])]
      have tail : list.drop part.stop = between list part.stop list.length := by
        rw [between, List.take_of_length_le (by rw [List.length_drop])]
      have front : list.drop place = between list place list.length := by
        rw [between, List.take_of_length_le (by rw [List.length_drop])]
      rw [patch, List.map_id, own part List.mem_cons_self,
        ih later fun other among => own other (List.mem_cons_of_mem _ among), tail, front,
        between_append list before within, between_append list (before.trans within) later.le]

/-- How the groups of a script are read as parts of its two sides. -/
structure Reads (old new : List α) (groups : List (List DiffOp))
    (left right : List DiffOp → Replacement α) : Prop where
  spec : ∀ group ∈ groups, ∀ first last, Chain first group last → group ≠ [] →
    last.1 ≤ old.length → last.2 ≤ new.length →
      left group = ⟨first.1, last.1, between new first.2 last.2⟩ ∧
      right group = ⟨first.2, last.2, between new first.2 last.2⟩

variable {pieces : List DiffOp} {groups : List (List DiffOp)} {first : Nat × Nat}
  {left right : List DiffOp → Replacement α}

/-- The parts follow one another on both sides, and hold what the new side has there. -/
theorem Clusters.fits (clusters : Clusters pieces groups)
    (chain : Chain first pieces (old.length, new.length)) (reads : Reads old new groups left right) :
    Fits old first.1 (groups.map left) ∧ Fits new first.2 (groups.map right) ∧
      ∀ part ∈ groups.map right, part.lines = between new part.start part.stop := by
  induction clusters generalizing first with
  | quiet equal => exact ⟨chain.le.1, chain.le.2, by simp⟩
  | @next gap group rest groups equal changes later ih =>
      obtain ⟨opened, front, chain⟩ := chain_append.mp chain
      obtain ⟨closed, middle, chain⟩ := chain_append.mp chain
      have some : group ≠ [] := by
        rintro rfl
        obtain ⟨op, among, -⟩ := changes
        cases among
      obtain ⟨here, there⟩ := reads.spec group List.mem_cons_self opened closed middle some
        chain.le.1 chain.le.2
      obtain ⟨onOld, onNew, own⟩ := ih chain
        ⟨fun other among => reads.spec other (List.mem_cons_of_mem _ among)⟩
      rw [List.map_cons, List.map_cons, here, there]
      refine ⟨⟨front.le.1, middle.le.1, onOld⟩, ⟨front.le.2, middle.le.2, onNew⟩, ?_⟩
      rw [List.forall_mem_cons]
      exact ⟨rfl, own⟩

/-- Replacing each part of the old side gives the new side, up to what is compared outside them. -/
theorem Clusters.patch {key : α → α} (clusters : Clusters pieces groups)
    (chain : Chain first pieces (old.length, new.length))
    (pairs : ∀ op ∈ pieces, op.Pairs (old.map key) (new.map key))
    (reads : Reads old new groups left right) :
    patch key old first.1 (groups.map left) = patch key new first.2 (groups.map right) := by
  have mapped : ∀ (list : List α) start stop,
      (between list start stop).map key = between (list.map key) start stop := by
    intro list start stop
    rw [between, between, List.map_take, List.map_drop]
  induction clusters generalizing first with
  | quiet equal =>
      have same := chain.same equal pairs
      have left : ∀ list : List α, ∀ place, between (list.map key) place list.length =
          (list.drop place).map key := by
        intro list place
        rw [← mapped, between, List.take_of_length_le (by rw [List.length_drop])]
      rwa [left, left] at same
  | @next gap group rest groups equal changes later ih =>
      obtain ⟨opened, front, chain⟩ := chain_append.mp chain
      obtain ⟨closed, middle, chain⟩ := chain_append.mp chain
      have some : group ≠ [] := by
        rintro rfl
        obtain ⟨op, among, -⟩ := changes
        cases among
      obtain ⟨here, there⟩ := reads.spec group List.mem_cons_self opened closed middle some
        chain.le.1 chain.le.2
      have gapped := front.same equal fun op among => pairs op (by simp [among])
      have tail := ih chain (fun op among => pairs op (by simp [among]))
        ⟨fun other among => reads.spec other (List.mem_cons_of_mem _ among)⟩
      rw [List.map_cons, List.map_cons, here, there, Data.patch, Data.patch, tail, mapped, mapped, gapped]

end Patches
end Sanshain.Data
