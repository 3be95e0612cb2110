import Sanshain.History.Ledger

namespace Sanshain.History

/-- What an owner says, at one instant, that it holds: all of it. -/
structure Declaration (Owner Item Time : Type) where
  instant : Time
  owner : Owner
  items : List Item
  deriving DecidableEq, Repr

/-- A record that an item belongs to its owner. -/
abbrev Holding (Owner Item Time : Type) := Entry (Owner × Item) Unit Unit Time

section Definitions

variable {Owner Item Time : Type} [DecidableEq Owner]

/-- The items that an owner holds now. -/
def heldBy (owner : Owner) (ledger : List (Holding Owner Item Time)) : List Item :=
  (ledger.filter fun entry => entry.key.1 = owner ∧ entry.closed = none).map (·.key.2)

/-- What each owner had declared by each instant. -/
abbrev Account (Owner Item Time : Type) := Time → Owner → List Item

/-- The account with one more declaration. -/
def Declaration.amend [LinearOrder Time] (account : Account Owner Item Time)
    (declaration : Declaration Owner Item Time) : Account Owner Item Time :=
  fun instant owner =>
    if declaration.instant ≤ instant ∧ declaration.owner = owner then declaration.items
    else account instant owner

variable [DecidableEq Item]

/-- What is no longer named ends, and what is named and not held begins, each item once. -/
def Declaration.apply (ledger : List (Holding Owner Item Time))
    (declaration : Declaration Owner Item Time) : List (Holding Owner Item Time) :=
  ledger.map (closeEntry declaration.instant fun key _ _ =>
      key.1 = declaration.owner ∧ key.2 ∉ declaration.items) ++
    (declaration.items.filter (· ∉ heldBy declaration.owner ledger)).dedup.map fun item =>
      ⟨(declaration.owner, item), (), (), declaration.instant, declaration.instant, none⟩

end Definitions

section Held

variable {Owner Item Time : Type} [DecidableEq Owner] {ledger : List (Holding Owner Item Time)}
  {owner : Owner} {item : Item}

theorem mem_heldBy :
    item ∈ heldBy owner ledger ↔ ∃ entry ∈ ledger, entry.closed = none ∧ entry.key = (owner, item) := by
  simp only [heldBy, List.mem_map, List.mem_filter, decide_eq_true_eq]
  constructor
  · intro ⟨entry, ⟨among, same, fresh⟩, named⟩
    exact ⟨entry, among, fresh, Prod.ext same named⟩
  · intro ⟨entry, among, fresh, same⟩
    exact ⟨entry, ⟨among, congrArg Prod.fst same, fresh⟩, congrArg Prod.snd same⟩

end Held

section Declaring

variable {Owner Item Time : Type} [DecidableEq Owner] [DecidableEq Item]
  {ledger : List (Holding Owner Item Time)} {declaration : Declaration Owner Item Time}
  {owner : Owner} {item : Item}

/-- What an owner holds once it has declared is what it named, and the others hold what they did. -/
theorem mem_heldBy_apply :
    item ∈ heldBy owner (declaration.apply ledger) ↔
      if declaration.owner = owner then item ∈ declaration.items else item ∈ heldBy owner ledger := by
  have kept : item ∈ heldBy owner (declaration.apply ledger) ↔
      (item ∈ heldBy owner ledger ∧ (owner = declaration.owner → item ∈ declaration.items)) ∨
        (owner = declaration.owner ∧ item ∈ declaration.items ∧
          item ∉ heldBy declaration.owner ledger) := by
    rw [mem_heldBy, mem_heldBy]
    constructor
    · intro ⟨entry, among, fresh, same⟩
      cases List.mem_append.mp among with
      | inl old =>
          obtain ⟨before, held, rfl⟩ := List.mem_map.mp old
          rw [(ends_closeEntry _ _).key] at same
          have stays := closeEntry_open.mp fresh
          apply Or.inl
          refine ⟨⟨before, held, stays.1, same⟩, fun own => ?_⟩
          have named := stays.2
          rw [same] at named
          simpa [own] using named
      | inr new =>
          obtain ⟨named, chosen, rfl⟩ := List.mem_map.mp new
          cases same
          have fresh := List.mem_filter.mp (List.mem_dedup.mp chosen)
          exact .inr ⟨rfl, fresh.1, by simpa using fresh.2⟩
    · intro holds
      cases holds with
      | inl old =>
          obtain ⟨⟨entry, among, fresh, same⟩, named⟩ := old
          refine ⟨_, List.mem_append_left _ (List.mem_map_of_mem among), closeEntry_open.mpr ⟨fresh, ?_⟩,
            ((ends_closeEntry _ _).key entry).trans same⟩
          rw [same]
          simpa using named
      | inr new =>
          obtain ⟨rfl, named, fresh⟩ := new
          have chosen : item ∈ (declaration.items.filter
              (· ∉ heldBy declaration.owner ledger)).dedup :=
            List.mem_dedup.mpr (List.mem_filter.mpr ⟨named, by simpa using fresh⟩)
          exact ⟨_, List.mem_append_right _ (List.mem_map_of_mem chosen), rfl, rfl⟩
  rw [kept]
  by_cases own : declaration.owner = owner
  · subst own
    rw [if_pos rfl]
    constructor
    · intro holds
      exact holds.elim (fun old => old.2 rfl) fun new => new.2.1
    · intro named
      by_cases held : item ∈ heldBy declaration.owner ledger
      · exact .inl ⟨held, fun _ => named⟩
      · exact .inr ⟨rfl, named, held⟩
  · simp [own, Ne.symm own]

end Declaring

section Accounts

variable {Owner Item Time : Type} [LinearOrder Time] {ledger : List (Holding Owner Item Time)}
  {account : Account Owner Item Time} {last : Time}

/-- The owner has the item among its own at the instant. -/
def Recorded (ledger : List (Holding Owner Item Time)) (instant : Time) (owner : Owner) (item : Item) :
    Prop :=
  ∃ entry ∈ lasting Entry.span ledger instant, entry.key = (owner, item)

/-- A ledger that, for every instant, shows what had been declared by then. -/
structure Recounts (ledger : List (Holding Owner Item Time)) (account : Account Owner Item Time)
    (last : Time) : Prop where
  sound : Sound ledger last
  told : ∀ instant owner item, Recorded ledger instant owner item ↔ item ∈ account instant owner
  settled : ∀ instant, last ≤ instant → account instant = account last

theorem recounts_nil (start : Time) :
    Recounts ([] : List (Holding Owner Item Time)) (fun _ _ => []) start where
  sound := ⟨by simp, by simp, .nil⟩
  told := by simp [Recorded, lasting]
  settled := fun _ _ => rfl

theorem Recounts.mono {later : Time} (recounts : Recounts ledger account last) (order : last ≤ later) :
    Recounts ledger account later where
  sound := recounts.sound.mono order
  told := recounts.told
  settled := by
    intro instant reached
    rw [recounts.settled instant (order.trans reached), recounts.settled later order]

theorem Recounts.congr {other : Account Owner Item Time} (recounts : Recounts ledger account last)
    (same : ∀ instant owner, account instant owner = other instant owner) :
    Recounts ledger other last := by
  have equal : account = other := funext fun instant => funext (same instant)
  rwa [← equal]

end Accounts

section Histories

variable {Owner Item Time : Type} [DecidableEq Owner] [LinearOrder Time]
  {ledger : List (Holding Owner Item Time)} {declaration : Declaration Owner Item Time}
  {account : Account Owner Item Time} {last now : Time}

/-- Items that nobody holds begin, each once. -/
theorem Sound.openAll (sound : Sound ledger now) {owner : Owner} {items : List Item}
    (once : items.Nodup) (fresh : ∀ item ∈ items, item ∉ heldBy owner ledger) :
    Sound (ledger ++ items.map fun item => ⟨(owner, item), (), (), now, now, none⟩) now := by
  induction items generalizing ledger with
  | nil => simpa using sound
  | cons item rest ih =>
      obtain ⟨apart, once⟩ := List.nodup_cons.mp once
      have past : ∀ other ∈ ledger, other.key = (owner, item) → other.closed ≠ none := by
        intro other among same still
        exact fresh item List.mem_cons_self (mem_heldBy.mpr ⟨other, among, still, same⟩)
      have opened : Sound (ledger ++ [⟨(owner, item), (), (), now, now, none⟩]) now :=
        sound.append rfl rfl past
      rw [List.map_cons, ← List.singleton_append, ← List.append_assoc]
      apply ih opened once
      intro other among held
      obtain ⟨entry, there, still, same⟩ := mem_heldBy.mp held
      cases List.mem_append.mp there with
      | inl old =>
          exact fresh other (List.mem_cons_of_mem _ among) (mem_heldBy.mpr ⟨entry, old, still, same⟩)
      | inr new =>
          cases List.mem_singleton.mp new
          cases same
          exact apart among

/-- What is recorded at or after the last change is what is held. -/
theorem Sound.recorded_iff (sound : Sound ledger last) {instant : Time} (reached : last ≤ instant)
    {owner : Owner} {item : Item} :
    Recorded ledger instant owner item ↔ item ∈ heldBy owner ledger := by
  rw [mem_heldBy, Recorded]
  constructor
  · intro ⟨entry, among, same⟩
    obtain ⟨there, lasts⟩ := mem_lasting.mp among
    exact ⟨entry, there, (sound.at_iff reached there).mp lasts, same⟩
  · intro ⟨entry, there, fresh, same⟩
    exact ⟨entry, mem_lasting.mpr ⟨there, (sound.at_iff reached there).mpr fresh⟩, same⟩

/-- What is held is what was declared. -/
theorem Recounts.held (recounts : Recounts ledger account last) {owner : Owner} {item : Item} :
    item ∈ heldBy owner ledger ↔ item ∈ account last owner := by
  rw [← recounts.told, recounts.sound.recorded_iff le_rfl]

variable [DecidableEq Item]

theorem Sound.declare (sound : Sound ledger last) (order : last ≤ declaration.instant) :
    Sound (declaration.apply ledger) declaration.instant := by
  have closed := (sound.mono order).map (ends_closeEntry declaration.instant fun key _ _ =>
    decide (key.1 = declaration.owner ∧ key.2 ∉ declaration.items))
  apply closed.openAll (List.nodup_dedup _)
  intro item chosen held
  have fresh := (List.mem_filter.mp (List.mem_dedup.mp chosen)).2
  obtain ⟨entry, among, still, same⟩ := mem_heldBy.mp held
  obtain ⟨old, there, rfl⟩ := List.mem_map.mp among
  rw [(ends_closeEntry _ _).key] at same
  have known := mem_heldBy.mpr ⟨old, there, (closeEntry_open.mp still).1, same⟩
  simp [known] at fresh

/-- What was recorded before a declaration stays as it was. -/
theorem recorded_apply_before {instant : Time} (before : instant < declaration.instant)
    {owner : Owner} {item : Item} :
    Recorded (declaration.apply ledger) instant owner item ↔ Recorded ledger instant owner item := by
  constructor
  · intro ⟨entry, among, same⟩
    obtain ⟨there, lasts⟩ := mem_lasting.mp among
    cases List.mem_append.mp there with
    | inl old =>
        obtain ⟨earlier, held, rfl⟩ := List.mem_map.mp old
        have lasted := ((ends_closeEntry _ _).at_before before earlier).mp lasts
        exact ⟨earlier, mem_lasting.mpr ⟨held, lasted⟩, same ▸ ((ends_closeEntry _ _).key earlier).symm⟩
    | inr new =>
        obtain ⟨named, -, rfl⟩ := List.mem_map.mp new
        exact absurd lasts.1 (not_le.mpr before)
  · intro ⟨entry, among, same⟩
    obtain ⟨there, lasts⟩ := mem_lasting.mp among
    refine ⟨_, mem_lasting.mpr ⟨List.mem_append_left _ (List.mem_map_of_mem there),
      ((ends_closeEntry _ _).at_before before entry).mpr lasts⟩,
      ((ends_closeEntry _ _).key entry).trans same⟩

/-- One more declaration, not before the others. -/
theorem Recounts.declare (recounts : Recounts ledger account last) (order : last ≤ declaration.instant) :
    Recounts (declaration.apply ledger) (declaration.amend account) declaration.instant where
  sound := recounts.sound.declare order
  told := by
    intro instant owner item
    rw [Declaration.amend]
    by_cases reached : declaration.instant ≤ instant
    · rw [(recounts.sound.declare order).recorded_iff reached, mem_heldBy_apply]
      by_cases own : declaration.owner = owner
      · rw [if_pos own, if_pos ⟨reached, own⟩]
      · rw [if_neg own, if_neg fun both => own both.2, recounts.held,
          recounts.settled instant (order.trans reached)]
    · rw [if_neg fun both => reached both.1, recorded_apply_before (not_le.mp reached), recounts.told]
  settled := by
    intro instant reached
    funext owner
    simp only [Declaration.amend, reached, le_refl, true_and]
    rw [recounts.settled instant (order.trans reached), recounts.settled declaration.instant order]

end Histories
end Sanshain.History
