import Sanshain.Infrastructure.Timeline

namespace Sanshain.Guarantees

open Sanshain.Data Sanshain.Domain Sanshain.History Sanshain.Infrastructure
open Sanshain.Infrastructure.Store

/-- A table of pins, as it is listed, is the history of what each key held at every instant. -/
structure PinHistory (rows : List PinRow) (listed : Instant → List PinInfo)
    (held : Instant → Present PinKey SemVer Instant) : Prop where
  oneOpen : ∀ (first second : Nat) (one other : PinRow), rows[first]? = some one → rows[second]? = some other →
    one.key = other.key → one.validTo = none → other.validTo = none → first = second
  oneValid : ∀ (instant : Instant) (first second : Nat) (one other : PinRow),
    rows[first]? = some one → rows[second]? = some other → one.key = other.key →
      one.span.At instant → other.span.At instant → first = second
  listing : ∀ instant, (listed instant).Perm ((lasting PinRow.span rows instant).map pinInfo)
  replayed : ∀ instant key version,
    (∃ row ∈ lasting PinRow.span rows instant, row.key = key ∧ row.version = version) ↔
      ∃ seen, held instant key = some (version, seen)

/-- What the keys of a graph hold when the calls up to an instant have been replayed on a map
that held nothing. -/
def heldAt (track : MemberTrack) (store : Store) (calls : List (Instant × RepoCall))
    (instant : Instant) : Present PinKey SemVer Instant :=
  replayAll (fun _ => none)
    ((pinChangesAlong track store calls).filter fun change => change.1 ≤ instant)

section Histories

variable {rows : List PinRow}

theorem entry_at {place : Nat} {row : PinRow} (there : rows[place]? = some row) :
    (rows.map PinRow.entry)[place]? = some row.entry := by
  rw [List.getElem?_map, there]
  rfl

theorem row_at {place : Nat} {row : PinRow}
    (there : (rows.map PinRow.entry)[place]? = some row.entry) : rows[place]? = some row := by
  rw [List.getElem?_map, Option.map_eq_some_iff] at there
  obtain ⟨other, found, same⟩ := there
  rw [found, PinRow.entry_injective same]

/-- A sound ledger that goes with a map is its history. -/
theorem pinHistory_of_ledger {last : Instant} {listed : Instant → List PinInfo}
    {held : Instant → Present PinKey SemVer Instant}
    (sound : Sound (rows.map PinRow.entry) last)
    (listing : ∀ instant, listed instant = listPins (lasting PinRow.span rows instant))
    (replayed : ∀ instant key version,
      (∃ entry ∈ lasting Entry.span (rows.map PinRow.entry) instant,
        entry.key = key ∧ entry.value = version) ↔ ∃ seen, held instant key = some (version, seen)) :
    PinHistory rows listed held where
  oneOpen first second one other here there same fresh fresh' :=
    sound.open_unique (entry_at here) (entry_at there) same fresh fresh'
  oneValid instant first second one other here there same lasts lasts' :=
    sound.at_most_one (entry_at here) (entry_at there) same lasts lasts'
  listing instant := by
    rw [listing instant]
    exact List.perm_insertionSort pinLe _
  replayed instant key version := by
    rw [← replayed instant key version, lasting_entries]
    constructor
    · rintro ⟨row, among, same, value⟩
      exact ⟨row.entry, List.mem_map_of_mem among, same, value⟩
    · rintro ⟨entry, among, same, value⟩
      obtain ⟨row, held, rfl⟩ := List.mem_map.mp among
      exact ⟨row, held, same, value⟩

end Histories

/-- The pins of trunk and of every branch are a last-write-wins history: whatever calls are made,
with instants in order, they show for every instant what replaying the calls up to it gives, and
a pin that is over stays as it is. -/
theorem pins_last_write_wins (track : MemberTrack) (store : Store) (blank : store.pinsOf track = [])
    (calls : List (Instant × RepoCall)) (kept : ∀ call ∈ calls, keepsPins track call.2)
    (ordered : (calls.flatMap fun call => pinStamps call.1 track call.2).Pairwise (· ≤ ·)) :
    PinHistory ((store.performAll calls).pinsOf track)
        (fun instant => (store.performAll calls).listPinsAt instant track)
        (heldAt track store calls) ∧
      ∀ done rest, calls = done ++ rest → ∀ (place : Nat) (row : PinRow),
        ((store.performAll done).pinsOf track)[place]? = some row → row.validTo ≠ none →
          ((store.performAll calls).pinsOf track)[place]? = some row := by
  have empty : (store.pinsOf track).map PinRow.entry = [] := by
    rw [blank]
    rfl
  have whole := performAll_pins store kept
  rw [empty] at whole
  have changes := pinChangesAlong_ordered store ordered
  have nothing : Sound ([] : List (Entry PinKey SemVer PinLabel Instant)) 0 :=
    ⟨by simp, by simp, .nil⟩
  have agrees : Shows ([] : List (Entry PinKey SemVer PinLabel Instant)) (fun _ => none) := by
    simp [Shows]
  constructor
  · obtain ⟨last, sound⟩ := nothing.run changes
    rw [← whole] at sound
    apply pinHistory_of_ledger sound
    · intro instant
      cases track <;> rfl
    · intro instant key version
      rw [whole]
      exact applyAll_at nothing agrees changes (Nat.zero_le instant) key version
  · rintro done rest rfl place row there past
    have later := performAll_pins (store.performAll done) fun call among =>
      kept call (List.mem_append_right done among)
    obtain ⟨same, found, -, settled⟩ :=
      applyAll_getElem? (pinChangesAlong track (store.performAll done) rest) (entry_at there)
    rw [settled past, ← later] at found
    rw [performAll_append]
    exact row_at found

section Examples

def ordersPin (patch : UInt32) (now : Instant) : RecordPinParams where
  clientId := 1
  serviceId := 1
  apiType := .openApi
  version := ⟨1, 0, patch⟩
  path := "/orders"
  normalizedPath := "/orders"
  method := "GET"
  nowIso := now

/-- One key is required at two versions in one instant, expires, and is required again. -/
def pinningRun : List (Instant × RepoCall) :=
  [(0, .ensureService "orders"), (0, .ensureClient "shop"), (1, .recordTrunkPins [ordersPin 0 1]),
    (1, .recordTrunkPins [ordersPin 1 1]), (4, .closeExpiredTrunkData 2 4),
    (4, .recordTrunkPins [ordersPin 1 4]), (6, .deleteConsumer "shop")]

theorem pins_last_write_wins_orders :
    PinHistory ((({} : Store).performAll pinningRun).pinsOf .trunk)
        (fun instant => (({} : Store).performAll pinningRun).listPinsAt instant .trunk)
        (heldAt .trunk {} pinningRun) ∧
      heldAt .trunk {} pinningRun 5 (pinKey (ordersPin 1 4)) = some (⟨1, 0, 1⟩, 4) ∧
      heldAt .trunk {} pinningRun 6 (pinKey (ordersPin 1 4)) = none := by
  have history := pins_last_write_wins .trunk {} rfl pinningRun
    (by simp [pinningRun, keepsPins]) (by decide)
  exact ⟨history.1, by decide +kernel, by decide +kernel⟩

end Examples

end Sanshain.Guarantees
