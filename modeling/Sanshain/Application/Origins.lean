import Sanshain.Application.Provide

namespace Sanshain.Application

open Sanshain.Domain

/-- What a Provide says about why: nothing, for a preview. -/
structure Offer where
  origin : VersionOrigin
  trunk : Bool

namespace Offer

def ofProvide (params : ProvideSpecParams) (origin : VersionOrigin) : Offer :=
  { origin := if params.dryRun then {} else origin
    trunk := params.trunk && params.tag.isNone }

/-- A trunk build with a link. -/
def trunkLink (offer : Offer) : Bool := offer.trunk && offer.origin.buildUrl.isSome

/-- The origin as it is stored, marked by the build it came from. -/
def marked (offer : Offer) : VersionOrigin := { offer.origin with trunkBuild := offer.trunkLink }

def speaks (offer : Offer) : Bool := !offer.origin.isEmpty

end Offer

/-- What an origin becomes with a Provide of known bytes. -/
def settle (stored : Option VersionOrigin) (offer : Offer) : Option VersionOrigin :=
  if offer.speaks then (originForIdenticalProvide stored offer.origin offer.trunk).or stored else stored

/-- The first Provide that says something. -/
def firstOffer (offers : List Offer) : Option Offer := offers.find? Offer.speaks

/-- The first trunk build with a link after it. -/
def laterTrunk (offers : List Offer) : Option Offer :=
  (offers.dropWhile fun offer => !offer.speaks).tail.find? Offer.trunkLink

/-- What the first one said, with the link of a trunk build after it, unless it was one itself. -/
def decided (first later : Option Offer) : Option VersionOrigin :=
  first.map fun first =>
    match later with
    | some trunk =>
        if first.trunkLink then first.marked
        else
          { buildUrl := trunk.origin.buildUrl
            changeUrl := first.origin.changeUrl.or trunk.origin.changeUrl
            tickets := if first.origin.tickets.isEmpty then trunk.origin.tickets else first.origin.tickets
            note := first.origin.note.or trunk.origin.note
            trunkBuild := true }
    | none => first.marked

/-- A stored origin after some Provides of known bytes: a field that said something still says it,
and the link changed once at most, to that of a trunk build. -/
structure Gains (offers : List Offer) (stored now : VersionOrigin) : Prop where
  change : stored.changeUrl ≠ none → now.changeUrl = stored.changeUrl
  tickets : stored.tickets ≠ [] → now.tickets = stored.tickets
  note : stored.note ≠ none → now.note = stored.note
  build : now.buildUrl ≠ stored.buildUrl → now.trunkBuild = true ∧
    ∃ offer ∈ offers, offer.trunk = true ∧ offer.origin.buildUrl ≠ none ∧
      now.buildUrl = offer.origin.buildUrl
  final : stored.trunkBuild = true → now = stored

section Settling

variable {offer : Offer} {offers : List Offer} {stored now : VersionOrigin}

theorem Offer.speaks_of_trunkLink (linked : offer.trunkLink = true) : offer.speaks = true := by
  rw [trunkLink, Bool.and_eq_true, Option.isSome_iff_exists] at linked
  obtain ⟨-, link, linked⟩ := linked
  simp [speaks, VersionOrigin.isEmpty, linked]

theorem settle_none (speaks : offer.speaks = true) : settle none offer = some offer.marked := by
  rw [settle, if_pos speaks]
  rfl

theorem settle_silent (silent : offer.speaks = false) (before : Option VersionOrigin) :
    settle before offer = before := by
  rw [settle, silent]
  rfl

/-- A stored origin changes only where a trunk build with a link meets one of a branch build. -/
theorem settle_some (stored : VersionOrigin) (offer : Offer) :
    settle (some stored) offer =
      some (if offer.trunkLink = true ∧ stored.trunkBuild = false then
        { buildUrl := offer.origin.buildUrl
          changeUrl := stored.changeUrl.or offer.origin.changeUrl
          tickets := if stored.tickets.isEmpty then offer.origin.tickets else stored.tickets
          note := stored.note.or offer.origin.note
          trunkBuild := true }
      else stored) := by
  by_cases speaks : offer.speaks = true
  · rw [settle, if_pos speaks, originForIdenticalProvide]
    by_cases linked : offer.trunkLink = true
    · cases built : stored.trunkBuild with
      | false =>
          simp only [Offer.trunkLink] at linked
          simp [Offer.trunkLink, linked]
      | true => simp
    · have unlinked : (offer.trunk && offer.origin.buildUrl.isSome) = false :=
        Bool.eq_false_of_not_eq_true linked
      have kept : ¬(offer.trunkLink = true ∧ stored.trunkBuild = false) := fun both => linked both.1
      rw [unlinked, if_neg kept]
      rfl
  · have unlinked : ¬offer.trunkLink = true := fun linked => speaks (Offer.speaks_of_trunkLink linked)
    rw [settle, if_neg speaks, if_neg fun both => unlinked both.1]

theorem foldl_settle_final (built : stored.trunkBuild = true) (offers : List Offer) :
    offers.foldl settle (some stored) = some stored := by
  induction offers with
  | nil => rfl
  | cons offer rest ih =>
      rw [List.foldl_cons, settle_some, if_neg fun both => by rw [built] at both; cases both.2]
      exact ih

/-- After the first origin only the first trunk build with a link counts. -/
theorem foldl_settle_some (unbuilt : stored.trunkBuild = false) (offers : List Offer) :
    offers.foldl settle (some stored) =
      match offers.find? Offer.trunkLink with
      | some trunk => settle (some stored) trunk
      | none => some stored := by
  induction offers with
  | nil => rfl
  | cons offer rest ih =>
      rw [List.foldl_cons, List.find?_cons]
      cases linked : offer.trunkLink with
      | true =>
          dsimp only
          rw [settle_some, if_pos ⟨linked, unbuilt⟩]
          exact foldl_settle_final rfl rest
      | false =>
          dsimp only
          rw [settle_some, if_neg fun both => by rw [linked] at both; cases both.1]
          exact ih

/-- What is stored in the end is decided by two of the Provides. -/
theorem foldl_settle (offers : List Offer) :
    offers.foldl settle none = decided (firstOffer offers) (laterTrunk offers) := by
  induction offers with
  | nil => rfl
  | cons offer rest ih =>
      rw [List.foldl_cons, firstOffer, List.find?_cons, laterTrunk, List.dropWhile_cons]
      cases speaks : offer.speaks with
      | false =>
          rw [settle_silent speaks, ih]
          rfl
      | true =>
          rw [settle_none speaks]
          simp only [Bool.not_true, Bool.false_eq_true, if_false, List.tail_cons, decided, Option.map_some]
          cases linked : offer.trunkLink with
          | true =>
              rw [foldl_settle_final (show offer.marked.trunkBuild = true from linked)]
              cases rest.find? Offer.trunkLink <;> simp
          | false =>
              rw [foldl_settle_some (show offer.marked.trunkBuild = false from linked)]
              cases found : rest.find? Offer.trunkLink with
              | none => rfl
              | some trunk =>
                  have later := List.find?_some found
                  dsimp only
                  rw [settle_some, if_pos ⟨later, linked⟩, if_neg Bool.false_ne_true]
                  rfl

theorem gains_refl (offers : List Offer) (stored : VersionOrigin) : Gains offers stored stored :=
  ⟨fun _ => rfl, fun _ => rfl, fun _ => rfl, fun differs => absurd rfl differs, fun _ => rfl⟩

/-- What is stored only ever gains. -/
theorem foldl_settle_gains (offers : List Offer) (stored : VersionOrigin) :
    ∃ now, offers.foldl settle (some stored) = some now ∧ Gains offers stored now := by
  cases built : stored.trunkBuild with
  | true => exact ⟨stored, foldl_settle_final built offers, gains_refl offers stored⟩
  | false =>
      rw [foldl_settle_some built]
      cases found : offers.find? Offer.trunkLink with
      | none => exact ⟨stored, rfl, gains_refl offers stored⟩
      | some trunk =>
          have linked := List.find?_some found
          dsimp only
          rw [settle_some, if_pos ⟨linked, built⟩]
          rw [Offer.trunkLink, Bool.and_eq_true] at linked
          refine ⟨_, rfl, ?_, ?_, ?_, ?_, ?_⟩
          · intro said
            exact Option.or_of_isSome (Option.isSome_iff_ne_none.mpr said)
          · intro said
            simp [said]
          · intro said
            exact Option.or_of_isSome (Option.isSome_iff_ne_none.mpr said)
          · intro _
            exact ⟨rfl, trunk, List.mem_of_find?_eq_some found, linked.1,
              Option.isSome_iff_ne_none.mp linked.2, rfl⟩
          · intro final
            rw [built] at final
            cases final

end Settling
end Sanshain.Application
