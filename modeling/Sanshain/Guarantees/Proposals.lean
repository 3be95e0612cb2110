import Mathlib.Algebra.Order.Group.Nat
import Mathlib.Data.Finset.Card
import Mathlib.Logic.Function.Iterate
import Mathlib.Order.Bounds.Basic
import Sanshain.Application.VersionRules

namespace Sanshain.Guarantees

open Sanshain.Domain Sanshain.Application

section Search

variable {step : SemVer → SemVer} {taken : List SemVer} {fuel count : ℕ}
  {candidate proposed : SemVer}

/-- The number is the first free one, so many steps after the candidate. -/
def FirstFree (step : SemVer → SemVer) (taken : List SemVer) (candidate : SemVer) (count : ℕ)
    (proposed : SemVer) : Prop :=
  step^[count] candidate = proposed ∧ proposed ∉ taken ∧
    ∀ earlier < count, step^[earlier] candidate ∈ taken

theorem proposeFrom_eq_some :
    proposeFrom step taken fuel candidate = some proposed ↔
      ∃ count < fuel, FirstFree step taken candidate count proposed := by
  induction fuel generalizing candidate with
  | zero => simp [proposeFrom]
  | succ fuel ih =>
      rw [proposeFrom]
      split
      · rename_i used
        rw [ih]
        constructor
        · rintro ⟨count, within, reached, free, before⟩
          refine ⟨count + 1, by omega, reached, free, fun earlier less => ?_⟩
          cases earlier with
          | zero => exact used
          | succ earlier => exact before earlier (by omega)
        · rintro ⟨count, within, reached, free, before⟩
          cases count with
          | zero => exact absurd (reached ▸ used) free
          | succ count =>
              exact ⟨count, by omega, reached, free,
                fun earlier less => before (earlier + 1) (by omega)⟩
      · rename_i free
        constructor
        · intro found
          cases found
          exact ⟨0, by omega, rfl, free, by simp⟩
        · rintro ⟨count, _, reached, _, before⟩
          cases count with
          | zero => exact congrArg some reached
          | succ count => exact absurd (before 0 (by omega)) free

/-- The numbers before the first free one are different, for the walk would otherwise go round
among them. -/
theorem FirstFree.count_le (first : FirstFree step taken candidate count proposed) :
    count ≤ taken.length := by
  obtain ⟨reached, free, before⟩ := first
  have distinct : Set.InjOn (fun index => step^[index] candidate) (Finset.range count) := by
    have apart (low high : ℕ) (less : low < high) (below : high < count) :
        step^[low] candidate ≠ step^[high] candidate := by
      intro same
      have shorter : step^[count - high + low] candidate = proposed := by
        rw [Function.iterate_add_apply, same, ← Function.iterate_add_apply, ← reached]
        congr 1
        omega
      exact free (shorter ▸ before (count - high + low) (by omega))
    intro left leftIn right rightIn same
    simp only [Finset.coe_range, Set.mem_Iio] at leftIn rightIn
    rcases lt_trichotomy left right with less | equal | less
    · exact absurd same (apart left right less rightIn)
    · exact equal
    · exact absurd same.symm (apart right left less leftIn)
  have within : (Finset.range count).image (fun index => step^[index] candidate) ⊆
      taken.toFinset := by
    intro number among
    obtain ⟨index, below, rfl⟩ := Finset.mem_image.mp among
    exact List.mem_toFinset.mpr (before index (Finset.mem_range.mp below))
  calc count = ((Finset.range count).image fun index => step^[index] candidate).card := by
        rw [Finset.card_image_of_injOn distinct, Finset.card_range]
    _ ≤ taken.toFinset.card := Finset.card_le_card within
    _ ≤ taken.length := taken.toFinset_card_le

/-- One attempt more than there are taken numbers finds what any number of attempts finds. -/
theorem proposeFrom_enough :
    proposeFrom step taken (taken.length + 1) candidate = some proposed ↔
      ∃ fuel, proposeFrom step taken fuel candidate = some proposed := by
  constructor
  · intro found
    exact ⟨_, found⟩
  · rintro ⟨fuel, found⟩
    obtain ⟨count, _, first⟩ := proposeFrom_eq_some.mp found
    have few := first.count_le
    exact proposeFrom_eq_some.mpr ⟨count, by omega, first⟩

theorem FirstFree.exists (free : step^[count] candidate ∉ taken) :
    ∃ count' ≤ count, FirstFree step taken candidate count' (step^[count'] candidate) := by
  have some : ∃ index, step^[index] candidate ∉ taken := ⟨count, free⟩
  classical
  refine ⟨Nat.find some, Nat.find_min' some free, rfl, Nat.find_spec some, ?_⟩
  intro earlier less
  exact not_not.mp (Nat.find_min some less)

end Search

section Numbers

variable {line : List SpecVersionMeta} {candidate version proposed : SemVer}

/-- The loops over a line end with a number just when the steps meet a free one. -/
theorem proposeFrom_line {step : SemVer → SemVer} :
    proposeFrom step (line.map (·.version)) (line.length + 1) candidate = some proposed ↔
      ∃ count, FirstFree step (line.map (·.version)) candidate count proposed := by
  have enough := @proposeFrom_enough step (line.map (·.version)) candidate proposed
  rw [List.length_map] at enough
  rw [enough]
  constructor
  · rintro ⟨fuel, found⟩
    obtain ⟨count, _, first⟩ := proposeFrom_eq_some.mp found
    exact ⟨count, first⟩
  · rintro ⟨count, first⟩
    exact ⟨count + 1, proposeFrom_eq_some.mpr ⟨count, by omega, first⟩⟩

theorem toNat_iterate_saturatingSucc (number : UInt32) (count : ℕ) :
    (saturatingSucc^[count] number).toNat = min (number.toNat + count) (2 ^ 32 - 1) := by
  induction count with
  | zero =>
      have bound := number.toNat_lt
      simp only [Function.iterate_zero, id_eq]
      omega
  | succ count ih =>
      rw [Function.iterate_succ_apply', saturatingSucc_toNat, ih]
      omega

theorem iterate_saturatingSucc_reaches {low high : UInt32} (le : low.toNat ≤ high.toNat) :
    saturatingSucc^[high.toNat - low.toNat] low = high := by
  have bound := high.toNat_lt
  apply UInt32.toNat_inj.mp
  rw [toNat_iterate_saturatingSucc]
  omega

theorem iterate_patch (count : ℕ) :
    (·.increment .patch)^[count] version =
      ⟨version.major, version.minor, saturatingSucc^[count] version.patch⟩ := by
  induction count with
  | zero => rfl
  | succ count ih => rw [Function.iterate_succ_apply', ih, Function.iterate_succ_apply']; rfl

theorem iterate_minor (count : ℕ) :
    (·.increment .minor)^[count] (version.increment .minor) =
      ⟨version.major, saturatingSucc^[count + 1] version.minor, 0⟩ := by
  induction count with
  | zero => rfl
  | succ count ih => rw [Function.iterate_succ_apply', ih, Function.iterate_succ_apply' _ (count + 1)]; rfl

/-- The least free number at or above the candidate is proposed just when the candidate's own
minor has a free patch left. -/
theorem proposeFree_least_iff :
    (∃ proposed, proposeFree line candidate = some proposed ∧
        IsLeast { free | candidate ≤ free ∧ free ∉ line.map (·.version) } proposed) ↔
      ∃ patch : UInt32, candidate.patch.toNat ≤ patch.toNat ∧
        ⟨candidate.major, candidate.minor, patch⟩ ∉ line.map (·.version) := by
  constructor
  · rintro ⟨proposed, found, least⟩
    obtain ⟨count, reached, free, _⟩ := proposeFrom_line.mp found
    rw [iterate_patch] at reached
    refine ⟨saturatingSucc^[count] candidate.patch, ?_, reached ▸ free⟩
    have bound := candidate.patch.toNat_lt
    rw [toNat_iterate_saturatingSucc]
    omega
  · rintro ⟨patch, above, free⟩
    have reaches : (·.increment .patch)^[patch.toNat - candidate.patch.toNat] candidate =
        ⟨candidate.major, candidate.minor, patch⟩ := by
      rw [iterate_patch, iterate_saturatingSucc_reaches above]
    obtain ⟨count, _, first⟩ := FirstFree.exists (reaches ▸ free)
    refine ⟨_, proposeFrom_line.mpr ⟨count, first⟩, ⟨?_, first.2.1⟩, ?_⟩
    · rw [iterate_patch]
      refine not_lt.mp fun less => ?_
      have bound := candidate.patch.toNat_lt
      have lower := (SemVer.lt_iff _ _).mp less
      simp only [lt_self_iff_false, false_or, true_and, toNat_iterate_saturatingSucc] at lower
      omega
    · intro other ⟨atLeast, unused⟩
      refine not_lt.mp fun less => ?_
      rw [iterate_patch] at less
      have below := (SemVer.lt_iff _ _).mp less
      have above := mt (SemVer.lt_iff _ _).mpr (not_lt.mpr atLeast)
      obtain ⟨major, minor, patch⟩ := other
      simp only [toNat_iterate_saturatingSucc] at below
      simp only [not_or, not_and] at above
      -- a smaller number at or above the candidate is of its minor, so the loop has passed it
      obtain ⟨rfl, inMinor⟩ := below.resolve_left above.1
      obtain ⟨rfl, inPatch⟩ := inMinor.resolve_left (above.2 rfl).1
      have after : candidate.patch.toNat ≤ patch.toNat := not_lt.mp ((above.2 rfl).2 rfl)
      have passed := first.2.2 (patch.toNat - candidate.patch.toNat) (by omega)
      rw [iterate_patch, iterate_saturatingSucc_reaches after] at passed
      exact unused passed

/-- A free number above the argument is proposed just when one of the later minors is free. -/
theorem proposeFreeMinor_above_iff :
    (∃ proposed, proposeFreeMinor line version = some proposed ∧ version < proposed ∧
        proposed ∉ line.map (·.version)) ↔
      ∃ minor : UInt32, version.minor.toNat < minor.toNat ∧
        ⟨version.major, minor, 0⟩ ∉ line.map (·.version) := by
  constructor
  · rintro ⟨proposed, found, above, free⟩
    obtain ⟨count, reached, _⟩ := proposeFrom_line.mp found
    rw [iterate_minor] at reached
    subst reached
    have greater := (SemVer.lt_iff _ _).mp above
    simp only [lt_self_iff_false, false_or, true_and] at greater
    have zero : (0 : UInt32).toNat = 0 := rfl
    exact ⟨_, greater.resolve_right (by omega), free⟩
  · rintro ⟨minor, above, free⟩
    have next : (saturatingSucc version.minor).toNat ≤ minor.toNat := by
      rw [saturatingSucc_toNat]
      omega
    have reaches : (·.increment .minor)^[minor.toNat - (saturatingSucc version.minor).toNat]
        (version.increment .minor) = ⟨version.major, minor, 0⟩ := by
      rw [iterate_minor, Function.iterate_succ_apply, iterate_saturatingSucc_reaches next]
    obtain ⟨count, _, first⟩ := FirstFree.exists (reaches ▸ free)
    refine ⟨_, proposeFrom_line.mpr ⟨count, first⟩, ?_, first.2.1⟩
    have bound := minor.toNat_lt
    rw [iterate_minor, SemVer.lt_iff, toNat_iterate_saturatingSucc]
    exact .inr ⟨rfl, .inl (by omega)⟩

theorem proposals_free_iff (line : List SpecVersionMeta) (candidate version : SemVer) :
    ((∃ proposed, proposeFree line candidate = some proposed ∧
        IsLeast { free | candidate ≤ free ∧ free ∉ line.map (·.version) } proposed) ∧
      ∃ proposed, proposeFreeMinor line version = some proposed ∧ version < proposed ∧
        proposed ∉ line.map (·.version)) ↔
      (∃ patch : UInt32, candidate.patch.toNat ≤ patch.toNat ∧
        ⟨candidate.major, candidate.minor, patch⟩ ∉ line.map (·.version)) ∧
      ∃ minor : UInt32, version.minor.toNat < minor.toNat ∧
        ⟨version.major, minor, 0⟩ ∉ line.map (·.version) :=
  and_congr proposeFree_least_iff proposeFreeMinor_above_iff

/-- The only entry of a line, at the last patch of its minor. -/
def lastPatch : SpecVersionMeta where
  id := 1
  serviceId := 1
  apiType := .openApi
  version := ⟨1, 0, 4294967295⟩
  stability := .ga
  contentHash := ""
  providedBy := ""
  createdAt := 0
  updatedAt := 0
  lastRequiredAt := none
  trunkProvidedAt := none

theorem last_numbers_fail :
    (∀ fuel, proposeFrom (·.increment .patch) [lastPatch.version] fuel lastPatch.version = none) ∧
      (¬∃ proposed, proposeFree [lastPatch] lastPatch.version = some proposed ∧
        IsLeast { free | lastPatch.version ≤ free ∧ free ∉ [lastPatch].map (·.version) }
          proposed) ∧
      ¬∃ proposed, proposeFreeMinor [] ⟨1, 4294967295, 3⟩ = some proposed ∧
        ⟨1, 4294967295, 3⟩ < proposed ∧
        proposed ∉ ([] : List SpecVersionMeta).map (·.version) := by
  have stays : lastPatch.version.increment .patch = lastPatch.version := by decide +kernel
  have around (fuel : ℕ) : proposeFrom (·.increment .patch) [lastPatch.version] fuel
      lastPatch.version = none := by
    induction fuel with
    | zero => rfl
    | succ fuel ih => rw [proposeFrom, if_pos List.mem_cons_self, stays, ih]
  refine ⟨around, ?_, ?_⟩
  · rintro ⟨proposed, found, _⟩
    have none : proposeFree [lastPatch] lastPatch.version = none := around 2
    cases none.symm.trans found
  · rintro ⟨proposed, found, above, _⟩
    have back : proposeFreeMinor [] ⟨1, 4294967295, 3⟩ = some ⟨1, 4294967295, 0⟩ := by
      decide +kernel
    cases back.symm.trans found
    exact absurd above (by decide +kernel)

end Numbers
end Sanshain.Guarantees
