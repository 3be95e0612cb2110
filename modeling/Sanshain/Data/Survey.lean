import Mathlib.Data.Set.Basic

namespace Sanshain.Data

/-- The places of a document that a reader looks at: the facts it reads at each and the facts the
place stands for. At a plain place the two agree. -/
structure Survey (Place Fact : Type) where
  places : Set Place
  read : Place → Set Fact
  meant : Place → Set Fact
  plain : Place → Prop
  faithful : ∀ place ∈ places, plain place → read place = meant place

namespace Survey

variable {Place Fact : Type} (survey : Survey Place Fact)

def reads : Set Fact := { fact | ∃ place ∈ survey.places, fact ∈ survey.read place }

def means : Set Fact := { fact | ∃ place ∈ survey.places, fact ∈ survey.meant place }

/-- The facts of places that are not plain which are read nowhere. -/
def lost : Set Fact :=
  { fact | (∃ place ∈ survey.places, ¬survey.plain place ∧ fact ∈ survey.meant place) ∧
    fact ∉ survey.reads }

/-- The facts read at places that are not plain which the document does not have. -/
def invented : Set Fact :=
  { fact | (∃ place ∈ survey.places, ¬survey.plain place ∧ fact ∈ survey.read place) ∧
    fact ∉ survey.means }

variable {survey}

theorem mem_lost_iff {fact : Fact} :
    fact ∈ survey.lost ↔ fact ∈ survey.means ∧ fact ∉ survey.reads := by
  constructor
  · rintro ⟨⟨place, among, _, stands⟩, unread⟩
    exact ⟨⟨place, among, stands⟩, unread⟩
  · rintro ⟨⟨place, among, stands⟩, unread⟩
    refine ⟨⟨place, among, fun plain => ?_, stands⟩, unread⟩
    exact unread ⟨place, among, survey.faithful place among plain ▸ stands⟩

theorem mem_invented_iff {fact : Fact} :
    fact ∈ survey.invented ↔ fact ∈ survey.reads ∧ fact ∉ survey.means := by
  constructor
  · rintro ⟨⟨place, among, _, seen⟩, foreign⟩
    exact ⟨⟨place, among, seen⟩, foreign⟩
  · rintro ⟨⟨place, among, seen⟩, foreign⟩
    refine ⟨⟨place, among, fun plain => ?_, seen⟩, foreign⟩
    exact foreign ⟨place, among, survey.faithful place among plain ▸ seen⟩

/-- Two documents that mean the same are read the same just when the same facts are lost and the
same are invented at their places that are not plain. -/
theorem reads_eq_iff {other : Survey Place Fact} (same : survey.means = other.means) :
    survey.reads = other.reads ↔
      survey.lost = other.lost ∧ survey.invented = other.invented := by
  constructor
  · intro equal
    constructor
    · ext fact
      rw [mem_lost_iff, mem_lost_iff, same, equal]
    · ext fact
      rw [mem_invented_iff, mem_invented_iff, same, equal]
  · rintro ⟨lost, invented⟩
    have seen_in (first second : Survey Place Fact) (means : first.means = second.means)
        (lost : first.lost = second.lost) (invented : first.invented = second.invented)
        {fact : Fact} (seen : fact ∈ first.reads) : fact ∈ second.reads := by
      by_contra unseen
      by_cases meant : fact ∈ first.means
      · have gone : fact ∈ first.lost := lost ▸ mem_lost_iff.mpr ⟨means ▸ meant, unseen⟩
        exact (mem_lost_iff.mp gone).2 seen
      · have foreign : fact ∈ second.invented := invented ▸ mem_invented_iff.mpr ⟨seen, meant⟩
        exact unseen (mem_invented_iff.mp foreign).1
    ext fact
    exact ⟨seen_in survey other same lost invented, seen_in other survey same.symm lost.symm
      invented.symm⟩

end Survey
end Sanshain.Data
