import Mathlib.Tactic

namespace Sanshain.Data

variable {Row Want : Type} {answers : Row → Want → Bool} {fresh : Want → Row}

/-- Every want that no row answers yet brings a fresh row. -/
def fill (answers : Row → Want → Bool) (fresh : Want → Row) (rows : List Row) (wants : List Want) :
    List Row :=
  wants.foldl (fun rows want =>
    if rows.any fun row => answers row want then rows else rows ++ [fresh want]) rows

@[simp] theorem fill_nil (rows : List Row) : fill answers fresh rows [] = rows := rfl

theorem fill_cons (rows : List Row) (want : Want) (wants : List Want) :
    fill answers fresh rows (want :: wants) = fill answers fresh
      (if rows.any fun row => answers row want then rows else rows ++ [fresh want]) wants := rfl

/-- What is filled in comes after the rows, and is fresh for one of the wants. -/
theorem fill_eq_append (answers : Row → Want → Bool) (fresh : Want → Row) (rows : List Row)
    (wants : List Want) :
    ∃ added, fill answers fresh rows wants = rows ++ added ∧
      ∀ row ∈ added, ∃ want ∈ wants, row = fresh want := by
  induction wants generalizing rows with
  | nil => exact ⟨[], (List.append_nil rows).symm, fun row among => by cases among⟩
  | cons want rest ih =>
      rw [fill_cons]
      split
      · obtain ⟨added, same, own⟩ := ih rows
        refine ⟨added, same, fun row among => ?_⟩
        obtain ⟨other, later, made⟩ := own row among
        exact ⟨other, List.mem_cons_of_mem _ later, made⟩
      · obtain ⟨added, same, own⟩ := ih (rows ++ [fresh want])
        refine ⟨fresh want :: added, by rw [same, List.append_assoc, List.singleton_append], ?_⟩
        intro row among
        obtain rfl | among := List.mem_cons.mp among
        · exact ⟨want, List.mem_cons_self, rfl⟩
        · obtain ⟨other, later, made⟩ := own row among
          exact ⟨other, List.mem_cons_of_mem _ later, made⟩

/-- Every want is answered in the end. -/
theorem answered_fill (own : ∀ want, answers (fresh want) want = true) (rows : List Row)
    {wants : List Want} {want : Want} (wanted : want ∈ wants) :
    ∃ row ∈ fill answers fresh rows wants, answers row want = true := by
  induction wants generalizing rows with
  | nil => cases wanted
  | cons first rest ih =>
      rw [fill_cons]
      obtain rfl | later := List.mem_cons.mp wanted
      · obtain ⟨row, among, answer⟩ : ∃ row ∈ (if rows.any fun row => answers row want then rows
            else rows ++ [fresh want]), answers row want = true := by
          split
          · rename_i answered
            exact List.any_eq_true.mp answered
          · exact ⟨fresh want, List.mem_append.mpr (.inr List.mem_cons_self), own want⟩
        obtain ⟨added, same, -⟩ := fill_eq_append answers fresh _ rest
        exact ⟨row, by rw [same]; exact List.mem_append.mpr (.inl among), answer⟩
      · exact ih _ later

/-- What keeps rows apart keeps a fresh one apart from those that do not answer its want. -/
theorem pairwise_fill {apart : Row → Row → Prop} {rows : List Row}
    (unanswered : ∀ row want, answers row want = false → apart row (fresh want))
    (distinct : rows.Pairwise apart) (wants : List Want) :
    (fill answers fresh rows wants).Pairwise apart := by
  induction wants generalizing rows with
  | nil => exact distinct
  | cons want rest ih =>
      rw [fill_cons]
      split
      · exact ih distinct
      · rename_i none
        refine ih (List.pairwise_append.mpr ⟨distinct, List.pairwise_singleton _ _, ?_⟩)
        intro row among other new
        cases List.mem_singleton.mp new
        refine unanswered row want (Bool.eq_false_iff.mpr fun answered => none ?_)
        exact List.any_eq_true.mpr ⟨row, among, answered⟩

end Sanshain.Data
