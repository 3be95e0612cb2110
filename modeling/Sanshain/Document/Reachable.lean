import Sanshain.Document.OpenApi

namespace Sanshain.Document.OpenApiDocument

open Sanshain.Data Sanshain.Text

section Visit

variable {graph : Entries String (List String)} {fuel : ℕ} {stack visited : List String}
  {key other : String}

def neighborsOf (graph : Entries String (List String)) (key : String) : List String :=
  (Entries.get? graph key).getD []

/-- The pushes that are still to come: one for each edge out of a key not yet visited. -/
def edgesLeft (graph : Entries String (List String)) (visited : List String) : ℕ :=
  ((graph.filter (·.1 ∉ visited)).map fun entry => entry.2.length).sum

theorem edgesLeft_visit (fresh : key ∉ visited) :
    (neighborsOf graph key).length + edgesLeft graph (key :: visited) ≤ edgesLeft graph visited := by
  induction graph with
  | nil => simp [neighborsOf, edgesLeft]
  | cons entry rest ih =>
      have fewer : edgesLeft rest (key :: visited) ≤ edgesLeft rest visited :=
        (Nat.le_add_left _ _).trans ih
      simp only [neighborsOf, edgesLeft, Entries.get?_cons, List.filter_cons] at *
      by_cases same : entry.1 = key
      · simp only [same, fresh, List.mem_cons, true_or, not_true, decide_false, if_true,
          Option.getD_some, not_false_eq_true, decide_true, List.map_cons, List.sum_cons] at *
        simpa using fewer
      · by_cases seen : entry.1 ∈ visited
        · simpa [same, seen] using ih
        · simp [same, seen] at ih ⊢
          omega

/-- What holds of the visited and the waiting keys and of every neighbour of a key it holds of
holds of every key of the visit. -/
theorem visitComponents_sound {holds : String → Prop} (fuel : ℕ) (stack visited : List String)
    (step : ∀ key, holds key → ∀ next ∈ neighborsOf graph key, holds next)
    (waiting : ∀ key ∈ stack, holds key) (seen : ∀ key ∈ visited, holds key) :
    ∀ key ∈ visitComponents graph fuel stack visited, holds key := by
  induction fuel generalizing stack visited with
  | zero => exact seen
  | succ fuel ih =>
      cases stack with
      | nil => exact seen
      | cons first rest =>
          have later (key) (among : key ∈ rest) : holds key :=
            waiting key (List.mem_cons_of_mem _ among)
          rw [visitComponents]
          split
          · exact ih rest visited later seen
          · have first_holds := waiting first List.mem_cons_self
            apply ih
            · intro key among
              rcases List.mem_append.mp among with among | among
              · exact step first first_holds key
                  (List.mem_of_mem_filter (List.mem_reverse.mp among))
              · exact later key among
            · intro key among
              rcases List.mem_cons.mp among with rfl | among
              · exact first_holds
              · exact seen key among

/-- With fuel for every waiting key and every edge left, the visit takes up all of them. -/
theorem visitComponents_complete (fuel : ℕ) (stack visited : List String)
    (enough : stack.length + edgesLeft graph visited ≤ fuel)
    (open' : ∀ key ∈ visited, ∀ next ∈ neighborsOf graph key, next ∈ visited ∨ next ∈ stack) :
    (∀ key ∈ stack, key ∈ visitComponents graph fuel stack visited) ∧
      (∀ key ∈ visited, key ∈ visitComponents graph fuel stack visited) ∧
      ∀ key ∈ visitComponents graph fuel stack visited, ∀ next ∈ neighborsOf graph key,
        next ∈ visitComponents graph fuel stack visited := by
  have emptied (visited : List String) (open' : ∀ key ∈ visited, ∀ next ∈ neighborsOf graph key,
      next ∈ visited ∨ next ∈ ([] : List String)) :
      ∀ key ∈ visited, ∀ next ∈ neighborsOf graph key, next ∈ visited := by
    intro key among next edge
    simpa using open' key among next edge
  induction fuel generalizing stack visited with
  | zero =>
      have none : stack = [] := List.eq_nil_of_length_eq_zero (by omega)
      subst none
      exact ⟨by simp, fun _ among => among, emptied visited open'⟩
  | succ fuel ih =>
      cases stack with
      | nil => exact ⟨by simp, fun _ among => among, emptied visited open'⟩
      | cons first rest =>
          rw [List.length_cons] at enough
          rw [visitComponents]
          split
          · rename_i already
            obtain ⟨waiting, seen, closed⟩ := ih rest visited (by omega) (by
              intro key among next edge
              rcases open' key among next edge with there | there
              · exact .inl there
              · rcases List.mem_cons.mp there with rfl | there
                · exact .inl already
                · exact .inr there)
            refine ⟨fun key among => ?_, seen, closed⟩
            rcases List.mem_cons.mp among with rfl | among
            · exact seen key already
            · exact waiting key among
          · rename_i fresh
            have left : (neighborsOf graph first).length + edgesLeft graph (first :: visited) ≤
                edgesLeft graph visited := edgesLeft_visit fresh
            have pushed : (((neighborsOf graph first).filter (· ∉ first :: visited)).reverse).length ≤
                (neighborsOf graph first).length := by
              rw [List.length_reverse]
              exact List.length_filter_le _ _
            obtain ⟨waiting, seen, closed⟩ := ih
              (((neighborsOf graph first).filter (· ∉ first :: visited)).reverse ++ rest)
              (first :: visited) (by rw [List.length_append]; omega) (by
                intro key among next edge
                by_cases known : next ∈ first :: visited
                · exact .inl known
                · right
                  rcases List.mem_cons.mp among with rfl | among
                  · exact List.mem_append_left _
                      (List.mem_reverse.mpr (List.mem_filter.mpr ⟨edge, by simpa using known⟩))
                  · rcases open' key among next edge with there | there
                    · exact absurd (List.mem_cons_of_mem _ there) known
                    · rcases List.mem_cons.mp there with rfl | there
                      · exact absurd List.mem_cons_self known
                      · exact List.mem_append_right _ there)
            refine ⟨fun key among => ?_, fun key among => seen key (List.mem_cons_of_mem _ among),
              closed⟩
            rcases List.mem_cons.mp among with rfl | among
            · exact seen key List.mem_cons_self
            · exact waiting key (List.mem_append_right _ among)

/-- A key that the roots lead to along the edges of a graph. -/
inductive Leads (graph : Entries String (List String)) (roots : List String) : String → Prop
  | root {key : String} (among : key ∈ roots) : Leads graph roots key
  | edge {key next : String} (before : Leads graph roots key)
      (among : next ∈ neighborsOf graph key) : Leads graph roots next

/-- The visit finds exactly the keys that the roots lead to. -/
theorem mem_visitComponents {roots : List String} :
    key ∈ visitComponents graph (visitFuel graph roots) roots.reverse [] ↔ Leads graph roots key := by
  have enough : roots.reverse.length + edgesLeft graph [] ≤ visitFuel graph roots := by
    simp [visitFuel, edgesLeft]
  obtain ⟨waiting, _, closed⟩ := visitComponents_complete _ _ _ enough (by simp)
  constructor
  · exact @visitComponents_sound graph (Leads graph roots) _ _ _ (fun key leads next => .edge leads)
      (fun key among => .root (List.mem_reverse.mp among)) (by simp) key
  · intro leads
    induction leads with
    | root among => exact waiting _ (List.mem_reverse.mpr among)
    | edge _ among ih => exact closed _ ih _ among

end Visit
end Sanshain.Document.OpenApiDocument
