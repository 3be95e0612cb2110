import Mathlib.Tactic

namespace Sanshain.History

section Renewal

variable {Value Version : Type}

/-- At a version the value is there, and is not what it was in the version before. -/
def RenewedAt : Option Value → List (Version × Option Value) → Version → Prop
  | _, [], _ => False
  | before, (version, now) :: rest, at_version =>
      (at_version = version ∧ now ≠ none ∧ before ≠ now) ∨ RenewedAt now rest at_version

theorem RenewedAt.mem {before : Option Value} {history : List (Version × Option Value)} {version : Version}
    (renewed : RenewedAt before history version) : version ∈ history.map Prod.fst := by
  induction history generalizing before with
  | nil => cases renewed
  | cons entry rest ih =>
      cases renewed with
      | inl here => exact List.mem_cons.mpr (.inl here.1)
      | inr later => exact List.mem_cons_of_mem _ (ih later)

/-- The value after a history. -/
def latest : Option Value → List (Version × Option Value) → Option Value
  | before, [] => before
  | _, (_, now) :: rest => latest now rest

/-- A renewal of a history is one step of it. -/
theorem renewedAt_iff {before : Option Value} {history : List (Version × Option Value)}
    {version : Version} :
    RenewedAt before history version ↔ ∃ earlier now later, history = earlier ++ (version, now) :: later ∧
      now ≠ none ∧ latest before earlier ≠ now := by
  induction history generalizing before with
  | nil => simp [RenewedAt]
  | cons entry rest ih =>
      obtain ⟨first, value⟩ := entry
      rw [RenewedAt, ih]
      constructor
      · intro renewed
        cases renewed with
        | inl here =>
            obtain ⟨rfl, there, differs⟩ := here
            exact ⟨[], value, rest, rfl, there, differs⟩
        | inr later =>
            obtain ⟨earlier, now, after, rfl, there, differs⟩ := later
            exact ⟨(first, value) :: earlier, now, after, rfl, there, differs⟩
      · intro ⟨earlier, now, after, whole, there, differs⟩
        cases earlier with
        | nil =>
            obtain ⟨same, rfl⟩ := List.cons.inj whole
            cases same
            exact .inl ⟨rfl, there, differs⟩
        | cons head tail =>
            obtain ⟨same, rest⟩ := List.cons.inj whole
            cases same
            exact .inr ⟨tail, now, after, rest, there, differs⟩

theorem latest_eq (before : Option Value) (history : List (Version × Option Value)) :
    latest before history = (history.getLast?.map Prod.snd).getD before := by
  induction history generalizing before with
  | nil => rfl
  | cons entry rest ih =>
      rw [latest, ih]
      cases rest <;> simp [List.getLast?_cons]

/-- What is there at the end was there before, or was renewed. -/
theorem latest_cases {before : Option Value} {history : List (Version × Option Value)}
    (there : latest before history ≠ none) :
    latest before history = before ∨ ∃ version, RenewedAt before history version := by
  induction history generalizing before with
  | nil => exact .inl rfl
  | cons entry rest ih =>
      obtain ⟨first, now⟩ := entry
      cases ih there with
      | inl same =>
          change latest now rest ≠ none at there
          rw [same] at there
          by_cases kept : before = now
          · exact .inl (same.trans kept.symm)
          · exact .inr ⟨first, .inl ⟨rfl, there, kept⟩⟩
      | inr later =>
          obtain ⟨version, renewed⟩ := later
          exact .inr ⟨version, .inr renewed⟩

/-- Renewals are those of a record that tells values apart that follow one another. -/
theorem renewedAt_map {Record : Type} {record : Value → Record} {before : Option Value}
    {history : List (Version × Option Value)} {version : Version}
    (faithful : (before :: history.map Prod.snd).IsChain fun first second =>
      first.map record = second.map record → first = second) :
    RenewedAt (before.map record) (history.map fun entry => (entry.1, entry.2.map record)) version ↔
      RenewedAt before history version := by
  induction history generalizing before with
  | nil => exact Iff.rfl
  | cons entry rest ih =>
      obtain ⟨first, now⟩ := entry
      obtain ⟨here, later⟩ := List.isChain_cons_cons.mp faithful
      have differs : before.map record ≠ now.map record ↔ before ≠ now := by
        apply not_congr
        exact ⟨here, congrArg (Option.map record)⟩
      rw [List.map_cons, RenewedAt, RenewedAt, differs, Ne, Option.map_eq_none_iff, ih later]

variable [DecidableEq Value]

/-- The version of the last renewal. -/
def lastRenewed : Option Value → List (Version × Option Value) → Option Version
  | _, [] => none
  | before, (version, now) :: rest =>
      (lastRenewed now rest).or (if now ≠ none ∧ before ≠ now then some version else none)

/-- Keeping the version of the last renewal while the history goes on. -/
theorem lastRenewed_concat (before : Option Value) (history : List (Version × Option Value))
    (version : Version) (now : Option Value) :
    lastRenewed before (history ++ [(version, now)]) =
      if now ≠ none ∧ latest before history ≠ now then some version else lastRenewed before history := by
  induction history generalizing before with
  | nil => rfl
  | cons entry rest ih =>
      obtain ⟨first, value⟩ := entry
      rw [List.cons_append, lastRenewed, ih, latest, lastRenewed]
      split <;> rfl

theorem lastRenewed_eq_none_iff {before : Option Value} {history : List (Version × Option Value)} :
    lastRenewed before history = none ↔ ∀ version, ¬ RenewedAt before history version := by
  induction history generalizing before with
  | nil => simp [lastRenewed, RenewedAt]
  | cons entry rest ih =>
      obtain ⟨first, now⟩ := entry
      rw [lastRenewed, Option.or_eq_none_iff, ih, ite_eq_right_iff]
      simp only [RenewedAt, not_or, reduceCtorEq, imp_false]
      constructor
      · intro ⟨later, here⟩ version
        exact ⟨fun renewed => here renewed.2, later version⟩
      · intro quiet
        exact ⟨fun version => (quiet version).2, fun renewed => (quiet first).1 ⟨rfl, renewed⟩⟩

variable [LinearOrder Version]

/-- In a history of ascending versions it is the newest version of a renewal. -/
theorem lastRenewed_eq_some_iff {before : Option Value} {history : List (Version × Option Value)}
    (ascending : (history.map Prod.fst).Pairwise (· < ·)) {version : Version} :
    lastRenewed before history = some version ↔
      IsGreatest {version | RenewedAt before history version} version := by
  induction history generalizing before version with
  | nil => simp [lastRenewed, RenewedAt, IsGreatest]
  | cons entry rest ih =>
      obtain ⟨first, now⟩ := entry
      obtain ⟨oldest, ascending⟩ := List.pairwise_cons.mp ascending
      have later : ∀ {version}, RenewedAt now rest version → first < version :=
        fun renewed => oldest _ renewed.mem
      cases told : lastRenewed now rest with
      | some newest =>
          have greatest := (ih ascending).mp told
          rw [lastRenewed, told, Option.some_or, Option.some.injEq]
          have whole : IsGreatest {version | RenewedAt before ((first, now) :: rest) version} newest := by
            refine ⟨.inr greatest.1, fun other renewed => ?_⟩
            cases renewed with
            | inl here => exact here.1 ▸ (later greatest.1).le
            | inr renewed => exact greatest.2 renewed
          constructor
          · rintro rfl
            exact whole
          · intro greatest'
            exact whole.unique greatest'
      | none =>
          have quiet := lastRenewed_eq_none_iff.mp told
          rw [lastRenewed, told, Option.none_or, Option.ite_none_right_eq_some]
          constructor
          · intro ⟨renewed, same⟩
            cases same
            refine ⟨.inl ⟨rfl, renewed⟩, fun other renewed => ?_⟩
            exact renewed.elim (fun here => here.1.le) fun later => absurd later (quiet other)
          · intro greatest
            cases greatest.1 with
            | inl here => exact ⟨here.2, by rw [here.1]⟩
            | inr renewed => exact absurd renewed (quiet version)

end Renewal

section Newest

variable {Value Version : Type} [LinearOrder Version]

/-- One of the renewals is the newest. -/
theorem exists_newest_renewal {before : Option Value} {history : List (Version × Option Value)}
    (ascending : (history.map Prod.fst).Pairwise (· < ·)) {version : Version}
    (renewed : RenewedAt before history version) :
    ∃ newest, IsGreatest {version | RenewedAt before history version} newest := by
  classical
  cases told : lastRenewed before history with
  | none => exact absurd renewed (lastRenewed_eq_none_iff.mp told version)
  | some newest => exact ⟨newest, (lastRenewed_eq_some_iff ascending).mp told⟩

end Newest
end Sanshain.History
