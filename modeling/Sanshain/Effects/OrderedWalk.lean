import Mathlib.Data.Finset.Card
import Mathlib.Logic.Relation

namespace Sanshain.Effects

/-- What a walk over a graph meets at a node, in this order: a reason to stop or a node to enter. -/
inductive Meeting (Node : Type) where
  | stop
  | enter (node : Node)

inductive WalkEnd where
  | through
  | stopped
  | endless
  deriving DecidableEq, Repr

namespace WalkEnd

def andThen (first second : WalkEnd) : WalkEnd :=
  match first with
  | .through => second
  | other => other

@[simp] theorem andThen_through (first : WalkEnd) : first.andThen .through = first := by
  cases first <;> rfl

theorem andThen_assoc (first second third : WalkEnd) :
    (first.andThen second).andThen third = first.andThen (second.andThen third) := by
  cases first <;> rfl

end WalkEnd

variable {Node : Type}

/-- The meetings of one node, each taken after the one before has been gone through. -/
def walkMeetings (enter : Node → WalkEnd) : List (Meeting Node) → WalkEnd
  | [] => .through
  | .stop :: _ => .stopped
  | .enter node :: rest => (enter node).andThen (walkMeetings enter rest)

theorem walkMeetings_append (enter : Node → WalkEnd) (first second : List (Meeting Node)) :
    walkMeetings enter (first ++ second) =
      (walkMeetings enter first).andThen (walkMeetings enter second) := by
  induction first with
  | nil => rfl
  | cons meeting rest ih =>
      cases meeting with
      | stop => rfl
      | enter node =>
          rw [List.cons_append, walkMeetings, walkMeetings, ih, WalkEnd.andThen_assoc]

variable (meetings : Node → List (Meeting Node))

/-- The walk from a node, so many levels deep. -/
def walk : ℕ → Node → WalkEnd
  | 0, _ => .endless
  | depth + 1, node => walkMeetings (walk depth) (meetings node)

/-- A stop can be reached from the node, along any of the meetings. -/
inductive ReachesStop : Node → Prop
  | here {node : Node} (stops : .stop ∈ meetings node) : ReachesStop node
  | inside {node inner : Node} (entered : .enter inner ∈ meetings node)
      (reaches : ReachesStop inner) : ReachesStop node

/-- No stop lies at the meeting or behind it. -/
def Meeting.Clear : Meeting Node → Prop
  | .stop => False
  | .enter node => ¬ReachesStop meetings node

/-- The node is among the meetings, and none before it leads to a stop. -/
def EntersIn (taken : List (Meeting Node)) (node : Node) : Prop :=
  ∃ before after, taken = before ++ .enter node :: after ∧
    ∀ meeting ∈ before, meeting.Clear meetings

def Enters (node inner : Node) : Prop := EntersIn meetings (meetings node) inner

variable {meetings} in
theorem Enters.mem {node inner : Node} (entered : Enters meetings node inner) :
    .enter inner ∈ meetings node := by
  obtain ⟨before, after, split, _⟩ := entered
  simp [split]

/-- Some node is entered again inside itself, and no stop lies before it in the order of the walk. -/
def GoesRound (node : Node) : Prop :=
  ∃ again, Relation.ReflTransGen (Enters meetings) node again ∧
    Relation.TransGen (Enters meetings) again again

section Meetings

variable {meetings} {enter : Node → WalkEnd} {taken : List (Meeting Node)}

theorem walkMeetings_eq_through :
    walkMeetings enter taken = .through ↔
      ∀ meeting ∈ taken, ∃ node, meeting = .enter node ∧ enter node = .through := by
  induction taken with
  | nil => simp [walkMeetings]
  | cons meeting rest ih =>
      cases meeting with
      | stop => simp [walkMeetings]
      | enter node =>
          rw [walkMeetings]
          cases entered : enter node <;> simp [WalkEnd.andThen, ih, entered]

theorem reachesStop_of_stopped (each : ∀ node, enter node = .stopped → ReachesStop meetings node)
    (stopped : walkMeetings enter taken = .stopped) :
    ∃ meeting ∈ taken, ¬meeting.Clear meetings := by
  induction taken with
  | nil => cases stopped
  | cons meeting rest ih =>
      cases meeting with
      | stop => exact ⟨.stop, List.mem_cons_self, id⟩
      | enter node =>
          rw [walkMeetings] at stopped
          cases entered : enter node with
          | through =>
              rw [entered] at stopped
              obtain ⟨other, among, unclear⟩ := ih stopped
              exact ⟨other, List.mem_cons_of_mem _ among, unclear⟩
          | stopped => exact ⟨_, List.mem_cons_self, not_not.mpr (each node entered)⟩
          | endless =>
              rw [entered] at stopped
              cases stopped

/-- What does not stop and is not gone through is endless at the first node that is. -/
theorem enters_of_endless
    (through : ∀ node, enter node = .through → ¬ReachesStop meetings node)
    (endless : walkMeetings enter taken = .endless) :
    ∃ node, EntersIn meetings taken node ∧ enter node = .endless := by
  induction taken with
  | nil => cases endless
  | cons meeting rest ih =>
      cases meeting with
      | stop => cases endless
      | enter node =>
          rw [walkMeetings] at endless
          cases entered : enter node with
          | through =>
              rw [entered] at endless
              obtain ⟨inner, ⟨before, after, split, clear⟩, round⟩ := ih endless
              refine ⟨inner, ⟨.enter node :: before, after, by rw [split]; rfl, ?_⟩, round⟩
              intro meeting among
              rcases List.mem_cons.mp among with rfl | among
              · exact through node entered
              · exact clear meeting among
          | stopped =>
              rw [entered] at endless
              cases endless
          | endless => exact ⟨node, ⟨[], rest, rfl, by simp⟩, entered⟩

theorem endless_of_enters {node : Node}
    (stopped : ∀ node, enter node = .stopped → ReachesStop meetings node)
    (entered : EntersIn meetings taken node) (round : enter node = .endless) :
    walkMeetings enter taken = .endless := by
  obtain ⟨before, after, rfl, clear⟩ := entered
  rw [walkMeetings_append, walkMeetings, round]
  cases earlier : walkMeetings enter before with
  | through => rfl
  | stopped =>
      obtain ⟨meeting, among, unclear⟩ := reachesStop_of_stopped stopped earlier
      exact absurd (clear meeting among) unclear
  | endless => rfl

end Meetings

section Depth

variable {meetings} {depth : ℕ} {node inner : Node}

theorem walk_through (through : walk meetings depth node = .through) :
    ¬ReachesStop meetings node := by
  induction depth generalizing node with
  | zero => cases through
  | succ depth ih =>
      intro reaches
      have each := walkMeetings_eq_through.mp through
      cases reaches with
      | here stops =>
          obtain ⟨other, same, _⟩ := each .stop stops
          cases same
      | inside entered reaches =>
          obtain ⟨other, same, gone⟩ := each _ entered
          cases same
          exact ih gone reaches

theorem walk_stopped (stopped : walk meetings depth node = .stopped) :
    ReachesStop meetings node := by
  induction depth generalizing node with
  | zero => cases stopped
  | succ depth ih =>
      obtain ⟨meeting, among, unclear⟩ := reachesStop_of_stopped (fun _ => ih) stopped
      cases meeting with
      | stop => exact .here among
      | enter inner => exact .inside among (not_not.mp unclear)

theorem GoesRound.enters (round : GoesRound meetings node) :
    ∃ inner, Enters meetings node inner ∧ GoesRound meetings inner := by
  obtain ⟨again, reached, cycle⟩ := round
  rcases Relation.ReflTransGen.cases_head reached with rfl | ⟨inner, entered, rest⟩
  · obtain ⟨inner, entered, back⟩ := Relation.TransGen.head'_iff.mp cycle
    exact ⟨inner, entered, node, back, cycle⟩
  · exact ⟨inner, entered, again, rest, cycle⟩

/-- A walk that goes round is endless at every depth. -/
theorem GoesRound.endless (round : GoesRound meetings node) (depth : ℕ) :
    walk meetings depth node = .endless := by
  induction depth generalizing node with
  | zero => rfl
  | succ depth ih =>
      obtain ⟨inner, entered, still⟩ := round.enters
      exact endless_of_enters (fun _ => walk_stopped) entered (ih still)

/-- A walk deeper than there are nodes goes round: what a node enters stays among those left
when the node is taken away. -/
theorem goesRound_of_endless (nodes : Finset Node)
    (closed : ∀ inner, Relation.ReflTransGen (Enters meetings) node inner → inner ∈ nodes)
    (deep : nodes.card ≤ depth) (endless : walk meetings depth node = .endless) :
    GoesRound meetings node := by
  classical
  induction depth generalizing node nodes with
  | zero =>
      have empty := Finset.card_eq_zero.mp (Nat.le_zero.mp deep)
      exact absurd (closed node .refl) (empty ▸ Finset.notMem_empty node)
  | succ depth ih =>
      obtain ⟨inner, entered, deeper⟩ := enters_of_endless (fun _ => walk_through) endless
      by_cases back : Relation.ReflTransGen (Enters meetings) inner node
      · exact ⟨node, .refl, Relation.TransGen.head' entered back⟩
      · have left : ∀ other, Relation.ReflTransGen (Enters meetings) inner other →
            other ∈ nodes.erase node := by
          intro other reached
          refine Finset.mem_erase.mpr ⟨?_, closed other (.head entered reached)⟩
          rintro rfl
          exact back reached
        have fewer : (nodes.erase node).card ≤ depth := by
          rw [Finset.card_erase_of_mem (closed node .refl)]
          omega
        obtain ⟨again, reached, cycle⟩ := ih (nodes.erase node) left fewer deeper
        exact ⟨again, .head entered reached, cycle⟩

theorem walk_endless_iff (nodes : Finset Node)
    (closed : ∀ inner, Relation.ReflTransGen (Enters meetings) node inner → inner ∈ nodes)
    (deep : nodes.card ≤ depth) :
    walk meetings depth node = .endless ↔ GoesRound meetings node :=
  ⟨goesRound_of_endless nodes closed deep, fun round => round.endless depth⟩

end Depth
end Sanshain.Effects
