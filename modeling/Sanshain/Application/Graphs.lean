import Sanshain.Application.Branches

namespace Sanshain.Application

open Sanshain.Data Sanshain.Domain Sanshain.Document Sanshain.Effects

/-- The graph a report describes, main and branches at an instant if one is given. -/
inductive ReportScope where
  | dev
  | main (instant : Option Instant)
  | branch (name : String) (instant : Option Instant)
  deriving DecidableEq, Repr

def ReportScope.instant : ReportScope → Option Instant
  | .dev => none
  | .main instant => instant
  | .branch _ instant => instant

/-- A line of a scope before its stored entry is looked up. -/
structure ScopedLine where
  service : String
  apiType : ApiType
  version : SemVer
  recordedProvide : Option Instant
  deriving DecidableEq, Repr

structure ScopeChannel where
  channel : String
  method : String
  deriving DecidableEq, Repr

structure ScopeVersionLine where
  apiType : ApiType
  version : SemVer
  stability : Option Stability
  lastProvidedAt : Option Instant
  channels : List ScopeChannel
  deriving DecidableEq, Repr

structure ScopeProducer where
  name : String
  versions : List ScopeVersionLine
  deriving DecidableEq, Repr

structure GraphScopeData where
  producers : List ScopeProducer
  harvestedSubscriptions : List HarvestedSubscription
  systems : Entries String SystemContext
  deriving DecidableEq, Repr

/-- A scope has one line for a Producer and an API type. -/
def ScopedLine.key (line : ScopedLine) : String × String := (line.service, line.apiType.asStr)

abbrev ScopedLines := Entries (String × String) ScopedLine

/-- The first line of the highest version stays. -/
def keepHighest (lines : ScopedLines) (line : ScopedLine) : ScopedLines :=
  match lines.get? line.key with
  | some existing =>
      if line.version ≤ existing.version then lines else lines.insert line.key line
  | none => lines.insert line.key line

/-- A member version replaces the line, whatever the pins say. -/
def replaceLine (lines : ScopedLines) (line : ScopedLine) : ScopedLines := lines.insert line.key line

section Lines

/-- Every stored version, under its Producer's name. -/
def storedEntries (stored : List (String × SpecVersionMeta × Nat)) :
    Entries (String × ApiType × SemVer) SpecVersionMeta :=
  Entries.insertAll [] (stored.map fun row => ((row.1, row.2.1.apiType, row.2.1.version), row.2.1))

def storedLine (key : String × ApiType × SemVer) : ScopedLine := ⟨key.1, key.2.1, key.2.2, none⟩

/-- Trunk records when a member was last provided, unless that was after the instant. -/
def trunkLine (instant : Option Instant) (member : MemberVersion) : ScopedLine :=
  ⟨member.service, member.apiType, member.version, some (match member.lastProvidedAt, instant with
    | some last, some until' => if until' < last then member.validFrom else last
    | some last, none => last
    | none, _ => member.validFrom)⟩

def pinLine (pin : PinInfo) : ScopedLine := ⟨pin.service, pin.apiType, pin.version, none⟩

def branchLine (member : MemberVersion) : ScopedLine :=
  ⟨member.service, member.apiType, member.version, some member.validFrom⟩

def branchLines (pins : List PinInfo) (members : List MemberVersion) : ScopedLines :=
  (members.map branchLine).foldl replaceLine ((pins.map pinLine).foldl keepHighest [])

/-- The lines of a scope at its instant. -/
def scopedLines (entries : Entries (String × ApiType × SemVer) SpecVersionMeta) :
    ReportScope → UseCase ScopedLines
  | .dev => .done ((entries.keys.map storedLine).foldl keepHighest [])
  | .main instant => do
      let members ← repo (.listMemberVersions .trunk instant)
      .done ((members.map (trunkLine instant)).foldl keepHighest [])
  | .branch name instant => do
      let branch ← existingBranch name ""
      let members ← repo (.listMemberVersions (.branch branch.id) instant)
      let pins ← repo (.listBranchPins branch.id instant)
      .done (branchLines pins members)

/-- The order of pairs of texts. -/
def pairLe (first second : String × String) : Prop :=
  first.1 < second.1 ∨ first.1 = second.1 ∧ first.2 ≤ second.2

instance (first second : String × String) : Decidable (pairLe first second) :=
  inferInstanceAs (Decidable (_ ∨ _))

/-- The lines in the order of their keys. -/
def sortedLines (lines : ScopedLines) : List ScopedLine :=
  (lines.insertionSort fun first second => pairLe first.1 second.1).map Prod.snd

/-- The latest provide that is known at the instant. -/
def lastProvidedAtInstant (updatedAt recordedProvide instant : Option Instant) : Option Instant :=
  ((recordedProvide.toList ++ updatedAt.toList).filter fun provided =>
    instant.all fun limit => decide (provided ≤ limit)).max?

/-- The channels that an AsyncAPI version publishes. -/
def scopeChannels (apiType : ApiType) (entry : Option SpecVersionMeta) :
    UseCase (List ScopeChannel) :=
  match entry, apiType with
  | some entry, .asyncApi => do
      let endpoints ← repo (.getEndpointsForVersion entry.id)
      .done (((endpoints.map fun endpoint => ScopeChannel.mk endpoint.path endpoint.method).insertionSort
        fun first second => pairLe (first.channel, first.method) (second.channel, second.method)).dedup)
  | _, _ => .done []

/-- A line goes to the Producer before it, or opens its own. -/
def addVersionLine (producers : List ScopeProducer) (name : String) (line : ScopeVersionLine) :
    List ScopeProducer :=
  match producers.getLast? with
  | some last =>
      if last.name = name then producers.dropLast ++ [⟨last.name, last.versions ++ [line]⟩]
      else producers ++ [⟨name, [line]⟩]
  | none => producers ++ [⟨name, [line]⟩]

def addScopedLine (entries : Entries (String × ApiType × SemVer) SpecVersionMeta)
    (instant : Option Instant) (producers : List ScopeProducer) (line : ScopedLine) :
    UseCase (List ScopeProducer) := do
  let entry := entries.get? (line.service, line.apiType, line.version)
  let channels ← scopeChannels line.apiType entry
  .done (addVersionLine producers line.service
    { apiType := line.apiType
      version := line.version
      stability := entry.map (·.stability)
      lastProvidedAt := lastProvidedAtInstant (entry.map (·.updatedAt)) line.recordedProvide instant
      channels := channels })

/-- Harvested edges are of today: all of them in dev, those of trunk in the live main graph. -/
def scopeHarvestedSubscriptions (scope : ReportScope) (subscriptions : List HarvestedSubscription) :
    List HarvestedSubscription :=
  match scope with
  | .dev => subscriptions
  | .main none => subscriptions.filter (·.trunk)
  | _ => []

def getGraphScope (scope : ReportScope) : UseCase GraphScopeData := do
  let stored ← repo .listAllSpecVersions
  let entries := storedEntries stored
  let lines ← scopedLines entries scope
  let producers ← Program.foldEach (addScopedLine entries scope.instant) [] (sortedLines lines)
  let subscriptions ← repo .listCurrentHarvestedSubscriptions
  let systems ← repo .listSystemContexts
  .done ⟨producers, scopeHarvestedSubscriptions scope subscriptions, systems⟩

end Lines

/-- What a scope says that its Producers carry. -/
def GraphScopeData.lines (data : GraphScopeData) : List (String × ApiType × SemVer) :=
  data.producers.flatMap fun producer =>
    producer.versions.map fun line => (producer.name, line.apiType, line.version)

def ScopedLine.carried (line : ScopedLine) : String × ApiType × SemVer :=
  (line.service, line.apiType, line.version)

section Spec

variable {lines : ScopedLines} {line : ScopedLine}

def producerLines (producers : List ScopeProducer) : List (String × ApiType × SemVer) :=
  producers.flatMap fun producer =>
    producer.versions.map fun line => (producer.name, line.apiType, line.version)

/-- Adding a line adds what it says. -/
theorem producerLines_addVersionLine (producers : List ScopeProducer) (name : String)
    (line : ScopeVersionLine) :
    producerLines (addVersionLine producers name line) =
      producerLines producers ++ [(name, line.apiType, line.version)] := by
  have apart : producerLines (producers ++ [⟨name, [line]⟩]) =
      producerLines producers ++ [(name, line.apiType, line.version)] := by
    simp [producerLines]
  unfold addVersionLine
  split
  · rename_i last there
    split
    · rename_i same
      have whole : producers.dropLast ++ [last] = producers :=
        List.dropLast_append_getLast? last there
      conv_rhs => rw [← whole]
      simp [producerLines, same]
    · exact apart
  · exact apart

theorem apiType_asStr_injective : Function.Injective ApiType.asStr := by
  intro first second same
  cases first <;> cases second <;> first | rfl | (exact absurd same (by decide))

theorem ScopedLine.key_eq_iff {first second : ScopedLine} :
    first.key = second.key ↔ first.service = second.service ∧ first.apiType = second.apiType := by
  simp [ScopedLine.key, apiType_asStr_injective.eq_iff]

/-- The lines that are kept are the highest of those seen. -/
structure Tops (lines : ScopedLines) (seen : List ScopedLine) : Prop where
  distinct : lines.keys.Nodup
  kept : ∀ key line, lines.get? key = some line → line ∈ seen ∧ line.key = key ∧
    ∀ other ∈ seen, other.key = key → other.version ≤ line.version
  found : ∀ line ∈ seen, ∃ kept, lines.get? line.key = some kept

theorem tops_nil : Tops [] [] where
  distinct := List.nodup_nil
  kept key line held := by cases held
  found line among := by cases among

/-- A line that is no higher than the one kept changes nothing. -/
theorem Tops.below {seen : List ScopedLine} (tops : Tops lines seen) {existing : ScopedLine}
    (held : lines.get? line.key = some existing) (low : line.version ≤ existing.version) :
    Tops lines (seen ++ [line]) where
  distinct := tops.distinct
  kept := by
    intro key top there
    obtain ⟨among, same, highest⟩ := tops.kept key top there
    refine ⟨List.mem_append_left _ among, same, ?_⟩
    intro other among' here
    rcases List.mem_append.mp among' with old | new
    · exact highest other old here
    · cases List.mem_singleton.mp new
      rw [here, there] at held
      cases held
      exact low
  found := by
    intro other among
    rcases List.mem_append.mp among with old | new
    · exact tops.found other old
    · cases List.mem_singleton.mp new
      exact ⟨existing, held⟩

/-- A line above every other of its key takes their place. -/
theorem Tops.above {seen : List ScopedLine} (tops : Tops lines seen)
    (high : ∀ other ∈ seen, other.key = line.key → other.version ≤ line.version) :
    Tops (lines.insert line.key line) (seen ++ [line]) where
  distinct := Entries.keys_insert_nodup tops.distinct _ _
  kept := by
    intro key top there
    rw [Entries.get?_insert] at there
    by_cases here : line.key = key
    · rw [if_pos here] at there
      cases there
      refine ⟨List.mem_append_right _ (List.mem_singleton.mpr rfl), here, ?_⟩
      intro other among same
      rcases List.mem_append.mp among with old | new
      · exact high other old (same.trans here.symm)
      · cases List.mem_singleton.mp new
        exact le_rfl
    · rw [if_neg here] at there
      obtain ⟨among, same, highest⟩ := tops.kept key top there
      refine ⟨List.mem_append_left _ among, same, ?_⟩
      intro other among' same'
      rcases List.mem_append.mp among' with old | new
      · exact highest other old same'
      · cases List.mem_singleton.mp new
        exact absurd same' here
  found := by
    intro other among
    rw [Entries.get?_insert]
    by_cases here : line.key = other.key
    · exact ⟨line, if_pos here⟩
    · rw [if_neg here]
      rcases List.mem_append.mp among with old | new
      · exact tops.found other old
      · cases List.mem_singleton.mp new
        exact absurd rfl here

theorem Tops.keep {seen : List ScopedLine} (tops : Tops lines seen) (line : ScopedLine) :
    Tops (keepHighest lines line) (seen ++ [line]) := by
  unfold keepHighest
  split
  · rename_i existing held
    obtain ⟨-, -, highest⟩ := tops.kept line.key existing held
    split
    · rename_i low
      exact tops.below held low
    · rename_i higher
      apply tops.above
      intro other among same
      exact (highest other among same).trans (not_le.mp higher).le
  · rename_i fresh
    apply tops.above
    intro other among same
    obtain ⟨kept, held⟩ := tops.found other among
    rw [same, fresh] at held
    cases held

theorem tops_foldl {seen : List ScopedLine} (tops : Tops lines seen) (added : List ScopedLine) :
    Tops (added.foldl keepHighest lines) (seen ++ added) := by
  induction added generalizing lines seen with
  | nil => simpa using tops
  | cons line rest ih =>
      rw [List.foldl_cons, List.append_cons]
      exact ih (tops.keep line)

theorem tops_keepHighest (seen : List ScopedLine) : Tops (seen.foldl keepHighest []) seen :=
  tops_foldl tops_nil seen

theorem mem_sortedLines (distinct : lines.keys.Nodup) :
    line ∈ sortedLines lines ↔ ∃ key, lines.get? key = some line := by
  have entries : line ∈ sortedLines lines ↔ ∃ key, (key, line) ∈ lines := by
    simp [sortedLines, List.mem_insertionSort]
  rw [entries]
  constructor
  · rintro ⟨key, among⟩
    exact ⟨key, Entries.get?_of_mem distinct among⟩
  · rintro ⟨key, held⟩
    exact ⟨key, Entries.mem_of_get? held⟩

/-- What the lines of a scope say, when each is held under its key. -/
theorem mem_carried (distinct : lines.keys.Nodup)
    (keyed : ∀ key line, lines.get? key = some line → line.key = key) (service : String)
    (apiType : ApiType) (version : SemVer) :
    (service, apiType, version) ∈ (sortedLines lines).map ScopedLine.carried ↔
      ∃ line, lines.get? (service, apiType.asStr) = some line ∧ line.version = version := by
  rw [List.mem_map]
  constructor
  · rintro ⟨line, among, same⟩
    obtain ⟨key, held⟩ := (mem_sortedLines distinct).mp among
    simp only [ScopedLine.carried, Prod.mk.injEq] at same
    obtain ⟨rfl, rfl, rfl⟩ := same
    have here := keyed key line held
    rw [← here] at held
    exact ⟨line, held, rfl⟩
  · rintro ⟨line, held, rfl⟩
    have here := keyed _ line held
    simp only [ScopedLine.key, Prod.mk.injEq, apiType_asStr_injective.eq_iff] at here
    obtain ⟨rfl, rfl⟩ := here
    exact ⟨line, (mem_sortedLines distinct).mpr ⟨_, held⟩, rfl⟩

/-- The versions that some of these lines have for a Producer and an API type. -/
def versionsOf (seen : List ScopedLine) (service : String) (apiType : ApiType) : Set SemVer :=
  {version | ∃ line ∈ seen, line.service = service ∧ line.apiType = apiType ∧ line.version = version}

/-- Keeping the highest line keeps the greatest version. -/
theorem held_keepHighest (seen : List ScopedLine) (service : String) (apiType : ApiType)
    (version : SemVer) :
    (∃ line, (seen.foldl keepHighest []).get? (service, apiType.asStr) = some line ∧
        line.version = version) ↔ IsGreatest (versionsOf seen service apiType) version := by
  have tops := tops_keepHighest seen
  have key : ∀ line : ScopedLine, line.key = (service, apiType.asStr) ↔
      line.service = service ∧ line.apiType = apiType := by
    intro line
    simp [ScopedLine.key, apiType_asStr_injective.eq_iff]
  constructor
  · rintro ⟨line, held, rfl⟩
    obtain ⟨among, same, highest⟩ := tops.kept _ line held
    constructor
    · exact ⟨line, among, ((key line).mp same).1, ((key line).mp same).2, rfl⟩
    · rintro version ⟨other, among', service', apiType', rfl⟩
      exact highest other among' ((key other).mpr ⟨service', apiType'⟩)
  · rintro ⟨⟨line, among, service', apiType', rfl⟩, highest⟩
    have here := (key line).mpr ⟨service', apiType'⟩
    obtain ⟨kept, held⟩ := tops.found line among
    rw [here] at held
    obtain ⟨among', same, above⟩ := tops.kept _ kept held
    refine ⟨kept, held, le_antisymm ?_ (above line among here)⟩
    exact highest ⟨kept, among', ((key kept).mp same).1, ((key kept).mp same).2, rfl⟩

theorem carried_keepHighest (seen : List ScopedLine) (service : String) (apiType : ApiType)
    (version : SemVer) :
    (service, apiType, version) ∈ (sortedLines (seen.foldl keepHighest [])).map ScopedLine.carried ↔
      IsGreatest (versionsOf seen service apiType) version := by
  have tops := tops_keepHighest seen
  rw [mem_carried tops.distinct fun key line held => (tops.kept key line held).2.1]
  exact held_keepHighest seen service apiType version

theorem foldl_replaceLine (lines : ScopedLines) (added : List ScopedLine) :
    added.foldl replaceLine lines = lines.insertAll (added.map fun line => (line.key, line)) := by
  induction added generalizing lines with
  | nil => rfl
  | cons line rest ih => exact ih _

/-- The member version that a branch has for a Producer and an API type: the last one listed. -/
def memberOf (members : List MemberVersion) (service : String) (apiType : ApiType) :
    Option MemberVersion :=
  members.reverse.find? fun member => member.service = service ∧ member.apiType = apiType

theorem get?_branchMembers (members : List MemberVersion) (service : String) (apiType : ApiType) :
    Entries.get? ((members.map branchLine).map fun line => (line.key, line)).reverse
        (service, apiType.asStr) =
      (memberOf members service apiType).map branchLine := by
  have chosen : (fun entry : (String × String) × ScopedLine =>
      decide (entry.1 = (service, apiType.asStr))) ∘ (fun line => (line.key, line)) ∘ branchLine =
        fun member => decide (member.service = service ∧ member.apiType = apiType) := by
    funext member
    simp [ScopedLine.key, branchLine, apiType_asStr_injective.eq_iff]
  rw [Entries.get?, memberOf, List.map_map, ← List.map_reverse, List.find?_map, chosen,
    Option.map_map]
  rfl

/-- A branch carries its member version, and the highest version it pins where it has none. -/
theorem carried_branchLines (pins : List PinInfo) (members : List MemberVersion)
    (service : String) (apiType : ApiType) (version : SemVer) :
    (service, apiType, version) ∈ (sortedLines (branchLines pins members)).map ScopedLine.carried ↔
      (∃ member, memberOf members service apiType = some member ∧ member.version = version) ∨
        memberOf members service apiType = none ∧
          IsGreatest (versionsOf (pins.map pinLine) service apiType) version := by
  have tops := tops_keepHighest (pins.map pinLine)
  have distinct : (branchLines pins members).keys.Nodup := by
    rw [branchLines, foldl_replaceLine]
    exact Entries.keys_insertAll_nodup tops.distinct _
  have keyed : ∀ key line, (branchLines pins members).get? key = some line → line.key = key := by
    intro key line held
    rw [branchLines, foldl_replaceLine, Entries.get?_insertAll, Option.or_eq_some_iff] at held
    rcases held with member | ⟨-, pin⟩
    · have among := Entries.mem_of_get? member
      simp only [List.mem_reverse, List.mem_map, Prod.mk.injEq] at among
      obtain ⟨_, -, rfl, rfl⟩ := among
      rfl
    · exact (tops.kept key line pin).2.1
  rw [mem_carried distinct keyed, branchLines, foldl_replaceLine, Entries.get?_insertAll,
    get?_branchMembers, ← held_keepHighest]
  cases memberOf members service apiType with
  | none => simp
  | some member => simp [branchLine]

end Spec
end Sanshain.Application
