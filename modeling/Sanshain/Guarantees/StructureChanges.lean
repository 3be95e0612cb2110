import Sanshain.Document.StructureHistory
import Sanshain.History.Renewal

namespace Sanshain.Guarantees

open Sanshain.Data Sanshain.Document Sanshain.Domain Sanshain.History
open Sanshain.Document.Node (joinKey print fingerprints fingerprintsOf annotate annotateStep apply
  newer isNewerThan Annotation refreshSince)

section Trees

/-- The node that the keys lead to from a node. -/
def descend : Node → List String → Option Node
  | node, [] => some node
  | node, key :: rest =>
      (node.children.find? (·.data.key = key)).bind fun child => descend child rest

/-- The node at a path of keys. -/
def nodeAt (nodes : List Node) : List String → Option Node
  | [] => none
  | key :: rest => (nodes.find? (·.data.key = key)).bind fun node => descend node rest

/-- No two siblings share a key, at any depth. -/
inductive SiblingsApart : List Node → Prop
  | intro {nodes : List Node} (keys : (nodes.map (·.data.key)).Nodup)
      (below : ∀ node ∈ nodes, SiblingsApart node.children) : SiblingsApart nodes

/-- The keys of a path as the text they are joined to. -/
def pathText (path : List String) : String := path.foldl joinKey ""

mutual

/-- The nodes of a tree with their paths, each after those below it. -/
def placed (parent : List String) : Node → List (List String × NodeData)
  | .mk data children =>
      placedOf (parent ++ [data.key]) children ++ [(parent ++ [data.key], data)]

def placedOf (parent : List String) : List Node → List (List String × NodeData)
  | [] => []
  | node :: rest => placed parent node ++ placedOf parent rest

end

theorem key_of_find? {nodes : List Node} {node : Node} {key : String}
    (named : nodes.find? (·.data.key = key) = some node) : node.data.key = key := by
  simpa using List.find?_some named

theorem nodeAt_cons (node : Node) (rest : List Node) (key : String) (keys : List String) :
    nodeAt (node :: rest) (key :: keys) =
      if node.data.key = key then descend node keys else nodeAt rest (key :: keys) := by
  rw [nodeAt, nodeAt, List.find?_cons]
  by_cases here : node.data.key = key <;> simp [here]

theorem descend_cons (node : Node) (key : String) (keys : List String) :
    descend node (key :: keys) = nodeAt node.children (key :: keys) := rfl

mutual

/-- A tree holds what the paths in it lead to. -/
theorem mem_placed (parent : List String) (entry : List String × NodeData) :
    ∀ node : Node, SiblingsApart node.children →
      (entry ∈ placed parent node ↔ ∃ keys found,
        entry = (parent ++ node.data.key :: keys, found.data) ∧ descend node keys = some found)
  | .mk data children, apart => by
      rw [placed, List.mem_append, mem_placedOf _ entry children apart, List.mem_singleton]
      constructor
      · intro among
        cases among with
        | inl below =>
            obtain ⟨path, found, rfl, there⟩ := below
            cases path with
            | nil => cases there
            | cons key keys => exact ⟨key :: keys, found, by simp, there⟩
        | inr here => exact ⟨[], .mk data children, here, rfl⟩
      · intro ⟨keys, found, same, there⟩
        cases keys with
        | nil =>
            cases there
            exact .inr same
        | cons key keys =>
            exact .inl ⟨key :: keys, found, by simpa using same, there⟩

theorem mem_placedOf (parent : List String) (entry : List String × NodeData) :
    ∀ nodes : List Node, SiblingsApart nodes →
      (entry ∈ placedOf parent nodes ↔ ∃ path found,
        entry = (parent ++ path, found.data) ∧ nodeAt nodes path = some found)
  | [], _ => by
      simp only [placedOf, List.not_mem_nil, false_iff]
      rintro ⟨path, found, -, there⟩
      cases path <;> cases there
  | node :: rest, .intro keys below => by
      obtain ⟨alone, keys⟩ := List.nodup_cons.mp keys
      have others : SiblingsApart rest := .intro keys fun other among =>
        below other (List.mem_cons_of_mem _ among)
      rw [placedOf, List.mem_append, mem_placed parent entry node (below node List.mem_cons_self),
        mem_placedOf parent entry rest others]
      constructor
      · intro among
        cases among with
        | inl here =>
            obtain ⟨keys, found, rfl, there⟩ := here
            exact ⟨node.data.key :: keys, found, rfl, by rw [nodeAt_cons, if_pos rfl, there]⟩
        | inr later =>
            obtain ⟨path, found, rfl, there⟩ := later
            cases path with
            | nil => cases there
            | cons key keys =>
                refine ⟨key :: keys, found, rfl, ?_⟩
                rw [nodeAt_cons, if_neg, there]
                intro same
                obtain ⟨other, named, -⟩ := Option.bind_eq_some_iff.mp there
                apply alone
                change node.data.key ∈ _
                rw [same, ← key_of_find? named]
                exact List.mem_map_of_mem (List.mem_of_find?_eq_some named)
      · intro ⟨path, found, same, there⟩
        cases path with
        | nil => cases there
        | cons key keys =>
            rw [nodeAt_cons] at there
            split at there
            · rename_i here
              exact .inl ⟨keys, found, by rw [here, same], there⟩
            · exact .inr ⟨key :: keys, found, same, there⟩

end

end Trees

section Histories

/-- At a version the node at a path was new, or its own fields differed from the version before. -/
def ChangedAt (history : List (SemVer × List Node)) (path : List String)
    (version : SemVer) : Prop :=
  ∃ earlier nodes later node, history = earlier ++ (version, nodes) :: later ∧
    nodeAt nodes path = some node ∧
    ∀ before ∈ earlier.getLast?, ∀ previous ∈ nodeAt before.2 path,
      previous.data.own ≠ node.data.own

/-- The newest version at which the node at a path changed. -/
def LastChange (history : List (SemVer × List Node)) (path : List String)
    (version : SemVer) : Prop :=
  IsGreatest {version | ChangedAt history path version} version

/-- The trees of the newest version. -/
def newestOf (history : List (SemVer × List Node)) : List Node :=
  (history.getLast?.map Prod.snd).getD []

/-- A node is annotated with its last change, and with the newest change below it when that is newer. -/
structure Annotated (history : List (SemVer × List Node))
    (path : List String) (data : NodeData) : Prop where
  changedIn : ∃ version, data.changedIn = some version ∧ LastChange history path version
  inside : ∀ version, data.inside = some version ↔
    (∃ own, data.changedIn = some own ∧ own < version) ∧
      IsGreatest {below | ∃ key keys, (nodeAt (newestOf history) (path ++ key :: keys)).isSome ∧
        LastChange history (path ++ key :: keys) below} version

/-- Trees that are those of the newest version, with every node annotated. -/
def TellsLastChanges (history : List (SemVer × List Node))
    (annotated : List Node) : Prop :=
  ∀ path node, nodeAt (newestOf history) path = some node → ∃ told, nodeAt annotated path = some told ∧
    told.data.own = node.data.own ∧ told.children.length = node.children.length ∧
    Annotated history path told.data

/-- The last of the nodes whose keys are joined to a text, in the order they are entered. -/
def lastEntered (nodes : List Node) (text : String) : Option NodeData :=
  ((placedOf [] nodes).reverse.find? fun entry => pathText entry.1 = text).map Prod.snd

/-- At a version the last node entered under a text was new, or showed something else than the last one
in the version before. -/
def EntryChangedAt (history : List (SemVer × List Node)) (text : String) (version : SemVer) : Prop :=
  RenewedAt none (history.map fun entry => (entry.1, (lastEntered entry.2 text).map NodeData.shown)) version

/-- The last node entered under the text of a node of the newest version changes when that node last
changes, and not in a newer version. -/
def EntriesFollow (history : List (SemVer × List Node)) : Prop :=
  ∀ path, (nodeAt (newestOf history) path).isSome → ∀ version, LastChange history path version →
    IsGreatest {version | EntryChangedAt history (pathText path) version} version

/-- No path of the history has its keys joined to the text of another path of the newest version. -/
def PathsApart (history : List (SemVer × List Node)) : Prop :=
  ∀ path, (nodeAt (newestOf history) path).isSome → ∀ entry ∈ history, ∀ other,
    (nodeAt entry.2 other).isSome → pathText other = pathText path → other = path

/-- A node of the newest version never differs from the version before in nothing but the fields that
are not written. -/
def HiddenTold (history : List (SemVer × List Node)) : Prop :=
  ∀ path, (nodeAt (newestOf history) path).isSome →
    (history.map fun entry => nodeAt entry.2 path).IsChain fun first second =>
      ∀ one ∈ first, ∀ other ∈ second, one.data.shown = other.data.shown → one.data.own = other.data.own

/-- The writer tells the nodes of a history apart. -/
def Legible (writeJson : Value → Except String String) (history : List (SemVer × List Node)) : Prop :=
  ∀ first ∈ history, ∀ one ∈ placedOf [] first.2, ∀ second ∈ history, ∀ other ∈ placedOf [] second.2,
    print writeJson one.2 = print writeJson other.2 → one.2.own.toJson = other.2.own.toJson

end Histories

section Reading

variable {writeJson : Value → Except String String}

theorem pathText_concat (path : List String) (key : String) :
    pathText (path ++ [key]) = joinKey (pathText path) key := by
  rw [pathText, List.foldl_append]
  rfl

/-- Entering the text of every node under its path. -/
def enter (writeJson : Value → Except String String) (out : IndexMap String String)
    (entry : List String × NodeData) : IndexMap String String :=
  out.insert (pathText entry.1) (print writeJson entry.2)

mutual

theorem fingerprints_eq (parent : List String) :
    ∀ (node : Node) (out : IndexMap String String),
      fingerprints writeJson (pathText parent) node out = (placed parent node).foldl (enter writeJson) out
  | .mk data children, out => by
      rw [fingerprints, placed, List.foldl_append, ← pathText_concat,
        fingerprintsOf_eq (parent ++ [data.key]) children]
      rfl

theorem fingerprintsOf_eq (parent : List String) :
    ∀ (nodes : List Node) (out : IndexMap String String),
      fingerprintsOf writeJson (pathText parent) nodes out =
        (placedOf parent nodes).foldl (enter writeJson) out
  | [], out => rfl
  | node :: rest, out => by
      rw [fingerprintsOf, placedOf, List.foldl_append, fingerprints_eq parent node,
        fingerprintsOf_eq parent rest]

end

/-- The texts of one version. -/
def textsOf (writeJson : Value → Except String String) (nodes : List Node) : IndexMap String String :=
  fingerprintsOf writeJson "" nodes ∅

/-- The text that is kept is that of the last node entered under it. -/
theorem get?_textsOf (nodes : List Node) (text : String) :
    (textsOf writeJson nodes).get? text = (lastEntered nodes text).map (print writeJson) := by
  have entered : ∀ entries : List (List String × NodeData),
      (entries.foldl (enter writeJson) ∅).get? text =
        (entries.reverse.find? fun entry => pathText entry.1 = text).map fun entry =>
          print writeJson entry.2 := by
    intro entries
    induction entries using List.reverseRecOn with
    | nil => rfl
    | append_singleton front last ih =>
        rw [List.foldl_append, List.reverse_append, List.reverse_singleton, List.singleton_append,
          List.find?_cons]
        change Entries.get? (Entries.insert _ _ _) _ = _
        rw [Entries.get?_insert]
        by_cases here : pathText last.1 = text
        · simp [here]
        · rw [if_neg here]
          exact ih.trans (by simp [here])
  rw [textsOf, show ("" : String) = pathText [] from rfl, fingerprintsOf_eq, entered, lastEntered,
    Option.map_map]
  rfl

/-- Where no other path joins to the same text, the last node entered is the one at the path. -/
theorem lastEntered_pathText {nodes : List Node} (apart : SiblingsApart nodes) {path : List String}
    (alone : ∀ other, (nodeAt nodes other).isSome → pathText other = pathText path → other = path) :
    lastEntered nodes (pathText path) = (nodeAt nodes path).map Node.data := by
  rw [lastEntered]
  cases found : (placedOf [] nodes).reverse.find? fun entry => pathText entry.1 = pathText path with
  | some entry =>
      have among := List.mem_reverse.mp (List.mem_of_find?_eq_some found)
      have same : pathText entry.1 = pathText path := by simpa using List.find?_some found
      obtain ⟨other, node, rfl, there⟩ := (mem_placedOf [] entry nodes apart).mp among
      rw [List.nil_append] at same
      obtain rfl := alone other (by rw [there]; rfl) same
      rw [there]
      rfl
  | none =>
      cases there : nodeAt nodes path with
      | none => rfl
      | some node =>
          have among : (path, node.data) ∈ placedOf [] nodes :=
            (mem_placedOf [] _ nodes apart).mpr ⟨path, node, rfl, there⟩
          have absent := List.find?_eq_none.mp found _ (List.mem_reverse.mpr among)
          simp at absent

theorem get?_foldl_since (version : SemVer) (previous : IndexMap String String)
    {entries : Entries String String} (distinct : entries.keys.Nodup) (since : IndexMap String SemVer)
    (text : String) :
    (entries.foldl (fun since entry =>
        if previous.get? entry.1 ≠ some entry.2 then since.insert entry.1 version else since) since).get? text =
      if entries.get? text ≠ none ∧ previous.get? text ≠ entries.get? text then some version
      else since.get? text := by
  induction entries generalizing since with
  | nil => rfl
  | cons entry rest ih =>
      obtain ⟨alone, distinct⟩ := List.nodup_cons.mp distinct
      rw [List.foldl_cons, ih distinct, Entries.get?_cons]
      by_cases here : entry.1 = text
      · have outside : Entries.get? rest text = none := by
          rw [← Option.not_isSome_iff_eq_none, Entries.get?_isSome_iff, ← here]
          exact alone
        rw [outside, if_neg (by simp), if_pos here, ← here]
        by_cases same : previous.get? entry.1 = some entry.2
        · rw [if_neg (by simpa using same), if_neg (by simp [same])]
        · rw [if_pos same, if_pos ⟨by simp, same⟩]
          change Entries.get? (Entries.insert _ _ _) _ = _
          rw [Entries.get?_insert, if_pos rfl]
      · rw [if_neg here]
        split
        · rfl
        · split
          · change Entries.get? (Entries.insert _ _ _) _ = _
            rw [Entries.get?_insert, if_neg here]
            rfl
          · rfl

theorem get?_refreshSince (version : SemVer) (previous current : IndexMap String String)
    (since : IndexMap String SemVer) (text : String) :
    (refreshSince version previous current since).get? text =
      if current.get? text ≠ none ∧ previous.get? text ≠ current.get? text then some version
      else since.get? text :=
  get?_foldl_since version previous current.distinct since text

/-- What is kept after a history: for every text the version at which it last changed. -/
theorem annotation_of_history (history : List (SemVer × List Node)) :
    let held := history.foldl (annotateStep writeJson) .start
    held.last = newestOf history ∧
      (∀ text, held.previous.get? text = latest none
        (history.map fun entry => (entry.1, (textsOf writeJson entry.2).get? text))) ∧
      ∀ text, held.since.get? text = lastRenewed none
        (history.map fun entry => (entry.1, (textsOf writeJson entry.2).get? text)) := by
  induction history using List.reverseRecOn with
  | nil => exact ⟨rfl, fun _ => rfl, fun _ => rfl⟩
  | append_singleton earlier entry ih =>
      obtain ⟨-, previous, since⟩ := ih
      refine ⟨?_, fun text => ?_, fun text => ?_⟩
      · simp [newestOf, annotateStep]
      · rw [latest_eq]
        simp only [List.foldl_append, List.foldl_cons, List.foldl_nil, annotateStep, List.map_append,
          List.map_cons, List.map_nil, List.getLast?_append, List.getLast?_singleton, Option.some_or,
          Option.map_some, Option.getD_some]
        rfl
      · rw [List.foldl_append, List.map_append, List.map_cons, List.map_nil, lastRenewed_concat,
          ← since, ← previous]
        exact get?_refreshSince entry.1 _ _ _ text

end Reading

section Changes

variable {writeJson : Value → Except String String}
  {history : List (SemVer × List Node)} {path : List String}

/-- What the node at a path says of itself, version by version. -/
def courseOf (history : List (SemVer × List Node)) (path : List String) :
    List (SemVer × Option NodeData) :=
  history.map fun entry => (entry.1, (nodeAt entry.2 path).map (·.data.own))

theorem changedAt_iff {version : SemVer} :
    ChangedAt history path version ↔ RenewedAt none (courseOf history path) version := by
  have before : ∀ earlier : List (SemVer × List Node), ∀ data : NodeData,
      latest none (courseOf earlier path) ≠ some data ↔
        ∀ entry ∈ earlier.getLast?, ∀ previous ∈ nodeAt entry.2 path, previous.data.own ≠ data := by
    intro earlier data
    rw [latest_eq, courseOf, List.getLast?_map]
    cases earlier.getLast? with
    | none => simp
    | some entry =>
        cases there : nodeAt entry.2 path <;> simp [there]
  rw [renewedAt_iff]
  constructor
  · intro ⟨earlier, nodes, later, node, whole, there, differs⟩
    refine ⟨courseOf earlier path, some node.data.own, courseOf later path, ?_, by simp,
      (before earlier _).mpr differs⟩
    rw [whole, courseOf, List.map_append, List.map_cons, there]
    rfl
  · intro ⟨earlier, now, later, whole, there, differs⟩
    obtain ⟨front, back, rfl, rfl, rest⟩ := List.map_eq_append_iff.mp whole
    obtain ⟨entry, tail, rfl, same, rfl⟩ := List.map_eq_cons_iff.mp rest
    obtain ⟨rfl, rfl⟩ := Prod.mk.inj same
    cases found : nodeAt entry.2 path with
    | none => simp [found] at there
    | some node =>
        rw [found] at differs
        exact ⟨front, entry.2, tail, node, rfl, found, (before front _).mp differs⟩

theorem mem_of_newest {node : Node} (there : nodeAt (newestOf history) path = some node) :
    ∃ earlier version, history = earlier ++ [(version, newestOf history)] := by
  cases history using List.reverseRecOn with
  | nil => cases path <;> cases there
  | append_singleton earlier entry =>
      refine ⟨earlier, entry.1, ?_⟩
      simp [newestOf]

/-- A node of the newest version has changed once. -/
theorem exists_changedAt {node : Node} (there : nodeAt (newestOf history) path = some node) :
    ∃ version, ChangedAt history path version := by
  obtain ⟨earlier, version, whole⟩ := mem_of_newest there
  have last : latest none (courseOf history path) = some node.data.own := by
    rw [latest_eq, courseOf, whole, List.map_append, List.getLast?_append]
    simp [there]
  obtain same | ⟨version, renewed⟩ := latest_cases (by rw [last]; simp)
  · rw [last] at same
    cases same
  · exact ⟨version, changedAt_iff.mpr renewed⟩

theorem print_shown (data : NodeData) : print writeJson data.shown = print writeJson data := by
  rw [print, print, @NodeData.toJson_of_shown data.shown data rfl]

/-- What is kept for a text is the newest version in which the last node entered under it changed. -/
theorem since_iff (ascending : (history.map Prod.fst).Pairwise (· < ·))
    (legible : Legible writeJson history) {text : String} {version : SemVer} :
    (history.foldl (annotateStep writeJson) .start).since.get? text = some version ↔
      IsGreatest {version | EntryChangedAt history text version} version := by
  let entries := history.map fun entry => (entry.1, (lastEntered entry.2 text).map NodeData.shown)
  have texts : (history.map fun entry => (entry.1, (textsOf writeJson entry.2).get? text)) =
      entries.map fun entry => (entry.1, entry.2.map (print writeJson)) := by
    rw [List.map_map]
    apply List.map_congr_left
    intro entry among
    rw [get?_textsOf, Function.comp_apply, Option.map_map]
    simp only [Function.comp_def, print_shown]
  have instants : (entries.map fun entry => (entry.1, entry.2.map (print writeJson))).map Prod.fst =
      history.map Prod.fst := by
    rw [List.map_map, List.map_map]
    rfl
  have faithful : (none :: entries.map Prod.snd).IsChain fun first second =>
      first.map (print writeJson) = second.map (print writeJson) → first = second := by
    have held : ∀ value ∈ none :: entries.map Prod.snd, ∀ data ∈ value,
        ∃ entry ∈ history, ∃ placed ∈ placedOf [] entry.2, placed.2.shown = data := by
      intro value among data told
      obtain rfl | among := List.mem_cons.mp among
      · cases told
      rw [List.map_map] at among
      obtain ⟨entry, held, rfl⟩ := List.mem_map.mp among
      obtain ⟨_, last, rfl⟩ := Option.map_eq_some_iff.mp told
      obtain ⟨placed, found, rfl⟩ := Option.map_eq_some_iff.mp last
      exact ⟨entry, held, placed, List.mem_reverse.mp (List.mem_of_find?_eq_some found), rfl⟩
    apply List.Pairwise.isChain
    apply List.pairwise_of_forall_mem_list
    intro first among second among' same
    cases first with
    | none =>
        cases second with
        | none => rfl
        | some other => cases same
    | some one =>
        cases second with
        | none => cases same
        | some other =>
            obtain ⟨early, early_held, placed, there, rfl⟩ := held _ among one rfl
            obtain ⟨late, late_held, placed', there', rfl⟩ := held _ among' other rfl
            rw [Option.map_some, Option.map_some, print_shown, print_shown, Option.some.injEq] at same
            exact congrArg some (NodeData.shown_of_toJson
              (legible early early_held placed there late late_held placed' there' same))
  rw [(annotation_of_history history).2.2, texts, lastRenewed_eq_some_iff (instants ▸ ascending)]
  have renewals : {version | RenewedAt none (entries.map fun entry =>
      (entry.1, entry.2.map (print writeJson))) version} =
      {version | EntryChangedAt history text version} := by
    ext version
    exact renewedAt_map faithful
  rw [renewals]

end Changes

section Applying

variable {since : IndexMap String SemVer}

theorem newer_assoc (first second third : Option SemVer) :
    newer (newer first second) third = newer first (newer second third) := by
  cases first <;> cases second <;> cases third <;> simp [newer, max_assoc]

theorem newer_comm (first second : Option SemVer) : newer first second = newer second first := by
  cases first <;> cases second <;> simp [newer, max_comm]

@[simp] theorem none_newer (version : Option SemVer) : newer none version = version := by
  cases version <;> rfl

@[simp] theorem newer_none (version : Option SemVer) : newer version none = version := by
  cases version <;> rfl

/-- The newest of some versions. -/
def newestIn (versions : List (Option SemVer)) : Option SemVer := versions.foldr newer none

theorem newestIn_append (first second : List (Option SemVer)) :
    newestIn (first ++ second) = newer (newestIn first) (newestIn second) := by
  induction first with
  | nil => exact (none_newer _).symm
  | cons version rest ih =>
      change newer version (newestIn (rest ++ second)) = newer (newer version (newestIn rest)) _
      rw [ih, newer_assoc]

theorem newestIn_eq_none_iff {versions : List (Option SemVer)} :
    newestIn versions = none ↔ ∀ version, some version ∉ versions := by
  induction versions with
  | nil => simp [newestIn]
  | cons version rest ih =>
      change newer version (newestIn rest) = none ↔ _
      cases version with
      | none => simpa using ih
      | some version =>
          have told : newer (some version) (newestIn rest) ≠ none := by
            cases newestIn rest <;> simp [newer]
          exact ⟨fun nothing => absurd nothing told, fun absent => absurd List.mem_cons_self (absent version)⟩

theorem newestIn_eq_some_iff {versions : List (Option SemVer)} {newest : SemVer} :
    newestIn versions = some newest ↔ IsGreatest {version | some version ∈ versions} newest := by
  induction versions generalizing newest with
  | nil => simp [newestIn, IsGreatest]
  | cons version rest ih =>
      change newer version (newestIn rest) = some newest ↔ _
      cases version with
      | none => simpa using ih
      | some version =>
          have members : {other | some other ∈ some version :: rest} =
              insert version {other | some other ∈ rest} := by
            ext other
            simp
          rw [members]
          cases found : newestIn rest with
          | none =>
              have nothing : {other | some other ∈ rest} = (∅ : Set SemVer) := by
                ext other
                simpa using newestIn_eq_none_iff.mp found other
              rw [nothing, newer_none, Option.some.injEq, insert_empty_eq]
              constructor
              · rintro rfl
                exact isGreatest_singleton
              · intro greatest
                exact isGreatest_singleton.unique greatest
          | some greatest =>
              have whole := (ih.mp found).insert version
              rw [newer, Option.some.injEq]
              constructor
              · rintro rfl
                exact whole
              · intro greatest'
                exact whole.unique greatest'

mutual

theorem apply_newest (parent : List String) :
    ∀ node : Node, (apply since (pathText parent) node).2 =
      newestIn ((placed parent node).map fun entry => since.get? (pathText entry.1))
  | .mk data children => by
      change newer (since.get? (joinKey (pathText parent) data.key))
        (Node.applyAll since (joinKey (pathText parent) data.key) children).2 = _
      rw [placed, List.map_append, newestIn_append, newer_comm, ← pathText_concat,
        applyAll_newest (parent ++ [data.key]) children]
      exact congrArg (newer _) (newer_none _).symm

theorem applyAll_newest (parent : List String) :
    ∀ nodes : List Node, (Node.applyAll since (pathText parent) nodes).2 =
      newestIn ((placedOf parent nodes).map fun entry => since.get? (pathText entry.1))
  | [] => rfl
  | node :: rest => by
      rw [Node.applyAll, placedOf, List.map_append, newestIn_append, apply_newest parent node,
        applyAll_newest parent rest]

end

theorem applyAll_nodes (parent : String) (nodes : List Node) :
    (Node.applyAll since parent nodes).1 = nodes.map fun node => (apply since parent node).1 := by
  induction nodes with
  | nil => rfl
  | cons node rest ih => rw [Node.applyAll, ih, List.map_cons]

theorem key_apply (parent : String) (node : Node) :
    (apply since parent node).1.data.key = node.data.key := by
  cases node
  rfl

/-- The annotated trees have the nodes of the trees, annotated where they are. -/
theorem nodeAt_applyAll (parent : List String) (nodes : List Node) (path : List String) :
    nodeAt (Node.applyAll since (pathText parent) nodes).1 path =
      (nodeAt nodes path).map fun node => (apply since (pathText (parent ++ path.dropLast)) node).1 := by
  induction path generalizing parent nodes with
  | nil => rfl
  | cons key keys ih =>
      have found : (Node.applyAll since (pathText parent) nodes).1.find? (·.data.key = key) =
          (nodes.find? (·.data.key = key)).map fun node => (apply since (pathText parent) node).1 := by
        rw [applyAll_nodes, List.find?_map]
        congr 2
        funext node
        rw [Function.comp_apply, key_apply]
      rw [nodeAt, nodeAt, found]
      cases named : nodes.find? (·.data.key = key) with
      | none => rfl
      | some node =>
          rw [Option.map_some, Option.bind_some, Option.bind_some]
          cases keys with
          | nil => simp [descend]
          | cons next rest =>
              obtain ⟨data, children⟩ := node
              have same : data.key = key := key_of_find? named
              rw [descend_cons, descend_cons, apply, Node.children_mk, Node.children_mk, ← pathText_concat,
                ih, same]
              simp

end Applying

section Annotating

variable {writeJson : Value → Except String String}
  {history : List (SemVer × List Node)} {path : List String}

theorem path_of_nodeAt {nodes : List Node} {node : Node} (there : nodeAt nodes path = some node) :
    path = path.dropLast ++ [node.data.key] := by
  induction path generalizing nodes with
  | nil => cases there
  | cons key keys ih =>
      obtain ⟨first, named, below⟩ := Option.bind_eq_some_iff.mp there
      cases keys with
      | nil =>
          cases below
          rw [key_of_find? named]
          rfl
      | cons next rest =>
          rw [List.dropLast_cons_cons, List.cons_append, ← ih below]

/-- What is below a node is at the longer paths. -/
theorem nodeAt_append {nodes : List Node} {node : Node} (there : nodeAt nodes path = some node)
    (key : String) (keys : List String) :
    nodeAt nodes (path ++ key :: keys) = nodeAt node.children (key :: keys) := by
  induction path generalizing nodes with
  | nil => cases there
  | cons first rest ih =>
      obtain ⟨child, named, below⟩ := Option.bind_eq_some_iff.mp there
      rw [List.cons_append, nodeAt, named, Option.bind_some]
      cases rest with
      | nil =>
          cases below
          rfl
      | cons next rest => exact ih below

theorem siblingsApart_at {nodes : List Node} (apart : SiblingsApart nodes) {node : Node}
    (there : nodeAt nodes path = some node) : SiblingsApart node.children := by
  induction path generalizing nodes with
  | nil => cases there
  | cons first rest ih =>
      obtain ⟨child, named, below⟩ := Option.bind_eq_some_iff.mp there
      cases apart with
      | intro keys deeper =>
          have inside := deeper child (List.mem_of_find?_eq_some named)
          cases rest with
          | nil =>
              cases below
              exact inside
          | cons next rest => exact ih inside below

/-- Versions kept under the texts of the newest paths, when they are those of the last changes, annotate
every node. -/
theorem tells_of_since {since : IndexMap String SemVer} (apart : SiblingsApart (newestOf history))
    (kept : ∀ path, (nodeAt (newestOf history) path).isSome → ∀ version,
      since.get? (pathText path) = some version ↔ LastChange history path version)
    (changed : ∀ path, (nodeAt (newestOf history) path).isSome →
      ∃ version, LastChange history path version) :
    TellsLastChanges history (Node.applyAll since "" (newestOf history)).1 := by
  intro path node there
  have present : (nodeAt (newestOf history) path).isSome := by rw [there]; rfl
  have parent := path_of_nodeAt there
  refine ⟨(apply since (pathText path.dropLast) node).1, ?_, ?_⟩
  · rw [show ("" : String) = pathText [] from rfl, nodeAt_applyAll, there]
    rfl
  obtain ⟨data, children⟩ := node
  have text : joinKey (pathText path.dropLast) data.key = pathText path := by
    rw [← pathText_concat]
    exact congrArg pathText parent.symm
  obtain ⟨own, last⟩ := changed path present
  have own_kept := (kept path present own).mpr last
  rw [apply, text, own_kept]
  refine ⟨rfl, ?_, ⟨own, rfl, last⟩, fun version => ?_⟩
  · rw [Node.children_mk, applyAll_nodes, List.length_map, Node.children_mk]
  have below : ∀ version, some version ∈ (placedOf path children).map
        (fun entry => since.get? (pathText entry.1)) ↔
      ∃ key keys, (nodeAt (newestOf history) (path ++ key :: keys)).isSome ∧
        LastChange history (path ++ key :: keys) version := by
    intro version
    rw [List.mem_map]
    constructor
    · intro ⟨entry, among, same⟩
      obtain ⟨keys, found, rfl, inside⟩ :=
        (mem_placedOf path entry children (siblingsApart_at apart there)).mp among
      cases keys with
      | nil => cases inside
      | cons key keys =>
          have deeper : (nodeAt (newestOf history) (path ++ key :: keys)).isSome := by
            rw [nodeAt_append there]
            exact Option.isSome_of_eq_some inside
          exact ⟨key, keys, deeper, (kept _ deeper version).mp same⟩
    · intro ⟨key, keys, deeper, last⟩
      obtain ⟨found, inside⟩ := Option.isSome_iff_exists.mp deeper
      have child := inside
      rw [nodeAt_append there] at child
      refine ⟨(path ++ key :: keys, found.data), ?_, (kept _ deeper version).mpr last⟩
      exact (mem_placedOf path _ children (siblingsApart_at apart there)).mpr
        ⟨key :: keys, found, rfl, child⟩
  rw [Node.data_mk, Option.filter_eq_some_iff, applyAll_newest, newestIn_eq_some_iff]
  have same : {version | some version ∈ (placedOf path children).map
        (fun entry => since.get? (pathText entry.1))} =
      {version | ∃ key keys, (nodeAt (newestOf history) (path ++ key :: keys)).isSome ∧
        LastChange history (path ++ key :: keys) version} := by
    ext version
    exact below version
  rw [same, and_comm]
  apply and_congr_left'
  simp [isNewerThan]

theorem siblingsApart_newestOf (apart : ∀ entry ∈ history, SiblingsApart entry.2) :
    SiblingsApart (newestOf history) := by
  cases history using List.reverseRecOn with
  | nil => exact .intro List.nodup_nil (by simp [newestOf])
  | append_singleton earlier entry =>
      have last : newestOf (earlier ++ [entry]) = entry.2 := by simp [newestOf]
      rw [last]
      exact apart entry (List.mem_append_right _ List.mem_cons_self)

/-- A node of the newest version has a last change. -/
theorem exists_lastChange (ascending : (history.map Prod.fst).Pairwise (· < ·))
    (there : (nodeAt (newestOf history) path).isSome) : ∃ version, LastChange history path version := by
  obtain ⟨node, here⟩ := Option.isSome_iff_exists.mp there
  obtain ⟨version, changed⟩ := exists_changedAt here
  have course : (courseOf history path).map Prod.fst = history.map Prod.fst := by
    rw [courseOf, List.map_map]
    rfl
  obtain ⟨newest, last⟩ := exists_newest_renewal (course ▸ ascending) (changedAt_iff.mp changed)
  simp only [← changedAt_iff] at last
  exact ⟨newest, last⟩

/-- The annotations are right where the nodes entered last under the texts change with the nodes of the
newest version. -/
theorem annotate_iff (ascending : (history.map Prod.fst).Pairwise (· < ·))
    (apart : ∀ entry ∈ history, SiblingsApart entry.2) (legible : Legible writeJson history) :
    TellsLastChanges history (annotate writeJson history) ↔ EntriesFollow history := by
  rw [annotate, (annotation_of_history history).1]
  constructor
  · intro told path there version last
    obtain ⟨node, here⟩ := Option.isSome_iff_exists.mp there
    obtain ⟨marked, found, -, -, annotated⟩ := told path node here
    obtain ⟨changed, same, last'⟩ := annotated.changedIn
    rw [show ("" : String) = pathText [] from rfl, nodeAt_applyAll, here, Option.map_some,
      Option.some.injEq] at found
    rw [← last'.unique last, ← since_iff ascending legible, ← same, ← found, path_of_nodeAt here,
      pathText_concat, List.nil_append, List.dropLast_concat]
    cases node
    rfl
  · intro follow
    apply tells_of_since (siblingsApart_newestOf apart)
    · intro path there version
      rw [since_iff ascending legible]
      constructor
      · intro greatest
        obtain ⟨newest, last⟩ := exists_lastChange ascending there
        rw [greatest.unique (follow path there newest last)]
        exact last
      · exact follow path there version
    · intro path there
      exact exists_lastChange ascending there

/-- Entries change with the nodes where no other path is joined to the text of one, and what changes in a
node is written. -/
theorem entriesFollow_of_apart (apart : ∀ entry ∈ history, SiblingsApart entry.2)
    (paths : PathsApart history) (told : HiddenTold history) : EntriesFollow history := by
  intro path there version last
  have entries : (history.map fun entry => (entry.1, (lastEntered entry.2 (pathText path)).map NodeData.shown)) =
      (courseOf history path).map fun entry => (entry.1, entry.2.map NodeData.shown) := by
    rw [courseOf, List.map_map]
    apply List.map_congr_left
    intro entry among
    rw [lastEntered_pathText (apart entry among) (paths path there entry among), Function.comp_apply,
      Option.map_map, Option.map_map]
    rfl
  have faithful : (none :: (courseOf history path).map Prod.snd).IsChain fun first second =>
      first.map NodeData.shown = second.map NodeData.shown → first = second := by
    have course : (courseOf history path).map Prod.snd =
        (history.map fun entry => nodeAt entry.2 path).map (Option.map (·.data.own)) := by
      rw [courseOf, List.map_map, List.map_map]
      rfl
    rw [course, List.isChain_cons]
    constructor
    · intro first _ nothing
      exact (Option.map_eq_none_iff.mp nothing.symm).symm
    apply List.isChain_map_of_isChain (Option.map fun node : Node => node.data.own) fun _ _ held => held
    apply (told path there).imp
    intro first second kept same
    cases first with
    | none =>
        cases second with
        | none => rfl
        | some other => cases same
    | some one =>
        cases second with
        | none => cases same
        | some other => exact congrArg some (kept one rfl other rfl (Option.some.inj same))
  have changes : {version | EntryChangedAt history (pathText path) version} =
      {version | ChangedAt history path version} := by
    ext version
    rw [Set.mem_ofPred_eq, Set.mem_ofPred_eq, EntryChangedAt, entries, changedAt_iff]
    exact renewedAt_map faithful
  rw [changes]
  exact last

end Annotating

section LastChanges

variable {writeJson : Value → Except String String} {history : List (SemVer × List Node)}

/-- The annotations of a history name the last changes of the newest nodes exactly when the nodes that
are entered last under their texts change with them, as they do where no two paths share a text and
nothing changes that is not written. -/
theorem annotations_name_last_changes (ascending : (history.map Prod.fst).Pairwise (· < ·))
    (apart : ∀ entry ∈ history, SiblingsApart entry.2) (legible : Legible writeJson history) :
    (TellsLastChanges history (annotate writeJson history) ↔ EntriesFollow history) ∧
      (PathsApart history → HiddenTold history → EntriesFollow history) :=
  ⟨annotate_iff ascending apart legible, entriesFollow_of_apart apart⟩

end LastChanges

section OrderHistories

/-- A character as it is written, where it has no escape of its own. -/
def escaped (char : Char) : String :=
  if char.toNat < 32 then
    "\\u00" ++ (if char.toNat < 16 then "0" else "1") ++ String.singleton (Nat.digitChar (char.toNat % 16))
  else String.singleton char

def quoted (text : String) : String := "\"" ++ String.join (text.toList.map escaped) ++ "\""

mutual

/-- Compact JSON of texts without quotes and backslashes. -/
def compactJson : Value → String
  | .null => "null"
  | .bool value => if value then "true" else "false"
  | .number literal => literal
  | .string text => quoted text
  | .array items => "[" ++ ",".intercalate (compactItems items) ++ "]"
  | .object entries => "\x7b" ++ ",".intercalate (compactEntries entries) ++ "\x7d"

def compactItems : List Value → List String
  | [] => []
  | item :: rest => compactJson item :: compactItems rest

def compactEntries : List (String × Value) → List String
  | [] => []
  | (key, value) :: rest => (quoted key ++ ":" ++ compactJson value) :: compactEntries rest

end

def writeCompact (value : Value) : Except String String := .ok (compactJson value)

def describedMember (key description : String) : NodeData :=
  { key := key
    kind := .member
    name := key
    description := some description }

/-- An order with a price that has a sum, and another member. -/
def orderNodes (other sum : String) : List Node :=
  [.mk (describedMember "order" "An order.")
    [.mk (describedMember "price" "The price.") [.mk (describedMember "sum" sum) []],
      .mk (describedMember other "Free text.") []]]

/-- The description of the sum changes in the second version. -/
def orderHistory (other : String) : List (SemVer × List Node) :=
  [(⟨1, 0, 0⟩, orderNodes other "The sum."), (⟨1, 1, 0⟩, orderNodes other "The sum, tax included.")]

def orderMembers (other : String) : List NodeData :=
  [describedMember "order" "An order.", describedMember "price" "The price.", describedMember "sum" "The sum.",
    describedMember "sum" "The sum, tax included.", describedMember other "Free text."]

theorem orderHistory_ascending (other : String) :
    ((orderHistory other).map Prod.fst).Pairwise (· < ·) := by
  change [(⟨1, 0, 0⟩ : SemVer), ⟨1, 1, 0⟩].Pairwise (· < ·)
  decide

theorem orderNodes_apart {other : String} (differs : "price" ≠ other) (sum : String) :
    SiblingsApart (orderNodes other sum) := by
  have leaf : ∀ data, SiblingsApart (Node.mk data []).children := fun _ => .intro List.nodup_nil (by simp)
  refine .intro (List.nodup_singleton _) fun node among => ?_
  obtain rfl := List.mem_singleton.mp among
  refine .intro (by simpa [describedMember] using differs) fun node among => ?_
  obtain rfl | among := List.mem_cons.mp among
  · refine .intro (List.nodup_singleton _) fun node among => ?_
    obtain rfl := List.mem_singleton.mp among
    exact leaf _
  · obtain rfl := List.mem_singleton.mp among
    exact leaf _

theorem orderHistory_apart {other : String} (differs : "price" ≠ other) :
    ∀ entry ∈ orderHistory other, SiblingsApart entry.2 := by
  intro entry among
  simp only [orderHistory, List.mem_cons, List.not_mem_nil, or_false] at among
  obtain rfl | rfl := among
  · exact orderNodes_apart differs _
  · exact orderNodes_apart differs _

/-- A writer that writes all that is there differently tells it apart. -/
theorem legible_of_nodup {writeJson : Value → Except String String} {history : List (SemVer × List Node)}
    {known : List NodeData} (distinct : (known.map (print writeJson)).Nodup)
    (among : ∀ entry ∈ history, ∀ placed ∈ placedOf [] entry.2, placed.2 ∈ known) :
    Legible writeJson history := by
  intro early held one placed late held' other placed' same
  rw [List.inj_on_of_nodup_map distinct (among early held one placed) (among late held' other placed') same]

theorem placed_orderNodes (other sum : String) : placedOf [] (orderNodes other sum) =
    [(["order", "price", "sum"], describedMember "sum" sum),
      (["order", "price"], describedMember "price" "The price."),
      (["order", other], describedMember other "Free text."),
      (["order"], describedMember "order" "An order.")] := rfl

theorem orderHistory_legible {other : String}
    (distinct : ((orderMembers other).map (print writeCompact)).Nodup) :
    Legible writeCompact (orderHistory other) := by
  apply legible_of_nodup distinct
  intro entry among placed there
  simp only [orderHistory, List.mem_cons, List.not_mem_nil, or_false] at among
  obtain rfl | rfl := among <;> rw [placed_orderNodes] at there <;>
    simp only [List.mem_cons, List.not_mem_nil, or_false] at there <;>
    obtain rfl | rfl | rfl | rfl := there <;> simp [orderMembers]

/-- Joined, the keys of the sum are those of the other member when its own key holds the separator. -/
theorem shared_text_hides_change :
    ¬ TellsLastChanges (orderHistory "price\u001fsum")
      (annotate writeCompact (orderHistory "price\u001fsum")) := by
  intro told
  obtain ⟨marked, found, -, -, annotated⟩ := told ["order", "price", "sum"]
    (.mk (describedMember "sum" "The sum, tax included.") []) rfl
  obtain ⟨version, same, last⟩ := annotated.changedIn
  have kept : marked.data.changedIn = some ⟨1, 0, 0⟩ := by
    have there : nodeAt (annotate writeCompact (orderHistory "price\u001fsum")) ["order", "price", "sum"] =
        some (.mk { describedMember "sum" "The sum, tax included." with changedIn := some ⟨1, 0, 0⟩ } []) := by
      rfl
    obtain rfl := Option.some.inj (there.symm.trans found)
    rfl
  have changed : ChangedAt (orderHistory "price\u001fsum") ["order", "price", "sum"] ⟨1, 1, 0⟩ := by
    refine ⟨[(⟨1, 0, 0⟩, orderNodes "price\u001fsum" "The sum.")], _, [], _, rfl, rfl, ?_⟩
    intro before among previous there equal
    obtain rfl := Option.some.inj among
    obtain rfl := Option.some.inj there
    have descriptions := congrArg NodeData.description equal
    revert descriptions
    decide
  have bound : (⟨1, 1, 0⟩ : SemVer) ≤ ⟨1, 0, 0⟩ := by
    have newest := last.2 changed
    rwa [Option.some.inj (same.symm.trans kept)] at newest
  exact absurd bound (by decide)

theorem nodeAt_orderNodes {other sum : String} (differs : "price" ≠ other) {path : List String} {node : Node}
    (there : nodeAt (orderNodes other sum) path = some node) :
    (path, node.data) ∈ placedOf [] (orderNodes other sum) := by
  have apart : SiblingsApart (orderNodes other sum) :=
    orderNodes_apart differs sum
  exact (mem_placedOf [] _ _ apart).mpr ⟨path, node, rfl, there⟩

theorem orderHistory_told :
    TellsLastChanges (orderHistory "note") (annotate writeCompact (orderHistory "note")) := by
  have differs : "price" ≠ "note" := by decide
  have distinct : ((orderMembers "note").map (print writeCompact)).Nodup := by decide
  have texts := annotations_name_last_changes (orderHistory_ascending "note")
    (orderHistory_apart differs) (orderHistory_legible distinct)
  apply texts.1.mpr
  apply texts.2
  · intro path there entry among other there' same
    obtain ⟨node, here⟩ := Option.isSome_iff_exists.mp there
    obtain ⟨node', here'⟩ := Option.isSome_iff_exists.mp there'
    have known := nodeAt_orderNodes differs here
    simp only [orderHistory, List.mem_cons, List.not_mem_nil, or_false] at among
    have known' : (other, node'.data) ∈ placedOf [] entry.2 := by
      obtain rfl | rfl := among <;> exact nodeAt_orderNodes differs here'
    have paths : ∀ {path : List String} {data : NodeData} {sum : String},
        (path, data) ∈ placedOf [] (orderNodes "note" sum) →
          path ∈ [["order", "price", "sum"], ["order", "price"], ["order", "note"], ["order"]] := by
      intro path data sum among
      exact List.mem_map_of_mem (f := Prod.fst) among
    have apart : ∀ first ∈ [["order", "price", "sum"], ["order", "price"], ["order", "note"], ["order"]],
        ∀ second ∈ [["order", "price", "sum"], ["order", "price"], ["order", "note"], ["order"]],
          pathText first = pathText second → first = second := by
      decide
    have held' : other ∈ [["order", "price", "sum"], ["order", "price"], ["order", "note"], ["order"]] := by
      obtain rfl | rfl := among <;> exact paths known'
    exact apart other held' path (paths known) same
  · intro path _
    have written : ∀ {sum : String} {node : Node}, nodeAt (orderNodes "note" sum) path = some node →
        node.data.shown = node.data.own := by
      intro sum node here
      have known := nodeAt_orderNodes differs here
      simp only [placed_orderNodes, List.mem_cons, Prod.mk.injEq, List.not_mem_nil, or_false] at known
      obtain ⟨-, same⟩ | ⟨-, same⟩ | ⟨-, same⟩ | ⟨-, same⟩ := known <;> rw [same] <;> rfl
    apply List.isChain_pair.mpr
    intro one here other here' same
    rw [← written here, ← written here', same]

end OrderHistories
end Sanshain.Guarantees
