import Sanshain.Application.TextDiff

namespace Sanshain.Application

open Sanshain.Data

/-- The context and the added lines. -/
def newTexts (lines : List DiffLine) : List Line := (lines.filter (·.op ≠ .del)).map (·.text)

namespace DiffHunk

/-- Where the hunk begins on the old side, from zero: an empty side stands at its line number. -/
def oldFrom (hunk : DiffHunk) : Nat := if hunk.oldLen = 0 then hunk.oldStart else hunk.oldStart - 1

def newFrom (hunk : DiffHunk) : Nat := if hunk.newLen = 0 then hunk.newStart else hunk.newStart - 1

def newSide (hunk : DiffHunk) : List Line := newTexts hunk.lines

/-- The old range of the hunk, replaced by its context and added lines. -/
def onOld (hunk : DiffHunk) : Replacement Line :=
  ⟨hunk.oldFrom, hunk.oldFrom + hunk.oldLen, hunk.newSide⟩

/-- The new range of the hunk with the same lines. -/
def onNew (hunk : DiffHunk) : Replacement Line :=
  ⟨hunk.newFrom, hunk.newFrom + hunk.newLen, hunk.newSide⟩

end DiffHunk

/-- A line is on the sides that its sign says, under its numbers and with its texts. -/
def DiffLine.Shows (oldLines newLines : List Line) (line : DiffLine) : Prop :=
  match line.op with
  | .ctx => ∃ i j, line.oldNo = some (i + 1) ∧ line.newNo = some (j + 1) ∧
      oldLines[i]? = some (line.oldText.getD line.text) ∧ newLines[j]? = some line.text
  | .del => ∃ i, line.oldNo = some (i + 1) ∧ line.newNo = none ∧ oldLines[i]? = some line.text
  | .add => ∃ j, line.oldNo = none ∧ line.newNo = some (j + 1) ∧ newLines[j]? = some line.text

end Sanshain.Application

namespace Sanshain.Guarantees

open Sanshain.Application Sanshain.Data Sanshain.Text

/-- The hunks of a diff are a patch from the old lines to the new ones. -/
structure CorrectPatch (options : DiffOptions) (oldLines newLines : List Line)
    (hunks : List DiffHunk) : Prop where
  ordered : hunks.Pairwise fun earlier later =>
    earlier.oldFrom + earlier.oldLen ≤ later.oldFrom ∧ earlier.newFrom + earlier.newLen ≤ later.newFrom
  within : ∀ hunk ∈ hunks, hunk.oldFrom + hunk.oldLen ≤ oldLines.length ∧
    hunk.newFrom + hunk.newLen ≤ newLines.length
  numbered : ∀ hunk ∈ hunks,
    hunk.lines.filterMap (·.oldNo) = List.range' (hunk.oldFrom + 1) hunk.oldLen ∧
      hunk.lines.filterMap (·.newNo) = List.range' (hunk.newFrom + 1) hunk.newLen
  shown : ∀ hunk ∈ hunks, ∀ line ∈ hunk.lines, line.Shows oldLines newLines
  exact : options.ignoreWhitespace = false → patch id oldLines 0 (hunks.map DiffHunk.onOld) = newLines
  trimmed : options.ignoreWhitespace = true →
    patch trimChars oldLines 0 (hunks.map DiffHunk.onOld) =
      patch trimChars newLines 0 (hunks.map DiffHunk.onNew)
  own : patch id newLines 0 (hunks.map DiffHunk.onNew) = newLines
  quiet : hunks = [] ↔ oldLines.map options.key = newLines.map options.key

section Ranges

/-- Ranges that begin where the one before ended. -/
def Linked : Nat → List (Nat × Nat) → Nat → Prop
  | first, [], last => first = last
  | first, range :: rest, last => range.1 = first ∧ range.1 ≤ range.2 ∧ Linked range.2 rest last

variable {ranges : List (Nat × Nat)} {first last : Nat}

theorem Linked.le (linked : Linked first ranges last) : first ≤ last := by
  induction ranges generalizing first with
  | nil => exact le_of_eq linked
  | cons range rest ih =>
      obtain ⟨rfl, order, later⟩ := linked
      exact order.trans (ih later)

theorem foldl_spanned (linked : Linked first ranges last) {start : Nat} (before : start ≤ first) :
    ranges.foldl (fun held range => (some (held.1.elim range.1 (min · range.1)), max held.2 range.2))
      (some start, first) = (some start, last) := by
  induction ranges generalizing first with
  | nil => rw [List.foldl_nil, show first = last from linked]
  | cons range rest ih =>
      obtain ⟨rfl, order, later⟩ := linked
      have least : min start range.1 = start := by omega
      have most : max range.1 range.2 = range.2 := by omega
      rw [List.foldl_cons]
      simp only [Option.elim_some, least, most]
      exact ih later (before.trans order)

/-- The numbering of a side whose ranges follow one another. -/
theorem sideRange_linked (linked : Linked first ranges last) (filled : ranges ≠ []) :
    sideRange ranges = if first = last then (first, 0) else (first + 1, last - first) := by
  cases ranges with
  | nil => exact absurd rfl filled
  | cons range rest =>
      obtain ⟨rfl, order, later⟩ := linked
      have span : spanned (range :: rest) = (some range.1, last) := by
        rw [← foldl_spanned later order]
        simp [spanned]
      have le := later.le
      simp only [sideRange, span, Option.getD_some]
      by_cases same : range.1 = last
      · rw [if_pos (by omega), if_pos same]
      · rw [if_neg (by omega), if_neg same]

variable {group : List DiffOp} {start stop : Nat × Nat}

theorem Chain.linked (chain : Chain start group stop) :
    Linked start.1 (group.map DiffOp.oldRange) stop.1 ∧
      Linked start.2 (group.map DiffOp.newRange) stop.2 := by
  induction chain with
  | nil => exact ⟨rfl, rfl⟩
  | @cons op rest last later ih => exact ⟨⟨rfl, op.oldRange_le, ih.1⟩, ⟨rfl, op.newRange_le, ih.2⟩⟩

/-- The header of a hunk says the places its operations lead from and to. -/
theorem header_hunk (oldLines newLines : List Line) (chain : Chain start group stop) (filled : group ≠ []) :
    (hunk group oldLines newLines).oldFrom = start.1 ∧
      (hunk group oldLines newLines).oldLen = stop.1 - start.1 ∧
      (hunk group oldLines newLines).newFrom = start.2 ∧
      (hunk group oldLines newLines).newLen = stop.2 - start.2 := by
  have old := sideRange_linked (Chain.linked chain).1 (by simpa using filled)
  have new := sideRange_linked (Chain.linked chain).2 (by simpa using filled)
  obtain ⟨onOld, onNew⟩ := chain.le
  simp only [DiffHunk.oldFrom, DiffHunk.newFrom, hunk, old, new]
  refine ⟨?_, ?_, ?_, ?_⟩
  · by_cases same : start.1 = stop.1
    · simp [same]
    · simp [same, show stop.1 - start.1 ≠ 0 by omega]
  · by_cases same : start.1 = stop.1 <;> simp [same]
  · by_cases same : start.2 = stop.2
    · simp [same]
    · simp [same, show stop.2 - start.2 ≠ 0 by omega]
  · by_cases same : start.2 = stop.2 <;> simp [same]

end Ranges

section Lines

variable {group : List DiffOp} {start stop : Nat × Nat} {oldLines newLines : List Line}

/-- What each operation lists of a side is listed by the whole group. -/
theorem Chain.flatMap {Item : Type} (chain : Chain start group stop) {list : DiffOp → List Item}
    {part : Nat → Nat → List Item} {side : Nat × Nat → Nat}
    (none : ∀ place, part place place = [])
    (joined : ∀ first middle last, first ≤ middle → middle ≤ last →
      part first middle ++ part middle last = part first last)
    (order : ∀ op : DiffOp, side op.start ≤ side op.stop)
    (each : ∀ op ∈ group, list op = part (side op.start) (side op.stop)) :
    group.flatMap list = part (side start) (side stop) ∧ side start ≤ side stop := by
  induction chain with
  | nil place => exact ⟨by rw [none, List.flatMap_nil], le_rfl⟩
  | @cons op rest last later ih =>
      obtain ⟨tail, le⟩ := ih fun other among => each other (List.mem_cons_of_mem _ among)
      rw [List.flatMap_cons, each op List.mem_cons_self, tail]
      exact ⟨joined _ _ _ (order op) le, (order op).trans le⟩

def numbers (start stop : Nat) : List Nat := List.range' (start + 1) (stop - start)

theorem numbers_append {first middle last : Nat} (before : first ≤ middle) (after : middle ≤ last) :
    numbers first middle ++ numbers middle last = numbers first last := by
  have place : middle + 1 = first + 1 + 1 * (middle - first) := by omega
  have length : last - first = (middle - first) + (last - middle) := by omega
  unfold numbers
  rw [place, List.range'_append, ← length]

theorem map_succ_range' (index len : Nat) :
    (List.range' index len).map (· + 1) = List.range' (index + 1) len := by
  induction len generalizing index with
  | zero => rfl
  | succ len ih => rw [List.range'_succ, List.range'_succ, List.map_cons, ih]

theorem filterMap_pushDeleted_oldNo (index len : Nat) :
    (pushDeleted oldLines index len).filterMap (·.oldNo) = List.range' (index + 1) len := by
  rw [pushDeleted, List.filterMap_map, ← map_succ_range', ← List.filterMap_eq_map]
  rfl

theorem filterMap_pushDeleted_newNo (index len : Nat) :
    (pushDeleted oldLines index len).filterMap (·.newNo) = [] := by
  simp [pushDeleted, List.filterMap_map]

theorem filterMap_pushInserted_oldNo (index len : Nat) :
    (pushInserted newLines index len).filterMap (·.oldNo) = [] := by
  simp [pushInserted, List.filterMap_map]

theorem filterMap_pushInserted_newNo (index len : Nat) :
    (pushInserted newLines index len).filterMap (·.newNo) = List.range' (index + 1) len := by
  rw [pushInserted, List.filterMap_map, ← map_succ_range', ← List.filterMap_eq_map]
  rfl

/-- The old numbers, the new numbers and the new texts of one operation. -/
theorem filterMap_opLines_oldNo (op : DiffOp) :
    (opLines oldLines newLines op).filterMap (·.oldNo) = numbers op.start.1 op.stop.1 := by
  cases op with
  | equal oldIndex newIndex len =>
      have length : oldIndex + len - oldIndex = len := by omega
      change _ = List.range' (oldIndex + 1) (oldIndex + len - oldIndex)
      rw [length, opLines, List.filterMap_map, ← map_succ_range', List.range'_eq_map_range,
        List.map_map, ← List.filterMap_eq_map]
      rfl
  | delete oldIndex oldLen newIndex =>
      simp [opLines, filterMap_pushDeleted_oldNo, numbers, DiffOp.start, DiffOp.stop, DiffOp.oldRange]
  | insert oldIndex newIndex newLen =>
      simp [opLines, filterMap_pushInserted_oldNo, numbers, DiffOp.start, DiffOp.stop, DiffOp.oldRange]
  | replace oldIndex oldLen newIndex newLen =>
      simp [opLines, filterMap_pushDeleted_oldNo, filterMap_pushInserted_oldNo, numbers, DiffOp.start,
        DiffOp.stop, DiffOp.oldRange]

theorem filterMap_opLines_newNo (op : DiffOp) :
    (opLines oldLines newLines op).filterMap (·.newNo) = numbers op.start.2 op.stop.2 := by
  cases op with
  | equal oldIndex newIndex len =>
      have length : newIndex + len - newIndex = len := by omega
      change _ = List.range' (newIndex + 1) (newIndex + len - newIndex)
      rw [length, opLines, List.filterMap_map, ← map_succ_range', List.range'_eq_map_range,
        List.map_map, ← List.filterMap_eq_map]
      rfl
  | delete oldIndex oldLen newIndex =>
      simp [opLines, filterMap_pushDeleted_newNo, numbers, DiffOp.start, DiffOp.stop, DiffOp.newRange]
  | insert oldIndex newIndex newLen =>
      simp [opLines, filterMap_pushInserted_newNo, numbers, DiffOp.start, DiffOp.stop, DiffOp.newRange]
  | replace oldIndex oldLen newIndex newLen =>
      simp [opLines, filterMap_pushDeleted_newNo, filterMap_pushInserted_newNo, numbers, DiffOp.start,
        DiffOp.stop, DiffOp.newRange]

theorem range'_texts {list : List Line} {start len : Nat} (inside : start + len ≤ list.length) :
    (List.range' start len).map (fun i => list[i]?.getD []) = between list start (start + len) := by
  apply List.ext_getElem?
  intro place
  by_cases here : place < len
  · have there : start + place < list.length := by omega
    rw [getElem?_between _ (by omega), List.getElem?_map, List.getElem?_range' here,
      List.getElem?_eq_getElem there]
    simp [List.getElem?_eq_getElem there]
  · have short := between_length_le list start (start + len)
    rw [List.getElem?_eq_none (by simp; omega), List.getElem?_eq_none (by omega)]

theorem newTexts_append (lines more : List DiffLine) :
    newTexts (lines ++ more) = newTexts lines ++ newTexts more := by
  simp [newTexts]

theorem newTexts_pushDeleted (index len : Nat) : newTexts (pushDeleted oldLines index len) = [] := by
  have none : (pushDeleted oldLines index len).filter (·.op ≠ .del) = [] := by
    rw [List.filter_eq_nil_iff, pushDeleted, List.forall_mem_map]
    simp
  rw [newTexts, none, List.map_nil]

theorem newTexts_pushInserted {index len : Nat} (inside : index + len ≤ newLines.length) :
    newTexts (pushInserted newLines index len) = between newLines index (index + len) := by
  rw [← range'_texts inside]
  simp [newTexts, pushInserted, List.filter_map, Function.comp_def]

theorem newTexts_opLines {op : DiffOp} (inside : op.stop.2 ≤ newLines.length) :
    newTexts (opLines oldLines newLines op) = between newLines op.start.2 op.stop.2 := by
  cases op with
  | equal oldIndex newIndex len =>
      change _ = between newLines newIndex (newIndex + len)
      rw [← range'_texts inside, List.range'_eq_map_range, List.map_map]
      simp [newTexts, opLines, contextLine, List.filter_map, Function.comp_def]
  | delete oldIndex oldLen newIndex =>
      simp [opLines, newTexts_pushDeleted, DiffOp.start, DiffOp.stop, DiffOp.newRange]
  | insert oldIndex newIndex newLen => exact newTexts_pushInserted inside
  | replace oldIndex oldLen newIndex newLen =>
      rw [opLines, newTexts_append, newTexts_pushDeleted, List.nil_append]
      exact newTexts_pushInserted inside

theorem shows_pushDeleted {index len : Nat} (inside : index + len ≤ oldLines.length) :
    ∀ line ∈ pushDeleted oldLines index len, line.Shows oldLines newLines := by
  rw [pushDeleted, List.forall_mem_map]
  intro i among
  have there : i < oldLines.length := by
    have := List.mem_range'_1.mp among
    omega
  exact ⟨i, rfl, rfl, by simp [List.getElem?_eq_getElem there]⟩

theorem shows_pushInserted {index len : Nat} (inside : index + len ≤ newLines.length) :
    ∀ line ∈ pushInserted newLines index len, line.Shows oldLines newLines := by
  rw [pushInserted, List.forall_mem_map]
  intro i among
  have there : i < newLines.length := by
    have := List.mem_range'_1.mp among
    omega
  exact ⟨i, rfl, rfl, by simp [List.getElem?_eq_getElem there]⟩

theorem shows_contextLine {oldAt newAt : Nat} (onOld : oldAt < oldLines.length)
    (onNew : newAt < newLines.length) :
    (contextLine oldLines newLines oldAt newAt).Shows oldLines newLines := by
  refine ⟨oldAt, newAt, rfl, rfl, ?_, by simp [contextLine, List.getElem?_eq_getElem onNew]⟩
  by_cases same : oldLines[oldAt] = newLines[newAt]
  · simp [contextLine, List.getElem?_eq_getElem onOld, List.getElem?_eq_getElem onNew, same]
  · simp [contextLine, List.getElem?_eq_getElem onOld, List.getElem?_eq_getElem onNew, same]

theorem shows_opLines {op : DiffOp} (onOld : op.stop.1 ≤ oldLines.length)
    (onNew : op.stop.2 ≤ newLines.length) :
    ∀ line ∈ opLines oldLines newLines op, line.Shows oldLines newLines := by
  cases op with
  | equal oldIndex newIndex len =>
      change oldIndex + len ≤ _ at onOld
      change newIndex + len ≤ _ at onNew
      rw [opLines, List.forall_mem_map]
      intro i among
      have inside := List.mem_range.mp among
      exact shows_contextLine (by omega) (by omega)
  | delete oldIndex oldLen newIndex => exact shows_pushDeleted onOld
  | insert oldIndex newIndex newLen => exact shows_pushInserted onNew
  | replace oldIndex oldLen newIndex newLen =>
      rw [opLines, List.forall_mem_append]
      exact ⟨shows_pushDeleted onOld, shows_pushInserted onNew⟩

theorem Chain.stop_le (chain : Chain start group stop) :
    ∀ op ∈ group, op.stop.1 ≤ stop.1 ∧ op.stop.2 ≤ stop.2 := by
  induction chain with
  | nil => simp
  | @cons op rest last later ih =>
      rw [List.forall_mem_cons]
      exact ⟨later.le, ih⟩

end Lines

section Groups

variable {group : List DiffOp} {start stop : Nat × Nat} {oldLines newLines : List Line}

theorem filterMap_hunk (chain : Chain start group stop) :
    (hunk group oldLines newLines).lines.filterMap (·.oldNo) = numbers start.1 stop.1 ∧
      (hunk group oldLines newLines).lines.filterMap (·.newNo) = numbers start.2 stop.2 := by
  have none : ∀ place, numbers place place = [] := by simp [numbers]
  rw [hunk, List.filterMap_flatMap, List.filterMap_flatMap]
  exact ⟨(Chain.flatMap chain none (fun _ _ _ => numbers_append) (fun op => op.oldRange_le)
      fun op _ => filterMap_opLines_oldNo op).1,
    (Chain.flatMap chain none (fun _ _ _ => numbers_append) (fun op => op.newRange_le)
      fun op _ => filterMap_opLines_newNo op).1⟩

theorem newSide_hunk (chain : Chain start group stop) (inside : stop.2 ≤ newLines.length) :
    (hunk group oldLines newLines).newSide = between newLines start.2 stop.2 := by
  have whole : (hunk group oldLines newLines).newSide =
      group.flatMap fun op => newTexts (opLines oldLines newLines op) := by
    simp [DiffHunk.newSide, newTexts, hunk, List.filter_flatMap, List.map_flatMap]
  rw [whole]
  exact (Chain.flatMap chain (fun place => between_self newLines place)
    (fun _ _ _ => between_append newLines) (fun op => op.newRange_le)
    fun op among => newTexts_opLines ((Chain.stop_le chain op among).2.trans inside)).1

/-- A hunk is a part of both sides. -/
theorem reads_hunk (oldLines newLines : List Line) (groups : List (List DiffOp)) :
    Reads oldLines newLines groups (fun group => (hunk group oldLines newLines).onOld)
      fun group => (hunk group oldLines newLines).onNew where
  spec := by
    intro group _ first last chain filled _ inside
    obtain ⟨oldFrom, oldLen, newFrom, newLen⟩ := header_hunk oldLines newLines chain filled
    obtain ⟨onOld, onNew⟩ := chain.le
    have oldStop : first.1 + (last.1 - first.1) = last.1 := by omega
    have newStop : first.2 + (last.2 - first.2) = last.2 := by omega
    rw [DiffHunk.onOld, DiffHunk.onNew, oldFrom, oldLen, newFrom, newLen, oldStop, newStop,
      newSide_hunk chain inside]
    exact ⟨rfl, rfl⟩

/-- Every group of a script's clusters leads from a pair of places to another. -/
theorem Clusters.chains {pieces : List DiffOp} {groups : List (List DiffOp)} {first last : Nat × Nat}
    (clusters : Clusters pieces groups) (chain : Chain first pieces last) :
    ∀ group ∈ groups, group ≠ [] ∧ ∃ opened closed, Chain opened group closed ∧
      closed.1 ≤ last.1 ∧ closed.2 ≤ last.2 := by
  induction clusters generalizing first with
  | quiet equal => simp
  | next equal changes later ih =>
      obtain ⟨opened, front, chain⟩ := chain_append.mp chain
      obtain ⟨closed, middle, chain⟩ := chain_append.mp chain
      rw [List.forall_mem_cons]
      refine ⟨⟨?_, opened, closed, middle, chain.le⟩, ih chain⟩
      rintro rfl
      obtain ⟨op, among, -⟩ := changes
      cases among

end Groups

/-- For every two texts and every option: where the operations are an ordered edit script of the
compared lines, without edits when these are equal, and their groups isolate its clusters of changes,
the hunks are a patch. -/
theorem diffLines_patches (differ : LineDiffer) (old new : String) (options : DiffOptions)
    (script : EditScript ((lines old.toList).map options.key) ((lines new.toList).map options.key)
      (differ.ops ((lines old.toList).map options.key) ((lines new.toList).map options.key)))
    (frugal : (lines old.toList).map options.key = (lines new.toList).map options.key →
      ∀ op ∈ differ.ops ((lines old.toList).map options.key) ((lines new.toList).map options.key),
        op.isEqual = true)
    (grouped : Grouped
      (differ.ops ((lines old.toList).map options.key) ((lines new.toList).map options.key))
      (differ.groupedOps
        (differ.ops ((lines old.toList).map options.key) ((lines new.toList).map options.key))
        (options.radius (lines old.toList) (lines new.toList)))) :
    CorrectPatch options (lines old.toList) (lines new.toList) (diffLines differ old new options) := by
  unfold diffLines
  generalize lines old.toList = oldLines at *
  generalize lines new.toList = newLines at *
  simp only
  generalize differ.ops (oldLines.map options.key) (newLines.map options.key) = ops at *
  generalize differ.groupedOps ops (options.radius oldLines newLines) = groups at *
  have none := grouped.nil_iff
  obtain ⟨pieces, splits, clusters⟩ := grouped
  have chain : Chain (0, 0) pieces (oldLines.length, newLines.length) := by
    simpa using splits.chain script.chain
  have pairs := splits.pairs script.pairs
  have reads := reads_hunk oldLines newLines groups
  obtain ⟨onOld, onNew, own⟩ := clusters.fits chain reads
  have patched := clusters.patch chain pairs reads
  have left : (groups.map fun group => hunk group oldLines newLines).map DiffHunk.onOld =
      groups.map fun group => (hunk group oldLines newLines).onOld := List.map_map
  have right : (groups.map fun group => hunk group oldLines newLines).map DiffHunk.onNew =
      groups.map fun group => (hunk group oldLines newLines).onNew := List.map_map
  have whole := patch_own onNew own
  have chains := Clusters.chains clusters chain
  constructor
  · rw [List.pairwise_map]
    exact (List.pairwise_map.mp onOld.ordered).and (List.pairwise_map.mp onNew.ordered)
  · rw [List.forall_mem_map]
    intro group among
    exact ⟨(onOld.inside _ (List.mem_map_of_mem among)).2.2,
      (onNew.inside _ (List.mem_map_of_mem among)).2.2⟩
  · rw [List.forall_mem_map]
    intro group among
    obtain ⟨filled, opened, closed, middle, -⟩ := chains group among
    obtain ⟨oldFrom, oldLen, newFrom, newLen⟩ := header_hunk oldLines newLines middle filled
    rw [oldFrom, oldLen, newFrom, newLen]
    exact filterMap_hunk middle
  · rw [List.forall_mem_map]
    intro group among line listed
    obtain ⟨-, opened, closed, middle, inside⟩ := chains group among
    obtain ⟨op, held, listed⟩ := List.mem_flatMap.mp listed
    obtain ⟨below, below'⟩ := Chain.stop_le middle op held
    exact shows_opLines (below.trans inside.1) (below'.trans inside.2) line listed
  · intro plain
    have same : options.key = id := by
      funext line
      simp [DiffOptions.key, plain]
    rw [left]
    rw [same] at patched
    exact patched.trans whole
  · intro trims
    have same : options.key = trimChars := by
      funext line
      simp [DiffOptions.key, trims]
    rw [left, right, ← same]
    exact patched
  · rw [right]
    exact whole
  · rw [List.map_eq_nil_iff, none]
    constructor
    · intro equal
      have same := script.chain.same equal script.pairs
      rwa [between_zero, between_zero] at same
    · exact frugal

section Examples

/-- The script of two texts that differ in their last lines and in an indentation, as one group. -/
def indentedDiffer : LineDiffer where
  ops _ _ := [.equal 0 0 2, .replace 2 1 2 1]
  groupedOps ops _ := [ops]

theorem diffLines_patches_indented :
    CorrectPatch ⟨true, none⟩ (lines "root:\n- a\n  value: 1\n".toList)
      (lines "root:\n  - a\n    value: 2\n".toList)
      (diffLines indentedDiffer "root:\n- a\n  value: 1\n" "root:\n  - a\n    value: 2\n"
        ⟨true, none⟩) := by
  refine diffLines_patches indentedDiffer _ _ ⟨true, none⟩ ⟨?_, ?_⟩ ?_ ?_
  · have old : ((lines "root:\n- a\n  value: 1\n".toList).map
        (DiffOptions.key ⟨true, none⟩)).length = 3 := by decide +kernel
    have new : ((lines "root:\n  - a\n    value: 2\n".toList).map
        (DiffOptions.key ⟨true, none⟩)).length = 3 := by decide +kernel
    rw [old, new]
    exact chain_cons.mpr ⟨rfl, chain_cons.mpr ⟨rfl, .nil _⟩⟩
  · decide +kernel
  · intro same
    exact absurd same (by decide +kernel)
  · exact grouped_whole ⟨.replace 2 1 2 1, by simp [indentedDiffer], rfl⟩

end Examples
end Sanshain.Guarantees
