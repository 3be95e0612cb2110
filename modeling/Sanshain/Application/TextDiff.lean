import Sanshain.Data.EditScript
import Sanshain.Text.Scan

namespace Sanshain.Application

open Sanshain.Data Sanshain.Text

/-- A line without its ending. -/
abbrev Line := List Char

/-- What a diff line is relative to the two sides. -/
inductive DiffLineOp where
  | ctx
  | add
  | del
  deriving DecidableEq, Repr

/-- One line of a hunk, numbered from one; a side that the line is not on has no number. -/
structure DiffLine where
  op : DiffLineOp
  oldNo : Option Nat
  newNo : Option Nat
  text : Line
  oldText : Option Line
  deriving DecidableEq, Repr

/-- A region of changes with its context, numbered as the header of a unified diff. -/
structure DiffHunk where
  oldStart : Nat
  oldLen : Nat
  newStart : Nat
  newLen : Nat
  lines : List DiffLine
  deriving DecidableEq, Repr

structure DiffOptions where
  ignoreWhitespace : Bool := false
  context : Option Nat := some 3
  deriving DecidableEq, Repr

/-- The line differ: the edit script of two lists of lines, and the groups of its operations around
each cluster of changes. -/
structure LineDiffer where
  ops : List Line → List Line → List DiffOp
  groupedOps : List DiffOp → Nat → List (List DiffOp)

section Hunks

/-- What a line is compared by. -/
def DiffOptions.key (options : DiffOptions) (line : Line) : Line :=
  if options.ignoreWhitespace then trimChars line else line

/-- Whole text is a context larger than either side. -/
def DiffOptions.radius (options : DiffOptions) (oldLines newLines : List Line) : Nat :=
  options.context.getD (oldLines.length + newLines.length + 1)

def contextLine (oldLines newLines : List Line) (oldAt newAt : Nat) : DiffLine :=
  let oldText := oldLines[oldAt]?.getD []
  let newText := newLines[newAt]?.getD []
  ⟨.ctx, some (oldAt + 1), some (newAt + 1), newText,
    if oldText ≠ newText then some oldText else none⟩

def pushDeleted (oldLines : List Line) (index len : Nat) : List DiffLine :=
  (List.range' index len).map fun i => ⟨.del, some (i + 1), none, oldLines[i]?.getD [], none⟩

def pushInserted (newLines : List Line) (index len : Nat) : List DiffLine :=
  (List.range' index len).map fun i => ⟨.add, none, some (i + 1), newLines[i]?.getD [], none⟩

/-- The lines of one operation. -/
def opLines (oldLines newLines : List Line) : DiffOp → List DiffLine
  | .equal oldIndex newIndex len =>
      (List.range len).map fun i => contextLine oldLines newLines (oldIndex + i) (newIndex + i)
  | .delete oldIndex oldLen _ => pushDeleted oldLines oldIndex oldLen
  | .insert _ newIndex newLen => pushInserted newLines newIndex newLen
  | .replace oldIndex oldLen newIndex newLen =>
      pushDeleted oldLines oldIndex oldLen ++ pushInserted newLines newIndex newLen

/-- The earliest start and the latest end of the ranges. -/
def spanned (ranges : List (Nat × Nat)) : Option Nat × Nat :=
  ranges.foldl (fun held range => (some (held.1.elim range.1 (min · range.1)), max held.2 range.2))
    (none, 0)

/-- The numbering of one side: from one, and an empty side starts at the line before it. -/
def sideRange (ranges : List (Nat × Nat)) : Nat × Nat :=
  let start := (spanned ranges).1.getD 0
  let len := (spanned ranges).2 - start
  if len = 0 then (start, 0) else (start + 1, len)

def hunk (group : List DiffOp) (oldLines newLines : List Line) : DiffHunk :=
  let old := sideRange (group.map DiffOp.oldRange)
  let new := sideRange (group.map DiffOp.newRange)
  ⟨old.1, old.2, new.1, new.2, group.flatMap (opLines oldLines newLines)⟩

def diffLines (differ : LineDiffer) (old new : String) (options : DiffOptions) : List DiffHunk :=
  let oldLines := lines old.toList
  let newLines := lines new.toList
  let ops := differ.ops (oldLines.map options.key) (newLines.map options.key)
  (differ.groupedOps ops (options.radius oldLines newLines)).map fun group =>
    hunk group oldLines newLines

end Hunks

section Rendering

def DiffLineOp.sign : DiffLineOp → Char
  | .ctx => ' '
  | .add => '+'
  | .del => '-'

def renderHunk (hunk : DiffHunk) : List Char :=
  s!"@@ -{hunk.oldStart},{hunk.oldLen} +{hunk.newStart},{hunk.newLen} @@\n".toList ++
    hunk.lines.flatMap fun line => line.op.sign :: (line.text ++ ['\n'])

/-- The hunks as a patch; nothing when there are none. -/
def renderUnified (hunks : List DiffHunk) (fromLabel toLabel : String) : List Char :=
  if hunks.isEmpty then []
  else s!"--- {fromLabel}\n+++ {toLabel}\n".toList ++ hunks.flatMap renderHunk

end Rendering

section Blame

/-- The owners after one operation: what is equal keeps its owner, as far as both sides go. -/
def carryOwners (owners : List Nat) (next : List Nat) : DiffOp → List Nat
  | .equal oldIndex newIndex len =>
      next.mapIdx fun place owner =>
        if newIndex ≤ place ∧ place < newIndex + len then
          (owners[oldIndex + (place - newIndex)]?).getD owner
        else owner
  | _ => next

/-- One step of the history: every line is new unless the script pairs it with an old one. -/
def blameStep (ops : List DiffOp) (owners : List Nat) (step count : Nat) : List Nat :=
  ops.foldl (carryOwners owners) (List.replicate count step)

def blameFrom (differ : LineDiffer) (owners : List Nat) (previous : List Line) (step : Nat) :
    List (List Line) → List Nat
  | [] => owners
  | text :: rest =>
      blameFrom differ (blameStep (differ.ops previous text) owners step text.length) text (step + 1)
        rest

/-- For each line of the last text the text that last introduced or changed it. -/
def blameLines (differ : LineDiffer) : List String → List Nat
  | [] => []
  | first :: rest =>
      let oldest := lines first.toList
      blameFrom differ (List.replicate oldest.length 0) oldest 1 (rest.map fun text => lines text.toList)

/-- A run of lines of one owner: where it starts, from zero, and how many there are. -/
structure BlameRun where
  owner : Nat
  start : Nat
  len : Nat
  deriving DecidableEq, Repr

/-- A line joins the last run when it has its owner, and starts one otherwise. -/
def addOwner (runs : List BlameRun) (line : Nat × Nat) : List BlameRun :=
  match runs.getLast? with
  | some run =>
      if run.owner = line.1 then runs.dropLast ++ [{ run with len := run.len + 1 }]
      else runs ++ [⟨line.1, line.2, 1⟩]
  | none => runs ++ [⟨line.1, line.2, 1⟩]

def groupBlame (owners : List Nat) : List BlameRun := owners.zipIdx.foldl addOwner []

end Blame

example : groupBlame [0, 0, 1, 1, 1, 0] = [⟨0, 0, 2⟩, ⟨1, 2, 3⟩, ⟨0, 5, 1⟩] := by decide +kernel

end Sanshain.Application
