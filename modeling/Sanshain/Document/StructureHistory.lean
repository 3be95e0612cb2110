import Sanshain.Document.StructureNode

namespace Sanshain.Document

open Sanshain.Data Sanshain.Domain

namespace Node

/-- The character that joins the keys of a path into one text. -/
def separator : String := "\u001f"

section Fingerprints

-- the writer of JSON texts is below this code
variable (writeJson : Value → Except String String)

def joinKey (parent key : String) : String := parent ++ separator ++ key

/-- What a node says of itself, as one text. -/
def print (data : NodeData) : String := (writeJson data.own.toJson).toOption.getD ""

mutual

def fingerprints (parent : String) : Node → IndexMap String String → IndexMap String String
  | .mk data children, out =>
      (fingerprintsOf (joinKey parent data.key) children out).insert (joinKey parent data.key)
        (print writeJson data)

def fingerprintsOf (parent : String) : List Node → IndexMap String String → IndexMap String String
  | [], out => out
  | node :: rest, out => fingerprintsOf parent rest (fingerprints parent node out)

end

/-- What is kept while the history is read: when each text last changed, and the version before. -/
structure Annotation where
  since : IndexMap String SemVer
  previous : IndexMap String String
  last : List Node

def Annotation.start : Annotation := ⟨∅, ∅, []⟩

/-- The texts of a version that are new or differ from the version before have changed in it. -/
def refreshSince (version : SemVer) (previous current : IndexMap String String)
    (since : IndexMap String SemVer) : IndexMap String SemVer :=
  current.entries.foldl (fun since entry =>
    if previous.get? entry.1 ≠ some entry.2 then since.insert entry.1 version else since) since

def annotateStep (held : Annotation) (entry : SemVer × List Node) : Annotation :=
  let current := fingerprintsOf writeJson "" entry.2 ∅
  ⟨refreshSince entry.1 held.previous current held.since, current, entry.2⟩

end Fingerprints

section Applying

variable (since : IndexMap String SemVer)

/-- The newer of two versions, when there are any. -/
def newer : Option SemVer → Option SemVer → Option SemVer
  | none, other => other
  | first, none => first
  | some first, some second => some (max first second)

/-- A version that is newer than another one, or than none. -/
def isNewerThan (changedIn : Option SemVer) (below : SemVer) : Bool := changedIn.all (· < below)

mutual

/-- A node with its annotations, and the newest version in its subtree. -/
def apply (parent : String) : Node → Node × Option SemVer
  | .mk data children =>
      let changedIn := since.get? (joinKey parent data.key)
      let below := applyAll (joinKey parent data.key) children
      (.mk { data with changedIn := changedIn, inside := below.2.filter (isNewerThan changedIn) } below.1,
        newer changedIn below.2)

def applyAll (parent : String) : List Node → List Node × Option SemVer
  | [] => ([], none)
  | node :: rest =>
      let first := apply parent node
      let others := applyAll parent rest
      (first.1 :: others.1, newer first.2 others.2)

end

end Applying

/-- The newest trees of a history, annotated with the versions that last changed their nodes. -/
def annotate (writeJson : Value → Except String String) (history : List (SemVer × List Node)) :
    List Node :=
  let held := history.foldl (annotateStep writeJson) .start
  (applyAll held.since "" held.last).1

end Node
end Sanshain.Document
