import Sanshain.Document.OpenApiModel

namespace Sanshain.Document

open Sanshain.Data

/-- The texts a platform is to read, digest or write. -/
structure Library where
  digests : Entries String String := []
  documents : Entries String ParsedDocument := []
  snippets : List (Value × String) := []

namespace Library

/-- The document of a text, or the refusal of a text nothing is known of. -/
def read (library : Library) (text : String) : Except String ParsedDocument :=
  match Entries.get? library.documents text with
  | some document => .ok document
  | none => .error "not a document"

def infoVersion (document : ParsedDocument) : Option String :=
  ((document.root.get? "info").bind (·.get? "version")).bind Value.asStr

/-- The text under which a node is written, whatever the order of its keys. -/
def write (library : Library) (node : Value) : Except String String :=
  match library.snippets.find? fun entry => entry.1.same node with
  | some entry => .ok entry.2
  | none => .error "not a snippet"

end Library

def isAsciiDigit (c : Char) : Bool := '0' ≤ c && c ≤ '9'

def isAsciiWord (c : Char) : Bool :=
  isAsciiDigit c || ('a' ≤ c && c ≤ 'z') || ('A' ≤ c && c ≤ 'Z') || c = '_'

/-- The platform on texts of ASCII letters, with readers and writers of a fixed library. -/
def asciiPlatform (library : Library) : External where
  sha256Hex text := (Entries.get? library.digests text).getD ""
  toUppercase text := String.ofList (text.toList.map Char.toUpper)
  toLowercase text := String.ofList (text.toList.map Char.toLower)
  isWord := isAsciiWord
  isDigit := isAsciiDigit
  parseValue := library.read
  writeValue := library.write
  parseOpenApi _ := .error "not a specification"
  writeOpenApi _ := .error "not a specification"
  parseInfoVersion text := (library.read text).map Library.infoVersion
  toJson _ := none

end Sanshain.Document
