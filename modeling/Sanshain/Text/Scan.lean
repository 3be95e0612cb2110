import Mathlib.Tactic

namespace Sanshain.Text

/-- The characters with the Unicode property White_Space. -/
def isWhiteSpace (c : Char) : Bool :=
  (0x09 ≤ c.toNat && c.toNat ≤ 0x0D) || c.toNat == 0x20 || c.toNat == 0x85 || c.toNat == 0xA0 ||
    c.toNat == 0x1680 || (0x2000 ≤ c.toNat && c.toNat ≤ 0x200A) || c.toNat == 0x2028 ||
    c.toNat == 0x2029 || c.toNat == 0x202F || c.toNat == 0x205F || c.toNat == 0x3000

/-- The characters with the general category Control. -/
def isControl (c : Char) : Bool :=
  c.toNat ≤ 0x1F || (0x7F ≤ c.toNat && c.toNat ≤ 0x9F)

def isAsciiAlphanumeric (c : Char) : Bool :=
  ('0' ≤ c && c ≤ '9') || ('a' ≤ c && c ≤ 'z') || ('A' ≤ c && c ≤ 'Z')

def isAsciiDigit (c : Char) : Bool := '0' ≤ c && c ≤ '9'

/-- The text without white space at its ends. -/
def trimChars (text : List Char) : List Char :=
  ((text.dropWhile isWhiteSpace).reverse.dropWhile isWhiteSpace).reverse

def trim (text : String) : String := String.ofList (trimChars text.toList)

/-- The pieces between the separators; a text without one is a single piece. -/
def splitChars (separator : Char) : List Char → List (List Char)
  | [] => [[]]
  | c :: rest =>
      if c = separator then [] :: splitChars separator rest
      else match splitChars separator rest with
        | [] => [[c]]
        | piece :: pieces => (c :: piece) :: pieces

def split (separator : Char) (text : String) : List String :=
  (splitChars separator text.toList).map String.ofList

/-- The maximal runs without white space. -/
def splitWhitespaceChars (text : List Char) : List (List Char) :=
  (text.splitBy fun a b => isWhiteSpace a == isWhiteSpace b).filter fun run =>
    !run.any isWhiteSpace

def splitWhitespace (text : String) : List String :=
  (splitWhitespaceChars text.toList).map String.ofList

/-- The text after the prefix, when it starts with it. -/
def stripPrefixChars : List Char → List Char → Option (List Char)
  | [], text => some text
  | _ :: _, [] => none
  | p :: ps, c :: rest => if p = c then stripPrefixChars ps rest else none

def stripPrefix (start text : String) : Option String :=
  (stripPrefixChars start.toList text.toList).map String.ofList

def startsWith (start text : String) : Bool := start.toList.isPrefixOf text.toList

/-- Every occurrence of a non-empty pattern is replaced, from the left and without overlap. -/
def replaceChars (pattern replacement : List Char) : Nat → List Char → List Char
  | 0, text => text
  | _, [] => []
  | fuel + 1, c :: rest =>
      match stripPrefixChars pattern (c :: rest) with
      | some after => replacement ++ replaceChars pattern replacement fuel after
      | none => c :: replaceChars pattern replacement fuel rest

def replace (pattern replacement text : String) : String :=
  String.ofList (replaceChars pattern.toList replacement.toList text.toList.length text.toList)

def containsChars (pattern : List Char) : List Char → Bool
  | [] => pattern.isEmpty
  | c :: rest => pattern.isPrefixOf (c :: rest) || containsChars pattern rest

def contains (pattern text : String) : Bool := containsChars pattern.toList text.toList

/-- The text around the first occurrence of a character. -/
def splitOnce (separator : Char) (text : List Char) : Option (List Char × List Char) :=
  match text.dropWhile (· ≠ separator) with
  | [] => none
  | _ :: after => some (text.takeWhile (· ≠ separator), after)

/-- The lines of a text: split at line feeds, without a carriage return before one, and
without a last empty line. -/
def lines (text : List Char) : List (List Char) :=
  let pieces := splitChars '\n' text
  let bare := pieces.dropLast.map fun piece =>
    if piece.getLast? = some '\r' then piece.dropLast else piece
  match pieces.getLast? with
  | some [] | none => bare
  | some last => bare ++ [last]

/-- The texts with a separator between each two. -/
def join (separator : String) (texts : List String) : String := separator.intercalate texts

/-- The value of a run of decimal digits. -/
def decimal (digits : List Char) : Nat :=
  digits.foldl (fun total c => total * 10 + (c.toNat - '0'.toNat)) 0

/-- An unsigned decimal number below the bound, with an optional plus sign. -/
def parseUnsigned (bound : Nat) (text : List Char) : Option Nat :=
  let digits := match text with
    | '+' :: rest => rest
    | _ => text
  if digits ≠ [] ∧ digits.all isAsciiDigit ∧ decimal digits < bound then some (decimal digits)
  else none

example : trim " /a b\t" = "/a b" := by decide +kernel
example : split '.' "1.2." = ["1", "2", ""] := by decide +kernel
example : replace "\r\n" "\n" "a\r\r\nb" = "a\r\nb" := by decide +kernel

end Sanshain.Text
