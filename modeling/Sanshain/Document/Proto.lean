import Sanshain.Document.OpenApi
import Sanshain.Text.Pattern

namespace Sanshain.Document.ProtoDocument

open Sanshain.Data Sanshain.Domain Sanshain.Text

section Patterns

/-- A letter or an underscore, as an identifier begins. -/
def isIdentStart (c : Char) : Bool :=
  ('a' ≤ c && c ≤ 'z') || ('A' ≤ c && c ≤ 'Z') || c = '_'

def blanks : Pattern := .many isWhiteSpace

def someBlanks : Pattern := .some isWhiteSpace

/-- A capture group between parentheses, without a closing parenthesis inside. -/
def parenthesized (index : Nat) : List Pattern :=
  [.text "(", .group index (.some (· ≠ ')')), .text ")"]

def reRpc (external : External) : Pattern :=
  .sequence <| [.lineStart, blanks, .text "rpc", someBlanks, .group 1 (.some external.isWord),
      blanks] ++ parenthesized 2 ++ [blanks, .text "returns", blanks] ++ parenthesized 3 ++
    [blanks, .alt (.sequence [.text "\x7b", .many (· ≠ '}'), .text "\x7d"]) (.text ";")]

/-- A keyword, a name and an opening brace. -/
def reBlock (external : External) (keyword : String) : Pattern :=
  .sequence [.wordBoundary external.isWord, .text keyword, someBlanks,
    .group 1 (.seq (.one isIdentStart) (.many external.isWord)), blanks, .text "\x7b"]

def reService (external : External) : Pattern := reBlock external "service"

def reMessage (external : External) : Pattern := reBlock external "message"

def reField (external : External) : Pattern :=
  .sequence [.lineStart, blanks,
    .optional (.group 1 (.alt (.text "repeated") (.alt (.text "optional") (.text "required")))),
    blanks,
    .group 2 (.alt (.sequence [.text "map", blanks, .text "<", .some (· ≠ '>'), .text ">"])
      (.seq (.one isIdentStart) (.many fun c => external.isWord c || c = '.'))),
    someBlanks, .group 3 (.seq (.one isIdentStart) (.many external.isWord)), blanks, .text "=",
    blanks, .group 4 (.some external.isDigit), blanks,
    .optional (.group 5 (.sequence [.text "[", .many (· ≠ ']'), .text "]"])), blanks, .text ";"]

def reOptionDeprecated : Pattern :=
  .sequence [.lineStart, blanks, .text "option", someBlanks, .text "deprecated", blanks, .text "=",
    blanks, .text "true", blanks, .text ";"]

def reDeprecatedTrue : Pattern :=
  .sequence [.text "deprecated", blanks, .text "=", blanks, .text "true"]

def reSanshainVersion : Pattern :=
  .sequence [.text "//", blanks, .text "sanshain-version:", blanks,
    .group 1 (.some (!isWhiteSpace ·))]

end Patterns

/-- The version in the mandatory marker comment; different markers are ambiguous. -/
def extractSanshainVersion (external : External) (content : String) : Except String SemVer :=
  let text := content.toList
  let values := ((reSanshainVersion.capturesIter text).filterMap (·.group? text 1)).map String.ofList
  let unique := OpenApiDocument.sortedSet values
  match unique with
  | [] =>
      .error "proto file has no version marker — add a comment '// sanshain-version: MAJOR.MINOR.PATCH' (e.g. '// sanshain-version: 1.2.0')"
  | [only] =>
      (SemVer.parseSpecVersion external.toUppercase external.toLowercase only).mapError
        fun reason => s!"sanshain-version marker: {reason}"
  | many =>
      let count := many.length
      let listed := join ", " many
      .error s!"proto file has {count} conflicting sanshain-version markers ({listed}) — keep exactly one"

section Blocks

structure ServiceBlock where
  name : String
  body : List Char
  start : Nat
  stop : Nat

/-- The offset of the brace that closes the first one. -/
def findMatchingBrace : Nat → Nat → List Char → Option Nat
  | _, _, [] => none
  | depth, offset, c :: rest =>
      if c = '{' then findMatchingBrace (depth + 1) (offset + 1) rest
      else if c = '}' then
        match depth with
        | 0 => none
        | 1 => some offset
        | deeper + 1 => findMatchingBrace deeper (offset + 1) rest
      else findMatchingBrace depth (offset + 1) rest

/-- The text between the brace that ends the match and its partner, and where that one ends. -/
def bracedBlock (text : List Char) (opening : Match) : Option (List Char × Nat) :=
  (findMatchingBrace 0 (opening.stop - 1) (text.drop (opening.stop - 1))).map fun close =>
    (slice text opening.stop close, close + 1)

def serviceBlockOf (text : List Char) (opening : Match) : Option ServiceBlock :=
  (opening.group? text 1).bind fun name =>
    (bracedBlock text opening).map fun block =>
      ⟨String.ofList name, block.1, opening.start, block.2⟩

def extractServiceBlocks (external : External) (text : List Char) : List ServiceBlock :=
  ((reService external).capturesIter text).filterMap (serviceBlockOf text)

def removeServiceBlocks (text : List Char) : Nat → List ServiceBlock → List Char
  | cursor, [] => text.drop cursor
  | cursor, service :: rest =>
      slice text cursor service.start ++ removeServiceBlocks text service.stop rest

end Blocks

section Splitting

structure ProtoSpec where
  service : String
  method : String
  content : String
  deprecated : Bool
  deriving DecidableEq, Repr

/-- The comment lines directly above the end of the text, top to bottom and trimmed. -/
def leadingCommentLines (before : List Char) : List (List Char) :=
  (((lines before).reverse.map trimChars).takeWhile fun line => "//".toList.isPrefixOf line).reverse

def rpcSnippet (commonBase : List Char) (service : ServiceBlock) (rpc : Match) : String :=
  let line := trimChars (rpc.whole service.body)
  let comments := (leadingCommentLines (service.body.take rpc.start)).flatMap fun comment =>
    "  ".toList ++ comment ++ ['\n']
  let closing := if line.getLast? = some ';' ∨ line.getLast? = some '}' then [] else [';']
  String.ofList <| commonBase ++ "\nservice ".toList ++ service.name.toList ++ " \x7b\n".toList ++
    comments ++ "  ".toList ++ line ++ closing ++ "\n\x7d\n".toList

def protoSpecOf (commonBase : List Char) (service : ServiceBlock) (rpc : Match) : Option ProtoSpec :=
  (rpc.group? service.body 1).map fun method =>
    ⟨service.name, String.ofList method, rpcSnippet commonBase service rpc,
      reDeprecatedTrue.isMatch (trimChars (rpc.whole service.body))⟩

def splitProto (external : External) (content : String) : List ProtoSpec :=
  let text := content.toList
  let services := extractServiceBlocks external text
  let commonBase := removeServiceBlocks text 0 services
  services.flatMap fun service =>
    ((reRpc external).capturesIter service.body).filterMap (protoSpecOf commonBase service)

end Splitting

section Compatibility

structure ProtoRpc where
  request : String
  response : String
  deprecated : Bool

structure ProtoField where
  label : String
  fieldType : String
  number : Nat
  deprecated : Bool

structure ProtoMessage where
  deprecated : Bool
  fields : Entries String ProtoField

/-- Insignificant white space in a type collapses. -/
def normalizeType (expression : List Char) : String :=
  join " " ((splitWhitespaceChars expression).map String.ofList)

def protoRpcOf (service : ServiceBlock) (rpc : Match) : Option ((String × String) × ProtoRpc) :=
  (rpc.group? service.body 1).bind fun method =>
    (rpc.group? service.body 2).bind fun request =>
      (rpc.group? service.body 3).map fun response =>
        ((service.name, String.ofList method),
          ⟨normalizeType request, normalizeType response,
            reDeprecatedTrue.isMatch (rpc.whole service.body)⟩)

/-- The rpcs of a file, in the order they are inserted under their service and name. -/
def rpcInserts (external : External) (content : String) : Entries (String × String) ProtoRpc :=
  (extractServiceBlocks external content.toList).flatMap fun service =>
    ((reRpc external).capturesIter service.body).filterMap (protoRpcOf service)

def parseRpcs (external : External) (content : String) : Entries (String × String) ProtoRpc :=
  Entries.insertAll [] (rpcInserts external content)

/-- The message blocks that do not lie inside an earlier one, with their names and bodies. -/
def topMessageBlocks (text : List Char) : Nat → List Match → List (List Char × List Char)
  | _, [] => []
  | lastEnd, opening :: rest =>
      if opening.start < lastEnd then topMessageBlocks text lastEnd rest
      else
        match opening.group? text 1, bracedBlock text opening with
        | some name, some block => (name, block.1) :: topMessageBlocks text block.2 rest
        | _, _ => topMessageBlocks text lastEnd rest

def removeMessageBlocks (text : List Char) : Nat → List Match → List Char
  | cursor, [] => text.drop cursor
  | cursor, opening :: rest =>
      if opening.start < cursor then removeMessageBlocks text cursor rest
      else
        match bracedBlock text opening with
        | some block => slice text cursor opening.start ++ removeMessageBlocks text block.2 rest
        | none => removeMessageBlocks text cursor rest

def protoFieldOf (text : List Char) (found : Match) : Option (String × ProtoField) :=
  (found.group? text 2).bind fun fieldType =>
    (found.group? text 3).bind fun name =>
      (found.group? text 4).map fun number =>
        (String.ofList name,
          { label := String.ofList ((found.group? text 1).getD [])
            fieldType := normalizeType fieldType
            number := (parseUnsigned (2 ^ 64) number).getD 0
            deprecated := ((found.group? text 5).map reDeprecatedTrue.isMatch).getD false })

/-- A message reads its fields from its body without the blocks nested in it. -/
def protoMessageOf (external : External) (body : List Char) : ProtoMessage :=
  let ownBody := removeMessageBlocks body 0 ((reMessage external).capturesIter body)
  { deprecated := reOptionDeprecated.isMatch ownBody
    fields := Entries.insertAll [] <|
      ((reField external).capturesIter ownBody).filterMap (protoFieldOf ownBody) }

/-- The messages of a text, nested ones first and under qualified names. A body is shorter
than the text it stands in, so its length bounds the nesting. -/
def collectMessageBlocks (external : External) :
    Nat → List Char → String → Entries String ProtoMessage
  | 0, _, _ => []
  | fuel + 1, text, qualifier =>
      (topMessageBlocks text 0 ((reMessage external).capturesIter text)).flatMap fun block =>
        let name := String.ofList block.1
        let qualified := if qualifier = "" then name else qualifier ++ "." ++ name
        collectMessageBlocks external fuel block.2 qualified ++
          [(qualified, protoMessageOf external block.2)]

def parseMessages (external : External) (content : String) : Entries String ProtoMessage :=
  Entries.insertAll [] (collectMessageBlocks external (content.toList.length + 1) content.toList "")

def checkRpc (newRpcs : Entries (String × String) ProtoRpc)
    (entry : (String × String) × ProtoRpc) : Verdict :=
  let service := entry.1.1
  let method := entry.1.2
  match Entries.get? newRpcs entry.1 with
  | none =>
      if entry.2.deprecated then .pass
      else .refuse s!"rpc '{method}' was removed from service '{service}'"
  | some newRpc =>
      if entry.2.request ≠ newRpc.request ∨ entry.2.response ≠ newRpc.response then
        .refuse s!"rpc '{method}' in service '{service}' changed signature from ({entry.2.request}) returns ({entry.2.response}) to ({newRpc.request}) returns ({newRpc.response})"
      else .pass

def checkField (message : String) (newFields : Entries String ProtoField)
    (entry : String × ProtoField) : Verdict :=
  let field := entry.1
  let old := entry.2
  match Entries.get? newFields field with
  | none =>
      if old.deprecated then .pass
      else .refuse s!"Field '{field}' was removed from message '{message}'"
  | some new =>
      if old.number ≠ new.number then
        .refuse s!"Field '{field}' in message '{message}' changed number from {old.number} to {new.number}"
      else if old.fieldType ≠ new.fieldType then
        .refuse s!"Field '{field}' in message '{message}' changed type from '{old.fieldType}' to '{new.fieldType}'"
      else if old.label ≠ new.label then
        .refuse s!"Field '{field}' in message '{message}' changed label from '{old.label}' to '{new.label}'"
      else .pass

def checkMessage (newMessages : Entries String ProtoMessage)
    (entry : String × ProtoMessage) : Verdict :=
  match Entries.get? newMessages entry.1 with
  | none =>
      if entry.2.deprecated then .pass else .refuse s!"Message '{entry.1}' was removed"
  | some newMessage => Verdict.all (checkField entry.1 newMessage.fields) entry.2.fields

def checkBackwardCompatibility (external : External) (old new : String) : Verdict :=
  (Verdict.all (checkRpc (parseRpcs external new)) (parseRpcs external old)).andThen <|
    Verdict.all (checkMessage (parseMessages external new)) (parseMessages external old)

end Compatibility
end Sanshain.Document.ProtoDocument
