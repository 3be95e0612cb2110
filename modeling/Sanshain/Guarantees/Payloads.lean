import Sanshain.Document.EndpointLoss
import Sanshain.Guarantees.Spellings

namespace Sanshain.Guarantees

open Sanshain.Data Sanshain.Document Sanshain.Document.AsyncApiDocument Sanshain.Text

section Operations

variable (root : Value) (channel : String) (direction : Direction)

def channelUnder : Option Value := (channelsOf root).bind fun channels => channels.get? channel

/-- An operation of a document on a channel, in a direction. -/
inductive Operates : Value → Prop
  | v2 {declared operation : Value} (older : isV3 root = false)
      (on : channelUnder root channel = some declared)
      (operates : declared.get? direction.v2Keyword = some operation) : Operates operation
  | v3 {entry : String × Value} {segment : String} (newer : isV3 root = true)
      (listed : entry ∈ (operationsOf root).getD [])
      (on : channelSegment direction entry = some segment) (same : unescape segment = channel) :
      Operates entry.2

/-- A message that a channel of the 3.x line declares under a key. -/
def DeclaredOn (key : String) (node : Value) : Prop :=
  ∃ declared final messages, channelUnder root channel = some declared ∧ Denotes root declared final ∧
    (final.get? "messages").bind Value.asObject = some messages ∧ messages.get? key = some node

/-- An operation carries a message under an identity. In the 2.x line this is the name of the message
or else its place among the variants; in the 3.x line the key on the channel, for the messages that
the operation names or else for all of the channel, and the target of any other reference. -/
inductive CarriesMessage : String → Value → Prop
  | variant {operation message body variant final : Value} {index : ℕ} (older : isV3 root = false)
      (operates : Operates root channel direction operation)
      (carries : operation.get? "message" = some message) (means : Denotes root message body)
      (among : (variantsOf body)[index]? = some variant) (denotes : Denotes root variant final) :
      CarriesMessage ((messageName final).getD s!"#{index}") variant
  | declared {operation node : Value} {key : String} (newer : isV3 root = true)
      (operates : Operates root channel direction operation)
      (unlisted : (operation.get? "messages").bind Value.asArray = none)
      (declares : DeclaredOn root channel key node) : CarriesMessage key node
  | named {operation reference node : Value} {references : List Value} {target segment key : String}
      (newer : isV3 root = true) (operates : Operates root channel direction operation)
      (listed : (operation.get? "messages").bind Value.asArray = some references)
      (among : reference ∈ references) (refers : refOf reference = some target)
      (on : unescape segment = channel)
      (points : stripPrefix ("#/channels/" ++ segment ++ "/messages/") target = some key)
      (declares : DeclaredOn root channel (unescape key) node) : CarriesMessage (unescape key) node
  | foreign {operation reference : Value} {references : List Value} {target : String}
      (newer : isV3 root = true) (operates : Operates root channel direction operation)
      (listed : (operation.get? "messages").bind Value.asArray = some references)
      (among : reference ∈ references) (refers : refOf reference = some target)
      (elsewhere : ∀ segment, unescape segment = channel →
        stripPrefix ("#/channels/" ++ segment ++ "/messages/") target = none) :
      CarriesMessage target reference

end Operations

section Payloads

/-- A node is deprecated when it or what it stands for is marked so. -/
def MarkedDeprecated (root node : Value) : Prop :=
  isMarkedDeprecated node = true ∨ ∃ final, Denotes root node final ∧ isMarkedDeprecated final = true

def propertyOf (schema : Value) (name : String) : Option Value :=
  ((schema.get? "properties").bind Value.asObject).bind fun properties => properties.get? name

/-- A payload schema has a property that is not deprecated, nor inside one that is. -/
inductive HasLasting (root : Value) : Value → Prop
  | property {node schema child : Value} {name : String} (means : Denotes root node schema)
      (has : propertyOf schema name = some child) (lasts : ¬MarkedDeprecated root child) :
      HasLasting root node
  | items {node schema child : Value} (means : Denotes root node schema)
      (has : schema.get? "items" = some child) (rest : HasLasting root child) : HasLasting root node

variable (oldRoot newRoot : Value)

/-- The new schema at a position of a payload has the properties of the old one that are not
deprecated, of the same types, and items where those of the old one have such properties. -/
structure KeepsFields (old new : Value) : Prop where
  properties : ∀ schema name child, Denotes oldRoot old schema → propertyOf schema name = some child →
    ¬MarkedDeprecated oldRoot child → ∃ newSchema newChild, Denotes newRoot new newSchema ∧
      propertyOf newSchema name = some newChild ∧ ∀ final, Denotes oldRoot child final →
        ∃ newFinal, Denotes newRoot newChild newFinal ∧ newFinal.get? "type" = final.get? "type"
  items : ∀ schema child, Denotes oldRoot old schema → schema.get? "items" = some child →
    HasLasting oldRoot child → ∃ newSchema newChild, Denotes newRoot new newSchema ∧
      newSchema.get? "items" = some newChild

def inPlace (node : Value) : Bool := (refOf node).isNone

/-- Two schemas stand at one position of two payloads; the flag tells whether every schema on the
way is given in place in both. -/
inductive PayloadPosition (oldPayload newPayload : Value) : Bool → Value → Value → Prop
  | root : PayloadPosition oldPayload newPayload (inPlace oldPayload && inPlace newPayload)
      oldPayload newPayload
  | property {compared : Bool} {old new schema newSchema child newChild : Value} {name : String}
      (above : PayloadPosition oldPayload newPayload compared old new)
      (oldMeans : Denotes oldRoot old schema) (newMeans : Denotes newRoot new newSchema)
      (oldHas : propertyOf schema name = some child)
      (newHas : propertyOf newSchema name = some newChild) :
      PayloadPosition oldPayload newPayload (compared && (inPlace child && inPlace newChild)) child
        newChild
  | items {compared : Bool} {old new schema newSchema child newChild : Value}
      (above : PayloadPosition oldPayload newPayload compared old new)
      (oldMeans : Denotes oldRoot old schema) (newMeans : Denotes newRoot new newSchema)
      (oldHas : schema.get? "items" = some child) (newHas : newSchema.get? "items" = some newChild) :
      PayloadPosition oldPayload newPayload (compared && (inPlace child && inPlace newChild)) child
        newChild

/-- Two property schemas whose types can be told apart: both in place, and both with a type given as
a text or both without one. -/
def TypesCompared (old new : Value) : Prop :=
  inPlace old = true ∧ inPlace new = true ∧
    ((((old.get? "type").bind Value.asStr).isSome ∧ ((new.get? "type").bind Value.asStr).isSome) ∨
      (old.get? "type" = none ∧ new.get? "type" = none))

/-- The comparison of two schemas sees all of them: the types of the properties they share, and the
items of the old one. -/
def SeenThrough (old new : Value) : Prop :=
  (∀ name child newChild, propertyOf old name = some child → propertyOf new name = some newChild →
    TypesCompared child newChild) ∧
  ((old.get? "items").isSome → (new.get? "items").isSome)

/-- Every position of the payload of a message that satisfies a condition is kept. -/
def KeepsPayload (judged : Bool → Value → Value → Prop) (old new : Value) : Prop :=
  ∀ message payload, Denotes oldRoot old message → message.get? "payload" = some payload →
    (HasLasting oldRoot payload → ∃ newMessage newPayload, Denotes newRoot new newMessage ∧
      newMessage.get? "payload" = some newPayload) ∧
    ∀ newMessage newPayload, Denotes newRoot new newMessage →
      newMessage.get? "payload" = some newPayload → ∀ compared oldSchema newSchema,
        PayloadPosition oldRoot newRoot payload newPayload compared oldSchema newSchema →
        judged compared oldSchema newSchema → KeepsFields oldRoot newRoot oldSchema newSchema

/-- A message of an operation is still carried, and each that carries on has its payload. -/
def KeepsMessage (channel : String) (direction : Direction) (identity : String) (node : Value) :
    Prop :=
  (∃ kept, CarriesMessage newRoot channel direction identity kept) ∧
    ∀ kept, CarriesMessage newRoot channel direction identity kept →
      KeepsPayload oldRoot newRoot (fun _ _ _ => True) node kept

/-- The comparison looks at a message: it is given in place and collected, and what the new document
collects under its key is given in place and the one message the operation carries on with. -/
def LookedAt (channel : String) (direction : Direction) (identity : String) (node : Value) : Prop :=
  ∃ key, Entries.get? (collectMessages oldRoot) key = some node ∧ inPlace node = true ∧
    ∀ other, Entries.get? (collectMessages newRoot) key = some other → inPlace other = true ∧
      ∀ kept, CarriesMessage newRoot channel direction identity kept ↔ kept = other

end Payloads

section Walk

variable {oldRoot newRoot old new child newChild : Value} {name : String}

/-- Two schemas that the walk has compared to the bottom. -/
def WalkPassed (old new : Value) : Prop :=
  ∃ fuel path, old.depth < fuel ∧ findSchemaMismatch fuel path old new = .ok ()

theorem propertyOf_depth (has : propertyOf old name = some child) : child.depth < old.depth := by
  obtain ⟨properties, held, found⟩ := Option.bind_eq_some_iff.mp has
  obtain ⟨node, given, object⟩ := Option.bind_eq_some_iff.mp held
  have below : node.depth < old.depth := Value.depth_of_get? given
  have inside : node.get? name = some child := by
    cases node with
    | object entries =>
        cases object
        exact found
    | _ => cases object
  exact (Value.depth_of_get? inside).trans below

/-- What one level of a walk that finds nothing has compared. -/
theorem WalkPassed.inv (passed : WalkPassed old new) :
    changedText "type" old new = none ∧
      (∀ name child, propertyOf old name = some child →
        (propertyOf new name = none → isMarkedDeprecated child = true) ∧
        ∀ newChild, propertyOf new name = some newChild → WalkPassed child newChild) ∧
      ∀ child newChild, old.get? "items" = some child → new.get? "items" = some newChild →
        WalkPassed child newChild := by
  obtain ⟨fuel, path, enough, passed⟩ := passed
  cases fuel with
  | zero => omega
  | succ fuel =>
      unfold findSchemaMismatch at passed
      cases refs : changedText "$ref" old new with
      | some texts => simp [refs] at passed
      | none =>
          cases types : changedText "type" old new with
          | some texts => simp [refs, types] at passed
          | none =>
              simp only [refs, types] at passed
              split at passed
              · cases passed
              · rename_i each
                refine ⟨rfl, ?_, ?_⟩
                · intro name child has
                  have below := propertyOf_depth has
                  obtain ⟨properties, held, found⟩ := Option.bind_eq_some_iff.mp has
                  rw [held, Option.getD_some] at each
                  have checked := firstError_ok each _ (Entries.mem_of_get? found)
                  constructor
                  · intro gone
                    simp only [show (((new.get? "properties").bind Value.asObject).bind fun props =>
                      props.get? name) = none from gone] at checked
                    by_contra lasting
                    rw [Bool.not_eq_true] at lasting
                    simp [lasting] at checked
                  · intro newChild there
                    simp only [show (((new.get? "properties").bind Value.asObject).bind fun props =>
                      props.get? name) = some newChild from there] at checked
                    exact ⟨fuel, _, by omega, checked⟩
                · intro child newChild oldHas newHas
                  have below := Value.depth_of_get? oldHas
                  simp only [oldHas, newHas] at passed
                  exact ⟨fuel, _, by omega, passed⟩

theorem Denotes.of_inPlace {root node : Value} (given : inPlace node = true) :
    Denotes root node node :=
  .plain (Option.isNone_iff_eq_none.mp given)

theorem Denotes.eq_of_inPlace {root node final : Value} (denotes : Denotes root node final)
    (given : inPlace node = true) : final = node :=
  denotes.eq_of_plain (Option.isNone_iff_eq_none.mp given)

/-- Types that were compared are the same. -/
theorem WalkPassed.type_eq (passed : WalkPassed old new) (typed : TypesCompared old new) :
    new.get? "type" = old.get? "type" := by
  obtain ⟨_, _, texts | ⟨oldNone, newNone⟩⟩ := typed
  · obtain ⟨oldText, oldHas⟩ := Option.isSome_iff_exists.mp texts.1
    obtain ⟨newText, newHas⟩ := Option.isSome_iff_exists.mp texts.2
    have unchanged := passed.inv.1
    rw [changedText, oldHas, newHas] at unchanged
    have same : oldText = newText := by
      by_contra differ
      simp [differ] at unchanged
    have typeOf {node : Value} {text : String} (has : (node.get? "type").bind Value.asStr = some text) :
        node.get? "type" = some (.string text) := by
      obtain ⟨type, given, isText⟩ := Option.bind_eq_some_iff.mp has
      cases type with
      | string =>
          cases isText
          exact given
      | _ => cases isText
    rw [typeOf oldHas, typeOf newHas, same]
  · rw [oldNone, newNone]

/-- A walk keeps the fields of two schemas in place, where it sees all of them. -/
theorem WalkPassed.keepsFields (passed : WalkPassed old new) (oldGiven : inPlace old = true)
    (newGiven : inPlace new = true) (seen : SeenThrough old new) :
    KeepsFields oldRoot newRoot old new := by
  obtain ⟨_, properties, _⟩ := passed.inv
  constructor
  · intro schema name child means has lasts
    rw [means.eq_of_inPlace oldGiven] at has
    cases there : propertyOf new name with
    | none => exact absurd (.inl ((properties name child has).1 there)) lasts
    | some newChild =>
        have typed := seen.1 name child newChild has there
        refine ⟨new, newChild, .of_inPlace newGiven, there, ?_⟩
        intro final denotes
        rw [denotes.eq_of_inPlace typed.1]
        exact ⟨newChild, .of_inPlace typed.2.1,
          ((properties name child has).2 newChild there).type_eq typed⟩
  · intro schema child means has lasting
    rw [means.eq_of_inPlace oldGiven] at has
    obtain ⟨newChild, there⟩ := Option.isSome_iff_exists.mp
      (seen.2 (Option.isSome_iff_exists.mpr ⟨child, has⟩))
    exact ⟨new, newChild, .of_inPlace newGiven, there⟩

/-- The walk comes to every position whose way is given in place. -/
theorem PayloadPosition.walked {oldPayload newPayload : Value} {compared : Bool}
    (passed : WalkPassed oldPayload newPayload)
    (position : PayloadPosition oldRoot newRoot oldPayload newPayload compared old new)
    (reached : compared = true) :
    WalkPassed old new ∧ inPlace old = true ∧ inPlace new = true := by
  induction position with
  | root => exact ⟨passed, Bool.and_eq_true_iff.mp reached⟩
  | property above oldMeans newMeans oldHas newHas ih =>
      obtain ⟨upTo, given⟩ := Bool.and_eq_true_iff.mp reached
      obtain ⟨walked, oldGiven, newGiven⟩ := ih upTo
      rw [oldMeans.eq_of_inPlace oldGiven] at oldHas
      rw [newMeans.eq_of_inPlace newGiven] at newHas
      exact ⟨(walked.inv.2.1 _ _ oldHas).2 _ newHas, Bool.and_eq_true_iff.mp given⟩
  | items above oldMeans newMeans oldHas newHas ih =>
      obtain ⟨upTo, given⟩ := Bool.and_eq_true_iff.mp reached
      obtain ⟨walked, oldGiven, newGiven⟩ := ih upTo
      rw [oldMeans.eq_of_inPlace oldGiven] at oldHas
      rw [newMeans.eq_of_inPlace newGiven] at newHas
      exact ⟨walked.inv.2.2 _ _ oldHas newHas, Bool.and_eq_true_iff.mp given⟩

end Walk

section Messages

variable {oldRoot newRoot : Value}

/-- What is judged of the payload of a message that the comparison looks at. -/
def Unseen (compared : Bool) (old new : Value) : Prop := ¬(compared = true ∧ SeenThrough old new)

theorem KeepsPayload.weaken {judged : Bool → Value → Value → Prop} {old new : Value}
    (keeps : KeepsPayload oldRoot newRoot (fun _ _ _ => True) old new) :
    KeepsPayload oldRoot newRoot judged old new := by
  intro message payload denotes has
  obtain ⟨present, positions⟩ := keeps message payload denotes has
  refine ⟨present, fun newMessage newPayload means there compared oldSchema newSchema position _ => ?_⟩
  exact positions newMessage newPayload means there compared oldSchema newSchema position trivial

/-- What a message that passes has compared. -/
theorem checkMessage_walked {newMessages : Entries String Value} {key : String} {node other payload : Value}
    (passed : checkMessage newMessages (key, node) = .ok ())
    (found : newMessages.get? key = some other) (has : node.get? "payload" = some payload) :
    ∃ newPayload, other.get? "payload" = some newPayload ∧ WalkPassed payload newPayload := by
  simp only [checkMessage, found, has] at passed
  cases there : other.get? "payload" with
  | none => simp [there] at passed
  | some newPayload =>
      simp only [there, checkSchemaCompatible, schemaMismatch] at passed
      refine ⟨newPayload, rfl, payload.depth + 1, key ++ ".payload", by omega, ?_⟩
      cases walked : findSchemaMismatch (payload.depth + 1) (key ++ ".payload") payload newPayload with
      | ok => rfl
      | error mismatch => simp [walked, Except.mapError] at passed

/-- A message that the comparison looks at is kept if what the walk does not see of it is. -/
theorem keepsMessage_of_lookedAt {channel : String} {direction : Direction} {identity : String}
    {node : Value}
    (accepted : firstError (checkMessage (collectMessages newRoot)) (collectMessages oldRoot) = .ok ())
    (lasts : ¬MarkedDeprecated oldRoot node)
    (looked : LookedAt oldRoot newRoot channel direction identity node)
    (unseen : ∀ kept, CarriesMessage newRoot channel direction identity kept →
      KeepsPayload oldRoot newRoot Unseen node kept) :
    KeepsMessage oldRoot newRoot channel direction identity node := by
  obtain ⟨key, collected, given, carriedOn⟩ := looked
  have passed := firstError_ok accepted (key, node) (Entries.mem_of_get? collected)
  cases found : (collectMessages newRoot).get? key with
  | none =>
      have live : isMarkedDeprecated node = false := by
        by_contra marked
        exact lasts (.inl (by simpa using marked))
      simp [checkMessage, found, live] at passed
  | some other =>
      obtain ⟨otherGiven, only⟩ := carriedOn other found
      refine ⟨⟨other, (only other).mpr rfl⟩, ?_⟩
      intro kept carried message payload denotes has
      have same := (only kept).mp carried
      obtain ⟨present, rest⟩ := unseen kept carried message payload denotes has
      refine ⟨present, ?_⟩
      intro newMessage newPayload means there compared oldSchema newSchema position _
      have message_eq := denotes.eq_of_inPlace given
      rw [same] at means
      have newMessage_eq := means.eq_of_inPlace otherGiven
      rw [message_eq] at has
      obtain ⟨walkedPayload, has', walked⟩ := checkMessage_walked passed found has
      rw [newMessage_eq, has'] at there
      cases there
      by_cases seen : compared = true ∧ SeenThrough oldSchema newSchema
      · obtain ⟨passedHere, oldGiven, newGiven⟩ := PayloadPosition.walked walked position seen.1
        exact passedHere.keepsFields oldGiven newGiven seen.2
      · have carriedMeans : Denotes newRoot kept newMessage := by rw [same]; exact means
        have carriedHas : newMessage.get? "payload" = some newPayload := by rw [newMessage_eq, has']
        exact rest newMessage newPayload carriedMeans carriedHas compared oldSchema newSchema position
          seen

/-- An accepted change keeps the messages of the operations that both documents have just when it keeps
those that the comparison does not look at and, of the others, what its walk does not see. -/
theorem messages_kept_iff (external : External) (oldYaml newYaml : String) (old new : ParsedDocument)
    (readOld : external.parseValue oldYaml = .ok old) (readNew : external.parseValue newYaml = .ok new)
    (accepted : checkBackwardCompatibility external oldYaml newYaml = .ok ()) :
    (∀ channel direction identity node, (∃ operation, Operates old.root channel direction operation) →
        (∃ operation, Operates new.root channel direction operation) →
        CarriesMessage old.root channel direction identity node → ¬MarkedDeprecated old.root node →
        KeepsMessage old.root new.root channel direction identity node) ↔
      ∀ channel direction identity node, (∃ operation, Operates old.root channel direction operation) →
        (∃ operation, Operates new.root channel direction operation) →
        CarriesMessage old.root channel direction identity node → ¬MarkedDeprecated old.root node →
        (¬LookedAt old.root new.root channel direction identity node →
          KeepsMessage old.root new.root channel direction identity node) ∧
        (LookedAt old.root new.root channel direction identity node →
          ∀ kept, CarriesMessage new.root channel direction identity kept →
            KeepsPayload old.root new.root Unseen node kept) := by
  have walked : firstError (checkMessage (collectMessages new.root)) (collectMessages old.root) =
      .ok () := by
    simpa only [checkBackwardCompatibility, readOld, readNew] using accepted
  constructor
  · intro keeps channel direction identity node oldHas newHas carried lasts
    have kept := keeps channel direction identity node oldHas newHas carried lasts
    exact ⟨fun _ => kept, fun _ other carries => (kept.2 other carries).weaken⟩
  · intro unseen channel direction identity node oldHas newHas carried lasts
    obtain ⟨passedOver, lookedAt⟩ := unseen channel direction identity node oldHas newHas carried lasts
    by_cases looked : LookedAt old.root new.root channel direction identity node
    · exact keepsMessage_of_lookedAt walked lasts looked (lookedAt looked)
    · exact passedOver looked

end Messages

section ReferredMessage

def placedMessage (properties : Mapping) : Value :=
  .object [("name", .string "OrderPlaced"), ("payload", .object [("properties", .object properties)])]

def idProperty : Mapping := [("id", .object [("type", .string "string")])]

/-- A 2.x document that publishes one message, given among its components. -/
def referringRoot (message : Value) : Value :=
  .object [("asyncapi", .string "2.6.0"),
    ("channels", .object [("orders", .object [("publish", .object [("message",
      .object [("$ref", .string "#/components/messages/placed")])])])]),
    ("components", .object [("messages", .object [("placed", message)])])]

def referringDocument (message : Value) (formed : message.WellFormed) : ParsedDocument where
  root := referringRoot message
  formed := by simp [referringRoot, Value.WellFormed, Value.WellFormedEntries, formed]

def referringBefore : ParsedDocument :=
  referringDocument (placedMessage idProperty)
    (by simp [placedMessage, idProperty, Value.WellFormed, Value.WellFormedEntries])

def referringAfter : ParsedDocument :=
  referringDocument (placedMessage [])
    (by simp [placedMessage, Value.WellFormed, Value.WellFormedEntries])

def referringPlatform : External :=
  asciiPlatform { documents := [("before", referringBefore), ("after", referringAfter)] }

theorem referring_accepted :
    checkBackwardCompatibility referringPlatform "before" "after" = .ok () := by decide +kernel

theorem referring_older (message : Value) : isV3 (referringRoot message) = false :=
  show startsWith "3." "2.6.0" = false by decide +kernel

theorem referring_operates (message : Value) : Operates (referringRoot message) "orders" .pub
    (.object [("message", .object [("$ref", .string "#/components/messages/placed")])]) :=
  .v2 (referring_older message) rfl rfl

theorem referring_carries {properties : Mapping} :
    CarriesMessage (referringRoot (placedMessage properties)) "orders" .pub "OrderPlaced"
      (placedMessage properties) := by
  have refers : refOf (.object [("$ref", .string "#/components/messages/placed")]) =
      some "#/components/messages/placed" := rfl
  have found : resolveJsonPointer (referringRoot (placedMessage properties))
      "#/components/messages/placed" = some (placedMessage properties) := by rfl
  have given : Denotes (referringRoot (placedMessage properties)) (placedMessage properties)
      (placedMessage properties) := .plain rfl
  have only : (variantsOf (placedMessage properties))[0]? = some (placedMessage properties) := rfl
  exact .variant (referring_older _) (referring_operates _) rfl (.follow refers found given) only given

theorem messages_kept_referring :
    (∀ channel direction identity node,
        (∃ operation, Operates referringBefore.root channel direction operation) →
        (∃ operation, Operates referringAfter.root channel direction operation) →
        CarriesMessage referringBefore.root channel direction identity node →
        ¬MarkedDeprecated referringBefore.root node →
        KeepsMessage referringBefore.root referringAfter.root channel direction identity node) ↔
      ∀ channel direction identity node,
        (∃ operation, Operates referringBefore.root channel direction operation) →
        (∃ operation, Operates referringAfter.root channel direction operation) →
        CarriesMessage referringBefore.root channel direction identity node →
        ¬MarkedDeprecated referringBefore.root node →
        (¬LookedAt referringBefore.root referringAfter.root channel direction identity node →
          KeepsMessage referringBefore.root referringAfter.root channel direction identity node) ∧
        (LookedAt referringBefore.root referringAfter.root channel direction identity node →
          ∀ kept, CarriesMessage referringAfter.root channel direction identity kept →
            KeepsPayload referringBefore.root referringAfter.root Unseen node kept) :=
  messages_kept_iff referringPlatform "before" "after" referringBefore referringAfter rfl rfl
    referring_accepted

/-- A payload property lost behind an unchanged reference is accepted. -/
theorem referred_property_lost :
    checkBackwardCompatibility referringPlatform "before" "after" = .ok () ∧
      referringPlatform.parseValue "before" = .ok referringBefore ∧
      referringPlatform.parseValue "after" = .ok referringAfter ∧
      (∃ operation, Operates referringBefore.root "orders" .pub operation) ∧
      (∃ operation, Operates referringAfter.root "orders" .pub operation) ∧
      CarriesMessage referringBefore.root "orders" .pub "OrderPlaced" (placedMessage idProperty) ∧
      ¬MarkedDeprecated referringBefore.root (placedMessage idProperty) ∧
      ¬KeepsMessage referringBefore.root referringAfter.root "orders" .pub "OrderPlaced"
        (placedMessage idProperty) := by
  have plain {root : Value} {properties : Mapping} :
      Denotes root (placedMessage properties) (placedMessage properties) := .plain rfl
  have unmarked {root : Value} {node : Value} (given : refOf node = none)
      (live : isMarkedDeprecated node = false) : ¬MarkedDeprecated root node := by
    rintro (marked | ⟨final, denotes, marked⟩)
    · simp [live] at marked
    · rw [denotes.eq_of_plain given] at marked
      simp [live] at marked
  refine ⟨referring_accepted, rfl, rfl, ⟨_, referring_operates _⟩, ⟨_, referring_operates _⟩,
    referring_carries, unmarked rfl rfl, ?_⟩
  intro keeps
  have payload := keeps.2 _ referring_carries _ (.object [("properties", .object idProperty)]) plain rfl
  have fields := payload.2 _ (.object [("properties", .object [])]) plain rfl _ _ _ .root trivial
  obtain ⟨newSchema, newChild, means, has, _⟩ := fields.properties _ "id"
    (.object [("type", .string "string")]) (.plain rfl) rfl (unmarked rfl rfl)
  rw [means.eq_of_plain rfl] at has
  cases has

end ReferredMessage
end Sanshain.Guarantees
