import Mathlib.Data.Option.Basic
import Sanshain.Document.SpecText

namespace Sanshain.Document

open Sanshain.Data Sanshain.Domain

/-- The document that declares another version and is the same for the rest. -/
def redeclare (declared : String) (root : Value) : Value :=
  match root.asObject, (root.get? "info").bind Value.asObject with
  | some fields, some info =>
      if (info.get? "version").any (·.asObject.isNone) then
        .object (fields.insert "info" (.object (info.insert "version" (.string declared))))
      else root
  | _, _ => root

/-- Two texts of one document that differ in the version they declare; in a proto file it may
stand in several markers. -/
def Redeclared (external : External) (apiType : ApiType) (old new : String) : Prop :=
  match apiType with
  | .openApi | .asyncApi => ∃ before after declared, external.parseValue old = .ok before ∧
      external.parseValue new = .ok after ∧ after.root = redeclare declared before.root
  | .proto => ∃ (parts : List (List Char)) (declared declared' : List Char),
      old.toList = declared.intercalate parts ∧ new.toList = declared'.intercalate parts

/-- A marker of a proto file is declared anew. -/
theorem redeclared_marker (external : External) (before declared declared' after : String) :
    Redeclared external .proto (before ++ declared ++ after) (before ++ declared' ++ after) := by
  refine ⟨[before.toList, after.toList], declared.toList, declared'.toList, ?_, ?_⟩
  · simp [List.intercalate]
  · simp [List.intercalate]

section Messages

open AsyncApiDocument

variable {external : External} {declared : String} {root node node' : Value}

/-- The nodes that one pointer names before and after a document is declared anew. -/
inductive Renewed (declared : String) (root : Value) : Value → Value → Prop
  | same (node : Value) : Renewed declared root node node
  | top : Renewed declared root root (redeclare declared root)
  | info (fields : Mapping) (scalar : (fields.get? "version").any (·.asObject.isNone)) :
      Renewed declared root (.object fields) (.object (fields.insert "version" (.string declared)))
  | version (value : Value) (scalar : value.asObject = none) :
      Renewed declared root value (.string declared)

theorem redeclare_cases (declared : String) (root : Value) :
    redeclare declared root = root ∨ ∃ fields info : Mapping, root = .object fields ∧
      fields.get? "info" = some (.object info) ∧ (info.get? "version").any (·.asObject.isNone) ∧
      redeclare declared root =
        .object (fields.insert "info" (.object (info.insert "version" (.string declared)))) := by
  unfold redeclare
  split
  · rename_i fields info object found
    split
    · rename_i scalar
      cases root with
      | object entries =>
          cases object
          obtain ⟨held, at', mapping⟩ := Option.bind_eq_some_iff.mp found
          cases held with
          | object entries =>
              cases mapping
              exact .inr ⟨_, _, rfl, at', scalar, rfl⟩
          | _ => cases mapping
      | _ => cases object
    · exact .inl rfl
  · exact .inl rfl

theorem get?_redeclare {key : String} (other : key ≠ "info") :
    (redeclare declared root).get? key = root.get? key := by
  obtain same | ⟨fields, info, rfl, found, scalar, same⟩ := redeclare_cases declared root
  · rw [same]
  · rw [same]
    change Entries.get? _ key = Entries.get? _ key
    rw [Entries.get?_insert, if_neg other.symm]

theorem get?_scalar {value : Value} (scalar : value.asObject = none) (key : String) :
    value.get? key = none := by
  rw [Value.get?, scalar, Option.bind_none]

/-- Besides its declared version a node has the fields it had. -/
theorem Renewed.get?_same (renewed : Renewed declared root node node') {key : String}
    (notInfo : key ≠ "info") (notVersion : key ≠ "version") : node'.get? key = node.get? key := by
  cases renewed with
  | same => rfl
  | top => exact get?_redeclare notInfo
  | info fields scalar =>
      change Entries.get? _ key = Entries.get? _ key
      rw [Entries.get?_insert, if_neg notVersion.symm]
  | version value scalar => rw [get?_scalar scalar, get?_scalar rfl]

/-- A key leads from both nodes to nodes that are again the same but for the version. -/
theorem Renewed.child (renewed : Renewed declared root node node') (key : String) :
    Option.Rel (Renewed declared root) (node.get? key) (node'.get? key) := by
  have still (found : Option Value) : Option.Rel (Renewed declared root) found found := by
    cases found with
    | none => exact .none
    | some value => exact .some (.same value)
  cases renewed with
  | same => exact still _
  | top =>
      obtain same | ⟨fields, info, rfl, found, scalar, same⟩ := redeclare_cases declared root
      · rw [same]
        exact still _
      · rw [same]
        change Option.Rel _ (Entries.get? fields key) (Entries.get? _ key)
        rw [Entries.get?_insert]
        split
        · rename_i here
          rw [← here, found]
          exact .some (.info info scalar)
        · exact still _
  | info fields scalar =>
      change Option.Rel _ (Entries.get? fields key) (Entries.get? _ key)
      rw [Entries.get?_insert]
      split
      · rename_i here
        subst here
        cases held : Entries.get? fields "version" with
        | none => simp [held] at scalar
        | some value => exact .some (.version value (by simpa [held] using scalar))
      · exact still _
  | version value scalar =>
      rw [get?_scalar scalar, get?_scalar rfl]
      exact .none

/-- A pointer names nodes that are the same but for the version. -/
theorem Renewed.pointer (renewed : Renewed declared root node node') (path : List String) :
    Option.Rel (Renewed declared root)
      (path.foldlM (fun node raw => node.get? (Text.replace "~0" "~" (Text.replace "~1" "/" raw))) node)
      (path.foldlM (fun node raw => node.get? (Text.replace "~0" "~" (Text.replace "~1" "/" raw)))
        node') := by
  induction path generalizing node node' with
  | nil => exact .some renewed
  | cons raw rest ih =>
      rw [List.foldlM_cons, List.foldlM_cons]
      have next := renewed.child (Text.replace "~0" "~" (Text.replace "~1" "/" raw))
      revert next
      generalize node.get? _ = first, node'.get? _ = second
      intro next
      cases next with
      | none => exact .none
      | some later => exact ih later

theorem pubMessage_renewed (renewed : Renewed declared root node node') (channel : String)
    (opDeprecated : Bool) :
    pubMessageFromNode external channel opDeprecated node' =
      pubMessageFromNode external channel opDeprecated node := by
  have name := renewed.get?_same (show "name" ≠ "info" by decide) (by decide)
  have title := renewed.get?_same (show "title" ≠ "info" by decide) (by decide)
  have payload := renewed.get?_same (show "payload" ≠ "info" by decide) (by decide)
  have marked := renewed.get?_same (show "deprecated" ≠ "info" by decide) (by decide)
  have extension := renewed.get?_same (show "x-deprecated" ≠ "info" by decide) (by decide)
  have named : messageName node' = messageName node := by rw [messageName, messageName, name, title]
  have deprecated : isMarkedDeprecated node' = isMarkedDeprecated node := by
    simp only [isMarkedDeprecated, List.any_cons, List.any_nil, marked, extension]
  rw [pubMessageFromNode, pubMessageFromNode, named, payload, deprecated]

theorem resolve_redeclare (declared : String) (root : Value) (pointer : String) :
    Option.Rel (Renewed declared root) (resolveJsonPointer root pointer)
      (resolveJsonPointer (redeclare declared root) pointer) := by
  rw [resolveJsonPointer, resolveJsonPointer]
  cases Text.stripPrefix "#/" pointer with
  | none => exact .none
  | some path => exact Renewed.top.pointer (Text.split '/' path)

theorem operationMessages_redeclare (direction : Direction) (entry : String × Value) :
    operationMessagesV3 external direction (redeclare declared root) entry =
      operationMessagesV3 external direction root entry := by
  have channels := @get?_redeclare declared root "channels" (by decide)
  have address (channelKey : String) :
      channelAddress (redeclare declared root) channelKey = channelAddress root channelKey := by
    rw [channelAddress, channelAddress, channelsOf, channelsOf, channels]
  have nodes (channelKey : String) (opDeprecated : Bool) :
      (operationMessageNodes (redeclare declared root) channelKey entry.2).filterMap
          (pubMessageFromNode external (channelAddress root channelKey) opDeprecated) =
        (operationMessageNodes root channelKey entry.2).filterMap
          (pubMessageFromNode external (channelAddress root channelKey) opDeprecated) := by
    unfold operationMessageNodes
    split
    · rw [List.filterMap_filterMap, List.filterMap_filterMap]
      refine List.filterMap_congr fun reference _ => ?_
      cases (reference.get? "$ref").bind Value.asStr with
      | none => rfl
      | some pointer =>
          rw [Option.bind_some, Option.bind_some]
          have named := resolve_redeclare declared root pointer
          revert named
          generalize resolveJsonPointer root pointer = first
          generalize resolveJsonPointer (redeclare declared root) pointer = second
          intro named
          cases named with
          | none => rfl
          | some renewed => exact pubMessage_renewed renewed _ _
    · rw [channels]
  unfold operationMessagesV3
  split
  · split
    · rfl
    · rw [address, nodes]
  · rfl

/-- The messages of a document do not depend on the version it declares. -/
theorem extractMessages_redeclared {old new : String} (direction : Direction)
    (redeclared : Redeclared external .asyncApi old new) :
    extractMessages external direction new = extractMessages external direction old := by
  obtain ⟨before, after, declared, readOld, readNew, same⟩ := redeclared
  have channels := @get?_redeclare declared before.root "channels" (by decide)
  have operations := @get?_redeclare declared before.root "operations" (by decide)
  have line := @get?_redeclare declared before.root "asyncapi" (by decide)
  have v3 : isV3 after.root = isV3 before.root := by rw [isV3, isV3, same, line]
  have first : extractMessagesV2 external direction after.root =
      extractMessagesV2 external direction before.root := by
    rw [extractMessagesV2, extractMessagesV2, channelsOf, channelsOf, same, channels]
  have third : extractMessagesV3 external direction after.root =
      extractMessagesV3 external direction before.root := by
    rw [extractMessagesV3, extractMessagesV3, operationsOf, operationsOf, same, operations]
    exact List.flatMap_congr fun entry _ => operationMessages_redeclare direction entry
  rw [extractMessages, extractMessages, parseRoot, parseRoot, readOld, readNew]
  simp only [Except.mapError, Except.map, v3, first, third]

end Messages
end Sanshain.Document
