import Sanshain.Data.Survey
import Sanshain.Document.AsyncApi
import Sanshain.Document.EndpointKeys
import Sanshain.Document.Platform

namespace Sanshain.Guarantees

open Sanshain.Data Sanshain.Document Sanshain.Document.AsyncApiDocument Sanshain.Text

section Meaning

variable (root : Value)

/-- The reference that a node is. -/
def refOf (node : Value) : Option String := (node.get? "$ref").bind Value.asStr

/-- The node that a node stands for, through any number of local references. -/
inductive Denotes : Value → Value → Prop
  | plain {node : Value} (given : refOf node = none) : Denotes node node
  | follow {node next final : Value} {target : String} (refers : refOf node = some target)
      (found : resolveJsonPointer root target = some next) (rest : Denotes next final) :
      Denotes node final

/-- A segment of a pointer with its escapes undone. -/
def unescape (segment : String) : String := replace "~0" "~" (replace "~1" "/" segment)

/-- The messages that a message node stands for: its variants, or else the message. -/
def variantsOf (message : Value) : List Value :=
  ((message.get? "oneOf").bind Value.asArray).getD [message]

/-- The name of the message that a node stands for. -/
def MeansName (node : Value) (name : String) : Prop :=
  ∃ final, Denotes root node final ∧ messageName final = some name

/-- The channel declared under the key of a pointer. -/
def declaredChannel (segment : String) : Option Value :=
  (channelsOf root).bind fun channels => channels.get? (unescape segment)

/-- The address of the channel that a pointer names, or else its key. -/
def MeansAddress (segment address : String) : Prop :=
  match declaredChannel root segment with
  | none => address = unescape segment
  | some declared => ∃ channel, Denotes root declared channel ∧
      match channel.get? "address" with
      | none => address = unescape segment
      | some node => ∃ final, Denotes root node final ∧ address = final.asStr.getD (unescape segment)

/-- A message of an operation: one it names, or else one that its channel declares. -/
def MessageNode (segment : String) (operation node : Value) : Prop :=
  (∃ references, (operation.get? "messages").bind Value.asArray = some references ∧
    node ∈ references) ∨
  ((operation.get? "messages").bind Value.asArray = none ∧ ∃ declared channel messages key,
    declaredChannel root segment = some declared ∧ Denotes root declared channel ∧
      (channel.get? "messages").bind Value.asObject = some messages ∧ (key, node) ∈ messages)

/-- A channel is spelled plainly when its key needs no escape and neither the channel nor its
address is a reference. -/
def PlainChannel (segment : String) : Prop :=
  unescape segment = segment ∧ ∀ declared, declaredChannel root segment = some declared →
    refOf declared = none ∧ ∀ node, declared.get? "address" = some node → refOf node = none

theorem Denotes.eq_of_plain {root node final : Value} (denotes : Denotes root node final)
    (plain : refOf node = none) : final = node := by
  cases denotes with
  | plain => rfl
  | follow refers => cases plain.symm.trans refers

theorem meansName_of_plain {root node : Value} {name : String} (plain : refOf node = none) :
    MeansName root node name ↔ messageName node = some name := by
  constructor
  · rintro ⟨final, denotes, named⟩
    exact denotes.eq_of_plain plain ▸ named
  · intro named
    exact ⟨node, .plain plain, named⟩

theorem meansAddress_of_plain {root : Value} {segment address : String}
    (plain : PlainChannel root segment) :
    MeansAddress root segment address ↔ address = channelAddress root segment := by
  obtain ⟨key, spelled⟩ := plain
  have declaredAs : declaredChannel root segment =
      (channelsOf root).bind fun channels => channels.get? segment := by
    rw [declaredChannel, key]
  unfold MeansAddress channelAddress
  rw [← declaredAs]
  cases declared : declaredChannel root segment with
  | none => simp [key]
  | some node =>
      obtain ⟨given, address_given⟩ := spelled node declared
      rw [Option.bind_some]
      constructor
      · rintro ⟨channel, denotes, means⟩
        rw [denotes.eq_of_plain given] at means
        cases there : node.get? "address" with
        | none =>
            rw [there] at means
            simpa [key] using means
        | some text =>
            rw [there] at means
            obtain ⟨final, same, means⟩ := means
            rw [same.eq_of_plain (address_given text there)] at means
            simpa [key] using means
      · intro same
        refine ⟨node, .plain given, ?_⟩
        cases there : node.get? "address" with
        | none => simpa [there, key] using same
        | some text =>
            exact ⟨text, .plain (address_given text there), by simpa [there, key] using same⟩

end Meaning

section Surveys

variable (external : External) (direction : Direction) (root : Value)

/-- A channel and the name of a message on it. -/
abbrev MessagePair := String × String

def pairOf (message : PubMessage) : MessagePair := (message.channel, message.messageName)

def readV2 (entry : String × Value) : Set MessagePair :=
  { pair | pair ∈ (channelMessagesV2 external direction entry).map pairOf }

def meantV2 (entry : String × Value) : Set MessagePair :=
  { pair | pair.1 = entry.1 ∧ ∃ operation message body, entry.2.get? direction.v2Keyword =
      some operation ∧ operation.get? "message" = some message ∧ Denotes root message body ∧
      ∃ variant ∈ variantsOf body, MeansName root variant pair.2 }

/-- Neither the message nor a variant of it is a reference. -/
def PlainV2 (entry : String × Value) : Prop :=
  ∀ operation message, entry.2.get? direction.v2Keyword = some operation →
    operation.get? "message" = some message →
    refOf message = none ∧ ∀ variant ∈ variantsOf message, refOf variant = none

/-- The segment of the channel reference of an operation of the direction. -/
def channelSegment (entry : String × Value) : Option String :=
  if (entry.2.get? "action").bind Value.asStr = some direction.v3Action then
    (channelRef entry.2).bind (stripPrefix "#/channels/")
  else none

def readV3 (entry : String × Value) : Set MessagePair :=
  { pair | pair ∈ (operationMessagesV3 external direction root entry).map pairOf }

def meantV3 (entry : String × Value) : Set MessagePair :=
  { pair | ∃ segment, channelSegment direction entry = some segment ∧
      MeansAddress root segment pair.1 ∧
      ∃ node, MessageNode root segment entry.2 node ∧ MeansName root node pair.2 }

/-- The channel is spelled plainly, what the operation names are references to messages given in
place, and no message of the channel is a reference. -/
def PlainV3 (entry : String × Value) : Prop :=
  ∀ segment, channelSegment direction entry = some segment → PlainChannel root segment ∧
    (∀ references, (entry.2.get? "messages").bind Value.asArray = some references →
      ∀ reference ∈ references, ∃ target, refOf reference = some target ∧
        ∀ node, resolveJsonPointer root target = some node → refOf node = none) ∧
    ((entry.2.get? "messages").bind Value.asArray = none → ∀ declared messages,
      declaredChannel root segment = some declared →
      (declared.get? "messages").bind Value.asObject = some messages →
      ∀ message ∈ messages, refOf message.2 = none)

variable {external direction root}

/-- A message whose payload can be written is read under its name. -/
theorem mem_pubMessages (writes : ∀ node, ∃ text, external.writeValue node = .ok text)
    {channel : String} {opDeprecated : Bool} {nodes : List Value} {pair : MessagePair} :
    pair ∈ (nodes.filterMap (pubMessageFromNode external channel opDeprecated)).map pairOf ↔
      pair.1 = channel ∧ ∃ node ∈ nodes, messageName node = some pair.2 := by
  simp only [List.mem_map, List.mem_filterMap]
  constructor
  · rintro ⟨message, ⟨node, among, read⟩, rfl⟩
    obtain ⟨name, named, made⟩ := Option.bind_eq_some_iff.mp read
    split at made
    · cases made
      exact ⟨rfl, node, among, named⟩
    · cases made
  · rintro ⟨same, node, among, named⟩
    obtain ⟨text, wrote⟩ := writes ((node.get? "payload").getD .null)
    refine ⟨⟨channel, pair.2, text, opDeprecated || isMarkedDeprecated node⟩,
      ⟨node, among, ?_⟩, Prod.ext same.symm rfl⟩
    rw [pubMessageFromNode, named, Option.bind_some, wrote]

theorem readV2_eq_meantV2 (writes : ∀ node, ∃ text, external.writeValue node = .ok text)
    {entry : String × Value} (plain : PlainV2 direction entry) :
    readV2 external direction entry = meantV2 direction root entry := by
  ext pair
  simp only [readV2, meantV2, Set.mem_ofPred_eq, channelMessagesV2]
  cases operates : entry.2.get? direction.v2Keyword with
  | none => simp
  | some operation =>
      cases carries : operation.get? "message" with
      | none => simp [carries]
      | some message =>
          obtain ⟨given, variants_given⟩ := plain operation message operates carries
          simp only [carries]
          rw [mem_pubMessages writes]
          refine and_congr_right fun _ => ?_
          constructor
          · rintro ⟨variant, among, named⟩
            exact ⟨operation, message, message, rfl, carries, .plain given, variant, among,
              (meansName_of_plain (variants_given variant among)).mpr named⟩
          · rintro ⟨_, body, final, same, held, denotes, variant, among, named⟩
            cases same
            cases carries.symm.trans held
            rw [denotes.eq_of_plain given] at among
            exact ⟨variant, among, (meansName_of_plain (variants_given variant among)).mp named⟩

/-- The channel that an operation is on, by its raw key. -/
theorem channel_messages (segment : String) (plain : PlainChannel root segment) :
    ((((root.get? "channels").bind (·.get? segment)).bind (·.get? "messages")).bind Value.asObject) =
      ((declaredChannel root segment).bind (·.get? "messages")).bind Value.asObject := by
  rw [declaredChannel, plain.1, channelsOf]
  cases root.get? "channels" with
  | none => rfl
  | some channels => rfl

theorem mem_operationMessageNodes {entry : String × Value} (plain : PlainV3 direction root entry)
    {segment : String} (on : channelSegment direction entry = some segment) {name : String} :
    (∃ node ∈ operationMessageNodes root segment entry.2, messageName node = some name) ↔
      ∃ node, MessageNode root segment entry.2 node ∧ MeansName root node name := by
  obtain ⟨spelled, named_plain, declared_plain⟩ := plain segment on
  unfold operationMessageNodes MessageNode
  cases messages : (entry.2.get? "messages").bind Value.asArray with
  | some references =>
      simp only [Option.some.injEq, exists_eq_left', reduceCtorEq, false_and, or_false,
        List.mem_filterMap]
      constructor
      · rintro ⟨node, ⟨reference, among, resolved⟩, named⟩
        obtain ⟨target, refers, given⟩ := named_plain references messages reference among
        rw [show (reference.get? "$ref").bind Value.asStr = some target from refers,
          Option.bind_some] at resolved
        exact ⟨reference, among, node, .follow refers resolved (.plain (given node resolved)), named⟩
      · rintro ⟨reference, among, final, denotes, named⟩
        obtain ⟨target, refers, given⟩ := named_plain references messages reference among
        cases denotes with
        | plain none => cases none.symm.trans refers
        | follow follows found rest =>
            cases refers.symm.trans follows
            rw [rest.eq_of_plain (given _ found)] at named
            exact ⟨_, ⟨reference, among, by rw [show (reference.get? "$ref").bind Value.asStr =
              some target from refers, Option.bind_some, found]⟩, named⟩
  | none =>
      simp only [reduceCtorEq, false_and, exists_false, false_or, true_and]
      rw [channel_messages segment spelled]
      cases declared : declaredChannel root segment with
      | none => simp
      | some channel =>
          obtain ⟨given, _⟩ := spelled.2 channel declared
          rw [Option.bind_some]
          cases there : (channel.get? "messages").bind Value.asObject with
          | none =>
              simp only [Option.getD_none, List.map_nil, List.not_mem_nil, false_and, exists_false,
                false_iff]
              rintro ⟨node, ⟨other, final, messages, key, same, denotes, held, _⟩, _⟩
              cases same
              rw [denotes.eq_of_plain given, there] at held
              cases held
          | some entries =>
              have plainly := declared_plain messages channel entries declared there
              simp only [Option.getD_some, List.mem_map]
              constructor
              · rintro ⟨_, ⟨⟨key, node⟩, among, rfl⟩, named⟩
                exact ⟨node, ⟨channel, channel, entries, key, rfl, .plain given, there, among⟩,
                  (meansName_of_plain (plainly _ among)).mpr named⟩
              · rintro ⟨node, ⟨other, final, messages, key, same, denotes, held, among⟩, named⟩
                cases same
                rw [denotes.eq_of_plain given, there] at held
                cases held
                exact ⟨node, ⟨(key, node), among, rfl⟩,
                  (meansName_of_plain (plainly _ among)).mp named⟩

theorem readV3_eq_meantV3 (writes : ∀ node, ∃ text, external.writeValue node = .ok text)
    {entry : String × Value} (plain : PlainV3 direction root entry) :
    readV3 external direction root entry = meantV3 direction root entry := by
  ext pair
  simp only [readV3, meantV3, Set.mem_ofPred_eq]
  have segments : channelSegment direction entry =
      if (entry.2.get? "action").bind Value.asStr = some direction.v3Action then
        (channelRef entry.2).bind (stripPrefix "#/channels/") else none := rfl
  unfold operationMessagesV3
  by_cases acts : (entry.2.get? "action").bind Value.asStr = some direction.v3Action
  · rw [if_pos acts] at segments
    rw [if_pos acts, ← segments]
    cases on : channelSegment direction entry with
    | none => simp
    | some segment =>
        dsimp only
        rw [mem_pubMessages writes, mem_operationMessageNodes plain on]
        simp only [Option.some.injEq, exists_eq_left', meansAddress_of_plain (plain segment on).1]
  · rw [if_neg acts] at segments
    rw [if_neg acts, segments]
    simp

/-- What the extraction of a direction reads of a document. -/
def messageSurvey (external : External) (direction : Direction)
    (writes : ∀ node, ∃ text, external.writeValue node = .ok text) (root : Value) :
    Survey (String × Value) MessagePair :=
  if isV3 root then
    { places := { entry | entry ∈ (operationsOf root).getD [] }
      read := readV3 external direction root
      meant := meantV3 direction root
      plain := PlainV3 direction root
      faithful := fun _ _ => readV3_eq_meantV3 writes }
  else
    { places := { entry | entry ∈ (channelsOf root).getD [] }
      read := readV2 external direction
      meant := meantV2 direction root
      plain := PlainV2 direction
      faithful := fun _ _ => readV2_eq_meantV2 writes }

theorem reads_messageSurvey (writes : ∀ node, ∃ text, external.writeValue node = .ok text)
    (pair : MessagePair) : pair ∈ (messageSurvey external direction writes root).reads ↔
      pair ∈ (if isV3 root then extractMessagesV3 external direction root
        else extractMessagesV2 external direction root).map pairOf := by
  unfold messageSurvey
  split
  · simp only [Survey.reads, Set.mem_ofPred_eq, extractMessagesV3, List.map_flatMap,
      List.mem_flatMap, readV3]
  · simp only [Survey.reads, Set.mem_ofPred_eq, extractMessagesV2, List.map_flatMap,
      List.mem_flatMap, readV2]

/-- An operation with its side and its channel's segment. -/
def SideOf (entry : String × Value) (side segment : String) : Prop :=
  operationSide entry.2 = .ok side ∧ operationChannelKey entry.2 = .ok segment

/-- Every operation of a 3.x document names its side and its channel. -/
def Splits (root : Value) : Prop :=
  isV3 root = true → ∃ operations, operationsOf root = some operations ∧
    ∀ entry ∈ operations, ∃ side segment, SideOf entry side segment

/-- What the splitter reads of a document: the operations of channels. -/
def operationSurvey (root : Value) : Survey (String × Value) (String × String) :=
  if isV3 root then
    { places := { entry | Splits root ∧ entry ∈ (operationsOf root).getD [] }
      read := fun entry => { pair | ∃ segment, SideOf entry pair.2 segment ∧
        pair.1 = channelAddress root segment }
      meant := fun entry => { pair | ∃ segment, SideOf entry pair.2 segment ∧
        MeansAddress root segment pair.1 }
      plain := fun entry => ∀ side segment, SideOf entry side segment → PlainChannel root segment
      faithful := by
        intro entry _ plain
        ext pair
        refine exists_congr fun segment => and_congr_right fun sided => ?_
        exact (meansAddress_of_plain (plain pair.2 segment sided)).symm }
  else
    { places := { entry | entry ∈ (channelsOf root).getD [] }
      read := fun entry => { pair | pair.1 = entry.1 ∧
        (pair.2 = "PUB" ∧ (entry.2.get? "publish").isSome ∨
          pair.2 = "SUB" ∧ (entry.2.get? "subscribe").isSome) }
      meant := fun entry => { pair | pair.1 = entry.1 ∧
        (pair.2 = "PUB" ∧ (entry.2.get? "publish").isSome ∨
          pair.2 = "SUB" ∧ (entry.2.get? "subscribe").isSome) }
      plain := fun _ => True
      faithful := fun _ _ _ => rfl }

end Surveys

section Splitting

variable {external : External} {root : Value}

theorem mapM_succeeds {Element Error Result : Type} {read : Element → Except Error Result}
    {elements : List Element} (each : ∀ element ∈ elements, ∃ result, read element = .ok result) :
    ∃ results, elements.mapM read = .ok results := by
  induction elements with
  | nil => exact ⟨[], rfl⟩
  | cons element rest ih =>
      obtain ⟨result, first⟩ := each element List.mem_cons_self
      obtain ⟨results, later⟩ := ih fun other among => each other (List.mem_cons_of_mem _ among)
      refine ⟨result :: results, ?_⟩
      rw [List.mapM_cons, first, later]
      rfl

theorem mem_of_forall₂ {Element Error Result : Type} {read : Element → Except Error Result}
    {elements : List Element} {results : List Result}
    (whole : List.Forall₂ (fun element result => read element = .ok result) elements results)
    {result : Result} : result ∈ results ↔ ∃ element ∈ elements, read element = .ok result := by
  induction whole with
  | nil => simp
  | cons first later ih =>
      simp only [List.mem_cons, exists_eq_or_imp, first, Except.ok.injEq]
      exact or_congr eq_comm ih

theorem succeeds_of_forall₂ {Element Error Result : Type} {read : Element → Except Error Result}
    {elements : List Element} {results : List Result}
    (whole : List.Forall₂ (fun element result => read element = .ok result) elements results)
    {element : Element} (among : element ∈ elements) : ∃ result, read element = .ok result := by
  induction whole with
  | nil => cases among
  | cons first later ih =>
      rcases List.mem_cons.mp among with rfl | among
      · exact ⟨_, first⟩
      · exact ih among

def specPair (spec : AsyncApiSpec) : String × String := (spec.channel, spec.operation)

theorem writeSnippet_ok (writes : ∀ node, ∃ text, external.writeValue node = .ok text)
    (snippet : Mapping) : ∃ text, writeSnippet external snippet = .ok text := by
  obtain ⟨text, wrote⟩ := writes (.object snippet)
  exact ⟨text, by rw [writeSnippet, wrote]; rfl⟩

theorem operationSpecV3_made (writes : ∀ node, ∃ text, external.writeValue node = .ok text)
    {entry : String × Value} {side segment : String} (sided : SideOf entry side segment) :
    ∃ spec, operationSpecV3 external root entry = .ok spec ∧
      specPair spec = (channelAddress root segment, side) := by
  have made : operationSpecV3 external root entry =
      createSpecV3 external root segment side entry.2 := by
    rw [operationSpecV3, sided.1, sided.2]
    rfl
  rw [made, createSpecV3]
  generalize Entries.insert _ "operations" _ = snippet
  obtain ⟨text, wrote⟩ := writeSnippet_ok writes snippet
  rw [wrote]
  exact ⟨_, rfl, rfl⟩

/-- An operation is split off just when it names its side and its channel. -/
theorem sideOf_of_spec {entry : String × Value} {spec : AsyncApiSpec}
    (split : operationSpecV3 external root entry = .ok spec) :
    ∃ side segment, SideOf entry side segment := by
  unfold operationSpecV3 at split
  cases side : operationSide entry.2 with
  | error reason => rw [side] at split; cases split
  | ok side' =>
      cases segment : operationChannelKey entry.2 with
      | error reason => rw [side, segment] at split; cases split
      | ok segment' => exact ⟨side', segment', side, segment⟩

theorem operationSpecsV2_made (writes : ∀ node, ∃ text, external.writeValue node = .ok text)
    (entry : String × Value) (operation opKey : String) :
    ∃ specs, operationSpecsV2 external root entry operation opKey = .ok specs ∧
      specs.map specPair = if (entry.2.get? opKey).isSome then [(entry.1, operation)] else [] := by
  unfold operationSpecsV2
  cases there : entry.2.get? opKey with
  | none => exact ⟨[], rfl, rfl⟩
  | some node =>
      rw [createSpecV2]
      dsimp only
      generalize Entries.insert _ "channels" _ = snippet
      obtain ⟨text, wrote⟩ := writeSnippet_ok writes snippet
      rw [wrote]
      exact ⟨_, rfl, rfl⟩

theorem channelSpecsV2_made (writes : ∀ node, ∃ text, external.writeValue node = .ok text)
    (entry : String × Value) : ∃ specs, channelSpecsV2 external root entry = .ok specs ∧
      ∀ pair, pair ∈ specs.map specPair ↔ pair.1 = entry.1 ∧
        (pair.2 = "PUB" ∧ (entry.2.get? "publish").isSome ∨
          pair.2 = "SUB" ∧ (entry.2.get? "subscribe").isSome) := by
  obtain ⟨publishes, published, publish⟩ := @operationSpecsV2_made external root writes entry "PUB" "publish"
  obtain ⟨subscribes, subscribed, subscribe⟩ :=
    @operationSpecsV2_made external root writes entry "SUB" "subscribe"
  refine ⟨publishes ++ subscribes, ?_, fun pair => ?_⟩
  · rw [channelSpecsV2, published, subscribed]
    rfl
  · obtain ⟨channel, operation⟩ := pair
    rw [List.map_append, publish, subscribe, List.mem_append]
    cases (entry.2.get? "publish").isSome <;> cases (entry.2.get? "subscribe").isSome <;>
      simp [and_or_left]

/-- The pairs of channel and operation that the splitter finds in a document. -/
def splitPairs (external : External) (yaml : String) : Set (String × String) :=
  { pair | ∃ specs, splitAsyncapi external yaml = .ok specs ∧ pair ∈ specs.map specPair }

theorem splitPairs_eq (writes : ∀ node, ∃ text, external.writeValue node = .ok text) {yaml : String}
    {document : ParsedDocument} (parsed : external.parseValue yaml = .ok document) :
    splitPairs external yaml = (operationSurvey document.root).reads := by
  have read : splitAsyncapi external yaml =
      if isV3 document.root then splitAsyncapiV3 external document.root
      else splitAsyncapiV2 external document.root := by
    rw [splitAsyncapi, parseRoot, parsed]
    rfl
  ext pair
  simp only [splitPairs, read, operationSurvey, Survey.reads, Set.mem_ofPred_eq]
  cases version : isV3 document.root with
  | true =>
      simp only [if_true, Set.mem_ofPred_eq]
      unfold splitAsyncapiV3
      cases held : operationsOf document.root with
      | none => simp
      | some operations =>
          simp only [Option.getD_some]
          constructor
          · rintro ⟨specs, split, among⟩
            have whole := mapM_ok split
            have sided : Splits document.root := fun _ => ⟨operations, held, fun entry within =>
              (succeeds_of_forall₂ whole within).elim fun _ made => sideOf_of_spec made⟩
            obtain ⟨spec, within, rfl⟩ := List.mem_map.mp among
            obtain ⟨entry, there, made⟩ := (mem_of_forall₂ whole).mp within
            obtain ⟨side, segment, sides⟩ := sideOf_of_spec made
            obtain ⟨other, same, pair⟩ := @operationSpecV3_made _ document.root writes _ _ _ sides
            cases made.symm.trans same
            rw [pair]
            exact ⟨entry, ⟨sided, there⟩, segment, sides, rfl⟩
          · rintro ⟨entry, ⟨sided, there⟩, segment, sides, address⟩
            obtain ⟨others, same, each⟩ := sided version
            cases held.symm.trans same
            obtain ⟨specs, split⟩ := mapM_succeeds fun entry within => by
              obtain ⟨side, segment, sides⟩ := each entry within
              obtain ⟨spec, made, _⟩ := @operationSpecV3_made _ document.root writes _ _ _ sides
              exact ⟨spec, made⟩
            obtain ⟨spec, made, named⟩ := @operationSpecV3_made _ document.root writes _ _ _ sides
            refine ⟨specs, split, List.mem_map.mpr ⟨spec, ?_, ?_⟩⟩
            · exact (mem_of_forall₂ (mapM_ok split)).mpr ⟨entry, there, made⟩
            · rw [named, ← address]
  | false =>
      simp only [Bool.false_eq_true, if_false, Set.mem_ofPred_eq]
      obtain ⟨parts, split⟩ := mapM_succeeds fun (entry : String × Value)
          (_ : entry ∈ (channelsOf document.root).getD []) =>
        (@channelSpecsV2_made _ document.root writes entry).imp fun _ made => made.1
      have whole : splitAsyncapiV2 external document.root = .ok parts.flatten := by
        rw [splitAsyncapiV2, split]
        rfl
      simp only [whole, Except.ok.injEq, exists_eq_left', List.mem_flatten, List.mem_map]
      constructor
      · rintro ⟨spec, ⟨part, within, inside⟩, named⟩
        obtain ⟨entry, there, made⟩ := (mem_of_forall₂ (mapM_ok split)).mp within
        obtain ⟨specs, same, pairs⟩ := @channelSpecsV2_made _ document.root writes entry
        cases made.symm.trans same
        exact ⟨entry, there, (pairs pair).mp (List.mem_map.mpr ⟨spec, inside, named⟩)⟩
      · rintro ⟨entry, there, named⟩
        obtain ⟨specs, made, pairs⟩ := @channelSpecsV2_made _ document.root writes entry
        obtain ⟨spec, inside, same⟩ := List.mem_map.mp ((pairs pair).mpr named)
        exact ⟨spec, ⟨specs, (mem_of_forall₂ (mapM_ok split)).mpr ⟨entry, there, made⟩, inside⟩,
          same⟩

theorem splits_iff (writes : ∀ node, ∃ text, external.writeValue node = .ok text) {yaml : String}
    {document : ParsedDocument} (parsed : external.parseValue yaml = .ok document) :
    (∃ specs, splitAsyncapi external yaml = .ok specs) ↔ Splits document.root := by
  have read : splitAsyncapi external yaml =
      if isV3 document.root then splitAsyncapiV3 external document.root
      else splitAsyncapiV2 external document.root := by
    rw [splitAsyncapi, parseRoot, parsed]
    rfl
  rw [read]
  cases version : isV3 document.root with
  | true =>
      rw [if_pos rfl, splitAsyncapiV3]
      constructor
      · rintro ⟨specs, split⟩ _
        cases held : operationsOf document.root with
        | none => rw [held] at split; cases split
        | some operations =>
            rw [held] at split
            exact ⟨operations, rfl, fun entry within =>
              (succeeds_of_forall₂ (mapM_ok split) within).elim fun _ made => sideOf_of_spec made⟩
      · intro sided
        obtain ⟨operations, held, each⟩ := sided version
        rw [held]
        exact mapM_succeeds fun entry within => by
          obtain ⟨side, segment, sides⟩ := each entry within
          obtain ⟨spec, made, _⟩ := @operationSpecV3_made _ document.root writes _ _ _ sides
          exact ⟨spec, made⟩
  | false =>
      rw [if_neg Bool.false_ne_true]
      constructor
      · intro _ other
        cases version.symm.trans other
      · intro _
        obtain ⟨parts, split⟩ := mapM_succeeds fun (entry : String × Value)
            (_ : entry ∈ (channelsOf document.root).getD []) =>
          (@channelSpecsV2_made _ document.root writes entry).imp fun _ made => made.1
        exact ⟨parts.flatten, by rw [splitAsyncapiV2, split]; rfl⟩

end Splitting

section Respelling

variable {external : External}

/-- Two documents that mean the same: the same messages in both directions and the same operations,
with every reference followed. -/
def SameMeaning (external : External) (writes : ∀ node, ∃ text, external.writeValue node = .ok text)
    (first second : Value) : Prop :=
  (∀ direction, (messageSurvey external direction writes first).means =
      (messageSurvey external direction writes second).means) ∧
    (operationSurvey first).means = (operationSurvey second).means ∧
    (Splits first ↔ Splits second)

/-- The pairs that the extraction finds; a document that is not read has none. -/
def pairsOf (extracted : Except String (List PubMessage)) : Set MessagePair :=
  { pair | ∃ messages, extracted = .ok messages ∧ pair ∈ messages.map pairOf }

theorem pairsOf_extractMessages (writes : ∀ node, ∃ text, external.writeValue node = .ok text)
    {direction : Direction} {yaml : String} {document : ParsedDocument}
    (parsed : external.parseValue yaml = .ok document) :
    pairsOf (extractMessages external direction yaml) =
      (messageSurvey external direction writes document.root).reads := by
  have read : extractMessages external direction yaml = .ok
      (if isV3 document.root then extractMessagesV3 external direction document.root
        else extractMessagesV2 external direction document.root) := by
    rw [extractMessages, parseRoot, parsed]
    rfl
  ext pair
  rw [reads_messageSurvey writes, read]
  simp [pairsOf]

end Respelling

section MovedMessage

/-- A 2.x document that publishes one message, with that message among its components. -/
def ordersChannel (message : Value) : Value :=
  .object [("asyncapi", .string "2.6.0"),
    ("channels", .object [("orders", .object [("publish", .object [("message", message)])])]),
    ("components", .object [("messages", .object [("placed", .object [("name", .string "OrderPlaced")])])])]

def placedInline : Value := .object [("name", .string "OrderPlaced")]

def placedMoved : Value := .object [("$ref", .string "#/components/messages/placed")]

def inlineDocument : ParsedDocument where
  root := ordersChannel placedInline
  formed := by simp [ordersChannel, placedInline, Value.WellFormed, Value.WellFormedEntries]

def movedDocument : ParsedDocument where
  root := ordersChannel placedMoved
  formed := by simp [ordersChannel, placedMoved, Value.WellFormed, Value.WellFormedEntries]

/-- The platform that reads both spellings and writes every payload. -/
def spellingPlatform : External :=
  { asciiPlatform { documents := [("inline", inlineDocument), ("moved", movedDocument)] } with
    writeValue := fun _ => .ok "payload" }

theorem spellingPlatform_writes (node : Value) :
    ∃ text, spellingPlatform.writeValue node = .ok text := ⟨"payload", rfl⟩

theorem placedMoved_denotes {final : Value} :
    Denotes (ordersChannel placedMoved) placedMoved final ↔ final = placedInline := by
  have refers : refOf placedMoved = some "#/components/messages/placed" := rfl
  have found : resolveJsonPointer (ordersChannel placedMoved) "#/components/messages/placed" =
      some placedInline := by rfl
  have given : refOf placedInline = none := rfl
  constructor
  · intro denotes
    cases denotes with
    | plain none => cases none.symm.trans refers
    | follow follows next rest =>
        cases refers.symm.trans follows
        cases found.symm.trans next
        exact rest.eq_of_plain given
  · rintro rfl
    exact .follow refers found (.plain given)

theorem isV3_ordersChannel (message : Value) : isV3 (ordersChannel message) = false :=
  show startsWith "3." "2.6.0" = false by decide +kernel

theorem mem_means_ordersChannel {direction : Direction} {message : Value} {pair : MessagePair} :
    pair ∈ (messageSurvey spellingPlatform direction spellingPlatform_writes
        (ordersChannel message)).means ↔
      direction = .pub ∧ pair.1 = "orders" ∧ ∃ body, Denotes (ordersChannel message) message body ∧
        ∃ variant ∈ variantsOf body, MeansName (ordersChannel message) variant pair.2 := by
  have channels : (channelsOf (ordersChannel message)).getD [] =
      [("orders", .object [("publish", .object [("message", message)])])] := rfl
  unfold messageSurvey
  rw [isV3_ordersChannel, if_neg Bool.false_ne_true]
  simp only [Survey.means, Set.mem_ofPred_eq, channels, List.mem_singleton, exists_eq_left, meantV2]
  cases direction with
  | pub =>
      have publishes : (Value.object [("publish", .object [("message", message)])]).get? "publish" =
          some (.object [("message", message)]) := rfl
      have carries : (Value.object [("message", message)]).get? "message" = some message := rfl
      simp [Direction.v2Keyword, publishes, carries]
  | sub =>
      have receives : (Value.object [("publish", .object [("message", message)])]).get? "subscribe" =
          none := rfl
      simp [Direction.v2Keyword, receives]

theorem mem_operations_ordersChannel {message : Value} {pair : String × String} :
    pair ∈ (operationSurvey (ordersChannel message)).means ↔ pair = ("orders", "PUB") := by
  have channels : (channelsOf (ordersChannel message)).getD [] =
      [("orders", .object [("publish", .object [("message", message)])])] := rfl
  have publishes : (Value.object [("publish", .object [("message", message)])]).get? "publish" =
      some (.object [("message", message)]) := rfl
  have receives : (Value.object [("publish", .object [("message", message)])]).get? "subscribe" =
      none := rfl
  unfold operationSurvey
  rw [isV3_ordersChannel, if_neg Bool.false_ne_true]
  simp only [Survey.means, Set.mem_ofPred_eq, channels, List.mem_singleton, exists_eq_left,
    publishes, receives]
  simp [Prod.ext_iff]

theorem moved_means_the_same :
    SameMeaning spellingPlatform spellingPlatform_writes inlineDocument.root movedDocument.root := by
  have inline (final : Value) : Denotes (ordersChannel placedInline) placedInline final ↔
      final = placedInline :=
    ⟨fun denotes => denotes.eq_of_plain rfl, fun same => by rw [same]; exact .plain rfl⟩
  have variants : variantsOf placedInline = [placedInline] := rfl
  have named (root : Value) (name : String) :
      MeansName root placedInline name ↔ messageName placedInline = some name :=
    meansName_of_plain rfl
  have splits (message : Value) : Splits (ordersChannel message) := by
    intro later
    cases (isV3_ordersChannel message).symm.trans later
  refine ⟨fun direction => ?_, ?_, iff_of_true (splits placedInline) (splits placedMoved)⟩
  · ext pair
    rw [inlineDocument, movedDocument, mem_means_ordersChannel, mem_means_ordersChannel]
    simp only [inline, placedMoved_denotes, exists_eq_left, variants, List.mem_singleton, named]
  · ext pair
    exact mem_operations_ordersChannel.trans mem_operations_ordersChannel.symm

end MovedMessage
end Sanshain.Guarantees
