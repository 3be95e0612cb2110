import Sanshain.Document.Resolved
import Sanshain.Guarantees.Ownership
import Sanshain.Guarantees.Payloads
import Sanshain.Guarantees.Releases

namespace Sanshain.Guarantees

open Sanshain.Data Sanshain.Domain Sanshain.Document Sanshain.Document.AsyncApiDocument
open Sanshain.Effects Sanshain.Application Sanshain.Infrastructure Sanshain.Text

section Schemas

def compositions : List String := ["allOf", "oneOf", "anyOf"]

/-- The schemas that a schema is composed of. -/
def partsOf (schema : Value) : List Value :=
  compositions.flatMap fun keyword => ((schema.get? keyword).bind Value.asArray).getD []

/-- A schema that a node stands for, itself or as a part of what it stands for. -/
inductive Consists (root : Value) : Value → Value → Prop
  | whole {node schema : Value} (means : Denotes root node schema) : Consists root node schema
  | part {node schema part final : Value} (means : Denotes root node schema)
      (among : part ∈ partsOf schema) (rest : Consists root part final) : Consists root node final

/-- A schema has a property that is not deprecated, nor inside one that is. -/
inductive Lasts (root : Value) : Value → Prop
  | property {node schema child : Value} {name : String} (consists : Consists root node schema)
      (has : propertyOf schema name = some child) (lasts : ¬MarkedDeprecated root child) :
      Lasts root node
  | items {node schema child : Value} (consists : Consists root node schema)
      (has : schema.get? "items" = some child) (rest : Lasts root child) : Lasts root node

variable (oldRoot newRoot : Value)

/-- A schema still has the properties of the old one that are not deprecated, of the same types, and
items where those of the old one have such properties. -/
structure KeepsProperties (old new : Value) : Prop where
  properties : ∀ schema name child, Consists oldRoot old schema → propertyOf schema name = some child →
    ¬MarkedDeprecated oldRoot child → ∃ newSchema newChild, Consists newRoot new newSchema ∧
      propertyOf newSchema name = some newChild ∧ ∀ final, Denotes oldRoot child final →
        ∃ newFinal, Denotes newRoot newChild newFinal ∧ newFinal.get? "type" = final.get? "type"
  items : ∀ schema child, Consists oldRoot old schema → schema.get? "items" = some child →
    Lasts oldRoot child → ∃ newSchema newChild, Consists newRoot new newSchema ∧
      newSchema.get? "items" = some newChild

/-- Two schemas stand at one place of two payloads. -/
inductive SchemaPlace (oldPayload newPayload : Value) : Value → Value → Prop
  | root : SchemaPlace oldPayload newPayload oldPayload newPayload
  | property {old new schema newSchema child newChild : Value} {name : String}
      (above : SchemaPlace oldPayload newPayload old new) (consists : Consists oldRoot old schema)
      (newConsists : Consists newRoot new newSchema) (has : propertyOf schema name = some child)
      (newHas : propertyOf newSchema name = some newChild) :
      SchemaPlace oldPayload newPayload child newChild
  | items {old new schema newSchema child newChild : Value}
      (above : SchemaPlace oldPayload newPayload old new) (consists : Consists oldRoot old schema)
      (newConsists : Consists newRoot new newSchema) (has : schema.get? "items" = some child)
      (newHas : newSchema.get? "items" = some newChild) : SchemaPlace oldPayload newPayload child newChild

/-- The places that the comparison of two payloads comes to. -/
inductive ComparedPlace (oldPayload newPayload : Value) : Value → Value → Prop
  | root : ComparedPlace oldPayload newPayload oldPayload newPayload
  | property {old new child newChild : Value} {name : String}
      (above : ComparedPlace oldPayload newPayload old new) (has : propertyOf old name = some child)
      (newHas : propertyOf new name = some newChild) : ComparedPlace oldPayload newPayload child newChild
  | items {old new child newChild : Value} (above : ComparedPlace oldPayload newPayload old new)
      (has : old.get? "items" = some child) (newHas : new.get? "items" = some newChild) :
      ComparedPlace oldPayload newPayload child newChild

/-- The comparison of two schemas sees what they are: both are given in place, the old one is composed
of nothing, and the types of the properties they share and the items of the old one are compared. -/
def SchemaSeen (old new : Value) : Prop :=
  inPlace old = true ∧ inPlace new = true ∧ partsOf old = [] ∧ SeenThrough old new

/-- A payload still provides what another one did, wherever the condition holds. -/
def StillProvides (judged : Value → Value → Prop) (oldPayload newPayload : Value) : Prop :=
  ∀ old new, SchemaPlace oldRoot newRoot oldPayload newPayload old new → judged old new →
    KeepsProperties oldRoot newRoot old new

end Schemas

section Walk

variable {oldRoot newRoot old new node other child newChild : Value} {name key : String}

theorem propertyOf_of_same (same : node.same other = true) (has : propertyOf node name = some child) :
    ∃ counterpart, propertyOf other name = some counterpart ∧ child.same counterpart = true := by
  obtain ⟨properties, held, found⟩ := Option.bind_eq_some_iff.mp has
  obtain ⟨object, given, entries⟩ := Option.bind_eq_some_iff.mp held
  obtain ⟨object', given', alike⟩ := get?_of_same same given
  cases object with
  | object mapping =>
      cases entries
      obtain ⟨counterpart, found', equal⟩ := get?_of_same alike (show Value.get? (.object properties)
        name = some child from found)
      cases object' with
      | object mapping' =>
          refine ⟨counterpart, ?_, equal⟩
          rw [propertyOf, given']
          exact found'
      | _ => cases alike
  | _ => cases entries

theorem text_of_same {text : String} (same : node.same other = true)
    (has : (node.get? key).bind Value.asStr = some text) :
    (other.get? key).bind Value.asStr = some text := by
  obtain ⟨value, held, written⟩ := Option.bind_eq_some_iff.mp has
  obtain ⟨counterpart, there, alike⟩ := get?_of_same same held
  cases value with
  | string text' =>
      cases counterpart with
      | string text'' =>
          have equal : text' = text'' := by simpa [Value.same] using alike
          rw [there, Option.bind_some, ← equal]
          exact written
      | _ => cases alike
  | _ => cases written

theorem isMarkedDeprecated_of_same (same : node.same other = true)
    (marked : isMarkedDeprecated node = true) : isMarkedDeprecated other = true := by
  obtain ⟨key, among, flagged⟩ := List.any_eq_true.mp marked
  refine List.any_eq_true.mpr ⟨key, among, ?_⟩
  cases held : node.get? key with
  | none => simp [held] at flagged
  | some value =>
      obtain ⟨counterpart, there, alike⟩ := get?_of_same same held
      rw [held] at flagged
      rw [there]
      cases value with
      | bool flag =>
          cases counterpart with
          | bool flag' =>
              have equal : flag = flag' := by simpa [Value.same] using alike
              exact equal ▸ flagged
          | _ => cases alike
      | _ => cases flagged

/-- Equality up to the order of keys, both ways. -/
structure Equal (node other : Value) : Prop where
  same : node.same other = true
  back : other.same node = true

theorem Equal.symm (equal : Equal node other) : Equal other node := ⟨equal.back, equal.same⟩

theorem Equal.property (equal : Equal node other) (has : propertyOf node name = some child) :
    ∃ counterpart, propertyOf other name = some counterpart ∧ Equal child counterpart := by
  obtain ⟨counterpart, there, alike⟩ := propertyOf_of_same equal.same has
  obtain ⟨held, found, back⟩ := propertyOf_of_same equal.back there
  rw [has] at found
  cases found
  exact ⟨counterpart, there, alike, back⟩

theorem Equal.get? (equal : Equal node other) (has : node.get? key = some child) :
    ∃ counterpart, other.get? key = some counterpart ∧ Equal child counterpart := by
  obtain ⟨counterpart, there, alike⟩ := get?_of_same equal.same has
  obtain ⟨held, found, back⟩ := get?_of_same equal.back there
  rw [has] at found
  cases found
  exact ⟨counterpart, there, alike, back⟩

/-- Two schemas equal to two that the walk has compared to the bottom. -/
def Walked (old new : Value) : Prop :=
  ∃ first second, Equal old first ∧ Equal new second ∧ WalkPassed first second

theorem Walked.property (walked : Walked old new) (has : propertyOf old name = some child)
    (newHas : propertyOf new name = some newChild) : Walked child newChild := by
  obtain ⟨first, second, equal, equal', passed⟩ := walked
  obtain ⟨held, there, alike⟩ := equal.property has
  obtain ⟨held', there', alike'⟩ := equal'.property newHas
  exact ⟨held, held', alike, alike', (passed.inv.2.1 name held there).2 held' there'⟩

theorem Walked.items (walked : Walked old new) (has : old.get? "items" = some child)
    (newHas : new.get? "items" = some newChild) : Walked child newChild := by
  obtain ⟨first, second, equal, equal', passed⟩ := walked
  obtain ⟨held, there, alike⟩ := equal.get? has
  obtain ⟨held', there', alike'⟩ := equal'.get? newHas
  exact ⟨held, held', alike, alike', passed.inv.2.2 held held' there there'⟩

/-- A property that the new schema lacks is deprecated. -/
theorem Walked.deprecated (walked : Walked old new) (has : propertyOf old name = some child)
    (gone : propertyOf new name = none) : isMarkedDeprecated child = true := by
  obtain ⟨first, second, equal, equal', passed⟩ := walked
  obtain ⟨held, there, alike⟩ := equal.property has
  refine isMarkedDeprecated_of_same alike.back ((passed.inv.2.1 name held there).1 ?_)
  cases found : propertyOf second name with
  | none => rfl
  | some newHeld =>
      obtain ⟨counterpart, still, -⟩ := equal'.symm.property found
      rw [gone] at still
      cases still

theorem type_of_text {text : String} (has : (node.get? "type").bind Value.asStr = some text) :
    node.get? "type" = some (.string text) := by
  obtain ⟨type, given, written⟩ := Option.bind_eq_some_iff.mp has
  cases type with
  | string =>
      cases written
      exact given
  | _ => cases written

theorem Walked.type_eq (walked : Walked old new) (typed : TypesCompared old new) :
    new.get? "type" = old.get? "type" := by
  obtain ⟨first, second, equal, equal', passed⟩ := walked
  obtain ⟨-, -, texts | ⟨oldNone, newNone⟩⟩ := typed
  · obtain ⟨oldText, oldHas⟩ := Option.isSome_iff_exists.mp texts.1
    obtain ⟨newText, newHas⟩ := Option.isSome_iff_exists.mp texts.2
    have unchanged := passed.inv.1
    rw [changedText, text_of_same equal.same oldHas, text_of_same equal'.same newHas] at unchanged
    have same : oldText = newText := by
      by_contra differ
      simp [differ] at unchanged
    rw [type_of_text oldHas, type_of_text newHas, same]
  · rw [oldNone, newNone]

theorem Consists.eq_of_seen {root schema : Value} (consists : Consists root node schema)
    (given : inPlace node = true) (bare : partsOf node = []) : schema = node := by
  cases consists with
  | whole means => exact means.eq_of_inPlace given
  | part means among =>
      rw [means.eq_of_inPlace given, bare] at among
      cases among

/-- Where the comparison sees what two schemas are, it keeps the properties of the old one. -/
theorem Walked.keepsProperties (walked : Walked old new) (seen : SchemaSeen old new) :
    KeepsProperties oldRoot newRoot old new := by
  obtain ⟨given, newGiven, bare, types, items⟩ := seen
  have whole : Consists newRoot new new := .whole (.of_inPlace newGiven)
  constructor
  · intro schema name child consists has lasts
    rw [consists.eq_of_seen given bare] at has
    cases there : propertyOf new name with
    | none => exact absurd (.inl (walked.deprecated has there)) lasts
    | some newChild =>
        have typed := types name child newChild has there
        refine ⟨new, newChild, whole, there, fun final denotes => ?_⟩
        rw [denotes.eq_of_inPlace typed.1]
        exact ⟨newChild, .of_inPlace typed.2.1, (walked.property has there).type_eq typed⟩
  · intro schema child consists has _
    rw [consists.eq_of_seen given bare] at has
    obtain ⟨newChild, there⟩ := Option.isSome_iff_exists.mp
      (items (Option.isSome_iff_exists.mpr ⟨child, has⟩))
    exact ⟨new, newChild, whole, there⟩

theorem ComparedPlace.walked {oldPayload newPayload : Value} (walked : Walked oldPayload newPayload)
    (place : ComparedPlace oldPayload newPayload old new) : Walked old new := by
  induction place with
  | root => exact walked
  | property _ has newHas ih => exact ih.property has newHas
  | items _ has newHas ih => exact ih.items has newHas

/-- What the comparison of two payloads does not see. -/
def SchemaUnseen (oldPayload newPayload old new : Value) : Prop :=
  ¬(ComparedPlace oldPayload newPayload old new ∧ SchemaSeen old new)

/-- After a comparison, a payload provides what it did just when what was not seen of it does. -/
theorem stillProvides_iff {oldPayload newPayload : Value} (walked : Walked oldPayload newPayload) :
    StillProvides oldRoot newRoot (fun _ _ => True) oldPayload newPayload ↔
      StillProvides oldRoot newRoot (SchemaUnseen oldPayload newPayload) oldPayload newPayload := by
  constructor
  · exact fun provides old new place _ => provides old new place trivial
  · intro unseen old new place _
    by_cases seen : ComparedPlace oldPayload newPayload old new ∧ SchemaSeen old new
    · exact (seen.1.walked walked).keepsProperties seen.2
    · exact unseen old new place seen

end Walk

section Planning

variable {deployment : Deployment} {forms : AnswerForms} {environment : Environment}
  {start world after : World} {events : Calls} {request : Call}

/-- A call that leaves the contracts alone. -/
def SparesContracts : Call → Prop
  | .repo call => .contracts ∉ writes call
  | .nowIso | .newUuid => True

theorem sparesContracts_reads (reads : request.readsOnly = true) : SparesContracts request := by
  cases request with
  | repo call => simp [SparesContracts, writes_readsOnly reads]
  | nowIso => trivial
  | newUuid => trivial

theorem sparesContracts_prepares {params : ProvideSpecParams} (prepares : Prepares params request) :
    SparesContracts request := by
  cases prepares with
  | telemetry told =>
      cases told with
      | reads reads => exact sparesContracts_reads reads
      | audit => simp [SparesContracts, writes]
      | event => simp [SparesContracts, writes]
  | service => simp [SparesContracts, writes]
  | tag => simp [SparesContracts, writes]

theorem handle_sparesContracts (spares : SparesContracts request) :
    (World.handle environment world request).1.store.contracts = world.store.contracts := by
  cases request with
  | repo call => exact World.handle_frame environment world spares
  | nowIso => rfl
  | newUuid => rfl

theorem contract_unique {store : Store} (sound : store.Integrity) {one other : ChannelMessageContract}
    (among : one ∈ store.contracts) (held : other ∈ store.contracts)
    (channel : other.channel = one.channel) (name : other.messageName = one.messageName) :
    other = one :=
  List.inj_on_of_nodup_map sound.contractKeys held among (Prod.ext channel name)

theorem contract?_of_mem {store : Store} (sound : store.Integrity) {row : ChannelMessageContract}
    (among : row ∈ store.contracts) : store.contract? row.channel row.messageName = some row := by
  cases found : store.contract? row.channel row.messageName with
  | none =>
      have missing := List.find?_eq_none.mp found row among
      simp at missing
  | some other =>
      obtain ⟨held, channel, name⟩ := Store.mem_of_contract? found
      rw [contract_unique sound among held channel name]

/-- What a run was told of the contracts before it wrote any is what stood where it started. -/
structure ContractEchoes (start state : World) (events : Calls) : Prop where
  rows : (∀ event ∈ events, SparesContracts event.request) →
    state.store.contracts = start.store.contracts
  shown : (∀ event ∈ events, SparesContracts event.request) →
    ∀ row ∈ start.store.contracts, Shown events row

theorem ContractEchoes.step (echoes : ContractEchoes start world events) (request : Call) :
    ContractEchoes start (World.handle environment world request).1
      (⟨request, (World.handle environment world request).2⟩ :: events) := by
  have earlier (spared : ∀ event ∈ (⟨request, (World.handle environment world request).2⟩ :
      Event Call Call.Answer) :: events, SparesContracts event.request) :
      SparesContracts request ∧ ∀ event ∈ events, SparesContracts event.request :=
    ⟨spared _ List.mem_cons_self, fun event among => spared event (List.mem_cons_of_mem _ among)⟩
  refine ⟨fun spared => ?_, fun spared row among => ?_⟩
  · rw [handle_sparesContracts (earlier spared).1, echoes.rows (earlier spared).2]
  · have before := echoes.shown (earlier spared).2 row among
    have stands : row ∈ world.store.contracts := by
      rw [echoes.rows (earlier spared).2]
      exact among
    have sound := world.database.sound
    refine ⟨fun found heard => ?_, fun name heard => ?_, fun contracts heard => ?_⟩
    · rcases List.mem_cons.mp heard with now | old
      · injection now with asked answered
        subst asked
        obtain ⟨reason, failed, -⟩ | performed := World.handle_repo environment world
          (.getChannelMessageContract row.channel row.messageName)
        · rw [failed] at answered
          cases answered
        · rw [performed] at answered
          cases answered
          exact contract?_of_mem sound stands
      · exact before.contract found old
    · rcases List.mem_cons.mp heard with now | old
      · injection now with asked answered
        subst asked
        obtain ⟨reason, failed, -⟩ | performed := World.handle_repo environment world
          (.getServiceNameById row.ownerServiceId)
        · rw [failed] at answered
          cases answered
        · rw [performed] at answered
          cases answered
          exact Option.isSome_iff_ne_none.mp (sound.contractOwner row stands)
      · exact before.owner name old
    · rcases List.mem_cons.mp heard with now | old
      · injection now with asked answered
        subst asked
        obtain ⟨reason, failed, -⟩ | performed := World.handle_repo environment world
          .listChannelMessageContracts
        · rw [failed] at answered
          cases answered
        · rw [performed] at answered
          cases answered
          intro other held channel name
          exact contract_unique sound stands (List.mem_insertionSort _ |>.mp held) channel name
      · exact before.listed contracts old

/-- A release of a channel document that was not there before was planned from the contracts as they
stood. -/
theorem ran_planned {action : Action} {outcome : Except AppError Outcome} {row : SpecVersionRow}
    (publishing : publishes action = true)
    (ran : (action.program deployment forms).run (World.handle environment) world =
      some (outcome, after)) (among : row ∈ after.store.specVersions)
    (fresh : ∀ earlier ∈ world.store.specVersions, earlier.standing ≠ row.standing)
    (released : row.entry.stability = .ga) (kind : row.entry.apiType = .asyncApi) :
    ∃ history ops, ContractsPlanned deployment.external row.entry.serviceId row.content history ops ∧
      ∀ contract ∈ world.store.contracts, Shown history contract := by
  have writes : Writes deployment (ContractEchoes world) fun standing =>
      standing.stability = .ga → standing.key.2.1 = .asyncApi → ∃ history ops,
        ContractsPlanned deployment.external standing.key.1 standing.content history ops ∧
          ∀ contract ∈ world.store.contracts, Shown history contract := by
    intro state events params submission serviceId line ops now outbox id echoes preparing admitted
      released kind
    exact ⟨events, ops, admitted.planned kind released, echoes.shown fun event there =>
      sparesContracts_prepares (preparing event there)⟩
  have opened : ContractEchoes world world [] :=
    ⟨fun _ => rfl, fun _ _ _ => ⟨fun _ heard => absurd heard List.not_mem_nil,
      fun _ heard => absurd heard List.not_mem_nil, fun _ heard => absurd heard List.not_mem_nil⟩⟩
  rcases ran_traced writes (fun _ _ request echoes => echoes.step request) opened publishing ran row
    among with ⟨earlier, there, same⟩ | planned
  · exact absurd same (fresh earlier there)
  · exact planned released kind

variable {external : External} {serviceId : Nat} {message : PubMessage} {ops : List ContractOp}
  {contract : ChannelMessageContract}

/-- What the plan for a message found of the contract that stood. -/
theorem found_of_shown (planned : MessagePlanned external serviceId events message ops)
    (shown : Shown events contract) (channel : message.channel = contract.channel)
    (name : message.messageName = contract.messageName) :
    (contract.ownerServiceId = serviceId → checkPayloadCompatible external contract.payloadYaml
      message.payloadYaml = .ok ()) ∧
    (contract.ownerServiceId ≠ serviceId →
      payloadsEqual external contract.payloadYaml message.payloadYaml = true) := by
  have read := shown.contract
  rw [← channel, ← name] at read
  cases planned with
  | unclaimed heard => cases read _ heard
  | orphaned held heard gone =>
      cases read _ heard
      exact absurd rfl (shown.owner _ gone)
  | owned held name heard alive own widened =>
      cases read _ heard
      exact ⟨fun _ => widened, fun foreign => absurd own foreign⟩
  | shared held name heard alive foreign equal =>
      cases read _ heard
      exact ⟨fun own => absurd own foreign, fun _ => equal⟩

end Planning

section Publications

/-- A document publishes a message under a name, with a payload that is written as a text. -/
structure Publication (external : External) (yaml channel name : String) (document : ParsedDocument)
    (payload : Value) (text : String) : Prop where
  read : external.parseValue yaml = .ok document
  formed : payload.WellFormed
  written : external.writeValue payload = .ok text
  published : ∃ messages, extractPubMessages external yaml = .ok messages ∧ ∃ message ∈ messages,
    message.channel = channel ∧ message.messageName = name ∧ message.payloadYaml = text

/-- What is written reads back as what it was, up to the order of keys. -/
def ReadsBack (external : External) : Prop :=
  ∀ value text, value.WellFormed → external.writeValue value = .ok text →
    ∃ read, external.parseValue text = .ok read ∧ read.root.same value = true

/-- Every message of a document that a contract names, published by the document of the owner, is as a
condition asks: one for the contracts of others and one for the own contracts. -/
def Contracted (external : External) (contracts : List ChannelMessageContract) (row : SpecVersionRow)
    (shared own : ParsedDocument → ParsedDocument → Value → Value → Prop) : Prop :=
  ∀ contract ∈ contracts, ∀ yaml old oldPayload new newPayload text,
    Publication external yaml contract.channel contract.messageName old oldPayload
        contract.payloadYaml →
      Publication external row.content contract.channel contract.messageName new newPayload text →
        (contract.ownerServiceId ≠ row.entry.serviceId → shared old new oldPayload newPayload) ∧
        (contract.ownerServiceId = row.entry.serviceId → own old new oldPayload newPayload)

variable {external : External} {yaml yaml' channel name text text' : String}
  {old new : ParsedDocument} {oldPayload newPayload : Value}

theorem Publication.reads (reads : ReadsBack external)
    (publication : Publication external yaml channel name old oldPayload text) :
    ∃ read, external.parseValue text = .ok read ∧ Equal oldPayload read.root := by
  obtain ⟨read, parsed, same⟩ := reads oldPayload text publication.formed publication.written
  exact ⟨read, parsed, same_symm read.formed publication.formed same, same⟩

theorem Equal.alike {root node other : Value} (equal : Equal node other) : Alike root root node other :=
  (alike_iff equal.same equal.back).mpr fun _ _ _ _ => Iff.rfl

/-- Payloads that were compared as equal are one schema just when their references lead to one. -/
theorem shared_iff (reads : ReadsBack external)
    (publication : Publication external yaml channel name old oldPayload text)
    (publication' : Publication external yaml' channel name new newPayload text')
    (equal : payloadsEqual external text text' = true) :
    Alike old.root new.root oldPayload newPayload ↔
      ∀ target, Mentions oldPayload target → LeadsAlike old.root new.root target := by
  obtain ⟨read, parsed, here⟩ := publication.reads reads
  obtain ⟨read', parsed', there⟩ := publication'.reads reads
  rw [payloadsEqual, parsed, parsed'] at equal
  have between : Equal read.root read'.root := ⟨equal, same_symm read.formed read'.formed equal⟩
  have moved : Alike old.root new.root oldPayload newPayload ↔
      Alike old.root new.root read.root read'.root := by
    constructor
    · intro alike path shape
      exact ((here.alike path shape).symm.trans (alike path shape)).trans (there.alike path shape)
    · intro alike path shape
      exact ((here.alike path shape).trans (alike path shape)).trans (there.alike path shape).symm
  rw [moved, alike_iff between.same between.back]
  constructor
  · exact fun leads target mentions => leads target (mentions.of_same here.same here.back)
  · exact fun leads target mentions => leads target (mentions.of_same here.back here.same)

theorem walked_of_compatible (reads : ReadsBack external)
    (publication : Publication external yaml channel name old oldPayload text)
    (publication' : Publication external yaml' channel name new newPayload text')
    (compatible : checkPayloadCompatible external text text' = .ok ()) :
    Walked oldPayload newPayload := by
  obtain ⟨read, parsed, here⟩ := publication.reads reads
  obtain ⟨read', parsed', there⟩ := publication'.reads reads
  simp only [checkPayloadCompatible, parsed, parsed', checkSchemaCompatible, schemaMismatch]
    at compatible
  refine ⟨read.root, read'.root, here, there, read.root.depth + 1, "payload", by omega, ?_⟩
  cases walked : findSchemaMismatch (read.root.depth + 1) "payload" read.root read'.root with
  | ok => rfl
  | error mismatch => simp [walked, Except.mapError] at compatible

end Publications

section SharedReference

def sharedReference : Value := referenceTo "#/components/schemas/S"

def sharedText : String := "$ref: '#/components/schemas/S'\n"

/-- A document that publishes one message, with a payload given among its components. -/
def sharingRoot (type : String) : Value :=
  .object [("asyncapi", .string "2.0.0"), ("info", .object [("version", .string "1")]),
    ("channels", .object [("c", .object [("publish", .object [("message",
      .object [("name", .string "m"), ("payload", sharedReference)])])])]),
    ("components", .object [("schemas", .object [("S", payloadRoot type)])])]

def sharingText (type : String) : String := "shares " ++ type

def sharingDocument (type : String) : ParsedDocument where
  root := sharingRoot type
  formed := by
    simp [sharingRoot, sharedReference, referenceTo, payloadRoot, Value.WellFormed,
      Value.WellFormedEntries]

def sharedDocument : ParsedDocument where
  root := sharedReference
  formed := by simp [sharedReference, referenceTo, Value.WellFormed, Value.WellFormedEntries]

def sharingLibrary : Library where
  documents := [(sharingText "string", sharingDocument "string"),
    (sharingText "integer", sharingDocument "integer"), (sharedText, sharedDocument)]
  snippets := [(sharingRoot "string", sharingText "string"),
    (sharingRoot "integer", sharingText "integer"), (sharedReference, sharedText)]

def sharingService : Deployment := quietService sharingLibrary

theorem readsBack_of {library : Library} (known : ∀ entry ∈ library.snippets, ∃ document,
    library.read entry.2 = .ok document ∧ document.root = entry.1) :
    ReadsBack (asciiPlatform library) := by
  intro value text _ written
  change library.write value = .ok text at written
  unfold Library.write at written
  split at written
  · rename_i entry found
    cases written
    obtain ⟨document, read, root⟩ := known entry (List.mem_of_find?_eq_some found)
    refine ⟨document, read, ?_⟩
    have alike := @List.find?_some _ (fun entry : Value × String => entry.1.same value) _ _ found
    rw [root]
    exact alike
  · cases written

theorem sharing_readsBack : ReadsBack sharingService.external := by
  refine readsBack_of fun entry among => ?_
  simp only [sharingLibrary, List.mem_cons, List.not_mem_nil, or_false] at among
  rcases among with rfl | rfl | rfl
  · exact ⟨_, rfl, rfl⟩
  · exact ⟨_, rfl, rfl⟩
  · exact ⟨_, rfl, rfl⟩

def sharingRelease (producername type : String) : Action :=
  .provide (releaseOf producername .asyncApi (sharingText type)) none

/-- The world after the release of the owner, and an accepted release of another Producer. -/
def secondRelease? (type : String) (property : World → SpecVersionRow → Bool) : Bool :=
  (published sharingService noForms steadyEnvironment [sharingRelease "p" "string"] emptyWorld).any
    fun world => Program.returnedWith (fun _ after => after.store.specVersions.any fun row =>
      decide ((∀ earlier ∈ world.store.specVersions, earlier.standing ≠ row.standing) ∧
        row.entry.stability = .ga ∧ row.entry.apiType = .asyncApi) && property world row)
      (((sharingRelease "q" type).program sharingService noForms).run
        (World.handle steadyEnvironment) world)

/-- An accepted release of the second Producer, after that of the owner. -/
structure Joins (type : String) (world after : World) (outcome : Outcome) (row : SpecVersionRow) :
    Prop where
  owned : Publishes sharingService noForms steadyEnvironment emptyWorld world
  ran : ((sharingRelease "q" type).program sharingService noForms).run
    (World.handle steadyEnvironment) world = some (.ok outcome, after)
  among : row ∈ after.store.specVersions
  fresh : ∀ earlier ∈ world.store.specVersions, earlier.standing ≠ row.standing
  released : row.entry.stability = .ga
  kind : row.entry.apiType = .asyncApi

theorem joins_of_secondRelease? {type : String} {property : World → SpecVersionRow → Bool}
    (evaluated : secondRelease? type property = true) :
    ∃ world after outcome row, Joins type world after outcome row ∧ property world row = true := by
  obtain ⟨world, owned, evaluated⟩ := (Option.any_eq_true _ _).mp evaluated
  obtain ⟨outcome, after, ran, evaluated⟩ := Program.returnedWith_spec evaluated
  obtain ⟨row, among, evaluated⟩ := List.any_eq_true.mp evaluated
  obtain ⟨fits, holds⟩ := Bool.and_eq_true_iff.mp evaluated
  obtain ⟨fresh, released, kind⟩ := of_decide_eq_true fits
  exact ⟨world, after, outcome, row,
    ⟨publishes_of_published owned, ran, among, fresh, released, kind⟩, holds⟩

theorem sharing_publishes (type : String) (known : type = "string" ∨ type = "integer") :
    Publication sharingService.external (sharingText type) "c" "m" (sharingDocument type)
      sharedReference sharedText where
  read := by rcases known with rfl | rfl <;> rfl
  formed := sharedDocument.formed
  written := rfl
  published := by
    refine ⟨[⟨"c", "m", sharedText, false⟩], ?_, _, List.mem_cons_self, rfl, rfl, rfl⟩
    rcases known with rfl | rfl
    · decide +kernel
    · decide +kernel

theorem sharing_found (type : String) : resolveJsonPointer (sharingRoot type)
    "#/components/schemas/S" = some (payloadRoot type) := by rfl

/-- The type that the shared payload shows is that of the schema of its own document. -/
theorem sharing_shows {type text : String} :
    Shows (sharingRoot type) sharedReference [.key "type"] (.string text) ↔ text = type := by
  constructor
  · intro shown
    cases shown with
    | inside given => cases given
    | follow refers found rest =>
        cases refers
        rw [sharing_found] at found
        cases found
        have below : childAt (payloadRoot type) (.key "type") = some (.string type) := rfl
        rw [shows_below rfl below] at rest
        cases rest with
        | here => rfl
        | follow refers => cases refers
  · rintro rfl
    exact .follow rfl (sharing_found text) (.inside rfl rfl (.here rfl))

end SharedReference

end Sanshain.Guarantees
