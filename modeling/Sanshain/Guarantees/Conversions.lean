import Sanshain.Document.Platform
import Sanshain.Document.Rewriting

namespace Sanshain.Guarantees

open Sanshain.Data Sanshain.Document Sanshain.Document.AsyncApiDocument Sanshain.Text

section Meaning

/-- A schema that the kept messages ask for, or that one of these refers to: its name, the document
it stands in, and the schema. -/
inductive ReachedSchema (external : External) (snippets : List String) (enters : String → Bool) :
    String → Value → Value → Prop
  | payload {snippet name : String} {document : ParsedDocument} {messages : List KeptMessage}
      {message : KeptMessage} {schema : Value} (among : snippet ∈ snippets)
      (parsed : external.parseValue snippet = .ok document)
      (kept : keptMessages document.root = .ok messages) (there : message ∈ messages)
      (asked : payloadSchema document.root message = .ok (some (name, schema))) :
      ReachedSchema external snippets enters name document.root schema
  | reference {name reference : String} {root schema target : Value}
      (before : ReachedSchema external snippets enters name root schema)
      (among : reference ∈ referencesIn enters schema)
      (carried : carriedSchema root reference = some target) :
      ReachedSchema external snippets enters (referenceName reference) root target

/-- The messages of a snippet can be read, and so can what each of them asks for. -/
def ReadableSnippet (external : External) (snippet : String) : Prop :=
  ∃ document messages, external.parseValue snippet = .ok document ∧
    keptMessages document.root = .ok messages ∧
    ∀ message ∈ messages, ∃ payload, payloadSchema document.root message = .ok payload

/-- Snippets whose schemas can stand side by side. -/
structure Convertible (external : External) (snippets : List String) : Prop where
  readable : ∀ snippet ∈ snippets, ReadableSnippet external snippet
  resolved : ∀ name root schema, ReachedSchema external snippets anyKey name root schema →
    ∀ reference ∈ referencesIn anyKey schema, ∃ target,
      resolveJsonPointer root reference = some target
  alike : ∀ name root schema root' schema', ReachedSchema external snippets anyKey name root schema →
    ReachedSchema external snippets anyKey name root' schema' →
    (rewritten schema).same (rewritten schema') = true
  entered : ∀ name root schema, ReachedSchema external snippets anyKey name root schema →
    ∀ reference ∈ hiddenReferences schema, (∃ segments, schemaSegments reference = some segments) ∧
      ∃ root' schema', ReachedSchema external snippets besidesRef (referenceName reference) root' schema'

/-- The conversion answers with the document of these schemas. -/
def AnswersWith (external : External) (snippets : List String) (service version : String)
    (schemas : IndexMap String Value) : Prop :=
  addSnippets external ∅ snippets = some (.ok schemas) ∧
    ∃ text, external.writeValue (schemasDocument service version schemas) = .ok text ∧
      toOpenapiSchemas external snippets service version = some (.ok text)

def SameSchemas (schemas others : IndexMap String Value) : Prop :=
  ∀ name schema, schemas.get? name = some schema →
    ∃ other, others.get? name = some other ∧ schema.same other = true

/-- The schemas of an answer refer to each other only, and hold each source under a name of its own. -/
structure ClosedAnswer (external : External) (snippets : List String) (service version : String)
    (schemas : IndexMap String Value) : Prop where
  closed : ∀ name schema, schemas.get? name = some schema →
    ∀ reference ∈ referencesIn anyKey schema, startsWith schemasPath reference = true ∧
      ∃ target, resolveJsonPointer (schemasDocument service version schemas) reference = some target
  carried : ∀ name root schema, ReachedSchema external snippets anyKey name root schema →
    (∀ reference ∈ referencesIn anyKey schema, ∃ target,
      resolveJsonPointer root reference = some target) ∧
    ∃ held, schemas.get? name = some held ∧ held.same (rewritten schema) = true
  apart : ∀ name root schema root' schema', ReachedSchema external snippets anyKey name root schema →
    ReachedSchema external snippets anyKey name root' schema' →
    (rewritten schema).same (rewritten schema') = true

/-- The conversion ends, its answers are closed, and no order of the snippets changes them. -/
structure SoundConversion (external : External) (snippets : List String) (service version : String) :
    Prop where
  ends : ∃ outcome, toOpenapiSchemas external snippets service version = some outcome
  closed : ∀ schemas, AnswersWith external snippets service version schemas →
    ClosedAnswer external snippets service version schemas
  stable : ∀ order, order.Perm snippets →
    (∀ schemas, AnswersWith external snippets service version schemas →
      ∃ others, AnswersWith external order service version others ∧ SameSchemas schemas others ∧
        SameSchemas others schemas) ∧
    ∀ others, AnswersWith external order service version others →
      ∃ schemas, AnswersWith external snippets service version schemas

end Meaning

section Hoisted

/-- A schema, the document its references are resolved in, and where it was asked for. -/
structure SchemaSource where
  root : Value
  node : Value
  location : String

/-- The hoisting of the schemas of a document, each in its rewritten form. -/
def schemaHoisting : Hoisting String SchemaSource Value String where
  form source := (rewriteRefs source.root source.location source.node).map fun outcome =>
    (outcome.1, outcome.2.map fun entry => (entry.1, ⟨source.root, entry.2, source.location⟩))
  alike existing schema := existing.same schema
  clash source name :=
    s!"{source.location}: two different schemas would both be named '{name}' — rename one of them in the AsyncAPI spec to use format=openapi"

theorem insertSchema_eq (root : Value) (location : String) (depth : ℕ)
    (schemas : IndexMap String Value) (name : String) (schema : Value) :
    insertSchema root location depth schemas name schema =
      schemaHoisting.hold depth schemas name ⟨root, schema, location⟩ := by
  induction depth generalizing schemas name schema with
  | zero => rfl
  | succ depth ih =>
      have formed : schemaHoisting.form ⟨root, schema, location⟩ =
          (rewriteRefs root location schema).map fun outcome =>
            (outcome.1, outcome.2.map fun entry => (entry.1, ⟨root, entry.2, location⟩)) := rfl
      rw [insertSchema, Hoisting.hold, formed]
      cases rewriteRefs root location schema with
      | error reason => rfl
      | ok outcome =>
          obtain ⟨form, pending⟩ := outcome
          simp only [Except.map]
          cases schemas.get? name with
          | some existing => rfl
          | none => exact Hoisting.holdEach_map ih pending

/-- A source is taken up with depth for every reference that can turn up. -/
def holdSource (schemas : IndexMap String Value) (name : String) (source : SchemaSource) :
    Option (Except String (IndexMap String Value)) :=
  schemaHoisting.hold (insertDepth source.root source.node) schemas name source

def askedSource (root : Value) (message : KeptMessage) : Option (String × SchemaSource) :=
  match payloadSchema root message with
  | .ok (some (name, schema)) => some (name, ⟨root, schema, message.location⟩)
  | _ => none

/-- The named sources that a snippet asks for. -/
def snippetSources (external : External) (snippet : String) : List (String × SchemaSource) :=
  match external.parseValue snippet with
  | .error _ => []
  | .ok document =>
      match keptMessages document.root with
      | .error _ => []
      | .ok messages => messages.filterMap (askedSource document.root)

variable {external : External} {snippets : List String} {snippet name : String} {root : Value}
  {schemas after : IndexMap String Value} {source : SchemaSource}

theorem addPayloads_readable {messages : List KeptMessage}
    (done : addPayloads root schemas messages = some (.ok after)) :
    ∀ message ∈ messages, ∃ payload, payloadSchema root message = .ok payload := by
  induction messages generalizing schemas with
  | nil => simp
  | cons message rest ih =>
      rw [addPayloads] at done
      cases first : addMessagePayload root schemas message with
      | none => simp [first] at done
      | some outcome =>
          cases outcome with
          | error reason => simp [first] at done
          | ok next =>
              rw [first] at done
              intro other among
              rcases List.mem_cons.mp among with rfl | among
              · rw [addMessagePayload] at first
                cases asked : payloadSchema root other with
                | error reason => simp [asked] at first
                | ok payload => exact ⟨payload, rfl⟩
              · exact ih done other among

theorem addPayloads_eq {messages : List KeptMessage}
    (readable : ∀ message ∈ messages, ∃ payload, payloadSchema root message = .ok payload) :
    addPayloads root schemas messages =
      Hoisting.holdEach holdSource schemas (messages.filterMap (askedSource root)) := by
  induction messages generalizing schemas with
  | nil => rfl
  | cons message rest ih =>
      have later (schemas) := @ih schemas fun other among =>
        readable other (List.mem_cons_of_mem _ among)
      obtain ⟨payload, asked⟩ := readable message List.mem_cons_self
      rw [addPayloads, addMessagePayload, asked]
      cases payload with
      | none =>
          have nothing : askedSource root message = none := by rw [askedSource, asked]
          rw [List.filterMap_cons_none nothing]
          exact later schemas
      | some entry =>
          obtain ⟨name, schema⟩ := entry
          have named : askedSource root message = some (name, ⟨root, schema, message.location⟩) := by
            rw [askedSource, asked]
          rw [List.filterMap_cons_some named, Hoisting.holdEach, holdSource, ← insertSchema_eq]
          simp only
          cases insertSchema root message.location (insertDepth root schema) schemas name schema with
          | none => rfl
          | some outcome =>
              cases outcome with
              | error reason => rfl
              | ok next => exact later next

theorem form_ok {form : Value} {leads : List (String × SchemaSource)}
    (formed : schemaHoisting.form source = .ok (form, leads)) : form = rewritten source.node ∧
      ∃ pending, leads = pending.map (fun entry => (entry.1, ⟨source.root, entry.2, source.location⟩)) ∧
        List.Forall₂ (LeadsTo source.root) (referencesIn besidesRef source.node) pending := by
  cases done : rewriteRefs source.root source.location source.node with
  | error reason => simp [schemaHoisting, done, Except.map] at formed
  | ok outcome =>
      obtain ⟨schema, pending⟩ := outcome
      simp only [schemaHoisting, done, Except.map, Except.ok.injEq, Prod.mk.injEq] at formed
      obtain ⟨rfl, rfl⟩ := formed
      obtain ⟨rewritten, follow⟩ := rewriteRefs_ok source.node done
      exact ⟨rewritten, pending, rfl, follow⟩

theorem form_total (resolved : ∀ reference ∈ referencesIn besidesRef source.node,
    ∃ target, resolveJsonPointer source.root reference = some target) :
    ∃ form leads, schemaHoisting.form source = .ok (form, leads) := by
  obtain ⟨outcome, done⟩ := @rewriteRefs_total source.root source.location source.node resolved
  exact ⟨_, _, by simp only [schemaHoisting, done, Except.map]; rfl⟩

/-- The references of a schema and its document are enough for the recursion. -/
theorem holdSource_ne_none : holdSource schemas name source ≠ none := by
  let texts := referencesIn anyKey source.node ++ referencesIn anyKey source.root
  have closed (origin : SchemaSource) (form : Value) (leads : List (String × SchemaSource))
      (within : origin.root = source.root ∧
        ∀ reference ∈ referencesIn anyKey origin.node, reference ∈ texts)
      (formed : schemaHoisting.form origin = .ok (form, leads)) :
      ∀ entry ∈ leads, entry.1 ∈ name :: texts.map referenceName ∧
        entry.2.root = source.root ∧
          ∀ reference ∈ referencesIn anyKey entry.2.node, reference ∈ texts := by
    obtain ⟨_, pending, rfl, follow⟩ := form_ok formed
    intro entry among
    obtain ⟨lead, there, rfl⟩ := List.mem_map.mp among
    obtain ⟨reference, inner, _, named, carried⟩ := exists_left follow there
    refine ⟨List.mem_cons_of_mem _ (List.mem_map.mpr ⟨reference, ?_, named.symm⟩), within.1,
      fun further deeper => ?_⟩
    · exact within.2 reference ((mem_references origin.node).mpr (.inl inner))
    · rw [within.1] at carried
      exact List.mem_append_right _ (references_of_carried carried deeper)
  refine Hoisting.hold_ne_none closed _ List.mem_cons_self
    ⟨rfl, fun reference among => List.mem_append_left _ among⟩ ?_
  have bounded : (Hoisting.vacant (name :: texts.map referenceName) schemas).length ≤
      texts.length + 1 := by
    refine (List.length_filter_le _ _).trans_eq ?_
    rw [List.length_cons, List.length_map]
  exact Nat.lt_succ_of_le bounded

theorem addSnippet_readable (done : addSnippet external schemas snippet = some (.ok after)) :
    ReadableSnippet external snippet := by
  rw [addSnippet] at done
  cases parsed : external.parseValue snippet with
  | error reason => simp [parsed] at done
  | ok document =>
      simp only [parsed] at done
      cases kept : keptMessages document.root with
      | error reason => simp [kept] at done
      | ok messages =>
          simp only [kept] at done
          exact ⟨document, messages, parsed, kept, addPayloads_readable done⟩

theorem addSnippet_eq (readable : ReadableSnippet external snippet) :
    addSnippet external schemas snippet =
      Hoisting.holdEach holdSource schemas (snippetSources external snippet) := by
  obtain ⟨document, messages, parsed, kept, each⟩ := readable
  rw [addSnippet, snippetSources, parsed]
  simp only [kept]
  exact addPayloads_eq each

theorem addPayloads_ne_none {messages : List KeptMessage} :
    addPayloads root schemas messages ≠ none := by
  induction messages generalizing schemas with
  | nil => simp [addPayloads]
  | cons message rest ih =>
      rw [addPayloads]
      have first : addMessagePayload root schemas message ≠ none := by
        rw [addMessagePayload]
        split
        · simp
        · simp
        · rw [insertSchema_eq]
          exact @holdSource_ne_none _ _ ⟨root, _, message.location⟩
      cases added : addMessagePayload root schemas message with
      | none => exact absurd added first
      | some outcome =>
          cases outcome with
          | error reason => simp
          | ok next => exact ih

theorem addSnippet_ne_none : addSnippet external schemas snippet ≠ none := by
  rw [addSnippet]
  split
  · simp
  · split
    · simp
    · exact addPayloads_ne_none

theorem addSnippets_ne_none : addSnippets external schemas snippets ≠ none := by
  induction snippets generalizing schemas with
  | nil => simp [addSnippets]
  | cons snippet rest ih =>
      rw [addSnippets]
      cases first : addSnippet external schemas snippet with
      | none => exact absurd first addSnippet_ne_none
      | some outcome =>
          cases outcome with
          | error reason => simp
          | ok next => exact ih

theorem addSnippets_readable (done : addSnippets external schemas snippets = some (.ok after)) :
    ∀ snippet ∈ snippets, ReadableSnippet external snippet := by
  induction snippets generalizing schemas with
  | nil => simp
  | cons snippet rest ih =>
      rw [addSnippets] at done
      cases first : addSnippet external schemas snippet with
      | none => simp [first] at done
      | some outcome =>
          cases outcome with
          | error reason => simp [first] at done
          | ok next =>
              rw [first] at done
              intro other among
              rcases List.mem_cons.mp among with rfl | among
              · exact addSnippet_readable first
              · exact ih done other among

/-- Where every snippet can be read, its sources are taken up one after the other. -/
theorem addSnippets_eq (readable : ∀ snippet ∈ snippets, ReadableSnippet external snippet) :
    addSnippets external schemas snippets =
      Hoisting.holdEach holdSource schemas (snippets.flatMap (snippetSources external)) := by
  induction snippets generalizing schemas with
  | nil => rfl
  | cons snippet rest ih =>
      have later (schemas) := @ih schemas fun other among =>
        readable other (List.mem_cons_of_mem _ among)
      rw [addSnippets, addSnippet_eq (readable snippet List.mem_cons_self), List.flatMap_cons,
        Hoisting.holdEach_append]
      cases Hoisting.holdEach holdSource schemas (snippetSources external snippet) with
      | none => rfl
      | some outcome =>
          cases outcome with
          | error reason => rfl
          | ok next => exact later next

theorem mem_snippetSources {entry : String × SchemaSource} :
    entry ∈ snippetSources external snippet ↔ ∃ document messages message,
      external.parseValue snippet = .ok document ∧ keptMessages document.root = .ok messages ∧
      message ∈ messages ∧
      payloadSchema document.root message = .ok (some (entry.1, entry.2.node)) ∧
      entry.2.root = document.root ∧ entry.2.location = message.location := by
  rw [snippetSources]
  cases parsed : external.parseValue snippet with
  | error reason => simp
  | ok document =>
      cases kept : keptMessages document.root with
      | error reason => simp [kept]
      | ok messages =>
          simp only [kept, List.mem_filterMap, Except.ok.injEq, existsAndEq, true_and]
          refine exists_congr fun message => and_congr_right fun _ => ?_
          obtain ⟨name, root, node, location⟩ := entry
          rw [askedSource]
          split
          · rename_i asked
            simp [asked, eq_comm, and_assoc, and_left_comm]
          · rename_i other
            constructor
            · intro none
              cases none
            · intro asked
              exact absurd asked.1 (other name node)

end Hoisted

section Reaching

variable {external : External} {snippets order : List String} {name : String} {root schema : Value}
  {source : SchemaSource} {enters : String → Bool}

/-- The named sources that the snippets ask for. -/
def sourcesOf (external : External) (snippets : List String) : List (String × SchemaSource) :=
  snippets.flatMap (snippetSources external)

theorem ReachedSchema.mono (reached : ReachedSchema external snippets besidesRef name root schema) :
    ReachedSchema external snippets anyKey name root schema := by
  induction reached with
  | payload among parsed kept there asked => exact .payload among parsed kept there asked
  | reference _ among carried ih => exact .reference ih ((mem_references _).mpr (.inl among)) carried

theorem ReachedSchema.perm (reached : ReachedSchema external snippets enters name root schema)
    (same : snippets.Perm order) : ReachedSchema external order enters name root schema := by
  induction reached with
  | payload among parsed kept there asked =>
      exact .payload (same.mem_iff.mp among) parsed kept there asked
  | reference _ among carried ih => exact .reference ih among carried

theorem reachedSchema_of_reached
    (reached : schemaHoisting.Reached (sourcesOf external snippets) name source) :
    ReachedSchema external snippets besidesRef name source.root source.node := by
  induction reached with
  | start among =>
      obtain ⟨snippet, there, asked⟩ := List.mem_flatMap.mp among
      obtain ⟨document, messages, message, parsed, kept, inside, asks, same, _⟩ :=
        mem_snippetSources.mp asked
      simp only at same asks
      rw [same]
      exact .payload there parsed kept inside asks
  | lead before formed among ih =>
      obtain ⟨_, pending, rfl, follow⟩ := form_ok formed
      obtain ⟨lead, there, same⟩ := List.mem_map.mp among
      cases same
      obtain ⟨reference, inner, _, named, carried⟩ := exists_left follow there
      rw [named]
      exact .reference ih inner carried

/-- Where every reference resolves, what is reached is reached by the hoisting. -/
theorem reached_of_reachedSchema (resolved : ∀ name root schema,
      ReachedSchema external snippets anyKey name root schema →
      ∀ reference ∈ referencesIn anyKey schema, ∃ target,
        resolveJsonPointer root reference = some target)
    (reached : ReachedSchema external snippets besidesRef name root schema) :
    ∃ location, schemaHoisting.Reached (sourcesOf external snippets) name ⟨root, schema, location⟩ := by
  induction reached with
  | @payload snippet name document messages message schema among parsed kept there asked =>
      refine ⟨message.location, .start (List.mem_flatMap.mpr ⟨snippet, among, ?_⟩)⟩
      exact mem_snippetSources.mpr
        ⟨document, messages, message, parsed, kept, there, asked, rfl, rfl⟩
  | @reference name reference root schema target before among carried ih =>
      obtain ⟨location, reached⟩ := ih
      have each (other) (inside : other ∈ referencesIn besidesRef schema) :=
        resolved name root schema before.mono other ((mem_references schema).mpr (.inl inside))
      obtain ⟨form, leads, formed⟩ := @form_total ⟨root, schema, location⟩ each
      obtain ⟨_, pending, rfl, follow⟩ := form_ok formed
      obtain ⟨lead, there, _, named, held⟩ := exists_right follow among
      obtain ⟨next, node⟩ := lead
      simp only at named held
      rw [carried] at held
      cases held
      subst named
      exact ⟨location, .lead reached formed (List.mem_map.mpr ⟨_, there, rfl⟩)⟩

theorem Convertible.agree (convertible : Convertible external snippets) :
    schemaHoisting.Agree (sourcesOf external snippets) where
  formed name source reached := form_total fun reference among =>
    convertible.resolved name source.root source.node (reachedSchema_of_reached reached).mono
      reference ((mem_references source.node).mpr (.inl among))
  alike name source other form leads form' leads' reached reached' formed formed' := by
    obtain ⟨rfl, _⟩ := form_ok formed
    obtain ⟨rfl, _⟩ := form_ok formed'
    exact convertible.alike name _ _ _ _ (reachedSchema_of_reached reached).mono
      (reachedSchema_of_reached reached').mono

/-- The names that a schema leads to can be read off its rewritten form. -/
theorem leads_names {source : SchemaSource} {form : Value} {leads : List (String × SchemaSource)}
    (formed : schemaHoisting.form source = .ok (form, leads)) (name : String) :
    name ∈ leads.map Prod.fst ↔
      ∃ reference ∈ referencesIn besidesRef form, referenceName reference = name := by
  obtain ⟨rfl, pending, rfl, follow⟩ := form_ok formed
  rw [referencesIn_rewritten]
  simp only [List.mem_map, exists_exists_and_eq_and, referenceName_rewritten]
  constructor
  · rintro ⟨lead, there, rfl⟩
    obtain ⟨reference, inside, _, named, _⟩ := exists_left follow there
    exact ⟨reference, inside, named.symm⟩
  · rintro ⟨reference, inside, rfl⟩
    obtain ⟨lead, there, _, named, _⟩ := exists_right follow inside
    exact ⟨lead, there, named⟩

theorem leads_of_same (source other : SchemaSource) (form : Value)
    (leads : List (String × SchemaSource)) (form' : Value) (leads' : List (String × SchemaSource))
    (formed : schemaHoisting.form source = .ok (form, leads))
    (formed' : schemaHoisting.form other = .ok (form', leads')) (alike : form'.same form = true) :
    ∀ entry ∈ leads', entry.1 ∈ leads.map Prod.fst := by
  intro entry among
  obtain ⟨reference, inside, named⟩ :=
    (leads_names formed' entry.1).mp (List.mem_map_of_mem among)
  exact (leads_names formed entry.1).mpr ⟨reference, references_of_same form' alike inside, named⟩

end Reaching

section Answers

variable {external : External} {snippets order : List String} {service version name reference : String}
  {root schema held : Value} {schemas others : IndexMap String Value} {segments : List String}

theorem takes_of_added (added : addSnippets external ∅ snippets = some (.ok schemas)) :
    schemaHoisting.Takes (sourcesOf external snippets) ∅ schemas := by
  have whole : Hoisting.holdEach holdSource ∅ (sourcesOf external snippets) = some (.ok schemas) :=
    (addSnippets_eq (addSnippets_readable added)).symm.trans added
  refine Hoisting.takes_holdEach (fun entry _ before next step => ?_) whole
  exact Hoisting.takes_hold (insertDepth entry.2.root entry.2.node) step

/-- A schema of an answer is that of a reached source, and what it refers to is there as well. -/
theorem held_of_added (added : addSnippets external ∅ snippets = some (.ok schemas))
    (found : schemas.get? name = some held) : ∃ root schema,
      ReachedSchema external snippets besidesRef name root schema ∧ held = rewritten schema ∧
      ∀ reference ∈ referencesIn besidesRef held, ∃ next,
        schemas.get? (referenceName reference) = some next := by
  rcases (takes_of_added added).adds name held found with before | kept
  · cases before
  · obtain ⟨source, leads, reached, formed, holds⟩ := kept
    obtain ⟨same, _⟩ := form_ok formed
    refine ⟨source.root, source.node, reachedSchema_of_reached reached, same,
      fun reference inside => ?_⟩
    obtain ⟨entry, there, named⟩ :=
      List.mem_map.mp ((leads_names formed (referenceName reference)).mpr ⟨reference, inside, rfl⟩)
    obtain ⟨_, _, next, _, stands, _⟩ := holds entry there
    exact ⟨next, named ▸ stands⟩

/-- Snippets whose schemas can stand side by side are converted. -/
theorem Convertible.added (convertible : Convertible external snippets) :
    ∃ schemas, addSnippets external ∅ snippets = some (.ok schemas) := by
  have outcome : addSnippets external ∅ snippets =
      Hoisting.holdEach holdSource ∅ (sourcesOf external snippets) :=
    addSnippets_eq convertible.readable
  have accepts : schemaHoisting.Accepts (sourcesOf external snippets)
      (Hoisting.holdEach holdSource ∅ (sourcesOf external snippets)) :=
    Hoisting.accepts_holdEach
      (fun entry among before grounded => convertible.agree.accepts _ grounded (.start among))
      (fun _ _ found => by cases found)
  rcases accepts with none | ⟨schemas, done, _⟩
  · exact absurd (outcome.trans none) addSnippets_ne_none
  · exact ⟨schemas, outcome.trans done⟩

section Converted

variable (convertible : Convertible external snippets)
  (added : addSnippets external ∅ snippets = some (.ok schemas))
include convertible added

theorem held_of_beside (reached : ReachedSchema external snippets besidesRef name root schema) :
    ∃ held, schemas.get? name = some held := by
  obtain ⟨location, hoisted⟩ := reached_of_reachedSchema convertible.resolved reached
  obtain ⟨_, _, held, _, found, _⟩ := convertible.agree.holds (takes_of_added added)
    (fun source other form leads form' leads' formed formed' alike =>
      leads_of_same source other form leads form' leads' formed formed' alike) hoisted
  exact ⟨held, found⟩

/-- Everything that is reached is held, also what only a hidden reference leads to. -/
theorem held_of_reached (reached : ReachedSchema external snippets anyKey name root schema) :
    ∃ held, schemas.get? name = some held := by
  induction reached with
  | payload among parsed kept there asked =>
      exact held_of_beside convertible added (.payload among parsed kept there asked)
  | @reference name reference root schema target before among carried ih =>
      rcases (mem_references schema).mp among with beside | hidden
      · obtain ⟨held, found⟩ := ih
        obtain ⟨root', schema', reached', same, leads⟩ := held_of_added added found
        have alike := convertible.alike name root schema root' schema' before reached'.mono
        have rewrote : rewrittenReference reference ∈ referencesIn besidesRef (rewritten schema) := by
          rw [referencesIn_rewritten]
          exact List.mem_map_of_mem beside
        obtain ⟨next, there⟩ := leads (rewrittenReference reference)
          (same ▸ references_of_same _ alike rewrote)
        exact ⟨next, by rwa [referenceName_rewritten] at there⟩
      · obtain ⟨_, root', schema', reached'⟩ :=
          convertible.entered name root schema before reference hidden
        exact held_of_beside convertible added reached'

/-- What is held under a name is alike to every schema that is reached under it. -/
theorem held_same (reached : ReachedSchema external snippets anyKey name root schema) :
    ∃ held, schemas.get? name = some held ∧ held.same (rewritten schema) = true ∧
      (rewritten schema).same held = true := by
  obtain ⟨held, found⟩ := held_of_reached convertible added reached
  obtain ⟨root', schema', reached', rfl, _⟩ := held_of_added added found
  exact ⟨_, found, convertible.alike name root' schema' root schema reached'.mono reached,
    convertible.alike name root schema root' schema' reached reached'.mono⟩

end Converted

theorem startsWith_schemas (within : schemaSegments reference = some segments) :
    startsWith schemasPath reference = true := by
  obtain ⟨rest, stripped, _⟩ := Option.map_eq_some_iff.mp within
  rw [OpenApiDocument.stripPrefix_eq_some.mp stripped, startsWith, String.toList_append]
  simp

theorem stripPrefix_of_startsWith {start text : String} (starts : startsWith start text = true) :
    ∃ rest, stripPrefix start text = some rest := by
  obtain ⟨rest, whole⟩ := List.isPrefixOf_iff_prefix.mp starts
  refine ⟨String.ofList rest, OpenApiDocument.stripPrefix_eq_some.mpr (String.toList_inj.mp ?_)⟩
  rw [String.toList_append, String.toList_ofList, whole]

/-- A reference resolves in an answer where the schema of its name has the rest of its path. -/
theorem resolves_in_answer (within : schemaSegments reference = some segments)
    (found : schemas.get? (referenceName reference) = some held)
    (leads : (walk segments.tail held).isSome) : ∃ target,
      resolveJsonPointer (schemasDocument service version schemas) reference = some target := by
  have inside : schemasNode (schemasDocument service version schemas) =
      some (.object (schemas.sortKeys OpenApiDocument.textLe).entries) := rfl
  have sorted : (schemas.sortKeys OpenApiDocument.textLe).get? (referenceName reference) = some held :=
    (OpenApiDocument.get?_sortKeys _).trans found
  rw [resolve_schemas within, inside, Option.bind_some]
  obtain ⟨rest, _, split⟩ := Option.map_eq_some_iff.mp within
  cases segments with
  | nil => exact absurd split (split_ne_nil rest)
  | cons segment more =>
      have named : referenceName reference = unescaped segment := by rw [referenceName, within]; rfl
      rw [named] at sorted
      rw [walk_cons]
      obtain ⟨target, walked⟩ := Option.isSome_iff_exists.mp leads
      exact ⟨target, (congrArg (·.bind (walk more)) sorted).trans walked⟩

/-- A reference of a reached schema resolves in the answer as it is rewritten. -/
theorem resolves_rewritten (convertible : Convertible external snippets)
    (added : addSnippets external ∅ snippets = some (.ok schemas))
    (reached : ReachedSchema external snippets anyKey name root schema)
    (inside : reference ∈ referencesIn anyKey schema) :
    startsWith schemasPath (rewrittenReference reference) = true ∧ ∃ target,
      resolveJsonPointer (schemasDocument service version schemas) (rewrittenReference reference) =
        some target := by
  obtain ⟨target, found⟩ := convertible.resolved name root schema reached reference inside
  obtain ⟨whole, carried⟩ := carriedSchema_of_resolves found
  obtain ⟨held, there, _, alike⟩ := held_same convertible added (.reference reached inside carried)
  rw [← referenceName_rewritten] at there
  cases within : schemaSegments reference with
  | some segments =>
      have still : rewrittenReference reference = reference := by rw [rewrittenReference, within]
      obtain ⟨whole', carried', walked⟩ := carried_walk within found
      cases carried.symm.trans carried'
      rw [still] at there ⊢
      refine ⟨startsWith_schemas within, resolves_in_answer within there (walk_of_same alike ?_)⟩
      rw [walk_rewritten, walked]
      rfl
  | none =>
      have single : schemaSegments (rewrittenReference reference) =
          some [componentName (lastPointerSegment reference)] := by
        rw [rewrittenReference, within]
        exact schemaSegments_componentName _
      exact ⟨startsWith_schemas single, resolves_in_answer single there rfl⟩

theorem Convertible.closed (convertible : Convertible external snippets)
    (added : addSnippets external ∅ snippets = some (.ok schemas)) :
    ClosedAnswer external snippets service version schemas where
  closed name held found reference inside := by
    obtain ⟨root, schema, reached, rfl, _⟩ := held_of_added added found
    have origin : ∃ source ∈ referencesIn anyKey schema, rewrittenReference source = reference := by
      rcases (mem_references_rewritten schema).mp inside with ⟨source, beside, same⟩ | hidden
      · exact ⟨source, (mem_references schema).mpr (.inl beside), same⟩
      · obtain ⟨⟨segments, within⟩, _⟩ :=
          convertible.entered name root schema reached.mono reference hidden
        exact ⟨reference, (mem_references schema).mpr (.inr hidden), by rw [rewrittenReference, within]⟩
    obtain ⟨source, among, rfl⟩ := origin
    exact resolves_rewritten convertible added reached.mono among
  carried name root schema reached := by
    obtain ⟨held, found, same, _⟩ := held_same convertible added reached
    exact ⟨convertible.resolved name root schema reached, held, found, same⟩
  apart name root schema root' schema' reached reached' :=
    convertible.alike name root schema root' schema' reached reached'

theorem Convertible.perm (convertible : Convertible external snippets)
    (same : snippets.Perm order) : Convertible external order where
  readable snippet among := convertible.readable snippet (same.mem_iff.mpr among)
  resolved name root schema reached := convertible.resolved name root schema (reached.perm same.symm)
  alike name root schema root' schema' reached reached' :=
    convertible.alike name root schema root' schema' (reached.perm same.symm)
      (reached'.perm same.symm)
  entered name root schema reached reference hidden := by
    obtain ⟨within, root', schema', reached'⟩ :=
      convertible.entered name root schema (reached.perm same.symm) reference hidden
    exact ⟨within, root', schema', reached'.perm same⟩

theorem Convertible.sameSchemas (convertible : Convertible external snippets)
    (same : snippets.Perm order) (added : addSnippets external ∅ snippets = some (.ok schemas))
    (added' : addSnippets external ∅ order = some (.ok others)) : SameSchemas schemas others := by
  intro name held found
  obtain ⟨root, schema, reached, rfl, _⟩ := held_of_added added found
  obtain ⟨other, there, _, alike⟩ :=
    held_same (convertible.perm same) added' (reached.mono.perm same)
  exact ⟨other, there, alike⟩

theorem answersWith_iff (writes : ∀ node, ∃ text, external.writeValue node = .ok text) :
    AnswersWith external snippets service version schemas ↔
      addSnippets external ∅ snippets = some (.ok schemas) := by
  refine ⟨fun answers => answers.1, fun added => ⟨added, ?_⟩⟩
  obtain ⟨text, written⟩ := writes (schemasDocument service version schemas)
  refine ⟨text, written, ?_⟩
  rw [toOpenapiSchemas, added]
  simp only [written]
  rfl

theorem added_of_answer {text : String}
    (answer : toOpenapiSchemas external snippets service version = some (.ok text)) :
    ∃ schemas, addSnippets external ∅ snippets = some (.ok schemas) := by
  rw [toOpenapiSchemas] at answer
  split at answer
  · cases answer
  · cases answer
  · exact ⟨_, by assumption⟩

theorem toOpenapiSchemas_ends :
    ∃ outcome, toOpenapiSchemas external snippets service version = some outcome := by
  rw [toOpenapiSchemas]
  split
  · rename_i none
    exact absurd none addSnippets_ne_none
  · exact ⟨_, rfl⟩
  · exact ⟨_, rfl⟩

/-- An answer that is closed and holds everything under a name of its own shows that the schemas
can stand side by side. -/
theorem ClosedAnswer.convertible (added : addSnippets external ∅ snippets = some (.ok schemas))
    (closed : ClosedAnswer external snippets service version schemas) :
    Convertible external snippets where
  readable := addSnippets_readable added
  resolved name root schema reached := (closed.carried name root schema reached).1
  alike := closed.apart
  entered name root schema reached reference hidden := by
    have among := (mem_references schema).mpr (.inr hidden)
    obtain ⟨resolved, held, found, _⟩ := closed.carried name root schema reached
    obtain ⟨root', schema', reached', rfl, _⟩ := held_of_added added found
    have inside : reference ∈ referencesIn anyKey (rewritten schema') :=
      references_of_same _ (closed.apart name root schema root' schema' reached reached'.mono)
        ((mem_references_rewritten schema).mpr (.inr hidden))
    obtain ⟨rest, stripped⟩ : ∃ rest, stripPrefix schemasPath reference = some rest :=
      stripPrefix_of_startsWith (closed.closed name _ found reference inside).1
    obtain ⟨target, resolves⟩ := resolved reference among
    obtain ⟨whole, carried⟩ := carriedSchema_of_resolves resolves
    obtain ⟨_, next, there, _⟩ := closed.carried _ root whole (.reference reached among carried)
    obtain ⟨root'', schema'', reached'', _⟩ := held_of_added added there
    exact ⟨⟨split '/' rest, by rw [schemaSegments, stripped]; rfl⟩, root'', schema'', reached''⟩

end Answers

section Stock

/-- A document with one channel, on which messages with one payload are published. -/
def publishingRoot (channel message : String) (payload : Value) (components : Mapping) : Value :=
  .object
    [("asyncapi", .string "2.6.0"),
      ("channels", .object [(channel, .object [("publish", .object [("message", .object
        [("name", .string message), ("payload", payload)])])])]),
      ("components", .object components)]

def refNode (target : String) : Value := .object [("$ref", .string target)]

def typeNode (type : String) : Value := .object [("type", .string type)]

/-- The platform that reads some documents and writes one text. -/
def conversionPlatform (documents : Entries String ParsedDocument) (text : String) : External :=
  { asciiPlatform { documents := documents } with writeValue := fun _ => .ok text }

/-- A schema that refers to itself. -/
def nodeSchema : Value :=
  .object
    [("type", .string "object"),
      ("properties", .object [("next", refNode "#/components/schemas/Node")])]

def nodeRoot : Value :=
  publishingRoot "nodes" "Added" (refNode "#/components/schemas/Node")
    [("schemas", .object [("Node", nodeSchema)])]

def nodeDocument : ParsedDocument where
  root := nodeRoot
  formed := by
    simp [nodeRoot, publishingRoot, refNode, nodeSchema, Value.WellFormed, Value.WellFormedEntries]

def nodePlatform : External :=
  conversionPlatform [("nodes", nodeDocument)]
    "openapi: 3.0.3\ninfo:\n  title: nodes message schemas\n  version: 1.0.0\npaths: \x7b\x7d\ncomponents:\n  schemas:\n    Node:\n      type: object\n      properties:\n        next:\n          $ref: '#/components/schemas/Node'\n"

theorem isV3_publishingRoot {channel message : String} {payload : Value} {components : Mapping} :
    isV3 (publishingRoot channel message payload components) = false :=
  show startsWith "3." "2.6.0" = false by decide +kernel

theorem nodePlatform_parses {document : ParsedDocument}
    (parsed : nodePlatform.parseValue "nodes" = .ok document) : document.root = nodeRoot := by
  have stored : nodePlatform.parseValue "nodes" = .ok nodeDocument := rfl
  cases stored.symm.trans parsed
  rfl

theorem kept_nodeRoot : ∃ message, keptMessages nodeRoot = .ok [message] ∧
    payloadSchema nodeRoot message = .ok (some ("Node", nodeSchema)) := by
  have second : keptMessages nodeRoot = keptMessagesV2 nodeRoot := by
    rw [keptMessages, nodeRoot, isV3_publishingRoot, if_neg Bool.false_ne_true]
  exact ⟨_, second.trans rfl, rfl⟩

theorem nodes_reached {enters : String → Bool} {name : String} {root schema : Value}
    (plain : referencesIn enters nodeSchema = ["#/components/schemas/Node"])
    (reached : ReachedSchema nodePlatform ["nodes"] enters name root schema) :
    name = "Node" ∧ root = nodeRoot ∧ schema = nodeSchema := by
  obtain ⟨asking, only, asks⟩ := kept_nodeRoot
  induction reached with
  | payload among parsed kept there asked =>
      rw [List.mem_singleton.mp among] at parsed
      have same := nodePlatform_parses parsed
      rw [same] at kept asked ⊢
      cases only.symm.trans kept
      rw [List.mem_singleton.mp there] at asked
      cases asks.symm.trans asked
      exact ⟨rfl, rfl, rfl⟩
  | reference _ among carried ih =>
      obtain ⟨_, rfl, rfl⟩ := ih
      rw [plain, List.mem_singleton] at among
      subst among
      have itself : carriedSchema nodeRoot "#/components/schemas/Node" = some nodeSchema := rfl
      cases itself.symm.trans carried
      exact ⟨by decide +kernel, rfl, rfl⟩

theorem nodes_convertible : Convertible nodePlatform ["nodes"] where
  readable snippet among := by
    obtain ⟨asking, only, asks⟩ := kept_nodeRoot
    rw [List.mem_singleton.mp among]
    refine ⟨nodeDocument, [asking], rfl, only, fun message there => ?_⟩
    rw [List.mem_singleton.mp there]
    exact ⟨_, asks⟩
  resolved name root schema reached reference inside := by
    obtain ⟨_, rfl, rfl⟩ := nodes_reached rfl reached
    have single : referencesIn anyKey nodeSchema = ["#/components/schemas/Node"] := rfl
    rw [single, List.mem_singleton] at inside
    subst inside
    exact ⟨nodeSchema, rfl⟩
  alike name root schema root' schema' reached reached' := by
    obtain ⟨_, _, rfl⟩ := nodes_reached rfl reached
    obtain ⟨_, _, rfl⟩ := nodes_reached rfl reached'
    decide +kernel
  entered name root schema reached reference hidden := by
    obtain ⟨_, _, rfl⟩ := nodes_reached rfl reached
    cases hidden

def eventPayload (message : String) : Value :=
  .object [("allOf", .array [refNode ("#/components/messages/" ++ message ++ "/payload")])]

/-- A document whose messages have the payload of one of two others. -/
def eventRoot (channel message : String) : Value :=
  publishingRoot channel "Event" (eventPayload message)
    [("messages", .object
      [("Account", .object [("payload", typeNode "object")]),
        ("Audit", .object [("payload", typeNode "string")])])]

def eventDocument (channel message : String) : ParsedDocument where
  root := eventRoot channel message
  formed := by
    simp [eventRoot, eventPayload, publishingRoot, refNode, typeNode, Value.WellFormed, Value.WellFormedEntries,
      Value.WellFormedItems]

def eventPlatform : External :=
  conversionPlatform
    [("accounts", eventDocument "accounts" "Account"), ("audits", eventDocument "audits" "Audit")]
    "openapi: 3.0.3\ninfo:\n  title: events message schemas\n  version: 1.0.0\npaths: \x7b\x7d\ncomponents:\n  schemas:\n    EventPayload:\n      allOf:\n      - $ref: '#/components/schemas/payload'\n    payload:\n      type: object\n"

theorem kept_eventRoot (channel message : String) : ∃ kept,
    keptMessages (eventRoot channel message) = .ok [kept] ∧
      payloadSchema (eventRoot channel message) kept =
        .ok (some ("EventPayload", eventPayload message)) := by
  have second : keptMessages (eventRoot channel message) =
      keptMessagesV2 (eventRoot channel message) := by
    rw [keptMessages, eventRoot, isV3_publishingRoot, if_neg Bool.false_ne_true]
  exact ⟨_, second.trans rfl, rfl⟩

theorem event_reached {snippet channel message type : String}
    (among : snippet ∈ ["accounts", "audits"])
    (parsed : eventPlatform.parseValue snippet = .ok (eventDocument channel message))
    (carried : carriedSchema (eventRoot channel message)
      ("#/components/messages/" ++ message ++ "/payload") = some (typeNode type))
    (named : referenceName ("#/components/messages/" ++ message ++ "/payload") = "payload") :
    ReachedSchema eventPlatform ["accounts", "audits"] anyKey "payload"
      (eventRoot channel message) (typeNode type) := by
  obtain ⟨kept, only, asks⟩ := kept_eventRoot channel message
  rw [← named]
  exact .reference (.payload among parsed only List.mem_cons_self asks) List.mem_cons_self carried

end Stock

/-- The conversion is sound exactly when every reference that is reached resolves, every name
stands for one schema, and nothing is reached by hidden references only; or when no order of the
snippets is answered at all. -/
theorem sound_conversion_iff (external : External) (snippets : List String) (service version : String)
    (writes : ∀ node, ∃ text, external.writeValue node = .ok text) :
    SoundConversion external snippets service version ↔
      Convertible external snippets ∨ ∀ order, order.Perm snippets → ∀ text,
        toOpenapiSchemas external order service version ≠ some (.ok text) := by
  constructor
  · intro sound
    by_cases refused : ∀ order, order.Perm snippets → ∀ text,
        toOpenapiSchemas external order service version ≠ some (.ok text)
    · exact .inr refused
    · left
      push Not at refused
      obtain ⟨order, same, text, answer⟩ := refused
      obtain ⟨others, added⟩ := added_of_answer answer
      obtain ⟨schemas, answers⟩ :=
        (sound.stable order same).2 others ((answersWith_iff writes).mpr added)
      exact (sound.closed schemas answers).convertible answers.1
  · rintro (convertible | refused)
    · refine ⟨toOpenapiSchemas_ends, fun schemas answers => convertible.closed answers.1,
        fun order same => ⟨fun schemas answers => ?_, fun others _ => ?_⟩⟩
      · have again := convertible.perm same.symm
        obtain ⟨others, added⟩ := again.added
        exact ⟨others, (answersWith_iff writes).mpr added,
          convertible.sameSchemas same.symm answers.1 added,
          again.sameSchemas same added answers.1⟩
      · obtain ⟨schemas, added⟩ := convertible.added
        exact ⟨schemas, (answersWith_iff writes).mpr added⟩
    · refine ⟨toOpenapiSchemas_ends, fun schemas answers => ?_, fun order same =>
        ⟨fun schemas answers => ?_, fun others answers => ?_⟩⟩
      · obtain ⟨_, text, _, answer⟩ := answers
        exact absurd answer (refused snippets (List.Perm.refl _) text)
      · obtain ⟨_, text, _, answer⟩ := answers
        exact absurd answer (refused snippets (List.Perm.refl _) text)
      · obtain ⟨_, text, _, answer⟩ := answers
        exact absurd answer (refused order same text)

theorem sound_conversion_recursive : SoundConversion nodePlatform ["nodes"] "nodes" "1.0.0" :=
  (sound_conversion_iff nodePlatform ["nodes"] "nodes" "1.0.0" fun _ => ⟨_, rfl⟩).mpr
    (.inl nodes_convertible)

/-- The schemas of both payloads are spelled alike, so the message that the second one refers to is
not looked at: its payload is missing, and the order of the snippets decides which one it is. -/
theorem second_payload_is_conflated :
    ¬SoundConversion eventPlatform ["accounts", "audits"] "events" "1.0.0" := by
  intro sound
  have accepted : (addSnippets eventPlatform ∅ ["accounts", "audits"]).any Except.isOk = true := by
    decide +kernel
  obtain ⟨outcome, added, ended⟩ := (Option.any_eq_true _ _).mp accepted
  cases outcome with
  | error reason => cases ended
  | ok schemas =>
      have answers : AnswersWith eventPlatform ["accounts", "audits"] "events" "1.0.0" schemas :=
        (answersWith_iff fun _ => ⟨_, rfl⟩).mpr added
      have account : ReachedSchema eventPlatform ["accounts", "audits"] anyKey "payload"
          (eventRoot "accounts" "Account") (typeNode "object") :=
        event_reached List.mem_cons_self rfl rfl (by decide +kernel)
      have audit : ReachedSchema eventPlatform ["accounts", "audits"] anyKey "payload"
          (eventRoot "audits" "Audit") (typeNode "string") :=
        event_reached (List.mem_cons_of_mem _ List.mem_cons_self) rfl rfl (by decide +kernel)
      cases (sound.closed schemas answers).apart "payload" _ _ _ _ account audit

end Sanshain.Guarantees
