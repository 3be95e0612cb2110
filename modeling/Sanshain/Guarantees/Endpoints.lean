import Sanshain.Document.EndpointLoss
import Sanshain.Guarantees.Clients

namespace Sanshain.Guarantees

open Sanshain.Data Sanshain.Domain Sanshain.Document Sanshain.Effects Sanshain.Application
open Sanshain.Infrastructure

section Storable

variable {external : External} {params : ProvideSpecParams}

theorem records_nodup_iff (submission : Submission external params) :
    (submission.records.map endpointKey).Nodup ↔
      DeclaresOnce external params.apiType params.normalContent := by
  have injective : Function.Injective fun key : String × String => (params.apiType, key.1, key.2) :=
    fun first second same => Prod.mk.inj same |>.2
  have keys : submission.records.map endpointKey = (submission.endpoints.map
      fun endpoint => (endpoint.path, endpoint.method)).map fun key => (params.apiType, key.1, key.2) := by
    rw [Submission.records, List.map_map, List.map_map]
    rfl
  rw [keys, List.nodup_map_iff injective]
  exact paths_nodup_iff (parseSpec_endpoints submission.parses)

/-- Where the entry itself can be written and no events go with it, the write is refused for its
endpoints or not at all. -/
theorem upsert_endpoints {store written : Store} {record : UpsertSpecVersion}
    (row : store.writeVersionRow record = .ok written) (silent : record.outbox = []) :
    if (record.endpoints.map endpointKey).Nodup then
      ∃ id, store.upsertSpecVersion record = .ok (written, id)
    else store.upsertSpecVersion record = .error (constraintFailed "UNIQUE") := by
  obtain ⟨entry, found⟩ := Store.writeVersionRow_found row
  split
  · rename_i distinct
    refine ⟨entry.entry.id, ?_⟩
    rw [Store.upsertSpecVersion, row]
    simp [found, distinct, silent, Store.writeOutbox, Except.map]
  · rename_i repeated
    rw [Store.upsertSpecVersion, row]
    simp [found, repeated]

/-- How a write goes on with the store's answer. -/
def afterWrite (record : UpsertSpecVersion) : Except RepositoryError Nat → UseCase Nat
  | .ok entryId => .done entryId
  | .error error => explainRefusedWrite record error

/-- Writing such an entry answers its identity or an internal error, and which one is decided by
its endpoints. -/
theorem writeVersion_endpoints {environment : Environment} {world : World} {written : Store}
    {record : UpsertSpecVersion} (row : world.store.writeVersionRow record = .ok written)
    (silent : record.outbox = []) (reliable : environment.fault world.steps = none) :
    if (record.endpoints.map endpointKey).Nodup then
      ∃ id after, (writeVersion record).run (World.handle environment) world = some (.ok id, after)
    else ∃ message after, (writeVersion record).run (World.handle environment) world =
      some (.error (.internal message), after) := by
  have answered : (World.handle environment world (.repo (.upsertSpecVersion record))).2 =
      (world.store.tried (world.store.upsertSpecVersion record)).2 := by
    simp only [World.handle, reliable]
    rfl
  have asks : writeVersion record =
      .call (.repo (.upsertSpecVersion record)) (afterWrite record) := by
    change Program.call _ _ = Program.call _ _
    congr 1
    funext answer
    cases answer <;> rfl
  have stepped : (writeVersion record).run (World.handle environment) world =
      (afterWrite record (World.handle environment world (.repo (.upsertSpecVersion record))).2).run
        (World.handle environment)
        (World.handle environment world (.repo (.upsertSpecVersion record))).1 := by
    rw [asks]
    rfl
  have stored := upsert_endpoints row silent
  rw [stepped, answered]
  split at stored
  · rename_i distinct
    obtain ⟨id, done⟩ := stored
    rw [if_pos distinct, done]
    exact ⟨id, _, rfl⟩
  · rename_i repeated
    rw [if_neg repeated, stored]
    exact ⟨_, _, rfl⟩

/-- The endpoints of an accepted document have distinct keys, and the store can hold them, exactly
when the document declares no endpoint twice; a Provide of any other document whose entry could
be written fails with an internal error. -/
theorem endpoints_storable_iff (external : External) (apiType : ApiType) (content : String)
    (endpoints : List OpenApiDocument.EndpointSpec)
    (parsed : parseSpecEndpoints external apiType content = .ok endpoints) :
    ((endpoints.map endpointSpecKey).Nodup ↔ DeclaresOnce external apiType content) ∧
    ∀ (params : ProvideSpecParams) (submission : Submission external params),
      params.apiType = apiType → params.normalContent = content →
      ∀ serviceId existing now environment world written,
        world.store.writeVersionRow (upsertRecord submission serviceId existing now []) =
          .ok written → environment.fault world.steps = none →
        ((∃ entryId after, (writeVersion (upsertRecord submission serviceId existing now [])).run
            (World.handle environment) world = some (.ok entryId, after)) ↔
          DeclaresOnce external apiType content) ∧
        ((∃ message after, (writeVersion (upsertRecord submission serviceId existing now [])).run
            (World.handle environment) world = some (.error (.internal message), after)) ↔
          ¬ DeclaresOnce external apiType content) := by
  refine ⟨keys_nodup_iff parsed, ?_⟩
  rintro params submission rfl rfl serviceId existing now environment world written row reliable
  have decided := writeVersion_endpoints row rfl reliable
  have distinct : ((upsertRecord submission serviceId existing now []).endpoints.map
      endpointKey).Nodup ↔ DeclaresOnce external params.apiType params.normalContent :=
    records_nodup_iff submission
  rw [← distinct]
  split at decided
  · rename_i once
    obtain ⟨id, after, ran⟩ := decided
    rw [ran]
    simp [once]
  · rename_i twice
    obtain ⟨message, after, ran⟩ := decided
    rw [ran]
    simp [twice]

/-- A service that knows the Producer "p" and none of its versions. -/
def registeredWorld : World :=
  (World.handle steadyEnvironment emptyWorld (.repo (.ensureService "p"))).1

/-- A document that publishes on one channel is stored. -/
theorem endpoints_storable_one :
    ∃ (submission : Submission (quietService channelLibrary).external
        (releaseOf "p" .asyncApi (channelText "string"))) (entryId : Nat) (after : World),
      (writeVersion (upsertRecord submission 1 none 0 [])).run (World.handle steadyEnvironment)
        registeredWorld = some (.ok entryId, after) := by
  have reads : (readSubmission (quietService channelLibrary).external
    (releaseOf "p" .asyncApi (channelText "string")) {}).isOk = true := by decide +kernel
  cases read : readSubmission (quietService channelLibrary).external
      (releaseOf "p" .asyncApi (channelText "string")) {} with
  | error error =>
      rw [read] at reads
      cases reads
  | ok submission =>
      have normal : (releaseOf "p" .asyncApi (channelText "string")).normalContent =
          channelText "string" := by decide +kernel
      have parsed := parseSpec_endpoints submission.parses
      rw [normal] at parsed
      have document : (quietService channelLibrary).external.parseValue (channelText "string") =
          .ok ⟨channelRoot "string", channelRoot_formed "string"⟩ := by
        simp [quietService, asciiPlatform, channelLibrary, Library.read, Entries.get?_cons]
      have once : DeclaresOnce (quietService channelLibrary).external .asyncApi
          (channelText "string") := by
        intro other found third
        rw [document] at found
        cases found
        exact absurd third (by decide)
      have stored := (endpoints_storable_iff _ _ _ _ parsed).2 _ submission rfl normal 1 none 0
        steadyEnvironment registeredWorld _ rfl rfl
      exact ⟨submission, stored.1.mpr once⟩

def operationRoot (action : String) : Value :=
  .object [("action", .string action), ("channel", .object [("$ref", .string "#/channels/c")])]

/-- A document with these operations, each of them on the one channel. -/
def operationsRoot (operations : List (String × String)) : Value :=
  .object [("asyncapi", .string "3.0.0"), ("info", .object [("version", .string "1")]),
    ("channels", .object [("c", .object [])]),
    ("operations", .object (operations.map fun entry => (entry.1, operationRoot entry.2)))]

def operationsText (operations : List (String × String)) : String :=
  "asyncapi: 3.0.0\ninfo:\n  version: '1'\nchannels:\n  c: \x7b\x7d\noperations:\n" ++
    String.join (operations.map fun entry => "  " ++ entry.1 ++ ":\n    action: " ++ entry.2 ++
      "\n    channel:\n      $ref: '#/channels/c'\n")

theorem operationsRoot_formed {operations : List (String × String)}
    (distinct : (operations.map Prod.fst).Nodup) : (operationsRoot operations).WellFormed := by
  have each : Value.WellFormedEntries
      (operations.map fun entry => (entry.1, operationRoot entry.2)) := by
    clear distinct
    induction operations with
    | nil => trivial
    | cons entry rest ih =>
        refine ⟨?_, ih⟩
        simp [operationRoot, Value.WellFormed, Value.WellFormedEntries]
  have keys : ((operations.map fun entry => (entry.1, operationRoot entry.2)).map Prod.fst).Nodup := by
    simpa [List.map_map, Function.comp_def] using distinct
  have whole : (Value.object (operations.map fun entry => (entry.1, operationRoot entry.2))).WellFormed :=
    ⟨keys, each⟩
  simp [operationsRoot, Value.WellFormed, Value.WellFormedEntries] at whole ⊢
  exact whole

def operationsDocument (operations : List (String × String))
    (distinct : (operations.map Prod.fst).Nodup) : String × ParsedDocument :=
  (operationsText operations, ⟨operationsRoot operations, operationsRoot_formed distinct⟩)

def twoSendsLibrary : Library where
  digests := [(operationsText [("a", "send"), ("b", "send")],
    "1e3a2852caf2b1bdf9c013c7edfb6570b9b97c371952e502c641c420ca7770a7")]
  documents := [operationsDocument [("a", "send"), ("b", "send")] (by decide)]
  snippets := [(operationsRoot [("pub_c", "send")], operationsText [("pub_c", "send")])]

/-- A document that sends to one channel with two operations is accepted, its endpoints share a
key, and a Provide of it fails with an internal error. -/
theorem two_sends_not_storable :
    (∃ endpoints, parseSpecEndpoints (asciiPlatform twoSendsLibrary) .asyncApi
        (operationsText [("a", "send"), ("b", "send")]) = .ok endpoints ∧ ¬ (endpoints.map endpointSpecKey).Nodup) ∧
      ∃ message after, (provideSpec (quietService twoSendsLibrary)
        (snapshotOf .asyncApi (developer 2 "alice") (operationsText [("a", "send"), ("b", "send")]))).run
          (World.handle steadyEnvironment) emptyWorld = some (.error (.internal message), after) := by
  have accepted : ((parseSpecEndpoints (asciiPlatform twoSendsLibrary) .asyncApi
      (operationsText [("a", "send"), ("b", "send")])).toOption.any fun endpoints =>
        !decide (endpoints.map endpointSpecKey).Nodup) = true := by decide +kernel
  have failed : refusedWith isInternal (fun _ => true) ((provideSpec (quietService twoSendsLibrary)
      (snapshotOf .asyncApi (developer 2 "alice") (operationsText [("a", "send"), ("b", "send")]))).run
        (World.handle steadyEnvironment) emptyWorld) = true := by decide +kernel
  constructor
  · obtain ⟨endpoints, parsed, repeated⟩ := (Option.any_eq_true _ _).mp accepted
    exact ⟨endpoints, ok_of_toOption parsed, by simpa using repeated⟩
  · obtain ⟨error, after, ran, inner, -⟩ := refusedWith_spec failed
    obtain ⟨message, rfl⟩ := (isInternal_iff error).mp inner
    exact ⟨message, after, ran⟩

end Storable

section Kept

variable {external : External} {old new : String}

/-- Between accepted documents that compare as compatible, no endpoint that was not deprecated is
lost exactly when the new document still has each of those that the comparison does not look at. -/
theorem endpoints_kept_iff (external : External) (apiType : ApiType) (old new : String)
    (endpoints later : List OpenApiDocument.EndpointSpec)
    (before : parseSpecEndpoints external apiType old = .ok endpoints)
    (after : parseSpecEndpoints external apiType new = .ok later)
    (pass : checkCompatibility external apiType old new = .pass) :
    (∀ endpoint ∈ endpoints, endpoint.deprecated = false →
        endpointSpecKey endpoint ∈ later.map endpointSpecKey) ↔
      ∀ endpoint ∈ endpoints, endpoint.deprecated = false →
        Compared external apiType old new endpoint ∨
          endpointSpecKey endpoint ∈ later.map endpointSpecKey := by
  constructor
  · exact fun kept endpoint among live => .inr (kept endpoint among live)
  · intro held endpoint among live
    rcases held endpoint among live with compared | kept
    · exact compared_kept before after pass among live compared
    · exact kept

/-- A document that publishes message "m" on channel "c" is compatible with itself. -/
theorem endpoints_kept_itself :
    ∃ endpoints, parseSpecEndpoints (quietService channelLibrary).external .asyncApi
        (channelText "string") = .ok endpoints ∧
      ∀ endpoint ∈ endpoints, endpoint.deprecated = false →
        endpointSpecKey endpoint ∈ endpoints.map endpointSpecKey := by
  have accepted : (parseSpecEndpoints (quietService channelLibrary).external .asyncApi
    (channelText "string")).isOk = true := by decide +kernel
  have pass : checkCompatibility (quietService channelLibrary).external .asyncApi
    (channelText "string") (channelText "string") = .pass := by decide +kernel
  cases parsed : parseSpecEndpoints (quietService channelLibrary).external .asyncApi
      (channelText "string") with
  | error error =>
      rw [parsed] at accepted
      cases accepted
  | ok endpoints =>
      refine ⟨endpoints, rfl, (endpoints_kept_iff _ _ _ _ _ _ parsed parsed pass).mpr ?_⟩
      exact fun endpoint among _ => .inr (List.mem_map_of_mem among)

def turnedLibrary : Library where
  documents := [operationsDocument [("a", "send")] (by decide),
    operationsDocument [("a", "receive")] (by decide)]
  snippets := [(operationsRoot [("pub_c", "send")], operationsText [("pub_c", "send")]),
    (operationsRoot [("sub_c", "receive")], operationsText [("sub_c", "receive")])]

/-- A document that turns its one sending operation into a receiving one compares as compatible
and loses its endpoint. -/
theorem turned_operation_lost :
    checkCompatibility (asciiPlatform turnedLibrary) .asyncApi (operationsText [("a", "send")])
        (operationsText [("a", "receive")]) = .pass ∧
      ∃ endpoints later, parseSpecEndpoints (asciiPlatform turnedLibrary) .asyncApi
          (operationsText [("a", "send")]) = .ok endpoints ∧
        parseSpecEndpoints (asciiPlatform turnedLibrary) .asyncApi
          (operationsText [("a", "receive")]) = .ok later ∧
        ∃ endpoint ∈ endpoints, endpoint.deprecated = false ∧
          endpointSpecKey endpoint ∉ later.map endpointSpecKey := by
  have lost : ((parseSpecEndpoints (asciiPlatform turnedLibrary) .asyncApi
      (operationsText [("a", "send")])).toOption.any fun endpoints =>
        (parseSpecEndpoints (asciiPlatform turnedLibrary) .asyncApi
          (operationsText [("a", "receive")])).toOption.any fun later =>
            endpoints.any fun endpoint => !endpoint.deprecated &&
              !(later.map endpointSpecKey).contains (endpointSpecKey endpoint)) = true := by
    decide +kernel
  refine ⟨by decide +kernel, ?_⟩
  obtain ⟨endpoints, before, among⟩ := (Option.any_eq_true _ _).mp lost
  obtain ⟨later, after, some⟩ := (Option.any_eq_true _ _).mp among
  obtain ⟨endpoint, held, gone⟩ := List.any_eq_true.mp some
  refine ⟨endpoints, later, ok_of_toOption before, ok_of_toOption after, endpoint, held, ?_⟩
  simpa using gone

end Kept
end Sanshain.Guarantees
