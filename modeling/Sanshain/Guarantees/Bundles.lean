import Sanshain.Document.Merge
import Sanshain.Guarantees.Clients
import Sanshain.Guarantees.Recordings
import Sanshain.Guarantees.Runs
import Sanshain.Infrastructure.Registration

namespace Sanshain.Guarantees

open Sanshain.Data Sanshain.Domain Sanshain.Document Sanshain.Effects Sanshain.Application
open Sanshain.Infrastructure Sanshain.History
open OpenApiDocument (lookupPath)

section Requires

variable {environment : Environment} {deployment : Deployment} {forms : AnswerForms}
  {params : RequireParams}

/-- The stream a require declares among the branches there are. -/
def Declares (environment : Environment) (params : RequireParams) (branches : List BranchInfo)
    (stream : ResolvedStream) : Prop :=
  (∀ branch, stream.branch = some branch → branch ∈ branches) ∧
    ∀ world : World, world.store.branches = branches →
      (resolveStream params.trunk params.tag).Returns (World.handle environment)
        (fun found after => found = stream ∧ StoreKept world after) world

/-- An endpoint of a require as it is looked up. -/
def normalEndpoint (external : External) (params : RequireParams) (endpoint : String × String) :
    String × String :=
  (endpoint.1, methodFor external params.apiType endpoint.2)

/-- The answer to an endpoint that the pinned entry includes. -/
def included (params : RequireParams) (store : Store) (wanted : String × String) :
    Option (String × Bool) :=
  (pinnedRow params store).bind fun row =>
    store.findEndpoint row.entry.id params.apiType wanted.1 wanted.2

/-- The answer to an endpoint as it was asked for. -/
def offered (external : External) (params : RequireParams) (store : Store)
    (endpoint : String × String) : Option (String × Bool) :=
  included params store (normalEndpoint external params endpoint)

theorem offered_of_pinned {external : External} {store : Store} {row : SpecVersionRow}
    (pinned : pinnedRow params store = some row) (endpoint : String × String) :
    offered external params store endpoint = store.findEndpoint row.entry.id params.apiType endpoint.1
      (methodFor external params.apiType endpoint.2) := by
  rw [offered, included, pinned]
  rfl

theorem known_of_pinned {store : Store} {row : SpecVersionRow}
    (pinned : pinnedRow params store = some row) :
    (store.serviceName? row.entry.serviceId).isSome ∧
      (store.specVersionById? row.entry.id).isSome ∧ row.entry.apiType = params.apiType := by
  obtain ⟨service, named, found⟩ := Option.bind_eq_some_iff.mp pinned
  have key : row.key = (service.id, params.apiType, params.version) := by
    rw [Store.specVersion?] at found
    simpa using List.find?_some found
  have ids : row.entry.serviceId = service.id := congrArg Prod.fst key
  refine ⟨?_, ?_, congrArg (fun key => key.2.1) key⟩
  · rw [ids, Store.serviceName?, Option.isSome_map, List.find?_isSome]
    exact ⟨service, List.mem_of_find?_eq_some named, decide_eq_true rfl⟩
  · rw [Store.specVersionById?, List.find?_isSome]
    exact ⟨row, List.mem_of_find?_eq_some found, decide_eq_true rfl⟩

theorem endpointAnswer_native (native : params.format = .native) (snippet : String) :
    endpointAnswer forms params snippet = .done snippet := by
  unfold endpointAnswer
  rw [native]

/-- A native require of an endpoint there is answers, and records its edge. -/
theorem returns_requireEndpoint (reliable : environment.Reliable) {world : World}
    {stream : ResolvedStream} {row : SpecVersionRow} {endpoint : String × String}
    (native : params.format = .native) (fresh : FreshIds environment world)
    (declares : Declares environment params world.store.branches stream)
    (pinned : pinnedRow params world.store = some row)
    (found : (offered deployment.external params world.store endpoint).isSome) :
    (requireEndpoint deployment forms params endpoint.1 endpoint.2).Returns (World.handle environment)
      (fun _ after => Required environment params (requiredIn params world.store row.entry stream
        [normalEndpoint deployment.external params endpoint]) world.store after) world := by
  rw [offered_of_pinned pinned] at found
  obtain ⟨⟨snippet, deprecated⟩, found⟩ := Option.isSome_iff_exists.mp found
  obtain ⟨service, version, -⟩ := known_of_pinned pinned
  refine (declares.2 world rfl).bind ?_
  rintro _ reached ⟨rfl, kept⟩
  refine (returns_resolvePin params reliable (by rw [kept.1]; exact pinned)).bind ?_
  rintro ⟨serviceId, entry⟩ named ⟨rfl, later⟩
  have kept := kept.trans later
  refine (returns_reads reliable (.findEndpoint row.entry.id params.apiType endpoint.1
    (methodFor deployment.external params.apiType endpoint.2)) rfl rfl).bind ?_
  rintro _ read ⟨rfl, later⟩
  rw [kept.1, found]
  have kept := kept.trans later
  dsimp only
  rw [endpointAnswer_native native]
  have recorded := @returns_recordPins environment deployment params reliable read row.entry _
    [normalEndpoint deployment.external params endpoint] (fresh.keep kept) (by rw [kept.1]; exact service)
    (by rw [kept.1]; exact version) (by rw [kept.1]; exact declares.1)
  rw [kept.1] at recorded
  exact recorded.bind fun _ after required => .done required

/-- A require of an endpoint that is not there is refused, and writes nothing. -/
theorem refuses_requireEndpoint (reliable : environment.Reliable) {world : World}
    {stream : ResolvedStream} {endpoint : String × String}
    (declares : Declares environment params world.store.branches stream)
    (missing : offered deployment.external params world.store endpoint = none) :
    (requireEndpoint deployment forms params endpoint.1 endpoint.2).Refuses (World.handle environment)
      (fun _ after => StoreKept world after) world := by
  refine (declares.2 world rfl).bind_refuses ?_
  rintro _ reached ⟨rfl, kept⟩
  cases pinned : pinnedRow params world.store with
  | none =>
      have unpinned := refuses_resolvePin params reliable (by rw [kept.1]; exact pinned)
      exact (unpinned.mono fun _ after later => kept.trans later).bind
  | some row =>
      rw [offered_of_pinned pinned] at missing
      refine (returns_resolvePin params reliable (by rw [kept.1]; exact pinned)).bind_refuses ?_
      rintro ⟨serviceId, entry⟩ named ⟨rfl, later⟩
      have kept := kept.trans later
      refine (returns_reads reliable (.findEndpoint row.entry.id params.apiType endpoint.1
        (methodFor deployment.external params.apiType endpoint.2)) rfl rfl).bind_refuses ?_
      rintro _ read ⟨rfl, later⟩
      rw [kept.1, missing]
      exact .fail (kept.trans later)

/-- What a bundle serves, in the order of its answer. -/
def bundleServes (external : External) (params : RequireParams) (store : Store)
    (endpoints : List (String × String)) : List (String × Bool) :=
  ((endpoints.map (normalEndpoint external params)).insertionSort endpointLe).filterMap
    (included params store)

/-- A bundle that is answered: of at least one endpoint, all of them there, whose snippets are one
document where they are OpenAPI. -/
structure Answerable (external : External) (params : RequireParams) (store : Store)
    (endpoints : List (String × String)) : Prop where
  asked : endpoints ≠ []
  offers : ∀ endpoint ∈ endpoints, (offered external params store endpoint).isSome
  merges : params.apiType = .openApi → ∃ text, OpenApiDocument.mergeEndpointYamls external
    ((bundleServes external params store endpoints).map Prod.fst) = .ok text

/-- Lookups filed under what they look for. -/
theorem get?_lookups {Key Value : Type} [DecidableEq Key] (find : Key → Option Value) (wanted : Key)
    (keys : List Key) :
    Entries.get? (keys.filterMap fun key => (find key).map fun found => (key, found)) wanted =
      if wanted ∈ keys then find wanted else none := by
  induction keys with
  | nil => rfl
  | cons key rest ih =>
      rw [List.filterMap_cons]
      cases found : find key with
      | none =>
          rw [Option.map_none, ih]
          by_cases same : wanted = key
          · simp [same, found]
          · simp [same]
      | some value =>
          rw [Option.map_some, Entries.get?_cons, ih]
          by_cases same : key = wanted
          · simp [same, ← found]
          · simp [same, Ne.symm same]

/-- A bulk lookup finds each of its endpoints as a lookup of that one does. -/
theorem get?_findEndpointsBulk (store : Store) (specVersionId : ℕ) (apiType : ApiType)
    {endpoints : List (String × String)} {wanted : String × String} (among : wanted ∈ endpoints) :
    Entries.get? (store.findEndpointsBulk specVersionId apiType endpoints) wanted =
      store.findEndpoint specVersionId apiType wanted.1 wanted.2 := by
  rw [Store.findEndpointsBulk,
    get?_lookups (fun key : String × String => store.findEndpoint specVersionId apiType key.1 key.2),
    if_pos among]

theorem served_eq {external : External} {store : Store} {row : SpecVersionRow}
    (pinned : pinnedRow params store = some row) (endpoints : List (String × String)) :
    ((endpoints.map (normalEndpoint external params)).insertionSort endpointLe).filterMap
        (Entries.get? (store.findEndpointsBulk row.entry.id params.apiType
          (endpoints.map (normalEndpoint external params)))) =
      bundleServes external params store endpoints := by
  rw [bundleServes]
  apply List.filterMap_congr
  intro wanted among
  rw [get?_findEndpointsBulk store row.entry.id params.apiType
    ((List.mem_insertionSort endpointLe).mp among), included, pinned]
  rfl

theorem missing_eq_nil {external : External} {store : Store} {row : SpecVersionRow}
    (pinned : pinnedRow params store = some row) (endpoints : List (String × String)) :
    (endpoints.map (normalEndpoint external params)).filter (fun wanted =>
        (Entries.get? (store.findEndpointsBulk row.entry.id params.apiType
          (endpoints.map (normalEndpoint external params))) wanted).isNone) = [] ↔
      ∀ endpoint ∈ endpoints, (offered external params store endpoint).isSome := by
  rw [List.filter_eq_nil_iff, List.forall_mem_map]
  refine forall₂_congr fun endpoint among => ?_
  rw [get?_findEndpointsBulk store row.entry.id params.apiType (List.mem_map_of_mem among),
    offered_of_pinned pinned]
  rw [Bool.not_eq_true, Option.isNone_eq_false_iff]
  rfl

/-- The answer of a native bundle, when its snippets are one document where they are OpenAPI. -/
theorem returns_bundleAnswer (external : External) (native : params.format = .native)
    (merging : forms.mergeEndpointYamls = OpenApiDocument.mergeEndpointYamls external)
    {yamls : List String} (world : World)
    (merges : params.apiType = .openApi →
      ∃ text, OpenApiDocument.mergeEndpointYamls external yamls = .ok text) :
    (bundleAnswer forms params yamls).Returns (World.handle environment)
      (fun _ after => after = world) world := by
  unfold bundleAnswer
  rw [native]
  cases kind : params.apiType with
  | openApi =>
      obtain ⟨text, merged⟩ := merges kind
      rw [merging, merged]
      exact .done rfl
  | asyncApi => exact .done rfl
  | proto => exact .done rfl

theorem refuses_bundleAnswer (external : External) (native : params.format = .native)
    (merging : forms.mergeEndpointYamls = OpenApiDocument.mergeEndpointYamls external)
    {yamls : List String} (world : World)
    (apart : ¬(params.apiType = .openApi →
      ∃ text, OpenApiDocument.mergeEndpointYamls external yamls = .ok text)) :
    (bundleAnswer forms params yamls).Refuses (World.handle environment)
      (fun _ after => after = world) world := by
  obtain ⟨kind, unmerged⟩ := Classical.not_imp.mp apart
  unfold bundleAnswer
  rw [native, kind, merging]
  cases merged : OpenApiDocument.mergeEndpointYamls external yamls with
  | ok text => exact absurd ⟨text, merged⟩ unmerged
  | error reason => exact .fail rfl

/-- A native bundle that can be answered is, and records its edges. -/
theorem returns_requireBundle (reliable : environment.Reliable) {world : World}
    {stream : ResolvedStream} {row : SpecVersionRow} {endpoints : List (String × String)}
    (native : params.format = .native)
    (merging : forms.mergeEndpointYamls = OpenApiDocument.mergeEndpointYamls deployment.external)
    (fresh : FreshIds environment world)
    (declares : Declares environment params world.store.branches stream)
    (pinned : pinnedRow params world.store = some row)
    (answerable : Answerable deployment.external params world.store endpoints) :
    (requireBundle deployment forms params endpoints).Returns (World.handle environment)
      (fun _ after => Required environment params (requiredIn params world.store row.entry stream
        (endpoints.map (normalEndpoint deployment.external params))) world.store after) world := by
  obtain ⟨service, version, -⟩ := known_of_pinned pinned
  refine (declares.2 world rfl).bind ?_
  rintro _ reached ⟨rfl, kept⟩
  rw [if_neg (by simpa using answerable.asked)]
  refine (returns_resolvePin params reliable (by rw [kept.1]; exact pinned)).bind ?_
  rintro ⟨serviceId, entry⟩ named ⟨rfl, later⟩
  have kept := kept.trans later
  refine (returns_reads reliable (.findEndpointsBulk row.entry.id params.apiType
    (endpoints.map (normalEndpoint deployment.external params))) rfl rfl).bind ?_
  rintro _ read ⟨rfl, later⟩
  have normal : (fun endpoint : String × String =>
      (endpoint.1, methodFor deployment.external params.apiType endpoint.2)) =
        normalEndpoint deployment.external params := rfl
  rw [kept.1, normal, served_eq pinned endpoints, (missing_eq_nil pinned endpoints).mpr answerable.offers,
    if_neg (by simp)]
  have kept := kept.trans later
  refine (returns_bundleAnswer deployment.external native merging read answerable.merges).bind ?_
  rintro yaml answered rfl
  have recorded := @returns_recordPins environment deployment params reliable answered row.entry _
    (endpoints.map (normalEndpoint deployment.external params)) (fresh.keep kept)
    (by rw [kept.1]; exact service) (by rw [kept.1]; exact version) (by rw [kept.1]; exact declares.1)
  rw [kept.1] at recorded
  exact recorded.bind fun _ after required => .done required

/-- A native bundle that cannot be answered is refused, and writes nothing. -/
theorem refuses_requireBundle (reliable : environment.Reliable) {world : World}
    {stream : ResolvedStream} {endpoints : List (String × String)}
    (native : params.format = .native)
    (merging : forms.mergeEndpointYamls = OpenApiDocument.mergeEndpointYamls deployment.external)
    (declares : Declares environment params world.store.branches stream)
    (apart : ¬Answerable deployment.external params world.store endpoints) :
    (requireBundle deployment forms params endpoints).Refuses (World.handle environment)
      (fun _ after => StoreKept world after) world := by
  refine (declares.2 world rfl).bind_refuses ?_
  rintro _ reached ⟨rfl, kept⟩
  by_cases none : endpoints = []
  · rw [none]
    exact .fail kept
  · rw [if_neg (by simpa using none)]
    cases pinned : pinnedRow params world.store with
    | none =>
        have unpinned := refuses_resolvePin params reliable (by rw [kept.1]; exact pinned)
        exact (unpinned.mono fun _ after later => kept.trans later).bind
    | some row =>
        refine (returns_resolvePin params reliable (by rw [kept.1]; exact pinned)).bind_refuses ?_
        rintro ⟨serviceId, entry⟩ named ⟨rfl, later⟩
        have kept := kept.trans later
        refine (returns_reads reliable (.findEndpointsBulk row.entry.id params.apiType
          (endpoints.map (normalEndpoint deployment.external params))) rfl rfl).bind_refuses ?_
        rintro _ read ⟨rfl, later⟩
        have normal : (fun endpoint : String × String =>
            (endpoint.1, methodFor deployment.external params.apiType endpoint.2)) =
              normalEndpoint deployment.external params := rfl
        rw [kept.1, normal, served_eq pinned endpoints]
        have kept := kept.trans later
        dsimp only
        split
        · exact .fail kept
        · rename_i complete
          have offers := (missing_eq_nil pinned endpoints).mp
            (List.map_eq_nil_iff.mp (not_not.mp complete))
          have unmerged := @refuses_bundleAnswer environment forms params deployment.external native
            merging _ read fun merges => apart ⟨none, offers, merges⟩
          exact (unmerged.mono fun _ after same => same ▸ kept).bind

/-- The records of requires of one endpoint after another. -/
def eachIn (params : RequireParams) (store : Store) (entry : SpecVersionMeta)
    (stream : ResolvedStream) (endpoints : List (String × String)) : Records → Records :=
  let clientId := (store.ensureClient params.consumername).2
  Records.require stream (dependencyRows clientId entry (wantedOf params endpoints))
    ((wantedOf params endpoints).map
      (barePut (store.ensureClient params.consumername).1 clientId entry))

/-- Under a key that is settled, another spelling of an endpoint puts nothing. -/
theorem foldl_firstSpellings (store : Store) (clientId : ℕ) (entry : SpecVersionMeta)
    (endpoints : List (String × String)) (seen : List (String × String)) (rows : List BarePin)
    (settled : ∀ key ∈ seen, History.Settled (clientId, entry.serviceId, entry.apiType, key.1, key.2)
      entry.version rows) :
    ((firstSpellings entry.apiType seen endpoints).map (barePut store clientId entry)).foldl putBare
        rows = (endpoints.map (barePut store clientId entry)).foldl putBare rows := by
  induction endpoints generalizing seen rows with
  | nil => rfl
  | cons endpoint rest ih =>
      rw [firstSpellings, List.map_cons, List.foldl_cons]
      split
      · rename_i before
        have same : putBare rows (barePut store clientId entry endpoint) = rows :=
          (settled _ before).putBare_same _
        rw [same]
        exact ih seen rows settled
      · rw [List.map_cons, List.foldl_cons]
        apply ih
        intro key among
        obtain rfl | among := List.mem_cons.mp among
        · exact settled_put rows _
        · exact (settled key among).putBare _ _

/-- A bundle records what requires of its endpoints one by one do. -/
theorem requiredIn_eq_eachIn (params : RequireParams) (store : Store) (entry : SpecVersionMeta)
    (stream : ResolvedStream) (endpoints : List (String × String)) :
    requiredIn params store entry stream endpoints = eachIn params store entry stream endpoints :=
  Records.require_congr fun rows => foldl_firstSpellings _ _ entry _ [] rows (by simp)

theorem eachIn_cons (params : RequireParams) (store : Store) (entry : SpecVersionMeta)
    (stream : ResolvedStream) (endpoint : String × String) (rest : List (String × String))
    (records : Records) :
    eachIn params store entry stream (endpoint :: rest) records =
      eachIn params store entry stream rest (eachIn params store entry stream [endpoint] records) := by
  have wanted : wantedOf params (endpoint :: rest) = wantedOf params [endpoint] ++ wantedOf params rest := by
    unfold wantedOf
    split <;> rfl
  rw [eachIn, eachIn, eachIn, wanted, List.map_append, dependencyRows, List.map_append]
  exact Records.require_append

section Transport

variable {before after : Store}

theorem pinnedRow_resolved (same : Store.Resolves params.consumername before after) :
    (pinnedRow params after).map Store.lasting = (pinnedRow params before).map Store.lasting := by
  have services : after.serviceNamed? params.producername = before.serviceNamed? params.producername := by
    rw [Store.serviceNamed?, Store.serviceNamed?, same.services]
  rw [pinnedRow, pinnedRow, services]
  cases before.serviceNamed? params.producername with
  | none => rfl
  | some service => exact same.specVersion? _

theorem offered_resolved (same : Store.Resolves params.consumername before after)
    (external : External) (endpoint : String × String) :
    offered external params after endpoint = offered external params before endpoint := by
  have pinned := pinnedRow_resolved same
  rw [offered, offered, included, included]
  cases here : pinnedRow params before with
  | none =>
      rw [here, Option.map_none, Option.map_eq_none_iff] at pinned
      rw [pinned]
      rfl
  | some row =>
      rw [here, Option.map_some, Option.map_eq_some_iff] at pinned
      obtain ⟨other, there, lasts⟩ := pinned
      have ids : other.entry.id = row.entry.id := congrArg (fun row => row.entry.id) lasts
      rw [there, Option.bind_some, Option.bind_some, ids]
      exact same.findEndpoint _ _ _ _

theorem requiredIn_resolved (same : Store.Resolves params.consumername before after)
    {row other : SpecVersionRow} (lasts : Store.lasting other = Store.lasting row)
    (stream : ResolvedStream) (endpoints : List (String × String)) :
    requiredIn params after other.entry stream endpoints =
      requiredIn params before row.entry stream endpoints := by
  have lasting (store : Store) (row : SpecVersionRow) :
      requiredIn params store row.entry stream endpoints =
        requiredIn params store (Store.lasting row).entry stream endpoints := rfl
  have services : (after.ensureClient params.consumername).1.services =
      (before.ensureClient params.consumername).1.services := by
    rw [(after.resolves_ensureClient params.consumername).services, same.services,
      (before.resolves_ensureClient params.consumername).services]
  have puts : barePut (after.ensureClient params.consumername).1 =
      barePut (before.ensureClient params.consumername).1 := by
    funext clientId entry endpoint
    rw [barePut, barePut, Store.clientName?, Store.clientName?, Store.serviceName?, Store.serviceName?,
      same.clients, services]
  rw [lasting, lasts, ← lasting, requiredIn, requiredIn, same.clientId, puts]

end Transport

/-- Requires of single endpoints, one after another. -/
def requireEach (deployment : Deployment) (forms : AnswerForms) (params : RequireParams)
    (endpoints : List (String × String)) : UseCase Unit :=
  Program.forEach (fun endpoint =>
    (requireEndpoint deployment forms params endpoint.1 endpoint.2).bind fun _ => .done ()) endpoints

/-- Each of the requires finds what the first one did, and records its own edge. -/
theorem returns_requireEach (reliable : environment.Reliable) {base : Store}
    {stream : ResolvedStream} {row : SpecVersionRow} {endpoints : List (String × String)}
    (native : params.format = .native) (declares : Declares environment params base.branches stream)
    (pinned : pinnedRow params base = some row)
    (offers : ∀ endpoint ∈ endpoints, (offered deployment.external params base endpoint).isSome)
    {world : World} (same : Store.Resolves params.consumername base world.store)
    (fresh : FreshIds environment world) :
    (requireEach deployment forms params endpoints).Returns (World.handle environment)
      (fun _ after => after.store.records = eachIn params base row.entry stream
        (endpoints.map (normalEndpoint deployment.external params)) world.store.records) world := by
  induction endpoints generalizing world with
  | nil =>
      refine .done ?_
      have none : wantedOf params [] = [] := by simp [wantedOf]
      rw [List.map_nil, eachIn, none]
      exact Records.require_nil.symm
  | cons endpoint rest ih =>
      have there := pinnedRow_resolved same
      rw [pinned, Option.map_some, Option.map_eq_some_iff] at there
      obtain ⟨other, there, lasts⟩ := there
      have first := @returns_requireEndpoint environment deployment forms params reliable world _ _
        endpoint native fresh (by rw [same.branches]; exact declares) there
        (by rw [offered_resolved same]; exact offers endpoint List.mem_cons_self)
      rw [requireEach, Program.forEach, Program.bind_assoc]
      refine first.bind ?_
      intro _ middle required
      refine (ih (fun later among => offers later (List.mem_cons_of_mem _ among))
        (same.trans required.resolves) required.fresh).mono ?_
      intro _ after records
      rw [records, required.records, requiredIn_resolved same lasts, requiredIn_eq_eachIn,
        List.map_cons]
      exact (eachIn_cons params base row.entry stream _ _ _).symm

end Requires

section Refusals

variable {environment : Environment} {deployment : Deployment} {forms : AnswerForms}
  {params : RequireParams}

theorem read_answered (store : Store) (now : Instant) {request : RepoCall}
    (reads : request.readsOnly = true) : ∃ result, (store.perform now request).2 = .ok result := by
  cases request <;> first | exact ⟨_, rfl⟩ | cases reads

/-- The calls of a require fail for internal reasons only. -/
theorem requireWrites_internal {request : RepoCall} (writes : RequireWrites params (.repo request))
    {store : Store} {now : Instant} {error : RepositoryError}
    (failed : (store.perform now request).2 = .error error) : ∃ message, error = .internal message := by
  cases writes with
  | reads reads =>
      obtain ⟨result, answered⟩ := read_answered store now reads
      rw [answered] at failed
      cases failed
  | client => cases failed
  | required => cases failed
  | dependencies rows outbox => exact Store.recordDependenciesBulk_internal (Store.triedUnit_error failed)
  | trunkPins pins =>
      exact Store.recordPins_internal (Store.error_of_map (Store.triedUnit_error failed))
  | branchPins branchId pins => exact Store.recordBranchPins_internal (Store.triedUnit_error failed)

/-- So recording answers an internal error or none, whatever the store was. -/
theorem ensures_recordPins (world : World) (entry : SpecVersionMeta)
    (endpoints : List (String × String)) (stream : ResolvedStream) :
    (recordPins deployment params entry endpoints stream).Ensures (World.handle environment)
      (fun _ _ => True) (fun error _ => isInternal error = true) world := by
  refine ⟨fun _ _ _ => trivial, fun error after ran => ?_⟩
  obtain ⟨events, replayed⟩ := Program.replay_of_run [] ran
  have inner : ∀ request reason, (⟨.repo request, .error reason⟩ : Event Call Call.Answer) ∈ events →
      ∃ message, reason = .internal message := by
    refine ((only_recordPins deployment params entry endpoints stream []).replay (fun _ events =>
      ∀ request reason, (⟨.repo request, .error reason⟩ : Event Call Call.Answer) ∈ events →
        ∃ message, reason = .internal message) ?_ (by simp) replayed).1
    intro reached events request known writes failing reason among
    obtain same | among := List.mem_cons.mp among
    · injection same with asked answered
      subst asked
      have answered := eq_of_heq answered
      obtain ⟨fault, failed, -⟩ | performed := World.handle_repo environment reached failing
      · rw [failed] at answered
        cases answered
        exact ⟨fault, rfl⟩
      · rw [performed] at answered
        exact requireWrites_internal writes answered.symm
    · exact known failing reason among
  obtain ⟨request, reason, among, rfl⟩ :=
    ((only_recordPins deployment params entry endpoints stream []).replay (fun _ _ => True)
      (fun _ _ _ _ _ => trivial) trivial replayed).2.2 error rfl
  obtain ⟨message, rfl⟩ := inner request reason among
  rfl

/-- What is refused before anything is recorded leaves the store as it was. -/
def Harmless (store : Store) (error : AppError) (after : World) : Prop :=
  isInternal error = false → after.store = store

theorem harmless_reading {Value Result : Type} {program : UseCase Value} {next : Value → UseCase Result}
    {fails : Calls → AppError → Prop} {store : Store} {world : World}
    (reads : program.Only (fun request => request.readsOnly = true) fails)
    (kept : world.store = store)
    (rest : ∀ value reached, reached.store = store →
      (next value).Ensures (World.handle environment) (fun _ _ => True) (Harmless store) reached) :
    (program.bind next).Ensures (World.handle environment) (fun _ _ => True) (Harmless store) world := by
  have first : program.Ensures (World.handle environment) (fun _ after => after.store = store)
      (Harmless store) world :=
    ⟨fun _ after ran => (ran_only_reads reads ran).trans kept,
      fun _ after ran _ => (ran_only_reads reads ran).trans kept⟩
  exact first.bind rest

theorem harmless_recording {Result : Type} (store : Store) (world : World) (entry : SpecVersionMeta)
    (endpoints : List (String × String)) (stream : ResolvedStream) (response : Result) :
    ((recordPins deployment params entry endpoints stream).bind fun _ => .done response).Ensures
      (World.handle environment) (fun _ _ => True) (Harmless store) world := by
  refine ((ensures_recordPins world entry endpoints stream).mono (fun _ _ met => met)
    fun error after inner refused => ?_).bind fun _ _ _ => .done trivial
  rw [inner] at refused
  cases refused

/-- A require that is refused leaves the store as it was. -/
theorem harmless_requireEndpoint (world : World) (path method : String) :
    (requireEndpoint deployment forms params path method).Ensures (World.handle environment)
      (fun _ _ => True) (Harmless world.store) world := by
  refine harmless_reading (reads_resolveStream _ _) rfl fun stream reached kept => ?_
  refine harmless_reading (reading_resolvePin _ _ _) kept fun found reached kept => ?_
  refine harmless_reading (reads_repo rfl) kept fun endpoint reached kept => ?_
  cases endpoint with
  | none => exact .fail fun _ => kept
  | some endpoint =>
      exact harmless_reading (only_endpointAnswer forms params _ endpoint.1) kept fun yaml reached _ =>
        harmless_recording world.store reached _ _ stream _

/-- A bundle that is refused leaves the store as it was. -/
theorem harmless_requireBundle (world : World) (endpoints : List (String × String)) :
    (requireBundle deployment forms params endpoints).Ensures (World.handle environment)
      (fun _ _ => True) (Harmless world.store) world := by
  refine harmless_reading (reads_resolveStream _ _) rfl fun stream reached kept => ?_
  split
  · exact .fail fun _ => kept
  · refine harmless_reading (reading_resolvePin _ _ _) kept fun found reached kept => ?_
    refine harmless_reading (reads_repo rfl) kept fun bulk reached kept => ?_
    dsimp only
    split
    · exact .fail fun _ => kept
    · exact harmless_reading (only_bundleAnswer forms params _ _) kept fun yaml reached _ =>
        harmless_recording world.store reached _ _ stream _

end Refusals

section Parts

variable {environment : Environment} {deployment : Deployment} {forms : AnswerForms}
  {params : RequireParams}

/-- A use case that ends with an answer. -/
def Returning {Value : Type} (environment : Environment) (program : UseCase Value) (world : World) : Prop :=
  program.Returns (World.handle environment) (fun _ _ => True) world

theorem pinned_of_offered {external : External} {store : Store} {endpoint : String × String}
    (found : (offered external params store endpoint).isSome) :
    ∃ row, pinnedRow params store = some row := by
  obtain ⟨answer, found⟩ := Option.isSome_iff_exists.mp found
  obtain ⟨row, pinned, -⟩ := Option.bind_eq_some_iff.mp found
  exact ⟨row, pinned⟩

theorem Answerable.pinned {external : External} {store : Store} {endpoints : List (String × String)}
    (answerable : Answerable external params store endpoints) :
    ∃ row, pinnedRow params store = some row := by
  obtain ⟨endpoint, among⟩ := List.exists_mem_of_ne_nil endpoints answerable.asked
  exact pinned_of_offered (answerable.offers endpoint among)

/-- A native require is answered when the pinned entry includes its endpoint. -/
theorem returning_requireEndpoint_iff (reliable : environment.Reliable) {world : World}
    (native : params.format = .native) (fresh : FreshIds environment world)
    (endpoint : String × String) :
    Returning environment (requireEndpoint deployment forms params endpoint.1 endpoint.2) world ↔
      (offered deployment.external params world.store endpoint).isSome := by
  obtain ⟨stream, declares⟩ :=
    returns_resolveStream reliable world.store.branches params.trunk params.tag
  constructor
  · rintro ⟨response, after, ran, -⟩
    by_contra missing
    obtain ⟨error, same, -⟩ := (refuses_requireEndpoint reliable declares
      (Option.not_isSome_iff_eq_none.mp missing)).outcome ran
    cases same
  · intro found
    obtain ⟨row, pinned⟩ := pinned_of_offered found
    exact (returns_requireEndpoint reliable native fresh declares pinned found).mono fun _ _ _ => trivial

/-- A require that is refused leaves the store as it was, whatever the store and its faults. A native
bundle is answered when it asks for something, each of its endpoints would be alone, and the
snippets of an OpenAPI one are one document; and it records what requires of its endpoints one
after another record. -/
theorem bundle_is_its_parts (deployment : Deployment) (forms : AnswerForms) (params : RequireParams) :
    (∀ (environment : Environment) (world after : World) (error : AppError), isInternal error = false →
      (∀ path method, (requireEndpoint deployment forms params path method).run
        (World.handle environment) world = some (.error error, after) → after.store = world.store) ∧
      ∀ endpoints, (requireBundle deployment forms params endpoints).run
        (World.handle environment) world = some (.error error, after) → after.store = world.store) ∧
    (params.format = .native →
      forms.mergeEndpointYamls = OpenApiDocument.mergeEndpointYamls deployment.external →
      ∀ (environment : Environment) (world : World), environment.Reliable →
        FreshIds environment world → ∀ endpoints,
        (Returning environment (requireBundle deployment forms params endpoints) world ↔
          endpoints ≠ [] ∧
          (∀ endpoint ∈ endpoints, Returning environment
            (requireEndpoint deployment forms params endpoint.1 endpoint.2) world) ∧
          (params.apiType = .openApi → ∃ text, OpenApiDocument.mergeEndpointYamls deployment.external
            ((bundleServes deployment.external params world.store endpoints).map Prod.fst) =
              .ok text)) ∧
        (∀ error after, (requireBundle deployment forms params endpoints).run
          (World.handle environment) world = some (.error error, after) → after.store = world.store) ∧
        ∀ response after, (requireBundle deployment forms params endpoints).run
          (World.handle environment) world = some (.ok response, after) →
          ∃ each, (requireEach deployment forms params endpoints).run (World.handle environment) world =
            some (.ok (), each) ∧ after.store.records = each.store.records) := by
  refine ⟨fun environment world after error refused => ⟨fun path method ran => ?_,
    fun endpoints ran => ?_⟩, fun native merging environment world reliable fresh endpoints => ?_⟩
  · exact (harmless_requireEndpoint world path method).2 error after ran refused
  · exact (harmless_requireBundle world endpoints).2 error after ran refused
  obtain ⟨stream, declares⟩ :=
    returns_resolveStream reliable world.store.branches params.trunk params.tag
  have parts : Answerable deployment.external params world.store endpoints ↔
      endpoints ≠ [] ∧
      (∀ endpoint ∈ endpoints, Returning environment
        (requireEndpoint deployment forms params endpoint.1 endpoint.2) world) ∧
      (params.apiType = .openApi → ∃ text, OpenApiDocument.mergeEndpointYamls deployment.external
        ((bundleServes deployment.external params world.store endpoints).map Prod.fst) = .ok text) := by
    simp only [returning_requireEndpoint_iff reliable native fresh]
    exact ⟨fun met => ⟨met.asked, met.offers, met.merges⟩, fun met => ⟨met.1, met.2.1, met.2.2⟩⟩
  rw [← parts]
  by_cases answerable : Answerable deployment.external params world.store endpoints
  · obtain ⟨row, pinned⟩ := answerable.pinned
    have returned := @returns_requireBundle environment deployment forms params reliable world stream row
      endpoints native merging fresh declares pinned answerable
    have each := @returns_requireEach environment deployment forms params reliable world.store stream row
      endpoints native declares pinned answerable.offers world (.refl _) fresh
    refine ⟨⟨fun _ => answerable, fun _ => returned.mono fun _ _ _ => trivial⟩, ?_, ?_⟩
    · intro error after ran
      obtain ⟨value, same, -⟩ := returned.outcome ran
      cases same
    · intro response after ran
      obtain ⟨-, -, required⟩ := returned.outcome ran
      obtain ⟨_, last, ended, records⟩ := each
      exact ⟨last, ended, by rw [required.records, records, requiredIn_eq_eachIn]⟩
  · have refused := @refuses_requireBundle environment deployment forms params reliable world stream
      endpoints native merging declares answerable
    refine ⟨⟨?_, fun met => absurd met answerable⟩, ?_, ?_⟩
    · rintro ⟨response, after, ran, -⟩
      obtain ⟨error, same, -⟩ := refused.outcome ran
      cases same
    · intro error after ran
      obtain ⟨-, -, kept⟩ := refused.outcome ran
      exact kept.1
    · intro response after ran
      obtain ⟨error, same, -⟩ := refused.outcome ran
      cases same

/-- An identifier of its own for every step. -/
def tallyEnvironment : Environment :=
  ⟨id, fun step => String.ofList (List.replicate step 'i'), fun _ => none⟩

theorem tally_fresh (world : World) (unused : world.store.outbox = []) :
    FreshIds tallyEnvironment world := by
  refine ⟨fun first second same => ?_, fun step _ => ?_⟩
  · have lengths := congrArg (fun text => text.toList.length) same
    simpa [tallyEnvironment] using lengths
  · rw [unused]
    exact List.not_mem_nil

/-- Two Producers, the OpenAPI one with a snippet that is no document. -/
def offeringWorld : World :=
  ⟨[(1, .ensureService "rpc"), (2, .ensureService "rest"),
    (3, .upsertSpecVersion ⟨1, .proto, ⟨1, 0, 0⟩, .ga, "", "", "rel", none, 3,
      [⟨.proto, "/p.S/Get", "/p.S/Get", "RPC", "get", false⟩], []⟩),
    (4, .upsertSpecVersion ⟨2, .openApi, ⟨1, 0, 0⟩, .ga, "", "", "rel", none, 4,
      [⟨.openApi, "/a", "/a", "GET", "no document", false⟩], []⟩)].foldl Database.after .empty, 10⟩

def mergingForms : AnswerForms :=
  ⟨fun _ _ _ => .error "no form", OpenApiDocument.mergeEndpointYamls (asciiPlatform {})⟩

def trunkRequire (producername : String) (apiType : ApiType) : RequireParams :=
  { consumername := "shop", producername, version := ⟨1, 0, 0⟩, apiType, trunk := true }

/-- One endpoint asked for twice leaves one pin, as two requires of it do. -/
theorem bundle_is_its_parts_repeated :
    ∃ response after each,
      (requireBundle (quietService {}) mergingForms (trunkRequire "rpc" .proto)
          [("/p.S/Get", "RPC"), ("/p.S/Get", "RPC")]).run (World.handle tallyEnvironment) offeringWorld =
        some (.ok response, after) ∧
      (requireEach (quietService {}) mergingForms (trunkRequire "rpc" .proto)
          [("/p.S/Get", "RPC"), ("/p.S/Get", "RPC")]).run (World.handle tallyEnvironment) offeringWorld =
        some (.ok (), each) ∧
      after.store.records = each.store.records := by
  have answered : answeredWith (fun _ => true) ((requireBundle (quietService {}) mergingForms
      (trunkRequire "rpc" .proto) [("/p.S/Get", "RPC"), ("/p.S/Get", "RPC")]).run
        (World.handle tallyEnvironment) offeringWorld) = true := by decide +kernel
  obtain ⟨response, after, ran, -⟩ := answeredWith_spec answered
  obtain ⟨each, ended, same⟩ := ((bundle_is_its_parts (quietService {}) mergingForms
    (trunkRequire "rpc" .proto)).2 rfl rfl tallyEnvironment offeringWorld (fun _ => rfl)
    (tally_fresh offeringWorld (by decide +kernel)) _).2.2 response after ran
  exact ⟨response, after, each, ran, ended, same⟩

/-- A bundle of nothing is refused though none of its parts is, and so is one whose only part is
answered alone but is no document. -/
theorem bundle_apart_from_its_parts :
    ¬(Returning tallyEnvironment (requireBundle (quietService {}) mergingForms
          (trunkRequire "rpc" .proto) []) offeringWorld ↔
        ∀ endpoint ∈ ([] : List (String × String)), Returning tallyEnvironment (requireEndpoint
          (quietService {}) mergingForms (trunkRequire "rpc" .proto) endpoint.1 endpoint.2) offeringWorld) ∧
      ¬(Returning tallyEnvironment (requireBundle (quietService {}) mergingForms
          (trunkRequire "rest" .openApi) [("/a", "GET")]) offeringWorld ↔
        ∀ endpoint ∈ [("/a", "GET")], Returning tallyEnvironment (requireEndpoint
          (quietService {}) mergingForms (trunkRequire "rest" .openApi) endpoint.1 endpoint.2)
            offeringWorld) := by
  have refused (params : RequireParams) (endpoints : List (String × String))
      (ended : refusedWith (fun _ => true) (fun _ => true) ((requireBundle (quietService {}) mergingForms
        params endpoints).run (World.handle tallyEnvironment) offeringWorld) = true) :
      ¬Returning tallyEnvironment (requireBundle (quietService {}) mergingForms params endpoints)
        offeringWorld := by
    obtain ⟨error, reached, same, -⟩ := refusedWith_spec ended
    rintro ⟨response, after, ran, -⟩
    cases ran.symm.trans same
  constructor
  · intro same
    exact refused _ _ (by decide +kernel) (same.mpr (by simp))
  · intro same
    refine refused _ _ (by decide +kernel) (same.mpr fun endpoint among => ?_)
    obtain rfl := List.mem_singleton.mp among
    have answered : answeredWith (fun _ => true) ((requireEndpoint (quietService {}) mergingForms
        (trunkRequire "rest" .openApi) "/a" "GET").run (World.handle tallyEnvironment)
          offeringWorld) = true := by decide +kernel
    obtain ⟨response, after, ran, -⟩ := answeredWith_spec answered
    exact ⟨response, after, ran, trivial⟩

end Parts
end Sanshain.Guarantees
