import Sanshain.Guarantees.Immutability
import Sanshain.Guarantees.Origins

namespace Sanshain.Guarantees

open Sanshain.Data Sanshain.Domain Sanshain.Document Sanshain.Effects Sanshain.Application
open Sanshain.Infrastructure

section Honesty

/-- Two entries of one line and major, with no released entry between them. -/
structure Neighbours (store : Store) (lower upper : Standing) : Prop where
  producer : lower.key.1 = upper.key.1
  apiType : lower.key.2.1 = upper.key.2.1
  below : lower.key.2.2 < upper.key.2.2
  major : lower.key.2.2.major = upper.key.2.2.major
  between : ∀ row ∈ store.specVersions, row.entry.stability = .ga →
    row.entry.serviceId = upper.key.1 → row.entry.apiType = upper.key.2.1 →
    ¬(lower.key.2.2 < row.entry.version ∧ row.entry.version < upper.key.2.2)

/-- An entry keeps what the release below it in a store promises. -/
def Honest (external : External) (store : Store) (upper : Standing) : Prop :=
  ∀ row ∈ store.specVersions, row.entry.stability = .ga → Neighbours store row.standing upper →
    checkCompatibility external upper.key.2.1 row.content upper.content = .pass

/-- Provides and promotions. -/
def publishes : Action → Bool
  | .provide _ _ | .promote _ _ _ _ => true
  | _ => false

/-- Provides and promotions one after another, each answered Ok. -/
inductive Publishes (deployment : Deployment) (forms : AnswerForms) (environment : Environment) :
    World → World → Prop
  | none (world : World) : Publishes deployment forms environment world world
  | more {action : Action} {outcome : Outcome} {world middle last : World}
      (publishing : publishes action = true)
      (answered : (action.program deployment forms).run (World.handle environment) world =
        some (.ok outcome, middle))
      (rest : Publishes deployment forms environment middle last) :
      Publishes deployment forms environment world last

end Honesty

section Steps

variable {deployment : Deployment} {forms : AnswerForms} {environment : Environment}
  {start world after : World} {events : Calls} {request : Call} {row : SpecVersionRow}

/-- A call that leaves the entries of the lines alone. -/
def SparesLines : Call → Prop
  | .repo call => .specVersions ∉ writes call
  | .nowIso | .newUuid => True

/-- The calls of a Provide or a promotion. -/
def PublishAllows (deployment : Deployment) (events : Calls) (request : Call) : Prop :=
  request.readsOnly = true ∨ ∃ params, ProvideAllows deployment params events request

theorem along_publishing {action : Action} (publishing : publishes action = true) :
    (action.program deployment forms).Along (PublishAllows deployment) (fun _ _ => True)
      (fun _ _ => True) [] := by
  refine (Action.along_program deployment forms action).mono (fun events request allowed => ?_) (fun _ _ _ => trivial)
    fun _ _ _ => trivial
  cases allowed with
  | reads reads => exact .inl reads
  | submits params _ allowed => exact .inr ⟨params, allowed⟩
  | otherwise otherwise =>
      cases action with
      | provide => exact otherwise.elim
      | promote => exact otherwise.elim
      | _ => cases publishing

theorem PublishAllows.plain {call : RepoCall}
    (allowed : PublishAllows deployment events (.repo call)) : call.administers = false := by
  rcases allowed with reads | ⟨params, allowed⟩
  · exact RepoCall.plain_of_readsOnly reads
  · exact provideAllows_plain allowed

theorem sparesLines_reads (reads : request.readsOnly = true) : SparesLines request := by
  cases request with
  | repo call => simp [SparesLines, writes_readsOnly reads]
  | nowIso => trivial
  | newUuid => trivial

theorem sparesLines_prepares {params : ProvideSpecParams} (prepares : Prepares params request) :
    SparesLines request := by
  cases prepares with
  | telemetry told =>
      cases told with
      | reads reads => exact sparesLines_reads reads
      | audit => simp [SparesLines, writes]
      | event => simp [SparesLines, writes]
  | service => simp [SparesLines, writes]
  | tag => simp [SparesLines, writes]

theorem handle_spares (spares : SparesLines request) :
    (World.handle environment world request).1.store.specVersions = world.store.specVersions := by
  cases request with
  | repo call => exact Store.specVersions_of_frame (World.handle_frame environment world spares)
  | nowIso => rfl
  | newUuid => rfl

/-- What a run was told before it wrote is what stood in the store where it started. -/
structure Echoes (start state : World) (events : Calls) : Prop where
  rows : (∀ event ∈ events, SparesLines event.request) →
    state.store.specVersions = start.store.specVersions
  listed : (∀ event ∈ events, SparesLines event.request) → ∀ serviceId entries,
    Heard events (.listSpecVersions serviceId) entries →
      entries = start.store.listSpecVersions serviceId
  content : (∀ event ∈ events, SparesLines event.request) → ∀ specVersionId found,
    Heard events (.getSpecContent specVersionId) found →
      found = (start.store.specVersionById? specVersionId).map (·.content)

theorem Echoes.step (echoes : Echoes start world events) (request : Call) :
    Echoes start (World.handle environment world request).1
      (⟨request, (World.handle environment world request).2⟩ :: events) := by
  have earlier (spared : ∀ event ∈ (⟨request, (World.handle environment world request).2⟩ :
      Event Call Call.Answer) :: events, SparesLines event.request) :
      SparesLines request ∧ ∀ event ∈ events, SparesLines event.request :=
    ⟨spared _ List.mem_cons_self, fun event among => spared event (List.mem_cons_of_mem _ among)⟩
  refine ⟨fun spared => ?_, fun spared serviceId entries heard => ?_,
    fun spared specVersionId found heard => ?_⟩
  · rw [handle_spares (earlier spared).1, echoes.rows (earlier spared).2]
  · rcases List.mem_cons.mp heard with now | before
    · injection now with asked answered
      subst asked
      have rows := echoes.rows (earlier spared).2
      obtain ⟨reason, failed, -⟩ | performed :=
        World.handle_repo environment world (.listSpecVersions serviceId)
      · rw [failed] at answered
        cases answered
      · rw [performed] at answered
        cases answered
        change world.store.listSpecVersions serviceId = _
        rw [Store.listSpecVersions, rows]
        rfl
    · exact echoes.listed (earlier spared).2 serviceId entries before
  · rcases List.mem_cons.mp heard with now | before
    · injection now with asked answered
      subst asked
      have rows := echoes.rows (earlier spared).2
      obtain ⟨reason, failed, -⟩ | performed :=
        World.handle_repo environment world (.getSpecContent specVersionId)
      · rw [failed] at answered
        cases answered
      · rw [performed] at answered
        cases answered
        change (world.store.specVersionById? specVersionId).map _ = _
        rw [Store.specVersionById?, rows]
        rfl
    · exact echoes.content (earlier spared).2 specVersionId found before

/-- Where an admitted release is written, it keeps what the release below it promises. -/
theorem admitted_honest {params : ProvideSpecParams}
    {submission : Submission deployment.external params} {serviceId : Nat}
    {line : List SpecVersionMeta} {ops : List ContractOp} (echoes : Echoes start world events)
    (preparing : Preparing params events) (admitted : Admitted submission serviceId line ops events)
    (release : params.stability = .ga) (now : Instant) (outbox : List NewWebhookEvent) (id : Nat) :
    Honest deployment.external start.store
      (writtenStanding (upsertRecord submission serviceId (submission.existing line) now outbox) id) := by
  intro lower among released near
  have sound := start.database.sound
  have spared : ∀ event ∈ events, SparesLines event.request :=
    fun event there => sparesLines_prepares (preparing event there)
  have producer : lower.entry.serviceId = serviceId := near.producer
  have kind : lower.entry.apiType = params.apiType := near.apiType
  have below : lower.entry.version < submission.version := near.below
  have listing : ∀ entry, entry ∈ line ↔ ∃ row ∈ start.store.specVersions,
      row.entry.serviceId = serviceId ∧ row.entry.apiType = params.apiType ∧ row.entry = entry := by
    intro entry
    rcases admitted.served.listed with ⟨nobody, -⟩ | ⟨entries, heard, rfl⟩
    · obtain ⟨service, there, same⟩ :=
        (Store.serviceName?_isSome_iff start.store _).mp (sound.versionService lower among)
      exact absurd (same.trans (producer.trans nobody)) (sound.serviceFresh service there).1.ne'
    · rw [echoes.listed spared serviceId entries heard, List.mem_filter, Store.mem_listSpecVersions,
        decide_eq_true_eq]
      constructor
      · rintro ⟨⟨row, held, mine, rfl⟩, same⟩
        exact ⟨row, held, mine, same, rfl⟩
      · rintro ⟨row, held, mine, same, rfl⟩
        exact ⟨⟨row, held, mine, rfl⟩, same⟩
  have lowerListed : lower.entry ∈ line := (listing _).mpr ⟨lower, among, producer, kind, rfl⟩
  cases found : gaBaseline line submission.version with
  | none => exact absurd below (gaBaseline_none.mp found lower.entry lowerListed released)
  | some baseline =>
      obtain ⟨held, ga, under, highest⟩ := gaBaseline_spec found
      obtain ⟨row, there, mine, same, rfl⟩ := (listing baseline).mp held
      have number : row.entry.version = lower.entry.version := by
        refine le_antisymm (not_lt.mp fun above => ?_) (highest lower.entry lowerListed released below)
        exact near.between row there ga mine same ⟨above, under⟩
      have key : row.key = lower.key := by
        rw [SpecVersionRow.key, SpecVersionRow.key, mine, same, number, producer, kind]
      obtain rfl := sound.row_unique there among key
      have major : row.entry.version.major = submission.version.major := near.major
      obtain ⟨content, heard, passes⟩ := admitted.compatible release row.entry found
        (UInt32.le_of_eq major.symm)
      have stored := echoes.content spared row.entry.id content heard
      rw [sound.specVersionById?_of_mem among] at stored
      exact passes row.content stored

/-- What stands after a run stood before, or was written as a property of entries asks. -/
structure Traced (told : World → Calls → Prop) (written : Standing → Prop) (start state : World)
    (events : Calls) : Prop where
  told : told state events
  traced : ∀ row ∈ state.store.specVersions,
    (∃ earlier ∈ start.store.specVersions, earlier.standing = row.standing) ∨ written row.standing

/-- Every entry that is written has the property, by what the run was told before. -/
def Writes (deployment : Deployment) (told : World → Calls → Prop) (written : Standing → Prop) :
    Prop :=
  ∀ (state : World) (events : Calls) (params : ProvideSpecParams)
    (submission : Submission deployment.external params) (serviceId : Nat)
    (line : List SpecVersionMeta) (ops : List ContractOp) (now : Instant)
    (outbox : List NewWebhookEvent) (id : Nat), told state events → Preparing params events →
      Admitted submission serviceId line ops events →
        written (writtenStanding
          (upsertRecord submission serviceId (submission.existing line) now outbox) id)

variable {told : World → Calls → Prop} {written : Standing → Prop}

theorem Traced.step (writes : Writes deployment told written)
    (keeps : ∀ state events request, told state events →
      told (World.handle environment state request).1
        (⟨request, (World.handle environment state request).2⟩ :: events))
    (traced : Traced told written start world events)
    (allowed : PublishAllows deployment events request) :
    Traced told written start (World.handle environment world request).1
      (⟨request, (World.handle environment world request).2⟩ :: events) := by
  refine ⟨keeps _ _ request traced.told, fun row among => ?_⟩
  have carried (earlier : SpecVersionRow) (there : earlier ∈ world.store.specVersions)
      (same : earlier.standing = row.standing) :
      (∃ first ∈ start.store.specVersions, first.standing = row.standing) ∨
        written row.standing := by
    rw [← same]
    exact traced.traced earlier there
  cases request with
  | nowIso => exact carried row among rfl
  | newUuid => exact carried row among rfl
  | repo call =>
      obtain ⟨reason, failed, -⟩ | performed := World.handle_repo environment world call
      · rw [failed] at among
        exact carried row among rfl
      · rw [performed] at among
        obtain ⟨earlier, there, stood⟩ | ⟨record, id, rfl, -, stands⟩ :=
          Store.standing_before world.store (environment.clock world.steps) among
        · exact carried earlier there stood
        · rcases allowed with reads | ⟨params, allowed⟩
          · cases reads
          · right
            rw [stands]
            cases allowed with
            | reads reads => cases reads
            | prepare preparing prepares own =>
                cases prepares with
                | telemetry told =>
                    cases told with
                    | reads reads => cases reads
            | refresh written identical untried follows => cases follows
            | follow written admitted landed applied follows => cases follows
            | upsert written preparing admitted now outbox =>
                exact writes _ _ _ _ _ _ _ now outbox _ traced.told preparing admitted

/-- What stands after a run of a publication stood before, or has the property. -/
theorem ran_traced {action : Action} {outcome : Except AppError Outcome}
    (writes : Writes deployment told written)
    (keeps : ∀ state events request, told state events →
      told (World.handle environment state request).1
        (⟨request, (World.handle environment state request).2⟩ :: events))
    (opened : told world []) (publishing : publishes action = true)
    (ran : (action.program deployment forms).run (World.handle environment) world =
      some (outcome, after)) :
    ∀ row ∈ after.store.specVersions,
      (∃ earlier ∈ world.store.specVersions, earlier.standing = row.standing) ∨
        written row.standing := by
  obtain ⟨events, replayed⟩ := Program.replay_of_run [] ran
  exact ((along_publishing publishing).replay (Traced told written world)
    (fun _ _ _ traced allowed => traced.step writes keeps allowed)
    ⟨opened, fun row among => .inl ⟨row, among, rfl⟩⟩ replayed).1.traced

theorem ran_honest {action : Action} {outcome : Except AppError Outcome}
    (publishing : publishes action = true)
    (ran : (action.program deployment forms).run (World.handle environment) world =
      some (outcome, after)) :
    ∀ row ∈ after.store.specVersions,
      (∃ earlier ∈ world.store.specVersions, earlier.standing = row.standing) ∨
        (row.standing.stability = .ga → Honest deployment.external world.store row.standing) := by
  have writes : Writes deployment (Echoes world) fun standing =>
      standing.stability = .ga → Honest deployment.external world.store standing := by
    intro state events params submission serviceId line ops now outbox id echoes preparing admitted
      released
    exact admitted_honest echoes preparing admitted released now outbox id
  have opened : Echoes world world [] :=
    ⟨fun _ => rfl, fun _ _ _ heard => absurd heard List.not_mem_nil,
      fun _ _ _ heard => absurd heard List.not_mem_nil⟩
  exact ran_traced writes (fun _ _ request echoes => echoes.step request) opened publishing ran

theorem ran_released {action : Action} {outcome : Except AppError Outcome}
    (publishing : publishes action = true)
    (ran : (action.program deployment forms).run (World.handle environment) world =
      some (outcome, after)) (among : row ∈ world.store.specVersions)
    (released : row.entry.stability = .ga) :
    ∃ later ∈ after.store.specVersions, later.standing = row.standing := by
  obtain ⟨events, replayed⟩ := Program.replay_of_run [] ran
  refine ((along_publishing publishing).replay (fun state _ =>
    ∃ later ∈ state.store.specVersions, later.standing = row.standing) ?_ ⟨row, among, rfl⟩ replayed).1
  intro state _ request held allowed
  refine handle_released state (fun wanted same => ?_) released held
  subst same
  exact allowed.plain

end Steps

section Lines

variable {deployment : Deployment} {forms : AnswerForms} {environment : Environment}
  {middle world after last : World}

/-- What holds of a store that was reached from another one by publishing. -/
structure KeepsHonest (external : External) (middle state : World) : Prop where
  stands : ∀ row ∈ middle.store.specVersions, row.entry.stability = .ga →
    ∃ later ∈ state.store.specVersions, later.standing = row.standing
  honest : ∀ first ∈ middle.store.specVersions, first.entry.stability = .ga →
    ∀ upper ∈ state.store.specVersions, upper.entry.stability = .ga →
      (∀ row ∈ middle.store.specVersions, row.key = upper.key → row.entry.stability ≠ .ga) →
      Neighbours state.store first.standing upper.standing →
      checkCompatibility external upper.entry.apiType first.content upper.content = .pass

/-- Entries that stay neighbours were neighbours before. -/
theorem Neighbours.before {lower upper : Standing}
    (near : Neighbours after.store lower upper)
    (stands : ∀ row ∈ world.store.specVersions, row.entry.stability = .ga →
      ∃ later ∈ after.store.specVersions, later.standing = row.standing) :
    Neighbours world.store lower upper where
  producer := near.producer
  apiType := near.apiType
  below := near.below
  major := near.major
  between row among released mine kind := by
    obtain ⟨later, there, same⟩ := stands row among released
    have key : later.key = row.key := congrArg Standing.key same
    simp only [SpecVersionRow.key, Prod.mk.injEq] at key
    have stability : later.entry.stability = row.entry.stability := congrArg Standing.stability same
    rw [← key.2.2]
    exact near.between later there (stability.trans released) (key.1.trans mine)
      (key.2.1.trans kind)

theorem KeepsHonest.step {action : Action} {outcome : Except AppError Outcome}
    (kept : KeepsHonest deployment.external middle world) (publishing : publishes action = true)
    (ran : (action.program deployment forms).run (World.handle environment) world =
      some (outcome, after)) : KeepsHonest deployment.external middle after where
  stands row among released := by
    obtain ⟨held, there, same⟩ := kept.stands row among released
    have stability : held.entry.stability = row.entry.stability := congrArg Standing.stability same
    obtain ⟨later, last, equal⟩ := ran_released publishing ran there (stability.trans released)
    exact ⟨later, last, equal.trans same⟩
  honest first among released upper there ga fresh near := by
    have before := near.before fun row held stable => ran_released publishing ran held stable
    rcases ran_honest publishing ran upper there with ⟨earlier, held, same⟩ | honest
    · have stability : earlier.entry.stability = upper.entry.stability :=
        congrArg Standing.stability same
      have key : earlier.key = upper.key := congrArg Standing.key same
      have kind : earlier.entry.apiType = upper.entry.apiType := congrArg (·.2.1) key
      have content : earlier.content = upper.content := congrArg Standing.content same
      rw [← kind, ← content]
      refine kept.honest first among released earlier held (stability.trans ga)
        (fun row inside equal => fresh row inside (equal.trans key)) ?_
      rw [same]
      exact before
    · obtain ⟨lower, held, same⟩ := kept.stands first among released
      have stability : lower.entry.stability = first.entry.stability :=
        congrArg Standing.stability same
      have content : lower.content = first.content := congrArg Standing.content same
      rw [← content]
      refine honest ga lower held (stability.trans released) ?_
      rw [same]
      exact before

theorem Publishes.keepsHonest (run : Publishes deployment forms environment world last)
    (kept : KeepsHonest deployment.external middle world) :
    KeepsHonest deployment.external middle last := by
  induction run with
  | none => exact kept
  | more publishing answered _ ih => exact ih (kept.step publishing answered)

end Lines

section Examples

instance (store : Store) (lower upper : Standing) : Decidable (Neighbours store lower upper) :=
  decidable_of_iff
    (lower.key.1 = upper.key.1 ∧ lower.key.2.1 = upper.key.2.1 ∧ lower.key.2.2 < upper.key.2.2 ∧
      lower.key.2.2.major = upper.key.2.2.major ∧
        ∀ row ∈ store.specVersions, row.entry.stability = .ga → row.entry.serviceId = upper.key.1 →
          row.entry.apiType = upper.key.2.1 →
          ¬(lower.key.2.2 < row.entry.version ∧ row.entry.version < upper.key.2.2))
    ⟨fun parts => ⟨parts.1, parts.2.1, parts.2.2.1, parts.2.2.2.1, parts.2.2.2.2⟩,
      fun near => ⟨near.producer, near.apiType, near.below, near.major, near.between⟩⟩

/-- The world after these actions, when each was answered Ok. -/
def published (deployment : Deployment) (forms : AnswerForms) (environment : Environment) :
    List Action → World → Option World
  | [], world => some world
  | action :: rest, world =>
      match (action.program deployment forms).run (World.handle environment) world with
      | some (.ok _, after) =>
          if publishes action then published deployment forms environment rest after else none
      | _ => none

theorem publishes_of_published {deployment : Deployment} {forms : AnswerForms}
    {environment : Environment} {actions : List Action} {world last : World}
    (ended : published deployment forms environment actions world = some last) :
    Publishes deployment forms environment world last := by
  induction actions generalizing world with
  | nil =>
      cases ended
      exact .none _
  | cons action rest ih =>
      rw [published] at ended
      split at ended
      · rename_i outcome after ran
        split at ended
        · rename_i publishing
          exact .more publishing ran (ih ended)
        · cases ended
      · cases ended

def firstRelease : Action := .provide (releaseOf "p" .proto "//sanshain-version:1") none

def secondRelease : Action := .provide (releaseOf "p" .proto "//sanshain-version:1.2") none

/-- A release between two numbers, with a message that the higher one lacks. -/
def lateRelease : Action :=
  .provide (releaseOf "p" .proto "//sanshain-version:1.1\nmessage A \x7b\n\x7d\n") none

end Examples

/-- A release is compatible with the one below it in its major, wherever that one was released
first, whatever is published before, between and after the two. -/
theorem later_release_is_honest {deployment : Deployment} {forms : AnswerForms}
    {environment : Environment} {middle last : World} {lower upper : SpecVersionRow}
    (run : Publishes deployment forms environment middle last)
    (low : lower ∈ last.store.specVersions) (high : upper ∈ last.store.specVersions)
    (released : upper.entry.stability = .ga)
    (near : Neighbours last.store lower.standing upper.standing)
    (first : ∃ row ∈ middle.store.specVersions, row.key = lower.key ∧ row.entry.stability = .ga)
    (later : ∀ row ∈ middle.store.specVersions, row.key = upper.key → row.entry.stability ≠ .ga) :
    checkCompatibility deployment.external upper.entry.apiType lower.content upper.content = .pass := by
  obtain ⟨row, among, key, ga⟩ := first
  have opened : KeepsHonest deployment.external middle middle :=
    ⟨fun row there _ => ⟨row, there, rfl⟩,
      fun _ _ _ upper there ga fresh _ => absurd ga (fresh upper there rfl)⟩
  have kept := run.keepsHonest opened
  obtain ⟨held, there, same⟩ := kept.stands row among ga
  have number : held.key = lower.key := (congrArg Standing.key same).trans key
  obtain rfl := last.database.sound.row_unique there low number
  have content : held.content = row.content := congrArg Standing.content same
  rw [content]
  exact kept.honest row among ga upper high released later (same ▸ near)

theorem later_release_of_two : ∃ middle last : World,
    ∃ lower ∈ last.store.specVersions, ∃ upper ∈ last.store.specVersions,
      Publishes (quietService markerLibrary) noForms steadyEnvironment middle last ∧
        upper.entry.stability = .ga ∧ Neighbours last.store lower.standing upper.standing ∧
        checkCompatibility (quietService markerLibrary).external upper.entry.apiType lower.content
          upper.content = .pass := by
  have evaluated : ((published (quietService markerLibrary) noForms steadyEnvironment [firstRelease]
      emptyWorld).any fun middle =>
        (published (quietService markerLibrary) noForms steadyEnvironment [secondRelease] middle).any
          fun last => last.store.specVersions.any fun lower => last.store.specVersions.any fun upper =>
            decide (upper.entry.stability = .ga ∧
              Neighbours last.store lower.standing upper.standing ∧
              (∃ row ∈ middle.store.specVersions, row.key = lower.key ∧ row.entry.stability = .ga) ∧
              ∀ row ∈ middle.store.specVersions, row.key = upper.key →
                row.entry.stability ≠ .ga)) = true := by
    decide +kernel
  obtain ⟨middle, -, evaluated⟩ := (Option.any_eq_true _ _).mp evaluated
  obtain ⟨last, ended, evaluated⟩ := (Option.any_eq_true _ _).mp evaluated
  obtain ⟨lower, low, evaluated⟩ := List.any_eq_true.mp evaluated
  obtain ⟨upper, high, evaluated⟩ := List.any_eq_true.mp evaluated
  obtain ⟨released, near, first, later⟩ := of_decide_eq_true evaluated
  have run := publishes_of_published ended
  exact ⟨middle, last, lower, low, upper, high, run, released, near,
    later_release_is_honest run low high released near first later⟩

/-- A number released between two others is not compared with the higher one. -/
theorem late_release_breaks : ∃ last : World,
    Publishes (quietService markerLibrary) noForms steadyEnvironment emptyWorld last ∧
      ∃ lower ∈ last.store.specVersions, ∃ upper ∈ last.store.specVersions,
        lower.entry.stability = .ga ∧ upper.entry.stability = .ga ∧
          Neighbours last.store lower.standing upper.standing ∧
          ¬checkCompatibility (quietService markerLibrary).external upper.entry.apiType lower.content
            upper.content = .pass := by
  have evaluated : ((published (quietService markerLibrary) noForms steadyEnvironment
      [firstRelease, secondRelease, lateRelease] emptyWorld).any fun last =>
        last.store.specVersions.any fun lower => last.store.specVersions.any fun upper =>
          decide (lower.entry.stability = .ga ∧ upper.entry.stability = .ga ∧
            Neighbours last.store lower.standing upper.standing ∧
            ¬checkCompatibility (quietService markerLibrary).external upper.entry.apiType
              lower.content upper.content = .pass)) = true := by
    decide +kernel
  obtain ⟨last, ended, evaluated⟩ := (Option.any_eq_true _ _).mp evaluated
  obtain ⟨lower, low, evaluated⟩ := List.any_eq_true.mp evaluated
  obtain ⟨upper, high, evaluated⟩ := List.any_eq_true.mp evaluated
  exact ⟨last, publishes_of_published ended, lower, low, upper, high, of_decide_eq_true evaluated⟩

end Sanshain.Guarantees
