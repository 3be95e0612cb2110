import Sanshain.Document.Redeclared
import Sanshain.Guarantees.Origins
import Sanshain.Guarantees.Proposals
import Sanshain.Guarantees.Recordings
import Sanshain.Guarantees.Refusals
import Sanshain.Guarantees.SpecTexts

namespace Sanshain.Guarantees

open Sanshain.Data Sanshain.Domain Sanshain.Document Sanshain.Effects Sanshain.Application
open Sanshain.Infrastructure

section Overtaking

variable {line : List SpecVersionMeta} {start proposed : SemVer} {release : SpecVersionMeta}

/-- The free numbers of a minor, from one of its numbers on. -/
def freePatches (line : List SpecVersionMeta) (start : SemVer) : Set SemVer :=
  { free | free.major = start.major ∧ free.minor = start.minor ∧
      start.patch.toNat ≤ free.patch.toNat ∧ free ∉ line.map (·.version) }

/-- A released entry that every free number from the start on lies above. -/
def LeftBelow (line : List SpecVersionMeta) (start : SemVer) (release : SpecVersionMeta) : Prop :=
  release ∈ line ∧ release.stability = .ga ∧ ∀ free ∈ freePatches line start, release.version < free

/-- The newest released entry that a search for a free number leaves behind in its major. -/
structure Overtaken (line : List SpecVersionMeta) (start : SemVer) (release : SpecVersionMeta) :
    Prop where
  passed : LeftBelow line start release
  major : release.version.major = start.major
  newest : ∀ other, LeftBelow line start other → other.version ≤ release.version

/-- The number that is proposed is the least free one. -/
theorem proposeFree_isLeast (found : proposeFree line start = some proposed) :
    IsLeast (freePatches line start) proposed := by
  obtain ⟨count, reached, free, before⟩ := proposeFrom_line.mp found
  have bound := start.patch.toNat_lt
  rw [iterate_patch] at reached
  subst reached
  refine ⟨⟨rfl, rfl, ?_, free⟩, ?_⟩
  · rw [toNat_iterate_saturatingSucc]
    omega
  · rintro ⟨major, minor, patch⟩ ⟨sameMajor, sameMinor, above, unused⟩
    obtain rfl : major = start.major := sameMajor
    obtain rfl : minor = start.minor := sameMinor
    change start.patch.toNat ≤ patch.toNat at above
    refine not_lt.mp fun less => ?_
    have below := (SemVer.lt_iff _ _).mp less
    simp only [lt_self_iff_false, false_or, true_and, toNat_iterate_saturatingSucc] at below
    -- the search has met every smaller number of the minor
    have met := before (patch.toNat - start.patch.toNat) (by omega)
    rw [iterate_patch, iterate_saturatingSucc_reaches above] at met
    exact unused met

theorem leftBelow_iff (found : proposeFree line start = some proposed) (entry : SpecVersionMeta) :
    LeftBelow line start entry ↔
      entry ∈ line ∧ entry.stability = .ga ∧ entry.version < proposed := by
  have least := proposeFree_isLeast found
  refine and_congr_right fun _ => and_congr_right fun _ => ?_
  exact ⟨fun below => below proposed least.1, fun below free among => below.trans_le (least.2 among)⟩

/-- What the search leaves behind in its major is what a release of the proposed number is
compared with. -/
theorem overtaken_iff (distinct : (line.map (·.version)).Nodup)
    (found : proposeFree line start = some proposed) :
    Overtaken line start release ↔
      gaBaseline line proposed = some release ∧ proposed.major ≤ release.version.major := by
  have major : proposed.major = start.major := (proposeFree_isLeast found).1.1
  constructor
  · rintro ⟨passed, within, newest⟩
    obtain ⟨among, released, below⟩ := (leftBelow_iff found release).mp passed
    refine ⟨?_, UInt32.le_of_eq (major.trans within.symm)⟩
    cases baseline : gaBaseline line proposed with
    | none => exact absurd below (gaBaseline_none.mp baseline release among released)
    | some entry =>
        obtain ⟨held, ga, under, highest⟩ := gaBaseline_spec baseline
        have same : entry.version = release.version :=
          le_antisymm (newest entry ((leftBelow_iff found entry).mpr ⟨held, ga, under⟩))
            (highest release among released below)
        rw [List.inj_on_of_nodup_map distinct held among same]
  · rintro ⟨baseline, within⟩
    obtain ⟨among, released, below, highest⟩ := gaBaseline_spec baseline
    refine ⟨(leftBelow_iff found release).mpr ⟨among, released, below⟩, ?_, ?_⟩
    · rcases (SemVer.lt_iff _ _).mp below with less | ⟨same, -⟩
      · exact absurd (UInt32.le_iff_toNat_le.mp within) (not_le.mpr less)
      · exact same.trans major
    · intro other passed
      obtain ⟨held, ga, under⟩ := (leftBelow_iff found other).mp passed
      exact highest other held ga under

end Overtaking

section Repeating

variable {Value Result : Type} {store before after : Store}

/-- The tables that a refused Provide may have changed for the next one. -/
def refusedTables : List Table := .serviceTags :: telemetryTables

/-- Two stores that a refused Provide leaves the same. -/
def Alike (before after : Store) : Prop :=
  ∀ table ∉ refusedTables, after.table table = before.table table

theorem Alike.trans (first : Alike before store) (second : Alike store after) : Alike before after :=
  fun table outside => (second table outside).trans (first table outside)

theorem Alike.symm (alike : Alike before after) : Alike after before :=
  fun table outside => (alike table outside).symm

theorem Alike.services (alike : Alike before after) : after.services = before.services :=
  (Prod.mk.inj (alike .services (by decide))).1

theorem Alike.specVersions (alike : Alike before after) : after.specVersions = before.specVersions :=
  (Prod.mk.inj (alike .specVersions (by decide))).1

theorem Alike.branches (alike : Alike before after) : after.branches = before.branches :=
  (Prod.mk.inj (alike .branches (by decide))).1

theorem Alike.contracts (alike : Alike before after) : after.contracts = before.contracts :=
  alike .contracts (by decide)

/-- What a use case has read and answered it answers again, where the same is stored and no call
fails. -/
def AnswersAgain (program : UseCase Value) : Prop :=
  ∀ ⦃environment : Environment⦄ ⦃world reached : World⦄ ⦃value : Value⦄,
    program.run (World.handle environment) world = some (.ok value, reached) →
      reached.store = world.store ∧ ∀ (environment' : Environment) (again : World),
        environment'.Reliable → Alike world.store again.store →
          program.Returns (World.handle environment')
            (fun found later => found = value ∧ later.store = again.store) again

theorem answersAgain_done (value : Value) : AnswersAgain (.done value) := by
  intro environment world reached other ran
  cases ran
  exact ⟨rfl, fun _ _ _ _ => .done ⟨rfl, rfl⟩⟩

theorem answersAgain_ofExcept (outcome : Except AppError Value) : AnswersAgain (.ofExcept outcome) := by
  cases outcome with
  | ok value => exact answersAgain_done value
  | error error =>
      intro environment world reached value ran
      cases ran

theorem AnswersAgain.bind {program : UseCase Value} {next : Value → UseCase Result}
    (first : AnswersAgain program) (second : ∀ value, AnswersAgain (next value)) :
    AnswersAgain (program.bind next) := by
  intro environment world reached result ran
  obtain ⟨value, middle, began, ended⟩ := Program.run_bind_ok ran
  obtain ⟨kept, returns⟩ := first began
  obtain ⟨kept', returns'⟩ := second value ended
  refine ⟨kept'.trans kept, fun environment' again reliable alike => ?_⟩
  refine (returns environment' again reliable alike).bind ?_
  rintro _ later ⟨rfl, same⟩
  refine (returns' environment' later reliable (by rw [kept, same]; exact alike)).mono ?_
  rintro found last ⟨rfl, same'⟩
  exact ⟨rfl, same'.trans same⟩

theorem answersAgain_foldEach {Element : Type} {body : Value → Element → UseCase Value}
    (each : ∀ value element, AnswersAgain (body value element)) (value : Value) (elements : List Element) :
    AnswersAgain (Program.foldEach body value elements) := by
  induction elements generalizing value with
  | nil => exact answersAgain_done value
  | cons element rest ih => exact (each value element).bind ih

/-- A call repeats when what it answers depends on no more than what a refusal leaves alone. -/
theorem answersAgain_repo {request : RepoCall} (reads : request.readsOnly = true)
    (shown : ∀ {before after : Store}, Alike before after → ∀ now later,
      (after.perform later request).2 = (before.perform now request).2) :
    AnswersAgain (repo request) := by
  intro environment world reached result ran
  obtain ⟨⟨now, answered⟩, kept⟩ := ran_reading reads ran
  refine ⟨kept, fun environment' again reliable alike => ?_⟩
  refine (returns_reads reliable request reads ((shown alike now _).trans answered)).mono ?_
  rintro found later ⟨rfl, same, -⟩
  exact ⟨rfl, same⟩

theorem answersAgain_resolveStream (trunk : Bool) (tag : Option String) :
    AnswersAgain (resolveStream trunk tag) := by
  unfold resolveStream
  split
  · exact answersAgain_done _
  · split
    · exact answersAgain_done _
    · refine (answersAgain_repo rfl fun alike now later => ?_).bind fun found => ?_
      · simp only [Store.perform, alike.branches]
      · cases found <;> exact answersAgain_done _

theorem answersAgain_liveOwner (contract : Option ChannelMessageContract) :
    AnswersAgain (liveOwner contract) := by
  unfold liveOwner
  split
  · exact answersAgain_done _
  · refine (answersAgain_repo rfl fun alike now later => ?_).bind fun name => ?_
    · simp only [Store.perform, Store.serviceName?, alike.services]
    · split <;> exact answersAgain_done _

theorem answersAgain_planSubscriptionHarvest (external : External) (content : String)
    (stability : Stability) : AnswersAgain (planSubscriptionHarvest external content stability) := by
  refine (answersAgain_ofExcept _).bind fun subs => answersAgain_foldEach (fun planned sub => ?_) _ _
  refine (answersAgain_repo rfl fun alike now later => ?_).bind fun contract => ?_
  · simp only [Store.perform, Store.contract?, alike.contracts]
  · exact (answersAgain_liveOwner contract).bind fun owner => (answersAgain_ofExcept _).bind fun drift =>
      answersAgain_done _

end Repeating

section Serving

variable {environment : Environment} {params : ProvideSpecParams} {store before after : Store}
  {world middle reached : World} {serviceId : Nat} {line : List SpecVersionMeta} {service : ServiceRow}

/-- The line that a Provide is about, as it is stored. -/
def storedLine (store : Store) (params : ProvideSpecParams) : List SpecVersionMeta :=
  match store.serviceNamed? params.producername with
  | some service => (store.listSpecVersions service.id).filter (·.apiType = params.apiType)
  | none => []

theorem Alike.storedLine (alike : Alike before after) (params : ProvideSpecParams) :
    storedLine after params = storedLine before params := by
  unfold Guarantees.storedLine Store.serviceNamed? Store.listSpecVersions
  rw [alike.services, alike.specVersions]

/-- A line has every number once. -/
theorem storedLine_nodup (sound : store.Integrity) (params : ProvideSpecParams) :
    ((storedLine store params).map (·.version)).Nodup := by
  unfold storedLine
  split
  · rename_i service named
    have ids : ((store.listSpecVersions service.id).map (·.id)).Nodup := by
      have sorted := List.perm_insertionSort Store.lineLe
        ((store.specVersions.filter (·.entry.serviceId = service.id)).map (·.entry))
      refine (sorted.map (·.id)).nodup_iff.mpr ?_
      rw [List.map_map]
      exact sound.versionIds.sublist (List.filter_sublist.map _)
    refine List.Nodup.map_on ?_ (ids.of_map.filter _)
    intro first one second other same
    obtain ⟨listed, kind⟩ := List.mem_filter.mp one
    obtain ⟨listed', kind'⟩ := List.mem_filter.mp other
    obtain ⟨row, among, mine, rfl⟩ := Store.mem_listSpecVersions.mp listed
    obtain ⟨row', among', mine', rfl⟩ := Store.mem_listSpecVersions.mp listed'
    rw [sound.row_unique among among' ?_]
    rw [SpecVersionRow.key, SpecVersionRow.key, mine, mine', of_decide_eq_true kind,
      of_decide_eq_true kind', same]
  · exact List.nodup_nil

/-- A Producer that is there is found, and nothing but its tags is written. -/
theorem ran_serviceFor_known (known : world.store.serviceNamed? params.producername = some service)
    (ran : (serviceFor params).run (World.handle environment) world = some (.ok serviceId, reached)) :
    serviceId = service.id ∧ Alike world.store reached.store := by
  unfold serviceFor at ran
  split at ran
  · obtain ⟨found, middle, looked, rest⟩ := Program.run_bind_ok ran
    obtain ⟨⟨now, answered⟩, same⟩ := ran_reading rfl looked
    cases rest
    cases answered
    rw [known]
    exact ⟨rfl, fun table _ => by rw [same]⟩
  · obtain ⟨id, middle, ensured, rest⟩ := Program.run_bind_ok ran
    obtain ⟨now, answered, same⟩ := ran_repo ensured
    cases answered
    have store : middle.store = world.store := by
      rw [same]
      exact congrArg Prod.fst (Store.ensureService_known known)
    have own : (world.store.ensureService params.producername).2 = service.id :=
      congrArg Prod.snd (Store.ensureService_known known)
    split at rest
    · obtain ⟨_, last, tagged, rest⟩ := Program.run_bind_ok rest
      obtain ⟨now', -, same'⟩ := ran_repo tagged
      cases rest
      refine ⟨own, fun table outside => ?_⟩
      rw [same', Store.perform_frame _ _ ?_, store]
      exact fun among => outside (List.mem_cons.mpr (.inl (List.mem_singleton.mp among)))
    · cases rest
      exact ⟨own, fun table _ => by rw [store]⟩

theorem returns_serviceFor (reliable : environment.Reliable)
    (known : world.store.serviceNamed? params.producername = some service) :
    (serviceFor params).Returns (World.handle environment)
      (fun found later => found = service.id ∧ Alike world.store later.store) world := by
  unfold serviceFor
  split
  · refine (returns_reads reliable (.findService params.producername) rfl rfl).bind ?_
    rintro _ later ⟨rfl, same, -⟩
    rw [known]
    exact .done ⟨rfl, fun table _ => by rw [same]⟩
  · have ensured : world.store.perform (environment.clock world.steps)
        (.ensureService params.producername) = (world.store, .ok service.id) := by
      change ((world.store.ensureService params.producername).1, Except.ok _) = _
      rw [Store.ensureService_known known]
    refine (returns_writes reliable ensured).bind ?_
    rintro _ later ⟨rfl, same, -⟩
    split
    · rename_i tag auto
      have there : later.store.serviceName? service.id ≠ none := by
        have among := (Store.mem_of_serviceNamed? known).1
        rw [same]
        exact Option.isSome_iff_ne_none.mp
          ((Store.serviceName?_isSome_iff world.store service.id).mpr ⟨service, among, rfl⟩)
      obtain ⟨tagged, written⟩ :
          ∃ tagged, later.store.addServiceTags service.id [tag] = .ok tagged := by
        rw [Store.addServiceTags, if_neg fun unknown => there unknown.2]
        exact ⟨_, rfl⟩
      have performed : later.store.perform (environment.clock later.steps)
          (.addServiceTags service.id [tag]) = (tagged, .ok ()) := triedUnit_ok written
      refine (returns_writes reliable performed).bind ?_
      rintro _ last ⟨rfl, same', -⟩
      refine .done ⟨rfl, fun table outside => ?_⟩
      rw [same', Store.table_addServiceTags written, same]
      exact fun own => outside (List.mem_cons.mpr (.inl own))
    · exact .done ⟨rfl, fun table _ => by rw [same]⟩

/-- The line that is read is the stored one; where it has an entry, its Producer is there. -/
theorem ran_storedLine
    (served : (serviceFor params).run (World.handle environment) world = some (.ok serviceId, middle))
    (listed : (lineOf params.apiType serviceId).run (World.handle environment) middle =
      some (.ok line, reached)) :
    line = storedLine world.store params ∧ (line ≠ [] → ∃ service,
      world.store.serviceNamed? params.producername = some service ∧ serviceId = service.id ∧
        Alike world.store middle.store) := by
  obtain ⟨-, rows, lookup, -⟩ := ran_serviceFor served
  have shown : line = if serviceId ≠ 0 then
      (world.store.listSpecVersions serviceId).filter (·.apiType = params.apiType) else [] := by
    unfold lineOf at listed
    split at listed
    · rename_i somebody
      obtain ⟨entries, last, asked, rest⟩ := Program.run_bind_ok listed
      obtain ⟨⟨now, answered⟩, -⟩ := ran_reading rfl asked
      cases rest
      cases answered
      rw [if_pos somebody, Store.listSpecVersions, Store.listSpecVersions, rows]
    · rename_i nobody
      cases listed
      rw [if_neg nobody]
  cases known : world.store.serviceNamed? params.producername with
  | some service =>
      obtain ⟨rfl, alike⟩ := ran_serviceFor_known known served
      have somebody : service.id ≠ 0 :=
        (world.database.sound.serviceFresh service (Store.mem_of_serviceNamed? known).1).1.ne'
      rw [if_pos somebody] at shown
      exact ⟨by rw [storedLine, known, shown], fun _ => ⟨service, rfl, rfl, alike⟩⟩
  | none =>
      have empty : line = [] := by
        rw [shown, List.eq_nil_iff_forall_not_mem]
        intro entry among
        split at among
        · obtain ⟨stored, kind⟩ := List.mem_filter.mp among
          obtain ⟨row, there, mine, rfl⟩ := Store.mem_listSpecVersions.mp stored
          have found := world.database.sound.specVersion?_of_mem there
          rw [SpecVersionRow.key, mine, of_decide_eq_true kind, lookup, standingRow, known] at found
          cases found
        · cases among
      exact ⟨by rw [storedLine, known, empty], fun entries => absurd empty entries⟩

end Serving

section Conflicting

variable {environment : Environment} {deployment : Deployment} {params : ProvideSpecParams}
  {world after : World} {Value : Type} {message : String} {proposed : SemVer}
  {submission : Submission deployment.external params} {line : List SpecVersionMeta}

theorem call_not_conflict {events : Calls} : ¬ CallFailed events (.versionConflict message proposed) := by
  rintro ⟨request, reason, -, same⟩
  cases reason <;> cases same

theorem plan_not_conflict {events : Calls} : ¬ PlanFailed events (.versionConflict message proposed) := by
  rintro (failed | ⟨message, same⟩ | ⟨message, same⟩ | ⟨message, same⟩)
  · exact call_not_conflict failed
  · cases same
  · cases same
  · cases same

/-- Recording a refusal changes nothing but its telemetry. -/
theorem alike_of_telemetry {program : UseCase Value} {onDone : Calls → Value → Prop}
    {onFail : Calls → AppError → Prop} {outcome : Except AppError Value}
    (along : program.Along (fun _ request => Telemetry params request) onDone onFail [])
    (ran : program.run (World.handle environment) world = some (outcome, after)) :
    Alike world.store after.store := by
  obtain ⟨events, replayed⟩ := Program.replay_of_run [] ran
  refine (along.replay (fun reached _ => Alike world.store reached.store) ?_ (fun _ _ => rfl) replayed).1
  intro reached _ request kept told table outside
  cases told with
  | reads reads => rw [World.handle_readsOnly environment reached reads, kept table outside]
  | audit =>
      rw [World.handle_frame environment reached ?_, kept table outside]
      exact fun among => outside (by simp_all [writes, refusedTables, telemetryTables])
  | event =>
      rw [World.handle_frame environment reached ?_, kept table outside]
      exact fun among => outside (by simp_all [writes, refusedTables, telemetryTables])

theorem ran_orSpin_bind {Found : Type} {found : Option Found} {next : Found → UseCase Value}
    {outcome : Except AppError Value}
    (ran : ((orSpin found).bind next).run (World.handle environment) world = some (outcome, after)) :
    ∃ value, found = some value ∧
      (next value).run (World.handle environment) world = some (outcome, after) := by
  cases found with
  | none => cases ran
  | some value => exact ⟨value, rfl, ran⟩

/-- A run that ends in a version conflict has read on. -/
theorem ran_read_on {request : RepoCall} {next : request.Result → UseCase Value}
    (reads : request.readsOnly = true)
    (ran : ((repo request).bind next).run (World.handle environment) world =
      some (.error (.versionConflict message proposed), after)) :
    ∃ result middle, (∃ now, (world.store.perform now request).2 = .ok result) ∧
      middle.store = world.store ∧ (next result).run (World.handle environment) middle =
        some (.error (.versionConflict message proposed), after) := by
  obtain ⟨failure, same, asked⟩ | ⟨result, middle, asked, rest⟩ := Program.run_bind_cases ran
  · cases same
    obtain ⟨events, failed⟩ := failed_along (reads_repo reads []) asked
    exact (call_not_conflict failed).elim
  · obtain ⟨answered, kept⟩ := ran_reading reads asked
    exact ⟨result, middle, answered, kept, rest⟩

/-- The version rule that a Provide breaks, and where the number it proposes comes from. -/
inductive Conflicts (submission : Submission deployment.external params) (store : Store)
    (line : List SpecVersionMeta) (proposed : SemVer) : Prop
  | taken (entry : SpecVersionMeta) (impact : Impact)
      (found : submission.existing line = some entry) (released : entry.stability = .ga)
      (classified : classifyChange deployment.external params.apiType
        (((store.specVersionById? entry.id).map (·.content)).getD "") params.normalContent
        (diffEndpoints (store.endpointsOf entry.id) submission.endpoints).inserts = some impact)
      (search : proposeFree line (submission.version.increment impact) = some proposed)
  | owned (entry : SpecVersionMeta) (found : submission.existing line = some entry)
      (snapshot : params.stability = .snapshot)
      (search : proposeFreeMinor line submission.version = some proposed)
  | breaking (baseline : SpecVersionMeta) (row : SpecVersionRow) (reason : String)
      (unreleased : ∀ entry, submission.existing line = some entry → entry.stability ≠ .ga)
      (release : params.stability = .ga) (below : gaBaseline line submission.version = some baseline)
      (within : submission.version.major ≤ baseline.version.major)
      (stored : store.specVersionById? baseline.id = some row)
      (breaks : checkCompatibility deployment.external params.apiType row.content
        params.normalContent = .refuse reason)
      (search : proposeFree line ⟨saturatingSucc baseline.version.major, 0, 0⟩ = some proposed)

theorem Conflicts.alike {before after : Store} (alike : Alike before after)
    (conflicts : Conflicts submission after line proposed) : Conflicts submission before line proposed := by
  have rows (id : Nat) : after.specVersionById? id = before.specVersionById? id := by
    rw [Store.specVersionById?, Store.specVersionById?, alike.specVersions]
  cases conflicts with
  | taken entry impact found released classified search =>
      rw [Store.endpointsOf, rows] at classified
      exact .taken entry impact found released classified search
  | owned entry found snapshot search => exact .owned entry found snapshot search
  | breaking baseline row reason unreleased release below within stored breaks search =>
      exact .breaking baseline row reason unreleased release below within (rows _ ▸ stored) breaks search

theorem ran_gateNumber
    (ran : (gateNumber deployment submission line).run (World.handle environment) world =
      some (.error (.versionConflict message proposed), after)) :
    Conflicts submission world.store line proposed := by
  unfold gateNumber at ran
  split at ran
  · cases ran
  · rename_i entry found
    split at ran
    · rename_i released
      obtain ⟨content, middle, ⟨now, shown⟩, kept, ran⟩ := ran_read_on rfl ran
      obtain ⟨stored, last, ⟨later, shown'⟩, kept', ran⟩ := ran_read_on rfl ran
      cases shown
      cases shown'
      obtain ⟨impact, classified, ran⟩ := ran_orSpin_bind ran
      obtain ⟨number, search, ran⟩ := ran_orSpin_bind ran
      rw [kept] at classified
      refine .taken entry impact found released classified ?_
      split at ran
      · cases ran_refuse ran
        exact search
      · cases ran_refuse ran
        exact search
    · split at ran
      · rename_i mine
        obtain ⟨number, search, ran⟩ := ran_orSpin_bind ran
        cases ran_refuse ran
        simp only [Bool.and_eq_true, decide_eq_true_eq] at mine
        exact .owned entry found mine.1 search
      · cases ran

theorem ran_gateCompatibility
    (unreleased : ∀ entry, submission.existing line = some entry → entry.stability ≠ .ga)
    (ran : (gateCompatibility deployment submission line).run (World.handle environment) world =
      some (.error (.versionConflict message proposed), after)) :
    Conflicts submission world.store line proposed := by
  unfold gateCompatibility at ran
  split at ran
  · cases ran
  · rename_i baseline below
    split at ran
    · rename_i within
      obtain ⟨found, middle, ⟨now, shown⟩, -, ran⟩ := ran_read_on rfl ran
      cases shown
      cases stored : world.store.specVersionById? baseline.id with
      | none =>
          rw [stored] at ran
          cases ran
      | some row =>
          rw [stored] at ran
          cases verdict : checkCompatibility deployment.external params.apiType row.content
              params.normalContent with
          | pass =>
              simp only [Option.map_some, verdict] at ran
              cases ran
          | endless =>
              simp only [Option.map_some, verdict] at ran
              cases ran
          | refuse reason =>
              simp only [Option.map_some, verdict] at ran
              obtain ⟨number, search, ran⟩ := ran_orSpin_bind ran
              cases ran_refuse ran
              exact .breaking baseline row reason unreleased within.1 below within.2 stored verdict search
    · cases ran

/-- A use case that fails for other reasons than a version rule. -/
abbrev Unversioned (program : UseCase Value) : Prop :=
  program.Only (fun _ => True) fun _ error =>
    ∀ message proposed, error ≠ .versionConflict message proposed

theorem unversioned_of_calls {program : UseCase Value} {allowed : Call → Prop}
    (only : program.Only allowed CallFailed) : Unversioned program :=
  only.mono (fun _ _ => trivial) fun _ _ failed _ _ same => call_not_conflict (same ▸ failed)

theorem unversioned_ran {program : UseCase Value} (unversioned : Unversioned program) :
    program.run (World.handle environment) world ≠
      some (.error (.versionConflict message proposed), after) := by
  intro ran
  obtain ⟨events, failed⟩ := failed_along (unversioned []) ran
  exact failed message proposed rfl

theorem unversioned_repo (request : RepoCall) : Unversioned (repo request) := by
  have only : (repo request).Only (fun _ => True) CallFailed := only_repo trivial
  exact unversioned_of_calls only

theorem unversioned_applyContractOps (ops : List ContractOp) : Unversioned (applyContractOps ops) := by
  induction ops with
  | nil => exact .done ()
  | cons op rest ih =>
      cases op with
      | upsert contract => exact (unversioned_repo _).bind fun _ => ih
      | delete channel messageName => exact (unversioned_repo _).bind fun _ => ih

theorem unversioned_writeVersion (record : UpsertSpecVersion) : Unversioned (writeVersion record) := by
  refine Program.Only.bind (only_tryRepo trivial) fun answer => ?_
  cases answer with
  | ok entryId => exact .done entryId
  | error error =>
      change Unversioned (explainRefusedWrite record error)
      unfold explainRefusedWrite
      split
      · refine Program.Only.bind (only_tryRepo trivial) fun found => .fail fun _ _ _ same => ?_
        cases same
      · refine .fail fun _ _ _ same => ?_
        cases error <;> cases same

theorem unversioned_writeProvided (origin : VersionOrigin) (serviceId : Nat)
    (line : List SpecVersionMeta) (harvest : Harvest) (ops : List ContractOp) :
    Unversioned (writeProvided deployment submission origin serviceId line harvest ops) := by
  refine (unversioned_of_calls (reads_planProvideEvents origin line)).bind fun outbox => ?_
  refine Program.Only.bind (only_nowIso trivial) fun now => ?_
  refine (unversioned_writeVersion _).bind fun entryId => ?_
  refine (unversioned_applyContractOps ops).bind fun _ => ?_
  refine (unversioned_of_calls (only_recordOrigin submission origin _ entryId)).bind fun _ => ?_
  refine (unversioned_of_calls (only_touchTrunkOf submission entryId)).bind fun _ => ?_
  refine (unversioned_of_calls (only_recordMember submission serviceId entryId)).bind fun _ => ?_
  exact (unversioned_of_calls (only_auditPromotion submission _ entryId)).bind fun _ =>
    unversioned_of_calls (only_reconcile submission harvest entryId)

theorem ran_provideFresh_conflict {origin : VersionOrigin} {serviceId : Nat} {harvest : Harvest}
    (ran : (provideFresh deployment submission origin serviceId line harvest).run
      (World.handle environment) world = some (.error (.versionConflict message proposed), after)) :
    Conflicts submission world.store line proposed ∧ Alike world.store after.store := by
  obtain ⟨_, same, ran⟩ | ⟨_, first, gated, rest⟩ := Program.run_bind_cases ran
  · cases same
    exact ⟨ran_gateNumber ran, alike_of_telemetry (along_gateNumber submission line []) ran⟩
  have number : Alike world.store first.store ∧
      ∀ entry, submission.existing line = some entry → entry.stability ≠ .ga := by
    have along := along_gateNumber submission line []
    refine ⟨alike_of_telemetry along gated, fun entry found released => ?_⟩
    obtain ⟨events, replayed⟩ := Program.replay_of_run [] gated
    have passed := (along.replay (fun _ _ => True) (fun _ _ _ _ _ => trivial) trivial replayed).2.1 _ rfl
    rw [(passed entry found).1] at released
    cases released
  obtain ⟨_, same, ran⟩ | ⟨_, second, gated, rest⟩ := Program.run_bind_cases rest
  · cases same
    exact ⟨(ran_gateCompatibility number.2 ran).alike number.1,
      number.1.trans (alike_of_telemetry (along_gateCompatibility submission line []) ran)⟩
  obtain ⟨_, same, ran⟩ | ⟨changes, third, -, rest⟩ := Program.run_bind_cases rest
  · cases same
    exact absurd ran (unversioned_ran (unversioned_of_calls (reads_changesOf submission _)))
  obtain ⟨_, same, ran⟩ | ⟨ops, fourth, -, rest⟩ := Program.run_bind_cases rest
  · cases same
    obtain ⟨events, failed⟩ := failed_along (along_planContracts submission serviceId []) ran
    exact (plan_not_conflict failed).elim
  split at rest
  · cases rest
  · refine absurd rest (unversioned_ran ?_)
    exact (unversioned_writeProvided origin serviceId line harvest ops).bind fun _ => .done _

theorem Conflicts.entries (conflicts : Conflicts submission world.store line proposed) : line ≠ [] := by
  rintro rfl
  cases conflicts with
  | taken entry impact found => cases found
  | owned entry found => cases found
  | breaking baseline row reason unreleased release below => cases below

/-- What a Provide has gone through when the version rules refuse it, and would go through again. -/
structure Weighed (deployment : Deployment) (params : ProvideSpecParams) (world : World)
    (submission : Submission deployment.external params) : Prop where
  released : params.mayRelease = true
  known : ∃ service, world.store.serviceNamed? params.producername = some service
  stream : ∀ (environment : Environment) (again : World), environment.Reliable →
    Alike world.store again.store → (resolveStream params.trunk params.tag).Returns
      (World.handle environment)
      (fun found later => found = submission.stream ∧ later.store = again.store) again
  harvest : submission.harvests = true → ∀ (environment : Environment) (again : World),
    environment.Reliable → Alike world.store again.store →
      (planSubscriptionHarvest deployment.external params.normalContent params.stability).Returns
        (World.handle environment) (fun _ later => later.store = again.store) again

theorem read_not_conflict {stream : ResolvedStream}
    (ran : (Program.ofExcept (readSubmission deployment.external params stream) :
      UseCase (Submission deployment.external params)).run (World.handle environment) world =
        some (.error (.versionConflict message proposed), after)) : False := by
  cases taken : readSubmission deployment.external params stream with
  | ok submission =>
      rw [taken] at ran
      cases ran
  | error reason =>
      rw [taken] at ran
      cases ran
      unfold readSubmission at taken
      split at taken
      · cases taken
      · rename_i unread
        cases taken
        obtain ⟨text, same⟩ := parseSpec_error unread
        cases same

/-- A Provide that is answered with a version conflict has broken a version rule, and leaves the
store as it was. -/
theorem ran_conflict {origin : VersionOrigin}
    (ran : (provideSpecInner deployment params origin).run (World.handle environment) world =
      some (.error (.versionConflict message proposed), after)) :
    ∃ submission : Submission deployment.external params, Weighed deployment params world submission ∧
      Conflicts submission world.store (storedLine world.store params) proposed ∧
        Alike world.store after.store := by
  obtain ⟨_, same, ran⟩ | ⟨stream, first, resolved, reading⟩ := Program.run_bind_cases ran
  · cases same
    obtain ⟨events, failed⟩ := failed_along (reads_resolveStream _ _ []) ran
    exact (call_not_conflict failed).elim
  obtain ⟨keptFirst, streams⟩ := answersAgain_resolveStream params.trunk params.tag resolved
  obtain ⟨_, same, ran⟩ | ⟨submission, second, read, gating⟩ := Program.run_bind_cases reading
  · cases same
    exact (read_not_conflict ran).elim
  obtain ⟨taken, rfl⟩ := Program.run_ofExcept_ok read
  have own := readSubmission_stream taken
  obtain ⟨_, same, ran⟩ | ⟨_, third, gated, serving⟩ := Program.run_bind_cases gating
  · cases same
    obtain ⟨events, -, text, same⟩ := failed_along (along_gateRelease submission []) ran
    cases same
  have released : params.mayRelease = true := by
    obtain ⟨events, replayed⟩ := Program.replay_of_run [] gated
    exact ((along_gateRelease submission []).replay (fun _ _ => True) (fun _ _ _ _ _ => trivial) trivial
      replayed).2.1 _ rfl
  have alikeThird : Alike world.store third.store := by
    rw [← keptFirst]
    exact alike_of_telemetry (along_gateRelease submission []) gated
  obtain ⟨_, same, ran⟩ | ⟨serviceId, fourth, served, listing⟩ := Program.run_bind_cases serving
  · cases same
    obtain ⟨events, failed⟩ := failed_along (only_serviceFor params []) ran
    exact (call_not_conflict failed).elim
  obtain ⟨_, same, ran⟩ | ⟨line, fifth, listed, planning⟩ := Program.run_bind_cases listing
  · cases same
    obtain ⟨events, failed⟩ := failed_along (along_lineOf _ _ []) ran
    exact (call_not_conflict failed).elim
  obtain ⟨shown, there⟩ := ran_storedLine served listed
  have keptFifth := (ran_lineOf listed).1
  obtain ⟨_, same, ran⟩ | ⟨harvest, sixth, planned, ends⟩ := Program.run_bind_cases planning
  · cases same
    obtain ⟨events, failed⟩ := failed_along (along_planHarvest submission []) ran
    exact (plan_not_conflict failed).elim
  have alikeSixth := alike_of_telemetry (along_planHarvest submission []) planned
  split at ends
  · refine absurd ends (unversioned_ran ?_)
    exact (unversioned_of_calls (only_refreshIdentical submission origin serviceId harvest _)).bind
      fun _ => .done _
  · obtain ⟨conflicts, refused⟩ := ran_provideFresh_conflict ends
    obtain ⟨service, named, rfl, alikeFourth⟩ := there conflicts.entries
    have alikeFifth : Alike world.store fifth.store := by
      rw [keptFifth]
      exact alikeThird.trans alikeFourth
    rw [alikeThird.storedLine] at shown
    refine ⟨submission,
      ⟨released, ⟨service, ?_⟩, ?_, fun harvests environment again reliable alike => ?_⟩,
      shown ▸ conflicts.alike (alikeFifth.trans alikeSixth),
      (alikeFifth.trans alikeSixth).trans refused⟩
    · rw [← named, Store.serviceNamed?, Store.serviceNamed?, alikeThird.services]
    · rw [own]
      exact streams
    · rw [planHarvest, if_pos harvests] at planned
      obtain ⟨-, returns⟩ := answersAgain_planSubscriptionHarvest _ _ _ (ran_orRefuseContract planned)
      exact (returns environment again reliable (alikeFifth.symm.trans alike)).mono
        fun found later kept => kept.2

end Conflicting

/-- Where the search for a free number begins: at the increment of a released number, and else at
the major after the release below. -/
def searchStart (external : External) (store : Store) (params : ProvideSpecParams)
    (parsed : ParsedSpec) : Option SemVer :=
  let line := storedLine store params
  match (line.find? (·.version = parsed.version)).filter (·.stability = .ga) with
  | some entry =>
      (classifyChange external params.apiType
        (((store.specVersionById? entry.id).map (·.content)).getD "") params.normalContent
        (diffEndpoints (store.endpointsOf entry.id) parsed.endpoints).inserts).map
          parsed.version.increment
  | none => (gaBaseline line parsed.version).map fun baseline =>
      ⟨saturatingSucc baseline.version.major, 0, 0⟩

/-- The same is sent again, with a document that declares the proposed number and is the same for
the rest. -/
structure Resubmits (external : External) (params again : ProvideSpecParams) (proposed : SemVer) :
    Prop where
  same : again = { params with content := again.content }
  declares : ∃ parsed, parseSpec external params.apiType again.normalContent = .ok parsed ∧
    parsed.version = proposed
  rest : Redeclared external params.apiType params.normalContent again.normalContent

/-- The document that is sent again keeps the newest release that the search leaves behind. -/
def Unobstructed (external : External) (store : Store) (params again : ProvideSpecParams) : Prop :=
  params.stability = .snapshot ∨
    ∀ parsed, parseSpec external params.apiType params.normalContent = .ok parsed →
      ∀ start, searchStart external store params parsed = some start →
        ∀ release row, Overtaken (storedLine store params) start release →
          store.specVersionById? release.id = some row →
            ∀ reason, checkCompatibility external params.apiType row.content again.normalContent ≠
              .refuse reason

/-- An answer that none of the version rules gives. -/
def NoVersionConflict (outcome : Except AppError ProvideResponse) : Prop :=
  ∀ message proposed, outcome ≠ .error (.versionConflict message proposed)

section Resubmitting

variable {environment : Environment} {deployment : Deployment} {params again : ProvideSpecParams}
  {world reached after : World} {proposed : SemVer}
  {submission : Submission deployment.external params} {outcome : Except AppError ProvideResponse}

theorem Conflicts.free {store : Store} {line : List SpecVersionMeta}
    (conflicts : Conflicts submission store line proposed) : proposed ∉ line.map (·.version) := by
  cases conflicts with
  | taken _ _ _ _ _ search => exact proposeFree_not_mem search
  | owned _ _ _ search => exact proposeFreeMinor_not_mem search
  | breaking _ _ _ _ _ _ _ _ _ search => exact proposeFree_not_mem search

/-- A number proposed for a release comes from the search for a free one. -/
theorem Conflicts.searched {store : Store}
    (conflicts : Conflicts submission store (storedLine store params) proposed)
    (release : params.stability = .ga) :
    ∃ start, searchStart deployment.external store params submission.parsed = some start ∧
      proposeFree (storedLine store params) start = some proposed := by
  cases conflicts with
  | taken entry impact found released classified search =>
      refine ⟨_, ?_, search⟩
      change (storedLine store params).find? (·.version = submission.parsed.version) = some entry at found
      simp only [searchStart, found, Option.filter_some, released, decide_true, if_true]
      exact Option.map_eq_some_iff.mpr ⟨impact, classified, rfl⟩
  | owned entry found snapshot search =>
      rw [snapshot] at release
      cases release
  | breaking baseline row reason unreleased _ below within stored breaks search =>
      refine ⟨_, ?_, search⟩
      have none : ((storedLine store params).find? (·.version = submission.parsed.version)).filter
          (·.stability = .ga) = none := by
        rw [Option.filter_eq_none_iff]
        intro entry found released
        exact unreleased entry found (of_decide_eq_true released)
      change gaBaseline (storedLine store params) submission.parsed.version = some baseline at below
      simp only [searchStart, none, below, Option.map_some]

theorem existing_free {line : List SpecVersionMeta} (declared : submission.version = proposed)
    (free : proposed ∉ line.map (·.version)) : submission.existing line = none := by
  rw [Submission.existing, List.find?_eq_none]
  intro entry among number
  refine free (declared ▸ ?_)
  exact List.mem_map.mpr ⟨entry, among, of_decide_eq_true number⟩

theorem Resubmits.storedLine (resubmits : Resubmits deployment.external params again proposed)
    (alike : Alike world.store reached.store) :
    storedLine reached.store again = storedLine world.store params := by
  rw [resubmits.same]
  exact alike.storedLine params

theorem returns_lineOf (reliable : environment.Reliable) {service : ServiceRow}
    (known : world.store.serviceNamed? params.producername = some service) :
    (lineOf params.apiType service.id).Returns (World.handle environment)
      (fun line later => line = storedLine world.store params ∧ later.store = world.store) world := by
  have somebody : service.id ≠ 0 :=
    (world.database.sound.serviceFresh service (Store.mem_of_serviceNamed? known).1).1.ne'
  rw [lineOf, if_pos somebody]
  refine (returns_reads reliable (.listSpecVersions service.id) rfl rfl).bind ?_
  rintro _ later ⟨rfl, kept, -⟩
  exact .done ⟨by rw [Guarantees.storedLine, known], kept⟩

/-- The subscriptions of a document that was only declared anew are planned again. -/
theorem Weighed.returns_planHarvest (weighed : Weighed deployment params world submission)
    (resubmits : Resubmits deployment.external params again proposed)
    {second : Submission deployment.external again}
    (stream : second.stream = submission.stream) (reliable : environment.Reliable)
    (alike : Alike world.store reached.store) :
    (planHarvest deployment second).Returns (World.handle environment)
      (fun _ later => later.store = reached.store) reached := by
  have same : again.apiType = params.apiType ∧ again.stability = params.stability := by
    rw [resubmits.same]
    exact ⟨rfl, rfl⟩
  unfold planHarvest
  split
  · rename_i harvests
    have channels : params.apiType = .asyncApi := by
      simp only [Submission.harvests, Bool.and_eq_true, decide_eq_true_eq, same.1] at harvests
      exact harvests.1
    have first : submission.harvests = true := by
      rwa [Submission.harvests, same.1, stream, ← Submission.harvests] at harvests
    have plan : planSubscriptionHarvest deployment.external again.normalContent again.stability =
        planSubscriptionHarvest deployment.external params.normalContent params.stability := by
      have rest := resubmits.rest
      rw [channels] at rest
      rw [planSubscriptionHarvest, planSubscriptionHarvest, AsyncApiDocument.extractSubMessages,
        AsyncApiDocument.extractSubMessages, extractMessages_redeclared .sub rest, same.2]
    obtain ⟨planned, later, ran, kept⟩ := weighed.harvest first environment reached reliable alike
    refine ⟨planned, later, ?_, kept⟩
    rw [orRefuseContract, Program.bind_eq, Program.run_bind, Program.run_attempt, plan, ran]
    rfl
  · exact .done rfl

theorem readSubmission_ok {external : External} {parsed : ParsedSpec}
    (parses : parseSpec external params.apiType params.normalContent = .ok parsed)
    (stream : ResolvedStream) :
    readSubmission external params stream = .ok ⟨stream, parsed, parses⟩ := by
  unfold readSubmission
  split
  · rename_i other read
    cases read.symm.trans parses
    rfl
  · rename_i error unread
    cases unread.symm.trans parses

/-- A release that breaks the one below it in its major is answered with a version conflict. -/
theorem ran_gateCompatibility_breaking {line : List SpecVersionMeta} {baseline : SpecVersionMeta}
    {row : SpecVersionRow} {reason : String} {ended : Except AppError Unit}
    (release : params.stability = .ga) (below : gaBaseline line submission.version = some baseline)
    (within : submission.version.major ≤ baseline.version.major)
    (stored : world.store.specVersionById? baseline.id = some row)
    (breaks : checkCompatibility deployment.external params.apiType row.content
      params.normalContent = .refuse reason) (reliable : environment.Reliable)
    (ran : (gateCompatibility deployment submission line).run (World.handle environment) world =
      some (ended, after)) : ∃ message offered, ended = .error (.versionConflict message offered) := by
  rw [gateCompatibility, below] at ran
  simp only [if_pos (And.intro release within)] at ran
  have reads := returns_reads reliable (.getSpecContent baseline.id) rfl
    (show (world.store.perform (environment.clock world.steps) (.getSpecContent baseline.id)).2 =
      .ok (some row.content) by simp only [Store.perform, stored, Option.map_some])
  obtain ⟨_, middle, ⟨rfl, -⟩, ran⟩ := reads.bind_ran ran
  simp only [breaks] at ran
  obtain ⟨offered, -, ran⟩ := ran_orSpin_bind ran
  exact ⟨_, offered, ran_refuse ran⟩

/-- A document that breaks the release below the proposed number is refused again. -/
theorem Weighed.refused_again (weighed : Weighed deployment params world submission)
    (resubmits : Resubmits deployment.external params again proposed)
    (free : proposed ∉ (storedLine world.store params).map (·.version))
    (reliable : environment.Reliable) (alike : Alike world.store reached.store)
    (release : params.stability = .ga) {baseline : SpecVersionMeta} {row : SpecVersionRow}
    {reason : String} (below : gaBaseline (storedLine world.store params) proposed = some baseline)
    (within : proposed.major ≤ baseline.version.major)
    (stored : world.store.specVersionById? baseline.id = some row)
    (breaks : checkCompatibility deployment.external params.apiType row.content again.normalContent =
      .refuse reason) {origin : VersionOrigin}
    (ran : (provideSpecInner deployment again origin).run (World.handle environment) reached =
      some (outcome, after)) : ∃ message offered, outcome = .error (.versionConflict message offered) := by
  have same := resubmits.same
  obtain ⟨parsed, parses, declared⟩ := resubmits.declares
  have line := resubmits.storedLine alike
  have settings : again.apiType = params.apiType ∧ again.stability = params.stability ∧
      again.mayRelease = params.mayRelease ∧ again.trunk = params.trunk ∧ again.tag = params.tag ∧
      again.producername = params.producername := by
    rw [same]
    exact ⟨rfl, rfl, rfl, rfl, rfl, rfl⟩
  obtain ⟨kind, stability, allowed, trunk, tag, name⟩ := settings
  have streams := weighed.stream environment reached reliable alike
  rw [← trunk, ← tag] at streams
  obtain ⟨stream, first, ⟨rfl, keptFirst⟩, reading⟩ := streams.bind_ran ran
  rw [← kind] at parses
  rw [readSubmission_ok parses] at reading
  obtain ⟨second, own, number, gating⟩ : ∃ second : Submission deployment.external again,
      second.stream = submission.stream ∧ second.version = proposed ∧
        (provideSubmission deployment second origin).run (World.handle environment) first =
          some (outcome, after) :=
    ⟨⟨submission.stream, parsed, parses⟩, rfl, declared, reading⟩
  have gate : gateRelease deployment second = .done () := by
    rw [gateRelease, if_pos (allowed.trans weighed.released)]
  rw [provideSubmission, gate] at gating
  obtain ⟨service, known⟩ := weighed.known
  have alikeFirst : Alike world.store first.store := by
    rw [keptFirst]
    exact alike
  have there : first.store.serviceNamed? again.producername = some service := by
    rw [name, ← known, Store.serviceNamed?, Store.serviceNamed?, alikeFirst.services]
  obtain ⟨_, third, ⟨rfl, alikeThird⟩, listing⟩ :=
    (returns_serviceFor reliable there).bind_ran gating
  have there' : third.store.serviceNamed? again.producername = some service := by
    rw [← there, Store.serviceNamed?, Store.serviceNamed?, alikeThird.services]
  obtain ⟨_, fourth, ⟨rfl, keptFourth⟩, planning⟩ :=
    (returns_lineOf reliable there').bind_ran listing
  have alikeFourth : Alike world.store fourth.store := by
    rw [keptFourth]
    exact alikeFirst.trans alikeThird
  obtain ⟨harvest, fifth, keptFifth, ends⟩ :=
    (weighed.returns_planHarvest resubmits own reliable alikeFourth).bind_ran planning
  have shown : storedLine third.store again = storedLine world.store params :=
    resubmits.storedLine (alikeFirst.trans alikeThird)
  have unused := existing_free number free
  rw [shown, unused, Option.filter_none] at ends
  have numbers : gateNumber deployment second (storedLine world.store params) = .done () := by
    rw [gateNumber, unused]
  rw [provideFresh, numbers, Program.bind_eq, Program.done_bind] at ends
  have held : fifth.store.specVersionById? baseline.id = some row := by
    rw [keptFifth, ← stored, Store.specVersionById?, Store.specVersionById?, alikeFourth.specVersions]
  rw [← kind] at breaks
  rw [← number] at below within
  obtain ⟨_, rfl, refused⟩ | ⟨_, last, passed, -⟩ := Program.run_bind_cases ends
  · obtain ⟨message, offered, same⟩ := ran_gateCompatibility_breaking (stability.trans release) below
      within held breaks reliable refused
    cases same
    exact ⟨message, offered, rfl⟩
  · obtain ⟨message, offered, same⟩ := ran_gateCompatibility_breaking (stability.trans release) below
      within held breaks reliable passed
    cases same

end Resubmitting

section Claims

variable {deployment : Deployment} {params again : ProvideSpecParams} {origin origin' : VersionOrigin}
  {environment environment' : Environment} {world after reached after' : World} {message : String}
  {proposed : SemVer} {outcome : Except AppError ProvideResponse}

/-- Whatever calls fail, no version rule refuses the proposed number where nothing is obstructed. -/
theorem proposed_not_refused
    (ran : (provideSpecInner deployment params origin).run (World.handle environment) world =
      some (.error (.versionConflict message proposed), after))
    (resubmits : Resubmits deployment.external params again proposed)
    (alike : Alike world.store reached.store)
    (unobstructed : Unobstructed deployment.external world.store params again)
    (ran' : (provideSpecInner deployment again origin').run (World.handle environment') reached =
      some (outcome, after')) : NoVersionConflict outcome := by
  rintro text offered rfl
  obtain ⟨submission, -, conflicts, -⟩ := ran_conflict ran
  obtain ⟨second, -, conflicts', -⟩ := ran_conflict ran'
  have settings : again.apiType = params.apiType ∧ again.stability = params.stability := by
    rw [resubmits.same]
    exact ⟨rfl, rfl⟩
  obtain ⟨kind, stability⟩ := settings
  have number : second.version = proposed := by
    obtain ⟨parsed, parses, declared⟩ := resubmits.declares
    rw [← kind] at parses
    cases second.parses.symm.trans parses
    exact declared
  rw [resubmits.storedLine alike] at conflicts'
  have unused := existing_free number conflicts.free
  cases conflicts' with
  | taken entry impact found => cases unused.symm.trans found
  | owned entry found => cases unused.symm.trans found
  | breaking baseline row reason unreleased release below within stored breaks =>
      rw [stability] at release
      rw [number] at below within
      rw [kind] at breaks
      rcases unobstructed with snapshot | keeps
      · cases snapshot.symm.trans release
      · obtain ⟨start, begins, search⟩ := conflicts.searched release
        refine keeps submission.parsed submission.parses start begins baseline row ?_ ?_ reason breaks
        · exact (overtaken_iff (storedLine_nodup world.database.sound params) search).mpr ⟨below, within⟩
        · rw [← stored, Store.specVersionById?, Store.specVersionById?, alike.specVersions]

/-- The number that a version conflict proposes is refused by no version rule, once the document
declares it, exactly when the Provide is a snapshot, or the document keeps what the newest release
left behind by the search promises. -/
theorem proposed_number_publishable_iff (deployment : Deployment) (params again : ProvideSpecParams)
    (origin origin' : VersionOrigin) (environment environment' : Environment)
    (world after reached after' : World) (message : String) (proposed : SemVer)
    (outcome : Except AppError ProvideResponse)
    (ran : (provideSpecInner deployment params origin).run (World.handle environment) world =
      some (.error (.versionConflict message proposed), after))
    (resubmits : Resubmits deployment.external params again proposed)
    (alike : Alike world.store reached.store) (reliable : environment'.Reliable)
    (ran' : (provideSpecInner deployment again origin').run (World.handle environment') reached =
      some (outcome, after')) :
    NoVersionConflict outcome ↔ Unobstructed deployment.external world.store params again := by
  refine ⟨fun publishable => ?_, fun unobstructed =>
    proposed_not_refused ran resubmits alike unobstructed ran'⟩
  by_contra obstructed
  simp only [Unobstructed, not_or, not_forall, not_not] at obstructed
  obtain ⟨notSnapshot, parsed, parses, start, begins, baseline, row, overtaken, stored, reason,
    breaks⟩ := obstructed
  have release : params.stability = .ga := by
    cases declared : params.stability with
    | ga => rfl
    | snapshot => exact absurd declared notSnapshot
  obtain ⟨submission, weighed, conflicts, -⟩ := ran_conflict ran
  cases submission.parses.symm.trans parses
  obtain ⟨_, begins', search⟩ := conflicts.searched release
  cases begins.symm.trans begins'
  obtain ⟨below, within⟩ :=
    (overtaken_iff (storedLine_nodup world.database.sound params) search).mp overtaken
  obtain ⟨text, offered, refused⟩ := weighed.refused_again resubmits conflicts.free reliable alike
    release below within stored breaks ran'
  exact publishable text offered refused

/-- A proto file with a message, and one without. -/
def messageMarker (version : String) : String :=
  "//sanshain-version:" ++ version ++ "\nmessage M\x7b\x7d"

def emptyMarker (version : String) : String := "//sanshain-version:" ++ version

def droppedLibrary : Library where
  digests :=
    [(messageMarker "1", "7913471b655b404f92334d2d3a994a533fe2a16836492445b406f30a9bbf3c95"),
      (messageMarker "2", "fcfac77757bacd8992deaadabc19ec63cdccd134e3df70e33d1f22f47828c1e6"),
      (emptyMarker "1.1", "22fba5d9cc0dc959af5fef94d76e14e6a473325b3e6849f5049799c88e63e7b4"),
      (emptyMarker "2", "d35e9bc4aa7388be25a59938e807a297a72797da36cbee2f3518074cac60d948"),
      (emptyMarker "2.0.1", "655cf2692247e6d25d51baf2aca161a2d5b4da6c3da58c2fa79cd203ea22ae8e")]

def droppedService : Deployment := quietService droppedLibrary

/-- The service once "p" has released its message under these numbers. -/
def messageWorld (schedule : List Nat) : World :=
  ((opening droppedService noForms emptyWorld (["1", "2"].map fun version =>
    .provide (releaseOf "p" .proto (messageMarker version)) none)).run (World.handle steadyEnvironment)
      schedule).state

/-- The release without the message, under a number. -/
def emptyRelease (version : String) : ProvideSpecParams := releaseOf "p" .proto (emptyMarker version)

def proposes (number : SemVer) : AppError → Bool
  | .versionConflict _ proposed => proposed = number
  | _ => false

theorem proposes_iff (number : SemVer) (error : AppError) :
    proposes number error = true ↔ ∃ message, error = .versionConflict message number := by
  cases error <;> simp [proposes]

theorem emptyRelease_resubmits {version : String} {number : SemVer}
    (declares : ((parseSpec droppedService.external .proto
      (emptyRelease version).normalContent).toOption.map (·.version)) = some number)
    (first : (emptyRelease "1.1").normalContent = emptyMarker "1.1")
    (again : (emptyRelease version).normalContent = emptyMarker version) :
    Resubmits droppedService.external (emptyRelease "1.1") (emptyRelease version) number where
  same := rfl
  declares := by
    obtain ⟨parsed, parses, declared⟩ := Option.map_eq_some_iff.mp declares
    exact ⟨parsed, ok_of_toOption parses, declared⟩
  rest := by
    rw [first, again]
    have marked := redeclared_marker droppedService.external "//sanshain-version:" "1.1" version ""
    rwa [String.append_empty, String.append_empty] at marked

/-- A number that the search reaches past another release is refused for breaking that one. -/
theorem overtaken_release_refuses :
    ∃ message after, (provideSpecInner droppedService (emptyRelease "1.1") {}).run
        (World.handle steadyEnvironment) (messageWorld (List.replicate 7 0 ++ List.replicate 7 1)) =
          some (.error (.versionConflict message ⟨2, 0, 1⟩), after) ∧
      Resubmits droppedService.external (emptyRelease "1.1") (emptyRelease "2.0.1") ⟨2, 0, 1⟩ ∧
      ∃ message' after', (provideSpecInner droppedService (emptyRelease "2.0.1") {}).run
        (World.handle steadyEnvironment) after =
          some (.error (.versionConflict message' ⟨3, 0, 0⟩), after') := by
  have refused : refusedWith (proposes ⟨2, 0, 1⟩) (fun after => refusedWith (proposes ⟨3, 0, 0⟩)
      (fun _ => true) ((provideSpecInner droppedService (emptyRelease "2.0.1") {}).run
        (World.handle steadyEnvironment) after)) ((provideSpecInner droppedService (emptyRelease "1.1")
          {}).run (World.handle steadyEnvironment)
            (messageWorld (List.replicate 7 0 ++ List.replicate 7 1))) = true := by decide +kernel
  obtain ⟨error, after, ran, conflict, again⟩ := refusedWith_spec refused
  obtain ⟨message, rfl⟩ := (proposes_iff _ _).mp conflict
  obtain ⟨error', after', ran', conflict', -⟩ := refusedWith_spec again
  obtain ⟨message', rfl⟩ := (proposes_iff _ _).mp conflict'
  exact ⟨message, after, ran, emptyRelease_resubmits (by decide +kernel) (by decide +kernel)
    (by decide +kernel), message', after', ran'⟩

/-- Where the next major is free, the proposed number is published. -/
theorem proposed_number_publishable_two :
    ∃ message after response after', (provideSpecInner droppedService (emptyRelease "1.1") {}).run
        (World.handle steadyEnvironment) (messageWorld (List.replicate 7 0)) =
          some (.error (.versionConflict message ⟨2, 0, 0⟩), after) ∧
      (provideSpecInner droppedService (emptyRelease "2") {}).run (World.handle steadyEnvironment)
        (messageWorld (List.replicate 7 0)) = some (.ok response, after') ∧
      Unobstructed droppedService.external (messageWorld (List.replicate 7 0)).store
        (emptyRelease "1.1") (emptyRelease "2") := by
  have refused : refusedWith (proposes ⟨2, 0, 0⟩) (fun _ => true)
      ((provideSpecInner droppedService (emptyRelease "1.1") {}).run (World.handle steadyEnvironment)
        (messageWorld (List.replicate 7 0))) = true := by decide +kernel
  have answered : answeredWith (fun _ => true) ((provideSpecInner droppedService (emptyRelease "2")
      {}).run (World.handle steadyEnvironment) (messageWorld (List.replicate 7 0))) = true := by
    decide +kernel
  obtain ⟨error, after, ran, conflict, -⟩ := refusedWith_spec refused
  obtain ⟨message, rfl⟩ := (proposes_iff _ _).mp conflict
  obtain ⟨response, after', ran', -⟩ := answeredWith_spec answered
  refine ⟨message, after, response, after', ran, ran', ?_⟩
  refine (proposed_number_publishable_iff droppedService _ _ _ _ _ steadyEnvironment _ _ _ _ _ _ _ ran
    (emptyRelease_resubmits (by decide +kernel) (by decide +kernel) (by decide +kernel))
    (fun _ _ => rfl) (fun _ => rfl) ran').mp ?_
  intro text offered same
  cases same

end Claims
end Sanshain.Guarantees
