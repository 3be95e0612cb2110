import Sanshain.Application.SpecHistory
import Sanshain.Guarantees.Runs

namespace Sanshain.Guarantees

open Sanshain.Application Sanshain.Data Sanshain.Domain Sanshain.Effects Sanshain.Infrastructure
  Sanshain.Text

/-- The place on the new side that the script says is equal to a place on the old side. -/
def Matched (ops : List DiffOp) (old new : Nat) : Prop :=
  ∃ oldIndex newIndex len d, DiffOp.equal oldIndex newIndex len ∈ ops ∧ d < len ∧
    old = oldIndex + d ∧ new = newIndex + d

/-- A text of a history, by its step. -/
def textAt (texts : List (List Line)) (step : Nat) : List Line := texts[step]?.getD []

/-- The script from a text of a history to the next one. -/
def scriptAt (differ : LineDiffer) (texts : List (List Line)) (step : Nat) : List DiffOp :=
  differ.ops (textAt texts step) (textAt texts (step + 1))

/-- A line of the last text stood in every text from its owner on, at places linked by equal
operations, and its owner brought it. -/
structure LineTrace (differ : LineDiffer) (texts : List (List Line)) (line : Line) (owner last : Nat)
    (place : Nat → Nat) : Prop where
  owner_le : owner ≤ last
  same : ∀ step, owner ≤ step → step ≤ last → (textAt texts step)[place step]? = some line
  linked : ∀ step, owner ≤ step → step < last →
    Matched (scriptAt differ texts step) (place step) (place (step + 1))
  brought : ∀ step, owner = step + 1 → ∀ old, ¬ Matched (scriptAt differ texts step) old (place owner)

/-- One owner for every line of the last text, each of them true. -/
structure Truthful (differ : LineDiffer) (texts : List (List Line)) (last : Nat) (owners : List Nat) :
    Prop where
  count : owners.length = (textAt texts last).length
  traced : ∀ (j owner : Nat), owners[j]? = some owner →
    ∃ line place, (textAt texts last)[j]? = some line ∧ place last = j ∧
      LineTrace differ texts line owner last place

section Steps

variable {ops : List DiffOp} {owners next : List Nat} {step count : Nat}

theorem length_carryOwners (owners next : List Nat) (op : DiffOp) :
    (carryOwners owners next op).length = next.length := by
  cases op <;> simp [carryOwners]

theorem blameStep_snoc (ops : List DiffOp) (op : DiffOp) (owners : List Nat) (step count : Nat) :
    blameStep (ops ++ [op]) owners step count = carryOwners owners (blameStep ops owners step count) op := by
  simp [blameStep]

@[simp] theorem length_blameStep (ops : List DiffOp) (owners : List Nat) (step count : Nat) :
    (blameStep ops owners step count).length = count := by
  induction ops using List.reverseRecOn with
  | nil => simp [blameStep]
  | append_singleton ops op ih => rw [blameStep_snoc, length_carryOwners, ih]

theorem matched_snoc {op : DiffOp} {old new : Nat} :
    Matched (ops ++ [op]) old new ↔ Matched ops old new ∨ Matched [op] old new := by
  simp only [Matched, List.mem_append]
  constructor
  · rintro ⟨o, n, len, d, among | among, rest⟩
    · exact .inl ⟨o, n, len, d, among, rest⟩
    · exact .inr ⟨o, n, len, d, among, rest⟩
  · rintro (⟨o, n, len, d, among, rest⟩ | ⟨o, n, len, d, among, rest⟩)
    · exact ⟨o, n, len, d, .inl among, rest⟩
    · exact ⟨o, n, len, d, .inr among, rest⟩

/-- One operation: a place that it pairs takes the owner there, any other stays. -/
theorem getElem?_carryOwners {op : DiffOp} {j owner : Nat}
    (held : (carryOwners owners next op)[j]? = some owner) :
    (∃ i, Matched [op] i j ∧ owners[i]? = some owner) ∨
      next[j]? = some owner ∧ ∀ i, Matched [op] i j → owners[i]? = none := by
  cases op with
  | equal oldIndex newIndex len =>
      rw [carryOwners, List.getElem?_mapIdx, Option.map_eq_some_iff] at held
      obtain ⟨before, there, held⟩ := held
      by_cases inside : newIndex ≤ j ∧ j < newIndex + len
      · rw [if_pos inside] at held
        have paired : Matched [.equal oldIndex newIndex len] (oldIndex + (j - newIndex)) j :=
          ⟨oldIndex, newIndex, len, j - newIndex, by simp, by omega, rfl, by omega⟩
        cases carried : owners[oldIndex + (j - newIndex)]? with
        | some value =>
            rw [carried] at held
            exact .inl ⟨_, paired, by rw [carried]; exact congrArg some held⟩
        | none =>
            rw [carried] at held
            cases held
            refine .inr ⟨there, ?_⟩
            rintro i ⟨o, n, l, d, among, within, rfl, rfl⟩
            cases List.mem_singleton.mp among
            rwa [Nat.add_sub_cancel_left] at carried
      · rw [if_neg inside] at held
        cases held
        refine .inr ⟨there, ?_⟩
        rintro i ⟨o, n, l, d, among, within, rfl, rfl⟩
        cases List.mem_singleton.mp among
        omega
  | delete oldIndex oldLen newIndex =>
      refine .inr ⟨held, ?_⟩
      rintro i ⟨_, _, _, _, among, -⟩
      simp at among
  | insert oldIndex newIndex newLen =>
      refine .inr ⟨held, ?_⟩
      rintro i ⟨_, _, _, _, among, -⟩
      simp at among
  | replace oldIndex oldLen newIndex newLen =>
      refine .inr ⟨held, ?_⟩
      rintro i ⟨_, _, _, _, among, -⟩
      simp at among

/-- A line keeps the owner of an old line that it is paired with; where there is none, it is new. -/
theorem getElem?_blameStep {j owner : Nat} (held : (blameStep ops owners step count)[j]? = some owner) :
    (∃ i, Matched ops i j ∧ owners[i]? = some owner) ∨
      owner = step ∧ ∀ i, Matched ops i j → owners[i]? = none := by
  induction ops using List.reverseRecOn generalizing owner with
  | nil =>
      have fresh := List.mem_of_getElem? held
      simp only [blameStep, List.foldl_nil, List.mem_replicate] at fresh
      refine .inr ⟨fresh.2, ?_⟩
      rintro i ⟨_, _, _, _, among, -⟩
      simp at among
  | append_singleton ops op ih =>
      rw [blameStep_snoc] at held
      obtain ⟨i, paired, carried⟩ | ⟨held, apart⟩ := getElem?_carryOwners held
      · exact .inl ⟨i, matched_snoc.mpr (.inr paired), carried⟩
      · obtain ⟨i, paired, carried⟩ | ⟨fresh, apart'⟩ := ih held
        · exact .inl ⟨i, matched_snoc.mpr (.inl paired), carried⟩
        · refine .inr ⟨fresh, ?_⟩
          intro i paired
          rcases matched_snoc.mp paired with earlier | here
          · exact apart' i earlier
          · exact apart i here

end Steps

section Histories

variable {differ : LineDiffer} {texts more : List (List Line)} {owners : List Nat} {last : Nat}

theorem textAt_append {step : Nat} (inside : step < texts.length) :
    textAt (texts ++ more) step = textAt texts step := by
  rw [textAt, List.getElem?_append_left inside, textAt]

theorem textAt_snoc (texts : List (List Line)) (text : List Line) :
    textAt (texts ++ [text]) texts.length = text := by
  simp [textAt]

theorem scriptAt_append {step : Nat} (inside : step + 1 < texts.length) :
    scriptAt differ (texts ++ more) step = scriptAt differ texts step := by
  rw [scriptAt, textAt_append (by omega), textAt_append inside, scriptAt]

/-- What the operations of a script say is equal is equal. -/
def Paired (differ : LineDiffer) (old new : List Line) : Prop :=
  ∀ op ∈ differ.ops old new, op.Pairs old new

theorem Paired.same {old new : List Line} (paired : Paired differ old new) {i j : Nat}
    (matched : Matched (differ.ops old new) i j) : ∃ line, old[i]? = some line ∧ new[j]? = some line := by
  obtain ⟨oldIndex, newIndex, len, d, among, inside, rfl, rfl⟩ := matched
  exact paired _ among d inside

/-- A later text takes over a trace and lengthens it by one place. -/
theorem LineTrace.later {line : Line} {owner i j : Nat} {place : Nat → Nat} {text : List Line}
    (traced : LineTrace differ texts line owner last place) (count : texts.length = last + 1)
    (here : place last = i) (matched : Matched (differ.ops (textAt texts last) text) i j)
    (there : text[j]? = some line) :
    LineTrace differ (texts ++ [text]) line owner (last + 1) (fun step => if step ≤ last then place step else j) := by
  have newest : textAt (texts ++ [text]) (last + 1) = text := by
    rw [← count]
    exact textAt_snoc texts text
  constructor
  · exact Nat.le_succ_of_le traced.owner_le
  · intro step from_owner upto
    by_cases inside : step ≤ last
    · rw [if_pos inside, textAt_append (by omega)]
      exact traced.same step from_owner inside
    · have final : step = last + 1 := by omega
      rw [if_neg inside, final, newest, there]
  · intro step from_owner before
    by_cases inside : step < last
    · rw [if_pos (by omega), if_pos (by omega), scriptAt_append (by omega)]
      exact traced.linked step from_owner inside
    · have final : step = last := by omega
      rw [if_pos (by omega), if_neg (by omega), final, here, scriptAt, newest, textAt_append (by omega)]
      exact matched
  · intro step from_owner old
    have below := traced.owner_le
    rw [if_pos below, scriptAt_append (by omega)]
    exact traced.brought step from_owner old

/-- One more text: its lines keep the owners of the old lines they are paired with. -/
theorem Truthful.step (truthful : Truthful differ texts last owners) (count : texts.length = last + 1)
    {text : List Line} (paired : Paired differ (textAt texts last) text) :
    Truthful differ (texts ++ [text]) (last + 1)
      (blameStep (differ.ops (textAt texts last) text) owners (last + 1) text.length) := by
  have newest : textAt (texts ++ [text]) (last + 1) = text := by
    rw [← count]
    exact textAt_snoc texts text
  constructor
  · rw [length_blameStep, newest]
  · intro j owner held
    have inside : j < text.length := by
      have := (List.getElem?_eq_some_iff.mp held).1
      rwa [length_blameStep] at this
    rw [newest]
    obtain ⟨i, matched, carried⟩ | ⟨fresh, apart⟩ := getElem?_blameStep held
    · obtain ⟨line, place, old, here, traced⟩ := truthful.traced i owner carried
      obtain ⟨line', old', new⟩ := paired.same matched
      cases Option.some.inj (old.symm.trans old')
      exact ⟨line, _, new, if_neg (by omega), traced.later count here matched new⟩
    · have alone : ∀ i, ¬ Matched (differ.ops (textAt texts last) text) i j := by
        intro i matched
        obtain ⟨line, old, -⟩ := paired.same matched
        have short := (List.getElem?_eq_some_iff.mp old).1
        have missing := List.getElem?_eq_none_iff.mp (apart i matched)
        have length := truthful.count
        omega
      subst fresh
      refine ⟨text[j], fun _ => j, List.getElem?_eq_getElem inside, rfl, le_rfl, ?_, ?_, ?_⟩
      · intro step from_owner upto
        have final : step = last + 1 := by omega
        rw [final, newest]
        exact List.getElem?_eq_getElem inside
      · intro step from_owner before
        omega
      · intro step final old
        cases final
        rw [scriptAt, newest, textAt_append (by omega)]
        exact alone old

/-- The whole history, one text after another. -/
theorem Truthful.run {rest : List (List Line)} (truthful : Truthful differ texts last owners)
    (count : texts.length = last + 1)
    (paired : (textAt texts last :: rest).IsChain (Paired differ)) :
    Truthful differ (texts ++ rest) (last + rest.length)
      (blameFrom differ owners (textAt texts last) (last + 1) rest) := by
  induction rest generalizing texts last owners with
  | nil => simpa [blameFrom] using truthful
  | cons text rest ih =>
      rw [List.isChain_cons_cons] at paired
      have stepped := truthful.step count paired.1
      have newest : textAt (texts ++ [text]) (last + 1) = text := by
        rw [← count]
        exact textAt_snoc texts text
      have later := ih stepped (by simp [count]) (by rw [newest]; exact paired.2)
      rw [newest, List.append_assoc, List.singleton_append] at later
      have length : last + (text :: rest).length = last + 1 + rest.length := by
        rw [List.length_cons]
        omega
      rw [blameFrom, length]
      exact later

/-- The oldest text owns all its lines. -/
theorem truthful_first (differ : LineDiffer) (text : List Line) :
    Truthful differ [text] 0 (List.replicate text.length 0) := by
  constructor
  · simp [textAt]
  · intro j owner held
    obtain ⟨inside, owned⟩ := List.getElem?_eq_some_iff.mp held
    rw [List.getElem_replicate] at owned
    rw [List.length_replicate] at inside
    subst owned
    refine ⟨text[j], fun _ => j, by simp [textAt, List.getElem?_eq_getElem inside], rfl, le_rfl, ?_, ?_, ?_⟩
    · intro step _ upto
      cases Nat.le_zero.mp upto
      simp [textAt, List.getElem?_eq_getElem inside]
    · intro step _ before
      omega
    · intro step final
      omega

theorem truthful_blameLines (differ : LineDiffer) (first : String) (rest : List String)
    (paired : ((first :: rest).map fun text => lines text.toList).IsChain (Paired differ)) :
    Truthful differ ((first :: rest).map fun text => lines text.toList) rest.length
      (blameLines differ (first :: rest)) := by
  have chain : (textAt [lines first.toList] 0 :: rest.map fun text => lines text.toList).IsChain
      (Paired differ) := paired
  have whole := (truthful_first differ (lines first.toList)).run rfl chain
  rw [List.length_map, Nat.zero_add] at whole
  exact whole

end Histories

section Runs

/-- The first run starts at a place, and every other one where the run before it ends. -/
def Consecutive : Nat → List BlameRun → Prop
  | _, [] => True
  | place, run :: rest => run.start = place ∧ Consecutive (place + run.len) rest

/-- The lines in consecutive runs, none of them empty and none that could be longer. -/
structure MaximalRuns (owners : List Nat) (runs : List BlameRun) : Prop where
  owned : runs.flatMap (fun run => List.replicate run.len run.owner) = owners
  filled : ∀ run ∈ runs, 0 < run.len
  consecutive : Consecutive 0 runs
  maximal : runs.IsChain fun run next => run.owner ≠ next.owner

theorem consecutive_append {place : Nat} {runs more : List BlameRun} :
    Consecutive place (runs ++ more) ↔
      Consecutive place runs ∧ Consecutive (place + (runs.map (·.len)).sum) more := by
  induction runs generalizing place with
  | nil => simp [Consecutive]
  | cons run rest ih =>
      simp only [List.cons_append, Consecutive, ih, List.map_cons, List.sum_cons, and_assoc, Nat.add_assoc]

theorem MaximalRuns.length {owners : List Nat} {runs : List BlameRun} (grouped : MaximalRuns owners runs) :
    (runs.map (·.len)).sum = owners.length := by
  rw [← grouped.owned, List.length_flatMap]
  simp

/-- One more line. -/
theorem MaximalRuns.addOwner {owners : List Nat} {runs : List BlameRun} (grouped : MaximalRuns owners runs)
    (owner : Nat) : MaximalRuns (owners ++ [owner]) (addOwner runs (owner, owners.length)) := by
  have length := grouped.length
  have opened : (∀ run ∈ runs.getLast?, run.owner ≠ owner) →
      MaximalRuns (owners ++ [owner]) (runs ++ [⟨owner, owners.length, 1⟩]) := by
    intro apart
    constructor
    · simp [List.flatMap_append, grouped.owned]
    · rw [List.forall_mem_append]
      exact ⟨grouped.filled, by simp⟩
    · rw [consecutive_append, length, Nat.zero_add]
      exact ⟨grouped.consecutive, rfl, trivial⟩
    · rw [List.isChain_append]
      refine ⟨grouped.maximal, by simp, ?_⟩
      intro run final next first
      cases first
      exact apart run final
  unfold Application.addOwner
  cases final : runs.getLast? with
  | none => exact opened (by simp [final])
  | some run =>
      by_cases same : run.owner = owner
      · simp only [if_pos same]
        have whole : runs.dropLast ++ [run] = runs := List.dropLast_append_getLast? run final
        generalize runs.dropLast = front at whole
        subst whole
        subst same
        obtain ⟨owned, filled, consecutive, maximal⟩ := grouped
        rw [consecutive_append] at consecutive
        constructor
        · rw [← owned]
          simp [List.flatMap_append, List.replicate_succ']
        · rw [List.forall_mem_append] at filled ⊢
          exact ⟨filled.1, by simp⟩
        · rw [consecutive_append]
          exact ⟨consecutive.1, consecutive.2.1, trivial⟩
        · rw [List.isChain_append] at maximal ⊢
          refine ⟨maximal.1, by simp, ?_⟩
          intro before last next first
          cases first
          exact maximal.2.2 before last run rfl
      · simp only [if_neg same]
        apply opened
        intro other last
        rw [final] at last
        cases last
        exact same

theorem maximalRuns_groupBlame (owners : List Nat) : MaximalRuns owners (groupBlame owners) := by
  induction owners using List.reverseRecOn with
  | nil => exact ⟨rfl, by simp [groupBlame], trivial, List.isChain_nil⟩
  | append_singleton owners owner ih =>
      have step : groupBlame (owners ++ [owner]) =
          addOwner (groupBlame owners) (owner, owners.length) := by
        simp [groupBlame, List.zipIdx_append]
      rw [step]
      exact ih.addOwner owner

/-- Consecutive runs cut a list of their length into pieces that make it up. -/
theorem flatMap_consecutive {α : Type} (list : List α) {runs : List BlameRun} {place : Nat}
    (consecutive : Consecutive place runs) (length : place + (runs.map (·.len)).sum = list.length) :
    runs.flatMap (fun run => (list.drop run.start).take run.len) = list.drop place := by
  induction runs generalizing place with
  | nil =>
      rw [List.flatMap_nil, List.drop_eq_nil_of_le]
      simp at length
      omega
  | cons run rest ih =>
      obtain ⟨rfl, later⟩ := consecutive
      rw [List.map_cons, List.sum_cons, ← Nat.add_assoc] at length
      rw [List.flatMap_cons, ih later length, ← List.drop_drop]
      exact List.take_append_drop _ _

end Runs

section Versions

variable {external : Document.External} {environment : Environment} {world after : World} {apiType : ApiType}
  {endpoint : Option (String × String)}

/-- One read: a fault answers an internal error. -/
def readOrigins (environment : Environment) : Handler World OriginRead OriginRead.Answer
  | world, .listVersionOrigins =>
      (⟨world.database, world.steps + 1⟩,
        match environment.fault world.steps with
        | some reason => .error (.internal reason)
        | none => .ok (world.store.origins.map fun row => (row.specVersionId, row.origin)))

/-- The database, read for its origins too. -/
def handleHistory (environment : Environment) :
    Handler World (Call ⊕ OriginRead) (Sum.elim Call.Answer OriginRead.Answer) :=
  (World.handle environment).beside (readOrigins environment)

/-- The text of a stored version: its document, or the one endpoint. -/
def viewedText (external : Document.External) (apiType : ApiType) (row : SpecVersionRow) :
    Option (String × String) → String
  | none => row.content
  | some (path, method) => endpointText external apiType path method row.endpoints

/-- The text that the store shows under an identity. -/
def shownText (external : Document.External) (apiType : ApiType) (endpoint : Option (String × String))
    (store : Store) (id : Nat) : String :=
  match endpoint with
  | none => ((store.specVersionById? id).map (·.content)).getD ""
  | some (path, method) => endpointText external apiType path method (store.endpointsOf id)

theorem shownText_row (sound : world.store.Integrity) {row : SpecVersionRow}
    (among : row ∈ world.store.specVersions) :
    shownText external apiType endpoint world.store row.entry.id =
      viewedText external apiType row endpoint := by
  have found := sound.specVersionById?_of_mem among
  cases endpoint with
  | none => simp [shownText, viewedText, found]
  | some key => simp [shownText, viewedText, Store.endpointsOf, found]

theorem ran_versionText {id : Nat} {text : String}
    (ran : (versionText external id apiType endpoint).run (World.handle environment) world =
      some (.ok text, after)) :
    text = shownText external apiType endpoint world.store id ∧ after.store = world.store := by
  cases endpoint with
  | none =>
      obtain ⟨found, middle, read, ended⟩ := Program.run_bind_ok ran
      obtain ⟨⟨now, answered⟩, same⟩ := ran_reading rfl read
      cases answered
      cases ended
      exact ⟨rfl, same⟩
  | some key =>
      obtain ⟨found, middle, read, ended⟩ := Program.run_bind_ok ran
      obtain ⟨⟨now, answered⟩, same⟩ := ran_reading rfl read
      cases answered
      cases ended
      exact ⟨rfl, same⟩

/-- The texts of a line, in its order. -/
theorem ran_versionTexts {entries : List SpecVersionMeta} {texts : List String}
    (ran : (versionTexts external apiType endpoint entries).run (World.handle environment) world =
      some (.ok texts, after)) :
    texts = entries.map (fun entry => shownText external apiType endpoint world.store entry.id) ∧
      after.store = world.store := by
  suffices general : ∀ (past : List String) (start : World), start.store = world.store →
      (Program.foldEach (fun texts entry => do
        let text ← versionText external entry.id apiType endpoint
        .done (texts ++ [text])) past entries).run (World.handle environment) start =
          some (.ok texts, after) →
      texts = past ++ entries.map (fun entry => shownText external apiType endpoint world.store entry.id) ∧
        after.store = world.store from general [] world rfl ran
  clear ran
  induction entries with
  | nil =>
      intro past start same ran
      cases ran
      exact ⟨by simp, same⟩
  | cons entry rest ih =>
      intro past start same ran
      obtain ⟨next, middle, first, later⟩ := Program.run_bind_ok ran
      obtain ⟨text, reached, read, ended⟩ := Program.run_bind_ok first
      obtain ⟨told, kept⟩ := ran_versionText read
      cases ended
      obtain ⟨told', kept'⟩ := ih _ _ (kept.trans same) later
      refine ⟨?_, kept'⟩
      rw [told', told, same, List.map_cons, List.append_assoc, List.singleton_append]

/-- The pin that a use case resolved is a stored version. -/
theorem ran_resolvePin {producername : String} {version : SemVer} {found : Nat × SpecVersionMeta}
    (ran : (resolvePin producername apiType version).run (World.handle environment) world =
      some (.ok found, after)) :
    ∃ service row, world.store.serviceNamed? producername = some service ∧
      world.store.specVersion? (service.id, apiType, version) = some row ∧
      found = (service.id, row.entry) ∧ after.store = world.store := by
  obtain ⟨service, middle, read, ran⟩ := Program.run_bind_ok ran
  obtain ⟨⟨now, answered⟩, same⟩ := ran_reading rfl read
  cases named : world.store.serviceNamed? producername with
  | none =>
      have missing : service = none := by
        have shown := Except.ok.inj answered
        rw [← shown, named]
        rfl
      subst missing
      cases ran
  | some row =>
      have shown : service = some row.id := by
        have shown := Except.ok.inj answered
        rw [← shown, named]
        rfl
      subst shown
      obtain ⟨entry, reached, read, ran⟩ := Program.run_bind_ok ran
      obtain ⟨⟨now, answered⟩, same'⟩ := ran_reading rfl read
      have shown := Except.ok.inj answered
      rw [same] at shown
      cases stored : world.store.specVersion? (row.id, apiType, version) with
      | none =>
          rw [stored] at shown
          subst shown
          cases ran
      | some version =>
          rw [stored] at shown
          subst shown
          cases ran
          exact ⟨row, version, rfl, stored, rfl, same'.trans same⟩

/-- The newest of a sorted line is one that no other is newer than. -/
theorem version_le_getLast {entries : List SpecVersionMeta} {last entry : SpecVersionMeta}
    (newest : (entries.insertionSort fun first second => first.version ≤ second.version).getLast? =
      some last) (among : entry ∈ entries) : entry.version ≤ last.version := by
  have sorted : ((entries.insertionSort fun first second => first.version ≤ second.version).map
      (·.version)).Pairwise (· ≤ ·) := by
    rw [List.map_insertionSort (fun first second => first.version ≤ second.version) (· ≤ ·)
      (·.version) entries fun _ _ _ _ => Iff.rfl]
    exact List.sortedLE_insertionSort.pairwise
  have held := (List.mem_insertionSort fun first second : SpecVersionMeta =>
    first.version ≤ second.version).mpr among
  generalize (entries.insertionSort fun first second => first.version ≤ second.version) = line at *
  rw [← List.dropLast_append_getLast? last newest, List.map_append, List.pairwise_append] at sorted
  rw [← List.dropLast_append_getLast? last newest, List.mem_append, List.mem_singleton] at held
  rcases held with earlier | rfl
  · exact sorted.2.2 _ (List.mem_map_of_mem earlier) _ (by simp)
  · exact le_rfl

/-- A version's line ends with that version. -/
theorem ran_versionLine (sound : world.store.Integrity) {producername : String} {version : SemVer}
    {entries : List SpecVersionMeta}
    (ran : (versionLine producername apiType version).run (World.handle environment) world =
      some (.ok entries, after)) :
    ∃ service row, world.store.serviceNamed? producername = some service ∧
      world.store.specVersion? (service.id, apiType, version) = some row ∧
      entries.getLast? = some row.entry ∧ after.store = world.store := by
  obtain ⟨found, middle, resolved, ran⟩ := Program.run_bind_ok ran
  obtain ⟨service, row, named, stored, rfl, same⟩ := ran_resolvePin resolved
  obtain ⟨listed, reached, read, ended⟩ := Program.run_bind_ok ran
  obtain ⟨⟨now, answered⟩, same'⟩ := ran_reading rfl read
  have shown := Except.ok.inj answered
  rw [same] at shown
  subst shown
  cases ended
  obtain ⟨among, key⟩ := Store.mem_of_specVersion? stored
  have parts := key
  simp only [SpecVersionRow.key, Prod.mk.injEq] at parts
  obtain ⟨mine, kind, own⟩ := parts
  have held : row.entry ∈ (world.store.listSpecVersions service.id).filter fun entry =>
      entry.apiType = apiType && entry.version ≤ version := by
    rw [List.mem_filter]
    exact ⟨Store.mem_listSpecVersions.mpr ⟨row, among, mine, rfl⟩, by simp [kind, own]⟩
  refine ⟨service, row, named, stored, ?_, same'.trans same⟩
  cases newest : (((world.store.listSpecVersions service.id).filter fun entry =>
      entry.apiType = apiType && entry.version ≤ version).insertionSort
        fun first second => first.version ≤ second.version).getLast? with
  | none =>
      have empty := List.getLast?_eq_none_iff.mp newest
      have sorted := (List.mem_insertionSort fun first second : SpecVersionMeta =>
        first.version ≤ second.version).mpr held
      rw [empty] at sorted
      cases sorted
  | some last =>
      have upper := version_le_getLast newest held
      have listed := (List.mem_insertionSort _).mp (List.mem_of_getLast? newest)
      rw [List.mem_filter, Bool.and_eq_true, decide_eq_true_eq, decide_eq_true_eq] at listed
      obtain ⟨listed, kind', lower⟩ := listed
      obtain ⟨other, among', mine', rfl⟩ := Store.mem_listSpecVersions.mp listed
      have equal : other.key = row.key := by
        rw [key, SpecVersionRow.key, mine', kind', le_antisymm lower (own ▸ upper)]
      rw [sound.row_unique among' among equal]

/-- An owner is a text of the history. -/
theorem blameFrom_lt (differ : LineDiffer) {owners : List Nat} {previous : List Line} {step : Nat}
    (rest : List (List Line)) (below : ∀ owner ∈ owners, owner < step) :
    ∀ owner ∈ blameFrom differ owners previous step rest, owner < step + rest.length := by
  induction rest generalizing owners previous step with
  | nil => exact below
  | cons text rest ih =>
      have next : ∀ owner ∈ blameStep (differ.ops previous text) owners step text.length,
          owner < step + 1 := by
        intro owner among
        obtain ⟨j, held⟩ := List.getElem?_of_mem among
        obtain ⟨i, -, carried⟩ | ⟨fresh, -⟩ := getElem?_blameStep held
        · exact Nat.lt_succ_of_lt (below owner (List.mem_of_getElem? carried))
        · omega
      intro owner among
      have bound := ih next owner among
      rw [List.length_cons]
      omega

theorem length_blameFrom (differ : LineDiffer) (owners : List Nat) (previous : List Line) (step : Nat)
    (rest : List (List Line)) (count : owners.length = previous.length) :
    (blameFrom differ owners previous step rest).length = ((previous :: rest).getLast?.getD []).length := by
  induction rest generalizing owners previous step with
  | nil => simpa [blameFrom] using count
  | cons text rest ih =>
      rw [blameFrom, ih _ _ _ (length_blameStep _ _ _ _), List.getLast?_cons_cons]

theorem MaximalRuns.owner_mem {owners : List Nat} {runs : List BlameRun} (grouped : MaximalRuns owners runs)
    {run : BlameRun} (among : run ∈ runs) : run.owner ∈ owners := by
  rw [← grouped.owned, List.mem_flatMap]
  have filled := grouped.filled run among
  exact ⟨run, among, List.mem_replicate.mpr ⟨by omega, rfl⟩⟩

theorem flatMap_filterMap {α β γ : Type} {list : List α} {keep : α → Option β} {parts : β → List γ}
    {pieces : α → List γ} (kept : ∀ a ∈ list, ∃ b, keep a = some b ∧ parts b = pieces a) :
    (list.filterMap keep).flatMap parts = list.flatMap pieces := by
  induction list with
  | nil => rfl
  | cons a rest ih =>
      obtain ⟨b, found, same⟩ := kept a List.mem_cons_self
      rw [List.filterMap_cons_some found, List.flatMap_cons, List.flatMap_cons, same,
        ih fun other among => kept other (List.mem_cons_of_mem _ among)]

/-- The blocks of a history are its last text. -/
theorem flatMap_blameBlocks (differ : LineDiffer) (entries : List SpecVersionMeta) (texts : List String)
    (origins : Entries Nat VersionOrigin) (count : texts.length = entries.length) :
    ((groupBlame (blameLines differ texts)).filterMap (blameBlock entries
        ((texts.getLast?.map fun text => lines text.toList).getD []) origins)).flatMap (·.lines) =
      (texts.getLast?.map fun text => lines text.toList).getD [] := by
  have grouped := maximalRuns_groupBlame (blameLines differ texts)
  have below : ∀ owner ∈ blameLines differ texts, owner < entries.length := by
    cases texts with
    | nil => simp [blameLines]
    | cons first rest =>
        intro owner among
        have first_owned : ∀ owner ∈ List.replicate (lines first.toList).length 0, owner < 1 := by
          intro owner among
          rw [(List.mem_replicate.mp among).2]
          exact Nat.one_pos
        have bound := blameFrom_lt differ _ first_owned owner among
        rw [List.length_map] at bound
        rw [← count, List.length_cons]
        omega
  have length : (blameLines differ texts).length =
      ((texts.getLast?.map fun text => lines text.toList).getD []).length := by
    cases texts with
    | nil => rfl
    | cons first rest =>
        rw [blameLines, length_blameFrom _ _ _ _ _ List.length_replicate, ← List.getLast?_map,
          List.map_cons]
  generalize (texts.getLast?.map fun text => lines text.toList).getD [] = last at *
  have pieces := flatMap_consecutive last grouped.consecutive (by rw [grouped.length, length, Nat.zero_add])
  rw [List.drop_zero] at pieces
  rw [← pieces]
  apply flatMap_filterMap
  intro run among
  have inside := below run.owner (grouped.owner_mem among)
  exact ⟨_, by rw [blameBlock, List.getElem?_eq_getElem inside]; rfl, by rw [pieces]⟩

theorem ran_beside {Value : Type} {program : UseCase Value} {outcome : Except AppError Value}
    (ran : (program.beside : HistoryUseCase Value).run (handleHistory environment) world =
      some (outcome, after)) :
    program.run (World.handle environment) world = some (outcome, after) := by
  rwa [handleHistory, Program.run_beside] at ran

/-- What blame answers for a version is its text. -/
theorem ran_blameVersion (sound : world.store.Integrity) {differ : LineDiffer} {producername : String}
    {version : SemVer} {blocks : List BlameBlock}
    (ran : (blameVersion external differ producername apiType version endpoint).run
      (handleHistory environment) world = some (.ok blocks, after)) :
    ∃ service row, world.store.serviceNamed? producername = some service ∧
      world.store.specVersion? (service.id, apiType, version) = some row ∧
      blocks.flatMap (·.lines) = lines (viewedText external apiType row endpoint).toList := by
  obtain ⟨entries, middle, listed, ran⟩ := Program.run_bind_ok ran
  obtain ⟨service, row, named, stored, newest, same⟩ := ran_versionLine sound (ran_beside listed)
  obtain ⟨texts, reached, read, ran⟩ := Program.run_bind_ok ran
  obtain ⟨told, -⟩ := ran_versionTexts (ran_beside read)
  obtain ⟨origins, last, answered, ended⟩ := Program.run_bind_ok ran
  cases ended
  refine ⟨service, row, named, stored, ?_⟩
  have count : texts.length = entries.length := by
    rw [told, List.length_map]
  have final : texts.getLast? = some (viewedText external apiType row endpoint) := by
    rw [told, List.getLast?_map, newest, Option.map_some, same,
      shownText_row sound (Store.mem_of_specVersion? stored).1]
  have whole := flatMap_blameBlocks differ entries texts origins count
  rw [final] at whole ⊢
  exact whole

end Versions

/-- For every history of texts whose scripts pair equal lines: every line of the last text has an owner
it is traced to, the lines are grouped into maximal runs, and what a version is shown as, whatever the
database holds, is its text. -/
theorem blameLines_truthful (differ : LineDiffer) (first : String) (rest : List String)
    (paired : ((first :: rest).map fun text => lines text.toList).IsChain (Paired differ)) :
    Truthful differ ((first :: rest).map fun text => lines text.toList) rest.length
        (blameLines differ (first :: rest)) ∧
      (∀ owners, MaximalRuns owners (groupBlame owners)) ∧
      ∀ (external : Document.External) (environment : Environment) (world after : World)
        (producername : String) (apiType : ApiType) (version : SemVer)
        (endpoint : Option (String × String)) (blocks : List BlameBlock),
        (blameVersion external differ producername apiType version endpoint).run
            (handleHistory environment) world = some (.ok blocks, after) →
          ∃ service row, world.store.serviceNamed? producername = some service ∧
            world.store.specVersion? (service.id, apiType, version) = some row ∧
            blocks.flatMap (·.lines) = lines (viewedText external apiType row endpoint).toList := by
  refine ⟨truthful_blameLines differ first rest paired, maximalRuns_groupBlame, ?_⟩
  intro external environment world after producername apiType version endpoint blocks ran
  exact ran_blameVersion world.database.sound ran

section Examples

instance (differ : LineDiffer) (old new : List Line) : Decidable (Paired differ old new) :=
  inferInstanceAs (Decidable (∀ op ∈ differ.ops old new, op.Pairs old new))

/-- The scripts of a history in which a line is changed and one is added at either end. -/
def growingDiffer : LineDiffer where
  ops old _ :=
    if old.length = 3 then [.equal 0 0 1, .replace 1 1 1 1, .equal 2 2 1, .insert 3 3 1]
    else [.insert 0 0 1, .equal 0 1 4]
  groupedOps ops _ := [ops]

theorem blameLines_truthful_growing :
    blameLines growingDiffer ["a\nb\nc\n", "a\nB\nc\nd\n", "x\na\nB\nc\nd\n"] = [2, 0, 1, 0, 1] ∧
      Truthful growingDiffer (["a\nb\nc\n", "a\nB\nc\nd\n", "x\na\nB\nc\nd\n"].map
          fun text => lines text.toList) 2
        (blameLines growingDiffer ["a\nb\nc\n", "a\nB\nc\nd\n", "x\na\nB\nc\nd\n"]) :=
  ⟨by decide +kernel, (blameLines_truthful growingDiffer "a\nb\nc\n"
    ["a\nB\nc\nd\n", "x\na\nB\nc\nd\n"] (by decide +kernel)).1⟩

end Examples
end Sanshain.Guarantees
