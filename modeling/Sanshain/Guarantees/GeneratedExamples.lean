import Sanshain.Guarantees.SampledSchemas

namespace Sanshain.Guarantees

open Sanshain.Data Sanshain.Document Sanshain.Document.Structure

section Directions

/-- A schema, what its reference resolves to or one of its parts sets a keyword. -/
inductive Marks (root : Value) (keyword : String) : Value → Prop
  | beside {raw : Value} (set : boolOf raw keyword = true) : Marks root keyword raw
  | target {raw schema : Value} {target : Option Target} (found : reached root raw = some (schema, target))
      (set : boolOf schema keyword = true) : Marks root keyword raw
  | part {raw schema part : Value} {target : Option Target} (found : reached root raw = some (schema, target))
      (among : part ∈ Structure.partsOf schema) (below : Marks root keyword part) : Marks root keyword raw

def LeavesOut (root : Value) (direction : Direction) (raw : Value) : Prop :=
  ∃ keyword, marker direction = some keyword ∧ Marks root keyword raw

variable (root : Value) (direction : Direction) (start : Visit)

/-- A schema stands in an example where the value is: as the whole of it, as a member or item of another
one, or as the variant that is chosen for another one and shares its value. -/
inductive StandsIn (whole : Value) : Bool → Visit → Value → Prop
  | top : StandsIn whole true start whole
  | member {own : Bool} {visit inner : Visit} {value field : Value} {key : String}
      (above : StandsIn whole own visit value) (among : .member key inner ∈ childrenOf root visit)
      (held : value.get? key = some field) : StandsIn whole true inner field
  | item {own : Bool} {visit inner : Visit} {value element : Value} (above : StandsIn whole own visit value)
      (among : .items inner ∈ childrenOf root visit) (held : element ∈ value.asArray.getD []) :
      StandsIn whole true inner element
  | variant {own : Bool} {visit inner : Visit} {value : Value} (above : StandsIn whole own visit value)
      (chosen : firstVariant (childrenOf root visit) = some inner) : StandsIn whole false inner value

/-- An example has no value for a member that its direction leaves out, and has one for every other member
of an object that is shown. -/
structure RespectsDirection (whole : Value) : Prop where
  left_out : ∀ own visit value, StandsIn root start whole own visit value → ∀ key inner,
    .member key inner ∈ childrenOf root visit → LeavesOut root direction inner.raw → value.get? key = none
  present : ∀ visit value, StandsIn root start whole true visit value → ∀ key inner,
    .member key inner ∈ childrenOf root visit → ¬ LeavesOut root direction inner.raw →
      value.asObject.isSome → (value.get? key).isSome

/-- A schema stands where an example takes a value from. -/
inductive TakenAt : Bool → Visit → Place → Prop
  | top : TakenAt true start (.schema start)
  | member {own : Bool} {visit inner : Visit} {place field : Place} {key : String}
      (above : TakenAt own visit place) (among : .member key inner ∈ childrenOf root visit)
      (brings : BringsAt root direction place key field) : TakenAt true inner field
  | item {own : Bool} {visit inner : Visit} {place element : Place} (above : TakenAt own visit place)
      (among : .items inner ∈ childrenOf root visit) (holds : HoldsAt root direction place element) :
      TakenAt true inner element
  | variant {own : Bool} {visit inner : Visit} {place : Place} (above : TakenAt own visit place)
      (chosen : firstVariant (childrenOf root visit) = some inner) : TakenAt false inner place

/-- Of a member that the direction leaves out, neither the schema that is shown for it nor the variants
chosen for that one keep the key, and of every other member of an object they do. -/
structure MarksTold : Prop where
  left_out : ∀ own visit place, TakenAt root direction start own visit place → ∀ key inner,
    .member key inner ∈ childrenOf root visit → LeavesOut root direction inner.raw →
      ¬ CarriesAt root direction place key
  present : ∀ visit place, TakenAt root direction start true visit place → ∀ key inner,
    .member key inner ∈ childrenOf root visit → ¬ LeavesOut root direction inner.raw →
      ShowsObjectAt root direction place → CarriesAt root direction place key

end Directions

section Sampling

variable {root : Value} {direction : Direction} {start : Visit} {whole : Source} {own : Bool} {visit : Visit}

theorem standsIn_of_takenAt {place : Place} (top : SourceAt root whole (.schema start))
    (taken : TakenAt root direction start own visit place) : ∃ source, SourceAt root source place ∧
      StandsIn root start (whole.json direction) own visit (source.json direction) := by
  induction taken with
  | top => exact ⟨whole, top, .top⟩
  | member _ among brings ih =>
      obtain ⟨source, stands, shown⟩ := ih
      obtain ⟨inner, brings, stands⟩ := at_brings stands brings
      exact ⟨inner, stands, .member shown among ((brings_iff _ _ _).mpr ⟨inner, brings, rfl⟩)⟩
  | item _ among holds ih =>
      obtain ⟨source, stands, shown⟩ := ih
      obtain ⟨inner, holds, stands⟩ := at_holds stands holds
      exact ⟨inner, stands, .item shown among ((holds_iff _ _).mpr ⟨inner, holds, rfl⟩)⟩
  | variant _ chosen ih =>
      obtain ⟨source, stands, shown⟩ := ih
      exact ⟨source, stands, .variant shown chosen⟩

theorem takenAt_of_standsIn {value : Value} (top : SourceAt root whole (.schema start))
    (shown : StandsIn root start (whole.json direction) own visit value) :
    ∃ place source, TakenAt root direction start own visit place ∧ SourceAt root source place ∧
      source.json direction = value := by
  induction shown with
  | top => exact ⟨_, whole, .top, top, rfl⟩
  | member _ among held ih =>
      obtain ⟨place, source, taken, stands, rfl⟩ := ih
      obtain ⟨inner, brings, same⟩ := (brings_iff _ _ _).mp held
      obtain ⟨field, brings, stands⟩ := brings_at stands brings
      exact ⟨field, inner, .member taken among brings, stands, same⟩
  | item _ among held ih =>
      obtain ⟨place, source, taken, stands, rfl⟩ := ih
      obtain ⟨inner, holds, same⟩ := (holds_iff _ _).mp held
      obtain ⟨element, holds, stands⟩ := holds_at stands holds
      exact ⟨element, inner, .item taken among holds, stands, same⟩
  | variant _ chosen ih =>
      obtain ⟨place, source, taken, stands, same⟩ := ih
      exact ⟨place, source, .variant taken chosen, stands, same⟩

/-- An example respects its direction exactly when the schemas it is taken from tell the marks. -/
theorem respectsDirection_iff (top : SourceAt root whole (.schema start)) :
    RespectsDirection root direction start (whole.json direction) ↔ MarksTold root direction start := by
  constructor
  · intro respects
    constructor
    · intro own visit place taken key inner among marked carries
      obtain ⟨source, stands, shown⟩ := standsIn_of_takenAt top taken
      have absent := respects.left_out own visit _ shown key inner among marked
      rw [← carries_at stands, Structure.carries_iff, absent] at carries
      cases carries
    · intro visit place taken key inner among plain object
      obtain ⟨source, stands, shown⟩ := standsIn_of_takenAt top taken
      rw [← showsObject_at stands, showsObject_iff] at object
      rw [← carries_at stands, Structure.carries_iff]
      exact respects.present visit _ shown key inner among plain object
  · intro told
    constructor
    · intro own visit value shown key inner among marked
      obtain ⟨place, source, taken, stands, rfl⟩ := takenAt_of_standsIn top shown
      have absent := told.left_out own visit place taken key inner among marked
      rw [← carries_at stands, Structure.carries_iff, Option.not_isSome_iff_eq_none] at absent
      exact absent
    · intro visit value shown key inner among plain object
      obtain ⟨place, source, taken, stands, rfl⟩ := takenAt_of_standsIn top shown
      rw [← showsObject_iff, showsObject_at stands] at object
      rw [← Structure.carries_iff, carries_at stands]
      exact told.present visit place taken key inner among plain object

end Sampling

section Plain

variable {root : Value} {direction : Direction} {start visit inner : Visit} {place field : Place} {key : String}

/-- A schema, the variant that is chosen for it, the one chosen for that, and so on. -/
inductive Chooses (root : Value) : Visit → Visit → Prop
  | self {visit : Visit} : Chooses root visit visit
  | variant {visit chosen last : Visit} (first : firstVariant (childrenOf root visit) = some chosen)
      (below : Chooses root chosen last) : Chooses root visit last

/-- What the schemas of an example are that list scalars only, have their parts entered and their members
within the depth limit, mark a member first where they mark it at all, and share no member or items with
the variants chosen for them. -/
structure Plain (root : Value) (direction : Direction) (start : Visit) : Prop where
  scalar : ∀ marked visit, Reached root start marked visit → ∀ value ∈ shownValue root visit,
    value.asObject = none ∧ value.asArray = none
  entered : ∀ marked visit, Reached root start marked visit → ∀ inner, .part inner ∉ childrenOf root visit
  member : ∀ marked visit, Reached root start marked visit → ∀ key inner,
    .member key inner ∈ childrenOf root visit → key ≠ "{*}" ∧ inner.room ≠ 0 ∧
      (LeavesOut root direction inner.raw → setsFirst root direction inner = true)
  apart : ∀ marked visit, Reached root start marked visit → ∀ first second, Chooses root visit first →
    Chooses root visit second →
      (∀ key inner other, .member key inner ∈ childrenOf root first →
        .member key other ∈ childrenOf root second → inner = other) ∧
      ∀ inner other, .items inner ∈ childrenOf root first →
        .items other ∈ childrenOf root second → inner = other

theorem Chooses.concat (chooses : Chooses root visit inner) {chosen : Visit}
    (first : firstVariant (childrenOf root inner) = some chosen) : Chooses root visit chosen := by
  induction chooses with
  | self => exact .variant first .self
  | variant first' _ ih => exact .variant first' (ih first)

theorem mem_of_firstVariant {shown : List Structure.Shown} (first : firstVariant shown = some inner) :
    ∃ keyword visits, .choice keyword visits ∈ shown ∧ inner ∈ visits := by
  obtain ⟨visits, found, head⟩ := Option.bind_eq_some_iff.mp first
  obtain ⟨one, among, same⟩ := List.exists_of_findSome?_eq_some found
  cases one with
  | choice keyword visits' =>
      cases same
      exact ⟨keyword, visits, among, List.mem_of_head? head⟩
  | _ => cases same

theorem mem_of_firstItems {shown : List Structure.Shown} (first : firstItems shown = some inner) :
    .items inner ∈ shown := by
  obtain ⟨one, among, same⟩ := List.exists_of_findSome?_eq_some first
  cases one with
  | items visit =>
      cases same
      exact among
  | _ => cases same

/-- The members kept are children that are kept. -/
theorem mem_of_membersKept {shown : List Structure.Shown}
    (held : (membersKept root direction shown).get? key = some inner) :
    ∃ one ∈ shown, keptAs root direction one = some (key, inner) := by
  have folded : ∀ (shown : List Structure.Shown) (kept : Entries String Visit),
      (shown.foldl (keepMember root direction) kept).get? key = some inner →
        kept.get? key = some inner ∨ ∃ one ∈ shown, keptAs root direction one = some (key, inner) := by
    intro shown kept held
    induction shown generalizing kept with
    | nil => exact .inl held
    | cons one rest ih =>
        rw [List.foldl_cons] at held
        obtain before | ⟨other, among, same⟩ := ih _ held
        · cases kept_one : keptAs root direction one with
          | none =>
              simp only [keepMember, kept_one] at before
              exact .inl before
          | some entry =>
              simp only [keepMember, kept_one, Entries.get?_insert] at before
              split at before
              · rename_i named
                cases before
                exact .inr ⟨one, List.mem_cons_self, by rw [kept_one, ← named]⟩
              · exact .inl before
        · exact .inr ⟨other, List.mem_cons_of_mem _ among, same⟩
  obtain none_there | found := folded shown [] held
  · cases none_there
  · exact found

theorem membersKept_isSome {shown : List Structure.Shown} {one : Structure.Shown} (among : one ∈ shown)
    (kept : keptAs root direction one = some (key, inner)) :
    ((membersKept root direction shown).get? key).isSome := by
  have folded : ∀ (shown : List Structure.Shown) (fields : Entries String Visit),
      (fields.get? key).isSome ∨ one ∈ shown →
        ((shown.foldl (keepMember root direction) fields).get? key).isSome := by
    intro shown
    induction shown with
    | nil => simp
    | cons other rest ih =>
        intro fields either
        apply ih
        obtain held | among := either
        · left
          cases kept_other : keptAs root direction other with
          | none => simpa only [keepMember, kept_other] using held
          | some entry =>
              simp only [keepMember, kept_other, Entries.get?_insert]
              split
              · rfl
              · exact held
        · obtain rfl | among := List.mem_cons.mp among
          · left
            simp [keepMember, kept, Entries.get?_insert]
          · exact .inr among
  exact folded shown [] (.inr among)

theorem reached_of_childrenOf {marked : Bool} {one : Structure.Shown}
    (reached : Reached root start marked visit) (among : one ∈ childrenOf root visit) :
    (∀ inner, one.visit = some inner → Reached root start one.marked inner) ∧
      ∀ keyword visits, one = .choice keyword visits → ∀ inner ∈ visits, Reached root start true inner := by
  induction visit using @visit_induction root generalizing marked with
  | bare visit bare =>
      rw [childrenOf_bare bare] at among
      cases among
  | whole visit schema opened room enters whole =>
      rw [childrenOf_whole enters whole] at among
      constructor
      · intro inner made
        exact .child reached enters whole among made
      · intro keyword visits same inner within
        exact .variant reached enters whole (same ▸ among) within
  | part visit schema opened room part enters only ih =>
      rw [childrenOf_part enters only] at among
      exact ih (.part reached enters only) among

theorem reached_of_chooses {marked : Bool} (chooses : Chooses root visit inner)
    (reached : Reached root start marked visit) : ∃ marked, Reached root start marked inner := by
  induction chooses generalizing marked with
  | self => exact ⟨marked, reached⟩
  | variant first _ ih =>
      obtain ⟨keyword, visits, among, within⟩ := mem_of_firstVariant first
      exact ih ((reached_of_childrenOf reached among).2 keyword visits rfl _ within)

/-- A place that has no fields and no elements. -/
def Flat (place : Place) : Prop :=
  ∃ value, place = .value value ∧ value.asObject = none ∧ value.asArray = none

theorem flat_or_schema (plain : Plain root direction start) {marked : Bool} (shut : Bool)
    (reached : Reached root start marked visit) :
    Flat (placeOf root shut visit) ∨ placeOf root shut visit = .schema visit := by
  rw [placeOf]
  split
  · exact .inl ⟨.null, rfl, rfl, rfl⟩
  · cases listed : shownValue root visit with
    | none => exact .inr rfl
    | some value => exact .inl ⟨value, rfl, plain.scalar marked visit reached value listed⟩

theorem not_carriesAt_flat (flat : Flat place) : ¬ CarriesAt root direction place key := by
  obtain ⟨value, rfl, object, -⟩ := flat
  intro carries
  cases carries with
  | value held => simp [Value.get?, object] at held

theorem kept_member (plain : Plain root direction start) {marked : Bool}
    (reached : Reached root start marked visit) {one : Structure.Shown} (among : one ∈ childrenOf root visit)
    (kept : keptAs root direction one = some (key, inner)) :
    one = .member key inner ∧ setsFirst root direction inner ≠ true := by
  cases one with
  | member named below =>
      rw [keptAs] at kept
      split at kept
      · cases kept
      · rename_i left_out
        cases kept
        rw [not_or, not_or] at left_out
        exact ⟨rfl, left_out.2.2⟩
  | part below => exact absurd among (plain.entered marked visit reached below)
  | _ => cases kept

/-- A key that is carried is kept by the schema or a variant chosen for it. -/
theorem kept_of_carriesAt (plain : Plain root direction start) {marked : Bool}
    (reached : Reached root start marked visit)
    (carries : CarriesAt root direction (.schema visit) key) : ∃ chosen inner, Chooses root visit chosen ∧
      .member key inner ∈ childrenOf root chosen ∧ setsFirst root direction inner ≠ true := by
  generalize here : Place.schema visit = place at carries
  induction carries generalizing visit marked with
  | value held => cases here
  | member object held =>
      cases here
      obtain ⟨inner, held⟩ := Option.isSome_iff_exists.mp held
      obtain ⟨one, among, kept⟩ := mem_of_membersKept held
      obtain ⟨rfl, unset⟩ := kept_member plain reached among kept
      exact ⟨_, inner, .self, among, unset⟩
  | variant object first carries ih =>
      cases here
      obtain ⟨marked, reached⟩ := reached_of_chooses (.variant first .self) reached
      obtain flat | same := flat_or_schema plain true reached
      · exact absurd carries (not_carriesAt_flat flat)
      · obtain ⟨chosen, inner, chooses, among, unset⟩ := ih reached same.symm
        exact ⟨chosen, inner, .variant first chooses, among, unset⟩

theorem member_of_bringsAt (plain : Plain root direction start) {marked : Bool}
    (reached : Reached root start marked visit)
    (brings : BringsAt root direction (.schema visit) key field) : ∃ chosen inner, Chooses root visit chosen ∧
      .member key inner ∈ childrenOf root chosen ∧ field = placeOf root true inner := by
  generalize here : Place.schema visit = place at brings
  induction brings generalizing visit marked with
  | value held => cases here
  | member object held =>
      cases here
      obtain ⟨one, among, kept⟩ := mem_of_membersKept held
      obtain ⟨rfl, -⟩ := kept_member plain reached among kept
      exact ⟨_, _, .self, among, rfl⟩
  | variant object absent first brings ih =>
      cases here
      obtain ⟨marked, reached⟩ := reached_of_chooses (.variant first .self) reached
      obtain ⟨value, same, object', -⟩ | same := flat_or_schema plain true reached
      · rw [same] at brings
        cases brings with
        | value held => simp [Value.get?, object'] at held
      · obtain ⟨chosen, inner, chooses, among, told⟩ := ih reached same.symm
        exact ⟨chosen, inner, .variant first chooses, among, told⟩

theorem items_of_holdsAt (plain : Plain root direction start) {marked : Bool}
    (reached : Reached root start marked visit)
    (holds : HoldsAt root direction (.schema visit) field) : Flat field ∨ ∃ chosen inner,
      Chooses root visit chosen ∧ .items inner ∈ childrenOf root chosen ∧ field = placeOf root false inner := by
  generalize here : Place.schema visit = place at holds
  induction holds generalizing visit marked with
  | value among => cases here
  | items list there =>
      cases here
      exact .inr ⟨_, _, .self, mem_of_firstItems there, rfl⟩
  | empty list absent => exact .inl ⟨.null, rfl, rfl, rfl⟩
  | variant object bare first holds ih =>
      cases here
      obtain ⟨marked, reached⟩ := reached_of_chooses (.variant first .self) reached
      obtain ⟨value, same, -, array⟩ | same := flat_or_schema plain true reached
      · rw [same] at holds
        cases holds with
        | value among => simp [array] at among
      · obtain flat | ⟨chosen, inner, chooses, among, told⟩ := ih reached same.symm
        · exact .inl flat
        · exact .inr ⟨chosen, inner, .variant first chooses, among, told⟩

/-- Where the schemas are plain, a value is taken from the placeholder of a schema or is a scalar, and the
schema stands there itself, or as a variant chosen for it. -/
theorem schema_of_takenAt (plain : Plain root direction start) {own : Bool}
    (taken : TakenAt root direction start own visit place) : Flat place ∨ ∃ marked whole,
      place = .schema whole ∧ Reached root start marked whole ∧ Chooses root whole visit ∧
        (own = true → visit = whole) := by
  induction taken with
  | top => exact .inr ⟨true, start, rfl, .top, .self, fun _ => rfl⟩
  | member _ among brings ih =>
      obtain ⟨value, rfl, object, -⟩ | ⟨marked, whole, rfl, reached, chooses, -⟩ := ih
      · cases brings with
        | value held => simp [Value.get?, object] at held
      · obtain ⟨chosen, inner, chooses', among', rfl⟩ := member_of_bringsAt plain reached brings
        obtain rfl := (plain.apart marked whole reached _ _ chooses' chooses).1 _ _ _ among' among
        obtain ⟨_, below⟩ := reached_of_chooses chooses reached
        have here := (reached_of_childrenOf below among).1 inner rfl
        obtain flat | same := flat_or_schema plain true here
        · exact .inl flat
        · exact .inr ⟨_, inner, same, here, .self, fun _ => rfl⟩
  | item _ among holds ih =>
      obtain ⟨value, rfl, -, array⟩ | ⟨marked, whole, rfl, reached, chooses, -⟩ := ih
      · cases holds with
        | value among' => simp [array] at among'
      · obtain flat | ⟨chosen, inner, chooses', among', rfl⟩ := items_of_holdsAt plain reached holds
        · exact .inl flat
        · obtain rfl := (plain.apart marked whole reached _ _ chooses' chooses).2 _ _ among' among
          obtain ⟨_, below⟩ := reached_of_chooses chooses reached
          have here := (reached_of_childrenOf below among).1 inner rfl
          obtain flat | same := flat_or_schema plain false here
          · exact .inl flat
          · exact .inr ⟨_, inner, same, here, .self, fun _ => rfl⟩
  | variant _ chosen ih =>
      obtain flat | ⟨marked, whole, same, reached, chooses, -⟩ := ih
      · exact .inl flat
      · exact .inr ⟨marked, whole, same, reached, chooses.concat chosen, Bool.noConfusion⟩

theorem leavesOut_of_setsFirst (set : setsFirst root direction visit = true) :
    LeavesOut root direction visit.raw := by
  rw [setsFirst, Option.any_eq_true] at set
  obtain ⟨keyword, known, first⟩ := set
  obtain ⟨schema, opened, room, enters, held⟩ := any_entered.mp first
  cases enters with
  | intro found _ => exact ⟨keyword, known, .target found held⟩

/-- Schemas that are plain tell the marks. -/
theorem marksTold_of_plain (plain : Plain root direction start) : MarksTold root direction start := by
  constructor
  · intro own visit place taken key inner among marked carries
    obtain flat | ⟨shut, whole, rfl, reached, chooses, -⟩ := schema_of_takenAt plain taken
    · exact not_carriesAt_flat flat carries
    · obtain ⟨chosen, other, chooses', among', unset⟩ := kept_of_carriesAt plain reached carries
      obtain rfl := (plain.apart shut whole reached _ _ chooses' chooses).1 _ _ _ among' among
      obtain ⟨_, below⟩ := reached_of_chooses chooses reached
      exact unset ((plain.member _ _ below key other among).2.2 marked)
  · intro visit place taken key inner among unmarked object
    obtain ⟨value, rfl, bare, -⟩ | ⟨shut, whole, rfl, reached, -, own⟩ := schema_of_takenAt plain taken
    · cases object with
      | value shown => simp [bare] at shown
    · obtain rfl := own rfl
      obtain ⟨named, within, -⟩ := plain.member shut visit reached key inner among
      have kept : keptAs root direction (.member key inner) = some (key, inner) := by
        rw [keptAs, if_neg]
        rw [not_or, not_or]
        exact ⟨named, within, fun set => unmarked (leavesOut_of_setsFirst set)⟩
      have fields : objectAt root visit = true := by
        cases object with
        | members fields _ => exact fields
        | alone fields _ => exact fields
        | variant fields _ _ => exact fields
      exact .member fields (membersKept_isSome among kept)

end Plain

section Bodies

theorem Unprompted.of_children {tree : Node}
    (own : tree.data.exampleValue = none ∧ tree.data.defaultValue = none)
    (below : ∀ child ∈ tree.children, Unprompted child) : Unprompted tree := by
  have placed : ∀ node, InTree tree node → node = tree ∨ ∃ child ∈ tree.children, InTree child node := by
    intro node inside
    induction inside with
    | top => exact .inl rfl
    | child _ among ih =>
        obtain rfl | ⟨child, held, inside⟩ := ih
        · exact .inr ⟨_, among, .top⟩
        · exact .inr ⟨child, held, inside.child among⟩
  intro node inside
  obtain rfl | ⟨child, among, inside⟩ := placed node inside
  · exact own
  · exact below child among node inside

/-- A body without an example is given one from its placeholder. -/
theorem example_of_body (root : Value) (media : String) (raw : Value) (direction : Direction)
    (bare : (bodyNode root media (some raw) direction none).data.exampleValue = none) :
    (fillExamples (bodyNode root media (some raw) direction none)).data.exampleValue =
      some ((Source.shape (bodyNode root media (some raw) direction none)).json direction) := by
  rw [bodyNode] at bare ⊢
  generalize topNode root media media raw = tree at bare ⊢
  cases tree with
  | mk data children =>
      change data.exampleValue = none at bare
      simp [amend, fillExamples, bare, Source.json, Node.data]

/-- The examples of a tree are filled in wherever its nodes stand. -/
theorem inTree_fillExamples {tree node : Node} (inside : InTree tree node) :
    InTree (fillExamples tree) (fillExamples node) := by
  have fillAll_eq : ∀ nodes : List Node, fillAll nodes = nodes.map fillExamples := by
    intro nodes
    induction nodes with
    | nil => rfl
    | cons node rest ih => rw [fillAll, ih, List.map_cons]
  induction inside with
  | top => exact .top
  | @child above below _ among ih =>
      apply ih.child
      cases above with
      | mk data children =>
          rw [fillExamples, Node.children_mk, fillAll_eq]
          exact List.mem_map_of_mem among

/-- The body of a schema is the source for its place. -/
theorem source_of_body (root : Value) (media : String) (raw : Value) (direction : Direction)
    (unprompted : Unprompted (bodyNode root media (some raw) direction none)) :
    SourceAt root (.shape (bodyNode root media (some raw) direction none))
      (.schema ⟨raw, [], maxDepth + 1⟩) := by
  have drawn := @drawn_node root ⟨raw, [], maxDepth + 1⟩ media media
  exact .schema unprompted
    { shut := by rw [bodyNode, data_amend]; simp
      type := by rw [bodyNode, data_amend]; exact drawn.type
      value := by rw [bodyNode, data_amend]; exact drawn.value
      children := by rw [bodyNode, children_amend]; exact drawn.children }

/-- The example that a body of a tree is given, when none of its nodes has an example or a default of the
specification, respects the direction exactly when the schemas it is taken from tell the marks. -/
theorem generated_example_direction (root : Value) (media : String) (raw : Value) (direction : Direction)
    (tree : Node) (inside : InTree tree (bodyNode root media (some raw) direction none))
    (unprompted : Unprompted (bodyNode root media (some raw) direction none)) :
    InTree (fillExamples tree) (fillExamples (bodyNode root media (some raw) direction none)) ∧
      ∃ told, (fillExamples (bodyNode root media (some raw) direction none)).data.exampleValue = some told ∧
        (RespectsDirection root direction ⟨raw, [], maxDepth + 1⟩ told ↔
          MarksTold root direction ⟨raw, [], maxDepth + 1⟩) :=
  ⟨inTree_fillExamples inside, _, example_of_body root media raw direction (unprompted _ .top).1,
    respectsDirection_iff (source_of_body root media raw direction unprompted)⟩

end Bodies

section Orders

/-- An order whose number is a code that reads as its only part. -/
def numberedOrder : Value :=
  .object [("type", .string "object"),
    ("properties", .object [("number", wrappedCode), ("note", .object [("type", .string "string")])])]

def orderBody : Node := bodyNode codeDocument "application/json" (some numberedOrder) .request none

theorem orderBody_unprompted : Unprompted orderBody := by
  obtain ⟨number, note, children, leaves⟩ : ∃ number note, orderBody.children = [number, note] ∧
      ∀ leaf ∈ [number, note], leaf.children = [] ∧
        leaf.data.exampleValue = none ∧ leaf.data.defaultValue = none :=
    ⟨_, _, rfl, List.forall_mem_cons.mpr ⟨⟨rfl, rfl, rfl⟩, List.forall_mem_singleton.mpr ⟨rfl, rfl, rfl⟩⟩⟩
  apply Unprompted.of_children ⟨rfl, rfl⟩
  intro leaf among
  rw [children] at among
  obtain ⟨bare, own⟩ := leaves leaf among
  apply Unprompted.of_children own
  simp [bare]

/-- The read-only number of an order is in the example of a request for it. -/
theorem wrapped_code_in_request :
    Unprompted orderBody ∧ ∃ told, (fillExamples orderBody).data.exampleValue = some told ∧
      ¬ RespectsDirection codeDocument .request ⟨numberedOrder, [], maxDepth + 1⟩ told := by
  refine ⟨orderBody_unprompted, .object [("number", .string "string"), ("note", .string "string")], rfl, ?_⟩
  intro respects
  have reached_order : reached codeDocument numberedOrder = some (numberedOrder, none) := rfl
  have enters : Visit.Enters codeDocument ⟨numberedOrder, [], maxDepth + 1⟩ numberedOrder [] maxDepth := by
    apply Visit.Enters.intro reached_order
    intro ⟨name, _, named⟩
    cases named
  have marked : LeavesOut codeDocument .request wrappedCode :=
    ⟨"readOnly", rfl, .part reached_wrappedCode (List.mem_singleton_self _) (.target reached_code rfl)⟩
  have member : .member "number" ⟨wrappedCode, [], maxDepth⟩ ∈
      childrenOf codeDocument ⟨numberedOrder, [], maxDepth + 1⟩ := by
    rw [childrenOf_whole enters rfl]
    exact List.mem_cons_self ..
  have absent := respects.left_out true _ _ .top "number" ⟨wrappedCode, [], maxDepth⟩ member marked
  cases absent

def orderRequest : Node := .mk { key := "request", name := "Request" } [orderBody]

theorem generated_example_direction_order :
    InTree (fillExamples orderRequest) (fillExamples orderBody) ∧
      ∃ told, (fillExamples orderBody).data.exampleValue = some told ∧
        (RespectsDirection codeDocument .request ⟨numberedOrder, [], maxDepth + 1⟩ told ↔
          MarksTold codeDocument .request ⟨numberedOrder, [], maxDepth + 1⟩) :=
  generated_example_direction codeDocument "application/json" numberedOrder .request orderRequest
    (InTree.top.child (List.mem_singleton_self _)) orderBody_unprompted

end Orders
end Sanshain.Guarantees
