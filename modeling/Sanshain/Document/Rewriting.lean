import Sanshain.Document.AsyncSchemas
import Sanshain.Document.Snippets
import Sanshain.Text.Fields

namespace Sanshain.Document.AsyncApiDocument

open Sanshain.Data Sanshain.Text

section Pointers

/-- The node at the end of a path of pointer segments. -/
def walk (segments : List String) (node : Value) : Option Value :=
  segments.foldlM (fun node raw => node.get? (unescaped raw)) node

/-- The node that holds the schemas of a document. -/
def schemasNode (root : Value) : Option Value :=
  (root.get? "components").bind (·.get? "schemas")

/-- The segments of a reference after `#/components/schemas/`. -/
def schemaSegments (reference : String) : Option (List String) :=
  (stripPrefix schemasPath reference).map (split '/')

variable {root node child : Value} {reference segment : String} {segments : List String}

theorem walk_cons : walk (segment :: segments) node =
    (node.get? (unescaped segment)).bind (walk segments) := by
  simp [walk, List.foldlM_cons]
  rfl

theorem resolveJsonPointer_eq : resolveJsonPointer root reference =
    (stripPrefix "#/" reference).bind fun path => walk (split '/' path) root := rfl

theorem split_append {field : String} (absent : '/' ∉ field.toList) (rest : String) :
    split '/' (field ++ "/" ++ rest) = field :: split '/' rest := by
  have chars : (field ++ "/" ++ rest).toList = field.toList ++ '/' :: rest.toList := by
    simp [String.toList_append]
  rw [split, chars, splitChars_append absent, List.map_cons, String.ofList_toList]
  rfl

theorem split_single {field : String} (absent : '/' ∉ field.toList) : split '/' field = [field] := by
  rw [split, splitChars_of_notMem absent, List.map_singleton, String.ofList_toList]

theorem split_ne_nil (text : String) : split '/' text ≠ [] := by
  have some (chars : List Char) : splitChars '/' chars ≠ [] := by
    induction chars with
    | nil => simp [splitChars]
    | cons c rest ih =>
        rw [splitChars]
        split
        · simp
        · split <;> simp
  simpa [split] using some text.toList

/-- A reference into the schemas is walked from the node that holds them. -/
theorem resolve_schemas (within : schemaSegments reference = some segments) :
    resolveJsonPointer root reference = (schemasNode root).bind (walk segments) := by
  obtain ⟨rest, stripped, rfl⟩ := Option.map_eq_some_iff.mp within
  have whole : reference = "#/" ++ ("components" ++ "/" ++ ("schemas" ++ "/" ++ rest)) := by
    rw [OpenApiDocument.stripPrefix_eq_some.mp stripped]
    simp [schemasPath, ← String.toList_inj, String.toList_append]
  rw [resolveJsonPointer_eq, OpenApiDocument.stripPrefix_eq_some.mpr whole, Option.bind_some,
    split_append (by decide), split_append (by decide), walk_cons, schemasNode]
  have plain : unescaped "components" = "components" ∧ unescaped "schemas" = "schemas" := by decide
  rw [plain.1, Option.bind_assoc]
  congr 1

theorem startsWith_of_resolve (found : resolveJsonPointer root reference = some node) :
    startsWith "#/" reference = true := by
  obtain ⟨path, stripped, _⟩ := Option.bind_eq_some_iff.mp found
  rw [OpenApiDocument.stripPrefix_eq_some.mp stripped, startsWith, String.toList_append]
  simp

theorem resolveLocalRef_ok {location : String} : resolveLocalRef root reference location = .ok node ↔
    resolveJsonPointer root reference = some node := by
  rw [resolveLocalRef]
  constructor
  · intro found
    split at found
    · split at found
      · rename_i there
        cases found
        exact there
      · cases found
    · cases found
  · intro found
    rw [if_pos (startsWith_of_resolve found), found]

end Pointers

section Names

variable {root target : Value} {reference location : String} {segments : List String}

/-- The name that a reference gives its schema. -/
def referenceName (reference : String) : String :=
  match schemaSegments reference with
  | some segments => unescaped (segments.head?.getD "")
  | none => componentName (lastPointerSegment reference)

/-- The text that takes the place of a reference. -/
def rewrittenReference (reference : String) : String :=
  match schemaSegments reference with
  | some _ => reference
  | none => schemasPath ++ componentName (lastPointerSegment reference)

/-- The schema that a reference carries over: the whole of the one it points into. -/
def carriedSchema (root : Value) (reference : String) : Option Value :=
  match schemaSegments reference with
  | some segments => (schemasNode root).bind (·.get? (unescaped (segments.head?.getD "")))
  | none => resolveJsonPointer root reference

theorem replaceChars_of_absent {mark : Char} {pattern replacement text : List Char} {fuel : ℕ}
    (absent : mark ∉ text) : replaceChars (mark :: pattern) replacement fuel text = text := by
  induction text generalizing fuel with
  | nil => cases fuel <;> rfl
  | cons c rest ih =>
      rw [List.mem_cons, not_or] at absent
      cases fuel with
      | zero => rfl
      | succ fuel => rw [replaceChars, stripPrefixChars, if_neg absent.1, ih absent.2]

theorem unescaped_of_absent {segment : String} (absent : '~' ∉ segment.toList) :
    unescaped segment = segment := by
  have once (replacement : String) (following : Char) :
      replace (String.ofList ['~', following]) replacement segment = segment := by
    rw [replace, String.toList_ofList, replaceChars_of_absent absent, String.ofList_toList]
  have first : replace "~1" "/" segment = segment := once "/" '1'
  have second : replace "~0" "~" segment = segment := once "~" '0'
  rw [unescaped, first, second]

theorem componentName_absent {key : String} {c : Char} (other : isComponentChar c = false)
    (inside : c ≠ '_') : c ∉ (componentName key).toList := by
  rw [componentName, String.toList_ofList]
  intro among
  obtain ⟨original, _, same⟩ := List.mem_map.mp among
  split at same
  · rename_i component
    rw [same, other] at component
    cases component
  · exact inside same.symm

theorem schemaSegments_componentName (key : String) :
    schemaSegments (schemasPath ++ componentName key) = some [componentName key] := by
  have stripped : stripPrefix schemasPath (schemasPath ++ componentName key) =
      some (componentName key) := OpenApiDocument.stripPrefix_eq_some.mpr rfl
  rw [schemaSegments, stripped, Option.map_some,
    split_single (componentName_absent (by decide) (by decide))]

theorem referenceName_rewritten (reference : String) :
    referenceName (rewrittenReference reference) = referenceName reference := by
  unfold rewrittenReference
  split
  · rfl
  · rename_i none
    rw [referenceName, schemaSegments_componentName, referenceName, none]
    exact unescaped_of_absent (componentName_absent (by decide) (by decide))

/-- A reference that resolves leads to the schema it carries over, under the name it gives. -/
def LeadsTo (root : Value) (reference : String) (entry : String × Value) : Prop :=
  (∃ node, resolveJsonPointer root reference = some node) ∧
    entry.1 = referenceName reference ∧ carriedSchema root reference = some entry.2

/-- The text that takes the place of a reference, where one does. -/
def movedReference (reference : String) : Option String :=
  match schemaSegments reference with
  | some _ => none
  | none => some (rewrittenReference reference)

/-- What a reference into the schemas points at lies inside the schema it carries over. -/
theorem carried_walk (within : schemaSegments reference = some segments)
    (found : resolveJsonPointer root reference = some target) :
    ∃ whole, carriedSchema root reference = some whole ∧ walk segments.tail whole = some target := by
  rw [resolve_schemas within] at found
  obtain ⟨schemas, held, walked⟩ := Option.bind_eq_some_iff.mp found
  cases segments with
  | nil =>
      obtain ⟨rest, _, none⟩ := Option.map_eq_some_iff.mp within
      exact absurd none (split_ne_nil rest)
  | cons segment more =>
      rw [walk_cons] at walked
      obtain ⟨schema, there, beneath⟩ := Option.bind_eq_some_iff.mp walked
      refine ⟨schema, ?_, beneath⟩
      rw [carriedSchema, within]
      simp only [held, Option.bind_some]
      exact there

theorem carriedSchema_of_resolves (found : resolveJsonPointer root reference = some target) :
    ∃ schema, carriedSchema root reference = some schema := by
  cases within : schemaSegments reference with
  | none => exact ⟨target, by rw [carriedSchema, within]; exact found⟩
  | some segments =>
      obtain ⟨whole, carried, _⟩ := carried_walk within found
      exact ⟨whole, carried⟩

theorem hoistRef_eq : hoistRef root reference location =
    (resolveLocalRef root reference location).bind fun target =>
      match stripPrefix schemasPath reference with
      | some rest =>
          (resolveLocalRef root (schemasPath ++ ((split '/' rest).head?).getD "") location).bind
            fun whole => .ok ((unescaped (((split '/' rest).head?).getD ""), whole), none)
      | none =>
          .ok ((componentName (lastPointerSegment reference), target),
            some (schemasPath ++ componentName (lastPointerSegment reference))) := rfl

theorem resolve_first {rest : String} :
    resolveJsonPointer root (schemasPath ++ ((split '/' rest).head?).getD "") =
      (schemasNode root).bind (·.get? (unescaped (((split '/' rest).head?).getD ""))) := by
  have single : '/' ∉ (((split '/' rest).head?).getD "").toList := by
    have first (chars : List Char) : ∀ piece ∈ (splitChars '/' chars).head?, '/' ∉ piece := by
      induction chars with
      | nil => simp [splitChars]
      | cons c more ih =>
          rw [splitChars]
          split
          · simp
          · rename_i other
            split
            · simp [Ne.symm other]
            · rename_i piece pieces both
              have inner := ih piece (by rw [both]; rfl)
              simp [Ne.symm other, inner]
    rw [split, List.head?_map]
    cases there : (splitChars '/' rest.toList).head? with
    | none => simp
    | some piece =>
        rw [Option.map_some, Option.getD_some, String.toList_ofList]
        exact first _ piece there
  have within : schemaSegments (schemasPath ++ ((split '/' rest).head?).getD "") =
      some [((split '/' rest).head?).getD ""] := by
    rw [schemaSegments, OpenApiDocument.stripPrefix_eq_some.mpr rfl, Option.map_some,
      split_single single]
  rw [resolve_schemas within]
  congr 1
  funext schemas
  rw [walk_cons]
  exact Option.bind_fun_some _

theorem hoistRef_ok {entry : String × Value} {moved : Option String}
    (hoisted : hoistRef root reference location = .ok (entry, moved)) :
    LeadsTo root reference entry ∧ moved = movedReference reference := by
  rw [hoistRef_eq] at hoisted
  cases found : resolveLocalRef root reference location with
  | error reason => simp [found, Except.bind] at hoisted
  | ok target =>
      have resolves := resolveLocalRef_ok.mp found
      rw [found, Except.bind] at hoisted
      cases stripped : stripPrefix schemasPath reference with
      | none =>
          have outside : schemaSegments reference = none := by rw [schemaSegments, stripped]; rfl
          simp only [stripped, Except.ok.injEq, Prod.mk.injEq] at hoisted
          obtain ⟨rfl, rfl⟩ := hoisted
          refine ⟨⟨⟨target, resolves⟩, ?_, ?_⟩, ?_⟩
          · rw [referenceName, outside]
          · rw [carriedSchema, outside]
            exact resolves
          · rw [movedReference, rewrittenReference, outside]
      | some rest =>
          have within : schemaSegments reference = some (split '/' rest) := by
            rw [schemaSegments, stripped]; rfl
          simp only [stripped] at hoisted
          cases first : resolveLocalRef root (schemasPath ++ ((split '/' rest).head?).getD "")
              location with
          | error reason => simp [first, Except.bind] at hoisted
          | ok whole =>
              simp only [first, Except.bind, Except.ok.injEq, Prod.mk.injEq] at hoisted
              obtain ⟨rfl, rfl⟩ := hoisted
              refine ⟨⟨⟨target, resolves⟩, ?_, ?_⟩, ?_⟩
              · rw [referenceName, within]
              · rw [carriedSchema, within]
                exact resolve_first.symm.trans (resolveLocalRef_ok.mp first)
              · rw [movedReference, within]

theorem hoistRef_total (found : resolveJsonPointer root reference = some target) :
    ∃ outcome, hoistRef root reference location = .ok outcome := by
  rw [hoistRef_eq, resolveLocalRef_ok.mpr found, Except.bind]
  cases stripped : stripPrefix schemasPath reference with
  | none => exact ⟨_, rfl⟩
  | some rest =>
      have within : schemaSegments reference = some (split '/' rest) := by
        rw [schemaSegments, stripped]; rfl
      obtain ⟨schema, carried⟩ := carriedSchema_of_resolves found
      rw [carriedSchema, within] at carried
      simp only
      rw [resolveLocalRef_ok.mpr (resolve_first.trans carried)]
      exact ⟨_, rfl⟩

end Names

section Rewriting

/-- The keys under which a schema has its references rewritten. -/
def besidesRef (key : String) : Bool := key ≠ "$ref"

def anyKey (_key : String) : Bool := true

def ownReference (entries : Mapping) : Option String :=
  (Entries.get? entries "$ref").bind Value.asStr

/-- The entries with a text of their own under `$ref`, where one is given. -/
def placed (moved : Option String) (entries : Mapping) : Mapping :=
  match moved with
  | some text => Entries.insert entries "$ref" (.string text)
  | none => entries

mutual

/-- A schema as it is carried over. -/
def rewritten : Value → Value
  | .object entries =>
      .object (placed ((ownReference entries).bind movedReference) (rewrittenEntries entries))
  | .array items => .array (rewrittenItems items)
  | other => other

def rewrittenItems : List Value → List Value
  | [] => []
  | item :: rest => rewritten item :: rewrittenItems rest

def rewrittenEntries : List (String × Value) → List (String × Value)
  | [] => []
  | (key, value) :: rest =>
      (key, if key = "$ref" then value else rewritten value) :: rewrittenEntries rest

end

variable {root : Value} {location : String} {entries : Mapping} {key : String}
  {pending : List (String × Value)}

mutual

theorem rewriteRefs_ok (node : Value) {schema : Value} {pending : List (String × Value)}
    (done : rewriteRefs root location node = .ok (schema, pending)) : schema = rewritten node ∧
      List.Forall₂ (LeadsTo root) (referencesIn besidesRef node) pending := by
  match node with
  | .null | .bool _ | .number _ | .string _ =>
      cases done
      exact ⟨rfl, .nil⟩
  | .array items =>
      rw [rewriteRefs] at done
      cases inner : rewriteItems root location items with
      | error reason => simp [inner, bind, Except.bind] at done
      | ok both =>
          obtain ⟨others, further⟩ := both
          simp only [inner, bind, Except.bind, Except.ok.injEq, Prod.mk.injEq] at done
          obtain ⟨rfl, rfl⟩ := done
          obtain ⟨rfl, leads⟩ := rewriteItems_ok items inner
          exact ⟨rfl, leads⟩
  | .object entries =>
      rw [rewriteRefs] at done
      rw [rewritten, referencesIn, ownReference]
      cases own : (Entries.get? entries "$ref").bind Value.asStr with
      | none =>
          rw [own] at done
          cases inner : rewriteEntries root location entries with
          | error reason => simp [inner, bind, Except.bind] at done
          | ok both =>
              obtain ⟨others, further⟩ := both
              simp only [inner, bind, Except.bind, Except.ok.injEq, Prod.mk.injEq] at done
              obtain ⟨rfl, rfl⟩ := done
              obtain ⟨rfl, leads⟩ := rewriteEntries_ok entries inner
              exact ⟨rfl, leads⟩
      | some reference =>
          rw [own] at done
          cases hoisted : hoistRef root reference location with
          | error reason => simp [hoisted, bind, Except.bind] at done
          | ok outcome =>
              obtain ⟨entry, moved⟩ := outcome
              obtain ⟨leads, rfl⟩ := hoistRef_ok hoisted
              cases inner : rewriteEntries root location entries with
              | error reason => simp [hoisted, inner, bind, Except.bind] at done
              | ok both =>
                  obtain ⟨others, further⟩ := both
                  simp only [hoisted, inner, bind, Except.bind, Except.ok.injEq,
                    Prod.mk.injEq] at done
                  obtain ⟨rfl, rfl⟩ := done
                  obtain ⟨rfl, later⟩ := rewriteEntries_ok entries inner
                  exact ⟨rfl, .cons leads later⟩

theorem rewriteItems_ok (items : List Value) {others : List Value}
    {pending : List (String × Value)}
    (done : rewriteItems root location items = .ok (others, pending)) :
    others = rewrittenItems items ∧
      List.Forall₂ (LeadsTo root) (referencesInItems besidesRef items) pending := by
  match items with
  | [] =>
      rw [rewriteItems] at done
      cases done
      exact ⟨rfl, .nil⟩
  | item :: rest =>
      rw [rewriteItems] at done
      cases inner : rewriteRefs root location item with
      | error reason => simp [inner, bind, Except.bind] at done
      | ok both =>
          obtain ⟨first, leads⟩ := both
          cases later : rewriteItems root location rest with
          | error reason => simp [inner, later, bind, Except.bind] at done
          | ok both =>
              obtain ⟨following, further⟩ := both
              simp only [inner, later, bind, Except.bind, Except.ok.injEq, Prod.mk.injEq] at done
              obtain ⟨rfl, rfl⟩ := done
              obtain ⟨rfl, here⟩ := rewriteRefs_ok item inner
              obtain ⟨rfl, there⟩ := rewriteItems_ok rest later
              exact ⟨rfl, List.rel_append here there⟩

theorem rewriteEntries_ok (entries : List (String × Value)) {others : List (String × Value)}
    {pending : List (String × Value)}
    (done : rewriteEntries root location entries = .ok (others, pending)) :
    others = rewrittenEntries entries ∧
      List.Forall₂ (LeadsTo root) (referencesInEntries besidesRef entries) pending := by
  match entries with
  | [] =>
      rw [rewriteEntries] at done
      cases done
      exact ⟨rfl, .nil⟩
  | (key, value) :: rest =>
      rw [rewriteEntries] at done
      rw [rewrittenEntries, referencesInEntries, besidesRef]
      by_cases same : key = "$ref"
      · rw [if_pos same] at done
        cases later : rewriteEntries root location rest with
        | error reason => simp [later, bind, Except.bind] at done
        | ok both =>
            obtain ⟨following, further⟩ := both
            simp only [later, bind, Except.bind, Except.ok.injEq, Prod.mk.injEq] at done
            obtain ⟨rfl, rfl⟩ := done
            obtain ⟨rfl, there⟩ := rewriteEntries_ok rest later
            exact ⟨by rw [if_pos same], by simpa [same] using there⟩
      · rw [if_neg same] at done
        cases inner : rewriteRefs root location value with
        | error reason => simp [inner, bind, Except.bind] at done
        | ok both =>
            obtain ⟨first, leads⟩ := both
            cases later : rewriteEntries root location rest with
            | error reason => simp [inner, later, bind, Except.bind] at done
            | ok both =>
                obtain ⟨following, further⟩ := both
                simp only [inner, later, bind, Except.bind, Except.ok.injEq, Prod.mk.injEq] at done
                obtain ⟨rfl, rfl⟩ := done
                obtain ⟨rfl, here⟩ := rewriteRefs_ok value inner
                obtain ⟨rfl, there⟩ := rewriteEntries_ok rest later
                refine ⟨by rw [if_neg same], ?_⟩
                simpa [same] using List.rel_append here there

end

mutual

/-- Where every reference resolves, the rewriting has a result. -/
theorem rewriteRefs_total (node : Value)
    (each : ∀ reference ∈ referencesIn besidesRef node,
      ∃ target, resolveJsonPointer root reference = some target) :
    ∃ outcome, rewriteRefs root location node = .ok outcome := by
  match node with
  | .null | .bool _ | .number _ | .string _ => exact ⟨_, rfl⟩
  | .array items =>
      obtain ⟨outcome, inner⟩ := rewriteItems_total items each
      rw [rewriteRefs, inner]
      exact ⟨_, rfl⟩
  | .object entries =>
      rw [referencesIn] at each
      obtain ⟨outcome, inner⟩ := rewriteEntries_total entries fun reference among =>
        each reference (List.mem_append_right _ among)
      rw [rewriteRefs]
      cases own : (Entries.get? entries "$ref").bind Value.asStr with
      | none =>
          simp only [inner]
          exact ⟨_, rfl⟩
      | some reference =>
          obtain ⟨target, found⟩ := each reference (List.mem_append_left _ (by simp [own]))
          obtain ⟨hoist, hoisted⟩ := @hoistRef_total root target reference location found
          simp only [inner, hoisted]
          exact ⟨_, rfl⟩

theorem rewriteItems_total (items : List Value)
    (each : ∀ reference ∈ referencesInItems besidesRef items,
      ∃ target, resolveJsonPointer root reference = some target) :
    ∃ outcome, rewriteItems root location items = .ok outcome := by
  match items with
  | [] => exact ⟨_, rfl⟩
  | item :: rest =>
      rw [referencesInItems] at each
      obtain ⟨outcome, inner⟩ := rewriteRefs_total item fun reference among =>
        each reference (List.mem_append_left _ among)
      obtain ⟨outcomes, later⟩ := rewriteItems_total rest fun reference among =>
        each reference (List.mem_append_right _ among)
      rw [rewriteItems, inner, later]
      exact ⟨_, rfl⟩

theorem rewriteEntries_total (entries : List (String × Value))
    (each : ∀ reference ∈ referencesInEntries besidesRef entries,
      ∃ target, resolveJsonPointer root reference = some target) :
    ∃ outcome, rewriteEntries root location entries = .ok outcome := by
  match entries with
  | [] => exact ⟨_, rfl⟩
  | (key, value) :: rest =>
      rw [referencesInEntries, besidesRef] at each
      obtain ⟨outcomes, later⟩ := rewriteEntries_total rest fun reference among =>
        each reference (List.mem_append_right _ among)
      rw [rewriteEntries]
      by_cases same : key = "$ref"
      · rw [if_pos same, later]
        exact ⟨_, rfl⟩
      · obtain ⟨outcome, inner⟩ := rewriteRefs_total value fun reference among =>
          each reference (List.mem_append_left _ (by simpa [same] using among))
        rw [if_neg same, inner, later]
        exact ⟨_, rfl⟩

end

theorem get?_rewrittenEntries : Entries.get? (rewrittenEntries entries) key =
    if key = "$ref" then Entries.get? entries key else (Entries.get? entries key).map rewritten := by
  induction entries with
  | nil => simp [rewrittenEntries]
  | cons entry rest ih =>
      obtain ⟨name, value⟩ := entry
      rw [rewrittenEntries, Entries.get?_cons, Entries.get?_cons, ih]
      by_cases here : name = key
      · subst here
        by_cases own : name = "$ref" <;> simp [own]
      · simp [here]

theorem get?_placed {moved : Option String} : Entries.get? (placed moved entries) key =
    if key = "$ref" then (moved.map Value.string).or (Entries.get? entries key)
    else Entries.get? entries key := by
  cases moved with
  | none => simp [placed]
  | some text =>
      rw [placed, Entries.get?_insert]
      by_cases own : key = "$ref"
      · simp [own]
      · simp [own, Ne.symm own]

theorem rewrittenReference_of_not_moved {reference : String}
    (still : movedReference reference = none) : rewrittenReference reference = reference := by
  rw [movedReference] at still
  rw [rewrittenReference]
  split at still
  · rfl
  · cases still

theorem rewrittenReference_of_moved {reference text : String}
    (moved : movedReference reference = some text) : rewrittenReference reference = text := by
  rw [movedReference] at moved
  split at moved
  · cases moved
  · exact Option.some.inj moved

/-- The reference that a node is, is the one that is rewritten. -/
theorem ownReference_placed : ownReference
    (placed ((ownReference entries).bind movedReference) (rewrittenEntries entries)) =
      (ownReference entries).map rewrittenReference := by
  rw [ownReference, get?_placed, if_pos rfl, get?_rewrittenEntries, if_pos rfl]
  cases own : ownReference entries with
  | none =>
      rw [ownReference] at own
      simpa using own
  | some reference =>
      cases moved : movedReference reference with
      | none =>
          rw [ownReference] at own
          simp [moved, own, rewrittenReference_of_not_moved moved]
      | some text => simp [moved, Value.asStr, rewrittenReference_of_moved moved]

end Rewriting

section References

/-- Equal mappings have equal values under a key. -/
theorem get?_of_sameEntries {entries others : Mapping} {key : String} {value : Value}
    (same : Value.sameEntries entries others = true)
    (held : Entries.get? entries key = some value) :
    ∃ other, Entries.get? others key = some other ∧ value.same other = true := by
  induction entries with
  | nil => cases held
  | cons entry rest ih =>
      obtain ⟨name, first⟩ := entry
      obtain ⟨here, later⟩ := Bool.and_eq_true_iff.mp same
      rw [Entries.get?_cons] at held
      split at held
      · rename_i equal
        cases held
        cases there : Entries.get? others name with
        | none => simp [there] at here
        | some other =>
            rw [there] at here
            exact ⟨other, by rw [← there]; exact congrArg _ equal.symm, here⟩
      · exact ih later held

variable {enters : String → Bool} {entries : Mapping} {node child : Value} {key reference : String}

mutual

/-- The reference texts under a `$ref` that is not a text itself, which no rewriting enters. -/
def hiddenReferences : Value → List String
  | .object entries => hiddenInEntries entries
  | .array items => hiddenInItems items
  | _ => []

def hiddenInItems : List Value → List String
  | [] => []
  | item :: rest => hiddenReferences item ++ hiddenInItems rest

def hiddenInEntries : List (String × Value) → List String
  | [] => []
  | (key, value) :: rest =>
      (if key = "$ref" then referencesIn anyKey value else hiddenReferences value) ++
        hiddenInEntries rest

end

theorem referencesInEntries_insert {old new : String}
    (own : Entries.get? entries "$ref" = some (.string old)) :
    referencesInEntries enters (Entries.insert entries "$ref" (.string new)) =
      referencesInEntries enters entries := by
  induction entries with
  | nil => cases own
  | cons entry rest ih =>
      obtain ⟨name, value⟩ := entry
      rw [Entries.get?_cons] at own
      by_cases here : name = "$ref"
      · rw [if_pos here] at own
        cases own
        simp [Entries.insert, here, referencesInEntries, referencesIn]
      · rw [if_neg here] at own
        simp [Entries.insert, here, referencesInEntries, ih own]

theorem referencesInEntries_placed : referencesInEntries enters
    (placed ((ownReference entries).bind movedReference) (rewrittenEntries entries)) =
      referencesInEntries enters (rewrittenEntries entries) := by
  cases moved : (ownReference entries).bind movedReference with
  | none => rfl
  | some text =>
      obtain ⟨old, own, _⟩ := Option.bind_eq_some_iff.mp moved
      obtain ⟨value, held, written⟩ := Option.bind_eq_some_iff.mp own
      cases value with
      | string content =>
          have still : Entries.get? (rewrittenEntries entries) "$ref" = some (.string content) := by
            rw [get?_rewrittenEntries, if_pos rfl, held]
          exact referencesInEntries_insert still
      | _ => cases written

mutual

theorem referencesIn_rewritten (node : Value) : referencesIn besidesRef (rewritten node) =
    (referencesIn besidesRef node).map rewrittenReference := by
  match node with
  | .null | .bool _ | .number _ | .string _ => rfl
  | .array items => exact referencesInItems_rewritten items
  | .object entries =>
      have own := @ownReference_placed entries
      rw [ownReference] at own
      rw [rewritten, referencesIn, referencesIn, own, referencesInEntries_placed,
        referencesInEntries_rewritten entries, List.map_append, ownReference, Option.toList_map]

theorem referencesInItems_rewritten (items : List Value) :
    referencesInItems besidesRef (rewrittenItems items) =
      (referencesInItems besidesRef items).map rewrittenReference := by
  match items with
  | [] => rfl
  | item :: rest =>
      rw [rewrittenItems, referencesInItems, referencesInItems, referencesIn_rewritten item,
        referencesInItems_rewritten rest, List.map_append]

theorem referencesInEntries_rewritten (entries : List (String × Value)) :
    referencesInEntries besidesRef (rewrittenEntries entries) =
      (referencesInEntries besidesRef entries).map rewrittenReference := by
  match entries with
  | [] => rfl
  | (key, value) :: rest =>
      rw [rewrittenEntries, referencesInEntries, referencesInEntries,
        referencesInEntries_rewritten rest, List.map_append]
      by_cases same : key = "$ref"
      · simp [besidesRef, same]
      · simp [besidesRef, same, referencesIn_rewritten value]

end

mutual

/-- A reference of a schema that is carried over was rewritten, or hidden. -/
theorem mem_references_rewritten (node : Value) :
    reference ∈ referencesIn anyKey (rewritten node) ↔
      (∃ source ∈ referencesIn besidesRef node, rewrittenReference source = reference) ∨
        reference ∈ hiddenReferences node := by
  match node with
  | .null | .bool _ | .number _ | .string _ =>
      simp [rewritten, referencesIn, hiddenReferences]
  | .array items => exact mem_referencesInItems_rewritten items
  | .object entries =>
      have own := @ownReference_placed entries
      rw [ownReference] at own
      rw [rewritten, referencesIn, referencesIn, own, referencesInEntries_placed, List.mem_append,
        mem_referencesInEntries_rewritten entries, hiddenReferences, ownReference]
      cases (Entries.get? entries "$ref").bind Value.asStr with
      | none => simp
      | some text => simp [or_assoc, eq_comm]

theorem mem_referencesInItems_rewritten (items : List Value) :
    reference ∈ referencesInItems anyKey (rewrittenItems items) ↔
      (∃ source ∈ referencesInItems besidesRef items, rewrittenReference source = reference) ∨
        reference ∈ hiddenInItems items := by
  match items with
  | [] => simp [rewrittenItems, referencesInItems, hiddenInItems]
  | item :: rest =>
      rw [rewrittenItems, referencesInItems, referencesInItems, hiddenInItems, List.mem_append,
        mem_references_rewritten item, mem_referencesInItems_rewritten rest]
      simp only [List.mem_append, or_and_right, exists_or]
      exact or_or_or_comm

theorem mem_referencesInEntries_rewritten (entries : List (String × Value)) :
    reference ∈ referencesInEntries anyKey (rewrittenEntries entries) ↔
      (∃ source ∈ referencesInEntries besidesRef entries, rewrittenReference source = reference) ∨
        reference ∈ hiddenInEntries entries := by
  match entries with
  | [] => simp [rewrittenEntries, referencesInEntries, hiddenInEntries]
  | (key, value) :: rest =>
      rw [rewrittenEntries, referencesInEntries, referencesInEntries, hiddenInEntries,
        List.mem_append, mem_referencesInEntries_rewritten rest]
      by_cases same : key = "$ref"
      · simp [besidesRef, anyKey, same, or_left_comm]
      · simp only [besidesRef, anyKey, same, if_false, if_true, ne_eq, not_false_eq_true,
          decide_true, mem_references_rewritten value, List.mem_append, or_and_right, exists_or]
        exact or_or_or_comm

end

mutual

/-- A reference is rewritten, or hidden. -/
theorem mem_references (node : Value) : reference ∈ referencesIn anyKey node ↔
    reference ∈ referencesIn besidesRef node ∨ reference ∈ hiddenReferences node := by
  match node with
  | .null | .bool _ | .number _ | .string _ => simp [referencesIn, hiddenReferences]
  | .array items => exact mem_referencesInItems items
  | .object entries =>
      rw [referencesIn, referencesIn, hiddenReferences, List.mem_append, List.mem_append,
        mem_referencesInEntries entries, or_assoc]

theorem mem_referencesInItems (items : List Value) :
    reference ∈ referencesInItems anyKey items ↔
      reference ∈ referencesInItems besidesRef items ∨ reference ∈ hiddenInItems items := by
  match items with
  | [] => simp [referencesInItems, hiddenInItems]
  | item :: rest =>
      rw [referencesInItems, referencesInItems, hiddenInItems, List.mem_append, List.mem_append,
        List.mem_append, mem_references item, mem_referencesInItems rest]
      exact or_or_or_comm

theorem mem_referencesInEntries (entries : List (String × Value)) :
    reference ∈ referencesInEntries anyKey entries ↔
      reference ∈ referencesInEntries besidesRef entries ∨ reference ∈ hiddenInEntries entries := by
  match entries with
  | [] => simp [referencesInEntries, hiddenInEntries]
  | (key, value) :: rest =>
      rw [referencesInEntries, referencesInEntries, hiddenInEntries, List.mem_append,
        List.mem_append, List.mem_append, mem_referencesInEntries rest]
      by_cases same : key = "$ref"
      · simp [besidesRef, anyKey, same, or_left_comm]
      · simp only [besidesRef, anyKey, same, if_false, if_true, ne_eq, not_false_eq_true,
          decide_true, mem_references value]
        exact or_or_or_comm

end

theorem references_of_entry {entry : String × Value} (among : entry ∈ entries)
    (entered : enters entry.1 = true) (inside : reference ∈ referencesIn enters entry.2) :
    reference ∈ referencesInEntries enters entries := by
  induction entries with
  | nil => cases among
  | cons first rest ih =>
      obtain ⟨name, value⟩ := first
      rw [referencesInEntries]
      rcases List.mem_cons.mp among with rfl | later
      · rw [if_pos entered]
        exact List.mem_append_left _ inside
      · exact List.mem_append_right _ (ih later)

mutual

/-- Equal schemas have the same references, whatever the order of their keys. -/
theorem references_of_same (node : Value) {other : Value} (same : node.same other = true)
    (inside : reference ∈ referencesIn enters node) : reference ∈ referencesIn enters other := by
  match node with
  | .null | .bool _ | .number _ | .string _ => cases inside
  | .array items =>
      cases other with
      | array others => exact referencesInItems_of_same items same inside
      | _ => cases same
  | .object entries =>
      cases other with
      | object others =>
          have each : Value.sameEntries entries others = true := (Bool.and_eq_true_iff.mp same).2
          rw [referencesIn] at inside ⊢
          rcases List.mem_append.mp inside with own | within
          · refine List.mem_append_left _ ?_
            obtain ⟨value, held, written⟩ :=
              Option.bind_eq_some_iff.mp (Option.mem_toList.mp own)
            obtain ⟨counterpart, there, alike⟩ := get?_of_sameEntries each held
            cases value with
            | string text =>
                cases counterpart with
                | string text' =>
                    have equal : text = text' := by simpa [Value.same] using alike
                    rw [there, Option.bind_some, ← equal]
                    simpa using written
                | _ => cases alike
            | _ => cases written
          · exact List.mem_append_right _ (referencesInEntries_of_same entries each within)
      | _ => cases same

theorem referencesInItems_of_same (items : List Value) {others : List Value}
    (same : Value.sameItems items others = true)
    (inside : reference ∈ referencesInItems enters items) :
    reference ∈ referencesInItems enters others := by
  match items with
  | [] => cases inside
  | item :: rest =>
      cases others with
      | nil => cases same
      | cons other more =>
          obtain ⟨first, later⟩ := Bool.and_eq_true_iff.mp same
          rw [referencesInItems] at inside ⊢
          rcases List.mem_append.mp inside with here | there
          · exact List.mem_append_left _ (references_of_same item first here)
          · exact List.mem_append_right _ (referencesInItems_of_same rest later there)

theorem referencesInEntries_of_same (entries : List (String × Value))
    {others : List (String × Value)} (same : Value.sameEntries entries others = true)
    (inside : reference ∈ referencesInEntries enters entries) :
    reference ∈ referencesInEntries enters others := by
  match entries with
  | [] => cases inside
  | (key, value) :: rest =>
      obtain ⟨first, later⟩ := Bool.and_eq_true_iff.mp same
      rw [referencesInEntries] at inside
      rcases List.mem_append.mp inside with here | there
      · split at here
        · rename_i entered
          cases held : Entries.get? others key with
          | none => simp [held] at first
          | some other =>
              rw [held] at first
              exact references_of_entry (Entries.mem_of_get? held) entered
                (references_of_same value first here)
        · cases here
      · exact referencesInEntries_of_same rest later there

end

end References

section Walks

variable {root node other child : Value} {key reference : String} {segments : List String}

theorem get?_rewritten (beside : key ≠ "$ref") :
    (rewritten node).get? key = (node.get? key).map rewritten := by
  cases node with
  | object entries =>
      change Entries.get? (placed _ _) key = _
      rw [get?_placed, if_neg beside, get?_rewrittenEntries, if_neg beside]
      rfl
  | _ => rfl

/-- What stands under `$ref` stays, or both are texts. -/
theorem get?_ref_rewritten : (rewritten node).get? "$ref" = node.get? "$ref" ∨
    ∃ old new, node.get? "$ref" = some (.string old) ∧
      (rewritten node).get? "$ref" = some (.string new) := by
  cases node with
  | object entries =>
      have whole : (rewritten (.object entries)).get? "$ref" =
          (((ownReference entries).bind movedReference).map Value.string).or
            (Entries.get? entries "$ref") := by
        change Entries.get? (placed _ _) "$ref" = _
        rw [get?_placed, if_pos rfl, get?_rewrittenEntries, if_pos rfl]
      cases moved : (ownReference entries).bind movedReference with
      | none =>
          left
          rw [whole, moved]
          rfl
      | some text =>
          right
          obtain ⟨old, own, _⟩ := Option.bind_eq_some_iff.mp moved
          obtain ⟨value, held, written⟩ := Option.bind_eq_some_iff.mp own
          cases value with
          | string content => exact ⟨content, text, held, by rw [whole, moved]; rfl⟩
          | _ => cases written
  | _ => exact .inl rfl

theorem walk_string {text : String} : (walk segments (.string text)).isSome = segments.isEmpty := by
  cases segments with
  | nil => rfl
  | cons segment rest => rw [walk_cons]; rfl

/-- The same paths lead somewhere before and after the rewriting. -/
theorem walk_rewritten : (walk segments (rewritten node)).isSome = (walk segments node).isSome := by
  induction segments generalizing node with
  | nil => rfl
  | cons segment rest ih =>
      rw [walk_cons, walk_cons]
      by_cases own : unescaped segment = "$ref"
      · rw [own]
        rcases @get?_ref_rewritten node with still | ⟨old, new, before, after⟩
        · rw [still]
        · rw [before, after, Option.bind_some, Option.bind_some, walk_string, walk_string]
      · rw [get?_rewritten own]
        cases node.get? (unescaped segment) with
        | none => rfl
        | some child => exact ih

theorem get?_of_same (same : node.same other = true) (found : node.get? key = some child) :
    ∃ counterpart, other.get? key = some counterpart ∧ child.same counterpart = true := by
  cases node with
  | object entries =>
      cases other with
      | object others => exact get?_of_sameEntries (Bool.and_eq_true_iff.mp same).2 found
      | _ => cases same
  | _ => cases found

theorem walk_of_same (same : node.same other = true) (leads : (walk segments node).isSome) :
    (walk segments other).isSome := by
  induction segments generalizing node other with
  | nil => rfl
  | cons segment rest ih =>
      rw [walk_cons] at leads ⊢
      cases found : node.get? (unescaped segment) with
      | none => simp [found] at leads
      | some child =>
          obtain ⟨counterpart, there, alike⟩ := get?_of_same same found
          rw [found] at leads
          rw [there]
          exact ih alike leads

theorem references_of_get? (found : node.get? key = some child)
    (inside : reference ∈ referencesIn anyKey child) : reference ∈ referencesIn anyKey node := by
  cases node with
  | object entries =>
      have among := Entries.mem_of_get? (show Entries.get? entries key = some child from found)
      rw [referencesIn]
      exact List.mem_append_right _ (references_of_entry among rfl inside)
  | _ => cases found

theorem references_of_walk (found : walk segments node = some child)
    (inside : reference ∈ referencesIn anyKey child) : reference ∈ referencesIn anyKey node := by
  induction segments generalizing node with
  | nil =>
      cases found
      exact inside
  | cons segment rest ih =>
      rw [walk_cons] at found
      obtain ⟨next, there, later⟩ := Option.bind_eq_some_iff.mp found
      exact references_of_get? there (ih later)

theorem references_of_carried (carried : carriedSchema root reference = some child)
    {inner : String} (inside : inner ∈ referencesIn anyKey child) :
    inner ∈ referencesIn anyKey root := by
  unfold carriedSchema at carried
  split at carried
  · obtain ⟨schemas, held, there⟩ := Option.bind_eq_some_iff.mp carried
    obtain ⟨components, outer, within⟩ := Option.bind_eq_some_iff.mp held
    exact references_of_get? outer (references_of_get? within (references_of_get? there inside))
  · obtain ⟨path, _, walked⟩ := Option.bind_eq_some_iff.mp carried
    exact references_of_walk walked inside

end Walks
end Sanshain.Document.AsyncApiDocument
