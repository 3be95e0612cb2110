import Sanshain.Effects.Steps

namespace Sanshain.Effects

/-- A database behind a cache: what a read returns, what a write leaves, and which entries it then
invalidates, one invalidation after another. -/
structure CacheAside (Db Key Value Write : Type) where
  read : Db → Key → Value
  write : Db → Write → Db
  invalidates : Db → Write → List (Key → Bool)

/-- A write that has reached the database. With no invalidation left it has returned. -/
structure Writing (Db Key Write : Type) where
  request : Write
  before : Db
  pending : List (Key → Bool)

/-- A read that missed the cache. `known` are the writes that had returned when it started, and
`fetched` is what it took from the database, after how many writes. -/
structure Reading (Key Value : Type) where
  key : Key
  known : List Nat
  fetched : Option (Value × Nat) := none

/-- What a read has reported, and how many writes there were by then. -/
structure Report (Key Value : Type) where
  key : Key
  known : List Nat
  value : Value
  seen : Nat
  deriving DecidableEq

/-- The database, the cache, and the reads and writes under way; every write keeps its place. -/
structure Traffic (Db Key Value Write : Type) where
  db : Db
  writings : List (Writing Db Key Write) := []
  entries : Key → Option (Value × Nat) := fun _ => none
  readings : List (Reading Key Value) := []
  reports : List (Report Key Value) := []

/-- A step of one of the parties: a read looks its key up, asks the database, inserts what it
found, or is given up; a write reaches the database, or makes its next invalidation; an entry is
evicted. -/
inductive TrafficStep (Key Write : Type) where
  | lookUp (key : Key)
  | fetch (place : Nat)
  | insert (place : Nat)
  | giveUp (place : Nat)
  | write (request : Write)
  | invalidate (place : Nat)
  | evict (key : Key)

namespace Traffic

variable {Db Key Value Write Item : Type}

/-- What the database held after a number of writes. -/
def contents (traffic : Traffic Db Key Value Write) (stamp : Nat) : Db :=
  match traffic.writings[stamp]? with
  | some writing => writing.before
  | none => traffic.db

/-- The writes that have returned. -/
def returned (traffic : Traffic Db Key Value Write) : List Nat :=
  (List.range traffic.writings.length).filter fun place =>
    (traffic.writings[place]?).any (·.pending.isEmpty)

section Steps

variable [DecidableEq Key] (source : CacheAside Db Key Value Write) (enabled : Bool)

/-- A hit answers; a miss goes to the database. -/
def lookUp (traffic : Traffic Db Key Value Write) (key : Key) : Traffic Db Key Value Write :=
  match if enabled then traffic.entries key else none with
  | some (value, _) =>
      { traffic with
        reports := traffic.reports ++ [⟨key, traffic.returned, value, traffic.writings.length⟩] }
  | none => { traffic with readings := traffic.readings ++ [⟨key, traffic.returned, none⟩] }

def fetch (traffic : Traffic Db Key Value Write) (place : Nat) : Traffic Db Key Value Write :=
  { traffic with
    readings := traffic.readings.modify place fun reading =>
      { reading with
        fetched := reading.fetched.orElse fun _ =>
          some (source.read traffic.db reading.key, traffic.writings.length) } }

/-- A read that has its value puts it into the cache, and reports it. -/
def insert (traffic : Traffic Db Key Value Write) (place : Nat) : Traffic Db Key Value Write :=
  match traffic.readings[place]? with
  | some ⟨key, known, some (value, stamp)⟩ =>
      { traffic with
        entries := if enabled then Function.update traffic.entries key (some (value, stamp))
          else traffic.entries
        readings := traffic.readings.eraseIdx place
        reports := traffic.reports ++ [⟨key, known, value, traffic.writings.length⟩] }
  | _ => traffic

def write (traffic : Traffic Db Key Value Write) (request : Write) : Traffic Db Key Value Write :=
  { traffic with
    db := source.write traffic.db request
    writings := traffic.writings ++ [⟨request, traffic.db, source.invalidates traffic.db request⟩] }

def invalidate (traffic : Traffic Db Key Value Write) (place : Nat) : Traffic Db Key Value Write :=
  match traffic.writings[place]? with
  | some ⟨request, before, clear :: rest⟩ =>
      { traffic with
        writings := traffic.writings.set place ⟨request, before, rest⟩
        entries := fun key => if clear key then none else traffic.entries key }
  | _ => traffic

def step (traffic : Traffic Db Key Value Write) : TrafficStep Key Write → Traffic Db Key Value Write
  | .lookUp key => traffic.lookUp enabled key
  | .fetch place => traffic.fetch source place
  | .insert place => traffic.insert enabled place
  | .giveUp place => { traffic with readings := traffic.readings.eraseIdx place }
  | .write request => traffic.write source request
  | .invalidate place => traffic.invalidate place
  | .evict key => { traffic with entries := Function.update traffic.entries key none }

end Steps

section Laws

variable (source : CacheAside Db Key Value Write) (holds : Value → Item → Prop)
  (guarded : Write → Prop)

/-- The write took the item away from what the key reads. -/
def Withdraws (writing : Writing Db Key Write) (key : Key) (item : Item) : Prop :=
  guarded writing.request ∧ holds (source.read writing.before key) item ∧
    ¬ holds (source.read (source.write writing.before writing.request) key) item

/-- The write gave the item to what the key reads. -/
def Grants (writing : Writing Db Key Write) (key : Key) (item : Item) : Prop :=
  ¬ holds (source.read writing.before key) item ∧
    holds (source.read (source.write writing.before writing.request) key) item

/-- A report has no item that a write took away, that had returned when the read started, unless a
later write gave it back. -/
def Unwithdrawn (traffic : Traffic Db Key Value Write) (report : Report Key Value) : Prop :=
  ∀ place ∈ report.known, ∀ writing, traffic.writings[place]? = some writing →
    ∀ item, Withdraws source holds guarded writing report.key item → holds report.value item →
      ∃ later grant, place < later ∧ later < report.seen ∧ traffic.writings[later]? = some grant ∧
        Grants source holds grant report.key item

/-- No invalidation overtakes a read that still has to insert what the write took away. -/
def Spares (enabled : Bool) (traffic : Traffic Db Key Value Write) (next : TrafficStep Key Write) :
    Prop :=
  enabled = true → ∀ place, next = .invalidate place →
    ∀ writing, traffic.writings[place]? = some writing →
      ∀ clear, writing.pending.head? = some clear →
        ∀ reading ∈ traffic.readings, ∀ value stamp, reading.fetched = some (value, stamp) →
          clear reading.key = true → stamp ≤ place →
            ∀ item, ¬ Withdraws source holds guarded writing reading.key item

/-- A withdrawal is followed by an invalidation of the key. -/
def Covered : Prop :=
  ∀ db request key item, Withdraws source holds guarded ⟨request, db, []⟩ key item →
    ∃ clear ∈ source.invalidates db request, clear key = true

/-- What was taken from the database after so many writes. -/
def Taken (traffic : Traffic Db Key Value Write) (key : Key) (value : Value) (stamp : Nat) : Prop :=
  stamp ≤ traffic.writings.length ∧ value = source.read (traffic.contents stamp) key

/-- What a later write took away from the key is still to be invalidated. -/
def Awaited (traffic : Traffic Db Key Value Write) (key : Key) (stamp : Nat) : Prop :=
  ∀ place writing, stamp ≤ place → traffic.writings[place]? = some writing →
    ∀ item, Withdraws source holds guarded writing key item →
      ∃ clear ∈ writing.pending, clear key = true

/-- The report is of a time after every withdrawal that it knows of. -/
def Timely (traffic : Traffic Db Key Value Write) (report : Report Key Value) : Prop :=
  ∃ stamp, Taken source traffic report.key report.value stamp ∧ stamp ≤ report.seen ∧
    report.seen ≤ traffic.writings.length ∧
    ∀ place ∈ report.known, place < report.seen ∧
      ∀ writing, traffic.writings[place]? = some writing →
        ∀ item, Withdraws source holds guarded writing report.key item → place < stamp

/-- The writes are one after another, and what was taken from the database is as it was then. -/
structure Sound (enabled : Bool) (traffic : Traffic Db Key Value Write) : Prop where
  chained : ∀ place writing, traffic.writings[place]? = some writing →
    traffic.contents (place + 1) = source.write writing.before writing.request
  known : ∀ reading ∈ traffic.readings, ∀ place ∈ reading.known, place < traffic.writings.length
  entries : ∀ key value stamp, traffic.entries key = some (value, stamp) →
    Taken source traffic key value stamp ∧
      (enabled = true → Awaited source holds guarded traffic key stamp)
  fetched : ∀ reading ∈ traffic.readings, ∀ value stamp, reading.fetched = some (value, stamp) →
    Taken source traffic reading.key value stamp ∧ (∀ place ∈ reading.known, place < stamp) ∧
      (enabled = true → Awaited source holds guarded traffic reading.key stamp)
  reports : ∀ report ∈ traffic.reports, Timely source holds guarded traffic report

end Laws

section Contents

variable {source : CacheAside Db Key Value Write} {traffic : Traffic Db Key Value Write}

theorem contents_of_get {place : Nat} {writing : Writing Db Key Write}
    (there : traffic.writings[place]? = some writing) : traffic.contents place = writing.before := by
  unfold contents
  rw [there]

theorem contents_length : traffic.contents traffic.writings.length = traffic.db := by
  unfold contents
  rw [List.getElem?_eq_none le_rfl]

/-- A write leaves the past as it was. -/
theorem contents_write {request : Write} {stamp : Nat} (le : stamp ≤ traffic.writings.length) :
    (traffic.write source request).contents stamp = traffic.contents stamp := by
  unfold contents write
  obtain before | rfl := le.lt_or_eq
  · rw [List.getElem?_append_left before, List.getElem?_eq_getElem before]
  · rw [List.getElem?_concat_length, List.getElem?_eq_none le_rfl]

theorem contents_write_now {request : Write} :
    (traffic.write source request).contents (traffic.writings.length + 1) =
      source.write traffic.db request := by
  unfold contents write
  rw [List.getElem?_eq_none (by simp)]

/-- A write after another one is an earlier write, or the new one. -/
theorem get_write {request : Write} {place : Nat} {writing : Writing Db Key Write}
    (there : (traffic.write source request).writings[place]? = some writing) :
    place < traffic.writings.length ∧ traffic.writings[place]? = some writing ∨
      place = traffic.writings.length ∧
        writing = ⟨request, traffic.db, source.invalidates traffic.db request⟩ := by
  have within : place < traffic.writings.length + 1 := by
    have := (List.getElem?_eq_some_iff.mp there).1
    simpa [write] using this
  obtain before | rfl := (Nat.lt_succ_iff.mp within).lt_or_eq
  · refine .inl ⟨before, ?_⟩
    rwa [write, List.getElem?_append_left before] at there
  · refine .inr ⟨rfl, ?_⟩
    rw [write, List.getElem?_concat_length] at there
    exact (Option.some.inj there).symm

theorem mem_returned {place : Nat} (there : place ∈ traffic.returned) :
    place < traffic.writings.length ∧
      ∃ writing, traffic.writings[place]? = some writing ∧ writing.pending = [] := by
  unfold returned at there
  rw [List.mem_filter, List.mem_range, Option.any_eq_true] at there
  obtain ⟨within, writing, found, done⟩ := there
  exact ⟨within, writing, found, List.isEmpty_iff.mp done⟩

end Contents

section Steps

variable {source : CacheAside Db Key Value Write} {holds : Value → Item → Prop}
  {guarded : Write → Prop} {enabled : Bool} {traffic : Traffic Db Key Value Write}

theorem sound_opened (db : Db) :
    Sound source holds guarded enabled ({ db } : Traffic Db Key Value Write) where
  chained place writing there := by cases there
  known reading there := absurd there List.not_mem_nil
  entries key value stamp there := by cases there
  fetched reading there := absurd there List.not_mem_nil
  reports report there := absurd there List.not_mem_nil

theorem Sound.lookUp (sound : Sound source holds guarded enabled traffic) (key : Key) :
    Sound source holds guarded enabled (traffic.lookUp enabled key) := by
  unfold Traffic.lookUp
  split
  · rename_i value stamp hit
    have held : enabled = true ∧ traffic.entries key = some (value, stamp) := by
      split at hit
      · rename_i on
        exact ⟨on, hit⟩
      · cases hit
    obtain ⟨taken, awaited⟩ := sound.entries key value stamp held.2
    refine ⟨sound.chained, sound.known, sound.entries, sound.fetched, ?_⟩
    intro report there
    obtain old | new := List.mem_append.mp there
    · exact sound.reports report old
    · rw [List.mem_singleton.mp new]
      refine ⟨stamp, taken, taken.1, le_rfl, fun place known => ?_⟩
      obtain ⟨within, done, found, none⟩ := mem_returned known
      refine ⟨within, fun writing there item withdrawn => ?_⟩
      by_contra later
      obtain ⟨clear, pending, -⟩ := awaited held.1 place writing (not_lt.mp later) there item
        withdrawn
      obtain rfl : done = writing := Option.some.inj (found.symm.trans there)
      rw [none] at pending
      exact List.not_mem_nil pending
  · refine ⟨sound.chained, ?_, sound.entries, ?_, sound.reports⟩
    · intro reading there place known
      obtain old | new := List.mem_append.mp there
      · exact sound.known reading old place known
      · rw [List.mem_singleton.mp new] at known
        exact (mem_returned known).1
    · intro reading there value stamp fetched
      obtain old | new := List.mem_append.mp there
      · exact sound.fetched reading old value stamp fetched
      · rw [List.mem_singleton.mp new] at fetched
        cases fetched

theorem Sound.fetch (sound : Sound source holds guarded enabled traffic) (place : Nat) :
    Sound source holds guarded enabled (traffic.fetch source place) := by
  have either : ∀ reading ∈ (traffic.fetch source place).readings, ∃ old ∈ traffic.readings,
      reading.key = old.key ∧ reading.known = old.known ∧ (reading.fetched = old.fetched ∨
        reading.fetched = some (source.read traffic.db old.key, traffic.writings.length)) := by
    intro reading there
    obtain ⟨index, found⟩ := List.mem_iff_getElem?.mp there
    rw [Traffic.fetch, List.getElem?_modify] at found
    obtain ⟨old, before, rfl⟩ := Option.map_eq_some_iff.mp found
    refine ⟨old, List.mem_of_getElem? before, ?_⟩
    split
    · cases had : old.fetched with
      | none => exact ⟨rfl, rfl, .inr (by simp)⟩
      | some pair => exact ⟨rfl, rfl, .inl (by simp)⟩
    · exact ⟨rfl, rfl, .inl rfl⟩
  refine ⟨sound.chained, ?_, sound.entries, ?_, sound.reports⟩
  · intro reading there known
    obtain ⟨old, before, -, same, -⟩ := either reading there
    rw [same]
    exact sound.known old before known
  · intro reading there value stamp fetched
    obtain ⟨old, before, key, known, same | new⟩ := either reading there
    · rw [key, known]
      exact sound.fetched old before value stamp (same ▸ fetched)
    · obtain ⟨rfl, rfl⟩ := Prod.mk.inj (Option.some.inj (new.symm.trans fetched))
      rw [key, known]
      refine ⟨⟨le_rfl, congrArg (source.read · old.key) contents_length.symm⟩,
        sound.known old before, fun _ place writing later there => ?_⟩
      exact absurd later (List.getElem?_eq_some_iff.mp there).1.not_ge

theorem Sound.giveUp (sound : Sound source holds guarded enabled traffic) (place : Nat) :
    Sound source holds guarded enabled
      { traffic with readings := traffic.readings.eraseIdx place } where
  chained := sound.chained
  known reading there := sound.known reading (List.mem_of_mem_eraseIdx there)
  entries := sound.entries
  fetched reading there := sound.fetched reading (List.mem_of_mem_eraseIdx there)
  reports := sound.reports

theorem Sound.insert [DecidableEq Key] (sound : Sound source holds guarded enabled traffic) (place : Nat) :
    Sound source holds guarded enabled (traffic.insert enabled place) := by
  unfold Traffic.insert
  split
  · rename_i key known value stamp found
    obtain ⟨taken, since, awaited⟩ := sound.fetched _ (List.mem_of_getElem? found) value stamp rfl
    have gone := sound.giveUp place
    refine ⟨gone.chained, gone.known, ?_, gone.fetched, ?_⟩
    · intro other held taken' there
      dsimp only at there
      split at there
      · by_cases same : other = key
        · rw [same, Function.update_self] at there
          obtain ⟨rfl, rfl⟩ := Prod.mk.inj (Option.some.inj there)
          rw [same]
          exact ⟨taken, awaited⟩
        · rw [Function.update_of_ne same] at there
          exact sound.entries other held taken' there
      · exact sound.entries other held taken' there
    · intro report there
      obtain old | new := List.mem_append.mp there
      · exact sound.reports report old
      · rw [List.mem_singleton.mp new]
        exact ⟨stamp, taken, taken.1, le_rfl, fun place there =>
          ⟨(since place there).trans_le taken.1, fun _ _ _ _ => since place there⟩⟩
  · exact sound

theorem Taken.write {key : Key} {value : Value} {stamp : Nat}
    (taken : Taken source traffic key value stamp) (request : Write) :
    Taken source (traffic.write source request) key value stamp := by
  refine ⟨?_, ?_⟩
  · exact taken.1.trans (by simp [Traffic.write])
  · rw [contents_write taken.1]
    exact taken.2

theorem Awaited.write {key : Key} {stamp : Nat}
    (awaited : Awaited source holds guarded traffic key stamp)
    (covered : Covered source holds guarded) (request : Write) :
    Awaited source holds guarded (traffic.write source request) key stamp := by
  intro place writing later there item withdrawn
  obtain ⟨-, old⟩ | ⟨-, rfl⟩ := get_write there
  · exact awaited place writing later old item withdrawn
  · exact covered traffic.db request key item withdrawn

theorem Sound.write (sound : Sound source holds guarded enabled traffic)
    (covered : enabled = true → Covered source holds guarded) (request : Write) :
    Sound source holds guarded enabled (traffic.write source request) where
  chained place writing there := by
    obtain ⟨within, old⟩ | ⟨rfl, rfl⟩ := get_write there
    · rw [contents_write within, sound.chained place writing old]
    · exact contents_write_now
  known reading there place known :=
    (sound.known reading there place known).trans_le (by simp [Traffic.write])
  entries key value stamp there := by
    obtain ⟨taken, awaited⟩ := sound.entries key value stamp there
    exact ⟨taken.write request, fun on => (awaited on).write (covered on) request⟩
  fetched reading there value stamp fetched := by
    obtain ⟨taken, since, awaited⟩ := sound.fetched reading there value stamp fetched
    exact ⟨taken.write request, since, fun on => (awaited on).write (covered on) request⟩
  reports report there := by
    obtain ⟨stamp, taken, le, seen, since⟩ := sound.reports report there
    refine ⟨stamp, taken.write request, le, seen.trans (by simp [Traffic.write]), ?_⟩
    intro place known
    obtain ⟨before, fresh⟩ := since place known
    refine ⟨before, fun writing there item withdrawn => ?_⟩
    obtain ⟨-, old⟩ | ⟨rfl, -⟩ := get_write there
    · exact fresh writing old item withdrawn
    · exact absurd seen before.not_ge

/-- An invalidation is the next one of its write, or there is none left. -/
theorem invalidate_cases (traffic : Traffic Db Key Value Write) (place : Nat) :
    traffic.invalidate place = traffic ∨
      ∃ request before clear rest, traffic.writings[place]? = some ⟨request, before, clear :: rest⟩ ∧
        traffic.invalidate place =
          { traffic with
            writings := traffic.writings.set place ⟨request, before, rest⟩
            entries := fun key => if clear key then none else traffic.entries key } := by
  unfold Traffic.invalidate
  split
  · rename_i request before clear rest found
    exact .inr ⟨request, before, clear, rest, found, rfl⟩
  · exact .inl rfl

/-- A write among those after an invalidation is one before it, of the same place. -/
theorem get_set {writings : List (Writing Db Key Write)} {request : Write} {before : Db}
    {clear : Key → Bool} {rest : List (Key → Bool)} {place other : Nat}
    {writing : Writing Db Key Write} (found : writings[place]? = some ⟨request, before, clear :: rest⟩)
    (there : (writings.set place ⟨request, before, rest⟩)[other]? = some writing) :
    ∃ old, writings[other]? = some old ∧ writing.request = old.request ∧
      writing.before = old.before ∧ (writing.pending = old.pending ∨
        other = place ∧ old.pending = clear :: rest ∧ writing.pending = rest) := by
  by_cases same : place = other
  · subst same
    rw [List.getElem?_set_self (List.getElem?_eq_some_iff.mp found).1] at there
    obtain rfl := Option.some.inj there
    exact ⟨_, found, rfl, rfl, .inr ⟨rfl, rfl, rfl⟩⟩
  · rw [List.getElem?_set_ne same] at there
    exact ⟨writing, there, rfl, rfl, .inl rfl⟩

theorem contents_set {request : Write} {before : Db} {clear : Key → Bool}
    {rest : List (Key → Bool)} {place : Nat} {entries : Key → Option (Value × Nat)}
    (found : traffic.writings[place]? = some ⟨request, before, clear :: rest⟩) (stamp : Nat) :
    contents { traffic with
      writings := traffic.writings.set place ⟨request, before, rest⟩
      entries := entries } stamp = traffic.contents stamp := by
  unfold contents
  by_cases same : place = stamp
  · subst same
    simp only [List.getElem?_set_self (List.getElem?_eq_some_iff.mp found).1, found]
  · simp only [List.getElem?_set_ne same]

theorem Withdraws.congr {first second : Writing Db Key Write} {key : Key} {item : Item}
    (request : first.request = second.request) (before : first.before = second.before)
    (withdrawn : Withdraws source holds guarded first key item) :
    Withdraws source holds guarded second key item := by
  unfold Withdraws at withdrawn ⊢
  rwa [← request, ← before]

theorem Sound.invalidate (sound : Sound source holds guarded enabled traffic) {place : Nat}
    (spares : Spares source holds guarded enabled traffic (.invalidate place)) :
    Sound source holds guarded enabled (traffic.invalidate place) := by
  obtain same | ⟨request, before, clear, rest, found, same⟩ := invalidate_cases traffic place
  · rwa [same]
  rw [same]
  have length : (traffic.writings.set place ⟨request, before, rest⟩).length =
      traffic.writings.length := List.length_set
  have awaited : ∀ key stamp, Awaited source holds guarded traffic key stamp →
      (clear key = true → stamp ≤ place → ∀ item,
        ¬ Withdraws source holds guarded ⟨request, before, clear :: rest⟩ key item) →
      Awaited source holds guarded { traffic with
        writings := traffic.writings.set place ⟨request, before, rest⟩
        entries := fun key => if clear key then none else traffic.entries key } key stamp := by
    intro key stamp awaited spared other writing later there item withdrawn
    obtain ⟨old, earlier, sameRequest, sameBefore, pending | ⟨rfl, all, pending⟩⟩ :=
      get_set found there
    · rw [pending]
      exact awaited other old later earlier item (withdrawn.congr sameRequest sameBefore)
    · have known := withdrawn.congr sameRequest sameBefore
      obtain ⟨one, among, covers⟩ := awaited other old later earlier item known
      rw [all] at among
      obtain rfl | kept := List.mem_cons.mp among
      · obtain rfl := Option.some.inj (found.symm.trans earlier)
        exact absurd known (spared covers later item)
      · exact ⟨one, pending ▸ kept, covers⟩
  have taken : ∀ key value stamp, Taken source traffic key value stamp →
      Taken source { traffic with
        writings := traffic.writings.set place ⟨request, before, rest⟩
        entries := fun key => if clear key then none else traffic.entries key } key value stamp := by
    intro key value stamp taken
    refine ⟨length.symm ▸ taken.1, ?_⟩
    rw [contents_set found]
    exact taken.2
  constructor
  · intro other writing there
    obtain ⟨old, earlier, sameRequest, sameBefore, -⟩ := get_set found there
    rw [contents_set found, sameRequest, sameBefore]
    exact sound.chained other old earlier
  · intro reading there other known
    exact length.symm ▸ sound.known reading there other known
  · intro key value stamp there
    dsimp only at there
    split at there
    · cases there
    · rename_i uncleared
      obtain ⟨was, pending⟩ := sound.entries key value stamp there
      exact ⟨taken key value stamp was, fun on => awaited key stamp (pending on) fun clears =>
        absurd clears uncleared⟩
  · intro reading there value stamp fetched
    obtain ⟨was, since, pending⟩ := sound.fetched reading there value stamp fetched
    refine ⟨taken reading.key value stamp was, since, fun on => ?_⟩
    exact awaited reading.key stamp (pending on) fun clears le =>
      spares on place rfl _ found clear rfl reading there value stamp fetched clears le
  · intro report there
    obtain ⟨stamp, was, le, seen, since⟩ := sound.reports report there
    refine ⟨stamp, taken report.key report.value stamp was, le, length.symm ▸ seen, ?_⟩
    intro other known
    refine ⟨(since other known).1, fun writing there item withdrawn => ?_⟩
    obtain ⟨old, earlier, sameRequest, sameBefore, -⟩ := get_set found there
    exact (since other known).2 old earlier item (withdrawn.congr sameRequest sameBefore)

theorem Sound.evict [DecidableEq Key] (sound : Sound source holds guarded enabled traffic)
    (key : Key) :
    Sound source holds guarded enabled
      { traffic with entries := Function.update traffic.entries key none } := by
  refine ⟨sound.chained, sound.known, ?_, sound.fetched, sound.reports⟩
  intro other value stamp there
  dsimp only at there
  by_cases same : other = key
  · rw [same, Function.update_self] at there
    cases there
  · rw [Function.update_of_ne same] at there
    exact sound.entries other value stamp there

theorem Sound.step [DecidableEq Key] (sound : Sound source holds guarded enabled traffic)
    (covered : enabled = true → Covered source holds guarded) (next : TrafficStep Key Write)
    (spares : Spares source holds guarded enabled traffic next) :
    Sound source holds guarded enabled (traffic.step source enabled next) := by
  cases next with
  | lookUp key => exact sound.lookUp key
  | fetch place => exact sound.fetch place
  | insert place => exact sound.insert place
  | giveUp place => exact sound.giveUp place
  | write request => exact sound.write covered request
  | invalidate place => exact sound.invalidate spares
  | evict key => exact sound.evict key

/-- Between a time at which an item is not held and a later one at which it is, a write grants it. -/
theorem Sound.granted (sound : Sound source holds guarded enabled traffic) {key : Key} {item : Item}
    {first last : Nat} (le : first ≤ last) (within : last ≤ traffic.writings.length)
    (without : ¬ holds (source.read (traffic.contents first) key) item)
    (held : holds (source.read (traffic.contents last) key) item) :
    ∃ place grant, first ≤ place ∧ place < last ∧ traffic.writings[place]? = some grant ∧
      Grants source holds grant key item := by
  induction last, le using Nat.le_induction with
  | base => exact absurd held without
  | succ last le ih =>
      by_cases already : holds (source.read (traffic.contents last) key) item
      · obtain ⟨place, grant, from_first, before, rest⟩ := ih (by omega) already
        exact ⟨place, grant, from_first, by omega, rest⟩
      · have there : traffic.writings[last]? = some traffic.writings[last] :=
          List.getElem?_eq_getElem within
        refine ⟨last, traffic.writings[last], le, by omega, there, ?_, ?_⟩
        · rwa [contents_of_get there] at already
        · rwa [sound.chained last _ there] at held

theorem Sound.unwithdrawn (sound : Sound source holds guarded enabled traffic)
    {report : Report Key Value} (there : report ∈ traffic.reports) :
    Unwithdrawn source holds guarded traffic report := by
  intro place known writing found item withdrawn held
  obtain ⟨stamp, taken, le, -, since⟩ := sound.reports report there
  have before : place < stamp := (since place known).2 writing found item withdrawn
  have without : ¬ holds (source.read (traffic.contents (place + 1)) report.key) item := by
    rw [sound.chained place writing found]
    exact withdrawn.2.2
  obtain ⟨later, grant, after, last, rest⟩ :=
    sound.granted before taken.1 without (taken.2 ▸ held)
  exact ⟨later, grant, after, last.trans_le le, rest⟩

/-- Where every withdrawal invalidates its key, and no invalidation overtakes a read that still has
to insert, nothing that a write took away is reported by a read that starts after it returned. -/
theorem reports_unwithdrawn [DecidableEq Key] (covered : enabled = true → Covered source holds guarded)
    (sound : Sound source holds guarded enabled traffic) {steps : List (TrafficStep Key Write)}
    (spares : EveryStep (Traffic.step source enabled) (Spares source holds guarded enabled)
      traffic steps) :
    Throughout (Traffic.step source enabled)
      (fun traffic => ∀ report ∈ traffic.reports, Unwithdrawn source holds guarded traffic report)
      traffic steps := by
  induction steps generalizing traffic with
  | nil => exact fun report there => sound.unwithdrawn there
  | cons next rest ih =>
      exact ⟨fun report there => sound.unwithdrawn there,
        ih (sound.step covered next spares.1) spares.2⟩

end Steps

end Traffic
end Sanshain.Effects
