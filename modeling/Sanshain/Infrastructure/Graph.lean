import Sanshain.Infrastructure.Tables

namespace Sanshain.Infrastructure

open Sanshain.Data Sanshain.Domain Sanshain.History

/-- What a table of stretches shows at an instant, or now. -/
def shown {Row : Type} (span : Row → Span Instant) (rows : List Row) : Option Instant → List Row
  | some instant => lasting span rows instant
  | none => rows.filter fun row => (span row).closed = none

/-- Each instant once, in order. -/
def sortedDates (dates : List Instant) : List Instant := dates.dedup.insertionSort (· ≤ ·)

def pinInfo (row : PinRow) : PinInfo :=
  { client := row.clientName
    service := row.serviceName
    apiType := row.apiType
    version := row.version
    path := row.path
    normalizedPath := row.normalizedPath
    method := row.method
    validFrom := row.validFrom
    lastRequiredAt := row.lastRequiredAt }

/-- The order in which pins are listed. -/
def pinLe (first second : PinInfo) : Prop :=
  first.client < second.client ∨ first.client = second.client ∧
    (first.service < second.service ∨ first.service = second.service ∧
      (first.path < second.path ∨ first.path = second.path ∧ first.method ≤ second.method))

instance (first second : PinInfo) : Decidable (pinLe first second) :=
  inferInstanceAs (Decidable (_ ∨ _))

def listPins (rows : List PinRow) : List PinInfo := (rows.map pinInfo).insertionSort pinLe

def memberVersion (lastProvidedAt : MemberRow → Option Instant) (row : MemberRow) : MemberVersion :=
  ⟨row.serviceName, row.apiType, row.version, row.validFrom, lastProvidedAt row⟩

/-- The order in which member versions are listed. -/
def memberLe (first second : MemberVersion) : Prop :=
  first.service < second.service ∨
    first.service = second.service ∧ first.apiType.rank ≤ second.apiType.rank

instance (first second : MemberVersion) : Decidable (memberLe first second) :=
  inferInstanceAs (Decidable (_ ∨ _))

def peripheralLe (first second : PeripheralDependency) : Prop :=
  first.system < second.system ∨
    first.system = second.system ∧ first.resource ≤ second.resource

instance (first second : PeripheralDependency) : Decidable (peripheralLe first second) :=
  inferInstanceAs (Decidable (_ ∨ _))

namespace Store

section Reads

/-- The newest branch first. -/
def listBranches (store : Store) : List BranchInfo :=
  store.branches.insertionSort fun first second =>
    second.createdAt < first.createdAt ∨
      second.createdAt = first.createdAt ∧ second.id ≤ first.id

def branchPinsOf (store : Store) (branchId : Nat) : List PinRow :=
  (store.branchPins.filter (·.1 = branchId)).map Prod.snd

def branchMembersOf (store : Store) (branchId : Nat) : List MemberRow :=
  (store.branchMembers.filter (·.1 = branchId)).map Prod.snd

def listCurrentTrunkPins (store : Store) : List PinInfo :=
  listPins (shown PinRow.span store.trunkPins none)

def listTrunkPinsAt (store : Store) (instant : Instant) : List PinInfo :=
  listPins (shown PinRow.span store.trunkPins (some instant))

def listBranchPins (store : Store) (branchId : Nat) (instant : Option Instant) : List PinInfo :=
  listPins (shown PinRow.span (store.branchPinsOf branchId) instant)

/-- A branch does not record when a member version was last provided. -/
def listMemberVersions (store : Store) (track : MemberTrack) (instant : Option Instant) :
    List MemberVersion :=
  (match track with
    | .trunk => (shown MemberRow.span store.trunkMembers instant).map
        (memberVersion fun row => some row.lastProvidedAt)
    | .branch branchId => (shown MemberRow.span (store.branchMembersOf branchId) instant).map
        (memberVersion fun _ => none)).insertionSort memberLe

def peripheryOf (store : Store) (track : PeripheryTrack) : List PeripheryRow :=
  store.periphery.filter (·.track = track)

def listPeriphery (store : Store) (track : PeripheryTrack) (instant : Option Instant) :
    List PeripheralDependency :=
  ((shown PeripheryRow.span (store.peripheryOf track) instant).map
    fun row => PeripheralDependency.mk row.system row.resource).insertionSort peripheralLe

/-- The instants at which the graph of trunk or of a branch may look different. -/
def listGraphChangeDates (store : Store) : Option Nat → List Instant
  | none => sortedDates (store.trunkPins.flatMap (·.span.bounds) ++
      (store.peripheryOf .trunk).flatMap (·.span.bounds))
  | some branchId => sortedDates ((store.branchPinsOf branchId).flatMap (·.span.bounds) ++
      (store.branchMembersOf branchId).flatMap (·.span.bounds) ++
      (store.peripheryOf (.branch branchId)).flatMap (·.span.bounds))

/-- The branches whose recorded graph still holds the Producer. -/
def branchMemberships (store : Store) (serviceId : Nat) : List String :=
  (store.branches.filter fun branch =>
    (store.branchPins.any fun row =>
      row.1 = branch.id ∧ row.2.serviceId = serviceId ∧ row.2.validTo = none) ||
    (store.branchMembers.any fun row =>
      row.1 = branch.id ∧ row.2.serviceId = serviceId ∧ row.2.validTo = none)).map (·.name)

/-- The branches whose recorded graph still holds this version of the Producer. -/
def branchesReferencing (store : Store) (serviceId : Nat) (apiType : ApiType) (version : SemVer) :
    List String :=
  ((store.branches.filter fun branch =>
    (store.branchPins.any fun row =>
      row.1 = branch.id ∧ row.2.validTo = none ∧ row.2.serviceId = serviceId ∧
        row.2.apiType = apiType ∧ row.2.version = version) ||
    (store.branchMembers.any fun row =>
      row.1 = branch.id ∧ row.2.validTo = none ∧ row.2.serviceId = serviceId ∧
        row.2.apiType = apiType ∧ row.2.version = version)).map (·.name)).dedup.insertionSort (· ≤ ·)

end Reads

section Pins

/-- One pin of a graph: another version closes the open record, the same one refreshes it. -/
def refreshPin (pin : RecordPinParams) (row : PinRow) : PinRow :=
  if row.key = (pin.clientId, pin.serviceId, pin.apiType, pin.normalizedPath, pin.method) ∧
      row.validTo = none then
    if row.version = pin.version then { row with lastRequiredAt := pin.nowIso }
    else { row with validTo := some pin.nowIso }
  else row

def holdsPin (pin : RecordPinParams) (row : PinRow) : Bool :=
  row.key = (pin.clientId, pin.serviceId, pin.apiType, pin.normalizedPath, pin.method) &&
    row.validTo.isNone && row.version = pin.version

/-- A new pin takes the names of its participants, who must be there. -/
def recordPin (store : Store) (rows : List PinRow) (pin : RecordPinParams) :
    Except RepositoryError (List PinRow) :=
  if rows.any (holdsPin pin) then .ok (rows.map (refreshPin pin))
  else match store.clientName? pin.clientId, store.serviceName? pin.serviceId with
    | some clientName, some serviceName =>
        .ok (rows.map (refreshPin pin) ++ [⟨pin.clientId, clientName, pin.serviceId, serviceName,
          pin.apiType, pin.path, pin.normalizedPath, pin.method, pin.version, pin.nowIso, pin.nowIso,
          none⟩])
    | _, _ => .error (constraintFailed "NOT NULL")

def recordTrunkPins (store : Store) (pins : List RecordPinParams) : Except RepositoryError Store :=
  (pins.foldlM store.recordPin store.trunkPins).map fun rows => { store with trunkPins := rows }

def setBranchPins (store : Store) (branchId : Nat) (rows : List PinRow) : Store :=
  { store with
    branchPins := store.branchPins.filter (·.1 ≠ branchId) ++ rows.map fun row => (branchId, row) }

def recordBranchPins (store : Store) (branchId : Nat) (pins : List RecordPinParams) :
    Except RepositoryError Store :=
  if pins ≠ [] ∧ ¬ store.hasBranch branchId then .error (constraintFailed "FOREIGN KEY")
  else (pins.foldlM store.recordPin (store.branchPinsOf branchId)).map (store.setBranchPins branchId)

def closePinsIf (leaves : PinRow → Bool) (now : Instant) (row : PinRow) : PinRow :=
  if row.validTo = none ∧ leaves row then { row with validTo := some now } else row

def closeMembersIf (leaves : MemberRow → Bool) (now : Instant) (row : MemberRow) : MemberRow :=
  if row.validTo = none ∧ leaves row then { row with validTo := some now } else row

def closePins (serviceId : Nat) (apiType : Option ApiType) : Instant → PinRow → PinRow :=
  closePinsIf fun row => row.serviceId = serviceId && apiType.all (· = row.apiType)

def closeMembers (serviceId : Nat) (apiType : Option ApiType) : Instant → MemberRow → MemberRow :=
  closeMembersIf fun row => row.serviceId = serviceId && apiType.all (· = row.apiType)

def closeTrunkPins (store : Store) (serviceId : Nat) (apiType : ApiType) (now : Instant) :
    Store × Nat :=
  ({ store with
      trunkPins := store.trunkPins.map (closePins serviceId (some apiType) now)
      trunkMembers := store.trunkMembers.map (closeMembers serviceId (some apiType) now) },
    (store.trunkPins.filter fun row =>
      row.serviceId = serviceId ∧ row.apiType = apiType ∧ row.validTo = none).length)

/-- The marker of an entry goes when it was last set before the cutoff. -/
def clearMarker (cutoff : Instant) (row : SpecVersionRow) : SpecVersionRow :=
  if row.entry.trunkProvidedAt.any (· < cutoff) then
    { row with entry := { row.entry with trunkProvidedAt := none } }
  else row

/-- Pins not required and versions not provided since the cutoff leave the current graph. -/
def closeExpiredTrunkData (store : Store) (cutoff now : Instant) : Store × Nat :=
  ({ store with
      trunkPins := store.trunkPins.map (closePinsIf (fun row => row.lastRequiredAt < cutoff) now)
      specVersions := store.specVersions.map (clearMarker cutoff)
      trunkMembers :=
        store.trunkMembers.map (closeMembersIf (fun row => row.lastProvidedAt < cutoff) now) },
    (store.trunkPins.filter fun row => row.validTo = none ∧ row.lastRequiredAt < cutoff).length)

end Pins

section Members

/-- The open record of a line: another version closes it, the same one refreshes it. -/
def refreshMember (serviceId : Nat) (apiType : ApiType) (version : SemVer) (now : Instant)
    (row : MemberRow) : MemberRow :=
  if row.serviceId = serviceId ∧ row.apiType = apiType ∧ row.validTo = none then
    if row.version = version then { row with lastProvidedAt := now }
    else { row with validTo := some now }
  else row

def isOpenMember (serviceId : Nat) (apiType : ApiType) (version : SemVer) (row : MemberRow) : Bool :=
  row.serviceId = serviceId && row.apiType = apiType && row.version = version && row.validTo.isNone

/-- The branch's member version: another one closes, and the same one is recorded once. -/
def recordBranchMember (store : Store) (branchId serviceId : Nat) (apiType : ApiType)
    (version : SemVer) (now : Instant) : Except RepositoryError Store :=
  let closed := store.branchMembers.map fun row =>
    if row.1 = branchId ∧ row.2.version ≠ version then
      (row.1, refreshMember serviceId apiType version now row.2)
    else row
  if store.branchMembers.any fun row => row.1 = branchId && isOpenMember serviceId apiType version row.2 then
    .ok { store with branchMembers := closed }
  else match store.serviceName? serviceId with
    | none => .error (constraintFailed "NOT NULL")
    | some name =>
        if store.hasBranch branchId then
          .ok { store with
            branchMembers := closed ++ [(branchId, ⟨serviceId, name, apiType, version, now, now, none⟩)] }
        else .error (constraintFailed "FOREIGN KEY")

end Members

section Periphery

/-- The open resources of a system in one track. -/
def openResources (track : PeripheryTrack) (system : String) (rows : List PeripheryRow) :
    List String :=
  (rows.filter fun row => row.track = track ∧ row.system = system ∧ row.validTo = none).map
    (·.resource)

/-- Resources that are no longer declared close, and declared ones without an open row open. -/
def reconcileTrack (system : String) (resources : List String) (now : Instant)
    (rows : List PeripheryRow) (track : PeripheryTrack) : List PeripheryRow :=
  let held := openResources track system rows
  rows.map (fun row =>
      if row.track = track ∧ row.system = system ∧ row.validTo = none ∧ row.resource ∉ resources then
        { row with validTo := some now }
      else row) ++
    (resources.filter (· ∉ held)).dedup.map fun resource => ⟨track, system, resource, now, none⟩

def peripheryTracks (trunk : Bool) : List PeripheryTrack := if trunk then [.dev, .trunk] else [.dev]

/-- A push replaces the dev set of its system, and the trunk set too when it comes from trunk. -/
def reconcilePeriphery (store : Store) (system : String) (trunk : Bool) (resources : List String)
    (now : Instant) (outbox : List NewWebhookEvent) : Except RepositoryError (Store × Bool) :=
  let tracks := peripheryTracks trunk
  let changed := tracks.any fun track =>
    let held := openResources track system store.periphery
    held.any (· ∉ resources) || resources.any (· ∉ held)
  let reconciled : Store := { store with
    periphery := tracks.foldl (reconcileTrack system resources now) store.periphery }
  (reconciled.writeOutbox outbox).map fun after => (after, changed)

/-- The context of a system, unless it is already what is stored. -/
def upsertSystemContext (store : Store) (system : String) (context : SystemContext) : Store × Bool :=
  if store.systemContexts.get? system = some context then (store, false)
  else ({ store with systemContexts := store.systemContexts.insert system context }, true)

def listSystemContexts (store : Store) : Entries String SystemContext :=
  store.systemContexts.insertionSort fun first second => first.1 ≤ second.1

def deleteSystemContext (store : Store) (system : String) : Store :=
  { store with systemContexts := store.systemContexts.filter (·.1 ≠ system) }

end Periphery

section Branches

/-- A name belongs to one branch; the branch and its event are one transaction. -/
def insertBranch (store : Store) (name : String) (createdAt : Instant) (createdBy source : String)
    (asOf : Instant) (outbox : List NewWebhookEvent) : Except RepositoryError (Store × Nat) :=
  if name ∈ store.branches.map (·.name) then .error .conflict
  else
    let opened : Store := { store with
      branches := store.branches ++ [⟨store.nextBranchId, name, createdAt, createdBy, source, asOf⟩]
      nextBranchId := store.nextBranchId + 1 }
    (opened.writeOutbox outbox).map fun after => (after, store.nextBranchId)

def renameBranch (store : Store) (branchId : Nat) (newName : String) : Except RepositoryError Store :=
  if store.branches.any fun branch => branch.id ≠ branchId ∧ branch.name = newName then
    .error .conflict
  else .ok { store with
    branches := store.branches.map fun branch =>
      if branch.id = branchId then { branch with name := newName } else branch }

/-- A branch goes with its graph. -/
def deleteBranch (store : Store) (branchId : Nat) : Store :=
  { store with
    branches := store.branches.filter (·.id ≠ branchId)
    branchPins := store.branchPins.filter (·.1 ≠ branchId)
    branchMembers := store.branchMembers.filter (·.1 ≠ branchId)
    periphery := store.periphery.filter (·.track ≠ .branch branchId) }

def copiedPin (now : Instant) (row : PinRow) : PinRow :=
  { row with
    validFrom := now
    lastRequiredAt := now
    validTo := none }

/-- Copied pins are new open pins of the branch, and a branch holds one open pin for a key. -/
def copyPins (store : Store) (branchId : Nat) (rows : List PinRow) (now : Instant) :
    Except RepositoryError Store :=
  let copied := rows.map (copiedPin now)
  if (((store.branchPinsOf branchId).filter (·.validTo = none) ++ copied).map PinRow.key).Nodup then
    if copied ≠ [] ∧ ¬ store.hasBranch branchId then .error (constraintFailed "FOREIGN KEY")
    else .ok { store with
      branchPins := store.branchPins ++ copied.map fun row => (branchId, row) }
  else .error (constraintFailed "UNIQUE")

def copiedPeriphery (branchId : Nat) (now : Instant) (row : PeripheryRow) : PeripheryRow :=
  ⟨.branch branchId, row.system, row.resource, now, none⟩

def copyPeriphery (store : Store) (branchId : Nat) (rows : List PeripheryRow) (now : Instant) :
    Except RepositoryError Store :=
  let copied := rows.map (copiedPeriphery branchId now)
  if (((store.peripheryOf (.branch branchId)).filter (·.validTo = none) ++ copied).map
      fun row => (row.system, row.resource)).Nodup then
    if copied ≠ [] ∧ ¬ store.hasBranch branchId then .error (constraintFailed "FOREIGN KEY")
    else .ok { store with periphery := store.periphery ++ copied }
  else .error (constraintFailed "UNIQUE")

end Branches
end Store
end Sanshain.Infrastructure
