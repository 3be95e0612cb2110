import Sanshain.Application.Calls

namespace Sanshain.Application

open Sanshain.Data Sanshain.Domain Sanshain.Effects Sanshain.Text

section Expiry

/-- The ceiling of every age setting, in days. -/
def maxAgeDaysLimit : Nat := 36500

def secondsPerDay : Nat := 86400

def getSnapshotMaxAgeDays : UseCase Nat := do
  let stored ← repo (.getSetting "snapshot_max_age_days")
  .done (min ((parseUnsigned (2 ^ 64) (stored.getD "30").toList).getD 30) maxAgeDaysLimit)

/-- Snapshots neither provided nor required for the configured days go; zero days keeps all. -/
def cleanupExpiredSnapshots : UseCase Nat := do
  let days ← getSnapshotMaxAgeDays
  if days = 0 then .done 0
  else do
    let now ← nowIso
    repo (.deleteExpiredSnapshots (now - days * secondsPerDay))

def getTrunkMaxAgeDays : UseCase Nat := do
  let stored ← repo (.getSetting "trunk_max_age_days")
  .done (min ((parseUnsigned (2 ^ 64) (stored.getD "90").toList).getD 90) maxAgeDaysLimit)

/-- Trunk pins and markers not refreshed for the configured days leave the current graph. -/
def cleanupStaleTrunkData : UseCase Nat := do
  let days ← getTrunkMaxAgeDays
  if days = 0 then .done 0
  else do
    let now ← nowIso
    repo (.closeExpiredTrunkData (now - days * secondsPerDay) now)

end Expiry

section Maintainers

/-- The stored directory groups the caller is in. -/
def directoryMaintainerGroupIds (actor : Actor) : UseCase (List Nat) :=
  if actor.directoryGroups.isEmpty then .done []
  else do
    let groups ← repo .listGroups
    .done ((groups.filter fun group =>
      group.fromDirectory && actor.directoryGroups.contains group.name).map (·.id))

def maintainsProducer (actor : Actor) (producer : String) : UseCase Bool :=
  if actor.isRoot then .done true
  else do
    match ← repo (.findService producer) with
    | none => .done false
    | some serviceId =>
        if ← repo (.maintainsProducer actor.userId serviceId) then .done true
        else do
          let groupIds ← directoryMaintainerGroupIds actor
          if groupIds.isEmpty then .done false
          else do
            let maintainers ← repo (.listGroupMaintainerIds serviceId)
            .done (maintainers.any groupIds.contains)

def requireProducerPermission (actor : Actor) (permission : Permission) (producer : String) :
    UseCase Unit :=
  if actor.hasPermission permission then .done ()
  else if Role.grants .maintainer permission then do
    if ← maintainsProducer actor producer then .done () else .fail .forbidden
  else .fail .forbidden

end Maintainers

section Retirement

structure RetiredProtocol where
  tagCleared : Option String := none
  trunkPinsClosed : Nat := 0
  contractsReleased : Nat := 0
  deriving DecidableEq, Repr

/-- A releaser may retire a family, and so may a maintainer of the Producer. -/
def mayRetire (producer : String) : Option Actor → UseCase Bool
  | none => .done false
  | some actor =>
      if actor.hasPermission .releaseGa then .done true
      else do
        match ← (requireProducerPermission actor .manageProducers producer).attempt with
        | .ok () => .done true
        | .error _ => .done false

def clearTag (serviceId : Nat) : ApiType → UseCase (Option String)
  | .openApi => .done none
  | .asyncApi => do
      repo (.removeServiceTag serviceId "messaging")
      .done (some "messaging")
  | .proto => do
      repo (.removeServiceTag serviceId "grpc")
      .done (some "grpc")

def releaseContract (serviceId released : Nat) (contract : ChannelMessageContract) : UseCase Nat :=
  if contract.ownerServiceId = serviceId then do
    repo (.deleteChannelMessageContract contract.channel contract.messageName)
    .done (released + 1)
  else .done released

/-- Only a channel family has contracts to release. -/
def releaseContracts (serviceId : Nat) (apiType : ApiType) : UseCase Nat :=
  if apiType = .asyncApi then do
    let contracts ← repo .listChannelMessageContracts
    Program.foldEach (releaseContract serviceId) 0 contracts
  else .done 0

/-- A Producer stops presenting an API family; its version lines stay. -/
def retireProtocolFamily (producer : String) (apiType : ApiType) (caller : Option Actor)
    (dryRun : Bool) : UseCase RetiredProtocol := do
  if ← mayRetire producer caller then
    match ← repo (.findService producer) with
    | none => .fail (.notFound s!"Producer '{producer}' not found")
    | some serviceId =>
        if dryRun then .done {}
        else do
          let tag ← clearTag serviceId apiType
          let now ← nowIso
          let closed ← repo (.closeTrunkPinsForServiceApi serviceId apiType now)
          let released ← releaseContracts serviceId apiType
          .done ⟨tag, closed, released⟩
  else
    .fail (.forbiddenWithReason s!"retiring an API family of '{producer}' requires the 'releaser' role or a maintainer grant on that Producer — ask an administrator for either")

end Retirement

section Calls

/-- What the expiry may do. -/
def Expires (request : Call) : Prop :=
  request.readsOnly = true ∨ ∃ cutoff, request = .repo (.deleteExpiredSnapshots cutoff)

/-- What retiring a family may do: it releases contracts that it read to be the Producer's own. -/
inductive Retires (producer : String) (apiType : ApiType) (events : Calls) : Call → Prop
  | reads {request : Call} (reads : request.readsOnly = true) : Retires producer apiType events request
  | tag (serviceId : Nat) (tag : String) :
      Retires producer apiType events (.repo (.removeServiceTag serviceId tag))
  | closed (serviceId : Nat) (now : Instant) :
      Retires producer apiType events (.repo (.closeTrunkPinsForServiceApi serviceId apiType now))
  | released (serviceId : Nat) (contracts : List ChannelMessageContract)
      (contract : ChannelMessageContract) (family : apiType = .asyncApi)
      (known : Heard events (.findService producer) (some serviceId))
      (listed : Heard events .listChannelMessageContracts contracts) (among : contract ∈ contracts)
      (own : contract.ownerServiceId = serviceId) :
      Retires producer apiType events
        (.repo (.deleteChannelMessageContract contract.channel contract.messageName))

theorem only_cleanupExpiredSnapshots : cleanupExpiredSnapshots.Only Expires fun _ _ => True := by
  have days : getSnapshotMaxAgeDays.Only Expires fun _ _ => True :=
    ((reads_repo rfl).bind fun stored => .done _).mono (fun _ reads => .inl reads)
      fun _ _ _ => trivial
  refine days.bind fun days => ?_
  split
  · exact .done 0
  · refine (only_nowIso (.inl rfl)).bind fun now => ?_
    exact (only_repo (.inr ⟨_, rfl⟩)).mono (fun _ expires => expires) fun _ _ _ => trivial

theorem reads_directoryMaintainerGroupIds (actor : Actor) :
    Reads (directoryMaintainerGroupIds actor) := by
  unfold directoryMaintainerGroupIds
  split
  · exact .done []
  · exact (reads_repo rfl).bind fun groups => .done _

theorem reads_maintainsProducer (actor : Actor) (producer : String) :
    Reads (maintainsProducer actor producer) := by
  unfold maintainsProducer
  split
  · exact .done true
  · refine (reads_repo rfl).bind fun found => ?_
    cases found with
    | none => exact .done false
    | some serviceId =>
        refine (reads_repo rfl).bind fun maintains => ?_
        split
        · exact .done true
        · refine (reads_directoryMaintainerGroupIds actor).bind fun groupIds => ?_
          split
          · exact .done false
          · exact (reads_repo rfl).bind fun maintainers => .done _

theorem only_mayRetire (producer : String) (caller : Option Actor) :
    (mayRetire producer caller).Only (fun request => request.readsOnly = true) CallFailed := by
  have permitted : ∀ actor, (requireProducerPermission actor .manageProducers producer).Only
      (fun request => request.readsOnly = true) fun _ _ => True := by
    intro actor
    unfold requireProducerPermission
    split
    · exact .done ()
    · refine ((reads_maintainsProducer actor producer).mono (fun _ reads => reads)
        fun _ _ _ => trivial).bind fun maintains => ?_
      split
      · exact .done ()
      · exact .fail fun _ => trivial
  unfold mayRetire
  cases caller with
  | none => exact .done false
  | some actor =>
      dsimp only
      split
      · exact .done true
      · refine (permitted actor).attempt.bind fun outcome => ?_
        cases outcome <;> exact .done _

/-- The contracts released are among those read to be the Producer's own. -/
theorem along_releaseContracts {producer : String} {apiType : ApiType} {serviceId : Nat}
    {events : Calls} (known : Heard events (.findService producer) (some serviceId)) :
    (releaseContracts serviceId apiType).Along (Retires producer apiType) (fun _ _ => True)
      (fun _ _ => True) events := by
  unfold releaseContracts
  split
  · rename_i family
    refine along_repo_bind (.reads rfl) (fun _ => trivial) fun contracts => ?_
    refine (Program.along_foldEach (fun before _ later =>
      Heard later (.findService producer) (some serviceId) ∧
        Heard later .listChannelMessageContracts contracts)
      ⟨known.cons _, heard_now _ _ contracts⟩ ?_).mono (fun _ _ allowed => allowed)
      (fun _ _ _ => trivial) fun _ _ failed => failed
    rintro before contract released later ⟨rest, within⟩ ⟨known, listed⟩
    have among : contract ∈ contracts := by
      rw [← within]
      simp
    unfold releaseContract
    split
    · rename_i own
      refine along_repo_bind (.released serviceId contracts contract family known listed among own)
        (fun _ => trivial) fun _ => ⟨known.cons _, listed.cons _⟩
    · exact ⟨known, listed⟩
  · trivial

theorem along_retireProtocolFamily (producer : String) (apiType : ApiType) (caller : Option Actor)
    (dryRun : Bool) :
    (retireProtocolFamily producer apiType caller dryRun).Along (Retires producer apiType)
      (fun _ _ => True) (fun _ _ => True) [] := by
  refine ((only_mayRetire producer caller []).mono (fun _ _ reads => .reads reads)
    (fun _ _ held => held) fun _ _ _ => trivial).seq fun later permitted _ _ => ?_
  split
  · refine along_repo_bind (.reads rfl) (fun _ => trivial) fun found => ?_
    cases found with
    | none => trivial
    | some serviceId =>
        have known := heard_now later (.findService producer) (some serviceId)
        dsimp only
        split
        · trivial
        · have cleared : (clearTag serviceId apiType).Along (Retires producer apiType)
              (fun _ _ => True) (fun _ _ => True)
              (⟨.repo (.findService producer), .ok (some serviceId)⟩ :: later) := by
            cases apiType with
            | openApi => trivial
            | asyncApi => exact along_repo_bind (.tag serviceId _) (fun _ => trivial) fun _ => trivial
            | proto => exact along_repo_bind (.tag serviceId _) (fun _ => trivial) fun _ => trivial
          refine cleared.seq fun third tag grown _ => ?_
          refine along_nowIso_bind (.reads rfl) fun now => ?_
          refine along_repo_bind (.closed serviceId now) (fun _ => trivial) fun closed => ?_
          refine (along_releaseContracts (((known.grow grown).cons _).cons _)).seq
            fun _ _ _ _ => trivial
  · trivial

end Calls
end Sanshain.Application
