import Sanshain.Text.Scan

namespace Sanshain.Domain

open Sanshain.Text

/-- Instants carry the order of their fixed-width stamps. -/
abbrev Instant := Nat

inductive ApiType where
  | openApi
  | asyncApi
  | proto
  deriving DecidableEq, Repr, Inhabited

def ApiType.asStr : ApiType → String
  | .openApi => "openapi"
  | .asyncApi => "asyncapi"
  | .proto => "proto"

/-- The order of the stored spellings. -/
def ApiType.rank : ApiType → Nat
  | .asyncApi => 0
  | .openApi => 1
  | .proto => 2

inductive Impact where
  | none
  | patch
  | minor
  | major
  deriving DecidableEq, Repr, Inhabited

def Impact.rank : Impact → Nat
  | .none => 0
  | .patch => 1
  | .minor => 2
  | .major => 3

def Impact.max (first second : Impact) : Impact :=
  if first.rank ≤ second.rank then second else first

inductive Stability where
  | snapshot
  | ga
  deriving DecidableEq, Repr, Inhabited

def Stability.asStr : Stability → String
  | .snapshot => "snapshot"
  | .ga => "ga"

/-- One more, unless the number is already the largest. -/
def saturatingSucc (n : UInt32) : UInt32 := if n = UInt32.ofNat (2 ^ 32 - 1) then n else n + 1

theorem saturatingSucc_toNat (n : UInt32) :
    (saturatingSucc n).toNat = min (n.toNat + 1) (2 ^ 32 - 1) := by
  have bound := n.toNat_lt
  unfold saturatingSucc
  split
  · rename_i top
    rw [top]
    decide
  · rename_i below
    have away : n.toNat ≠ 2 ^ 32 - 1 := fun same => below (UInt32.toNat_inj.mp (by simpa using same))
    rw [UInt32.toNat_add]
    have one : (1 : UInt32).toNat = 1 := rfl
    omega

structure SemVer where
  major : UInt32
  minor : UInt32
  patch : UInt32
  deriving DecidableEq, Repr, Inhabited

namespace SemVer

/-- The three parts, most significant first. -/
def parts (version : SemVer) : ℕ ×ₗ ℕ ×ₗ ℕ :=
  toLex (version.major.toNat, toLex (version.minor.toNat, version.patch.toNat))

theorem parts_injective : Function.Injective parts := by
  rintro ⟨major, minor, patch⟩ ⟨major', minor', patch'⟩ same
  simp only [parts, EmbeddingLike.apply_eq_iff_eq, Prod.mk.injEq, UInt32.toNat_inj] at same
  obtain ⟨rfl, rfl, rfl⟩ := same
  rfl

instance : LinearOrder SemVer := LinearOrder.lift' parts parts_injective

theorem lt_iff (first second : SemVer) :
    first < second ↔ first.major.toNat < second.major.toNat ∨
      first.major = second.major ∧ (first.minor.toNat < second.minor.toNat ∨
        first.minor = second.minor ∧ first.patch.toNat < second.patch.toNat) := by
  change parts first < parts second ↔ _
  simp [parts, Prod.Lex.toLex_lt_toLex, UInt32.toNat_inj]

def increment (version : SemVer) : Impact → SemVer
  | .major => ⟨saturatingSucc version.major, 0, 0⟩
  | .minor => ⟨version.major, saturatingSucc version.minor, 0⟩
  | .patch => ⟨version.major, version.minor, saturatingSucc version.patch⟩
  | .none => version

def display (version : SemVer) : String :=
  s!"{version.major.toNat}.{version.minor.toNat}.{version.patch.toNat}"

instance : ToString SemVer := ⟨display⟩

/-- `MAJOR[.MINOR[.PATCH]]` with an optional leading `v`; omitted parts are zero. -/
def fromStr (text : String) : Option SemVer :=
  let digits := match text.toList with
    | 'v' :: rest => rest
    | 'V' :: rest => rest
    | whole => whole
  match (splitChars '.' digits).mapM (parseUnsigned (2 ^ 32)) with
  | some [major] => some ⟨.ofNat major, 0, 0⟩
  | some [major, minor] => some ⟨.ofNat major, .ofNat minor, 0⟩
  | some [major, minor, patch] => some ⟨.ofNat major, .ofNat minor, .ofNat patch⟩
  | _ => none

/-- The version a Producer declared, with the refusal that names what is wrong with it.
The case mappings are those of the platform. -/
def parseSpecVersion (toUppercase toLowercase : String → String) (raw : String) :
    Except String SemVer :=
  let trimmed := trim raw
  let released := toLowercase (replace "-SNAPSHOT" "" (toUppercase trimmed))
  if trimmed = "" then
    .error "version is empty — expected MAJOR[.MINOR[.PATCH]] (e.g. 1.2.0)"
  else if contains "-SNAPSHOT" (toUppercase trimmed) then
    .error s!"invalid version '{trimmed}': snapshot status is declared by the Provide's stability flag, never encoded in the version string — publish '{released}' with stability=snapshot instead"
  else if trimmed.toList.any fun c => c = '-' || c = '+' then
    .error s!"invalid version '{trimmed}': pre-release suffixes and build metadata are not accepted — expected MAJOR[.MINOR[.PATCH]] (e.g. 1.2.0)"
  else match fromStr trimmed with
    | some version => .ok version
    | none =>
        .error s!"invalid version '{trimmed}': expected MAJOR[.MINOR[.PATCH]] with numeric parts, optionally 'v'-prefixed (e.g. 1.2.0, v2.1, 2)"

example : fromStr "v1.2" = some ⟨1, 2, 0⟩ := by decide +kernel

end SemVer

inductive AppError where
  | badRequest (message : String)
  | conflict (message : String)
  | notFound (message : String)
  | gone (message : String)
  | unauthorized
  | forbidden
  | forbiddenWithReason (message : String)
  | internal (message : String)
  | breakingChange (message : String)
  | versionConflict (message : String) (proposed : SemVer)
  deriving DecidableEq, Repr

inductive RepositoryError where
  | notFound
  | conflict
  | internal (message : String)
  deriving DecidableEq, Repr

def RepositoryError.toAppError : RepositoryError → AppError
  | .notFound => .notFound "Not found"
  | .conflict => .conflict "Conflict"
  | .internal message => .internal message

/-- One entry of a version line, without its document. -/
structure SpecVersionMeta where
  id : Nat
  serviceId : Nat
  apiType : ApiType
  version : SemVer
  stability : Stability
  contentHash : String
  providedBy : String
  createdAt : Instant
  updatedAt : Instant
  lastRequiredAt : Option Instant
  trunkProvidedAt : Option Instant
  deriving DecidableEq, Repr

structure ProvideChanges where
  inserts : Nat := 0
  updates : Nat := 0
  deletes : Nat := 0
  deriving DecidableEq, Repr

def ProvideChanges.isEmpty (changes : ProvideChanges) : Bool :=
  changes.inserts == 0 && changes.updates == 0 && changes.deletes == 0

structure EndpointRecord where
  apiType : ApiType
  path : String
  normalizedPath : String
  method : String
  yamlContent : String
  deprecated : Bool
  deriving DecidableEq, Repr

/-- The owner of a named message on a channel, with the payload its releases keep to. -/
structure ChannelMessageContract where
  channel : String
  messageName : String
  ownerServiceId : Nat
  payloadYaml : String
  deriving DecidableEq, Repr

structure HarvestedSubInput where
  channel : String
  messageName : String
  ownerServiceId : Option Nat
  ownerName : Option String
  deriving DecidableEq, Repr

structure HarvestedSubscriptionResult where
  channel : String
  messageName : String
  owner : Option String
  drift : Option String
  deriving DecidableEq, Repr

structure BranchInfo where
  id : Nat
  name : String
  createdAt : Instant
  createdBy : String
  source : String
  asOf : Instant
  deriving DecidableEq, Repr

/-- The periphery a read or a write addresses; a branch gets its own as a copy at the cut. -/
inductive PeripheryTrack where
  | dev
  | trunk
  | branch (branchId : Nat)
  deriving DecidableEq, Repr

inductive MemberTrack where
  | trunk
  | branch (branchId : Nat)
  deriving DecidableEq, Repr

/-- A resource outside the service that a system depends on. -/
structure PeripheralDependency where
  system : String
  resource : String
  deriving DecidableEq, Repr

/-- The version of a Producer's line that trunk or a branch carries. -/
structure MemberVersion where
  service : String
  apiType : ApiType
  version : SemVer
  validFrom : Instant
  lastProvidedAt : Option Instant
  deriving DecidableEq, Repr

structure HarvestedSubscription where
  client : String
  channel : String
  messageName : String
  owner : Option String
  trunk : Bool
  deriving DecidableEq, Repr

structure SystemOwner where
  kind : String
  name : String
  deriving DecidableEq, Repr

structure SystemLink where
  url : String
  title : String
  linkType : Option String
  icon : Option String
  deriving DecidableEq, Repr

/-- What a system's catalog file says about it: one present-day fact, replaced on every push. -/
structure SystemContext where
  owner : Option SystemOwner := none
  description : Option String := none
  sourceLocation : Option String := none
  links : List SystemLink := []
  tags : List String := []
  deriving DecidableEq, Repr

/-- The stream a build is recorded in, with why the declared one was not. -/
structure ResolvedStream where
  trunk : Bool := false
  branch : Option BranchInfo := none
  warnings : List String := []
  deriving DecidableEq, Repr

def ResolvedStream.label (stream : ResolvedStream) : Option String :=
  if stream.trunk then some "trunk" else stream.branch.map (·.name)

structure ProvideResponse where
  version : SemVer
  stability : Stability
  contentHash : String
  changes : ProvideChanges
  promoted : Bool
  harvestedSubscriptions : List HarvestedSubscriptionResult
  stream : ResolvedStream
  deriving DecidableEq, Repr

/-- What the build that provided a version said about why. -/
structure VersionOrigin where
  buildUrl : Option String := none
  changeUrl : Option String := none
  tickets : List String := []
  note : Option String := none
  trunkBuild : Bool := false
  deriving DecidableEq, Repr

namespace VersionOrigin

def maxTickets : Nat := 20
def maxTicketChars : Nat := 64
def maxNoteChars : Nat := 200
def maxUrlChars : Nat := 2048

def isEmpty (origin : VersionOrigin) : Bool :=
  origin.buildUrl.isNone && origin.changeUrl.isNone && origin.tickets.isEmpty && origin.note.isNone

/-- A URL field: blank is absent, anything else is an absolute `http(s)` URL. -/
def normalizedUrl (field : String) (value : Option String) : Except String (Option String) :=
  match (value.map trim).filter (· ≠ "") with
  | none => .ok none
  | some raw =>
      if maxUrlChars < raw.length then .error s!"{field} is longer than {maxUrlChars} characters"
      else if (startsWith "https://" raw || startsWith "http://" raw) && 8 < raw.utf8ByteSize &&
          !(raw.toList.any fun c => isWhiteSpace c || isControl c) then .ok (some raw)
      else .error s!"{field} must be an absolute http(s) URL"

/-- The ticket ids so far with one more, unless it is blank, invalid or known. -/
def addTicket (tickets : List String) (raw : String) : Except String (List String) :=
  let ticket := trim raw
  if ticket = "" then .ok tickets
  else if ticket.length ≤ maxTicketChars &&
      ticket.toList.all fun c => isAsciiAlphanumeric c || c = '-' || c = '_' || c = '.' then
    .ok (if ticket ∈ tickets then tickets else tickets ++ [ticket])
  else
    .error s!"ticket '{ticket}' is not an id of letters, digits, '-', '_' and '.' (at most {maxTicketChars} characters)"

/-- The origin as stored: trimmed, deduplicated and within its bounds. -/
def normalized (origin : VersionOrigin) : Except String VersionOrigin := do
  let tickets ← origin.tickets.foldlM addTicket []
  if maxTickets < tickets.length then .error s!"at most {maxTickets} tickets"
  else
    let note := (origin.note.map fun n => join " " (splitWhitespace n)).filter (· ≠ "")
    if note.any fun n => maxNoteChars < n.length then
      .error s!"note is longer than {maxNoteChars} characters"
    else
      let buildUrl ← normalizedUrl "build_url" origin.buildUrl
      let changeUrl ← normalizedUrl "change_url" origin.changeUrl
      .ok ⟨buildUrl, changeUrl, tickets, note, origin.trunkBuild⟩

end VersionOrigin

/-- The actor an audit row names when no user is attached. -/
def devModeActor : String := "DevMode/Anonymous"

structure NewAuditLog where
  action : String
  details : String
  service : Option String := none
  version : Option String := none
  actionType : Option String := none
  deriving DecidableEq, Repr

inductive WebhookScope where
  | global
  | producer (name : String)
  | consumer (name : String)
  deriving DecidableEq, Repr

inductive WebhookEventType where
  | versionPublished
  | provideRejected
  | versionDeprecated
  | dependencyRecorded
  | branchCut
  | catalogRecorded
  | test
  deriving DecidableEq, Repr

/-- What fan-out reads of a registered hook. -/
structure Webhook where
  id : Nat
  scope : WebhookScope
  eventTypes : List WebhookEventType
  producerGlob : Option String
  paused : Bool
  deriving DecidableEq, Repr

inductive Permission where
  | manageUsers
  | manageRoles
  | manageProducers
  | manageConsumers
  | viewAudit
  | manageSettings
  | manageAuthConfig
  | viewObservability
  | runDestructiveOperations
  | releaseGa
  deriving DecidableEq, Repr

inductive Role where
  | admin
  | userManager
  | viewer
  | maintainer
  | releaser
  deriving DecidableEq, Repr

def Role.grants : Role → Permission → Bool
  | .admin, _ => true
  | .userManager, permission => permission = .manageUsers || permission = .manageRoles
  | .viewer, permission => permission = .viewAudit || permission = .viewObservability
  | .maintainer, permission => permission = .manageProducers
  | .releaser, permission => permission = .releaseGa

/-- The authenticated caller with what they may do already resolved. -/
structure Actor where
  userId : Nat
  username : String
  isRoot : Bool := false
  roles : List Role := []
  directoryGroups : List String := []
  deriving DecidableEq, Repr

def Actor.hasPermission (actor : Actor) (permission : Permission) : Bool :=
  actor.isRoot || actor.roles.any (·.grants permission)

end Sanshain.Domain
