import Sanshain.Guarantees.Clients
import Sanshain.Guarantees.Endpoints
import Sanshain.Guarantees.Immutability
import Sanshain.Guarantees.Ownership
import Sanshain.Guarantees.Refusals
import Sanshain.Document.Platform
import Sanshain.Document.EndpointKeys
import Sanshain.Document.EndpointLoss
import Sanshain.History.Ledger
import Sanshain.Guarantees.Timeline
import Sanshain.Guarantees.ChangeDates
import Sanshain.Effects.Steps
import Sanshain.Guarantees.Ghosts
import Sanshain.Guarantees.Markers
import Sanshain.Application.Operations
import Sanshain.Guarantees.FrozenCuts
import Sanshain.Guarantees.Removals
import Sanshain.Guarantees.Runs
import Sanshain.Guarantees.Departures
import Sanshain.Guarantees.Cuts
import Sanshain.Guarantees.CutOutcome
import Sanshain.Guarantees.CutView
import Sanshain.Domain.Deliveries
import Sanshain.Infrastructure.Deliveries
import Sanshain.Application.WebhookDelivery
import Sanshain.Guarantees.DeliveryDesk
import Sanshain.Guarantees.Leases
import Sanshain.Guarantees.Cutoff
import Sanshain.Domain.Accounts
import Sanshain.Infrastructure.Accounts
import Sanshain.Infrastructure.AccountIntegrity
import Sanshain.Effects.Ensures
import Sanshain.Application.Authz
import Sanshain.Guarantees.GuardedRoles
import Sanshain.Application.SignIn
import Sanshain.Guarantees.SignIns
import Sanshain.Guarantees.Rights
import Sanshain.Guarantees.Entries
import Sanshain.Effects.CacheAside
import Sanshain.Infrastructure.CachedAccounts
import Sanshain.Effects.Transaction
import Sanshain.Guarantees.Revocations
import Sanshain.Effects.ReadCommitted
import Sanshain.Effects.Serializable
import Sanshain.Effects.SerialRuns
import Sanshain.Infrastructure.PostgresPins
import Sanshain.Guarantees.ConcurrentPins
import Sanshain.Infrastructure.Outbox
import Sanshain.Infrastructure.Emitted
import Sanshain.Guarantees.Emissions
import Sanshain.Effects.OrderedWalk
import Sanshain.Document.OpenApiWalk
import Sanshain.Data.Survey
import Sanshain.Document.Surface
import Sanshain.Document.Reachable
import Sanshain.Document.Snippets
import Sanshain.Guarantees.Proposals
import Sanshain.Guarantees.Comparisons
import Sanshain.Guarantees.Snippets
import Sanshain.Guarantees.Spellings
import Sanshain.Guarantees.Classification
import Sanshain.Document.Positions
import Sanshain.Guarantees.Positions
import Sanshain.Document.Additions
import Sanshain.Guarantees.Additions
import Sanshain.Guarantees.Payloads
import Sanshain.Document.Merge
import Sanshain.History.Untimed
import Sanshain.Infrastructure.Records
import Sanshain.Guarantees.Recordings
import Sanshain.Guarantees.Bundles
import Sanshain.Guarantees.DirectoryGroups
import Sanshain.Text.Trim
import Sanshain.Text.Fields
import Sanshain.Guarantees.Versions
import Sanshain.Document.PathForm
import Sanshain.Guarantees.PathForms
import Sanshain.Application.Origins
import Sanshain.Guarantees.Origins
import Sanshain.Document.Gathered
import Sanshain.Guarantees.Selections
import Sanshain.Text.LineEndings
import Sanshain.Document.SpecForm
import Sanshain.Domain.SpecTexts
import Sanshain.Infrastructure.SpecTexts
import Sanshain.Application.SpecTextMigration
import Sanshain.Guarantees.SpecTexts
import Sanshain.Data.Hoisting
import Sanshain.Document.AsyncSchemas
import Sanshain.Document.Rewriting
import Sanshain.Guarantees.Conversions
import Sanshain.Document.Redeclared
import Sanshain.Document.Resolved
import Sanshain.Guarantees.Releases
import Sanshain.Guarantees.ProposedNumbers
import Sanshain.Guarantees.CoPublishing
import Sanshain.Text.Wildcard
import Sanshain.Guarantees.Globs
import Sanshain.Data.EditScript
import Sanshain.Application.TextDiff
import Sanshain.Guarantees.Hunks
import Sanshain.Effects.Beside
import Sanshain.Application.SpecHistory
import Sanshain.Guarantees.Blame
import Sanshain.Application.Selectors
import Sanshain.Guarantees.BranchSelectors
import Sanshain.Data.KeyedDiff
import Sanshain.Data.Filling
import Sanshain.Application.GraphDiff
import Sanshain.Guarantees.GraphDiffs
import Sanshain.History.Declarations
import Sanshain.Document.Backstage
import Sanshain.Application.CatalogPush
import Sanshain.Infrastructure.Holdings
import Sanshain.Guarantees.CatalogPushes
import Sanshain.Document.StructureNode
import Sanshain.History.Renewal
import Sanshain.Document.StructureHistory
import Sanshain.Guarantees.StructureChanges
import Sanshain.Document.Structure
import Sanshain.Document.StructureVisits
import Sanshain.Guarantees.StructureCycles
import Sanshain.Guarantees.ComposedSchemas
import Sanshain.Text.Like
import Sanshain.Infrastructure.Search
import Sanshain.Guarantees.SearchPatterns
import Sanshain.Document.StructureExamples
import Sanshain.Document.SampleSources
import Sanshain.Guarantees.GeneratedExamples
import Sanshain.Infrastructure.Subscriptions
import Sanshain.Guarantees.Subscriptions
import Sanshain.Effects.ReadThrough
import Sanshain.Infrastructure.CachedStore
import Sanshain.Guarantees.CacheTruth
import Sanshain.Guarantees.CachedReads
import Sanshain.Guarantees.CachedRuns
import Sanshain.History.Register
import Sanshain.Infrastructure.Credentials
import Sanshain.Guarantees.CredentialLives
import Sanshain.Application.SingleSignOn
import Sanshain.Effects.Evidence
import Sanshain.Guarantees.SignInEvidence
import Sanshain.Guarantees.EarnedSessions
import Sanshain.Guarantees.SessionVisits
import Sanshain.Infrastructure.Identities
import Sanshain.Guarantees.SessionPools
import Sanshain.Guarantees.FlowCookies
import Sanshain.Guarantees.SignInModes
import Sanshain.Application.Tokens
import Sanshain.Application.Admission
import Sanshain.Guarantees.Admissions
import Sanshain.Guarantees.OwnTokens
