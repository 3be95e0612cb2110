import Sanshain.Domain.Ports

namespace Sanshain.Domain

/-- The rewritten texts of one stored version; an endpoint of it is known by its key. -/
structure RewriteSpecText where
  specVersionId : Nat
  content : String
  contentHash : String
  endpointTexts : List ((ApiType × String × String) × String)
  deriving DecidableEq, Repr

/-- A call of the migration: the clock, an operation of the store, or one of its own two. -/
inductive MigrationRequest where
  | now
  | repo (request : RepoCall)
  | rewriteSpecText (params : RewriteSpecText)
  | setSetting (key value : String)

abbrev MigrationRequest.Answer : MigrationRequest → Type
  | .now => Instant
  | .repo request => Except RepositoryError request.Result
  | .rewriteSpecText _ | .setSetting _ _ => Except RepositoryError Unit

end Sanshain.Domain
