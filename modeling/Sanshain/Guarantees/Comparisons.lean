import Sanshain.Document.OpenApiWalk
import Sanshain.Document.Platform

namespace Sanshain.Guarantees

open Sanshain.Data Sanshain.Document Sanshain.Document.OpenApiDocument Sanshain.Effects

section Termination

variable {old new : OpenApi} {oldSchema newSchema : Schema} {isRequest : Bool}

/-- What the bounded comparison calls endless is endless at every depth. -/
theorem checkSchema_endless_at_every_depth (name : String)
    (endless : checkSchema old new name oldSchema newSchema isRequest = .endless) (depth : ℕ) :
    checkSchemaCompatible (old, new) depth name oldSchema newSchema isRequest = .endless := by
  rw [← Verdict.shape_eq_endless, shape_checkSchemaCompatible]
  exact (checkSchema_endless_iff.mp endless).endless depth

/-- An object schema with one property. -/
def nodeOf (property : String) (schema : ReferenceOr Schema) : Schema :=
  .object [(property, schema)] [] false (.object [])

/-- A document of named schemas only. -/
def schemasOnly (schemas : Entries String (ReferenceOr Schema)) : OpenApi where
  openapi := "3.0.3"
  info := .object []
  servers := .object []
  paths := .empty
  components := some
    { schemas := .ofEntries schemas
      responses := .empty
      parameters := .empty
      requestBodies := .empty
      others := fun _ => .empty }
  rest := .object []

/-- A list node that spells its second node out. -/
def unrolledList : Schema :=
  nodeOf "next" (.item (nodeOf "next" (.reference "#/components/schemas/Node")))

/-- The same list with the tail of its first node under a name of its own. -/
def namedTail : Schema :=
  nodeOf "next" (.item (nodeOf "next" (.reference "#/components/schemas/Tail")))

end Termination
end Sanshain.Guarantees
