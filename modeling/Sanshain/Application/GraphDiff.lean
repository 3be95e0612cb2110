import Sanshain.Application.Selectors
import Sanshain.Data.KeyedDiff
import Sanshain.Document.OpenApi

namespace Sanshain.Application

open Sanshain.Data Sanshain.Domain Sanshain.Document Sanshain.Effects
open OpenApiDocument (sortedSet)

/-- What a pin is known by on both sides of a diff: client, service, API type, normalized path and
method. -/
abbrev GraphPinKey := String × String × ApiType × String × String

def graphPinKey (pin : PinInfo) : GraphPinKey :=
  (pin.client, pin.service, pin.apiType, pin.normalizedPath, pin.method)

/-- A pin whose version differs between the two sides. -/
structure PinChange where
  client : String
  service : String
  apiType : ApiType
  path : String
  method : String
  fromVersion : SemVer
  toVersion : SemVer
  deriving DecidableEq, Repr

structure GraphDiff where
  left : String
  right : String
  servicesAdded : List String
  servicesRemoved : List String
  pinsAdded : List PinInfo
  pinsRemoved : List PinInfo
  pinsChanged : List PinChange
  peripheryAdded : List PeripheralDependency
  peripheryRemoved : List PeripheralDependency
  deriving DecidableEq, Repr

/-- The order in which a hash map gives its entries, which is any. -/
structure HashOrder where
  visit : Entries GraphPinKey PinInfo → Entries GraphPinKey PinInfo
  perm : ∀ entries, (visit entries).Perm entries

/-- The order in which the pins of a diff are listed. -/
def diffOrder (first second : String × String × String × String) : Prop :=
  first.1 < second.1 ∨ first.1 = second.1 ∧
    (first.2.1 < second.2.1 ∨ first.2.1 = second.2.1 ∧
      (first.2.2.1 < second.2.2.1 ∨ first.2.2.1 = second.2.2.1 ∧ first.2.2.2 ≤ second.2.2.2))

instance (first second : String × String × String × String) : Decidable (diffOrder first second) :=
  inferInstanceAs (Decidable (_ ∨ _))

def sortPins (pins : List PinInfo) : List PinInfo :=
  pins.insertionSort fun first second =>
    diffOrder (first.client, first.service, first.path, first.method)
      (second.client, second.service, second.path, second.method)

def sortChanges (changes : List PinChange) : List PinChange :=
  changes.insertionSort fun first second =>
    diffOrder (first.client, first.service, first.path, first.method)
      (second.client, second.service, second.path, second.method)

/-- The pins of one side by their keys. -/
def pinsByKey (pins : List PinInfo) : Entries GraphPinKey PinInfo :=
  Entries.insertAll [] (pins.map fun pin => (graphPinKey pin, pin))

/-- The Producers of one side. -/
def producerNames (pins : Entries GraphPinKey PinInfo) : List String :=
  sortedSet (pins.map fun entry => entry.2.service)

/-- The change of a pin of the right side that the left side holds in another version. -/
def pinChange (left : Entries GraphPinKey PinInfo) (entry : GraphPinKey × PinInfo) : Option PinChange :=
  match left.get? entry.1 with
  | some held =>
      if held.version ≠ entry.2.version then
        some ⟨entry.2.client, entry.2.service, entry.2.apiType, entry.2.path, entry.2.method,
          held.version, entry.2.version⟩
      else none
  | none => none

/-- The pins of one side whose keys the other one lacks. -/
def pinsWithout (other : Entries GraphPinKey PinInfo) (entries : Entries GraphPinKey PinInfo) :
    List PinInfo :=
  entries.filterMap fun entry => if (other.get? entry.1).isNone then some entry.2 else none

/-- The diff of two graph selections, each with its pins and its periphery. -/
def graphDiff (order : HashOrder) (left right : String)
    (leftSide rightSide : List PinInfo × List PeripheralDependency) : GraphDiff :=
  let leftMap := pinsByKey leftSide.1
  let rightMap := pinsByKey rightSide.1
  let leftNames := producerNames (order.visit leftMap)
  let rightNames := producerNames (order.visit rightMap)
  { left := left
    right := right
    servicesAdded := rightNames.filter (· ∉ leftNames)
    servicesRemoved := leftNames.filter (· ∉ rightNames)
    pinsAdded := sortPins (pinsWithout leftMap (order.visit rightMap))
    pinsRemoved := sortPins (pinsWithout rightMap (order.visit leftMap))
    pinsChanged := sortChanges ((order.visit rightMap).filterMap (pinChange leftMap))
    peripheryAdded := rightSide.2.filter (· ∉ leftSide.2)
    peripheryRemoved := leftSide.2.filter (· ∉ rightSide.2) }

def diffGraphs (format : InstantFormat) (order : HashOrder) (left right : String) : UseCase GraphDiff := do
  let leftSide ← resolveGraphSelection format left
  let rightSide ← resolveGraphSelection format right
  .done (graphDiff order left right leftSide rightSide)

end Sanshain.Application
