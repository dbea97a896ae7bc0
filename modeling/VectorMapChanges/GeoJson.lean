import VectorMapChanges.Shapely

/-!
# Processed snapshots

The features of a processed snapshot, as ingestion writes them and as matching
and publishing read them back.  A key that a JSON object may lack is an
`Option`; reading a required key that is missing raises `KeyError`.
-/

namespace VectorMapChanges

open Lib

/-- The properties of a processed feature. -/
structure ProcessedProperties (J : Type) where
  osmId : Option String
  osmType : Option String
  osmRef : Option String
  building : Option String
  category : Option String
  name : Option String
  rawTags : Dict String String
  originalValid : Option Bool
  repairMethod : Option String
  repairedValid : Option Bool
  originalGeometry : Option J
deriving DecidableEq

/-- `props.get(tag)` for a significant tag. -/
def ProcessedProperties.get {J : Type} (props : ProcessedProperties J) :
    String → Option String
  | "building" => props.building
  | "category" => props.category
  | "name" => props.name
  | _ => none

/-- A feature of a processed snapshot. -/
structure ProcessedFeature (J : Type) where
  geometry : Option J
  properties : Option (ProcessedProperties J)
deriving DecidableEq

/-- A processed snapshot, which is a FeatureCollection. -/
abbrev ProcessedCollection (J : Type) := List (ProcessedFeature J)

end VectorMapChanges
