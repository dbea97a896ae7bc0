import VectorMapChanges.Lib.Table
import VectorMapChanges.Ingestion.Snapshot
import VectorMapChanges.Matching.Render

/-!
# The tables

The rows of the metadata tables and of the feature tables, with their natural
keys.  `snapshots`, `changesets` and `snapshot_features` declare one;
`change_features` declares none.  The CHECK constraints of a row are fields of
it, so that a row that violates one cannot be built.
-/

namespace VectorMapChanges

open Lib

/-- The natural key of `snapshots`. -/
structure SnapshotKey where
  source : String
  layer : String
  aoiId : String
  aoiVersion : String
  sourceQueryVersion : String
  requestedTime : Instant
deriving DecidableEq

/-- A row of `snapshots`. -/
structure SnapshotRow where
  source : String
  sourceQueryVersion : String
  layer : String
  aoiId : String
  aoiVersion : String
  requestedTime : Instant
  crs : String
  rawObjectUri : String
  processedObjectUri : String
  featureCount : Nat
  invalidGeometryCount : Nat
  repairedGeometryCount : Nat
deriving DecidableEq

/-- `snapshots_natural_key` -/
def SnapshotRow.naturalKey (row : SnapshotRow) : SnapshotKey where
  source := row.source
  layer := row.layer
  aoiId := row.aoiId
  aoiVersion := row.aoiVersion
  sourceQueryVersion := row.sourceQueryVersion
  requestedTime := row.requestedTime

/-- The natural key of `changesets`. -/
structure ChangesetKey where
  snapshotAId : Nat
  snapshotBId : Nat
  algorithmVersion : String
deriving DecidableEq

/-- A row of `changesets`. -/
structure ChangesetRow where
  snapshotAId : Nat
  snapshotBId : Nat
  algorithmVersion : String
  changeLayerObjectUri : String
  unchangedCount : Nat
  modifiedGeometryCount : Nat
  modifiedAttributesCount : Nat
  modifiedGeometryAndAttributesCount : Nat
  addedCount : Nat
  removedCount : Nat
  ambiguousCount : Nat
deriving DecidableEq

/-- `changesets_natural_key` -/
def ChangesetRow.naturalKey (row : ChangesetRow) : ChangesetKey where
  snapshotAId := row.snapshotAId
  snapshotBId := row.snapshotBId
  algorithmVersion := row.algorithmVersion

/-- The column that counts the features of a classification. -/
def ChangesetRow.count (row : ChangesetRow) : Classification → Nat
  | .unchanged => row.unchangedCount
  | .modifiedGeometry => row.modifiedGeometryCount
  | .modifiedAttributes => row.modifiedAttributesCount
  | .modifiedGeometryAndAttributes => row.modifiedGeometryAndAttributesCount
  | .added => row.addedCount
  | .removed => row.removedCount
  | .ambiguous => row.ambiguousCount

/-- A row of `snapshot_features`. -/
structure SnapshotFeatureRow (G : Type) where
  snapshotId : Nat
  osmId : String
  osmType : String
  building : Option String
  category : Option String
  name : Option String
  rawTags : Dict String String
  originalValid : Bool
  repairMethod : Option String
  geom : G
  geom3857 : G
deriving DecidableEq

/-- `snapshot_features_natural_key` -/
def SnapshotFeatureRow.naturalKey {G : Type} (row : SnapshotFeatureRow G) :
    Nat × String :=
  (row.snapshotId, row.osmId)

/-- A row of `change_features`, with its CHECK constraints. -/
structure ChangeFeatureRow (G : Type) where
  changesetId : Nat
  classification : String
  matchMethod : Option String
  matchScore : Option ℚ
  classificationReason : String
  osmIdsA : List String
  osmIdsB : List String
  involvesRepairedGeometry : Bool
  touchesAoiBoundary : Bool
  iou : Option ℚ
  iouCentroidAligned : Option ℚ
  centroidShiftM : Option ℚ
  areaRatio : Option ℚ
  hausdorffM : Option ℚ
  attrsChanged : List String
  candidates : List CandidateEntry
  geomA : Option G
  geomB : Option G
  geomRender3857 : G
  noUnchanged : classification ≠ "unchanged"
  addedHasB : classification ≠ "added" ∨ geomB.isSome = true
  removedHasA : classification ≠ "removed" ∨ geomA.isSome = true
deriving DecidableEq

/-- The database. -/
structure Database (G : Type) where
  snapshots : KeyedTable SnapshotRow.naturalKey
  changesets : KeyedTable ChangesetRow.naturalKey
  snapshotFeatures : KeyedTable (@SnapshotFeatureRow.naturalKey G)
  changeFeatures : SerialTable (ChangeFeatureRow G)

/-- A database without rows. -/
def Database.empty {G : Type} : Database G where
  snapshots := .empty
  changesets := .empty
  snapshotFeatures := .empty
  changeFeatures := .empty

end VectorMapChanges
