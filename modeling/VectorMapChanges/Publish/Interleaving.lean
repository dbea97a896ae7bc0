import VectorMapChanges.Lib.ReadCommitted
import VectorMapChanges.Publish.Postgis
import VectorMapChanges.Raster

/-!
# Overlapping publications

Overlapping runs of the publishing task, or a retry that overlaps its
predecessor, are transactions that replace the rows of one changeset under READ
COMMITTED.  What they read besides, the published snapshots, stays as it is, and
the staging table of each belongs to its own session.  `change_features` has no
natural key, so that nothing rejects rows that another publication has committed
while the DELETE was already past them.

Main facts:
* `Publications.run_alone`: a transaction that runs alone does what
  `publishChangeFeatures` does;
* `publish_interleaved`: where no DELETE misses rows that are committed when its
  own transaction commits, the changeset holds one of the published layers.
-/

namespace VectorMapChanges

open Lib

section Publications

variable {G J : Type}

/-- `WHERE changeset_id = %s` -/
def inChangeset (changesetId : Nat) (row : ChangeFeatureRow G) : Bool :=
  row.changesetId = changesetId

/-- Transactions that publish layers of one changeset.  None of them raises. -/
structure Publications (sh : Shapely G J) (pg : PostGis G) (τ : Type) where
  database : Database G
  changesetId : Nat
  snapshotAId : Nat
  snapshotBId : Nat
  layer : τ → ChangeLayer J
  rows : τ → List (ChangeFeatureRow G)
  rows_eq : ∀ t, changesetRows sh pg database changesetId snapshotAId
    snapshotBId (layer t) = .ok (rows t)
  hasChangeset : ∀ t, rows t = [] ∨ database.changesets.HasId changesetId

namespace Publications

variable {sh : Shapely G J} {pg : PostGis G} {τ : Type}
  (p : Publications sh pg τ)

/-- The rows of the changeset name what the features of the layer do. -/
theorem rows_view (t : τ) :
    (∀ row ∈ p.rows t, inChangeset p.changesetId row = true) ∧
    (p.rows t).map ChangeFeatureRow.view =
      ((p.layer t).map ChangeFeature.view).filter
        (fun view => view.1 ≠ some "unchanged") := by
  obtain ⟨hown, hview⟩ := changesetRows_view (p.rows_eq t)
  exact ⟨fun row hrow => decide_eq_true (hown row hrow), hview⟩

/-- Before any of the transactions starts. -/
def start : ReadCommitted.State τ (ChangeFeatureRow G) where
  rows := p.database.changeFeatures.rows
  nextId := p.database.changeFeatures.nextId
  phase := fun _ => .idle

variable [DecidableEq τ] [Fintype τ]

/-- After the steps of a schedule. -/
def run (schedule : List τ) :
    Option (ReadCommitted.State τ (ChangeFeatureRow G)) :=
  ReadCommitted.run (inChangeset p.changesetId) p.rows p.start schedule

/-- The committed rows of the changeset, without their ids. -/
def served (s : ReadCommitted.State τ (ChangeFeatureRow G)) :
    List (ChangeFeatureRow G) :=
  (s.scope (inChangeset p.changesetId)).map Prod.snd

/-- A publication that runs alone leaves the table that the call leaves. -/
theorem run_alone (t : τ) :
    ∃ s written db, p.run [t, t, t, t] = some s ∧
      publishChangeFeatures sh pg p.database p.changesetId p.snapshotAId
        p.snapshotBId (p.layer t) = .ok (written, db) ∧
      s.phase t = .committed ∧
      s.rows = db.changeFeatures.rows ∧ s.nextId = db.changeFeatures.nextId := by
  have hidle : ∀ t, p.start.phase t = .idle := fun _ => rfl
  obtain ⟨s, hrun, hcommitted, hrows, hnext⟩ :=
    ReadCommitted.run_alone (inChangeset p.changesetId) p.rows hidle t
  obtain ⟨hinserted, hid⟩ := SerialTable.rows_insertAll
    (p.database.changeFeatures.deleteWhere (inChangeset p.changesetId)) (p.rows t)
  refine ⟨s, _, _, hrun, publishChangeFeatures_eq_ok_iff.mpr
    ⟨p.rows t, p.rows_eq t, p.hasChangeset t, rfl, rfl⟩, hcommitted, ?_, ?_⟩
  · rw [hrows]
    exact hinserted.symm
  · rw [hnext]
    exact hid.symm

/-- Whenever a publication has committed, the changeset holds the changed
features of one published layer, each once, provided that every commit is one
whose DELETE saw all rows of the changeset that are committed by then. -/
theorem publish_interleaved {schedule : List τ}
    (h : ∀ before t, before ++ [t] <+: schedule → ∀ s ∈ p.run before,
      ReadCommitted.UpToDate (inChangeset p.changesetId) s t)
    {s : ReadCommitted.State τ (ChangeFeatureRow G)}
    (hrun : p.run schedule = some s) {t : τ} (ht : s.phase t = .committed) :
    ∃ u, s.phase u = .committed ∧ p.served s = p.rows u ∧
      (p.served s).map ChangeFeatureRow.view =
        ((p.layer u).map ChangeFeature.view).filter
          (fun view => view.1 ≠ some "unchanged") := by
  have hreplaced := ReadCommitted.replaced_of_upToDate
    (fun t => (p.rows_view t).1) (fun _ => rfl) h hrun
  rcases hreplaced with ⟨u, hu, hrows⟩ | ⟨hnone, -⟩
  · refine ⟨u, hu, hrows, ?_⟩
    rw [served, hrows]
    exact (p.rows_view u).2
  · exact absurd ht (hnone t)

end Publications
end Publications

namespace Raster

/-- The sample database after both snapshots are published: the first has one
building, the second one more. -/
def published : Database Raster :=
  let loaded : Except PyError (Database Raster) := do
    let (_, db) ← publishSnapshotFeatures shapely postgis database 1
      [processed "way/1" {(0, 0)}]
    let (_, db) ← publishSnapshotFeatures shapely postgis db 2
      [processed "way/1" {(0, 0)}, processed "way/2" {(5, 5)}]
    pure db
  loaded.toOption.getD database

/-- The change layer of the sample snapshots. -/
def layer : ChangeLayer Raster :=
  ((buildChangesetResult shapely exact (ref 1) (ref 2)
    [processed "way/1" {(0, 0)}]
    [processed "way/1" {(0, 0)}, processed "way/2" {(5, 5)}]
    none).toOption.map (·.changeLayerGeojson)).getD []

/-- Two publications of that layer. -/
def twice : Publications shapely postgis Bool where
  database := published
  changesetId := 1
  snapshotAId := 1
  snapshotBId := 2
  layer := fun _ => layer
  rows := fun _ => (changesetRows shapely postgis published 1 1 2 layer).toOption.getD []
  rows_eq := by decide +kernel
  hasChangeset := by decide +kernel

end Raster

/-- One after the other, the second publication replaces the rows of the
first. -/
theorem publish_interleaved_serial :
    ∃ s ∈ Raster.twice.run [false, false, false, false, true, true, true, true],
      ∃ u, s.phase u = .committed ∧
        Raster.twice.served s = Raster.twice.rows u ∧
        (Raster.twice.served s).map ChangeFeatureRow.view =
          ((Raster.twice.layer u).map ChangeFeature.view).filter
            (fun view => view.1 ≠ some "unchanged") := by
  have hrun : ∃ s ∈ Raster.twice.run
      [false, false, false, false, true, true, true, true],
      s.phase true = .committed := by
    decide +kernel
  rcases hrun with ⟨s, hrun, hcommitted⟩
  have hupToDate : ∀ before t,
      before ++ [t] <+: [false, false, false, false, true, true, true, true] →
        ∀ s ∈ Raster.twice.run before,
          ReadCommitted.UpToDate (inChangeset 1) s t :=
    forall_step_iff.mpr (by decide +kernel)
  exact ⟨s, hrun, Raster.twice.publish_interleaved hupToDate hrun hcommitted⟩

/-- Two publications whose DELETEs have both run before either commits: the one
building that was added is served twice. -/
theorem publish_interleaved_overlap :
    ∃ s ∈ Raster.twice.run [false, false, true, true, false, true, false, true],
      (∀ t, s.phase t = .committed) ∧
      (Raster.twice.served s).map ChangeFeatureRow.view =
        [(some "added", [], ["way/2"]), (some "added", [], ["way/2"])] ∧
      ∀ u, ((Raster.twice.layer u).map ChangeFeature.view).filter
          (fun view => view.1 ≠ some "unchanged") =
        [(some "added", [], ["way/2"])] := by
  decide +kernel

end VectorMapChanges
