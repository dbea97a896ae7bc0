import VectorMapChanges.Publish.Absence
import VectorMapChanges.Publish.Accounting
import VectorMapChanges.Publish.BeforeAfter

/-!
# Publishing what was computed

The two snapshots of a comparison are published, and then its change layer.  Every
constraint of the serving tables is met, whatever the records are; but a snapshot
without buildings counts as not published, and keeps every changeset that uses it
from being published.

Main facts:
* `rejected_iff`: the change layer of a comparison is rejected exactly for a
  snapshot without buildings;
* `publishSequence_iff`: the sequence commits exactly when neither is empty.
-/

namespace VectorMapChanges

open Lib

section Publishable

variable {G J : Type} (sh : Shapely G J) (pg : PostGis G)

/-- Publish the two snapshots of a changeset, and then its change layer. -/
def publishSequence (db : Database G) (changesetId snapshotAId snapshotBId : Nat)
    (processedA processedB : ProcessedCollection J) (layer : ChangeLayer J) :
    Except PyError (Nat × Database G) := do
  let (_, db) ← publishSnapshotFeatures sh pg db snapshotAId processedA
  let (_, db) ← publishSnapshotFeatures sh pg db snapshotBId processedB
  publishChangeFeatures sh pg db changesetId snapshotAId snapshotBId layer

/-- A processed snapshot of complete polygonal features with different ids. -/
structure Publishable (processed : ProcessedCollection J) : Prop where
  stageable : ∀ feature ∈ processed, Stageable sh feature
  nodup : (processed.map (fun f => f.properties.bind (·.osmId))).Nodup

variable {sh pg} {db : Database G} {rt : Runtime G}
  {snapshotA snapshotB : SnapshotRef} {changesetId : Nat}
  {processedA processedB : ProcessedCollection J} {aoiGeometry : Option J}
  {result : ChangesetResult J}

theorem snapshots_publishSnapshotFeatures {db' : Database G}
    {snapshotId written : Nat} {processed : ProcessedCollection J}
    (h : publishSnapshotFeatures sh pg db snapshotId processed =
      .ok (written, db')) :
    db'.snapshots = db.snapshots ∧ db'.changesets = db.changesets := by
  obtain ⟨-, -, -, -, -, -, -, -, rfl⟩ := publishSnapshotFeatures_eq_ok_iff.mp h
  exact ⟨rfl, rfl⟩

/-- An added building is named in the second snapshot, and a removed one in the
first. -/
theorem exists_named_of_isRecord
    {pair : LoadedFeature G → LoadedFeature G → Bool} {aoiBoundary : Option G}
    {featuresA featuresB : FeatureDict G} {r : ChangeRecord}
    (h : IsRecord sh pair aoiBoundary featuresA featuresB r) :
    (r.classification = .added → ∃ osmId, osmId ∈ r.osmIdsB) ∧
    (r.classification = .removed → ∃ osmId, osmId ∈ r.osmIdsA) := by
  obtain ⟨hA, hB⟩ := namedCount_of_isRecord h
  constructor
  · intro hadded
    rw [namedCount, hadded, if_neg (by decide), if_neg (by decide)] at hB
    exact List.exists_mem_of_length_pos (by omega)
  · intro hremoved
    rw [namedCount, hremoved, if_neg (by decide), if_neg (by decide)] at hA
    exact List.exists_mem_of_length_pos (by omega)

/-- The change layer of a comparison is rejected exactly for a snapshot without
buildings. -/
theorem rejected_iff {featuresA featuresB : FeatureDict G}
    (hkeep : KeepsPolygons sh)
    (hstageA : ∀ feature ∈ processedA, Stageable sh feature)
    (hstageB : ∀ feature ∈ processedB, Stageable sh feature)
    (hloadA : loadFeatures sh processedA = .ok featuresA)
    (hloadB : loadFeatures sh processedB = .ok featuresB)
    (hidsA : db.publishedIds snapshotA.id = featuresA.keys)
    (hidsB : db.publishedIds snapshotB.id = featuresB.keys)
    (hchangeset : db.changesets.HasId changesetId)
    (hrun : buildChangesetResult sh rt snapshotA snapshotB processedA processedB
      aoiGeometry = .ok result) :
    Rejected sh db changesetId snapshotA.id snapshotB.id
        result.changeLayerGeojson ↔ processedA = [] ∨ processedB = [] := by
  have hemptyA : featuresA.keys = [] ↔ processedA = [] := by
    rw [← List.length_eq_zero_iff, length_keys_of_loadFeatures hloadA,
      List.length_eq_zero_iff]
  have hemptyB : featuresB.keys = [] ↔ processedB = [] := by
    rw [← List.length_eq_zero_iff, length_keys_of_loadFeatures hloadB,
      List.length_eq_zero_iff]
  obtain ⟨-, featuresA', featuresB', aoiBoundary, records, layer, hloadA', hloadB',
    -, hrecords, hlayer, rfl⟩ := buildChangesetResult_eq_ok_iff.mp hrun
  obtain rfl := Except.ok.inj (hloadA.symm.trans hloadA')
  obtain rfl := Except.ok.inj (hloadB.symm.trans hloadB')
  obtain ⟨records', hrecords', hlisted⟩ :=
    buildChangeset_listed sh rt featuresA featuresB aoiBoundary
  obtain rfl := Except.ok.inj (hrecords.symm.trans hrecords')
  have hvalue : ∀ {r : ChangeRecord} {c : Classification},
      r.view.1 = some c.value → r.classification = c :=
    fun h => Classification.value_injective (Option.some.inj h)
  constructor
  · intro hrejected
    cases hrejected with
    | unclassified feature hmem hnone =>
        obtain ⟨r, -, -, hview⟩ := exists_record_of_mem hlayer hmem
        rw [hview] at hnone
        cases hnone
    | unpublishedA h =>
        exact Or.inl (hemptyA.mp (hidsA.symm.trans h))
    | unpublishedB h =>
        exact Or.inr (hemptyB.mp (hidsB.symm.trans h))
    | malformed feature hmem _ hnot =>
        obtain ⟨r, hr, hrender, -⟩ := exists_record_of_mem hlayer hmem
        exact absurd (changeStageable_of_renderRecord hkeep
          (polygonalFeatures_of_loadFeatures hkeep hstageA hloadA)
          (polygonalFeatures_of_loadFeatures hkeep hstageB hloadB)
          ((hlisted.mem r).mp hr).named hrender) hnot
    | addedHasB feature hmem hadded hnone =>
        obtain ⟨r, hr, -, hview⟩ := exists_record_of_mem hlayer hmem
        rw [hview] at hadded hnone
        obtain ⟨osmId, hid⟩ := (exists_named_of_isRecord
          ((hlisted.mem r).mp hr)).1 (hvalue hadded)
        refine absurd ?_ (hnone osmId hid)
        rw [hidsB]
        exact (hlisted.mem_keys r hr).2 osmId hid
    | removedHasA feature hmem hremoved hnone =>
        obtain ⟨r, hr, -, hview⟩ := exists_record_of_mem hlayer hmem
        rw [hview] at hremoved hnone
        obtain ⟨osmId, hid⟩ := (exists_named_of_isRecord
          ((hlisted.mem r).mp hr)).2 (hvalue hremoved)
        refine absurd ?_ (hnone osmId hid)
        rw [hidsA]
        exact (hlisted.mem_keys r hr).1 osmId hid
    | noChangeset feature _ _ hnone =>
        exact absurd hchangeset hnone
  · rintro (hA | hB)
    · exact .unpublishedA (hidsA.trans (hemptyA.mpr hA))
    · exact .unpublishedB (hidsB.trans (hemptyB.mpr hB))

/-- The snapshots of a comparison and its change layer are published exactly when
neither snapshot is empty. -/
theorem publishSequence_iff (hkeep : KeepsPolygons sh)
    (hserve : ServesPolygons sh pg) (htyped : db.Typed sh)
    (hA : Publishable sh processedA) (hB : Publishable sh processedB)
    (hstoredA : db.snapshots.HasId snapshotA.id)
    (hstoredB : db.snapshots.HasId snapshotB.id)
    (hchangeset : db.changesets.HasId changesetId)
    (hid : snapshotA.id = snapshotB.id → processedA = processedB)
    (hrun : buildChangesetResult sh rt snapshotA snapshotB processedA processedB
      aoiGeometry = .ok result) :
    (∃ written db', publishSequence sh pg db changesetId snapshotA.id snapshotB.id
      processedA processedB result.changeLayerGeojson = .ok (written, db')) ↔
    processedA ≠ [] ∧ processedB ≠ [] := by
  obtain ⟨⟨writtenA, db₁⟩, hpublishA⟩ :=
    (exists_publishSnapshotFeatures_iff hkeep hserve hstoredA).mpr
      ⟨hA.stageable, hA.nodup⟩
  obtain ⟨hsnapshots₁, hchangesets₁⟩ :=
    snapshots_publishSnapshotFeatures hpublishA
  rw [← hsnapshots₁] at hstoredB
  obtain ⟨⟨writtenB, db₂⟩, hpublishB⟩ :=
    (exists_publishSnapshotFeatures_iff hkeep hserve hstoredB).mpr
      ⟨hB.stageable, hB.nodup⟩
  obtain ⟨-, hchangesets₂⟩ := snapshots_publishSnapshotFeatures hpublishB
  have htyped₂ : db₂.Typed sh :=
    typed_publishSnapshotFeatures
      (typed_publishSnapshotFeatures htyped hpublishA) hpublishB
  have hchangeset₂ : db₂.changesets.HasId changesetId := by
    rw [hchangesets₂, hchangesets₁]
    exact hchangeset
  obtain ⟨-, featuresA, featuresB, -, -, -, hloadA, hloadB, -⟩ :=
    buildChangesetResult_eq_ok_iff.mp hrun
  obtain ⟨hidsA, hidsB⟩ :=
    publishedIds_publishBoth hloadA hloadB hid hpublishA hpublishB
  have hsequence : publishSequence sh pg db changesetId snapshotA.id snapshotB.id
      processedA processedB result.changeLayerGeojson =
        publishChangeFeatures sh pg db₂ changesetId snapshotA.id snapshotB.id
          result.changeLayerGeojson := by
    unfold publishSequence
    rw [hpublishA, ok_bind]
    dsimp only
    rw [hpublishB, ok_bind]
  have hrejected := rejected_iff hkeep hA.stageable hB.stageable hloadA hloadB
    hidsA hidsB hchangeset₂ hrun
  rw [hsequence, ← Prod.exists' (p := fun written db' =>
    publishChangeFeatures sh pg db₂ changesetId snapshotA.id snapshotB.id
      result.changeLayerGeojson = .ok (written, db')),
    exists_publishChangeFeatures_iff hkeep hserve htyped₂, hrejected, not_or]

end Publishable

/-- One building is mapped larger and one is added, and everything is
published. -/
theorem publishSequence_changed :
    ∃ result written db,
      buildChangesetResult Raster.shapely Raster.exact (Raster.ref 1)
        (Raster.ref 2) [Raster.processed "way/1" {(0, 0)}]
        [Raster.processed "way/1" {(0, 0), (1, 0)},
          Raster.processed "way/2" {(5, 5)}] none = .ok result ∧
      publishSequence Raster.shapely Raster.postgis Raster.database 1 1 2
        [Raster.processed "way/1" {(0, 0)}]
        [Raster.processed "way/1" {(0, 0), (1, 0)},
          Raster.processed "way/2" {(5, 5)}] result.changeLayerGeojson =
          .ok (written, db) := by
  have hrun : (buildChangesetResult Raster.shapely Raster.exact (Raster.ref 1)
      (Raster.ref 2) [Raster.processed "way/1" {(0, 0)}]
      [Raster.processed "way/1" {(0, 0), (1, 0)},
        Raster.processed "way/2" {(5, 5)}] none).toOption.isSome = true := by
    decide +kernel
  obtain ⟨result, hrun⟩ := exists_eq_ok_of_isSome hrun
  have hA : Publishable Raster.shapely [Raster.processed "way/1" {(0, 0)}] := by
    refine ⟨?_, by decide⟩
    intro feature hfeature
    rw [List.mem_singleton.mp hfeature]
    exact Raster.stageable_processed _ _
  have hB : Publishable Raster.shapely
      [Raster.processed "way/1" {(0, 0), (1, 0)},
        Raster.processed "way/2" {(5, 5)}] := by
    refine ⟨?_, by decide⟩
    intro feature hfeature
    rw [List.mem_pair] at hfeature
    rcases hfeature with rfl | rfl
    · exact Raster.stageable_processed _ _
    · exact Raster.stageable_processed _ _
  have htyped : Raster.database.Typed Raster.shapely :=
    typed_of_values_eq_nil Raster.shapely rfl
  have hchangeset : Raster.database.changesets.HasId 1 := by
    decide
  obtain ⟨written, db, hpublish⟩ := (publishSequence_iff Raster.keepsPolygons
    Raster.servesPolygons htyped hA hB (by decide) (by decide) hchangeset
    (fun h => absurd h (by decide)) hrun).mpr ⟨by simp, by simp⟩
  exact ⟨result, written, db, hrun, hpublish⟩

/-- The first building of an area appears: the snapshot before it is empty, and the
changeset is rejected. -/
theorem publishSequence_firstBuilding :
    (do
      let result ← buildChangesetResult Raster.shapely Raster.exact (Raster.ref 1)
        (Raster.ref 2) [] [Raster.processed "way/1" {(0, 0)}] none
      let (written, _) ← publishSequence Raster.shapely Raster.postgis
        Raster.database 1 1 2 [] [Raster.processed "way/1" {(0, 0)}]
        result.changeLayerGeojson
      pure written) =
      Except.error (PyError.valueError ("snapshot 1 has no published features " ++
        "-- publish both of a changeset's snapshots before publishing the " ++
        "changeset itself (before/after geometry is derived from them)")) := by
  decide +kernel

end VectorMapChanges
