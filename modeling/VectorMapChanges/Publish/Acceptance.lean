import VectorMapChanges.Raster
import Mathlib.Control.Monad.Basic

/-!
# What ingestion accepts

Matching and publishing rely on processed snapshots to have polygonal geometries
only.  Repair sees to that for what it repairs, as far as there is polygonal
content; a valid geometry is passed through whatever its type is.

Main facts:
* `isPolygonal_validateAndRepair_iff`: when repair leaves a polygonal geometry;
* `stageable_normalizeFeature_iff`: when publishing takes a normalized feature;
* `acceptance_iff`: the later stages take a snapshot exactly when every row of it
  is polygonal or can be repaired to be.
-/

namespace VectorMapChanges

open Lib

section Repair

variable {G J : Type} {sh : Shapely G J}

/-- A geometry that ingestion makes polygonal: it is valid and polygonal, or
`make_valid` returns a polygonal geometry or a collection with a polygonal
part. -/
def Repairable (sh : Shapely G J) (g : G) : Prop :=
  (sh.isValid g = true ∧ (sh.geomType g).isPolygonal = true) ∨
  (sh.isValid g = false ∧
    ((sh.geomType (sh.makeValid g)).isPolygonal = true ∨
      sh.geomType (sh.makeValid g) = .geometryCollection ∧
        ∃ part ∈ sh.geoms (sh.makeValid g),
          (sh.geomType part).isPolygonal = true))

/-- There is polygonal content to extract from a polygonal geometry, and from a
collection with a polygonal part. -/
theorem extractPolygonal_eq_none_iff {g : G} :
    extractPolygonal sh g = none ↔
      ¬ ((sh.geomType g).isPolygonal = true ∨
        sh.geomType g = .geometryCollection ∧
          ∃ part ∈ sh.geoms g, (sh.geomType part).isPolygonal = true) := by
  simp only [extractPolygonal]
  by_cases hpoly : (sh.geomType g).isPolygonal = true
  · simp [hpoly]
  · rw [if_neg hpoly]
    by_cases hcollection : sh.geomType g = .geometryCollection
    · simp [hcollection, GeomType.isPolygonal]
    · simp [hcollection, hpoly]

/-- What is extracted is polygonal. -/
theorem isPolygonal_extractPolygonal (hkeep : KeepsPolygons sh) {g g' : G}
    (h : extractPolygonal sh g = some g') :
    (sh.geomType g').isPolygonal = true := by
  simp only [extractPolygonal] at h
  split_ifs at h with hpoly hcollection hempty
  · rw [← Option.some.inj h]
    exact hpoly
  · rw [← Option.some.inj h]
    refine hkeep.unaryUnion _ ?_ ?_
    · rwa [Ne, ← List.isEmpty_iff]
    · intro part hpart
      exact (List.mem_filter.mp hpart).2

/-- Repair leaves a polygonal geometry exactly where it can. -/
theorem isPolygonal_validateAndRepair_iff (hkeep : KeepsPolygons sh) {g : G} :
    (sh.geomType (validateAndRepair sh g).geometry).isPolygonal = true ↔
      Repairable sh g := by
  by_cases hvalid : sh.isValid g = true
  · rw [validateAndRepair_of_valid hvalid, Repairable]
    simp [hvalid]
  · have hinvalid : sh.isValid g = false := by
      simpa using hvalid
    have hnone : extractPolygonal sh (sh.makeValid g) = none ↔ _ :=
      extractPolygonal_eq_none_iff
    simp only [Repairable, validateAndRepair, hinvalid]
    cases hextract : extractPolygonal sh (sh.makeValid g) with
    | none =>
        have hnot := hnone.mp hextract
        have hpoly : ¬ (sh.geomType (sh.makeValid g)).isPolygonal = true :=
          fun h => hnot (Or.inl h)
        simp only [Bool.false_eq_true, false_and, false_or, true_and, if_false]
        exact iff_of_false hpoly hnot
    | some polygonal =>
        have hcontent := not_not.mp (fun h => by
          rw [hnone.mpr h] at hextract
          cases hextract)
        simp only [Bool.false_eq_true, false_and, false_or, true_and, if_false]
        exact iff_of_true (isPolygonal_extractPolygonal hkeep hextract) hcontent

end Repair

section Acceptance

variable {G J : Type} {sh : Shapely G J} {pg : PostGis G}

/-- The geometry of a row, which ingestion makes polygonal. -/
def RepairableRow (sh : Shapely G J) (feature : RawFeature J) : Prop :=
  ∃ json g, feature.geometry = some json ∧ sh.shape json = .ok g ∧
    Repairable sh g

/-- The geometry of a normalized feature is polygonal exactly when that of its row
can be made so. -/
theorem polygonal_normalizeFeature_iff (hkeep : KeepsPolygons sh)
    {raw : RawFeature J} {feature : ProcessedFeature J}
    (h : normalizeFeature sh raw = .ok feature) :
    (∃ json, feature.geometry = some json ∧ PolygonalJson sh json) ↔
      RepairableRow sh raw := by
  obtain ⟨json, g, -, hjson, hg, hgeometry, -⟩ := normalizeFeature_spec h
  rw [hgeometry]
  constructor
  · rintro ⟨json', hjson', hpoly⟩
    obtain rfl := Option.some.inj hjson'
    exact ⟨json, g, hjson, hg, (isPolygonal_validateAndRepair_iff hkeep).mp
      ((polygonalJson_mapping_iff hkeep).mp hpoly)⟩
  · rintro ⟨json', g', hjson', hg', hrepairable⟩
    obtain rfl := Option.some.inj (hjson.symm.trans hjson')
    obtain rfl := Except.ok.inj (hg.symm.trans hg')
    exact ⟨_, rfl, (polygonalJson_mapping_iff hkeep).mpr
      ((isPolygonal_validateAndRepair_iff hkeep).mpr hrepairable)⟩

/-- Publishing takes a normalized feature exactly when its geometry is
polygonal. -/
theorem stageable_normalizeFeature_iff {raw : RawFeature J}
    {feature : ProcessedFeature J} (h : normalizeFeature sh raw = .ok feature) :
    Stageable sh feature ↔
      ∃ json, feature.geometry = some json ∧ PolygonalJson sh json := by
  obtain ⟨-, -, props, -, -, -, hprops, hosmId, hosmType, hvalid⟩ :=
    normalizeFeature_spec h
  constructor
  · rintro ⟨-, -, -, -, -, hpoly⟩
    exact hpoly
  · intro hpoly
    exact ⟨props, hprops, by rw [hosmId]; rfl, hosmType, hvalid, hpoly⟩

/-- Matching loads every normalized feature. -/
theorem exists_loadFeature (hkeep : KeepsPolygons sh) {raw : RawFeature J}
    {feature : ProcessedFeature J} (h : normalizeFeature sh raw = .ok feature) :
    ∃ f, loadFeature sh feature = .ok f ∧ f.osmId = raw.osmId := by
  obtain ⟨-, g, props, -, -, hgeometry, hprops, hosmId, -, -⟩ :=
    normalizeFeature_spec h
  obtain ⟨g', hg', -⟩ := hkeep.mapping (validateAndRepair sh g).geometry
  unfold loadFeature
  simp only [hprops, hosmId, hgeometry, required, ok_bind, hg']
  exact ⟨_, rfl, rfl⟩

variable {db : Database G} {snapshotId : Nat} {raw : RawCollection J} {aoi : Aoi J}
  {requestedTime : Instant} {sourceQueryVersion : String}
  {result : SnapshotResult J}

/-- A snapshot has polygonal geometries only, is loaded by matching, and is
published with as many rows as it has features, exactly when every row that it is
built from can be made polygonal. -/
theorem acceptance_iff (hkeep : KeepsPolygons sh) (hserve : ServesPolygons sh pg)
    (hid : db.snapshots.HasId snapshotId)
    (hrows : ((selectFeaturesValidAt raw.features requestedTime).map
      RawFeature.osmId).Nodup)
    (hresult : buildSnapshotFromRaw sh raw aoi requestedTime sourceQueryVersion =
      .ok result) :
    ((∀ feature ∈ result.processedGeojson,
        ∃ json, feature.geometry = some json ∧ PolygonalJson sh json) ∧
      (∃ features, loadFeatures sh result.processedGeojson = .ok features) ∧
      ∃ db', publishSnapshotFeatures sh pg db snapshotId result.processedGeojson =
          .ok (result.featureCount, db') ∧
        (db'.publishedIds snapshotId).length = result.featureCount) ↔
    ∀ row ∈ selectFeaturesValidAt raw.features requestedTime,
      RepairableRow sh row := by
  obtain ⟨features, hfeatures, rfl⟩ := buildSnapshotFromRaw_eq_ok_iff.mp hresult
  constructor
  · rintro ⟨hpoly, -, -⟩ row hrow
    obtain ⟨feature, hfeature, hnormal⟩ := step_of_mapM_eq_ok hfeatures hrow
    exact (polygonal_normalizeFeature_iff hkeep hnormal).mp (hpoly feature hfeature)
  · intro hrepairable
    have hpoly : ∀ feature ∈ features,
        ∃ json, feature.geometry = some json ∧ PolygonalJson sh json := by
      intro feature hfeature
      obtain ⟨row, hrow, hnormal⟩ :=
        (mem_iff_of_mapM_eq_ok hfeatures).mp hfeature
      exact (polygonal_normalizeFeature_iff hkeep hnormal).mpr
        (hrepairable row hrow)
    have hstage : ∀ feature ∈ features, Stageable sh feature := by
      intro feature hfeature
      obtain ⟨row, -, hnormal⟩ := (mem_iff_of_mapM_eq_ok hfeatures).mp hfeature
      exact (stageable_normalizeFeature_iff hnormal).mpr (hpoly feature hfeature)
    have hids : features.map (fun f => f.properties.bind (·.osmId)) =
        ((selectFeaturesValidAt raw.features requestedTime).map
          RawFeature.osmId).map some := by
      rw [List.map_map]
      exact map_of_mapM_eq_ok hfeatures
        (fun _ _ _ h => osmId_normalizeFeature h)
    have hnodup : (features.map (fun f => f.properties.bind (·.osmId))).Nodup := by
      rw [hids, List.nodup_map_iff (Option.some_injective String)]
      exact hrows
    refine ⟨hpoly, ?_, ?_⟩
    · have hload : ∀ feature ∈ features, ∃ f, loadFeature sh feature = .ok f := by
        intro feature hfeature
        obtain ⟨row, -, hnormal⟩ := (mem_iff_of_mapM_eq_ok hfeatures).mp hfeature
        obtain ⟨f, hf, -⟩ := exists_loadFeature hkeep hnormal
        exact ⟨f, hf⟩
      exact exists_loadFeatures hload hnodup
    · obtain ⟨⟨written, db'⟩, hpublish⟩ :=
        (exists_publishSnapshotFeatures_iff hkeep hserve hid).mpr ⟨hstage, hnodup⟩
      have hlength : (db'.publishedIds snapshotId).length = features.length := by
        have hpublished := congrArg List.length
          (publishedIds_publishSnapshotFeatures hpublish)
        rwa [List.length_map, List.length_map] at hpublished
      have hwritten : written = features.length := by
        obtain ⟨staged, rows, table, hstaged, hselect, -, -, rfl, -⟩ :=
          publishSnapshotFeatures_eq_ok_iff.mp hpublish
        exact ((mapM_eq_ok_iff.mp hstaged).length_eq.trans
          (mapM_eq_ok_iff.mp hselect).length_eq).symm
      exact ⟨db', by rw [← hwritten]; exact hpublish, hlength⟩

end Acceptance

/-- A valid polygon passes through all stages. -/
theorem acceptance_polygon :
    ∃ result, buildSnapshotFromRaw Raster.shapely
        ⟨[Raster.raw "way/1" (Raster.polygon {(0, 0)})], Dict.empty⟩ Raster.aoi
        Raster.instant "v2" = .ok result ∧
      (∃ features, loadFeatures Raster.shapely result.processedGeojson =
        .ok features) ∧
      ∃ db', publishSnapshotFeatures Raster.shapely Raster.postgis
        Raster.database 1 result.processedGeojson =
          .ok (result.featureCount, db') := by
  have hresult : (buildSnapshotFromRaw Raster.shapely
      ⟨[Raster.raw "way/1" (Raster.polygon {(0, 0)})], Dict.empty⟩ Raster.aoi
      Raster.instant "v2").toOption.isSome = true := by
    decide +kernel
  obtain ⟨result, hresult⟩ := exists_eq_ok_of_isSome hresult
  have hselect : selectFeaturesValidAt
      [Raster.raw "way/1" (Raster.polygon {(0, 0)})] Raster.instant =
        [Raster.raw "way/1" (Raster.polygon {(0, 0)})] := by
    decide +kernel
  have hrows : ((selectFeaturesValidAt
      [Raster.raw "way/1" (Raster.polygon {(0, 0)})] Raster.instant).map
        RawFeature.osmId).Nodup := by
    rw [hselect]
    decide
  have hid : Raster.database.snapshots.HasId 1 := by
    decide
  have hrepairable : ∀ row ∈ selectFeaturesValidAt
      [Raster.raw "way/1" (Raster.polygon {(0, 0)})] Raster.instant,
      RepairableRow Raster.shapely row := by
    intro row hrow
    rw [hselect, List.mem_singleton] at hrow
    rw [hrow]
    exact ⟨_, _, rfl, rfl, Or.inl ⟨rfl, rfl⟩⟩
  obtain ⟨-, hload, db', hpublish, -⟩ := (acceptance_iff Raster.keepsPolygons
    Raster.servesPolygons hid hrows hresult).mpr hrepairable
  exact ⟨result, hresult, hload, db', hpublish⟩

/-- A valid collection, which clipping left, is accepted and cannot be
published. -/
theorem acceptance_clipped :
    (buildSnapshotFromRaw Raster.shapely
        ⟨[Raster.raw "way/1" (Raster.clipped {(0, 0)})], Dict.empty⟩ Raster.aoi
        Raster.instant "v2").map (·.featureCount) = .ok 1 ∧
    (do
      let result ← buildSnapshotFromRaw Raster.shapely
        ⟨[Raster.raw "way/1" (Raster.clipped {(0, 0)})], Dict.empty⟩ Raster.aoi
        Raster.instant "v2"
      let (written, _) ← publishSnapshotFeatures Raster.shapely Raster.postgis
        Raster.database 1 result.processedGeojson
      pure written) =
      Except.error (PyError.valueError ("expected ('Polygon', 'MultiPolygon'), " ++
        "got 'GeometryCollection' -- snapshots should contain only polygonal " ++
        "geometry (see src/ingestion/validate.py)")) := by
  decide +kernel

end VectorMapChanges
