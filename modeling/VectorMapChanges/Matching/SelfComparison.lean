import VectorMapChanges.Raster

/-!
# Comparing a snapshot with itself

Every feature is matched with itself by id.  A footprint of positive area then
has an agreement of 1, but a footprint without area has an agreement of 0, so
that the degenerate footprints that ingestion keeps are reported as modified.

Main facts:
* `isRecord_self_iff`: the records are one self-match for each feature;
* `classification_self_iff`: it is `unchanged` exactly for footprints with area;
* `buildChangesetResult_self_iff`: a snapshot compared with itself shows no
  change exactly when no footprint degenerates.
-/

namespace VectorMapChanges

open Lib

section SelfComparison

variable {G J : Type} {sh : Shapely G J}
  {pair : LoadedFeature G → LoadedFeature G → Bool}
  {features : FeatureDict G} {aoiBoundary : Option G}

/-- No feature is left over when a snapshot is compared with itself. -/
theorem get?_onlyIn_self (osmId : String) (f : LoadedFeature G) :
    (onlyIn features features).get? osmId ≠ some f := by
  intro h
  obtain ⟨hget, hnot⟩ := get?_onlyIn.mp h
  exact hnot (Dict.mem_of_get? hget)

/-- The records are one self-match for each feature. -/
theorem isRecord_self_iff {r : ChangeRecord} :
    IsRecord sh pair aoiBoundary features features r ↔
      ∃ f, features.get? f.osmId = some f ∧
        r = classifyMatched sh f.osmId f.osmId .osmId (computeMetrics sh f f)
          f f aoiBoundary := by
  constructor
  · intro h
    cases h with
    | shared osmId a b ha hb =>
        obtain rfl := Option.some.inj (ha.symm.trans hb)
        obtain rfl := FeatureDict.osmId_of_get? ha
        exact ⟨a, ha, rfl⟩
    | group root as bs hgroup =>
        rcases hgroup.exists_pair with ⟨a, ha, -⟩
        exact absurd (hgroup.stored.1 a ha) (get?_onlyIn_self _ _)
    | removed a ha _ => exact absurd ha (get?_onlyIn_self _ _)
    | added b hb _ => exact absurd hb (get?_onlyIn_self _ _)
  · rintro ⟨f, hf, rfl⟩
    exact .shared f.osmId f f hf hf

/-- A self-match is `unchanged` exactly for a footprint with area. -/
theorem classification_self_iff (hself : SelfAreas sh) (f : LoadedFeature G) :
    classifyPair (computeMetrics sh f f) = .unchanged ↔
      sh.area f.geometry ≠ 0 := by
  unfold classifyPair tUnchangedIou
  simp only [computeMetrics_iou, computeMetrics_attrsChanged,
    attrsChanged_self, iou_self hself]
  by_cases h : sh.area f.geometry = 0
  · norm_num [h]
    decide
  · norm_num [h]

/-- Each self-match names its feature on both sides, so that there are as many
records as features. -/
theorem length_records_self {records : List ChangeRecord}
    (h : IsChangeset sh pair aoiBoundary features features records) :
    records.length = features.keys.length := by
  have hone : ∀ r ∈ records, r.osmIdsA.length = 1 := by
    intro r hr
    obtain ⟨f, -, rfl⟩ := isRecord_self_iff.mp ((h.mem r).mp hr)
    rfl
  rw [← h.idsA.length_eq, List.length_flatMap]
  clear h
  induction records with
  | nil => rfl
  | cons r rest ih =>
      rw [List.length_cons, List.map_cons, List.sum_cons, hone r (by simp),
        ih (fun s hs => hone s (List.mem_cons_of_mem _ hs)), Nat.add_comm]

/-- A snapshot compared with itself shows one `unchanged` record for each
feature exactly when every footprint has area in the metric CRS. -/
theorem buildChangesetResult_self_iff (sh : Shapely G J) (hself : SelfAreas sh)
    (rt : Runtime G) (ref : SnapshotRef) (processed : ProcessedCollection J)
    (aoiGeometry : Option J)
    (hload : loadFeatures sh processed = .ok features)
    (haoi : aoiBoundaryInMetricCrs sh aoiGeometry = .ok aoiBoundary) :
    (∃ result,
      buildChangesetResult sh rt ref ref processed processed aoiGeometry =
        .ok result ∧
      result.records.length = processed.length ∧
      (∀ osmId ∈ features.keys, ∃ r ∈ result.records,
        r.osmIdsA = [osmId] ∧ r.osmIdsB = [osmId]) ∧
      ∀ r ∈ result.records, r.classification = .unchanged) ↔
    ∀ feature ∈ processed, ∀ f, loadFeature sh feature = .ok f →
      sh.area f.geometry ≠ 0 := by
  obtain ⟨result, hrun, h⟩ := exists_buildChangesetResult rt
    (validateComparable_self ref) hload hload haoi
  obtain ⟨fs, hfs, -, hitems⟩ := loadFeatures_eq_ok_iff.mp hload
  have hstored : ∀ f, features.get? f.osmId = some f ↔ f ∈ fs := by
    intro f
    rw [Dict.get?_eq_some_iff, hitems, List.mem_map]
    constructor
    · rintro ⟨f', hf', heq⟩
      rwa [(Prod.mk.inj heq).2] at hf'
    · intro hf
      exact ⟨f, hf, rfl⟩
  constructor
  · rintro ⟨result', hrun', -, -, hall⟩ feature hfeature f hf
    obtain rfl := Except.ok.inj (hrun.symm.trans hrun')
    have hmem : f ∈ fs := (mem_iff_of_mapM_eq_ok hfs).mpr ⟨feature, hfeature, hf⟩
    have hr := (h.mem _).mpr
      (isRecord_self_iff.mpr ⟨f, (hstored f).mpr hmem, rfl⟩)
    exact (classification_self_iff hself f).mp (hall _ hr)
  · intro harea
    refine ⟨result, hrun, ?_, ?_, ?_⟩
    · rw [length_records_self h, Dict.keys, hitems, List.length_map,
        List.length_map]
      exact (mapM_eq_ok_iff.mp hfs).length_eq.symm
    · intro osmId hid
      obtain ⟨f, hf⟩ := Dict.exists_get?_of_mem hid
      exact ⟨_, (h.mem _).mpr (.shared osmId f f hf hf), rfl, rfl⟩
    · intro r hr
      obtain ⟨f, hf, rfl⟩ := isRecord_self_iff.mp ((h.mem r).mp hr)
      obtain ⟨feature, hfeature, hloaded⟩ :=
        (mem_iff_of_mapM_eq_ok hfs).mp ((hstored f).mp hf)
      exact (classification_self_iff hself f).mpr (harea feature hfeature f hloaded)

end SelfComparison

/-- An ordinary building shows no change against itself. -/
theorem buildChangesetResult_self_building :
    ∃ features result,
      loadFeatures Raster.shapely [Raster.processed "way/1" {(0, 0)}] =
        .ok features ∧
      buildChangesetResult Raster.shapely Raster.exact (Raster.ref 1)
          (Raster.ref 1) [Raster.processed "way/1" {(0, 0)}]
          [Raster.processed "way/1" {(0, 0)}] none =
        .ok result ∧
      result.records.length = 1 ∧
      ∀ r ∈ result.records, r.classification = .unchanged := by
  have hload : ∃ features,
      loadFeatures Raster.shapely [Raster.processed "way/1" {(0, 0)}] =
        .ok features := by
    refine ⟨((loadFeatures Raster.shapely
      [Raster.processed "way/1" {(0, 0)}]).toOption).getD FeatureDict.empty, ?_⟩
    decide +kernel
  rcases hload with ⟨features, hload⟩
  have harea : ∀ feature ∈ [Raster.processed "way/1" {(0, 0)}],
      ∀ f, loadFeature Raster.shapely feature = .ok f →
        Raster.shapely.area f.geometry ≠ 0 := by
    intro feature hfeature f hf
    rw [List.mem_singleton] at hfeature
    subst hfeature
    have hany : (loadFeature Raster.shapely
        (Raster.processed "way/1" {(0, 0)})).toOption.any
        (fun f => Raster.shapely.area f.geometry ≠ 0) = true := by
      decide +kernel
    rw [hf] at hany
    simpa [Except.toOption] using hany
  obtain ⟨result, hrun, hlength, -, hall⟩ :=
    (buildChangesetResult_self_iff Raster.shapely Raster.selfAreas Raster.exact
      (Raster.ref 1) [Raster.processed "way/1" {(0, 0)}] none hload rfl).mpr harea
  exact ⟨features, result, hload, hrun, hlength, hall⟩

/-- Ingestion keeps a building whose ring encloses nothing, and the comparison
of its snapshot with itself reports the building as modified. -/
theorem buildChangesetResult_self_collapsed :
    (do
      let snapshot ← buildSnapshotFromRaw Raster.shapely
        { features := [Raster.raw "way/1" Raster.collapsed]
          members := Dict.empty }
        Raster.aoi Raster.instant "v2"
      let result ← buildChangesetResult Raster.shapely Raster.exact
        (Raster.ref 1) (Raster.ref 1) snapshot.processedGeojson
        snapshot.processedGeojson none
      pure (result.records.map (fun r => (r.osmIdsA, r.classification)))) =
      Except.ok [(["way/1"], Classification.modifiedGeometry)] := by
  decide +kernel

end VectorMapChanges
