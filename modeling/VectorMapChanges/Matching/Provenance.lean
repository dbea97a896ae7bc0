import VectorMapChanges.Matching.Coherence
import VectorMapChanges.Raster

/-!
# Where a geometry comes from

A footprint passes through two repairs on its way into the metrics: that of
ingestion, which is recorded, and that of `to_metric` after reprojection, which
is not.  A change record carries one flag for all features that it names, and
metrics when these are of both snapshots.

Main facts:
* `exists_raw_of_get?`: a loaded feature is the reprojected repair of a raw
  feature, and is flagged when the raw geometry is invalid;
* `measuresRaw_iff`: the metrics of a record are computed on every feature that it
  names, unless it names features of one snapshot only;
* `traced_iff`: when a record tells of the changes made to the geometries that it
  measures.
-/

namespace VectorMapChanges

open Lib

section Provenance

variable {G J : Type} (sh : Shapely G J)

/-- A snapshot is normalized, and loaded again for matching. -/
def loadRaw (raws : List (RawFeature J)) : Except PyError (FeatureDict G) := do
  let processed ← raws.mapM (normalizeFeature sh)
  loadFeatures sh processed

/-- A geometry that is written is read back. -/
def RoundTrips : Prop :=
  ∀ g, sh.shape (sh.mapping g) = .ok g

/-- The raw feature has the geometry. -/
def RawFeature.Reads (raw : RawFeature J) (g : G) : Prop :=
  ∃ json, raw.geometry = some json ∧ sh.shape json = .ok g

/-- The record names a feature, loaded as `f`, whose raw geometry is `g`. -/
def NamesRaw (rawsA rawsB : List (RawFeature J))
    (featuresA featuresB : FeatureDict G) (r : ChangeRecord)
    (f : LoadedFeature G) (g : G) : Prop :=
  (∃ raw ∈ rawsA, raw.osmId ∈ r.osmIdsA ∧ featuresA.get? raw.osmId = some f ∧
    raw.Reads sh g) ∨
  ∃ raw ∈ rawsB, raw.osmId ∈ r.osmIdsB ∧ featuresB.get? raw.osmId = some f ∧
    raw.Reads sh g

/-- Metrics of the record are computed on a feature, loaded as `f`, whose raw
geometry is `g`. -/
def MeasuresRaw (rawsA rawsB : List (RawFeature J))
    (featuresA featuresB : FeatureDict G) (r : ChangeRecord)
    (f : LoadedFeature G) (g : G) : Prop :=
  (∃ raw ∈ rawsA, featuresA.get? raw.osmId = some f ∧ raw.Reads sh g ∧
    ∃ b f', featuresB.get? b = some f' ∧
      r.pairMetrics.get? (raw.osmId, b) = some (computeMetrics sh f f')) ∨
  ∃ raw ∈ rawsB, featuresB.get? raw.osmId = some f ∧ raw.Reads sh g ∧
    ∃ a f', featuresA.get? a = some f' ∧
      r.pairMetrics.get? (a, raw.osmId) = some (computeMetrics sh f' f)

/-- If a geometry that the metrics are computed on is not the plain reprojection
of the raw geometry, the record says so. -/
def Traced (rawsA rawsB : List (RawFeature J))
    (featuresA featuresB : FeatureDict G) (r : ChangeRecord) : Prop :=
  (∃ f g, MeasuresRaw sh rawsA rawsB featuresA featuresB r f g ∧
    f.geometry ≠ sh.transformToMetric g) →
  r.involvesRepairedGeometry = true

/-- Reprojection leaves the geometry alone: it stays valid, or its repair changes
nothing. -/
def Reprojects (g : G) : Prop :=
  sh.isValid (sh.transformToMetric g) = true ∨
    sh.buffer0 (sh.transformToMetric g) = sh.transformToMetric g

variable {sh}

theorem toMetric_eq_iff (g : G) :
    toMetric sh g = sh.transformToMetric g ↔ Reprojects sh g := by
  unfold toMetric Reprojects
  by_cases h : sh.isValid (sh.transformToMetric g) = true <;> simp [h]

/-- What ingestion writes for a raw feature is loaded as its reprojected repair;
the flag says whether the raw geometry is invalid. -/
theorem loadFeature_normalizeFeature (hround : RoundTrips sh) {raw : RawFeature J}
    {feature : ProcessedFeature J} {f : LoadedFeature G}
    (hnormalize : normalizeFeature sh raw = .ok feature)
    (hload : loadFeature sh feature = .ok f) :
    f.osmId = raw.osmId ∧ ∃ g, raw.Reads sh g ∧
      f.geometry = toMetric sh (validateAndRepair sh g).geometry ∧
      (f.repaired = true ↔ sh.isValid g = false) := by
  unfold normalizeFeature at hnormalize
  simp only [bind_eq_ok, required_eq_ok_iff, pure_eq_ok] at hnormalize
  obtain ⟨json, hjson, g, hg, rfl⟩ := hnormalize
  simp only [loadFeature, required, ok_bind] at hload
  rw [hround, ok_bind] at hload
  obtain rfl := pure_eq_ok.mp hload
  refine ⟨rfl, g, ⟨json, hjson, hg⟩, rfl, ?_⟩
  rw [repairMethod_isSome_iff]
  by_cases hvalid : sh.isValid g = true
  · simp [validateAndRepair, hvalid]
  · simp only [validateAndRepair, if_neg hvalid]
    cases extractPolygonal sh (sh.makeValid g) <;> simpa using hvalid

/-- A loaded feature is the reprojected repair of a raw feature. -/
theorem exists_raw_of_get? (hround : RoundTrips sh) {raws : List (RawFeature J)}
    {features : FeatureDict G} (h : loadRaw sh raws = .ok features) {k : String}
    {f : LoadedFeature G} (hf : features.get? k = some f) :
    ∃ raw ∈ raws, raw.osmId = k ∧ ∃ g, raw.Reads sh g ∧
      f.geometry = toMetric sh (validateAndRepair sh g).geometry ∧
      (f.repaired = true ↔ sh.isValid g = false) := by
  obtain ⟨processed, hprocessed, hload⟩ := bind_eq_ok.mp h
  obtain ⟨fs, hfs, -, hitems⟩ := loadFeatures_eq_ok_iff.mp hload
  have hmem : (k, f) ∈ fs.map (fun f => (f.osmId, f)) := by
    rw [← hitems]
    exact Dict.get?_eq_some_iff.mp hf
  obtain ⟨f', hf', heq⟩ := List.mem_map.mp hmem
  obtain ⟨rfl, rfl⟩ := Prod.mk.inj heq
  obtain ⟨feature, hfeature, hloaded⟩ := (mem_iff_of_mapM_eq_ok hfs).mp hf'
  obtain ⟨raw, hraw, hnormalize⟩ := (mem_iff_of_mapM_eq_ok hprocessed).mp hfeature
  obtain ⟨hid, g, hspec⟩ := loadFeature_normalizeFeature hround hnormalize hloaded
  exact ⟨raw, hraw, hid.symm, g, hspec⟩

/-- What is loaded under the id of a raw feature is made from that feature. -/
theorem geometry_of_raw (hround : RoundTrips sh) {raws : List (RawFeature J)}
    {features : FeatureDict G} (h : loadRaw sh raws = .ok features)
    {raw : RawFeature J} (hraw : raw ∈ raws) {f : LoadedFeature G}
    (hf : features.get? raw.osmId = some f) {g : G} (hg : raw.Reads sh g) :
    f.geometry = toMetric sh (validateAndRepair sh g).geometry ∧
    (f.repaired = true ↔ sh.isValid g = false) := by
  obtain ⟨processed, hprocessed, hload⟩ := bind_eq_ok.mp h
  obtain ⟨fs, hfs, -, hitems⟩ := loadFeatures_eq_ok_iff.mp hload
  obtain ⟨feature, hfeature, hnormalize⟩ := step_of_mapM_eq_ok hprocessed hraw
  obtain ⟨f', hf', hloaded⟩ := step_of_mapM_eq_ok hfs hfeature
  obtain ⟨hid, g', hg', hspec⟩ :=
    loadFeature_normalizeFeature hround hnormalize hloaded
  have hget : features.get? raw.osmId = some f' := by
    rw [Dict.get?_eq_some_iff, hitems, ← hid]
    exact List.mem_map_of_mem hf'
  obtain rfl := Option.some.inj (hf.symm.trans hget)
  obtain ⟨json, hjson, hshape⟩ := hg
  obtain ⟨json', hjson', hshape'⟩ := hg'
  obtain rfl := Option.some.inj (hjson.symm.trans hjson')
  obtain rfl := Except.ok.inj (hshape.symm.trans hshape')
  exact hspec

section Record

variable {rawsA rawsB : List (RawFeature J)} {featuresA featuresB : FeatureDict G}
  {aoiBoundary : Option G} {r : ChangeRecord}

theorem NamesRaw.geometry_eq (hround : RoundTrips sh)
    (hA : loadRaw sh rawsA = .ok featuresA) (hB : loadRaw sh rawsB = .ok featuresB)
    {f : LoadedFeature G} {g : G}
    (h : NamesRaw sh rawsA rawsB featuresA featuresB r f g) :
    f.geometry = toMetric sh (validateAndRepair sh g).geometry := by
  rcases h with ⟨raw, hraw, -, hf, hg⟩ | ⟨raw, hraw, -, hf, hg⟩
  · exact (geometry_of_raw hround hA hraw hf hg).1
  · exact (geometry_of_raw hround hB hraw hf hg).1

/-- The flag is set exactly when a named feature arrives invalid. -/
theorem flag_iff (hround : RoundTrips sh)
    (hA : loadRaw sh rawsA = .ok featuresA) (hB : loadRaw sh rawsB = .ok featuresB)
    (hr : Coherent sh aoiBoundary featuresA featuresB r) :
    r.involvesRepairedGeometry = true ↔
      ∃ f g, NamesRaw sh rawsA rawsB featuresA featuresB r f g ∧
        sh.isValid g = false := by
  rw [hr.repaired]
  constructor
  · rintro ⟨f, ⟨k, hk, hf⟩ | ⟨k, hk, hf⟩, hrepaired⟩
    · obtain ⟨raw, hraw, rfl, g, hg, -, hflag⟩ := exists_raw_of_get? hround hA hf
      exact ⟨f, g, Or.inl ⟨raw, hraw, hk, hf, hg⟩, hflag.mp hrepaired⟩
    · obtain ⟨raw, hraw, rfl, g, hg, -, hflag⟩ := exists_raw_of_get? hround hB hf
      exact ⟨f, g, Or.inr ⟨raw, hraw, hk, hf, hg⟩, hflag.mp hrepaired⟩
  · rintro ⟨f, g, ⟨raw, hraw, hk, hf, hg⟩ | ⟨raw, hraw, hk, hf, hg⟩, hinvalid⟩
    · exact ⟨f, Or.inl ⟨_, hk, hf⟩,
        (geometry_of_raw hround hA hraw hf hg).2.mpr hinvalid⟩
    · exact ⟨f, Or.inr ⟨_, hk, hf⟩,
        (geometry_of_raw hround hB hraw hf hg).2.mpr hinvalid⟩

/-- What a record measures is what it names, provided that it names features of
both snapshots. -/
theorem measuresRaw_iff (hr : Coherent sh aoiBoundary featuresA featuresB r)
    {f : LoadedFeature G} {g : G} :
    MeasuresRaw sh rawsA rawsB featuresA featuresB r f g ↔
      NamesRaw sh rawsA rawsB featuresA featuresB r f g ∧
        r.osmIdsA ≠ [] ∧ r.osmIdsB ≠ [] := by
  constructor
  · rintro (⟨raw, hraw, hf, hg, b, f', -, hm⟩ | ⟨raw, hraw, hf, hg, a, f', -, hm⟩)
    · obtain ⟨ha, hb, -⟩ := hr.metrics _ _ _ hm
      exact ⟨Or.inl ⟨raw, hraw, ha, hf, hg⟩, List.ne_nil_of_mem ha,
        List.ne_nil_of_mem hb⟩
    · obtain ⟨ha, hb, -⟩ := hr.metrics _ _ _ hm
      exact ⟨Or.inr ⟨raw, hraw, hb, hf, hg⟩, List.ne_nil_of_mem ha,
        List.ne_nil_of_mem hb⟩
  · rintro ⟨hnames, hidsA, hidsB⟩
    have hitems : r.pairMetrics.items ≠ [] := by
      rw [ne_eq, hr.empty, not_or]
      exact ⟨hidsA, hidsB⟩
    obtain ⟨hcoverA, hcoverB⟩ := hr.covered hitems
    rcases hnames with ⟨raw, hraw, hk, hf, hg⟩ | ⟨raw, hraw, hk, hf, hg⟩
    · obtain ⟨b, hpair⟩ := hcoverA _ hk
      obtain ⟨m, hm⟩ := Dict.exists_get?_of_mem hpair
      obtain ⟨-, -, f', h', hf', hh', rfl⟩ := hr.metrics _ _ _ hm
      obtain rfl := Option.some.inj (hf.symm.trans hf')
      exact Or.inl ⟨raw, hraw, hf, hg, b, h', hh', hm⟩
    · obtain ⟨a, hpair⟩ := hcoverB _ hk
      obtain ⟨m, hm⟩ := Dict.exists_get?_of_mem hpair
      obtain ⟨-, -, h', f', hh', hf', rfl⟩ := hr.metrics _ _ _ hm
      obtain rfl := Option.some.inj (hf.symm.trans hf')
      exact Or.inr ⟨raw, hraw, hf, hg, a, h', hh', hm⟩

/-- A coherent record traces the changes made to the geometries that it measures
exactly when a feature that it names arrives invalid, it names features of one
snapshot only, or reprojection leaves all of them as they are. -/
theorem traced_iff (hround : RoundTrips sh)
    (hA : loadRaw sh rawsA = .ok featuresA) (hB : loadRaw sh rawsB = .ok featuresB)
    (hr : Coherent sh aoiBoundary featuresA featuresB r) :
    Traced sh rawsA rawsB featuresA featuresB r ↔
      (∃ f g, NamesRaw sh rawsA rawsB featuresA featuresB r f g ∧
        sh.isValid g = false) ∨
      (r.osmIdsA = [] ∨ r.osmIdsB = []) ∨
      ∀ f g, NamesRaw sh rawsA rawsB featuresA featuresB r f g →
        Reprojects sh g := by
  rw [Traced, flag_iff hround hA hB hr]
  simp only [measuresRaw_iff hr]
  by_cases hinvalid : ∃ f g,
      NamesRaw sh rawsA rawsB featuresA featuresB r f g ∧ sh.isValid g = false
  · exact iff_of_true (fun _ => hinvalid) (Or.inl hinvalid)
  · have hplain : ∀ f g, NamesRaw sh rawsA rawsB featuresA featuresB r f g →
        (f.geometry = sh.transformToMetric g ↔ Reprojects sh g) := by
      intro f g hnames
      have hvalid : sh.isValid g = true := by
        by_contra hne
        exact hinvalid ⟨f, g, hnames, by simpa using hne⟩
      rw [hnames.geometry_eq hround hA hB, validateAndRepair_of_valid hvalid,
        toMetric_eq_iff]
    constructor
    · intro htraced
      by_cases hsides : r.osmIdsA = [] ∨ r.osmIdsB = []
      · exact Or.inr (Or.inl hsides)
      · refine Or.inr (Or.inr fun f g hnames => ?_)
        by_contra hne
        exact hinvalid (htraced ⟨f, g, ⟨hnames, not_or.mp hsides⟩,
          fun heq => hne ((hplain f g hnames).mp heq)⟩)
    · rintro (h | h | h) ⟨f, g, ⟨hnames, hidsA, hidsB⟩, hne⟩
      · exact h
      · exact absurd h (not_or.mpr ⟨hidsA, hidsB⟩)
      · exact absurd ((hplain f g hnames).mpr (h f g hnames)) hne

end Record

/-- Over whole snapshots: each record of the changeset traces the changes made to
the geometries that it measures exactly when a feature that it names arrives
invalid, it names features of one snapshot only, or reprojection leaves all of
them as they are. -/
theorem repairs_traced_iff {G J : Type} {sh : Shapely G J} (hround : RoundTrips sh)
    {rawsA rawsB : List (RawFeature J)} {featuresA featuresB : FeatureDict G}
    (hA : loadRaw sh rawsA = .ok featuresA) (hB : loadRaw sh rawsB = .ok featuresB)
    (rt : Runtime G) (aoiBoundary : Option G) :
    ∃ records,
      buildChangeset sh rt featuresA featuresB aoiBoundary = .ok records ∧
      ∀ r ∈ records, Traced sh rawsA rawsB featuresA featuresB r ↔
        (∃ f g, NamesRaw sh rawsA rawsB featuresA featuresB r f g ∧
          sh.isValid g = false) ∨
        (r.osmIdsA = [] ∨ r.osmIdsB = []) ∨
        ∀ f g, NamesRaw sh rawsA rawsB featuresA featuresB r f g →
          Reprojects sh g := by
  obtain ⟨records, hrecords, hdesc⟩ :=
    exists_buildChangeset_describes sh rt featuresA featuresB aoiBoundary
  refine ⟨records, hrecords, ?_⟩
  intro r hr
  obtain ⟨pair, as, bs, h, -⟩ := hdesc r hr
  exact traced_iff hround hA hB h.coherent

end Provenance

theorem Raster.roundTrips : RoundTrips Raster.shapely :=
  fun _ => rfl

/-- A building that is mapped as before. -/
theorem repairs_traced_iff_unchanged :
    ∃ features records,
      loadRaw Raster.shapely [Raster.raw "way/1" (Raster.polygon {(0, 0)})] =
        .ok features ∧
      buildChangeset Raster.shapely Raster.exact features features none =
        .ok records ∧
      ∀ r ∈ records, Traced Raster.shapely
        [Raster.raw "way/1" (Raster.polygon {(0, 0)})]
        [Raster.raw "way/1" (Raster.polygon {(0, 0)})] features features r := by
  have hload : (loadRaw Raster.shapely
      [Raster.raw "way/1" (Raster.polygon {(0, 0)})]).toOption.isSome = true := by
    decide +kernel
  obtain ⟨features, hfeatures⟩ := exists_eq_ok_of_isSome hload
  obtain ⟨records, hrecords, htraced⟩ := repairs_traced_iff Raster.roundTrips
    hfeatures hfeatures Raster.exact none
  refine ⟨features, records, hfeatures, hrecords, ?_⟩
  intro r hr
  rw [htraced r hr]
  refine Or.inr (Or.inr ?_)
  rintro f g (⟨raw, hraw, -, -, hg⟩ | ⟨raw, hraw, -, -, hg⟩) <;>
  · obtain rfl := List.mem_singleton.mp hraw
    obtain ⟨json, hjson, hshape⟩ := hg
    obtain rfl := Option.some.inj hjson
    obtain rfl := Except.ok.inj hshape
    exact Or.inl rfl

/-- A projection that pinches every footprint, so that none stays valid. -/
def Raster.pinching : Shapely Raster Raster :=
  { Raster.shapely with
    transformToMetric := fun g => { g with valid := false } }

theorem Raster.roundTrips_pinching : RoundTrips Raster.pinching :=
  fun _ => rfl

/-- A valid building that reprojection pinches in both snapshots: the footprints
that are measured are repaired, and the record does not say so. -/
theorem pinched_building_not_traced :
    RoundTrips Raster.pinching ∧ ∃ features records,
      loadRaw Raster.pinching [Raster.raw "way/1" (Raster.polygon {(0, 0)})] =
        .ok features ∧
      buildChangeset Raster.pinching Raster.exact features features none =
        .ok records ∧
      ∃ r ∈ records, ¬ Traced Raster.pinching
        [Raster.raw "way/1" (Raster.polygon {(0, 0)})]
        [Raster.raw "way/1" (Raster.polygon {(0, 0)})] features features r := by
  have hrun : (do
      let features ←
        loadRaw Raster.pinching [Raster.raw "way/1" (Raster.polygon {(0, 0)})]
      let records ← buildChangeset Raster.pinching Raster.exact features features none
      pure (features, records) :
        Except PyError (FeatureDict Raster × List ChangeRecord)).toOption.any
      (fun result => result.2.any fun r =>
        r.involvesRepairedGeometry = false ∧
        (result.1.get? "way/1").any (fun f => f.geometry = Raster.region {(0, 0)} ∧
          r.pairMetrics.get? ("way/1", "way/1") =
            some (computeMetrics Raster.pinching f f)) = true) = true := by
    decide +kernel
  obtain ⟨⟨features, records⟩, hresult, hcheck⟩ := exists_eq_ok_of_any hrun
  simp only [bind_eq_ok, pure_eq_ok, Prod.mk.injEq] at hresult
  obtain ⟨a, hload, l, hrecords, rfl, rfl⟩ := hresult
  simp only [List.any_eq_true, decide_eq_true_eq, Option.any_eq_true] at hcheck
  obtain ⟨r, hr, hflag, f, hf, hgeometry, hmetrics⟩ := hcheck
  refine ⟨Raster.roundTrips_pinching, a, l, hload, hrecords, r, hr, ?_⟩
  intro htraced
  have hmeasures : MeasuresRaw Raster.pinching
      [Raster.raw "way/1" (Raster.polygon {(0, 0)})]
      [Raster.raw "way/1" (Raster.polygon {(0, 0)})] a a r f
      (Raster.polygon {(0, 0)}) :=
    Or.inl ⟨_, List.mem_singleton_self _, hf, ⟨_, rfl, rfl⟩, _, f, hf, hmetrics⟩
  have hset := htraced ⟨f, _, hmeasures, by rw [hgeometry]; decide⟩
  rw [hflag] at hset
  cases hset

end VectorMapChanges
