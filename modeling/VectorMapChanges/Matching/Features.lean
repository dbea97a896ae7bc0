import VectorMapChanges.GeoJson

/-!
# Configuration and loaded features

The thresholds of the matching pipeline, reprojection, and the representation
that matching works with: features keyed by their own OSM id.  A `FeatureDict`
carries that keying as a field, so that no later stage has to assume it.

Main facts:
* `loadFeatures_eq_ok_iff`: a snapshot loads exactly when every feature does
  and no id occurs twice, and the dictionary then lists the features in order;
* `loadFeatures_perm`: reordering a snapshot only reorders the dictionary.
-/

namespace VectorMapChanges

open Lib

/-- `ALGORITHM_VERSION` -/
def algorithmVersion : String := "v1"

/-- `T_UNCHANGED_IOU`, exactly; the code compares the doubles next to it. -/
def tUnchangedIou : ℚ := 99 / 100

/-- `T_CROSS_ID_MATCH` -/
def tCrossIdMatch : ℚ := 1 / 2

/-- `SIGNIFICANT_TAGS` -/
def significantTags : List String := ["building", "category", "name"]

/-- `AOI_BOUNDARY_DISTANCE_M` -/
def aoiBoundaryDistanceM : ℚ := 1 / 2

section Crs

variable {G J : Type} (sh : Shapely G J)

/-- Reproject into the metric CRS, repairing what reprojection invalidates. -/
def toMetric (geometry : G) : G :=
  let reprojected := sh.transformToMetric geometry
  if sh.isValid reprojected then reprojected else sh.buffer0 reprojected

/-- Reproject back into the storage CRS. -/
def toCrs84 (geometry : G) : G :=
  sh.transformToStorage geometry

end Crs

/-- One feature as matching sees it. -/
structure LoadedFeature (G : Type) where
  osmId : String
  geometry : G
  attrs : Dict String (Option String)
  repaired : Bool
deriving DecidableEq

/-- Features keyed by their own id. -/
structure FeatureDict (G : Type) extends Dict String (LoadedFeature G) where
  keyed : ∀ item ∈ items, item.2.osmId = item.1
deriving DecidableEq

namespace FeatureDict

variable {G : Type}

/-- A dictionary of features is determined by its items. -/
theorem ext_items {d e : FeatureDict G} (h : d.items = e.items) : d = e := by
  rcases d with ⟨⟨items, _⟩, _⟩
  rcases e with ⟨⟨items', _⟩, _⟩
  cases h
  rfl

theorem osmId_of_get? {d : FeatureDict G} {k : String} {f : LoadedFeature G}
    (h : d.get? k = some f) :
    f.osmId = k :=
  d.keyed (k, f) (Dict.get?_eq_some_iff.mp h)

/-- No features. -/
def empty : FeatureDict G where
  toDict := Dict.empty
  keyed := by simp

/-- `d[feature.osm_id] = feature` -/
def put (d : FeatureDict G) (feature : LoadedFeature G) : FeatureDict G where
  toDict := d.toDict.set feature.osmId feature
  keyed := by
    intro item hitem
    rcases Dict.mem_setItems hitem with h | h
    · exact d.keyed item h
    · rw [h]

/-- Features with different ids. -/
def ofFeatures (fs : List (LoadedFeature G)) (h : (fs.map (·.osmId)).Nodup) :
    FeatureDict G where
  items := fs.map (fun f => (f.osmId, f))
  nodupKeys := by
    rw [List.map_map]
    exact h
  keyed := by
    intro item hitem
    obtain ⟨f, -, rfl⟩ := List.mem_map.mp hitem
    rfl

/-- The features whose id satisfies `p`. -/
def filterIds (d : FeatureDict G) (p : String → Bool) : FeatureDict G where
  toDict := d.toDict.filterKeys p
  keyed := by
    intro item hitem
    exact d.keyed item (Dict.mem_items_filterKeys.mp hitem).1

end FeatureDict

section Load

variable {G J : Type} (sh : Shapely G J)

/-- Load one processed feature. -/
def loadFeature (feature : ProcessedFeature J) :
    Except PyError (LoadedFeature G) := do
  let props ← required "properties" feature.properties
  let osmId ← required "osm_id" props.osmId
  let geometry ← sh.shape (← required "geometry" feature.geometry)
  pure
    { osmId := osmId
      geometry := toMetric sh geometry
      attrs := Dict.ofList (significantTags.map (fun tag => (tag, props.get tag)))
      repaired := props.repairMethod.isSome }

/-- Load the next feature of a snapshot; a second copy of an id raises. -/
def loadNext (loaded : FeatureDict G) (rawFeature : ProcessedFeature J) :
    Except PyError (FeatureDict G) := do
  let feature ← loadFeature sh rawFeature
  if feature.osmId ∈ loaded.keys then
    .error (.valueError ("duplicate osm_id in snapshot: " ++ reprStr feature.osmId))
  else
    pure (loaded.put feature)

/-- Load a processed snapshot. -/
def loadFeatures (processedGeojson : ProcessedCollection J) :
    Except PyError (FeatureDict G) :=
  processedGeojson.foldlM (loadNext sh) FeatureDict.empty

variable {sh}

theorem loadNext_eq_ok_iff {loaded d : FeatureDict G}
    {raw : ProcessedFeature J} :
    loadNext sh loaded raw = .ok d ↔
      ∃ f, loadFeature sh raw = .ok f ∧ f.osmId ∉ loaded.keys ∧
        d = loaded.put f := by
  unfold loadNext
  rw [bind_eq_ok]
  apply exists_congr
  intro f
  apply and_congr_right
  intro _
  split_ifs with h
  · simp [h]
  · rw [pure_eq_ok]
    simp [h, eq_comm]

theorem items_put_of_not_mem {d : FeatureDict G} {f : LoadedFeature G}
    (h : f.osmId ∉ d.keys) :
    (d.put f).items = d.items ++ [(f.osmId, f)] :=
  Dict.items_set_of_not_mem h

theorem keys_put_of_not_mem {d : FeatureDict G} {f : LoadedFeature G}
    (h : f.osmId ∉ d.keys) :
    (d.put f).keys = d.keys ++ [f.osmId] := by
  simp [Dict.keys, items_put_of_not_mem h]

/-- Loading continues a dictionary by the features in order, provided that
every feature loads and no id repeats. -/
theorem foldlM_loadNext_eq_ok_iff (raws : List (ProcessedFeature J))
    (loaded d : FeatureDict G) :
    raws.foldlM (loadNext sh) loaded = .ok d ↔
      ∃ fs, raws.mapM (loadFeature sh) = .ok fs ∧
        (loaded.keys ++ fs.map (·.osmId)).Nodup ∧
        d.items = loaded.items ++ fs.map (fun f => (f.osmId, f)) := by
  induction raws generalizing loaded with
  | nil =>
      rw [List.foldlM_nil, List.mapM_nil, pure_eq_ok]
      constructor
      · rintro rfl
        exact ⟨[], rfl, by simpa using loaded.keys_nodup, by simp⟩
      · rintro ⟨fs, hfs, -, hitems⟩
        rw [← pure_eq_ok.mp hfs] at hitems
        exact (FeatureDict.ext_items (by simpa using hitems)).symm
  | cons raw rest ih =>
      rw [List.foldlM_cons, bind_eq_ok]
      constructor
      · rintro ⟨loaded', hnext, hrest⟩
        obtain ⟨f, hf, hnew, rfl⟩ := loadNext_eq_ok_iff.mp hnext
        obtain ⟨fs, hfs, hnodup, hitems⟩ := (ih _).mp hrest
        refine ⟨f :: fs, ?_, ?_, ?_⟩
        · rw [mapM_eq_ok_iff] at hfs ⊢
          exact List.Forall₂.cons hf hfs
        · rw [keys_put_of_not_mem hnew] at hnodup
          simpa using hnodup
        · rw [hitems, items_put_of_not_mem hnew]
          simp
      · rintro ⟨fs, hfs, hnodup, hitems⟩
        rw [mapM_eq_ok_iff] at hfs
        cases hfs with
        | @cons _ f _ fs hf hfs =>
            have hnew : f.osmId ∉ loaded.keys := by
              intro hmem
              rw [List.nodup_append] at hnodup
              exact hnodup.2.2 _ hmem _ (by simp) rfl
            refine ⟨loaded.put f,
              loadNext_eq_ok_iff.mpr ⟨f, hf, hnew, rfl⟩, ?_⟩
            refine (ih _).mpr ⟨fs, mapM_eq_ok_iff.mpr hfs, ?_, ?_⟩
            · rw [keys_put_of_not_mem hnew]
              simpa using hnodup
            · rw [hitems, items_put_of_not_mem hnew]
              simp

/-- A snapshot loads exactly when every feature does and no id occurs twice;
the dictionary lists the features in the order of the snapshot. -/
theorem loadFeatures_eq_ok_iff {raws : ProcessedCollection J}
    {d : FeatureDict G} :
    loadFeatures sh raws = .ok d ↔
      ∃ fs, raws.mapM (loadFeature sh) = .ok fs ∧
        (fs.map (·.osmId)).Nodup ∧
        d.items = fs.map (fun f => (f.osmId, f)) := by
  unfold loadFeatures
  rw [foldlM_loadNext_eq_ok_iff]
  simp [FeatureDict.empty, Dict.keys]

/-- A snapshot loads as many features as it has. -/
theorem length_keys_of_loadFeatures {raws : ProcessedCollection J}
    {d : FeatureDict G} (h : loadFeatures sh raws = .ok d) :
    d.keys.length = raws.length := by
  obtain ⟨fs, hfs, -, hitems⟩ := loadFeatures_eq_ok_iff.mp h
  rw [Dict.keys, hitems, List.length_map, List.length_map]
  exact (mapM_eq_ok_iff.mp hfs).length_eq.symm

/-- The ids of a loaded feature and of the processed feature. -/
theorem loadFeature_osmId {feature : ProcessedFeature J} {f : LoadedFeature G}
    (h : loadFeature sh feature = .ok f) :
    some f.osmId = feature.properties.bind (·.osmId) := by
  unfold loadFeature at h
  obtain ⟨props, hprops, h⟩ := bind_eq_ok.mp h
  obtain ⟨osmId, hosmId, h⟩ := bind_eq_ok.mp h
  obtain ⟨geomJson, -, h⟩ := bind_eq_ok.mp h
  obtain ⟨geometry, -, h⟩ := bind_eq_ok.mp h
  rw [required_eq_ok_iff] at hprops hosmId
  rw [← pure_eq_ok.mp h, hprops, Option.bind_some, hosmId]

/-- Features that load and have different ids make a snapshot that loads. -/
theorem exists_loadFeatures {raws : ProcessedCollection J}
    (hload : ∀ raw ∈ raws, ∃ f, loadFeature sh raw = .ok f)
    (hnodup : (raws.map (fun f => f.properties.bind (·.osmId))).Nodup) :
    ∃ d, loadFeatures sh raws = .ok d := by
  obtain ⟨fs, hfs⟩ := exists_mapM_eq_ok hload
  have hids : (fs.map (·.osmId)).map some =
      raws.map (fun f => f.properties.bind (·.osmId)) := by
    rw [List.map_map]
    exact map_of_mapM_eq_ok hfs (fun _ _ _ h => loadFeature_osmId h)
  rw [← hids, List.nodup_map_iff (Option.some_injective String)] at hnodup
  exact ⟨FeatureDict.ofFeatures fs hnodup,
    loadFeatures_eq_ok_iff.mpr ⟨fs, hfs, hnodup, rfl⟩⟩

theorem mapM_loadFeature_perm {raws raws' : ProcessedCollection J}
    (hperm : raws.Perm raws') {fs : List (LoadedFeature G)}
    (h : raws.mapM (loadFeature sh) = .ok fs) :
    ∃ fs', raws'.mapM (loadFeature sh) = .ok fs' ∧ fs.Perm fs' := by
  rw [mapM_eq_ok_iff] at h
  obtain ⟨fs', hfs', hfperm⟩ :=
    List.perm_comp_forall₂ hperm.symm h
  exact ⟨fs', mapM_eq_ok_iff.mpr hfs', hfperm.symm⟩

/-- Reordering a snapshot only reorders the dictionary loaded from it. -/
theorem loadFeatures_perm {raws raws' : ProcessedCollection J}
    (hperm : raws.Perm raws') {d : FeatureDict G}
    (h : loadFeatures sh raws = .ok d) :
    ∃ d', loadFeatures sh raws' = .ok d' ∧ d.items.Perm d'.items := by
  obtain ⟨fs, hfs, hnodup, hitems⟩ := loadFeatures_eq_ok_iff.mp h
  obtain ⟨fs', hfs', hfperm⟩ := mapM_loadFeature_perm hperm hfs
  have hnodup' : (fs'.map (·.osmId)).Nodup :=
    ((hfperm.map _).nodup_iff).mp hnodup
  refine ⟨FeatureDict.ofFeatures fs' hnodup',
    loadFeatures_eq_ok_iff.mpr ⟨fs', hfs', hnodup', rfl⟩, ?_⟩
  rw [hitems]
  exact hfperm.map _

end Load

end VectorMapChanges
