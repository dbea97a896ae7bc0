import VectorMapChanges.Matching.Pipeline
import VectorMapChanges.Publish.Postgis

/-!
# Polygonal features

Publishing stages features with polygonal geometry only.  What shapely and
PostGIS do with the types of polygonal geometries is stated here, and with it
what the staging rows need is what the serving tables take.

Main facts:
* `exists_snapshotFeatureRow_iff`, `exists_changeFeatureRow_iff`: a feature is
  staged exactly when it is complete and polygonal;
* `exists_publishSnapshotFeatures_iff`: a snapshot can be published exactly when
  its features can be staged and no id occurs twice;
* `changeStageable_of_renderRecord`: the records of polygonal features are
  polygonal.
-/

namespace VectorMapChanges

open Lib

section Assumptions

variable {G J : Type}

/-- How shapely types the results on polygonal geometries, and that reading back
what `mapping` wrote keeps the type. -/
structure KeepsPolygons (sh : Shapely G J) : Prop where
  mapping : ∀ g, ∃ g', sh.shape (sh.mapping g) = .ok g' ∧
    sh.geomType g' = sh.geomType g
  transformToMetric : ∀ g, sh.geomType (sh.transformToMetric g) = sh.geomType g
  transformToStorage : ∀ g,
    sh.geomType (sh.transformToStorage g) = sh.geomType g
  buffer0 : ∀ g, (sh.geomType g).isPolygonal = true →
    (sh.geomType (sh.buffer0 g)).isPolygonal = true
  unaryUnion : ∀ gs, gs ≠ [] →
    (∀ g ∈ gs, (sh.geomType g).isPolygonal = true) →
    (sh.geomType (sh.unaryUnion gs)).isPolygonal = true
  multiPolygon : ∀ g, sh.geomType g = .polygon →
    sh.geomType (sh.multiPolygon g) = .multiPolygon

/-- How PostGIS types the results on MultiPolygons.  The area of interest is
inside the domain of the projection. -/
structure ServesPolygons (sh : Shapely G J) (pg : PostGis G) : Prop where
  transform3857 : ∀ g, sh.geomType g = .multiPolygon →
    ∃ g', pg.transform3857 g = .ok g' ∧ sh.geomType g' = .multiPolygon
  multiUnion : ∀ gs, gs ≠ [] → (∀ g ∈ gs, sh.geomType g = .multiPolygon) →
    sh.geomType (pg.multi (pg.union gs)) = .multiPolygon

/-- The object reads as a polygonal geometry. -/
def PolygonalJson (sh : Shapely G J) (json : J) : Prop :=
  ∃ g, sh.shape json = .ok g ∧ (sh.geomType g).isPolygonal = true

/-- The feature has every key that publishing requires, and a polygonal
geometry. -/
def Stageable (sh : Shapely G J) (feature : ProcessedFeature J) : Prop :=
  ∃ props, feature.properties = some props ∧ props.osmId.isSome = true ∧
    props.osmType.isSome = true ∧ props.originalValid.isSome = true ∧
    ∃ json, feature.geometry = some json ∧ PolygonalJson sh json

/-- The change feature has every key that publishing requires, and a polygonal
geometry. -/
def ChangeStageable (sh : Shapely G J) (feature : ChangeFeature J) : Prop :=
  ∃ props, feature.properties = some props ∧
    props.classification.isSome = true ∧
    props.classificationReason.isSome = true ∧
    props.involvesRepairedGeometry.isSome = true ∧
    props.touchesAoiBoundary.isSome = true ∧
    ∃ json, feature.geometry = some json ∧ PolygonalJson sh json

end Assumptions

section Staging

variable {G J : Type} {sh : Shapely G J} {pg : PostGis G}

theorem exists_asMultipolygon_iff {g : G} :
    (∃ g', asMultipolygon sh g = .ok g') ↔
      (sh.geomType g).isPolygonal = true := by
  unfold asMultipolygon
  cases sh.geomType g <;> simp [GeomType.isPolygonal]

theorem geomType_asMultipolygon (hkeep : KeepsPolygons sh) {g g' : G}
    (h : asMultipolygon sh g = .ok g') :
    sh.geomType g' = .multiPolygon := by
  unfold asMultipolygon at h
  split at h
  · rename_i htype
    cases h
    exact htype
  · rename_i htype
    cases h
    exact hkeep.multiPolygon g htype
  · cases h

/-- A geometry is staged when it is polygonal. -/
theorem exists_geomHex_iff {json : J} :
    (∃ hex, geomHex sh json = .ok hex) ↔ PolygonalJson sh json := by
  unfold geomHex PolygonalJson
  simp only [bind_eq_ok]
  constructor
  · rintro ⟨hex, g, hg, hhex⟩
    exact ⟨g, hg, exists_asMultipolygon_iff.mp ⟨hex, hhex⟩⟩
  · rintro ⟨g, hg, hpoly⟩
    obtain ⟨hex, hhex⟩ := exists_asMultipolygon_iff.mpr hpoly
    exact ⟨hex, g, hg, hhex⟩

theorem geomType_geomHex (hkeep : KeepsPolygons sh) {json : J} {hex : G}
    (h : geomHex sh json = .ok hex) :
    sh.geomType hex = .multiPolygon := by
  obtain ⟨g, -, hhex⟩ := bind_eq_ok.mp h
  exact geomType_asMultipolygon hkeep hhex

/-- What `mapping` writes reads as polygonal exactly when it is. -/
theorem polygonalJson_mapping_iff (hkeep : KeepsPolygons sh) {g : G} :
    PolygonalJson sh (sh.mapping g) ↔ (sh.geomType g).isPolygonal = true := by
  obtain ⟨g', hshape, htype⟩ := hkeep.mapping g
  constructor
  · rintro ⟨g'', hshape', hpoly⟩
    obtain rfl := Except.ok.inj (hshape.symm.trans hshape')
    rwa [← htype]
  · intro hpoly
    exact ⟨g', hshape, by rwa [htype]⟩

/-- A feature is staged exactly when it is complete and polygonal. -/
theorem exists_snapshotFeatureRow_iff {feature : ProcessedFeature J} :
    (∃ staged, snapshotFeatureRow sh feature = .ok staged) ↔
      Stageable sh feature := by
  constructor
  · rintro ⟨staged, h⟩
    obtain ⟨props, hprops, osmId, hosmId, osmType, hosmType, originalValid,
      hvalid, json, hjson, hex, hhex, -⟩ := snapshotFeatureRow_eq_ok_iff.mp h
    exact ⟨props, hprops, by rw [hosmId]; rfl, by rw [hosmType]; rfl,
      by rw [hvalid]; rfl, json, hjson, exists_geomHex_iff.mp ⟨hex, hhex⟩⟩
  · rintro ⟨props, hprops, hosmId, hosmType, hvalid, json, hjson, hpoly⟩
    obtain ⟨osmId, hosmId⟩ := Option.isSome_iff_exists.mp hosmId
    obtain ⟨osmType, hosmType⟩ := Option.isSome_iff_exists.mp hosmType
    obtain ⟨originalValid, hvalid⟩ := Option.isSome_iff_exists.mp hvalid
    obtain ⟨hex, hhex⟩ := exists_geomHex_iff.mpr hpoly
    exact ⟨_, snapshotFeatureRow_eq_ok_iff.mpr ⟨props, hprops, osmId, hosmId,
      osmType, hosmType, originalValid, hvalid, json, hjson, hex, hhex, rfl⟩⟩

/-- A change feature is staged exactly when it is complete and polygonal. -/
theorem exists_changeFeatureRow_iff {feature : ChangeFeature J} :
    (∃ staged, changeFeatureRow sh feature = .ok staged) ↔
      ChangeStageable sh feature := by
  constructor
  · rintro ⟨staged, h⟩
    obtain ⟨props, hprops, classification, hclass, reason, hreason, repaired,
      hrepaired, touches, htouches, json, hjson, hex, hhex, -⟩ :=
      changeFeatureRow_eq_ok_iff.mp h
    exact ⟨props, hprops, by rw [hclass]; rfl, by rw [hreason]; rfl,
      by rw [hrepaired]; rfl, by rw [htouches]; rfl, json, hjson,
      exists_geomHex_iff.mp ⟨hex, hhex⟩⟩
  · rintro ⟨props, hprops, hclass, hreason, hrepaired, htouches, json, hjson,
      hpoly⟩
    obtain ⟨classification, hclass⟩ := Option.isSome_iff_exists.mp hclass
    obtain ⟨reason, hreason⟩ := Option.isSome_iff_exists.mp hreason
    obtain ⟨repaired, hrepaired⟩ := Option.isSome_iff_exists.mp hrepaired
    obtain ⟨touches, htouches⟩ := Option.isSome_iff_exists.mp htouches
    obtain ⟨hex, hhex⟩ := exists_geomHex_iff.mpr hpoly
    exact ⟨_, changeFeatureRow_eq_ok_iff.mpr ⟨props, hprops, classification,
      hclass, reason, hreason, repaired, hrepaired, touches, htouches, json,
      hjson, hex, hhex, rfl⟩⟩

theorem multiPolygonColumn_of_geomType {column : String} {g : G}
    (h : sh.geomType g = .multiPolygon) :
    multiPolygonColumn sh column g = .ok g := by
  rw [multiPolygonColumn, if_pos h]

/-- A staged feature fits the columns of its table. -/
theorem exists_selectSnapshotFeature (hkeep : KeepsPolygons sh)
    (hserve : ServesPolygons sh pg) {feature : ProcessedFeature J}
    {staged : StagedSnapshotFeature G} (snapshotId : Nat)
    (h : snapshotFeatureRow sh feature = .ok staged) :
    ∃ row, selectSnapshotFeature sh pg snapshotId staged = .ok row := by
  have htype : sh.geomType staged.geomHex = .multiPolygon := by
    obtain ⟨-, -, -, -, -, -, -, -, json, -, hex, hhex, rfl⟩ :=
      snapshotFeatureRow_eq_ok_iff.mp h
    exact geomType_geomHex hkeep hhex
  obtain ⟨projected, hprojected, hptype⟩ := hserve.transform3857 _ htype
  exact ⟨_, selectSnapshotFeature_eq_ok_iff.mpr ⟨staged.geomHex,
    multiPolygonColumn_of_geomType htype, projected, hprojected, projected,
    multiPolygonColumn_of_geomType hptype, rfl⟩⟩

/-- The rows of a snapshot have different keys exactly when its features have
different ids. -/
theorem nodup_naturalKey_iff {processed : ProcessedCollection J}
    {staged : List (StagedSnapshotFeature G)}
    {rows : List (SnapshotFeatureRow G)} {snapshotId : Nat}
    (hstaged : snapshotFeatureRows sh processed = .ok staged)
    (hrows : staged.mapM (selectSnapshotFeature sh pg snapshotId) = .ok rows) :
    (rows.map SnapshotFeatureRow.naturalKey).Nodup ↔
      (processed.map (fun f => f.properties.bind (·.osmId))).Nodup := by
  have hinj : Function.Injective (fun osmId : String => (snapshotId, osmId)) :=
    fun a b h => (Prod.mk.inj h).2
  have hkeys : rows.map SnapshotFeatureRow.naturalKey =
      (staged.map (·.osmId)).map (fun osmId => (snapshotId, osmId)) := by
    rw [List.map_map]
    exact map_of_mapM_eq_ok hrows
      (fun _ _ _ h => Prod.ext (selectSnapshotFeature_key h).1
        (selectSnapshotFeature_key h).2)
  have hids : (staged.map (·.osmId)).map some =
      processed.map (fun f => f.properties.bind (·.osmId)) := by
    rw [List.map_map]
    exact map_of_mapM_eq_ok hstaged (fun _ _ _ h => snapshotFeatureRow_osmId h)
  rw [hkeys, List.nodup_map_iff hinj, ← hids,
    List.nodup_map_iff (Option.some_injective String)]

/-- A snapshot can be published exactly when its features can be staged and no
id occurs twice. -/
theorem exists_publishSnapshotFeatures_iff (hkeep : KeepsPolygons sh)
    (hserve : ServesPolygons sh pg) {db : Database G} {snapshotId : Nat}
    {processed : ProcessedCollection J} (hid : db.snapshots.HasId snapshotId) :
    (∃ result, publishSnapshotFeatures sh pg db snapshotId processed =
        .ok result) ↔
      (∀ feature ∈ processed, Stageable sh feature) ∧
      (processed.map (fun f => f.properties.bind (·.osmId))).Nodup := by
  constructor
  · rintro ⟨⟨written, db'⟩, h⟩
    obtain ⟨staged, rows, table, hstaged, hrows, -, htable, -, -⟩ :=
      publishSnapshotFeatures_eq_ok_iff.mp h
    constructor
    · intro feature hfeature
      obtain ⟨s, -, hs⟩ := step_of_mapM_eq_ok hstaged hfeature
      exact exists_snapshotFeatureRow_iff.mp ⟨s, hs⟩
    · exact (nodup_naturalKey_iff hstaged hrows).mp
        (KeyedTable.exists_insertAll_iff.mp ⟨table, htable⟩).1
  · rintro ⟨hstage, hnodup⟩
    obtain ⟨staged, hstaged⟩ := exists_mapM_eq_ok
      (fun feature hfeature => exists_snapshotFeatureRow_iff.mpr
        (hstage feature hfeature))
    have hselect : ∀ s ∈ staged,
        ∃ row, selectSnapshotFeature sh pg snapshotId s = .ok row := by
      intro s hs
      obtain ⟨feature, -, hf⟩ := (mem_iff_of_mapM_eq_ok hstaged).mp hs
      exact exists_selectSnapshotFeature hkeep hserve snapshotId hf
    obtain ⟨rows, hrows⟩ := exists_mapM_eq_ok hselect
    have hfresh : ∀ row ∈ rows,
        (db.snapshotFeatures.deleteWhere
          (fun row => row.snapshotId = snapshotId)).get? row.naturalKey =
            none := by
      intro row hrow
      obtain ⟨s, -, hs⟩ := (mem_iff_of_mapM_eq_ok hrows).mp hrow
      rw [KeyedTable.get?_eq_none_iff_values]
      intro other hother hkey
      rw [KeyedTable.deleteWhere, SerialTable.values_deleteWhere,
        List.mem_filter] at hother
      have hsame : other.snapshotId = snapshotId :=
        (Prod.mk.inj hkey).1.trans (selectSnapshotFeature_key hs).1
      simp [hsame] at hother
    obtain ⟨table, htable⟩ := KeyedTable.exists_insertAll_iff.mpr
      ⟨(nodup_naturalKey_iff hstaged hrows).mpr hnodup, hfresh⟩
    exact ⟨_, publishSnapshotFeatures_eq_ok_iff.mpr ⟨staged, rows, table, hstaged,
      hrows, Or.inr hid, htable, rfl, rfl⟩⟩

end Staging

section Rendering

variable {G J : Type} {sh : Shapely G J}

/-- The features are polygonal. -/
def PolygonalFeatures (sh : Shapely G J) (features : FeatureDict G) : Prop :=
  ∀ osmId f, features.get? osmId = some f →
    (sh.geomType f.geometry).isPolygonal = true

theorem isPolygonal_toMetric (hkeep : KeepsPolygons sh) {g : G}
    (h : (sh.geomType g).isPolygonal = true) :
    (sh.geomType (toMetric sh g)).isPolygonal = true := by
  have hreprojected :
      (sh.geomType (sh.transformToMetric g)).isPolygonal = true := by
    rwa [hkeep.transformToMetric]
  unfold toMetric
  by_cases hvalid : sh.isValid (sh.transformToMetric g) = true
  · rwa [if_pos hvalid]
  · rw [if_neg hvalid]
    exact hkeep.buffer0 _ hreprojected

/-- Features that can be published are polygonal once they are loaded. -/
theorem polygonalFeatures_of_loadFeatures (hkeep : KeepsPolygons sh)
    {processed : ProcessedCollection J} {features : FeatureDict G}
    (hstage : ∀ feature ∈ processed, Stageable sh feature)
    (h : loadFeatures sh processed = .ok features) :
    PolygonalFeatures sh features := by
  obtain ⟨fs, hfs, -, hitems⟩ := loadFeatures_eq_ok_iff.mp h
  intro osmId f hf
  rw [Dict.get?_eq_some_iff, hitems] at hf
  obtain ⟨f', hf', heq⟩ := List.mem_map.mp hf
  obtain ⟨-, rfl⟩ := Prod.mk.inj heq
  obtain ⟨feature, hfeature, hload⟩ := (mem_iff_of_mapM_eq_ok hfs).mp hf'
  obtain ⟨props, -, -, -, -, json, hjson, g, hg, hpoly⟩ := hstage feature hfeature
  unfold loadFeature at hload
  simp only [bind_eq_ok, required_eq_ok_iff, pure_eq_ok] at hload
  obtain ⟨props', -, osmId', -, json', hjson', g', hg', rfl⟩ := hload
  obtain rfl := Option.some.inj (hjson.symm.trans hjson')
  obtain rfl := Except.ok.inj (hg.symm.trans hg')
  exact isPolygonal_toMetric hkeep hpoly

theorem isPolygonal_of_mapM_geometryOf {features : FeatureDict G}
    (hpoly : PolygonalFeatures sh features) {oids : List String} {geoms : List G}
    (h : oids.mapM (geometryOf features) = .ok geoms) :
    ∀ g ∈ geoms, (sh.geomType g).isPolygonal = true := by
  intro g hg
  obtain ⟨oid, -, hget⟩ := (mem_iff_of_mapM_eq_ok h).mp hg
  obtain ⟨f, hf, heq⟩ := bind_eq_ok.mp hget
  rw [← pure_eq_ok.mp heq]
  exact hpoly oid f (getItem_eq_ok_iff.mp hf)

/-- The geometry of a record is polygonal if the features are. -/
theorem isPolygonal_recordGeometry (hkeep : KeepsPolygons sh)
    {featuresA featuresB : FeatureDict G} {record : ChangeRecord} {geometry : G}
    (hA : PolygonalFeatures sh featuresA) (hB : PolygonalFeatures sh featuresB)
    (hnamed : record.osmIdsA ≠ [] ∨ record.osmIdsB ≠ [])
    (h : recordGeometry sh record featuresA featuresB = .ok geometry) :
    (sh.geomType geometry).isPolygonal = true := by
  obtain ⟨geomsB, hgeomsB, h⟩ := bind_eq_ok.mp h
  obtain ⟨geomsA, hgeomsA, h⟩ := bind_eq_ok.mp h
  have hall : ∀ g ∈ geomsB ++ geomsA, (sh.geomType g).isPolygonal = true := by
    intro g hg
    rcases List.mem_append.mp hg with hg | hg
    · exact isPolygonal_of_mapM_geometryOf hB hgeomsB g hg
    · exact isPolygonal_of_mapM_geometryOf hA hgeomsA g hg
  have hne : geomsB ++ geomsA ≠ [] := by
    intro hnil
    obtain ⟨rfl, rfl⟩ := List.append_eq_nil_iff.mp hnil
    have hlenB := (mapM_eq_ok_iff.mp hgeomsB).length_eq
    have hlenA := (mapM_eq_ok_iff.mp hgeomsA).length_eq
    have hB : record.osmIdsB = [] := List.length_eq_zero_iff.mp hlenB
    rw [hB] at hlenA
    have hA : record.osmIdsA = [] := by
      simpa using hlenA
    rcases hnamed with h | h
    · exact h hA
    · exact h hB
  split at h
  · rename_i g heq
    rw [← pure_eq_ok.mp h]
    exact hall g (by rw [heq]; simp)
  · rw [← pure_eq_ok.mp h]
    exact hkeep.unaryUnion _ hne hall

/-- A record of polygonal features is rendered as a feature that can be
staged. -/
theorem changeStageable_of_renderRecord (hkeep : KeepsPolygons sh)
    {featuresA featuresB : FeatureDict G} {record : ChangeRecord}
    {feature : ChangeFeature J}
    (hA : PolygonalFeatures sh featuresA) (hB : PolygonalFeatures sh featuresB)
    (hnamed : record.osmIdsA ≠ [] ∨ record.osmIdsB ≠ [])
    (h : renderRecord sh featuresA featuresB record = .ok feature) :
    ChangeStageable sh feature := by
  obtain ⟨geometry, hgeometry, h⟩ := bind_eq_ok.mp h
  rw [← pure_eq_ok.mp h]
  refine ⟨_, rfl, rfl, rfl, rfl, rfl, _, rfl, ?_⟩
  rw [polygonalJson_mapping_iff hkeep, toCrs84, hkeep.transformToStorage]
  exact isPolygonal_recordGeometry hkeep hA hB hnamed hgeometry

end Rendering

end VectorMapChanges
