import VectorMapChanges.Matching.Changeset

/-!
# The change layer

The change records of one comparison as a FeatureCollection.  The layer is
stored as JSON and read back by publishing, so that every key is an `Option`;
rendering fills in all of them.

Main facts:
* `exists_renderChangeLayer`: rendering does not raise;
* `renderChangeLayer_view`: the features name what the records do;
* `layerCount_renderChangeLayer`: there are as many of each classification.
-/

namespace VectorMapChanges

open Lib

/-- One entry of `candidates`. -/
structure CandidateEntry where
  osmIdA : Option String
  osmIdB : Option String
  iou : Option ℚ
  iouCentroidAligned : Option ℚ
  centroidShiftM : Option ℚ
  areaRatio : Option ℚ
  hausdorffM : Option ℚ
  attrsChanged : Option (List String)
deriving DecidableEq

/-- The properties of a feature of the change layer. -/
structure ChangeProperties where
  classification : Option String
  matchMethod : Option String
  matchScore : Option ℚ
  classificationReason : Option String
  osmIdsA : Option (List String)
  osmIdsB : Option (List String)
  involvesRepairedGeometry : Option Bool
  touchesAoiBoundary : Option Bool
  algorithmVersion : Option String
  candidates : Option (List CandidateEntry)
deriving DecidableEq

/-- A feature of the change layer. -/
structure ChangeFeature (J : Type) where
  geometry : Option J
  properties : Option ChangeProperties
deriving DecidableEq

/-- A change layer, which is a FeatureCollection. -/
abbrev ChangeLayer (J : Type) := List (ChangeFeature J)

/-- What a change feature says it is and which ids it names. -/
def ChangeFeature.view {J : Type} (feature : ChangeFeature J) :
    Option String × List String × List String :=
  (feature.properties.bind (·.classification),
    (feature.properties.bind (·.osmIdsA)).getD [],
    (feature.properties.bind (·.osmIdsB)).getD [])

/-- How many features of a layer have a classification. -/
def layerCount {J : Type} (layer : ChangeLayer J) (c : Classification) : Nat :=
  layer.countP (fun feature => feature.view.1 = some c.value)

/-- What a change record says it is and which ids it names. -/
def ChangeRecord.view (record : ChangeRecord) :
    Option String × List String × List String :=
  (some record.classification.value, record.osmIdsA, record.osmIdsB)

section Render

variable {G J : Type} (sh : Shapely G J)

/-- The entry of one candidate pair with its metrics. -/
def candidateEntry (item : (String × String) × MatchMetrics) :
    CandidateEntry where
  osmIdA := some item.1.1
  osmIdB := some item.1.2
  iou := some item.2.iou
  iouCentroidAligned := some item.2.iouCentroidAligned
  centroidShiftM := some item.2.centroidShiftM
  areaRatio := some item.2.areaRatio
  hausdorffM := some item.2.hausdorffM
  attrsChanged := some item.2.attrsChanged

/-- `features[oid].geometry` -/
def geometryOf (features : FeatureDict G) (oid : String) : Except PyError G := do
  let feature ← getItem features.toDict oid
  pure feature.geometry

/-- One representative geometry of a record. -/
def recordGeometry (record : ChangeRecord) (featuresA featuresB : FeatureDict G) :
    Except PyError G := do
  let geomsB ← record.osmIdsB.mapM (geometryOf featuresB)
  let geomsA ← (record.osmIdsA.filter (fun _ => record.osmIdsB.isEmpty)).mapM
    (geometryOf featuresA)
  match geomsB ++ geomsA with
  | [geometry] => pure geometry
  | geoms => pure (sh.unaryUnion geoms)

/-- The feature of one record. -/
def renderRecord (featuresA featuresB : FeatureDict G) (record : ChangeRecord) :
    Except PyError (ChangeFeature J) := do
  let geometry ← recordGeometry sh record featuresA featuresB
  let reprojected := toCrs84 sh geometry
  pure
    { geometry := some (sh.mapping reprojected)
      properties := some
        { classification := some record.classification.value
          matchMethod := record.matchMethod.map MatchMethod.value
          matchScore := record.matchScore
          classificationReason := some record.classificationReason
          osmIdsA := some record.osmIdsA
          osmIdsB := some record.osmIdsB
          involvesRepairedGeometry := some record.involvesRepairedGeometry
          touchesAoiBoundary := some record.touchesAoiBoundary
          algorithmVersion := some algorithmVersion
          candidates := some (record.pairMetrics.items.map candidateEntry) } }

/-- The change layer of a list of records. -/
def renderChangeLayer (records : List ChangeRecord)
    (featuresA featuresB : FeatureDict G) : Except PyError (ChangeLayer J) :=
  records.mapM (renderRecord sh featuresA featuresB)

variable {sh} {featuresA featuresB : FeatureDict G}

theorem exists_mapM_geometryOf {features : FeatureDict G} (oids : List String)
    (h : ∀ oid ∈ oids, oid ∈ features.toDict) :
    ∃ geoms, oids.mapM (geometryOf features) = .ok geoms := by
  apply exists_mapM_eq_ok
  intro oid hoid
  obtain ⟨f, hf⟩ := Dict.exists_get?_of_mem (h oid hoid)
  exact ⟨f.geometry, bind_eq_ok.mpr ⟨f, getItem_eq_ok_iff.mpr hf, rfl⟩⟩

/-- A record that names features of the two snapshots is rendered. -/
theorem exists_renderRecord {record : ChangeRecord}
    (hA : ∀ oid ∈ record.osmIdsA, oid ∈ featuresA.toDict)
    (hB : ∀ oid ∈ record.osmIdsB, oid ∈ featuresB.toDict) :
    ∃ feature, renderRecord sh featuresA featuresB record = .ok feature := by
  obtain ⟨geomsB, hgeomsB⟩ := exists_mapM_geometryOf _ hB
  obtain ⟨geomsA, hgeomsA⟩ := exists_mapM_geometryOf
    (record.osmIdsA.filter (fun _ => record.osmIdsB.isEmpty))
    (fun oid hoid => hA oid (List.mem_of_mem_filter hoid))
  have hgeometry : ∃ geometry,
      recordGeometry sh record featuresA featuresB = .ok geometry := by
    simp only [recordGeometry, hgeomsA, hgeomsB, ok_bind]
    split
    · exact ⟨_, rfl⟩
    · exact ⟨_, rfl⟩
  rcases hgeometry with ⟨geometry, hgeometry⟩
  exact ⟨_, bind_eq_ok.mpr ⟨geometry, hgeometry, rfl⟩⟩

/-- The layer of records that name features of the two snapshots. -/
theorem exists_renderChangeLayer (sh : Shapely G J) {records : List ChangeRecord}
    (h : ∀ r ∈ records, (∀ oid ∈ r.osmIdsA, oid ∈ featuresA.toDict) ∧
      ∀ oid ∈ r.osmIdsB, oid ∈ featuresB.toDict) :
    ∃ layer, renderChangeLayer sh records featuresA featuresB = .ok layer :=
  exists_mapM_eq_ok fun r hr => exists_renderRecord (h r hr).1 (h r hr).2

/-- The feature of a record names what the record does. -/
theorem renderRecord_view {record : ChangeRecord} {feature : ChangeFeature J}
    (h : renderRecord sh featuresA featuresB record = .ok feature) :
    feature.view = record.view := by
  obtain ⟨geometry, -, hfeature⟩ := bind_eq_ok.mp h
  rw [← pure_eq_ok.mp hfeature]
  rfl

/-- The features of a change layer name, in order, what the records do. -/
theorem renderChangeLayer_view {records : List ChangeRecord}
    {layer : ChangeLayer J}
    (h : renderChangeLayer sh records featuresA featuresB = .ok layer) :
    layer.map ChangeFeature.view = records.map ChangeRecord.view :=
  map_of_mapM_eq_ok h (fun _ _ _ hfeature => renderRecord_view hfeature)

/-- Every feature of a change layer is that of a record. -/
theorem exists_record_of_mem {records : List ChangeRecord} {layer : ChangeLayer J}
    (h : renderChangeLayer sh records featuresA featuresB = .ok layer)
    {feature : ChangeFeature J} (hfeature : feature ∈ layer) :
    ∃ r ∈ records, renderRecord sh featuresA featuresB r = .ok feature ∧
      feature.view = r.view := by
  obtain ⟨r, hr, hrender⟩ := (mem_iff_of_mapM_eq_ok h).mp hfeature
  exact ⟨r, hr, hrender, renderRecord_view hrender⟩

/-- A layer has as many features of a classification as there are records of
it. -/
theorem layerCount_renderChangeLayer {records : List ChangeRecord}
    {layer : ChangeLayer J}
    (h : renderChangeLayer sh records featuresA featuresB = .ok layer)
    (c : Classification) :
    layerCount layer c = records.countP (fun r => r.classification = c) := by
  have hview : layerCount layer c =
      (layer.map ChangeFeature.view).countP (fun view => view.1 = some c.value) := by
    rw [List.countP_map]
    rfl
  rw [hview, renderChangeLayer_view h, List.countP_map]
  apply List.countP_congr
  intro r _
  simp [ChangeRecord.view, Classification.value_injective.eq_iff]

end Render

end VectorMapChanges
