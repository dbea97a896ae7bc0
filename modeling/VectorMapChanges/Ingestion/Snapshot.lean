import VectorMapChanges.GeoJson
import VectorMapChanges.Ingestion.BuildingCategory
import VectorMapChanges.Ingestion.Validate
import VectorMapChanges.Instants

/-!
# Building a snapshot

The features of a raw response that are valid at the requested instant,
repaired and normalized, with the counts that the metadata row records.

Main facts:
* `isRepaired_eq_isInvalid`: exactly the invalid geometries count as repaired;
* `counts_of_buildSnapshotFromRaw`: the counts are those of the processed
  features.
-/

namespace VectorMapChanges

open Lib

def ingestionSource : String := "openstreetmap-ohsome"
def ingestionLayer : String := "building"
def storageCrs : String := "OGC:CRS84"

/-- The committed area of interest. -/
structure Aoi (J : Type) where
  aoiId : String
  aoiVersion : String
  geometry : J
deriving DecidableEq

/-- A feature of a raw response. -/
structure RawFeature (J : Type) where
  geometry : Option J
  properties : Option (Dict String String)
deriving DecidableEq

/-- A raw response: its features, and its other members as text. -/
structure RawCollection (J : Type) where
  features : List (RawFeature J)
  members : Dict String String
deriving DecidableEq

/-- What ingestion makes of one raw response. -/
structure SnapshotResult (J : Type) where
  source : String
  sourceQueryVersion : String
  layer : String
  aoiId : String
  aoiVersion : String
  requestedTime : Instant
  crs : String
  rawGeojson : RawCollection J
  processedGeojson : ProcessedCollection J
  featureCount : Nat
  invalidGeometryCount : Nat
  repairedGeometryCount : Nat
deriving DecidableEq

/-- `feature.get("properties", {})` -/
def RawFeature.props {J : Type} (feature : RawFeature J) : Dict String String :=
  feature.properties.getD Dict.empty

/-- The id of a raw feature, which is taken for empty where it is missing. -/
def RawFeature.osmId {J : Type} (feature : RawFeature J) : String :=
  (feature.props.get? "@osmId").getD ""

/-- `_parse_osm_id` -/
def parseOsmId (osmId : String) : String × String :=
  partition '/' osmId

/-- `k.startswith("@")` -/
def startsWithAt (k : String) : Bool :=
  k.toList.head? = some '@'

section Snapshot

variable {G J : Type} (sh : Shapely G J)

/-- The versions that are valid at the requested instant. -/
def selectFeaturesValidAt (rawFeatures : List (RawFeature J))
    (requestedTime : Instant) : List (RawFeature J) :=
  let target := formatInstant requestedTime
  rawFeatures.filter
    (fun feature => feature.props.get? "@validFrom" = some target)

/-- Repair one raw feature and normalize its attributes. -/
def normalizeFeature (rawFeature : RawFeature J) :
    Except PyError (ProcessedFeature J) := do
  let props := rawFeature.props
  let osmId := (props.get? "@osmId").getD ""
  let (osmType, osmRef) := parseOsmId osmId
  let geometry ← sh.shape (← required "geometry" rawFeature.geometry)
  let result := validateAndRepair sh geometry
  let buildingTag := props.get? "building"
  let category := categorize buildingTag
  pure
    { geometry := some (sh.mapping result.geometry)
      properties := some
        { osmId := some osmId
          osmType := some osmType
          osmRef := some osmRef
          building := buildingTag
          category := some category
          name := props.get? "name"
          rawTags := props.filterKeys (fun k => !startsWithAt k)
          originalValid := some result.originalValid
          repairMethod := result.repairMethod
          repairedValid := some result.repairedValid
          originalGeometry := some (sh.mapping result.originalGeometry) } }

/-- `not feature["properties"]["original_valid"]` -/
def isInvalid (feature : ProcessedFeature J) : Bool :=
  feature.properties.any (fun props => props.originalValid == some false)

/-- `feature["properties"]["repair_method"] is not None` -/
def isRepaired (feature : ProcessedFeature J) : Bool :=
  feature.properties.any (fun props => props.repairMethod.isSome)

/-- Repair and normalize an already fetched raw response. -/
def buildSnapshotFromRaw (rawGeojson : RawCollection J) (aoi : Aoi J)
    (requestedTime : Instant) (sourceQueryVersion : String) :
    Except PyError (SnapshotResult J) := do
  let featuresAtInstant :=
    selectFeaturesValidAt rawGeojson.features requestedTime
  let processedFeatures ← featuresAtInstant.mapM (normalizeFeature sh)
  pure
    { source := ingestionSource
      sourceQueryVersion := sourceQueryVersion
      layer := ingestionLayer
      aoiId := aoi.aoiId
      aoiVersion := aoi.aoiVersion
      requestedTime := requestedTime
      crs := storageCrs
      rawGeojson := rawGeojson
      processedGeojson := processedFeatures
      featureCount := processedFeatures.length
      invalidGeometryCount := (processedFeatures.filter isInvalid).length
      repairedGeometryCount := (processedFeatures.filter isRepaired).length }

/-- Fetch from upstream, then build; `response` is what the fetch returns. -/
def buildSnapshot (response : Except PyError (RawCollection J)) (aoi : Aoi J)
    (requestedTime : Instant) (sourceQueryVersion : String) :
    Except PyError (SnapshotResult J) := do
  let rawGeojson ← response
  buildSnapshotFromRaw sh rawGeojson aoi requestedTime sourceQueryVersion

variable {sh}

/-- What a normalized feature has: the id of its raw feature, and the
repaired geometry. -/
theorem normalizeFeature_spec {raw : RawFeature J} {feature : ProcessedFeature J}
    (h : normalizeFeature sh raw = .ok feature) :
    ∃ json g props, raw.geometry = some json ∧ sh.shape json = .ok g ∧
      feature.geometry = some (sh.mapping (validateAndRepair sh g).geometry) ∧
      feature.properties = some props ∧ props.osmId = some raw.osmId ∧
      props.osmType.isSome = true ∧ props.originalValid.isSome = true := by
  unfold normalizeFeature at h
  simp only [bind_eq_ok, required_eq_ok_iff, pure_eq_ok] at h
  obtain ⟨json, hjson, g, hg, rfl⟩ := h
  exact ⟨json, g, _, hjson, hg, rfl, rfl, rfl, rfl, rfl⟩

theorem osmId_normalizeFeature {raw : RawFeature J} {feature : ProcessedFeature J}
    (h : normalizeFeature sh raw = .ok feature) :
    feature.properties.bind (·.osmId) = some raw.osmId := by
  obtain ⟨-, -, props, -, -, -, hprops, hosmId, -, -⟩ := normalizeFeature_spec h
  rw [hprops, Option.bind_some, hosmId]

/-- Exactly the invalid geometries count as repaired. -/
theorem isRepaired_eq_isInvalid {rawFeature : RawFeature J}
    {feature : ProcessedFeature J}
    (h : normalizeFeature sh rawFeature = .ok feature) :
    isRepaired feature = isInvalid feature := by
  unfold normalizeFeature at h
  simp only [bind_eq_ok, pure_eq_ok] at h
  rcases h with ⟨geomJson, -, geometry, -, rfl⟩
  have hiff := repairMethod_isSome_iff sh geometry
  rw [Bool.eq_iff_iff]
  simpa [isRepaired, isInvalid] using hiff

/-- What a snapshot holds, given its inputs. -/
theorem buildSnapshotFromRaw_eq_ok_iff {rawGeojson : RawCollection J}
    {aoi : Aoi J} {requestedTime : Instant} {sourceQueryVersion : String}
    {result : SnapshotResult J} :
    buildSnapshotFromRaw sh rawGeojson aoi requestedTime sourceQueryVersion =
        .ok result ↔
      ∃ features,
        (selectFeaturesValidAt rawGeojson.features requestedTime).mapM
          (normalizeFeature sh) = .ok features ∧
        result =
          { source := ingestionSource
            sourceQueryVersion := sourceQueryVersion
            layer := ingestionLayer
            aoiId := aoi.aoiId
            aoiVersion := aoi.aoiVersion
            requestedTime := requestedTime
            crs := storageCrs
            rawGeojson := rawGeojson
            processedGeojson := features
            featureCount := features.length
            invalidGeometryCount := (features.filter isInvalid).length
            repairedGeometryCount := (features.filter isRepaired).length } := by
  unfold buildSnapshotFromRaw
  simp only [bind_eq_ok, pure_eq_ok]
  constructor
  · rintro ⟨features, h, rfl⟩
    exact ⟨features, h, rfl⟩
  · rintro ⟨features, h, rfl⟩
    exact ⟨features, h, rfl⟩

/-- The counts are those of the processed features. -/
theorem counts_of_buildSnapshotFromRaw {rawGeojson : RawCollection J}
    {aoi : Aoi J} {requestedTime : Instant} {sourceQueryVersion : String}
    {result : SnapshotResult J}
    (h : buildSnapshotFromRaw sh rawGeojson aoi requestedTime
      sourceQueryVersion = .ok result) :
    result.featureCount = result.processedGeojson.length ∧
    result.invalidGeometryCount =
      (result.processedGeojson.filter isInvalid).length ∧
    result.repairedGeometryCount =
      (result.processedGeojson.filter isRepaired).length := by
  obtain ⟨features, -, rfl⟩ := buildSnapshotFromRaw_eq_ok_iff.mp h
  exact ⟨rfl, rfl, rfl⟩

end Snapshot

end VectorMapChanges
