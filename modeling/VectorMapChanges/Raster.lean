import VectorMapChanges.Ingestion.Snapshot
import VectorMapChanges.Db.Metadata
import VectorMapChanges.Matching.Pipeline
import VectorMapChanges.Publish.Polygonal
import Mathlib.Algebra.BigOperators.Group.Finset.Basic
import Mathlib.Algebra.Order.Field.Rat
import Mathlib.Data.Finset.Card
import Mathlib.Data.Rat.Floor

/-!
# A raster geometry

A concrete instance of the geometry interface, in which every assumption the
results make holds: footprints are finite sets of unit squares, and area counts
squares.  Polygons without squares are degenerate footprints, which `makeValid`
reduces to lines.  Shifts are by whole squares.
-/

namespace VectorMapChanges

open Lib

/-- A set of unit squares, or a point. -/
structure Raster where
  kind : GeomType
  valid : Bool
  squares : Finset (ℤ × ℤ)
  coords : ℚ × ℚ
deriving DecidableEq

namespace Raster

/-- A valid polygon made of the given squares. -/
def polygon (squares : Finset (ℤ × ℤ)) : Raster where
  kind := .polygon
  valid := true
  squares := squares
  coords := (0, 0)

/-- An invalid polygon whose ring encloses nothing. -/
def collapsed : Raster where
  kind := .polygon
  valid := false
  squares := ∅
  coords := (0, 0)

/-- A valid collection of the given squares and of lines, as clipping may leave
it. -/
def clipped (squares : Finset (ℤ × ℤ)) : Raster where
  kind := .geometryCollection
  valid := true
  squares := squares
  coords := (0, 0)

/-- The areal geometry with the given squares. -/
def region (squares : Finset (ℤ × ℤ)) : Raster where
  kind := .multiPolygon
  valid := true
  squares := squares
  coords := (0, 0)

/-- The mean position of the squares along one axis. -/
def mean (g : Raster) (axis : ℤ × ℤ → ℤ) : ℚ :=
  (g.squares.sum (fun p => (axis p : ℚ))) / g.squares.card + 1 / 2

/-- The geometry interface over squares. -/
def shapely : Shapely Raster Raster where
  geomType g := g.kind
  geoms g := if g.squares = ∅ then [] else [region g.squares]
  isValid g := g.valid
  makeValid g :=
    { g with
      valid := true
      kind := if g.squares = ∅ then .lineString else g.kind }
  buffer0 g := region g.squares
  unaryUnion gs := region (gs.foldr (fun g acc => g.squares ∪ acc) ∅)
  multiPolygon g := { g with kind := .multiPolygon }
  boundary g := { g with kind := .multiLineString, squares := ∅ }
  shape g := .ok g
  mapping g := g
  transformToMetric g := g
  transformToStorage g := g
  intersects g h := decide (g.squares ∩ h.squares ≠ ∅)
  intersection g h := region (g.squares ∩ h.squares)
  union g h := region (g.squares ∪ h.squares)
  area g := g.squares.card
  centroid g :=
    { kind := .point
      valid := true
      squares := ∅
      coords := (g.mean Prod.fst, g.mean Prod.snd) }
  x g := g.coords.1
  y g := g.coords.2
  translate g dx dy :=
    { g with squares := g.squares.image (fun p => (p.1 + ⌊dx⌋, p.2 + ⌊dy⌋)) }
  distance g h := max |g.coords.1 - h.coords.1| |g.coords.2 - h.coords.2|
  hausdorffDistance g h := if g.squares = h.squares then 0 else 1

/-- A process that tests every pair of geometries and walks sets in the order of
the additions. -/
def exact : Runtime Raster :=
  Runtime.bruteForce shapely .insertion

theorem exactIndex : ExactIndex shapely exact :=
  exactIndex_bruteForce shapely .insertion

theorem exactQuery : ExactQuery shapely exact :=
  exactQuery_bruteForce shapely .insertion

/-- A building without significant tags. -/
def building (osmId : String) (squares : Finset (ℤ × ℤ)) :
    LoadedFeature Raster where
  osmId := osmId
  geometry := polygon squares
  attrs := Dict.empty
  repaired := false

/-- The dictionary of the listed buildings. -/
def snapshot (buildings : List (LoadedFeature Raster)) : FeatureDict Raster :=
  buildings.foldl FeatureDict.put FeatureDict.empty

/-- A building before it is split. -/
def undivided : FeatureDict Raster :=
  snapshot [building "way/1" {(0, 0), (1, 0)}]

/-- The two buildings that are mapped in its place. -/
def divided : FeatureDict Raster :=
  snapshot [building "way/2" {(0, 0)}, building "way/3" {(1, 0)}]

/-- The processed feature of a building that needed no repair. -/
def processed (osmId : String) (squares : Finset (ℤ × ℤ)) :
    ProcessedFeature Raster where
  geometry := some (polygon squares)
  properties := some
    { osmId := some osmId
      osmType := some "way"
      osmRef := some "1"
      building := some "yes"
      category := some "unspecified"
      name := none
      rawTags := Dict.empty
      originalValid := some true
      repairMethod := none
      repairedValid := some true
      originalGeometry := some (polygon squares) }

/-- The reference to a snapshot with the given id. -/
def ref (id : Nat) : SnapshotRef where
  id := id
  source := "openstreetmap-ohsome"
  layer := "building"
  aoiId := "tel-aviv-yafo"
  aoiVersion := "v1"
  sourceQueryVersion := "v2"
  requestedTime := ⟨2026, 7, 1, 0, 0, 0⟩

/-- The instant of the sample snapshots. -/
def instant : Instant :=
  ⟨2026, 7, 1, 0, 0, 0⟩

/-- A raw feature that is valid at the instant of the samples. -/
def raw (osmId : String) (geometry : Raster) : RawFeature Raster where
  geometry := some geometry
  properties := some (Dict.ofList
    [("@osmId", osmId), ("@validFrom", "2026-07-01T00:00:00Z"),
      ("building", "yes")])

/-- The committed area of the samples. -/
def aoi : Aoi Raster where
  aoiId := "tel-aviv-yafo"
  aoiVersion := "v1"
  geometry := polygon {(0, 0)}

/-- PostGIS over squares. -/
def postgis : PostGis Raster where
  union gs := region (gs.foldr (fun g acc => g.squares ∪ acc) ∅)
  multi g := { g with kind := .multiPolygon }
  transform3857 := .ok

/-- A feature of a change layer. -/
def change (classification : Classification) (osmIdsA osmIdsB : List String)
    (geometry : Raster) : ChangeFeature Raster where
  geometry := some geometry
  properties := some
    { classification := some classification.value
      matchMethod := none
      matchScore := none
      classificationReason := some "sample"
      osmIdsA := some osmIdsA
      osmIdsB := some osmIdsB
      involvesRepairedGeometry := some false
      touchesAoiBoundary := some false
      algorithmVersion := some algorithmVersion
      candidates := none }

/-- A metadata row for the given instant. -/
def snapshotRow (requestedTime : Instant) : SnapshotRow where
  source := "openstreetmap-ohsome"
  sourceQueryVersion := "v2"
  layer := "building"
  aoiId := "tel-aviv-yafo"
  aoiVersion := "v1"
  requestedTime := requestedTime
  crs := "OGC:CRS84"
  rawObjectUri := "s3://gis-vector-map-changes/snapshots/raw.geojson"
  processedObjectUri := "s3://gis-vector-map-changes/snapshots/processed.geojson"
  featureCount := 0
  invalidGeometryCount := 0
  repairedGeometryCount := 0

/-- A metadata row for the comparison of the first two snapshots. -/
def changesetRow : ChangesetRow where
  snapshotAId := 1
  snapshotBId := 2
  algorithmVersion := algorithmVersion
  changeLayerObjectUri :=
    "s3://gis-vector-map-changes/changesets/change_layer.geojson"
  unchangedCount := 0
  modifiedGeometryCount := 0
  modifiedAttributesCount := 0
  modifiedGeometryAndAttributesCount := 0
  addedCount := 0
  removedCount := 0
  ambiguousCount := 0

/-- The database with the metadata of two snapshots and their changeset, each
under the first ids of its table. -/
def database : Database Raster where
  snapshots :=
    (upsertReturning (upsertReturning .empty
      (snapshotRow ⟨2026, 6, 1, 0, 0, 0⟩)).2
      (snapshotRow ⟨2026, 7, 1, 0, 0, 0⟩)).2
  changesets := (upsertReturning .empty changesetRow).2
  snapshotFeatures := .empty
  changeFeatures := .empty

@[simp] theorem area_intersection (g h : Raster) :
    shapely.area (shapely.intersection g h) =
      ((g.squares ∩ h.squares).card : ℚ) := by
  rfl

@[simp] theorem area_union (g h : Raster) :
    shapely.area (shapely.union g h) = ((g.squares ∪ h.squares).card : ℚ) := by
  rfl

theorem overlapIntersects : OverlapIntersects shapely := by
  intro g h hov
  have hcard : (0 : ℚ) < ((g.squares ∩ h.squares).card : ℚ) := hov
  have hne : g.squares ∩ h.squares ≠ ∅ := by
    intro hempty
    rw [hempty] at hcard
    simp at hcard
  simpa [shapely] using hne

theorem unionCoversIntersection : UnionCoversIntersection shapely := by
  intro g h
  rw [area_intersection, area_union]
  exact_mod_cast Finset.card_le_card
    (Finset.inter_subset_left.trans Finset.subset_union_left)

theorem symmetricAreas : SymmetricAreas shapely where
  intersection g h := by
    rw [area_intersection, area_intersection, Finset.inter_comm]
  union g h := by
    rw [area_union, area_union, Finset.union_comm]

/-- The squares are the points. -/
def pointSets : PointSets shapely (ℤ × ℤ) where
  points g := g.squares
  mem_unaryUnion gs p := by
    change p ∈ (gs.foldr (fun g acc => g.squares ∪ acc) ∅ : Finset (ℤ × ℤ)) ↔ _
    induction gs with
    | nil => simp
    | cons g rest ih => simp [ih]

@[simp] theorem mem_points {g : Raster} {p : ℤ × ℤ} :
    p ∈ pointSets.points g ↔ p ∈ g.squares := by
  rfl

theorem keepsPolygons : KeepsPolygons shapely where
  mapping g := ⟨g, rfl, rfl⟩
  transformToMetric _ := rfl
  transformToStorage _ := rfl
  buffer0 _ _ := rfl
  unaryUnion _ _ _ := rfl
  multiPolygon _ _ := rfl

theorem servesPolygons : ServesPolygons shapely postgis where
  transform3857 g h := ⟨g, rfl, h⟩
  multiUnion _ _ _ := rfl

theorem stageable_processed (osmId : String) (squares : Finset (ℤ × ℤ)) :
    Stageable shapely (processed osmId squares) :=
  ⟨_, rfl, rfl, rfl, rfl, _, rfl, _, rfl, rfl⟩

theorem selfAreas : SelfAreas shapely where
  intersection g := by
    rw [area_intersection, Finset.inter_self]
    rfl
  union g := by
    rw [area_union, Finset.union_self]
    rfl

end Raster

end VectorMapChanges
