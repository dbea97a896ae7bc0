import VectorMapChanges.Python
import Mathlib.Algebra.Order.Ring.Unbundled.Rat
import Mathlib.Data.List.FinRange
import Mathlib.Data.Rat.Defs
import Mathlib.Data.Set.Defs

/-!
# Geometry

Shapely, pyproj and the STR-tree are not part of the repository.  The model
takes the operations that the code calls as parameters: `G` is the type of
geometries and `J` the type of GeoJSON geometry objects.  What the code relies
on is stated by the predicates below, one documented property each, and every
result names the ones it uses.
-/

namespace VectorMapChanges

/-- `geometry.geom_type`. -/
inductive GeomType where
  | point
  | multiPoint
  | lineString
  | linearRing
  | multiLineString
  | polygon
  | multiPolygon
  | geometryCollection
deriving DecidableEq, Repr

namespace GeomType

/-- The name shapely gives the type. -/
def name : GeomType → String
  | point => "Point"
  | multiPoint => "MultiPoint"
  | lineString => "LineString"
  | linearRing => "LinearRing"
  | multiLineString => "MultiLineString"
  | polygon => "Polygon"
  | multiPolygon => "MultiPolygon"
  | geometryCollection => "GeometryCollection"

/-- `geom_type in POLYGONAL_TYPES`. -/
def isPolygonal : GeomType → Bool
  | polygon => true
  | multiPolygon => true
  | _ => false

end GeomType

/-- The geometry operations that the code calls.  Only `shape` is modelled as one
that can raise: the others are assumed never to, although in shapely `x` and `y` of
an empty point do.  Coordinates and areas are exact, where shapely has doubles. -/
structure Shapely (G J : Type) where
  geomType : G → GeomType
  geoms : G → List G
  isValid : G → Bool
  makeValid : G → G
  /-- `geometry.buffer(0)` -/
  buffer0 : G → G
  unaryUnion : List G → G
  /-- `MultiPolygon([geometry])` -/
  multiPolygon : G → G
  boundary : G → G
  /-- `shapely.geometry.shape`, which raises on a malformed object -/
  shape : J → Except PyError G
  /-- `shapely.geometry.mapping` -/
  mapping : G → J
  /-- `shapely_transform(_TO_METRIC.transform, geometry)` -/
  transformToMetric : G → G
  /-- `shapely_transform(_TO_STORAGE.transform, geometry)` -/
  transformToStorage : G → G
  intersects : G → G → Bool
  intersection : G → G → G
  union : G → G → G
  area : G → ℚ
  centroid : G → G
  x : G → ℚ
  y : G → ℚ
  /-- `affinity.translate(geometry, xoff, yoff)` -/
  translate : G → ℚ → ℚ → G
  distance : G → G → ℚ
  hausdorffDistance : G → G → ℚ

/-- Everything that may differ from one process to the next: the iteration
orders of sets, and the hits of `STRtree(geoms).query(geometry,
predicate="intersects")` with the order they come in. -/
structure Runtime (G : Type) extends HashOrder where
  query : (geoms : List G) → G → List (Fin geoms.length)

section Assumptions

variable {G J : Type}

/-- The two footprints overlap in positive area. -/
def overlaps (sh : Shapely G J) (g h : G) : Prop :=
  0 < sh.area (sh.intersection g h)

instance (sh : Shapely G J) (g h : G) : Decidable (overlaps sh g h) :=
  inferInstanceAs (Decidable (0 < sh.area (sh.intersection g h)))

/-- The spatial index returns the geometries that `hit` accepts, in any order. -/
def HitsBy (hit : G → G → Bool) (rt : Runtime G) : Prop :=
  ∀ (geoms : List G) (g : G) (i : Fin geoms.length),
    i ∈ rt.query geoms g ↔ hit g (geoms.get i) = true

/-- The spatial index returns exactly the intersecting geometries. -/
def ExactIndex (sh : Shapely G J) (rt : Runtime G) : Prop :=
  HitsBy sh.intersects rt

/-- Every query of the spatial index returns the positions of the intersecting
geometries, each of them once and in any order. -/
def ExactQuery (sh : Shapely G J) (rt : Runtime G) : Prop :=
  ∀ (geoms : List G) (g : G), (rt.query geoms g).Perm
    ((List.finRange geoms.length).filter
      (fun i => sh.intersects g (geoms.get i)))

/-- A process whose index tests every geometry, in their order. -/
def Runtime.bruteForce (sh : Shapely G J) (order : HashOrder) : Runtime G where
  toHashOrder := order
  query geoms g :=
    (List.finRange geoms.length).filter
      (fun i => sh.intersects g (geoms.get i))

theorem exactIndex_bruteForce (sh : Shapely G J) (order : HashOrder) :
    ExactIndex sh (Runtime.bruteForce sh order) := by
  intro geoms g i
  simp [Runtime.bruteForce]

theorem exactQuery_bruteForce (sh : Shapely G J) (order : HashOrder) :
    ExactQuery sh (Runtime.bruteForce sh order) := by
  intro geoms g
  exact List.Perm.refl _

/-- Positive overlap area implies intersecting. -/
def OverlapIntersects (sh : Shapely G J) : Prop :=
  ∀ g h, overlaps sh g h → sh.intersects g h = true

/-- A union is at least as large as the intersection. -/
def UnionCoversIntersection (sh : Shapely G J) : Prop :=
  ∀ g h, sh.area (sh.intersection g h) ≤ sh.area (sh.union g h)

/-- Intersection and union areas do not depend on the order of the operands. -/
structure SymmetricAreas (sh : Shapely G J) : Prop where
  intersection : ∀ g h,
    sh.area (sh.intersection g h) = sh.area (sh.intersection h g)
  union : ∀ g h, sh.area (sh.union g h) = sh.area (sh.union h g)

/-- The intersection and the union of a geometry with itself have its area. -/
structure SelfAreas (sh : Shapely G J) : Prop where
  intersection : ∀ g, sh.area (sh.intersection g g) = sh.area g
  union : ∀ g, sh.area (sh.union g g) = sh.area g

/-- The points that geometries cover: a union covers the points of its parts. -/
structure PointSets (sh : Shapely G J) (P : Type) where
  points : G → Set P
  mem_unaryUnion : ∀ gs p, p ∈ points (sh.unaryUnion gs) ↔ ∃ g ∈ gs, p ∈ points g

end Assumptions

end VectorMapChanges
