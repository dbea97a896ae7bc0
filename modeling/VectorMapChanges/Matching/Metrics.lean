import VectorMapChanges.Matching.Features
import Mathlib.Algebra.Order.Field.Basic
import Mathlib.Algebra.Order.Field.Rat

/-!
# Similarity metrics

The metrics of one pair of loaded features, older feature first.  The pipeline
decides by `iou` and by `attrsChanged`; the other metrics are recorded.

Main facts:
* `iou_self`: a footprint of positive area agrees with itself completely, a
  footprint without area not at all;
* `iou_comm`, `attrsChanged_comm`: the two deciding metrics do not depend on
  the order of the pair.
-/

namespace VectorMapChanges

open Lib

/-- The metrics of a pair. -/
structure MatchMetrics where
  iou : ℚ
  iouCentroidAligned : ℚ
  centroidShiftM : ℚ
  areaRatio : ℚ
  hausdorffM : ℚ
  attrsChanged : List String
deriving DecidableEq

section Metrics

variable {G J : Type} (sh : Shapely G J)

/-- Intersection over union, 0 where the union has no area. -/
def iou (geomA geomB : G) : ℚ :=
  let unionArea := sh.area (sh.union geomA geomB)
  if unionArea = 0 then 0
  else sh.area (sh.intersection geomA geomB) / unionArea

/-- The significant tags in which two features differ. -/
def attrsChanged (a b : LoadedFeature G) : List String :=
  significantTags.filter
    (fun tag => (a.attrs.get? tag).join ≠ (b.attrs.get? tag).join)

/-- All metrics of the pair of an old and a new feature. -/
def computeMetrics (a b : LoadedFeature G) : MatchMetrics :=
  let ga := a.geometry
  let gb := b.geometry
  let areaA := sh.area ga
  let areaB := sh.area gb
  let centroidA := sh.centroid ga
  let centroidB := sh.centroid gb
  let gbAligned := sh.translate gb
    (sh.x centroidA - sh.x centroidB) (sh.y centroidA - sh.y centroidB)
  { iou := iou sh ga gb
    iouCentroidAligned := iou sh ga gbAligned
    centroidShiftM := sh.distance centroidA centroidB
    areaRatio := if areaA = 0 then 0 else areaB / areaA
    hausdorffM := sh.hausdorffDistance ga gb
    attrsChanged := attrsChanged a b }

@[simp] theorem computeMetrics_iou (a b : LoadedFeature G) :
    (computeMetrics sh a b).iou = iou sh a.geometry b.geometry := by
  rfl

@[simp] theorem computeMetrics_attrsChanged (a b : LoadedFeature G) :
    (computeMetrics sh a b).attrsChanged = attrsChanged a b := by
  rfl

@[simp] theorem attrsChanged_self (a : LoadedFeature G) :
    attrsChanged a a = [] := by
  simp [attrsChanged]

/-- The differing tags do not depend on the order of the pair. -/
theorem attrsChanged_comm (a b : LoadedFeature G) :
    attrsChanged a b = attrsChanged b a := by
  unfold attrsChanged
  apply List.filter_congr
  intro tag _
  simp [eq_comm]

variable {sh}

/-- A footprint agrees with itself completely, unless it has no area. -/
theorem iou_self (hself : SelfAreas sh) (g : G) :
    iou sh g g = if sh.area g = 0 then 0 else 1 := by
  simp only [iou, hself.union, hself.intersection]
  split_ifs with h
  · rfl
  · exact div_self h

/-- Agreement does not depend on the order of the pair. -/
theorem iou_comm (hsymm : SymmetricAreas sh) (g h : G) :
    iou sh g h = iou sh h g := by
  simp only [iou, hsymm.union g h, hsymm.intersection g h]

/-- Overlapping footprints have positive agreement. -/
theorem iou_pos_of_overlaps (hunion : UnionCoversIntersection sh) {g h : G}
    (hov : overlaps sh g h) :
    0 < iou sh g h := by
  have hpos : 0 < sh.area (sh.union g h) := lt_of_lt_of_le hov (hunion g h)
  simp only [iou, if_neg (ne_of_gt hpos)]
  exact div_pos hov hpos

end Metrics

end VectorMapChanges
