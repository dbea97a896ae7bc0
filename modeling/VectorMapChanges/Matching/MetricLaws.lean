import VectorMapChanges.Matching.Metrics
import Mathlib.Algebra.BigOperators.Group.Finset.Basic
import Mathlib.Algebra.BigOperators.Ring.Finset
import Mathlib.Tactic.Ring

/-!
# Laws of the metrics

The metrics over an exact plane: areas and centroids are exact, and overlay and
translation agree.  Nothing else is assumed of the geometries.  Division is
checked here, so that dividing by zero is an error and not a value.

Main facts:
* `iou_nonneg`, `iou_le_one`: agreement is a fraction;
* `alignedIou_comm`, `alignedIou_translate_left`, `alignedIou_translate_right`:
  aligned agreement is symmetric and does not see positions;
* `metricLaws`: all laws of the metrics of two features.
-/

namespace VectorMapChanges

open Lib

/-- `ZeroDivisionError` -/
structure ZeroDivisionError where
deriving DecidableEq, Repr

/-- Division of floats, which raises when the divisor is zero. -/
def divide (x y : ℚ) : Except ZeroDivisionError ℚ :=
  if y = 0 then .error ⟨⟩ else .ok (x / y)

section Checked

variable {G J : Type} (sh : Shapely G J)

/-- `_iou` with checked division. -/
def iouChecked (geomA geomB : G) : Except ZeroDivisionError ℚ := do
  let unionArea := sh.area (sh.union geomA geomB)
  if unionArea = 0 then pure 0
  else divide (sh.area (sh.intersection geomA geomB)) unionArea

/-- `compute_metrics` with checked division. -/
def computeMetricsChecked (a b : LoadedFeature G) :
    Except ZeroDivisionError MatchMetrics := do
  let ga := a.geometry
  let gb := b.geometry
  let areaA := sh.area ga
  let areaB := sh.area gb
  let centroidA := sh.centroid ga
  let centroidB := sh.centroid gb
  let iou ← iouChecked sh ga gb
  let gbAligned := sh.translate gb
    (sh.x centroidA - sh.x centroidB) (sh.y centroidA - sh.y centroidB)
  let iouCentroidAligned ← iouChecked sh ga gbAligned
  let areaRatio ← if areaA = 0 then pure 0 else divide areaB areaA
  pure
    { iou := iou
      iouCentroidAligned := iouCentroidAligned
      centroidShiftM := sh.distance centroidA centroidB
      areaRatio := areaRatio
      hausdorffM := sh.hausdorffDistance ga gb
      attrsChanged := attrsChanged a b }

theorem divide_of_ne {x y : ℚ} (h : y ≠ 0) : divide x y = .ok (x / y) := by
  rw [divide, if_neg h]

theorem iouChecked_eq (g h : G) : iouChecked sh g h = .ok (iou sh g h) := by
  unfold iouChecked iou
  by_cases harea : sh.area (sh.union g h) = 0
  · simp only [if_pos harea]
    rfl
  · simp only [if_neg harea]
    exact divide_of_ne harea

/-- The guards leave no division by zero. -/
theorem computeMetricsChecked_eq (a b : LoadedFeature G) :
    computeMetricsChecked sh a b = .ok (computeMetrics sh a b) := by
  unfold computeMetricsChecked computeMetrics
  simp only [iouChecked_eq, ok_bind]
  by_cases harea : sh.area a.geometry = 0
  · simp only [if_pos harea]
    rfl
  · simp only [if_neg harea, divide_of_ne harea]
    rfl

end Checked

section Laws

variable {G J : Type}

/-- An exact planar geometry: area is not negative and does not change under
translation, overlay does not depend on the order of the operands and commutes
with translation, and the centroid of a non-empty geometry moves with it. -/
structure ExactPlane (sh : Shapely G J) (nonempty : G → Prop) : Prop where
  area_nonneg : ∀ g, 0 ≤ sh.area g
  area_translate : ∀ g dx dy, sh.area (sh.translate g dx dy) = sh.area g
  unionCovers : UnionCoversIntersection sh
  symmetric : SymmetricAreas sh
  idempotent : SelfAreas sh
  intersection_translate : ∀ g h dx dy,
    sh.area (sh.intersection (sh.translate g dx dy) (sh.translate h dx dy)) =
      sh.area (sh.translate (sh.intersection g h) dx dy)
  union_translate : ∀ g h dx dy,
    sh.area (sh.union (sh.translate g dx dy) (sh.translate h dx dy)) =
      sh.area (sh.translate (sh.union g h) dx dy)
  translate_zero : ∀ g, sh.translate g 0 0 = g
  translate_translate : ∀ g dx dy dx' dy',
    sh.translate (sh.translate g dx dy) dx' dy' =
      sh.translate g (dx + dx') (dy + dy')
  nonempty_translate : ∀ g dx dy, nonempty g → nonempty (sh.translate g dx dy)
  x_centroid : ∀ g dx dy, nonempty g →
    sh.x (sh.centroid (sh.translate g dx dy)) = sh.x (sh.centroid g) + dx
  y_centroid : ∀ g dx dy, nonempty g →
    sh.y (sh.centroid (sh.translate g dx dy)) = sh.y (sh.centroid g) + dy

/-- The feature with its footprint moved. -/
def LoadedFeature.translate (sh : Shapely G J) (f : LoadedFeature G) (dx dy : ℚ) :
    LoadedFeature G :=
  { f with geometry := sh.translate f.geometry dx dy }

/-- The agreement of two footprints after their centroids are put on top of each
other. -/
def alignedIou (sh : Shapely G J) (g h : G) : ℚ :=
  iou sh g (sh.translate h (sh.x (sh.centroid g) - sh.x (sh.centroid h))
    (sh.y (sh.centroid g) - sh.y (sh.centroid h)))

variable {sh : Shapely G J} {nonempty : G → Prop}

theorem iou_nonneg (hplane : ExactPlane sh nonempty) (g h : G) :
    0 ≤ iou sh g h := by
  simp only [iou]
  split_ifs
  · exact le_refl 0
  · exact div_nonneg (hplane.area_nonneg _) (hplane.area_nonneg _)

theorem iou_le_one (hplane : ExactPlane sh nonempty) (g h : G) :
    iou sh g h ≤ 1 := by
  simp only [iou]
  split_ifs
  · exact zero_le_one
  · exact div_le_one_of_le₀ (hplane.unionCovers g h) (hplane.area_nonneg _)

/-- Moving both footprints together does not change their agreement. -/
theorem iou_translate (hplane : ExactPlane sh nonempty) (g h : G) (dx dy : ℚ) :
    iou sh (sh.translate g dx dy) (sh.translate h dx dy) = iou sh g h := by
  simp only [iou, hplane.intersection_translate, hplane.union_translate,
    hplane.area_translate]

/-- Moved there and back, a footprint is where it was. -/
theorem translate_neg (hplane : ExactPlane sh nonempty) (g : G) (dx dy : ℚ) :
    sh.translate (sh.translate g dx dy) (-dx) (-dy) = g := by
  rw [hplane.translate_translate, add_neg_cancel, add_neg_cancel,
    hplane.translate_zero]

/-- Which footprint is moved onto the other does not matter. -/
theorem alignedIou_comm (hplane : ExactPlane sh nonempty) (g h : G) :
    alignedIou sh g h = alignedIou sh h g := by
  unfold alignedIou
  -- move both by the shift that takes the centroid of `h` to that of `g`
  rw [← iou_translate hplane h _
    (sh.x (sh.centroid g) - sh.x (sh.centroid h))
    (sh.y (sh.centroid g) - sh.y (sh.centroid h)), iou_comm hplane.symmetric]
  have hback : sh.translate (sh.translate g
      (sh.x (sh.centroid h) - sh.x (sh.centroid g))
      (sh.y (sh.centroid h) - sh.y (sh.centroid g)))
      (sh.x (sh.centroid g) - sh.x (sh.centroid h))
      (sh.y (sh.centroid g) - sh.y (sh.centroid h)) = g := by
    rw [← neg_sub (sh.x (sh.centroid h)), ← neg_sub (sh.y (sh.centroid h)),
      translate_neg hplane]
  rw [hback]

/-- Aligned agreement does not see where the second footprint is. -/
theorem alignedIou_translate_right (hplane : ExactPlane sh nonempty) (g : G) {h : G}
    (hne : nonempty h) (dx dy : ℚ) :
    alignedIou sh g (sh.translate h dx dy) = alignedIou sh g h := by
  unfold alignedIou
  rw [hplane.translate_translate, hplane.x_centroid h dx dy hne,
    hplane.y_centroid h dx dy hne]
  congr 2 <;> ring

/-- Nor where the first one is. -/
theorem alignedIou_translate_left (hplane : ExactPlane sh nonempty) {g : G} (h : G)
    (hne : nonempty g) (dx dy : ℚ) :
    alignedIou sh (sh.translate g dx dy) h = alignedIou sh g h := by
  rw [alignedIou_comm hplane, alignedIou_translate_right hplane h hne,
    alignedIou_comm hplane]

/-- A moved footprint agrees completely with where it was. -/
theorem alignedIou_self_translate (hplane : ExactPlane sh nonempty) {g : G}
    (hne : nonempty g) (harea : 0 < sh.area g) (dx dy : ℚ) :
    alignedIou sh g (sh.translate g dx dy) = 1 := by
  rw [alignedIou_translate_right hplane g hne, alignedIou, sub_self, sub_self,
    hplane.translate_zero, iou_self hplane.idempotent, if_neg (ne_of_gt harea)]

/-- The laws of the metrics of two features. -/
structure MetricLaws (sh : Shapely G J) (a b : LoadedFeature G) : Prop where
  checked : computeMetricsChecked sh a b = .ok (computeMetrics sh a b)
  iou_bounds : 0 ≤ (computeMetrics sh a b).iou ∧ (computeMetrics sh a b).iou ≤ 1
  aligned_bounds : 0 ≤ (computeMetrics sh a b).iouCentroidAligned ∧
    (computeMetrics sh a b).iouCentroidAligned ≤ 1
  iou_symmetric : (computeMetrics sh a b).iou = (computeMetrics sh b a).iou
  aligned_symmetric : (computeMetrics sh a b).iouCentroidAligned =
    (computeMetrics sh b a).iouCentroidAligned
  translate_left : ∀ dx dy,
    (computeMetrics sh (a.translate sh dx dy) b).iouCentroidAligned =
      (computeMetrics sh a b).iouCentroidAligned ∧
    (computeMetrics sh (a.translate sh dx dy) b).areaRatio =
      (computeMetrics sh a b).areaRatio ∧
    (computeMetrics sh (a.translate sh dx dy) b).attrsChanged =
      (computeMetrics sh a b).attrsChanged
  translate_right : ∀ dx dy,
    (computeMetrics sh a (b.translate sh dx dy)).iouCentroidAligned =
      (computeMetrics sh a b).iouCentroidAligned ∧
    (computeMetrics sh a (b.translate sh dx dy)).areaRatio =
      (computeMetrics sh a b).areaRatio ∧
    (computeMetrics sh a (b.translate sh dx dy)).attrsChanged =
      (computeMetrics sh a b).attrsChanged
  pure_translation : ∀ dx dy, 0 < sh.area a.geometry →
    b.geometry = sh.translate a.geometry dx dy →
    (computeMetrics sh a b).iouCentroidAligned = 1

theorem computeMetrics_aligned (a b : LoadedFeature G) :
    (computeMetrics sh a b).iouCentroidAligned =
      alignedIou sh a.geometry b.geometry := by
  rfl

theorem computeMetrics_areaRatio (a b : LoadedFeature G) :
    (computeMetrics sh a b).areaRatio =
      if sh.area a.geometry = 0 then 0
      else sh.area b.geometry / sh.area a.geometry := by
  rfl

/-- Over an exact plane, features with non-empty footprints satisfy the laws. -/
theorem metricLaws (hplane : ExactPlane sh nonempty) (a b : LoadedFeature G)
    (ha : nonempty a.geometry) (hb : nonempty b.geometry) :
    MetricLaws sh a b where
  checked := computeMetricsChecked_eq sh a b
  iou_bounds := ⟨iou_nonneg hplane _ _, iou_le_one hplane _ _⟩
  aligned_bounds := ⟨iou_nonneg hplane _ _, iou_le_one hplane _ _⟩
  iou_symmetric := iou_comm hplane.symmetric _ _
  aligned_symmetric := alignedIou_comm hplane _ _
  translate_left := by
    intro dx dy
    refine ⟨alignedIou_translate_left hplane b.geometry ha dx dy, ?_, rfl⟩
    simp only [computeMetrics_areaRatio, LoadedFeature.translate,
      hplane.area_translate]
  translate_right := by
    intro dx dy
    refine ⟨alignedIou_translate_right hplane a.geometry hb dx dy, ?_, rfl⟩
    simp only [computeMetrics_areaRatio, LoadedFeature.translate,
      hplane.area_translate]
  pure_translation := by
    intro dx dy harea hmoved
    rw [computeMetrics_aligned, hmoved]
    exact alignedIou_self_translate hplane ha harea dx dy

end Laws

namespace Tiles

/-- The mean of one coordinate of the corners of some tiles. -/
def mean (g : Finset (ℚ × ℚ)) (axis : ℚ × ℚ → ℚ) : ℚ :=
  g.sum axis / g.card

/-- The tiles moved by a vector. -/
def shift (g : Finset (ℚ × ℚ)) (dx dy : ℚ) : Finset (ℚ × ℚ) :=
  g.image (fun p => (p.1 + dx, p.2 + dy))

/-- A plane of tiles of unit area, each named by its corner. -/
def shapely : Shapely (Finset (ℚ × ℚ)) (Finset (ℚ × ℚ)) where
  geomType _ := .polygon
  geoms _ := []
  isValid _ := true
  makeValid g := g
  buffer0 g := g
  unaryUnion gs := gs.foldr (fun g acc => g ∪ acc) ∅
  multiPolygon g := g
  boundary _ := ∅
  shape g := .ok g
  mapping g := g
  transformToMetric g := g
  transformToStorage g := g
  intersects g h := decide (g ∩ h ≠ ∅)
  intersection g h := g ∩ h
  union g h := g ∪ h
  area g := g.card
  centroid g := {(mean g Prod.fst, mean g Prod.snd)}
  x g := mean g Prod.fst
  y g := mean g Prod.snd
  translate := shift
  distance g h :=
    max |mean g Prod.fst - mean h Prod.fst| |mean g Prod.snd - mean h Prod.snd|
  hausdorffDistance g h := if g = h then 0 else 1

theorem shift_injective (dx dy : ℚ) :
    Function.Injective (fun p : ℚ × ℚ => (p.1 + dx, p.2 + dy)) := by
  rintro ⟨x, y⟩ ⟨x', y'⟩ h
  simpa using h

theorem card_shift (g : Finset (ℚ × ℚ)) (dx dy : ℚ) :
    (shift g dx dy).card = g.card :=
  Finset.card_image_of_injective g (shift_injective dx dy)

/-- The mean of a coordinate moves with the tiles. -/
theorem mean_shift {g : Finset (ℚ × ℚ)} (hne : g.Nonempty) (dx dy : ℚ)
    (axis : ℚ × ℚ → ℚ) {d : ℚ}
    (haxis : ∀ p : ℚ × ℚ, axis (p.1 + dx, p.2 + dy) = axis p + d) :
    mean (shift g dx dy) axis = mean g axis + d := by
  have hcard : (g.card : ℚ) ≠ 0 := by
    exact_mod_cast Finset.card_ne_zero.mpr hne
  have hsum : (shift g dx dy).sum axis = g.sum axis + g.card * d := by
    rw [shift, Finset.sum_image ((shift_injective dx dy).injOn)]
    simp only [haxis, Finset.sum_add_distrib, Finset.sum_const, nsmul_eq_mul]
  rw [mean, mean, hsum, card_shift, add_div, mul_div_cancel_left₀ d hcard]

@[simp] theorem mean_singleton (p : ℚ × ℚ) (axis : ℚ × ℚ → ℚ) :
    mean {p} axis = axis p := by
  simp [mean]

theorem exactPlane : ExactPlane shapely Finset.Nonempty where
  area_nonneg g := Nat.cast_nonneg g.card
  area_translate g dx dy := congrArg Nat.cast (card_shift g dx dy)
  unionCovers g h := by
    change ((g ∩ h).card : ℚ) ≤ ((g ∪ h).card : ℚ)
    exact_mod_cast Finset.card_le_card
      (Finset.inter_subset_left.trans Finset.subset_union_left)
  symmetric :=
    { intersection := fun g h => congrArg shapely.area (Finset.inter_comm g h)
      union := fun g h => congrArg shapely.area (Finset.union_comm g h) }
  idempotent :=
    { intersection := fun g => congrArg shapely.area (Finset.inter_self g)
      union := fun g => congrArg shapely.area (Finset.union_self g) }
  intersection_translate g h dx dy :=
    congrArg shapely.area (Finset.image_inter g h (shift_injective dx dy)).symm
  union_translate g h dx dy :=
    congrArg shapely.area (Finset.image_union g h).symm
  translate_zero g := by
    change shift g 0 0 = g
    simp [shift]
  translate_translate g dx dy dx' dy' := by
    change shift (shift g dx dy) dx' dy' = shift g (dx + dx') (dy + dy')
    simp [shift, Finset.image_image, Function.comp_def, add_assoc]
  nonempty_translate _ _ _ hne := hne.image _
  x_centroid g dx dy hne := by
    change mean {(mean (shift g dx dy) Prod.fst, _)} Prod.fst =
      mean {(mean g Prod.fst, _)} Prod.fst + dx
    rw [mean_singleton, mean_singleton]
    exact mean_shift hne dx dy Prod.fst (fun _ => rfl)
  y_centroid g dx dy hne := by
    change mean {(_, mean (shift g dx dy) Prod.snd)} Prod.snd =
      mean {(_, mean g Prod.snd)} Prod.snd + dy
    rw [mean_singleton, mean_singleton]
    exact mean_shift hne dx dy Prod.snd (fun _ => rfl)

/-- A feature with the given tiles. -/
def feature (osmId : String) (tiles : Finset (ℚ × ℚ)) :
    LoadedFeature (Finset (ℚ × ℚ)) where
  osmId := osmId
  geometry := tiles
  attrs := Dict.empty
  repaired := false

end Tiles

/-- A building of two tiles, and the same building a third of a tile further
on. -/
theorem metricLaws_moved :
    let before := Tiles.feature "way/1" {(0, 0), (1, 0)}
    let after := before.translate Tiles.shapely (1 / 3) 0
    MetricLaws Tiles.shapely before after ∧
    (computeMetrics Tiles.shapely before after).iouCentroidAligned = 1 := by
  intro before after
  have hbefore : before.geometry.Nonempty := Finset.insert_nonempty _ _
  have hlaws : MetricLaws Tiles.shapely before after :=
    metricLaws Tiles.exactPlane before after hbefore (hbefore.image _)
  exact ⟨hlaws, hlaws.pure_translation (1 / 3) 0
    (Nat.cast_pos.mpr (Finset.card_pos.mpr hbefore)) rfl⟩

end VectorMapChanges
