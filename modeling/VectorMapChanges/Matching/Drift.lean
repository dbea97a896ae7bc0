import VectorMapChanges.Lib.Jaccard
import VectorMapChanges.Matching.Coherence
import VectorMapChanges.Raster

/-!
# Small changes add up

A pair with an agreement of 0.99 counts as unchanged, so that a building may move a
little in every interval of a series and each of them says that it is unchanged.  The
interval that spans the series can then say otherwise, but only by as much as its
steps may have hidden: it shows no change of the attributes, and an agreement that has
lost 0.01 for each step at most.

Main facts:
* `agree_of_unchanged`: what a record says about the two features of an unchanged
  building;
* `unchanged_steps`: what a series of unchanged steps leaves for the spanning
  interval to find.
-/

namespace VectorMapChanges

open Lib

section Regions

variable {G J : Type} {R : Type} [GeneralizedBooleanAlgebra R]

/-- Areas of overlays are contents of the regions that the geometries cover. -/
structure CoversRegions (sh : Shapely G J) (region : G → R) (μ : R → ℚ) : Prop where
  content : IsContent μ
  intersection : ∀ g h, sh.area (sh.intersection g h) = μ (region g ⊓ region h)
  union : ∀ g h, sh.area (sh.union g h) = μ (region g ⊔ region h)

/-- The agreement of footprints is that of their regions. -/
theorem CoversRegions.iou_eq {sh : Shapely G J} {region : G → R} {μ : R → ℚ}
    (h : CoversRegions sh region μ) (g g' : G) :
    iou sh g g' = jaccard μ (region g) (region g') := by
  simp only [iou, jaccard, h.union, h.intersection]

end Regions

section Attributes

variable {G : Type}

theorem attrsChanged_eq_nil_iff {a b : LoadedFeature G} :
    attrsChanged a b = [] ↔
      ∀ tag ∈ significantTags, (a.attrs.get? tag).join = (b.attrs.get? tag).join := by
  unfold attrsChanged
  rw [List.filter_eq_nil_iff]
  simp only [decide_eq_true_eq, not_not]

/-- Equal tags stay equal over two steps. -/
theorem attrsChanged_trans {a b c : LoadedFeature G} (hab : attrsChanged a b = [])
    (hbc : attrsChanged b c = []) : attrsChanged a c = [] := by
  rw [attrsChanged_eq_nil_iff] at *
  intro tag htag
  rw [hab tag htag, hbc tag htag]

end Attributes

section Unchanged

variable {G J : Type} (sh : Shapely G J)

/-- The comparison found the first building unchanged, as the second. -/
def FoundUnchanged (records : List ChangeRecord) (x y : String) : Prop :=
  ∃ r ∈ records, r.classification = .unchanged ∧ r.osmIdsA = [x] ∧ r.osmIdsB = [y]

/-- The features of the two ids have the same significant tags and agree up to an
error. -/
def AgreeUpTo (ε : ℚ) (featuresA featuresB : FeatureDict G) (x y : String) : Prop :=
  ∃ f g, featuresA.get? x = some f ∧ featuresB.get? y = some g ∧
    attrsChanged f g = [] ∧ 1 - ε ≤ iou sh f.geometry g.geometry

variable {sh}

/-- A pair with the same tags has at most a changed geometry. -/
theorem classifyPair_of_attrsChanged_eq_nil {metrics : MatchMetrics}
    (h : metrics.attrsChanged = []) :
    classifyPair metrics = .unchanged ∨ classifyPair metrics = .modifiedGeometry := by
  unfold classifyPair
  by_cases hiou : metrics.iou < tUnchangedIou
  · simp [h, hiou]
  · simp [h, hiou]

variable {pair : LoadedFeature G → LoadedFeature G → Bool} {aoiBoundary : Option G}
  {featuresA featuresB : FeatureDict G} {records : List ChangeRecord} {x y : String}

/-- What a record says about the two features of an unchanged building. -/
theorem agree_of_unchanged
    (h : IsChangeset sh pair aoiBoundary featuresA featuresB records)
    (hfound : FoundUnchanged records x y) :
    AgreeUpTo sh (1 - tUnchangedIou) featuresA featuresB x y := by
  obtain ⟨r, hr, hclass, hidsA, hidsB⟩ := hfound
  have hresolved : ∀ (method : MatchMethod) (k l : String) (a b : LoadedFeature G),
      featuresA.get? k = some a → featuresB.get? l = some b →
      r = classifyMatched sh k l method (computeMetrics sh a b) a b aoiBoundary →
      AgreeUpTo sh (1 - tUnchangedIou) featuresA featuresB x y := by
    rintro method k l a b ha hb rfl
    obtain rfl : k = x := List.head_eq_of_cons_eq hidsA
    obtain rfl : l = y := List.head_eq_of_cons_eq hidsB
    obtain ⟨hiou, hattrs⟩ := classifyPair_eq_unchanged_iff.mp hclass
    refine ⟨a, b, ha, hb, hattrs, ?_⟩
    rw [sub_sub_cancel]
    exact hiou
  cases (h.mem r).mp hr with
  | shared osmId a b ha hb => exact hresolved .osmId osmId osmId a b ha hb rfl
  | group root as bs hgroup =>
      rcases groupRecord_cases sh pair aoiBoundary as bs with
        ⟨a, b, rfl, rfl, hrecord⟩ | ⟨reason, hrecord⟩
      · have ha := hgroup.stored.1 a (List.mem_singleton_self a)
        have hb := hgroup.stored.2 b (List.mem_singleton_self b)
        exact hresolved .geometry a.osmId b.osmId a b (get?_onlyIn.mp ha).1
          (get?_onlyIn.mp hb).1 hrecord
      · rw [hrecord] at hclass
        cases hclass
  | removed a ha _ => cases hclass
  | added b hb _ => cases hclass

variable {R : Type} [GeneralizedBooleanAlgebra R] {region : G → R} {μ : R → ℚ}

/-- Over a series of steps the errors add up. -/
theorem agreeUpTo_of_steps (hregions : CoversRegions sh region μ)
    {features : ℕ → FeatureDict G} {osmId : ℕ → String} {ε : ℚ} {n : ℕ} (hn : 0 < n)
    (hsteps : ∀ i < n, AgreeUpTo sh ε (features i) (features (i + 1)) (osmId i)
      (osmId (i + 1))) :
    AgreeUpTo sh (n * ε) (features 0) (features n) (osmId 0) (osmId n) := by
  induction n, hn using Nat.le_induction with
  | base =>
      rw [Nat.cast_one, one_mul]
      exact hsteps 0 Nat.one_pos
  | succ n _ ih =>
      obtain ⟨f, g, hf, hg, hattrs, hiou⟩ :=
        ih (fun i hi => hsteps i (Nat.lt_succ_of_lt hi))
      obtain ⟨g', k, hg', hk, hattrs', hiou'⟩ := hsteps n (Nat.lt_succ_self n)
      obtain rfl := Option.some.inj (hg.symm.trans hg')
      refine ⟨f, k, hf, hk, attrsChanged_trans hattrs hattrs', ?_⟩
      rw [hregions.iou_eq] at *
      have htri := jaccard_triangle hregions.content (region f.geometry)
        (region g.geometry) (region k.geometry)
      rw [Nat.cast_succ]
      linarith

/-- What the spanning interval says about a building whose features agree up to an
error. -/
theorem record_of_agreeUpTo
    (h : IsChangeset sh pair aoiBoundary featuresA featuresB records) {ε : ℚ}
    (hagree : AgreeUpTo sh ε featuresA featuresB x x) :
    ∀ r ∈ records, r.Names x →
      r.osmIdsA = [x] ∧ r.osmIdsB = [x] ∧
      (r.classification = .unchanged ∨ r.classification = .modifiedGeometry) ∧
      ∃ score, r.matchScore = some score ∧ 1 - ε ≤ score := by
  intro r hr hnames
  obtain ⟨f, g, hf, hg, hattrs, hiou⟩ := hagree
  rw [((h.mem r).mp hr).eq_of_names_shared hf hg hnames]
  exact ⟨rfl, rfl, classifyPair_of_attrsChanged_eq_nil hattrs, _, rfl, hiou⟩

/-- A building that every step of a series finds unchanged, under whatever ids, has
the tags that it had, and agrees with what it was up to 0.01 for each step.  If it has
its old id, the spanning comparison matches it by that, finds no other change than one
of the geometry, and scores it so. -/
theorem unchanged_steps (hregions : CoversRegions sh region μ) (rt : ℕ → Runtime G)
    (aoiBoundary : Option G) {features : ℕ → FeatureDict G} {osmId : ℕ → String}
    {records : ℕ → List ChangeRecord} {n : ℕ} (hn : 0 < n)
    (hbuild : ∀ i < n, buildChangeset sh (rt i) (features i) (features (i + 1))
      aoiBoundary = .ok (records i))
    (hunchanged : ∀ i < n, FoundUnchanged (records i) (osmId i) (osmId (i + 1)))
    {spanning : List ChangeRecord}
    (hspanning : buildChangeset sh (rt n) (features 0) (features n) aoiBoundary =
      .ok spanning) :
    AgreeUpTo sh (n * (1 - tUnchangedIou)) (features 0) (features n) (osmId 0)
      (osmId n) ∧
    (osmId n = osmId 0 → ∀ r ∈ spanning, r.Names (osmId 0) →
      r.osmIdsA = [osmId 0] ∧ r.osmIdsB = [osmId 0] ∧
      (r.classification = .unchanged ∨ r.classification = .modifiedGeometry) ∧
      ∃ score, r.matchScore = some score ∧ 1 - n * (1 - tUnchangedIou) ≤ score) := by
  have hagree : AgreeUpTo sh (n * (1 - tUnchangedIou)) (features 0) (features n)
      (osmId 0) (osmId n) := by
    refine agreeUpTo_of_steps hregions hn ?_
    intro i hi
    obtain ⟨listed, hlisted, hchangeset⟩ :=
      buildChangeset_listed sh (rt i) (features i) (features (i + 1)) aoiBoundary
    obtain rfl := Except.ok.inj ((hbuild i hi).symm.trans hlisted)
    exact agree_of_unchanged hchangeset (hunchanged i hi)
  refine ⟨hagree, ?_⟩
  intro hsame
  rw [hsame] at hagree
  obtain ⟨listed, hlisted, hchangeset⟩ :=
    buildChangeset_listed sh (rt n) (features 0) (features n) aoiBoundary
  obtain rfl := Except.ok.inj (hspanning.symm.trans hlisted)
  exact record_of_agreeUpTo hchangeset hagree

end Unchanged

section Samples

/-- Squares have a content. -/
theorem isContent_card :
    IsContent (fun squares : Finset (ℤ × ℤ) => (squares.card : ℚ)) where
  nonneg _ := Nat.cast_nonneg _
  sup_of_disjoint a b hdisjoint := by
    rw [Finset.sup_eq_union, Finset.card_union_of_disjoint hdisjoint, Nat.cast_add]

theorem Raster.coversRegions :
    CoversRegions Raster.shapely Raster.squares
      (fun squares => (squares.card : ℚ)) where
  content := isContent_card
  intersection := Raster.area_intersection
  union := Raster.area_union

/-- A row of squares. -/
def squareRow (n : ℕ) : Finset (ℤ × ℤ) :=
  (Finset.range n).map
    ⟨fun k : ℕ => ((k : ℤ), (0 : ℤ)), fun _ _ h => Int.natCast_inj.mp (Prod.mk.inj h).1⟩

/-- A building of 99 squares that grows by one in each step. -/
def growing (i : ℕ) : LoadedFeature Raster :=
  Raster.building "way/1" (squareRow (99 + i))

theorem card_inter_squareRow {m n : ℕ} (h : m ≤ n) :
    (squareRow m ∩ squareRow n).card = m ∧ (squareRow m ∪ squareRow n).card = n := by
  have hsub : squareRow m ⊆ squareRow n := by
    intro square hsquare
    obtain ⟨k, hk, rfl⟩ := Finset.mem_map.mp hsquare
    exact Finset.mem_map_of_mem _ (Finset.range_mono h hk)
  rw [Finset.inter_eq_left.mpr hsub, Finset.union_eq_right.mpr hsub, squareRow,
    Finset.card_map, Finset.card_range, squareRow, Finset.card_map, Finset.card_range]
  exact ⟨rfl, rfl⟩

theorem iou_growing {i j : ℕ} (h : i ≤ j) :
    iou Raster.shapely (growing i).geometry (growing j).geometry =
      (99 + i : ℚ) / (99 + j) := by
  obtain ⟨hinter, hunion⟩ := card_inter_squareRow (Nat.add_le_add_left h 99)
  have hunion' : Raster.shapely.area (Raster.shapely.union (growing i).geometry
      (growing j).geometry) = (99 + j : ℚ) := by
    rw [Raster.area_union]
    exact_mod_cast hunion
  have hinter' : Raster.shapely.area (Raster.shapely.intersection
      (growing i).geometry (growing j).geometry) = (99 + i : ℚ) := by
    rw [Raster.area_intersection]
    exact_mod_cast hinter
  have hne : (99 + j : ℚ) ≠ 0 := by positivity
  simp only [iou, hunion', hinter', if_neg hne]

/-- Two steps that say unchanged, and the interval over both that does not. -/
theorem unchanged_steps_growing :
    ∃ spanning, buildChangeset Raster.shapely Raster.exact
        (Raster.snapshot [growing 0]) (Raster.snapshot [growing 2]) none =
          .ok spanning ∧
      (∀ r ∈ spanning, r.Names "way/1" →
        r.osmIdsA = ["way/1"] ∧ r.osmIdsB = ["way/1"] ∧
        (r.classification = .unchanged ∨ r.classification = .modifiedGeometry) ∧
        ∃ score, r.matchScore = some score ∧
          1 - (2 : ℕ) * (1 - tUnchangedIou) ≤ score) ∧
      ∃ r ∈ spanning, r.classification = .modifiedGeometry := by
  have hstored : ∀ i, (Raster.snapshot [growing i]).get? "way/1" = some (growing i) :=
    fun _ => rfl
  have hattrs : ∀ i j, attrsChanged (growing i) (growing j) = [] := fun _ _ => rfl
  have hlisted : ∀ i j, ∃ records, buildChangeset Raster.shapely Raster.exact
      (Raster.snapshot [growing i]) (Raster.snapshot [growing j]) none = .ok records ∧
        classifyMatched Raster.shapely "way/1" "way/1" .osmId
          (computeMetrics Raster.shapely (growing i) (growing j)) (growing i) (growing j)
          none ∈ records := by
    intro i j
    obtain ⟨records, hrecords, hchangeset⟩ := buildChangeset_listed Raster.shapely
      Raster.exact (Raster.snapshot [growing i]) (Raster.snapshot [growing j]) none
    exact ⟨records, hrecords,
      (hchangeset.mem _).mpr (.shared "way/1" _ _ (hstored i) (hstored j))⟩
  choose records hrecords hmem using fun i => hlisted i (i + 1)
  have hfound : ∀ i < 2, FoundUnchanged (records i) (growing i).osmId
      (growing (i + 1)).osmId := by
    intro i hi
    refine ⟨_, hmem i, ?_, rfl, rfl⟩
    refine classifyPair_eq_unchanged_iff.mpr ⟨?_, hattrs i (i + 1)⟩
    rw [computeMetrics_iou, iou_growing (Nat.le_succ i), tUnchangedIou]
    have hpos : (0 : ℚ) < 99 + (i + 1 : ℕ) := by positivity
    rw [div_le_div_iff₀ (by norm_num) hpos]
    push_cast
    linarith [(Nat.cast_nonneg i : (0 : ℚ) ≤ i)]
  obtain ⟨spanning, hspanning, hspans⟩ := hlisted 0 2
  refine ⟨spanning, hspanning, ?_, _, hspans, ?_⟩
  · exact (unchanged_steps Raster.coversRegions (fun _ => Raster.exact) none Nat.two_pos
      (fun i _ => hrecords i) hfound hspanning).2 rfl
  · have hclass : ∀ metrics, (classifyMatched Raster.shapely "way/1" "way/1" .osmId
        metrics (growing 0) (growing 2) none).classification = classifyPair metrics :=
      fun _ => rfl
    rw [hclass]
    refine (classifyPair_of_attrsChanged_eq_nil (hattrs 0 2)).resolve_left ?_
    intro hunchanged
    have hiou := (classifyPair_eq_unchanged_iff.mp hunchanged).1
    rw [computeMetrics_iou, iou_growing (Nat.zero_le 2), tUnchangedIou] at hiou
    norm_num at hiou

end Samples

end VectorMapChanges
