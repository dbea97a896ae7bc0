import VectorMapChanges.Matching.Records
import VectorMapChanges.Raster
import Mathlib.Combinatorics.SimpleGraph.Connectivity.Connected

/-!
# Resolution on the overlap graph

What the specification says about the features whose id does not persist: their
overlaps form a graph, a change record stands for one of its components, and
the shape of the component decides the outcome.

Main facts:
* `exists_isGroup`, `IsChangeset.record_of_linked`: a component with an edge has
  one record, that of its group;
* `IsGroup.eq_single_of_isolated`: the group of an isolated edge;
* `buildChangeset_resolution`: the outcome on every overlap graph.
-/

namespace VectorMapChanges

open Lib

/-- The classification of a resolved pair, by what has changed. -/
def decisionTable : (geometryChanged attributesChanged : Bool) → Classification
  | true, true => .modifiedGeometryAndAttributes
  | true, false => .modifiedGeometry
  | false, true => .modifiedAttributes
  | false, false => .unchanged

theorem classifyPair_eq_decisionTable (metrics : MatchMetrics) :
    classifyPair metrics =
      decisionTable (metrics.iou < 99 / 100) (metrics.attrsChanged ≠ []) := by
  unfold classifyPair tUnchangedIou
  by_cases hgeom : metrics.iou < 99 / 100 <;>
    by_cases hattrs : metrics.attrsChanged = [] <;>
      simp [hgeom, hattrs, decisionTable]

/-- The reason that the shape of an unresolved component gives. -/
def shapeReason (aCount bCount : Nat) : String :=
  if aCount = 1 then "split_candidate"
  else if bCount = 1 then "merge_candidate"
  else "complex_cluster"

/-- A group of another shape than one to one is not resolved. -/
theorem groupRecord_unresolved {G J : Type} (sh : Shapely G J)
    (pair : LoadedFeature G → LoadedFeature G → Bool) (aoiBoundary : Option G)
    {as bs : List (LoadedFeature G)}
    (h : ¬ (as.length = 1 ∧ bs.length = 1)) :
    (groupRecord sh pair aoiBoundary as bs).classification = .ambiguous ∧
    (groupRecord sh pair aoiBoundary as bs).classificationReason =
      shapeReason as.length bs.length := by
  unfold shapeReason
  by_cases has : as.length = 1
  · have hbs : bs.length ≠ 1 := fun hbs => h ⟨has, hbs⟩
    obtain ⟨a, rfl⟩ := List.length_eq_one_iff.mp has
    rw [groupRecord_split hbs]
    exact ⟨rfl, rfl⟩
  · rw [if_neg has]
    by_cases hbs : bs.length = 1
    · obtain ⟨b, rfl⟩ := List.length_eq_one_iff.mp hbs
      rw [groupRecord_merge has]
      exact ⟨rfl, rfl⟩
    · rw [groupRecord_complex has hbs, if_neg hbs]
      exact ⟨rfl, rfl⟩

section Components

variable {G J : Type} {sh : Shapely G J}
  {pair : LoadedFeature G → LoadedFeature G → Bool}
  {onlyInA onlyInB : FeatureDict G}

open Classical in
/-- Every component with an edge has a group. -/
theorem exists_isGroup {x y : String}
    (h : Linked (Edge pair onlyInA onlyInB) x y) :
    ∃ as bs, IsGroup pair onlyInA onlyInB x as bs := by
  have hside : ∀ d : FeatureDict G, ∃ fs, SortedById fs ∧
      ∀ f, f ∈ fs ↔ d.get? f.osmId = some f ∧
        Connected (Edge pair onlyInA onlyInB) x f.osmId := by
    intro d
    have hids : ∀ k, k ∈ d.keys.filter
        (fun k => decide (Connected (Edge pair onlyInA onlyInB) x k)) ↔
          k ∈ d.toDict ∧ Connected (Edge pair onlyInA onlyInB) x k := by
      intro k
      rw [List.mem_filter, decide_eq_true_iff]
      rfl
    exact ⟨_, (select_sorted (d.keys_nodup.filter _) hids).2⟩
  obtain ⟨as, has, hA⟩ := hside onlyInA
  obtain ⟨bs, hbs, hB⟩ := hside onlyInB
  exact ⟨as, bs, has, hbs, hA, hB, y, h⟩

/-- A group belongs to each linked id of its component. -/
theorem IsGroup.reroot {root x y : String} {as bs : List (LoadedFeature G)}
    (h : IsGroup pair onlyInA onlyInB root as bs)
    (hx : Connected (Edge pair onlyInA onlyInB) root x)
    (hxy : Linked (Edge pair onlyInA onlyInB) x y) :
    IsGroup pair onlyInA onlyInB x as bs := by
  obtain ⟨as', bs', h'⟩ := exists_isGroup hxy
  obtain ⟨rfl, rfl⟩ := h.eq_of_connected h' hx
  exact h'

theorem IsGroup.mem_ids {root : String} {as bs : List (LoadedFeature G)}
    (h : IsGroup pair onlyInA onlyInB root as bs) :
    (∀ a, a ∈ as.map (·.osmId) ↔ a ∈ onlyInA.toDict ∧
      Connected (Edge pair onlyInA onlyInB) root a) ∧
    (∀ b, b ∈ bs.map (·.osmId) ↔ b ∈ onlyInB.toDict ∧
      Connected (Edge pair onlyInA onlyInB) root b) :=
  ⟨mem_map_osmId h.memA, mem_map_osmId h.memB⟩

/-- The ids that the record of a group names are those of its component. -/
theorem IsGroup.names_iff {root x : String} {as bs : List (LoadedFeature G)}
    {aoiBoundary : Option G}
    (h : IsGroup pair onlyInA onlyInB root as bs) :
    (groupRecord sh pair aoiBoundary as bs).Names x ↔
      Connected (Edge pair onlyInA onlyInB) root x := by
  obtain ⟨hidsA, hidsB⟩ :=
    osmIds_groupRecord sh pair aoiBoundary h.sortedA h.sortedB
  rw [ChangeRecord.Names, hidsA, hidsB, h.mem_ids.1, h.mem_ids.2]
  constructor
  · rintro (⟨-, hconn⟩ | ⟨-, hconn⟩)
    · exact hconn
    · exact hconn
  · intro hconn
    rcases h.linked with ⟨y, hy⟩
    obtain ⟨w, hw⟩ := exists_linked_of_connected hy hconn
    exact (mem_or_of_linked hw.symm).imp (⟨·, hconn⟩) (⟨·, hconn⟩)

/-- The group of an edge whose ends have no other edge. -/
theorem IsGroup.eq_single_of_isolated {f g : LoadedFeature G}
    {as bs : List (LoadedFeature G)}
    (hdisj : ∀ osmId ∈ onlyInA.toDict, osmId ∉ onlyInB.toDict)
    (h : IsGroup pair onlyInA onlyInB f.osmId as bs)
    (hf : onlyInA.get? f.osmId = some f) (hg : onlyInB.get? g.osmId = some g)
    (hpair : pair f g = true)
    (hfg : ∀ y, Linked (Edge pair onlyInA onlyInB) f.osmId y → y = g.osmId)
    (hgf : ∀ y, Linked (Edge pair onlyInA onlyInB) g.osmId y → y = f.osmId) :
    as = [f] ∧ bs = [g] := by
  have hends : ∀ y, Connected (Edge pair onlyInA onlyInB) f.osmId y →
      y = f.osmId ∨ y = g.osmId := by
    intro y hy
    induction hy with
    | refl => exact Or.inl rfl
    | tail _ hstep ih =>
        rcases ih with rfl | rfl
        · exact Or.inr (hfg _ hstep)
        · exact Or.inl (hgf _ hstep)
  have hedge : Connected (Edge pair onlyInA onlyInB) f.osmId g.osmId :=
    Relation.ReflTransGen.single (Or.inl ⟨f, g, hf, hg, hpair⟩)
  have hsorted : ∀ k : LoadedFeature G, SortedById [k] :=
    fun k => List.pairwise_singleton _ _
  constructor
  · apply eq_of_mem_iff_of_pairwise h.sortedA (hsorted f)
    intro k
    rw [h.memA, List.mem_singleton]
    constructor
    · rintro ⟨hk, hconn⟩
      rcases hends _ hconn with he | he
      · rw [he, hf] at hk
        exact (Option.some.inj hk).symm
      · exact absurd (Dict.mem_of_get? (he ▸ hg))
          (hdisj _ (Dict.mem_of_get? hk))
    · rintro rfl
      exact ⟨hf, Relation.ReflTransGen.refl⟩
  · apply eq_of_mem_iff_of_pairwise h.sortedB (hsorted g)
    intro k
    rw [h.memB, List.mem_singleton]
    constructor
    · rintro ⟨hk, hconn⟩
      rcases hends _ hconn with he | he
      · exact absurd (Dict.mem_of_get? hk)
          (hdisj _ (Dict.mem_of_get? (he ▸ hf)))
      · rw [he, hg] at hk
        exact (Option.some.inj hk).symm
    · rintro rfl
      exact ⟨hg, hedge⟩

/-- The pairs that the record of a group keeps are the edges of its
component. -/
theorem IsGroup.mem_pairMetrics {root : String} {as bs : List (LoadedFeature G)}
    {aoiBoundary : Option G} {a b : String} {m : MatchMetrics}
    (h : IsGroup pair onlyInA onlyInB root as bs) :
    ((a, b), m) ∈ (groupRecord sh pair aoiBoundary as bs).pairMetrics.items ↔
      ∃ f g, onlyInA.get? a = some f ∧ onlyInB.get? b = some g ∧
        pair f g = true ∧ Connected (Edge pair onlyInA onlyInB) root a ∧
        m = computeMetrics sh f g := by
  rw [pairMetrics_groupRecord sh aoiBoundary h.pair_of_single,
    mem_items_pairMetricsOf h.sortedA h.sortedB]
  constructor
  · rintro ⟨f, hf, g, hg, hpair, heq⟩
    obtain ⟨hids, rfl⟩ := Prod.mk.inj heq
    obtain ⟨rfl, rfl⟩ := Prod.mk.inj hids
    obtain ⟨hfget, hfconn⟩ := (h.memA f).mp hf
    exact ⟨f, g, hfget, ((h.memB g).mp hg).1, hpair, hfconn, rfl⟩
  · rintro ⟨f, g, hf, hg, hpair, hconn, rfl⟩
    obtain rfl := FeatureDict.osmId_of_get? hf
    obtain rfl := FeatureDict.osmId_of_get? hg
    have hedge : Edge pair onlyInA onlyInB f.osmId g.osmId :=
      ⟨f, g, hf, hg, hpair⟩
    exact ⟨f, (h.memA f).mpr ⟨hf, hconn⟩, g,
      (h.memB g).mpr ⟨hg, hconn.tail (Or.inl hedge)⟩, hpair, rfl⟩

end Components

section Changeset

variable {G J : Type} {sh : Shapely G J}
  {pair : LoadedFeature G → LoadedFeature G → Bool}
  {featuresA featuresB : FeatureDict G} {aoiBoundary : Option G}
  {records : List ChangeRecord}

/-- A component with an edge has one record, that of its group. -/
theorem IsChangeset.record_of_linked {x y : String} {r : ChangeRecord}
    (h : IsChangeset sh pair aoiBoundary featuresA featuresB records)
    (hxy : Linked (Edge pair (onlyIn featuresA featuresB)
      (onlyIn featuresB featuresA)) x y)
    {as bs : List (LoadedFeature G)}
    (hgroup : IsGroup pair (onlyIn featuresA featuresB)
      (onlyIn featuresB featuresA) x as bs) :
    (r ∈ records ∧ r.Names x) ↔ r = groupRecord sh pair aoiBoundary as bs := by
  constructor
  · rintro ⟨hr, hx⟩
    have hside := mem_or_of_linked hxy.symm
    cases (h.mem r).mp hr with
    | shared osmId a b ha hb =>
        obtain rfl := names_shared.mp hx
        rcases hside with hs | hs
        · exact absurd (Dict.mem_of_get? hb) (mem_onlyIn.mp hs).2
        · exact absurd (Dict.mem_of_get? ha) (mem_onlyIn.mp hs).2
    | group root as' bs' h' =>
        obtain ⟨rfl, rfl⟩ := h'.eq_of_connected hgroup (h'.names_iff.mp hx)
        rfl
    | removed a ha hnone =>
        obtain rfl := names_removed.mp hx
        rcases hxy with hedge | ⟨f, g, -, hg, -⟩
        · exact absurd hedge (hnone y)
        · exact absurd (Dict.mem_of_get? hg)
            (not_mem_onlyIn_of_mem (Dict.mem_of_get? ha))
    | added b hb hnone =>
        obtain rfl := names_added.mp hx
        rcases hxy with ⟨f, g, hf, -, -⟩ | hedge
        · exact absurd (Dict.mem_of_get? hf)
            (not_mem_onlyIn_of_mem (Dict.mem_of_get? hb))
        · exact absurd hedge (hnone y)
  · rintro rfl
    exact ⟨(h.mem _).mpr (.group x as bs hgroup),
      hgroup.names_iff.mpr Relation.ReflTransGen.refl⟩

/-- Every leftover id is named. -/
theorem IsChangeset.exists_names {x : String}
    (h : IsChangeset sh pair aoiBoundary featuresA featuresB records)
    (hx : x ∈ (onlyIn featuresA featuresB).toDict ∨
      x ∈ (onlyIn featuresB featuresA).toDict) :
    ∃ r ∈ records, r.Names x := by
  rcases hx with hx | hx
  · obtain ⟨r, hr, hid⟩ :=
      List.mem_flatMap.mp (h.idsA.mem_iff.mpr (mem_onlyIn.mp hx).1)
    exact ⟨r, hr, Or.inl hid⟩
  · obtain ⟨r, hr, hid⟩ :=
      List.mem_flatMap.mp (h.idsB.mem_iff.mpr (mem_onlyIn.mp hx).1)
    exact ⟨r, hr, Or.inr hid⟩

/-- A record of leftovers names one component. -/
theorem IsChangeset.connected_of_names {x y : String} {r : ChangeRecord}
    (h : IsChangeset sh pair aoiBoundary featuresA featuresB records)
    (hr : r ∈ records)
    (hleft : x ∈ (onlyIn featuresA featuresB).toDict ∨
      x ∈ (onlyIn featuresB featuresA).toDict)
    (hx : r.Names x) (hy : r.Names y) :
    Connected (Edge pair (onlyIn featuresA featuresB)
      (onlyIn featuresB featuresA)) x y := by
  cases (h.mem r).mp hr with
  | shared osmId a b ha hb =>
      obtain rfl := names_shared.mp hx
      rcases hleft with hs | hs
      · exact absurd (Dict.mem_of_get? hb) (mem_onlyIn.mp hs).2
      · exact absurd (Dict.mem_of_get? ha) (mem_onlyIn.mp hs).2
  | group root as bs hgroup =>
      exact (hgroup.names_iff.mp hx).symm.trans (hgroup.names_iff.mp hy)
  | removed a _ _ =>
      obtain rfl := names_removed.mp hx
      obtain rfl := names_removed.mp hy
      exact Relation.ReflTransGen.refl
  | added b _ _ =>
      obtain rfl := names_added.mp hx
      obtain rfl := names_added.mp hy
      exact Relation.ReflTransGen.refl

/-- Two leftover ids are in one record exactly when they are connected. -/
theorem IsChangeset.exists_names_both_iff {x y : String}
    (h : IsChangeset sh pair aoiBoundary featuresA featuresB records)
    (hx : x ∈ (onlyIn featuresA featuresB).toDict ∨
      x ∈ (onlyIn featuresB featuresA).toDict) :
    (∃ r ∈ records, r.Names x ∧ r.Names y) ↔
      Connected (Edge pair (onlyIn featuresA featuresB)
        (onlyIn featuresB featuresA)) x y := by
  constructor
  · rintro ⟨r, hr, hnx, hny⟩
    exact h.connected_of_names hr hx hnx hny
  · intro hconn
    rcases hconn.cases_head with rfl | ⟨z, hxz, -⟩
    · obtain ⟨r, hr, hnx⟩ := h.exists_names hx
      exact ⟨r, hr, hnx, hnx⟩
    · obtain ⟨as, bs, hgroup⟩ := exists_isGroup hxz
      obtain ⟨hr, hnx⟩ := (h.record_of_linked hxz hgroup).mpr rfl
      exact ⟨_, hr, hnx, hgroup.names_iff.mpr hconn⟩

end Changeset

section OverlapGraph

variable {G J : Type}

/-- The overlap graph: its edges join a feature that is only in the first
snapshot to a feature that is only in the second when their footprints overlap
in positive area. -/
def overlapGraph (sh : Shapely G J) (featuresA featuresB : FeatureDict G) :
    SimpleGraph String where
  Adj := Linked (Edge (overlapPair sh) (onlyIn featuresA featuresB)
    (onlyIn featuresB featuresA))
  symm := ⟨fun _ _ h => h.symm⟩
  loopless := ⟨fun x h => by
    obtain ⟨f, g, hf, hg, -⟩ : Edge (overlapPair sh)
        (onlyIn featuresA featuresB) (onlyIn featuresB featuresA) x x :=
      or_self_iff.mp h
    exact not_mem_onlyIn_of_mem (Dict.mem_of_get? hf) (Dict.mem_of_get? hg)⟩

variable {sh : Shapely G J} {featuresA featuresB : FeatureDict G}

theorem reachable_overlapGraph {x y : String} :
    (overlapGraph sh featuresA featuresB).Reachable x y ↔
      Connected (Edge (overlapPair sh) (onlyIn featuresA featuresB)
        (onlyIn featuresB featuresA)) x y :=
  SimpleGraph.reachable_iff_reflTransGen x y

/-- The outcome that the specification fixes, component by component. -/
structure FollowsSpecification (sh : Shapely G J)
    (featuresA featuresB : FeatureDict G) (records : List ChangeRecord) :
    Prop where
  nodup : records.Nodup
  /-- Leftover ids share a record exactly when edges join them. -/
  together : ∀ x y,
    (x ∈ (onlyIn featuresA featuresB).keys ∨
      x ∈ (onlyIn featuresB featuresA).keys) →
    ((∃ r ∈ records, r.Names x ∧ r.Names y) ↔
      (overlapGraph sh featuresA featuresB).Reachable x y)
  /-- No candidate for an A-feature. -/
  removed : ∀ a ∈ (onlyIn featuresA featuresB).keys,
    (∀ y, ¬ (overlapGraph sh featuresA featuresB).Adj a y) →
    ∃ r ∈ records, r.osmIdsA = [a] ∧ r.osmIdsB = [] ∧
      r.classification = .removed
  /-- No candidate for a B-feature. -/
  added : ∀ b ∈ (onlyIn featuresB featuresA).keys,
    (∀ y, ¬ (overlapGraph sh featuresA featuresB).Adj b y) →
    ∃ r ∈ records, r.osmIdsA = [] ∧ r.osmIdsB = [b] ∧ r.classification = .added
  /-- A component that is a single edge. -/
  oneToOne : ∀ a b f g,
    (onlyIn featuresA featuresB).get? a = some f →
    (onlyIn featuresB featuresA).get? b = some g →
    overlaps sh f.geometry g.geometry →
    (∀ y, (overlapGraph sh featuresA featuresB).Adj a y → y = b) →
    (∀ y, (overlapGraph sh featuresA featuresB).Adj b y → y = a) →
    ∃ r ∈ records, r.osmIdsA = [a] ∧ r.osmIdsB = [b] ∧
      r.pairMetrics.items = [((a, b), computeMetrics sh f g)] ∧
      (1 / 2 ≤ iou sh f.geometry g.geometry →
        r.matchMethod = some .geometry ∧
        r.matchScore = some (iou sh f.geometry g.geometry) ∧
        r.classification = decisionTable
          (iou sh f.geometry g.geometry < 99 / 100) (attrsChanged f g ≠ [])) ∧
      (iou sh f.geometry g.geometry < 1 / 2 →
        0 < iou sh f.geometry g.geometry ∧
        r.classification = .ambiguous ∧
        r.classificationReason = "partial_overlap")
  /-- A component with more than one edge. -/
  unresolved : ∀ a b a' b',
    Edge (overlapPair sh) (onlyIn featuresA featuresB)
      (onlyIn featuresB featuresA) a b →
    Edge (overlapPair sh) (onlyIn featuresA featuresB)
      (onlyIn featuresB featuresA) a' b' →
    (overlapGraph sh featuresA featuresB).Reachable a a' →
    (a, b) ≠ (a', b') →
    ∃ r ∈ records,
      (∀ s ∈ records, ∀ x,
        (overlapGraph sh featuresA featuresB).Reachable a x → s.Names x →
          s = r) ∧
      r.classification = .ambiguous ∧
      r.classificationReason =
        shapeReason r.osmIdsA.length r.osmIdsB.length ∧
      (r.osmIdsA.Nodup ∧ ∀ x, x ∈ r.osmIdsA ↔
        x ∈ (onlyIn featuresA featuresB).keys ∧
          (overlapGraph sh featuresA featuresB).Reachable a x) ∧
      (r.osmIdsB.Nodup ∧ ∀ x, x ∈ r.osmIdsB ↔
        x ∈ (onlyIn featuresB featuresA).keys ∧
          (overlapGraph sh featuresA featuresB).Reachable a x) ∧
      ∀ x y m, r.pairMetrics.get? (x, y) = some m ↔
        ∃ f g, (onlyIn featuresA featuresB).get? x = some f ∧
          (onlyIn featuresB featuresA).get? y = some g ∧
          overlaps sh f.geometry g.geometry ∧
          (overlapGraph sh featuresA featuresB).Reachable a x ∧
          m = computeMetrics sh f g

variable {records : List ChangeRecord} {aoiBoundary : Option G}

/-- The record of a component that is a single edge. -/
theorem IsChangeset.oneToOne (hunion : UnionCoversIntersection sh)
    (h : IsChangeset sh (overlapPair sh) aoiBoundary featuresA featuresB records)
    {f g : LoadedFeature G}
    (hf : (onlyIn featuresA featuresB).get? f.osmId = some f)
    (hg : (onlyIn featuresB featuresA).get? g.osmId = some g)
    (hov : overlaps sh f.geometry g.geometry)
    (hfg : ∀ y, (overlapGraph sh featuresA featuresB).Adj f.osmId y →
      y = g.osmId)
    (hgf : ∀ y, (overlapGraph sh featuresA featuresB).Adj g.osmId y →
      y = f.osmId) :
    ∃ r ∈ records, r.osmIdsA = [f.osmId] ∧ r.osmIdsB = [g.osmId] ∧
      r.pairMetrics.items = [((f.osmId, g.osmId), computeMetrics sh f g)] ∧
      (1 / 2 ≤ iou sh f.geometry g.geometry →
        r.matchMethod = some .geometry ∧
        r.matchScore = some (iou sh f.geometry g.geometry) ∧
        r.classification = decisionTable
          (iou sh f.geometry g.geometry < 99 / 100) (attrsChanged f g ≠ [])) ∧
      (iou sh f.geometry g.geometry < 1 / 2 →
        0 < iou sh f.geometry g.geometry ∧
        r.classification = .ambiguous ∧
        r.classificationReason = "partial_overlap") := by
  have hpair : overlapPair sh f g = true := decide_eq_true hov
  have hlink : Linked (Edge (overlapPair sh) (onlyIn featuresA featuresB)
      (onlyIn featuresB featuresA)) f.osmId g.osmId :=
    Or.inl ⟨f, g, hf, hg, hpair⟩
  obtain ⟨as, bs, hgroup⟩ := exists_isGroup hlink
  obtain ⟨hr, -⟩ := (h.record_of_linked hlink hgroup).mpr rfl
  have hpm := pairMetrics_groupRecord sh aoiBoundary hgroup.pair_of_single
  obtain ⟨hidsA, hidsB⟩ := osmIds_groupRecord sh (overlapPair sh) aoiBoundary
    hgroup.sortedA hgroup.sortedB
  obtain ⟨rfl, rfl⟩ := hgroup.eq_single_of_isolated
    (fun _ => not_mem_onlyIn_of_mem) hf hg hpair hfg hgf
  refine ⟨_, hr, hidsA, hidsB, ?_, ?_, ?_⟩
  · rw [hpm, items_pairMetricsOf hgroup.sortedA hgroup.sortedB]
    simp [candidatePairs, List.product, hpair]
  · intro hiou
    rw [groupRecord_of_iou_ge hiou]
    refine ⟨rfl, rfl, ?_⟩
    exact classifyPair_eq_decisionTable (computeMetrics sh f g)
  · intro hiou
    have hlt : ¬ tCrossIdMatch ≤ iou sh f.geometry g.geometry :=
      not_le.mpr hiou
    rw [groupRecord_of_iou_lt hlt]
    exact ⟨iou_pos_of_overlaps hunion hov, rfl, rfl⟩

/-- The group of a component with more than one edge is not one to one. -/
theorem exists_isGroup_of_two_edges {a b a' b' : String}
    (hab : Edge (overlapPair sh) (onlyIn featuresA featuresB)
      (onlyIn featuresB featuresA) a b)
    (hab' : Edge (overlapPair sh) (onlyIn featuresA featuresB)
      (onlyIn featuresB featuresA) a' b')
    (hreach : (overlapGraph sh featuresA featuresB).Reachable a a')
    (hne : (a, b) ≠ (a', b')) :
    ∃ as bs, IsGroup (overlapPair sh) (onlyIn featuresA featuresB)
        (onlyIn featuresB featuresA) a as bs ∧
      ¬ (as.length = 1 ∧ bs.length = 1) := by
  obtain ⟨as, bs, hgroup⟩ := exists_isGroup (Or.inl hab)
  refine ⟨as, bs, hgroup, ?_⟩
  rintro ⟨has, hbs⟩
  obtain ⟨f, rfl⟩ := List.length_eq_one_iff.mp has
  obtain ⟨g, rfl⟩ := List.length_eq_one_iff.mp hbs
  -- both edges run between the only two features of the group
  have hends : ∀ u v, Connected (Edge (overlapPair sh)
        (onlyIn featuresA featuresB) (onlyIn featuresB featuresA)) a u →
      Edge (overlapPair sh) (onlyIn featuresA featuresB)
        (onlyIn featuresB featuresA) u v → (u, v) = (f.osmId, g.osmId) := by
    rintro u v hu ⟨k, l, hk, hl, hpair⟩
    have hu' : u ∈ [f].map (·.osmId) :=
      (hgroup.mem_ids.1 u).mpr ⟨Dict.mem_of_get? hk, hu⟩
    have hv' : v ∈ [g].map (·.osmId) :=
      (hgroup.mem_ids.2 v).mpr ⟨Dict.mem_of_get? hl,
        hu.tail (Or.inl ⟨k, l, hk, hl, hpair⟩)⟩
    simp only [List.map_cons, List.map_nil, List.mem_singleton] at hu' hv'
    rw [hu', hv']
  exact hne ((hends a b Relation.ReflTransGen.refl hab).trans
    (hends a' b' (reachable_overlapGraph.mp hreach) hab').symm)

/-- A changeset over the overlapping pairs follows the specification. -/
theorem IsChangeset.followsSpecification (hunion : UnionCoversIntersection sh)
    (h : IsChangeset sh (overlapPair sh) aoiBoundary featuresA featuresB
      records) :
    FollowsSpecification sh featuresA featuresB records where
  nodup := h.sorted.imp (fun hlt heq => hlt.ne (congrArg recordKey heq))
  together x y hx := by
    rw [reachable_overlapGraph]
    exact h.exists_names_both_iff hx
  removed a ha hnone := by
    obtain ⟨f, hf⟩ := Dict.exists_get?_of_mem ha
    obtain rfl := FeatureDict.osmId_of_get? hf
    have hr := (h.mem _).mpr (.removed f hf (fun b hb => hnone b (Or.inl hb)))
    exact ⟨_, hr, rfl, rfl, rfl⟩
  added b hb hnone := by
    obtain ⟨g, hg⟩ := Dict.exists_get?_of_mem hb
    obtain rfl := FeatureDict.osmId_of_get? hg
    have hr := (h.mem _).mpr (.added g hg (fun a ha => hnone a (Or.inr ha)))
    exact ⟨_, hr, rfl, rfl, rfl⟩
  oneToOne a b f g hf hg hov hfg hgf := by
    obtain rfl := FeatureDict.osmId_of_get? hf
    obtain rfl := FeatureDict.osmId_of_get? hg
    exact h.oneToOne hunion hf hg hov hfg hgf
  unresolved a b a' b' hab hab' hreach hne := by
    obtain ⟨as, bs, hgroup, hshape⟩ :=
      exists_isGroup_of_two_edges hab hab' hreach hne
    obtain ⟨hr, -⟩ := (h.record_of_linked (Or.inl hab) hgroup).mpr rfl
    obtain ⟨hidsA, hidsB⟩ := osmIds_groupRecord sh (overlapPair sh) aoiBoundary
      hgroup.sortedA hgroup.sortedB
    obtain ⟨hclass, hreason⟩ :=
      groupRecord_unresolved sh (overlapPair sh) aoiBoundary hshape
    refine ⟨_, hr, ?_, hclass, ?_, ?_, ?_, ?_⟩
    · intro s hs x hx hnames
      have hconn := reachable_overlapGraph.mp hx
      obtain ⟨w, hw⟩ := exists_linked_of_connected (Or.inl hab) hconn
      exact (h.record_of_linked hw (hgroup.reroot hconn hw)).mp ⟨hs, hnames⟩
    · rw [hreason, hidsA, hidsB, List.length_map, List.length_map]
    · rw [hidsA]
      refine ⟨hgroup.sortedA.nodup_ids, ?_⟩
      intro x
      rw [hgroup.mem_ids.1, reachable_overlapGraph]
      rfl
    · rw [hidsB]
      refine ⟨hgroup.sortedB.nodup_ids, ?_⟩
      intro x
      rw [hgroup.mem_ids.2, reachable_overlapGraph]
      rfl
    · intro x y m
      rw [Dict.get?_eq_some_iff, hgroup.mem_pairMetrics]
      simp only [overlapPair, decide_eq_true_eq, reachable_overlapGraph]

/-- Resolution follows the specification on every overlap graph. -/
theorem buildChangeset_resolution (sh : Shapely G J) (rt : Runtime G)
    (hindex : ExactIndex sh rt) (hint : OverlapIntersects sh)
    (hunion : UnionCoversIntersection sh) (featuresA featuresB : FeatureDict G)
    (aoiBoundary : Option G) :
    ∃ records,
      buildChangeset sh rt featuresA featuresB aoiBoundary = .ok records ∧
      FollowsSpecification sh featuresA featuresB records := by
  obtain ⟨records, hrun, h⟩ :=
    buildChangeset_overlaps hindex hint featuresA featuresB aoiBoundary
  exact ⟨records, hrun, h.followsSpecification hunion⟩

/-- One building replaced by a building with another id on half of its site. -/
theorem buildChangeset_resolution_replaced :
    ∃ records,
      buildChangeset Raster.shapely Raster.exact
          (Raster.snapshot [Raster.building "way/1" {(0, 0), (0, 1)}])
          (Raster.snapshot [Raster.building "way/2" {(0, 0)}]) none =
        .ok records ∧
      FollowsSpecification Raster.shapely
        (Raster.snapshot [Raster.building "way/1" {(0, 0), (0, 1)}])
        (Raster.snapshot [Raster.building "way/2" {(0, 0)}]) records :=
  buildChangeset_resolution Raster.shapely Raster.exact Raster.exactIndex
    Raster.overlapIntersects Raster.unionCoversIntersection _ _ none

end OverlapGraph

end VectorMapChanges
