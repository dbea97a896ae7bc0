import VectorMapChanges.Matching.Records
import VectorMapChanges.Raster

/-!
# Reversing the comparison

Candidate generation and the walk treat the two snapshots differently, but the
records do not: comparing the newer snapshot to the older one gives the mirror
images of the records.

Main facts:
* `isGroup_swap`: a component is a component from either side;
* `exists_mirror`: every record has a mirror image in the reversed comparison;
* `buildChangeset_mirror`: the reversed comparison returns the mirror images.
-/

namespace VectorMapChanges

open Lib

/-- `added` and `removed` are exchanged. -/
def Classification.mirror : Classification → Classification
  | added => removed
  | removed => added
  | c => c

/-- `split_candidate` and `merge_candidate` are exchanged. -/
def mirrorReason (reason : String) : String :=
  if reason = "split_candidate" then "merge_candidate"
  else if reason = "merge_candidate" then "split_candidate"
  else reason

theorem mirror_mirror (c : Classification) : c.mirror.mirror = c := by
  cases c <;> rfl

theorem mirrorReason_mirrorReason (reason : String) :
    mirrorReason (mirrorReason reason) = reason := by
  unfold mirrorReason
  split_ifs <;> simp_all

/-- A matched pair has a reason that is its own mirror image. -/
theorem mirrorReason_match (matchMethod : MatchMethod) (c : Classification) :
    mirrorReason (matchMethod.value ++ "_match_" ++ c.value) =
      matchMethod.value ++ "_match_" ++ c.value := by
  cases matchMethod <;> cases c <;> decide

/-- A matched pair is neither added nor removed. -/
theorem mirror_classifyPair (metrics : MatchMetrics) :
    (classifyPair metrics).mirror = classifyPair metrics := by
  simp only [classifyPair]
  split_ifs <;> rfl

/-- The metrics that decide, and that do not depend on the direction. -/
def deciding (metrics : MatchMetrics) : ℚ × List String :=
  (metrics.iou, metrics.attrsChanged)

/-- `s` is the mirror image of `r`. -/
structure Mirror (r s : ChangeRecord) : Prop where
  osmIdsA : s.osmIdsA = r.osmIdsB
  osmIdsB : s.osmIdsB = r.osmIdsA
  classification : s.classification = r.classification.mirror
  classificationReason : s.classificationReason =
    mirrorReason r.classificationReason
  matchMethod : s.matchMethod = r.matchMethod
  matchScore : s.matchScore = r.matchScore
  involvesRepairedGeometry :
    s.involvesRepairedGeometry = r.involvesRepairedGeometry
  touchesAoiBoundary : s.touchesAoiBoundary = r.touchesAoiBoundary
  pairMetrics : ∀ a b, (s.pairMetrics.get? (b, a)).map deciding =
    (r.pairMetrics.get? (a, b)).map deciding

theorem Mirror.symm {r s : ChangeRecord} (h : Mirror r s) : Mirror s r where
  osmIdsA := h.osmIdsB.symm
  osmIdsB := h.osmIdsA.symm
  classification := by
    rw [h.classification, mirror_mirror]
  classificationReason := by
    rw [h.classificationReason, mirrorReason_mirrorReason]
  matchMethod := h.matchMethod.symm
  matchScore := h.matchScore.symm
  involvesRepairedGeometry := h.involvesRepairedGeometry.symm
  touchesAoiBoundary := h.touchesAoiBoundary.symm
  pairMetrics a b := (h.pairMetrics b a).symm

section Swap

variable {G J : Type} {sh : Shapely G J}
  {pair : LoadedFeature G → LoadedFeature G → Bool}
  {onlyInA onlyInB : FeatureDict G}

variable (hpair : ∀ f g, pair f g = pair g f)

include hpair

theorem edge_swap {a b : String} :
    Edge pair onlyInB onlyInA b a ↔ Edge pair onlyInA onlyInB a b := by
  constructor
  · rintro ⟨g, f, hg, hf, h⟩
    exact ⟨f, g, hf, hg, (hpair f g).trans h⟩
  · rintro ⟨f, g, hf, hg, h⟩
    exact ⟨g, f, hg, hf, (hpair g f).trans h⟩

/-- The links do not depend on which side comes first. -/
theorem linked_swap :
    Linked (Edge pair onlyInB onlyInA) = Linked (Edge pair onlyInA onlyInB) := by
  funext x y
  exact propext
    ((or_congr (edge_swap hpair) (edge_swap hpair)).trans or_comm)

/-- A component is a component from either side. -/
theorem isGroup_swap {root : String} {as bs : List (LoadedFeature G)}
    (h : IsGroup pair onlyInA onlyInB root as bs) :
    IsGroup pair onlyInB onlyInA root bs as where
  sortedA := h.sortedB
  sortedB := h.sortedA
  memA := by
    rw [Connected, linked_swap hpair]
    exact h.memB
  memB := by
    rw [Connected, linked_swap hpair]
    exact h.memA
  linked := by
    rw [linked_swap hpair]
    exact h.linked

end Swap

section Mirrors

variable {G J : Type} {sh : Shapely G J} {aoiBoundary : Option G}

theorem deciding_computeMetrics (hsymm : SymmetricAreas sh)
    (a b : LoadedFeature G) :
    deciding (computeMetrics sh a b) = deciding (computeMetrics sh b a) := by
  simp only [deciding, computeMetrics_iou, computeMetrics_attrsChanged,
    iou_comm hsymm, attrsChanged_comm a b]

/-- Dictionaries of pairs that hold the same deciding metrics, transposed. -/
theorem get?_transposed {d e : Dict (String × String) MatchMetrics}
    (hde : ∀ a b m, ((a, b), m) ∈ d.items →
      ∃ n, ((b, a), n) ∈ e.items ∧ deciding n = deciding m)
    (hed : ∀ a b n, ((b, a), n) ∈ e.items →
      ∃ m, ((a, b), m) ∈ d.items ∧ deciding n = deciding m)
    (a b : String) :
    (e.get? (b, a)).map deciding = (d.get? (a, b)).map deciding := by
  cases hd : d.get? (a, b) with
  | some m =>
      obtain ⟨n, hn, hdec⟩ := hde a b m (Dict.get?_eq_some_iff.mp hd)
      rw [Dict.get?_eq_some_iff.mpr hn, Option.map_some, Option.map_some, hdec]
  | none =>
      cases he : e.get? (b, a) with
      | none => rfl
      | some n =>
          obtain ⟨m, hm, -⟩ := hed a b n (Dict.get?_eq_some_iff.mp he)
          rw [Dict.get?_eq_some_iff.mpr hm] at hd
          cases hd

theorem get?_pairMetricsOf_transposed (hsymm : SymmetricAreas sh)
    {pair : LoadedFeature G → LoadedFeature G → Bool}
    (hpair : ∀ f g, pair f g = pair g f) {as bs : List (LoadedFeature G)}
    (has : SortedById as) (hbs : SortedById bs) (a b : String) :
    ((pairMetricsOf sh pair bs as).get? (b, a)).map deciding =
      ((pairMetricsOf sh pair as bs).get? (a, b)).map deciding := by
  apply get?_transposed
  · intro x y m hm
    obtain ⟨f, hf, g, hg, h, heq⟩ := (mem_items_pairMetricsOf has hbs).mp hm
    obtain ⟨hids, rfl⟩ := Prod.mk.inj heq
    obtain ⟨rfl, rfl⟩ := Prod.mk.inj hids
    refine ⟨computeMetrics sh g f, ?_, deciding_computeMetrics hsymm g f⟩
    exact (mem_items_pairMetricsOf hbs has).mpr
      ⟨g, hg, f, hf, (hpair g f).trans h, rfl⟩
  · intro x y n hn
    obtain ⟨g, hg, f, hf, h, heq⟩ := (mem_items_pairMetricsOf hbs has).mp hn
    obtain ⟨hids, rfl⟩ := Prod.mk.inj heq
    obtain ⟨rfl, rfl⟩ := Prod.mk.inj hids
    refine ⟨computeMetrics sh f g, ?_, deciding_computeMetrics hsymm g f⟩
    exact (mem_items_pairMetricsOf has hbs).mpr
      ⟨f, hf, g, hg, (hpair f g).trans h, rfl⟩

/-- A pair is classified alike in both directions. -/
theorem classifyPair_congr {m n : MatchMetrics} (h : deciding m = deciding n) :
    classifyPair m = classifyPair n := by
  obtain ⟨hiou, hattrs⟩ := Prod.mk.inj h
  unfold classifyPair
  rw [hiou, hattrs]

theorem involvesRepaired_perm {fs gs : List (LoadedFeature G)}
    (h : fs.Perm gs) :
    involvesRepaired fs = involvesRepaired gs := by
  unfold involvesRepaired
  exact h.any_eq

theorem touchesAoiBoundary_perm {fs gs : List (LoadedFeature G)}
    (h : fs.Perm gs) :
    touchesAoiBoundary sh fs aoiBoundary =
      touchesAoiBoundary sh gs aoiBoundary := by
  unfold touchesAoiBoundary
  cases aoiBoundary with
  | none => rfl
  | some boundary => exact h.any_eq

theorem mirror_classifyMatched (hsymm : SymmetricAreas sh)
    (osmIdA osmIdB : String) (matchMethod : MatchMethod)
    (a b : LoadedFeature G) :
    Mirror
      (classifyMatched sh osmIdA osmIdB matchMethod (computeMetrics sh a b) a b
        aoiBoundary)
      (classifyMatched sh osmIdB osmIdA matchMethod (computeMetrics sh b a) b a
        aoiBoundary) := by
  have hdec := deciding_computeMetrics hsymm b a
  have hclass := classifyPair_congr hdec
  have hperm : [b, a].Perm [a, b] := List.Perm.swap a b []
  constructor
  · rfl
  · rfl
  · simp only [classifyMatched, hclass, mirror_classifyPair]
  · simp only [classifyMatched, hclass, mirrorReason_match]
  · rfl
  · simp only [classifyMatched, computeMetrics_iou, iou_comm hsymm]
  · exact involvesRepaired_perm hperm
  · exact touchesAoiBoundary_perm hperm
  · simp only [classifyMatched]
    have hitems : ∀ (k : String × String) (m : MatchMetrics),
        (Dict.ofList [(k, m)]).items = [(k, m)] :=
      fun k m => Dict.items_ofList (List.nodup_singleton k)
    apply get?_transposed
    · intro x y m hm
      rw [hitems, List.mem_singleton] at hm
      cases hm
      exact ⟨_, by rw [hitems, List.mem_singleton], hdec⟩
    · intro x y n hn
      rw [hitems, List.mem_singleton] at hn
      cases hn
      exact ⟨_, by rw [hitems, List.mem_singleton], hdec⟩

theorem mirror_ambiguous {aIds bIds : List String}
    {metrics metrics' : Dict (String × String) MatchMetrics}
    {reason : String} {feats feats' : List (LoadedFeature G)}
    (hmetrics : ∀ a b, (metrics'.get? (b, a)).map deciding =
      (metrics.get? (a, b)).map deciding)
    (hfeats : feats'.Perm feats) :
    Mirror (ambiguous sh aIds bIds metrics reason feats aoiBoundary)
      (ambiguous sh bIds aIds metrics' (mirrorReason reason) feats'
        aoiBoundary) where
  osmIdsA := rfl
  osmIdsB := rfl
  classification := rfl
  classificationReason := rfl
  matchMethod := rfl
  matchScore := rfl
  involvesRepairedGeometry := involvesRepaired_perm hfeats
  touchesAoiBoundary := touchesAoiBoundary_perm hfeats
  pairMetrics := hmetrics

/-- The record of a group and the record of the group read the other way. -/
theorem mirror_groupRecord (hsymm : SymmetricAreas sh)
    {pair : LoadedFeature G → LoadedFeature G → Bool}
    (hpair : ∀ f g, pair f g = pair g f) {as bs : List (LoadedFeature G)}
    (has : SortedById as) (hbs : SortedById bs) :
    Mirror (groupRecord sh pair aoiBoundary as bs)
      (groupRecord sh pair aoiBoundary bs as) := by
  have hmetrics := get?_pairMetricsOf_transposed hsymm hpair has hbs
  have hfeats : (bs ++ as).Perm (as ++ bs) := List.perm_append_comm
  by_cases hasOne : as.length = 1
  · obtain ⟨a, rfl⟩ := List.length_eq_one_iff.mp hasOne
    by_cases hbsOne : bs.length = 1
    · obtain ⟨b, rfl⟩ := List.length_eq_one_iff.mp hbsOne
      have hiou := iou_comm hsymm a.geometry b.geometry
      by_cases h : tCrossIdMatch ≤ iou sh a.geometry b.geometry
      · rw [groupRecord_of_iou_ge h, groupRecord_of_iou_ge (hiou ▸ h)]
        exact mirror_classifyMatched hsymm _ _ _ a b
      · rw [groupRecord_of_iou_lt h, groupRecord_of_iou_lt (hiou ▸ h)]
        exact mirror_ambiguous hmetrics hfeats
    · rw [groupRecord_split hbsOne, groupRecord_merge hbsOne]
      exact mirror_ambiguous hmetrics hfeats
  · by_cases hbsOne : bs.length = 1
    · obtain ⟨b, rfl⟩ := List.length_eq_one_iff.mp hbsOne
      rw [groupRecord_merge hasOne, groupRecord_split hasOne]
      exact mirror_ambiguous hmetrics hfeats
    · rw [groupRecord_complex hasOne hbsOne, groupRecord_complex hbsOne hasOne]
      exact mirror_ambiguous hmetrics hfeats

theorem mirror_addedOrRemoved (feature : LoadedFeature G)
    {c : Classification} (hc : c = .added ∨ c = .removed) :
    Mirror (addedOrRemoved sh c feature aoiBoundary)
      (addedOrRemoved sh c.mirror feature aoiBoundary) := by
  rcases hc with rfl | rfl
  · constructor <;> intros <;> rfl
  · constructor <;> intros <;> rfl

/-- Every record has a mirror image in the reversed comparison. -/
theorem exists_mirror (hsymm : SymmetricAreas sh)
    {pair : LoadedFeature G → LoadedFeature G → Bool}
    (hpair : ∀ f g, pair f g = pair g f) {featuresA featuresB : FeatureDict G}
    {r : ChangeRecord}
    (h : IsRecord sh pair aoiBoundary featuresA featuresB r) :
    ∃ s, IsRecord sh pair aoiBoundary featuresB featuresA s ∧ Mirror r s := by
  cases h with
  | shared osmId a b ha hb =>
      exact ⟨_, .shared osmId b a hb ha, mirror_classifyMatched hsymm _ _ _ a b⟩
  | group root as bs hgroup =>
      exact ⟨_, .group root bs as (isGroup_swap hpair hgroup),
        mirror_groupRecord hsymm hpair hgroup.sortedA hgroup.sortedB⟩
  | removed a ha hnone =>
      refine ⟨_, .added a ha ?_, mirror_addedOrRemoved a (Or.inr rfl)⟩
      exact fun b hb => hnone b ((edge_swap hpair).mp hb)
  | added b hb hnone =>
      refine ⟨_, .removed b hb ?_, mirror_addedOrRemoved b (Or.inl rfl)⟩
      exact fun a ha => hnone a ((edge_swap hpair).mp ha)

theorem overlapPair_comm (hsymm : SymmetricAreas sh) (f g : LoadedFeature G) :
    overlapPair sh f g = overlapPair sh g f := by
  refine decide_eq_decide.mpr ?_
  rw [overlaps, overlaps, hsymm.intersection]

/-- Reversing the comparison mirrors the records. -/
theorem buildChangeset_mirror (rt rt' : Runtime G) (hsymm : SymmetricAreas sh)
    (hindex : ExactIndex sh rt) (hindex' : ExactIndex sh rt')
    (hint : OverlapIntersects sh) (featuresA featuresB : FeatureDict G)
    (aoiBoundary : Option G) :
    ∃ records reversed,
      buildChangeset sh rt featuresA featuresB aoiBoundary = .ok records ∧
      buildChangeset sh rt' featuresB featuresA aoiBoundary = .ok reversed ∧
      (∀ r ∈ records, ∃ s ∈ reversed, Mirror r s) ∧
      ∀ s ∈ reversed, ∃ r ∈ records, Mirror r s := by
  obtain ⟨records, hrun, h⟩ :=
    buildChangeset_overlaps hindex hint featuresA featuresB aoiBoundary
  obtain ⟨reversed, hrun', h'⟩ :=
    buildChangeset_overlaps hindex' hint featuresB featuresA aoiBoundary
  refine ⟨records, reversed, hrun, hrun', ?_, ?_⟩
  · intro r hr
    obtain ⟨s, hs, hmirror⟩ :=
      exists_mirror hsymm (overlapPair_comm hsymm) ((h.mem r).mp hr)
    exact ⟨s, (h'.mem s).mpr hs, hmirror⟩
  · intro s hs
    obtain ⟨r, hr, hmirror⟩ :=
      exists_mirror hsymm (overlapPair_comm hsymm) ((h'.mem s).mp hs)
    exact ⟨r, (h.mem r).mpr hr, hmirror.symm⟩

end Mirrors

/-- A split, which is a merge when read the other way. -/
theorem buildChangeset_mirror_split :
    ∃ records reversed,
      buildChangeset Raster.shapely Raster.exact
          (Raster.snapshot [Raster.building "way/1" {(0, 0), (0, 1)}])
          (Raster.snapshot [Raster.building "way/2" {(0, 0)},
            Raster.building "way/3" {(0, 1)}]) none =
        .ok records ∧
      buildChangeset Raster.shapely Raster.exact
          (Raster.snapshot [Raster.building "way/2" {(0, 0)},
            Raster.building "way/3" {(0, 1)}])
          (Raster.snapshot [Raster.building "way/1" {(0, 0), (0, 1)}]) none =
        .ok reversed ∧
      (∀ r ∈ records, ∃ s ∈ reversed, Mirror r s) ∧
      ∀ s ∈ reversed, ∃ r ∈ records, Mirror r s :=
  buildChangeset_mirror Raster.exact Raster.exact Raster.symmetricAreas
    Raster.exactIndex Raster.exactIndex Raster.overlapIntersects _ _ none

end VectorMapChanges
