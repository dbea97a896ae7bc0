import VectorMapChanges.Raster

/-!
# The indexed search against all pairs

The search works with positions in a list that runs beside the dictionary, and
consumes the hits of the index in the order they come.  `overlappingIds` is the
definition it stands for: every B-feature is tested.

Main facts:
* `matchesOf_perm`: the ids found for one feature are those of the test of all
  features, up to order;
* `indexed_search_exact`: keys and lists of the mapping are exact.
-/

namespace VectorMapChanges

open Lib

section AllPairs

variable {G J : Type} (sh : Shapely G J) {rt : Runtime G}

/-- The B-ids that overlap one A-feature, found by testing every B-feature. -/
def overlappingIds (onlyInB : FeatureDict G) (aFeature : LoadedFeature G) :
    List String :=
  (onlyInB.items.filter
    (fun item => overlaps sh aFeature.geometry item.2.geometry)).map Prod.fst

variable {sh}

theorem nodup_overlappingIds (onlyInB : FeatureDict G) (f : LoadedFeature G) :
    (overlappingIds sh onlyInB f).Nodup :=
  List.Nodup.sublist (List.filter_sublist.map Prod.fst) onlyInB.nodupKeys

theorem mem_overlappingIds {onlyInB : FeatureDict G} {f : LoadedFeature G}
    {b : String} :
    b ∈ overlappingIds sh onlyInB f ↔
      ∃ g, onlyInB.get? b = some g ∧ overlaps sh f.geometry g.geometry := by
  simp only [overlappingIds, List.mem_map, List.mem_filter, decide_eq_true_eq]
  constructor
  · rintro ⟨⟨b', g⟩, ⟨hmem, hov⟩, rfl⟩
    exact ⟨g, Dict.get?_eq_some_iff.mpr hmem, hov⟩
  · rintro ⟨g, hg, hov⟩
    exact ⟨(b, g), ⟨Dict.get?_eq_some_iff.mp hg, hov⟩, rfl⟩

/-- The positions in the list of geometries stand for the items, in order. -/
theorem map_hitItem_finRange (onlyInB : FeatureDict G) :
    (List.finRange (bGeoms onlyInB).length).map (hitItem onlyInB) =
      onlyInB.items := by
  apply List.ext_getElem
  · rw [List.length_map, List.length_finRange]
    simp [bGeoms]
  · intro i hi hi'
    simp [hitItem]

/-- What the index hits once is listed once. -/
theorem matchesOf_perm (hquery : ExactQuery sh rt) (hint : OverlapIntersects sh)
    (onlyInB : FeatureDict G) (f : LoadedFeature G) :
    (matchesOf sh rt onlyInB f).Perm (overlappingIds sh onlyInB f) := by
  have hhits : ((List.finRange (bGeoms onlyInB).length).filter
      (fun i => sh.intersects f.geometry ((bGeoms onlyInB).get i))).map
        (hitItem onlyInB) =
      onlyInB.items.filter
        (fun item => sh.intersects f.geometry item.2.geometry) := by
    rw [← map_hitItem_finRange onlyInB, List.filter_map]
    refine congrArg (List.map _) (List.filter_congr ?_)
    intro i _
    rw [get_bGeoms]
    rfl
  have hnarrow : (onlyInB.items.filter
      (fun item => sh.intersects f.geometry item.2.geometry)).filter
        (fun item => overlaps sh f.geometry item.2.geometry) =
      onlyInB.items.filter
        (fun item => overlaps sh f.geometry item.2.geometry) := by
    rw [List.filter_filter]
    apply List.filter_congr
    intro item _
    rw [Bool.eq_iff_iff, Bool.and_eq_true, decide_eq_true_iff]
    exact ⟨And.left, fun hov => ⟨hov, hint _ _ hov⟩⟩
  have hperm := (hquery (bGeoms onlyInB) f.geometry).map (hitItem onlyInB)
  rw [hhits] at hperm
  have hfiltered := hperm.filter
    (fun item => decide (overlaps sh f.geometry item.2.geometry))
  rw [hnarrow] at hfiltered
  exact hfiltered.map Prod.fst

/-- The search lists, for every A-id, what the test of all pairs lists. -/
theorem generateCandidates_perm_allPairs (hquery : ExactQuery sh rt)
    (hint : OverlapIntersects sh) {onlyInA onlyInB : FeatureDict G}
    {a : String} {bs : List String}
    (h : (generateCandidates sh rt onlyInA onlyInB).get? a = some bs) :
    ∃ f, onlyInA.get? a = some f ∧ bs.Perm (overlappingIds sh onlyInB f) := by
  obtain ⟨f, hf, rfl, -⟩ :=
    mem_items_generateCandidates.mp (Dict.get?_eq_some_iff.mp h)
  exact ⟨f, Dict.get?_eq_some_iff.mpr hf, matchesOf_perm hquery hint onlyInB f⟩

/-- The indexed search finds the overlapping pairs: its keys are the A-ids with
an overlap, and each of its lists has every overlapping B-id once and no
other. -/
theorem indexed_search_exact (hquery : ExactQuery sh rt) (hint : OverlapIntersects sh)
    (onlyInA onlyInB : FeatureDict G) :
    (∀ a, a ∈ generateCandidates sh rt onlyInA onlyInB ↔
      ∃ f b g, onlyInA.get? a = some f ∧ onlyInB.get? b = some g ∧
        overlaps sh f.geometry g.geometry) ∧
    ∀ a bs, (generateCandidates sh rt onlyInA onlyInB).get? a = some bs →
      bs.Nodup ∧
      ∀ b, b ∈ bs ↔ ∃ f g, onlyInA.get? a = some f ∧ onlyInB.get? b = some g ∧
        overlaps sh f.geometry g.geometry := by
  constructor
  · intro a
    constructor
    · intro ha
      obtain ⟨bs, hbs⟩ := Dict.exists_get?_of_mem ha
      obtain ⟨f, hf, rfl, hne⟩ :=
        mem_items_generateCandidates.mp (Dict.get?_eq_some_iff.mp hbs)
      obtain ⟨b, hb⟩ := List.exists_mem_of_ne_nil _ hne
      obtain ⟨g, hg, hov⟩ := exists_of_mem_matchesOf hb
      exact ⟨f, b, g, Dict.get?_eq_some_iff.mpr hf, hg, hov⟩
    · rintro ⟨f, b, g, hf, hg, hov⟩
      have hb : b ∈ matchesOf sh rt onlyInB f :=
        (matchesOf_perm hquery hint onlyInB f).mem_iff.mpr
          (mem_overlappingIds.mpr ⟨g, hg, hov⟩)
      obtain ⟨bs, hbs, -⟩ := candidate_iff.mpr ⟨f, hf, hb⟩
      exact Dict.mem_of_get? hbs
  · intro a bs hbs
    obtain ⟨f, hf, hperm⟩ := generateCandidates_perm_allPairs hquery hint hbs
    refine ⟨hperm.nodup_iff.mpr (nodup_overlappingIds onlyInB f), ?_⟩
    intro b
    rw [hperm.mem_iff, mem_overlappingIds]
    constructor
    · rintro ⟨g, hg, hov⟩
      exact ⟨f, g, hf, hg, hov⟩
    · rintro ⟨f', g, hf', hg, hov⟩
      obtain rfl := Option.some.inj (hf.symm.trans hf')
      exact ⟨g, hg, hov⟩

end AllPairs

/-- Two new buildings over an old one, and a third beside them. -/
theorem indexed_search_exact_split :
    let before := Raster.snapshot [Raster.building "way/1" {(0, 0), (1, 0)}]
    let after := Raster.snapshot [Raster.building "way/2" {(0, 0)},
      Raster.building "way/3" {(1, 0)}, Raster.building "way/4" {(2, 0)}]
    "way/1" ∈ generateCandidates Raster.shapely Raster.exact before after ∧
    ∀ bs, (generateCandidates Raster.shapely Raster.exact before after).get?
        "way/1" = some bs → bs.Nodup :=
  ⟨((indexed_search_exact Raster.exactQuery Raster.overlapIntersects _ _).1
      "way/1").mpr
        ⟨Raster.building "way/1" {(0, 0), (1, 0)}, "way/2",
          Raster.building "way/2" {(0, 0)}, rfl, rfl, by decide⟩,
    fun bs hbs => ((indexed_search_exact Raster.exactQuery
      Raster.overlapIntersects _ _).2 "way/1" bs hbs).1⟩

end VectorMapChanges
