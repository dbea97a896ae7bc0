import VectorMapChanges.Matching.Features

/-!
# Spatial candidates

Candidate pairs among the features whose id does not persist.  A candidate is
an overlap of positive area; the spatial index only narrows the search.

Main facts:
* `mem_items_generateCandidates`: what each entry of the mapping is;
* `candidate_iff_hit`: a pair is a candidate when the index hits it and the
  footprints overlap;
* `candidate_iff_overlaps`: with an exact index, when they overlap.
-/

namespace VectorMapChanges

open Lib

section Candidates

variable {G J : Type} (sh : Shapely G J) (rt : Runtime G)

/-- The geometries that the tree is built over. -/
def bGeoms (onlyInB : FeatureDict G) : List G :=
  onlyInB.items.map (fun item => item.2.geometry)

/-- The item of `only_in_b` that a hit of the tree stands for. -/
def hitItem (onlyInB : FeatureDict G) (idx : Fin (bGeoms onlyInB).length) :
    String × LoadedFeature G :=
  onlyInB.items.get (idx.cast (by simp [bGeoms]))

theorem get_bGeoms (onlyInB : FeatureDict G)
    (idx : Fin (bGeoms onlyInB).length) :
    (bGeoms onlyInB).get idx = (hitItem onlyInB idx).2.geometry := by
  have hlt : idx.val < onlyInB.items.length := by
    simpa [bGeoms] using idx.isLt
  have hmap : (bGeoms onlyInB)[idx.val] = onlyInB.items[idx.val].2.geometry :=
    List.getElem_map _
  exact hmap

/-- The B-ids that overlap one A-feature, in the order of the hits. -/
def matchesOf (onlyInB : FeatureDict G) (aFeature : LoadedFeature G) :
    List String :=
  let geometry := aFeature.geometry
  let nearby := (rt.query (bGeoms onlyInB) geometry).map (hitItem onlyInB)
  (nearby.filter (fun item => overlaps sh geometry item.2.geometry)).map Prod.fst

/-- The overlapping B-ids of every A-id that has one. -/
def generateCandidates (onlyInA onlyInB : FeatureDict G) :
    Dict String (List String) :=
  if onlyInA.items = [] ∨ onlyInB.items = [] then Dict.empty
  else
    Dict.ofList
      ((onlyInA.items.map
          (fun item => (item.1, matchesOf sh rt onlyInB item.2))).filter
        (fun entry => !entry.2.isEmpty))

variable {sh rt}

theorem mem_matchesOf {onlyInB : FeatureDict G} {f : LoadedFeature G}
    {b : String} :
    b ∈ matchesOf sh rt onlyInB f ↔
      ∃ idx ∈ rt.query (bGeoms onlyInB) f.geometry,
        (hitItem onlyInB idx).1 = b ∧
        overlaps sh f.geometry (hitItem onlyInB idx).2.geometry := by
  simp only [matchesOf, List.mem_map, List.mem_filter, decide_eq_true_eq]
  constructor
  · rintro ⟨item, ⟨⟨idx, hidx, rfl⟩, hov⟩, rfl⟩
    exact ⟨idx, hidx, rfl, hov⟩
  · rintro ⟨idx, hidx, rfl, hov⟩
    exact ⟨_, ⟨⟨idx, hidx, rfl⟩, hov⟩, rfl⟩

theorem matchesOf_of_items_nil {onlyInB : FeatureDict G}
    (h : onlyInB.items = []) (f : LoadedFeature G) :
    matchesOf sh rt onlyInB f = [] := by
  rw [List.eq_nil_iff_forall_not_mem]
  intro b hb
  obtain ⟨idx, -⟩ := mem_matchesOf.mp hb
  have hlt := idx.isLt
  simp [bGeoms, h] at hlt

/-- The entries of the candidate mapping. -/
theorem mem_items_generateCandidates {onlyInA onlyInB : FeatureDict G}
    {a : String} {bs : List String} :
    (a, bs) ∈ (generateCandidates sh rt onlyInA onlyInB).items ↔
      ∃ f, (a, f) ∈ onlyInA.items ∧ bs = matchesOf sh rt onlyInB f ∧ bs ≠ [] := by
  unfold generateCandidates
  split_ifs with hempty
  · constructor
    · intro h
      simp at h
    · rintro ⟨f, hf, hbs, hne⟩
      rcases hempty with h | h
      · simp [h] at hf
      · exact absurd (hbs.trans (matchesOf_of_items_nil h f)) hne
  · have hnodup :
        (((onlyInA.items.map
            (fun item => (item.1, matchesOf sh rt onlyInB item.2))).filter
          (fun entry => !entry.2.isEmpty)).map Prod.fst).Nodup := by
      refine List.Nodup.sublist (List.filter_sublist.map Prod.fst) ?_
      rw [List.map_map]
      exact onlyInA.nodupKeys
    rw [Dict.items_ofList hnodup]
    simp only [List.mem_filter, List.mem_map, Bool.not_eq_true',
      List.isEmpty_eq_false_iff, Prod.mk.injEq]
    constructor
    · rintro ⟨⟨⟨a', f⟩, hf, rfl, rfl⟩, hne⟩
      exact ⟨f, hf, rfl, hne⟩
    · rintro ⟨f, hf, rfl, hne⟩
      exact ⟨⟨(a, f), hf, rfl, rfl⟩, hne⟩

/-- The pair `a`, `b` is listed in a candidate mapping. -/
def Candidate (candidates : Dict String (List String)) (a b : String) : Prop :=
  ∃ bs, candidates.get? a = some bs ∧ b ∈ bs

/-- Every candidate is a hit of the index that overlaps. -/
theorem candidate_iff {onlyInA onlyInB : FeatureDict G} {a b : String} :
    Candidate (generateCandidates sh rt onlyInA onlyInB) a b ↔
      ∃ f, onlyInA.get? a = some f ∧ b ∈ matchesOf sh rt onlyInB f := by
  unfold Candidate
  constructor
  · rintro ⟨bs, hbs, hb⟩
    obtain ⟨f, hf, rfl, -⟩ :=
      mem_items_generateCandidates.mp (Dict.get?_eq_some_iff.mp hbs)
    exact ⟨f, Dict.get?_eq_some_iff.mpr hf, hb⟩
  · rintro ⟨f, hf, hb⟩
    refine ⟨_, Dict.get?_eq_some_iff.mpr (mem_items_generateCandidates.mpr
      ⟨f, Dict.get?_eq_some_iff.mp hf, rfl, ?_⟩), hb⟩
    exact List.ne_nil_of_mem hb

theorem exists_of_mem_matchesOf {onlyInB : FeatureDict G} {f : LoadedFeature G}
    {b : String} (h : b ∈ matchesOf sh rt onlyInB f) :
    ∃ g, onlyInB.get? b = some g ∧ overlaps sh f.geometry g.geometry := by
  obtain ⟨idx, -, hb, hov⟩ := mem_matchesOf.mp h
  refine ⟨(hitItem onlyInB idx).2, Dict.get?_eq_some_iff.mpr ?_, hov⟩
  rw [← hb]
  exact List.get_mem _ _

/-- Candidates pair an A-feature with an overlapping B-feature. -/
theorem exists_of_candidate {onlyInA onlyInB : FeatureDict G} {a b : String}
    (h : Candidate (generateCandidates sh rt onlyInA onlyInB) a b) :
    ∃ f g, onlyInA.get? a = some f ∧ onlyInB.get? b = some g ∧
      overlaps sh f.geometry g.geometry := by
  obtain ⟨f, hf, hb⟩ := candidate_iff.mp h
  obtain ⟨g, hg, hov⟩ := exists_of_mem_matchesOf hb
  exact ⟨f, g, hf, hg, hov⟩

/-- The candidates are the overlapping pairs that the index hits. -/
theorem candidate_iff_hit {hit : G → G → Bool} (hhits : HitsBy hit rt)
    {onlyInA onlyInB : FeatureDict G} {a b : String} :
    Candidate (generateCandidates sh rt onlyInA onlyInB) a b ↔
      ∃ f g, onlyInA.get? a = some f ∧ onlyInB.get? b = some g ∧
        hit f.geometry g.geometry = true ∧
        overlaps sh f.geometry g.geometry := by
  rw [candidate_iff]
  constructor
  · rintro ⟨f, hf, hb⟩
    obtain ⟨idx, hidx, rfl, hov⟩ := mem_matchesOf.mp hb
    refine ⟨f, (hitItem onlyInB idx).2, hf,
      Dict.get?_eq_some_iff.mpr (List.get_mem _ _), ?_, hov⟩
    rw [hhits, get_bGeoms] at hidx
    exact hidx
  · rintro ⟨f, g, hf, hg, hhit, hov⟩
    refine ⟨f, hf, mem_matchesOf.mpr ?_⟩
    obtain ⟨i, hi⟩ := List.get_of_mem (Dict.get?_eq_some_iff.mp hg)
    have hitem : hitItem onlyInB (i.cast (by simp [bGeoms])) = (b, g) := by
      simpa [hitItem] using hi
    refine ⟨i.cast (by simp [bGeoms]), ?_, ?_, ?_⟩
    · rw [hhits, get_bGeoms, hitem]
      exact hhit
    · rw [hitem]
    · rw [hitem]
      exact hov

/-- With an exact index, the candidates are the overlapping pairs. -/
theorem candidate_iff_overlaps (hindex : ExactIndex sh rt)
    (hint : OverlapIntersects sh) {onlyInA onlyInB : FeatureDict G}
    {a b : String} :
    Candidate (generateCandidates sh rt onlyInA onlyInB) a b ↔
      ∃ f g, onlyInA.get? a = some f ∧ onlyInB.get? b = some g ∧
        overlaps sh f.geometry g.geometry := by
  rw [candidate_iff_hit hindex]
  constructor
  · rintro ⟨f, g, hf, hg, -, hov⟩
    exact ⟨f, g, hf, hg, hov⟩
  · rintro ⟨f, g, hf, hg, hov⟩
    exact ⟨f, g, hf, hg, hint _ _ hov, hov⟩

end Candidates

end VectorMapChanges
