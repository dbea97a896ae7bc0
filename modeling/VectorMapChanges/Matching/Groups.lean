import VectorMapChanges.Matching.Changeset

/-!
# Records of groups

`resolveGroup` works on ids and may raise at every subscript.  This module says
what it returns as a function of the two lists of features: `groupRecord`
matches on their shape and reads nothing else.  Which pairs of features count
as candidates is a parameter here; `Decides` ties it to a candidate mapping.

Main facts:
* `resolveGroup_eq`: no subscript of stage 4 raises, and the record is
  `groupRecord` of the features of the group, sorted by id;
* `mem_items_pairMetricsOf`: a group keeps the metrics of all its candidate
  pairs and of nothing else.
-/

namespace VectorMapChanges

open Lib

section Select

variable {G : Type}

namespace FeatureDict

/-- The features stored under the listed ids. -/
def select (d : FeatureDict G) (ids : List String) : List (LoadedFeature G) :=
  ids.filterMap (fun osmId => d.get? osmId)

theorem mem_select {d : FeatureDict G} {ids : List String}
    {f : LoadedFeature G} :
    f ∈ d.select ids ↔ f.osmId ∈ ids ∧ d.get? f.osmId = some f := by
  rw [select, List.mem_filterMap]
  constructor
  · rintro ⟨osmId, hmem, hget⟩
    rw [osmId_of_get? hget]
    exact ⟨hmem, hget⟩
  · rintro ⟨hmem, hget⟩
    exact ⟨f.osmId, hmem, hget⟩

theorem map_osmId_select {d : FeatureDict G} :
    ∀ {ids : List String}, (∀ osmId ∈ ids, osmId ∈ d.toDict) →
      (d.select ids).map (·.osmId) = ids
  | [], _ => by rfl
  | osmId :: rest, h => by
      obtain ⟨f, hf⟩ := Dict.exists_get?_of_mem (h osmId (by simp))
      have hrest : (d.select rest).map (·.osmId) = rest :=
        map_osmId_select (fun k hk => h k (List.mem_cons_of_mem _ hk))
      have hcons : d.select (osmId :: rest) = f :: d.select rest := by
        simp [select, hf]
      rw [hcons, List.map_cons, hrest, osmId_of_get? hf]

end FeatureDict

/-- Features in strictly increasing order of their ids. -/
def SortedById (fs : List (LoadedFeature G)) : Prop :=
  fs.Pairwise (fun f g => f.osmId < g.osmId)

theorem SortedById.nodup_ids {fs : List (LoadedFeature G)}
    (h : SortedById fs) :
    (fs.map (·.osmId)).Nodup :=
  List.pairwise_map.mpr (h.imp (fun hfg => ne_of_lt hfg))

theorem sortedById_of_map_eq {fs : List (LoadedFeature G)} {ids : List String}
    (hids : ids.Nodup) (h : fs.map (·.osmId) = sorted ids) :
    SortedById fs := by
  have hlt : (sorted ids).Pairwise (fun a b => a < b) :=
    pairwise_lt_sortBy (by simpa using hids)
  rw [← h, List.pairwise_map] at hlt
  exact hlt

/-- The features of a side whose id has a property, sorted. -/
theorem select_sorted {d : FeatureDict G} {ids : List String}
    {p : String → Prop} (hnodup : ids.Nodup)
    (hids : ∀ k, k ∈ ids ↔ k ∈ d.toDict ∧ p k) :
    (d.select (sorted ids)).map (·.osmId) = sorted ids ∧
    SortedById (d.select (sorted ids)) ∧
    ∀ f, f ∈ d.select (sorted ids) ↔ d.get? f.osmId = some f ∧ p f.osmId := by
  have hmap : (d.select (sorted ids)).map (·.osmId) = sorted ids := by
    apply FeatureDict.map_osmId_select
    intro k hk
    rw [mem_sortBy, hids] at hk
    exact hk.1
  refine ⟨hmap, sortedById_of_map_eq hnodup hmap, ?_⟩
  intro f
  rw [FeatureDict.mem_select, mem_sortBy, hids]
  constructor
  · rintro ⟨⟨-, hp⟩, hget⟩
    exact ⟨hget, hp⟩
  · rintro ⟨hget, hp⟩
    exact ⟨⟨Dict.mem_of_get? hget, hp⟩, hget⟩

/-- The ids of the features of a side whose id has a property. -/
theorem mem_map_osmId {d : FeatureDict G} {fs : List (LoadedFeature G)}
    {p : String → Prop} (h : ∀ f, f ∈ fs ↔ d.get? f.osmId = some f ∧ p f.osmId)
    (k : String) :
    k ∈ fs.map (·.osmId) ↔ k ∈ d.toDict ∧ p k := by
  rw [List.mem_map]
  constructor
  · rintro ⟨f, hf, rfl⟩
    obtain ⟨hget, hp⟩ := (h f).mp hf
    exact ⟨Dict.mem_of_get? hget, hp⟩
  · rintro ⟨hmem, hp⟩
    obtain ⟨f, hf⟩ := Dict.exists_get?_of_mem hmem
    obtain rfl := FeatureDict.osmId_of_get? hf
    exact ⟨f, (h f).mpr ⟨hf, hp⟩, rfl⟩

theorem SortedById.sorted_ids {fs : List (LoadedFeature G)}
    (h : SortedById fs) :
    sorted (fs.map (·.osmId)) = fs.map (·.osmId) := by
  have hlt : (fs.map (·.osmId)).Pairwise (fun a b => id a < id b) :=
    List.pairwise_map.mpr h
  exact eq_of_mem_iff_of_pairwise
    (pairwise_lt_sortBy (by simpa using h.nodup_ids)) hlt (fun a => mem_sortBy)

end Select

section GroupRecord

variable {G J : Type} (sh : Shapely G J)
  (pair : LoadedFeature G → LoadedFeature G → Bool)

/-- The candidate pairs of two lists of features. -/
def candidatePairs (as bs : List (LoadedFeature G)) :
    List (LoadedFeature G × LoadedFeature G) :=
  (as.product bs).filter (fun p => pair p.1 p.2)

/-- The metrics of all candidate pairs of two lists of features. -/
def pairMetricsOf (as bs : List (LoadedFeature G)) :
    Dict (String × String) MatchMetrics :=
  Dict.ofList ((candidatePairs pair as bs).map
    (fun p => ((p.1.osmId, p.2.osmId), computeMetrics sh p.1 p.2)))

/-- The record of the group of features `as` and `bs`. -/
def groupRecord (aoiBoundary : Option G) (as bs : List (LoadedFeature G)) :
    ChangeRecord :=
  let unresolved := fun reason =>
    ambiguous sh (as.map (·.osmId)) (bs.map (·.osmId))
      (pairMetricsOf sh pair as bs) reason (as ++ bs) aoiBoundary
  match as, bs with
  | [a], [b] =>
      if tCrossIdMatch ≤ iou sh a.geometry b.geometry then
        classifyMatched sh a.osmId b.osmId .geometry (computeMetrics sh a b) a b
          aoiBoundary
      else unresolved "partial_overlap"
  | [_], _ => unresolved "split_candidate"
  | _, [_] => unresolved "merge_candidate"
  | _, _ => unresolved "complex_cluster"

variable {sh pair}

theorem product_map_osmId (as bs : List (LoadedFeature G)) :
    (as.map (·.osmId)).product (bs.map (·.osmId)) =
      (as.product bs).map (fun p => (p.1.osmId, p.2.osmId)) := by
  simp [List.product, List.flatMap_map, List.map_flatMap, Function.comp_def]

theorem mem_candidatePairs {as bs : List (LoadedFeature G)}
    {p : LoadedFeature G × LoadedFeature G} :
    p ∈ candidatePairs pair as bs ↔
      (p.1 ∈ as ∧ p.2 ∈ bs) ∧ pair p.1 p.2 = true := by
  rcases p with ⟨a, b⟩
  simp [candidatePairs]

/-- Different candidate pairs of a group have different ids. -/
theorem nodup_map_candidatePairs {as bs : List (LoadedFeature G)}
    (has : SortedById as) (hbs : SortedById bs) :
    ((candidatePairs pair as bs).map
      (fun p => (p.1.osmId, p.2.osmId))).Nodup := by
  have hprod : ((as.map (·.osmId)).product (bs.map (·.osmId))).Nodup :=
    has.nodup_ids.product hbs.nodup_ids
  rw [product_map_osmId] at hprod
  exact hprod.sublist (List.filter_sublist.map _)

theorem items_pairMetricsOf {as bs : List (LoadedFeature G)}
    (has : SortedById as) (hbs : SortedById bs) :
    (pairMetricsOf sh pair as bs).items =
      (candidatePairs pair as bs).map
        (fun p => ((p.1.osmId, p.2.osmId), computeMetrics sh p.1 p.2)) := by
  refine Dict.items_ofList ?_
  rw [List.map_map]
  exact nodup_map_candidatePairs has hbs

/-- A group keeps the metrics of all its candidate pairs and of nothing
else. -/
theorem mem_items_pairMetricsOf {as bs : List (LoadedFeature G)}
    (has : SortedById as) (hbs : SortedById bs)
    {item : (String × String) × MatchMetrics} :
    item ∈ (pairMetricsOf sh pair as bs).items ↔
      ∃ a ∈ as, ∃ b ∈ bs, pair a b = true ∧
        item = ((a.osmId, b.osmId), computeMetrics sh a b) := by
  rw [items_pairMetricsOf has hbs, List.mem_map]
  constructor
  · rintro ⟨⟨a, b⟩, hp, rfl⟩
    obtain ⟨⟨ha, hb⟩, hpair⟩ := mem_candidatePairs.mp hp
    exact ⟨a, ha, b, hb, hpair, rfl⟩
  · rintro ⟨a, ha, b, hb, hpair, rfl⟩
    exact ⟨(a, b), mem_candidatePairs.mpr ⟨⟨ha, hb⟩, hpair⟩, rfl⟩

section Shapes

variable {aoiBoundary : Option G} {a b : LoadedFeature G}
  {as bs : List (LoadedFeature G)}

theorem groupRecord_of_iou_ge
    (h : tCrossIdMatch ≤ iou sh a.geometry b.geometry) :
    groupRecord sh pair aoiBoundary [a] [b] =
      classifyMatched sh a.osmId b.osmId .geometry (computeMetrics sh a b) a b
        aoiBoundary := by
  simp [groupRecord, h]

theorem groupRecord_of_iou_lt
    (h : ¬ tCrossIdMatch ≤ iou sh a.geometry b.geometry) :
    groupRecord sh pair aoiBoundary [a] [b] =
      ambiguous sh [a.osmId] [b.osmId] (pairMetricsOf sh pair [a] [b])
        "partial_overlap" [a, b] aoiBoundary := by
  simp [groupRecord, h]

theorem groupRecord_split (hbs : bs.length ≠ 1) :
    groupRecord sh pair aoiBoundary [a] bs =
      ambiguous sh [a.osmId] (bs.map (·.osmId)) (pairMetricsOf sh pair [a] bs)
        "split_candidate" (a :: bs) aoiBoundary := by
  rcases bs with _ | ⟨b, _ | ⟨b', bs⟩⟩
  · rfl
  · exact absurd rfl hbs
  · rfl

theorem groupRecord_merge (has : as.length ≠ 1) :
    groupRecord sh pair aoiBoundary as [b] =
      ambiguous sh (as.map (·.osmId)) [b.osmId] (pairMetricsOf sh pair as [b])
        "merge_candidate" (as ++ [b]) aoiBoundary := by
  rcases as with _ | ⟨a, _ | ⟨a', as⟩⟩
  · rfl
  · exact absurd rfl has
  · rfl

theorem groupRecord_complex (has : as.length ≠ 1) (hbs : bs.length ≠ 1) :
    groupRecord sh pair aoiBoundary as bs =
      ambiguous sh (as.map (·.osmId)) (bs.map (·.osmId))
        (pairMetricsOf sh pair as bs) "complex_cluster" (as ++ bs)
        aoiBoundary := by
  rcases as with _ | ⟨a, _ | ⟨a', as⟩⟩
  · rcases bs with _ | ⟨b, _ | ⟨b', bs⟩⟩
    · rfl
    · exact absurd rfl hbs
    · rfl
  · exact absurd rfl has
  · rcases bs with _ | ⟨b, _ | ⟨b', bs⟩⟩
    · rfl
    · exact absurd rfl hbs
    · rfl

end Shapes

/-- Resolved or not, a group's record keeps the metrics of its candidate
pairs. -/
theorem pairMetrics_groupRecord (sh : Shapely G J) (aoiBoundary : Option G)
    {as bs : List (LoadedFeature G)}
    (hsingle : ∀ a b, as = [a] → bs = [b] → pair a b = true) :
    (groupRecord sh pair aoiBoundary as bs).pairMetrics =
      pairMetricsOf sh pair as bs := by
  unfold groupRecord
  split
  · rename_i a b
    have hpairs : candidatePairs pair [a] [b] = [(a, b)] := by
      simp [candidatePairs, List.product, hsingle a b rfl rfl]
    split_ifs
    · simp [classifyMatched, pairMetricsOf, hpairs]
    · rfl
  · rfl
  · rfl
  · rfl

/-- Both shapes of a group's record name the ids of the group, in order. -/
theorem osmIds_groupRecord (sh : Shapely G J)
    (pair : LoadedFeature G → LoadedFeature G → Bool) (aoiBoundary : Option G)
    {as bs : List (LoadedFeature G)} (has : SortedById as)
    (hbs : SortedById bs) :
    (groupRecord sh pair aoiBoundary as bs).osmIdsA = as.map (·.osmId) ∧
    (groupRecord sh pair aoiBoundary as bs).osmIdsB = bs.map (·.osmId) := by
  unfold groupRecord
  split
  · split_ifs
    · simp [classifyMatched]
    · exact ⟨has.sorted_ids, hbs.sorted_ids⟩
  · exact ⟨has.sorted_ids, hbs.sorted_ids⟩
  · exact ⟨has.sorted_ids, hbs.sorted_ids⟩
  · exact ⟨has.sorted_ids, hbs.sorted_ids⟩

end GroupRecord

section Resolve

variable {G J : Type} {sh : Shapely G J}
  {pair : LoadedFeature G → LoadedFeature G → Bool}
  {order : HashOrder} {onlyInA onlyInB : FeatureDict G}
  {candidates : Dict String (List String)} {aoiBoundary : Option G}

/-- `pair` says which of the features are candidates in the mapping. -/
def Decides (pair : LoadedFeature G → LoadedFeature G → Bool)
    (candidates : Dict String (List String))
    (onlyInA onlyInB : FeatureDict G) : Prop :=
  ∀ f g, onlyInA.get? f.osmId = some f → onlyInB.get? g.osmId = some g →
    pair f g = isCandidate candidates f.osmId g.osmId

/-- The features are those stored under their own ids. -/
def Stored (d : FeatureDict G) (fs : List (LoadedFeature G)) : Prop :=
  ∀ f ∈ fs, d.get? f.osmId = some f

theorem mapM_getItem_of_stored {d : FeatureDict G} {fs : List (LoadedFeature G)}
    (h : Stored d fs) :
    (fs.map (·.osmId)).mapM (getItem d.toDict) = .ok fs := by
  rw [mapM_eq_ok_iff, List.forall₂_map_left_iff, List.forall₂_same]
  intro f hf
  exact getItem_eq_ok_iff.mpr (h f hf)

theorem groupMetrics_eq {as bs : List (LoadedFeature G)}
    (hdec : Decides pair candidates onlyInA onlyInB)
    (has : Stored onlyInA as) (hbs : Stored onlyInB bs) :
    groupMetrics sh onlyInA onlyInB candidates
        (as.map (·.osmId)) (bs.map (·.osmId)) =
      .ok (pairMetricsOf sh pair as bs) := by
  have hpairs :
      ((as.map (·.osmId)).product (bs.map (·.osmId))).filter
          (fun p => isCandidate candidates p.1 p.2) =
        (candidatePairs pair as bs).map (fun p => (p.1.osmId, p.2.osmId)) := by
    rw [product_map_osmId, List.filter_map]
    refine congrArg (List.map _) (List.filter_congr ?_)
    rintro ⟨a, b⟩ hp
    obtain ⟨ha, hb⟩ := List.mem_product.mp hp
    exact (hdec a b (has a ha) (hbs b hb)).symm
  have hentries :
      ((candidatePairs pair as bs).map (fun p => (p.1.osmId, p.2.osmId))).mapM
          (fun p => do
            let a ← getItem onlyInA.toDict p.1
            let b ← getItem onlyInB.toDict p.2
            pure (p, computeMetrics sh a b)) =
        .ok ((candidatePairs pair as bs).map
          (fun p => ((p.1.osmId, p.2.osmId), computeMetrics sh p.1 p.2))) := by
    rw [mapM_eq_ok_iff, List.forall₂_map_left_iff, List.forall₂_map_right_iff,
      List.forall₂_same]
    rintro ⟨a, b⟩ hp
    obtain ⟨⟨ha, hb⟩, -⟩ := mem_candidatePairs.mp hp
    exact bind_eq_ok.mpr ⟨a, getItem_eq_ok_iff.mpr (has a ha),
      bind_eq_ok.mpr ⟨b, getItem_eq_ok_iff.mpr (hbs b hb), rfl⟩⟩
  simp only [groupMetrics]
  rw [hpairs, hentries]
  rfl

/-- The features of a side, sorted by id, have the ids of that side. -/
theorem perm_of_map_eq_sorted {ids : List String} {fs : List (LoadedFeature G)}
    (h : fs.map (·.osmId) = sorted ids) (hnodup : ids.Nodup) :
    ids.Perm (fs.map (·.osmId)) ∧ sorted (fs.map (·.osmId)) = sorted ids := by
  have hperm : ids.Perm (fs.map (·.osmId)) := by
    rw [h]
    exact (sortBy_perm id _).symm
  refine ⟨hperm, sortBy_eq_of_perm hperm.symm ?_⟩
  simpa using (hperm.nodup_iff).mp hnodup

/-- A side of a group is a single feature in ids and in features alike. -/
theorem single_or_of_perm {ids : List String} {fs : List (LoadedFeature G)}
    (h : ids.Perm (fs.map (·.osmId))) :
    (∃ f, fs = [f] ∧ ids = [f.osmId]) ∨ (fs.length ≠ 1 ∧ ids.length ≠ 1) := by
  by_cases hfs : fs.length = 1
  · obtain ⟨f, rfl⟩ := List.length_eq_one_iff.mp hfs
    exact Or.inl ⟨f, rfl, List.perm_singleton.mp h⟩
  · refine Or.inr ⟨hfs, ?_⟩
    rw [h.length_eq, List.length_map]
    exact hfs

/-- The metrics of a single candidate pair are found under its ids. -/
theorem get?_pairMetricsOf_single {a b : LoadedFeature G}
    (h : pair a b = true) :
    (pairMetricsOf sh pair [a] [b]).get? (a.osmId, b.osmId) =
      some (computeMetrics sh a b) := by
  rw [Dict.get?_eq_some_iff, mem_items_pairMetricsOf
    (List.pairwise_singleton _ _) (List.pairwise_singleton _ _)]
  exact ⟨a, by simp, b, by simp, h, rfl⟩

/-- Stage 4 does not raise on a group of stored features, and its record is
`groupRecord` of the features sorted by id. -/
theorem resolveGroup_eq {group : List String × List String}
    {as bs : List (LoadedFeature G)}
    (hdec : Decides pair candidates onlyInA onlyInB)
    (has : Stored onlyInA as) (hbs : Stored onlyInB bs)
    (hasorted : as.map (·.osmId) = sorted (order.iter .groupA group.1))
    (hbsorted : bs.map (·.osmId) = sorted (order.iter .groupB group.2))
    (hsingle : ∀ a b, as = [a] → bs = [b] → pair a b = true) :
    resolveGroup sh order onlyInA onlyInB candidates aoiBoundary group =
      .ok (groupRecord sh pair aoiBoundary as bs) := by
  obtain ⟨hA, hsideA⟩ := perm_of_map_eq_sorted hasorted (order.nodup_iter _ _)
  obtain ⟨hB, hsideB⟩ := perm_of_map_eq_sorted hbsorted (order.nodup_iter _ _)
  have hunresolved : ∀ pairMetrics reason feats,
      ambiguous sh (order.iter .groupA group.1) (order.iter .groupB group.2)
          pairMetrics reason feats aoiBoundary =
        ambiguous sh (as.map (·.osmId)) (bs.map (·.osmId))
          pairMetrics reason feats aoiBoundary := by
    intro pairMetrics reason feats
    simp only [ambiguous, hsideA, hsideB]
  unfold resolveGroup
  simp only [← hasorted, ← hbsorted, groupMetrics_eq hdec has hbs,
    mapM_getItem_of_stored has, mapM_getItem_of_stored hbs, hunresolved]
  generalize order.iter .groupA group.1 = aIds at hA
  generalize order.iter .groupB group.2 = bIds at hB
  -- what is left is the match on the shape of the group
  rcases single_or_of_perm hA with ⟨a, rfl, rfl⟩ | ⟨hasOne, haIds⟩
  · rcases single_or_of_perm hB with ⟨b, rfl, rfl⟩ | ⟨hbsOne, hbIds⟩
    · have hget : getItem (pairMetricsOf sh pair [a] [b]) (a.osmId, b.osmId) =
          .ok (computeMetrics sh a b) :=
        getItem_eq_ok_iff.mpr (get?_pairMetricsOf_single (hsingle a b rfl rfl))
      have hgetA : getItem onlyInA.toDict a.osmId = .ok a :=
        getItem_eq_ok_iff.mpr (has a (by simp))
      have hgetB : getItem onlyInB.toDict b.osmId = .ok b :=
        getItem_eq_ok_iff.mpr (hbs b (by simp))
      by_cases hiou : tCrossIdMatch ≤ iou sh a.geometry b.geometry
      · rw [groupRecord_of_iou_ge hiou]
        simp only [ok_bind, hget, hgetA, hgetB, computeMetrics_iou, if_pos hiou]
        rfl
      · rw [groupRecord_of_iou_lt hiou]
        simp only [ok_bind, hget, computeMetrics_iou, if_neg hiou]
        rfl
    · rw [groupRecord_split hbsOne]
      rcases bIds with _ | ⟨b, _ | ⟨b', bIds⟩⟩
      · rfl
      · exact absurd rfl hbIds
      · rfl
  · rcases single_or_of_perm hB with ⟨b, rfl, rfl⟩ | ⟨hbsOne, hbIds⟩
    · rw [groupRecord_merge hasOne]
      rcases aIds with _ | ⟨a, _ | ⟨a', aIds⟩⟩
      · rfl
      · exact absurd rfl haIds
      · rfl
    · rw [groupRecord_complex hasOne hbsOne]
      rcases aIds with _ | ⟨a, _ | ⟨a', aIds⟩⟩
      · rcases bIds with _ | ⟨b, _ | ⟨b', bIds⟩⟩
        · rfl
        · exact absurd rfl hbIds
        · rfl
      · exact absurd rfl haIds
      · rcases bIds with _ | ⟨b, _ | ⟨b', bIds⟩⟩
        · rfl
        · exact absurd rfl hbIds
        · rfl

end Resolve

end VectorMapChanges
