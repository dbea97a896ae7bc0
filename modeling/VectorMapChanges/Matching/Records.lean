import VectorMapChanges.Matching.Groups

/-!
# The change records of a pair of snapshots

What `buildChangeset` returns, without the order in which it works.  A record
stands for an id that persists, for a connected component of the overlap graph
of the features that do not, or for a feature without overlaps.

Main facts:
* `exists_buildChangeset`: the pipeline does not raise, returns exactly the
  records of `IsRecord`, strictly sorted, and these partition the ids of both
  snapshots;
* `buildChangeset_listed`, `buildChangeset_overlaps`: so it does over the listed
  pairs in any case, and over the overlapping pairs where the index is exact.
-/

namespace VectorMapChanges

open Lib

section Leftovers

variable {G : Type}

/-- The features of the first snapshot whose id is not in the second. -/
def onlyIn (featuresA featuresB : FeatureDict G) : FeatureDict G :=
  featuresA.filterIds (· ∉ featuresB.keys)

variable {featuresA featuresB : FeatureDict G}

theorem get?_onlyIn {osmId : String} {f : LoadedFeature G} :
    (onlyIn featuresA featuresB).get? osmId = some f ↔
      featuresA.get? osmId = some f ∧ osmId ∉ featuresB.keys := by
  rw [onlyIn, FeatureDict.filterIds, Dict.get?_filterKeys, decide_eq_true_iff]

theorem mem_onlyIn {osmId : String} :
    osmId ∈ (onlyIn featuresA featuresB).toDict ↔
      osmId ∈ featuresA.keys ∧ osmId ∉ featuresB.keys := by
  rw [onlyIn, FeatureDict.filterIds, Dict.mem_filterKeys, decide_eq_true_iff]
  rfl

theorem keys_onlyIn (featuresA featuresB : FeatureDict G) :
    (onlyIn featuresA featuresB).keys =
      featuresA.keys.filter (· ∉ featuresB.keys) :=
  Dict.keys_filterKeys _ _

/-- The two sides of the leftovers have no id in common. -/
theorem not_mem_onlyIn_of_mem {osmId : String}
    (h : osmId ∈ (onlyIn featuresA featuresB).toDict) :
    osmId ∉ (onlyIn featuresB featuresA).toDict :=
  fun h' => (mem_onlyIn.mp h).2 (mem_onlyIn.mp h').1

theorem filterIds_shared_left :
    featuresA.filterIds
        (· ∉ featuresA.keys.filter (· ∈ featuresB.keys)) =
      onlyIn featuresA featuresB := by
  apply FeatureDict.ext_items
  apply List.filter_congr
  intro item hitem
  have hkey : item.1 ∈ featuresA.keys := Dict.mem_of_item hitem
  simp [hkey]

theorem filterIds_shared_right :
    featuresB.filterIds
        (· ∉ featuresA.keys.filter (· ∈ featuresB.keys)) =
      onlyIn featuresB featuresA := by
  apply FeatureDict.ext_items
  apply List.filter_congr
  intro item hitem
  have hkey : item.1 ∈ featuresB.keys := Dict.mem_of_item hitem
  simp [hkey]

end Leftovers

section Spec

variable {G J : Type} (sh : Shapely G J)
  (pair : LoadedFeature G → LoadedFeature G → Bool)

/-- Two leftover ids are joined by an edge when their features are paired. -/
def Edge (onlyInA onlyInB : FeatureDict G) (a b : String) : Prop :=
  ∃ f g, onlyInA.get? a = some f ∧ onlyInB.get? b = some g ∧ pair f g = true

/-- The features of the connected component of `root`, sorted by id; a
component has an edge. -/
structure IsGroup (onlyInA onlyInB : FeatureDict G) (root : String)
    (as bs : List (LoadedFeature G)) : Prop where
  sortedA : SortedById as
  sortedB : SortedById bs
  memA : ∀ f, f ∈ as ↔ onlyInA.get? f.osmId = some f ∧
    Connected (Edge pair onlyInA onlyInB) root f.osmId
  memB : ∀ g, g ∈ bs ↔ onlyInB.get? g.osmId = some g ∧
    Connected (Edge pair onlyInA onlyInB) root g.osmId
  linked : ∃ y, Linked (Edge pair onlyInA onlyInB) root y

/-- The change records of two snapshots. -/
inductive IsRecord (aoiBoundary : Option G)
    (featuresA featuresB : FeatureDict G) : ChangeRecord → Prop where
  | shared (osmId : String) (a b : LoadedFeature G)
      (ha : featuresA.get? osmId = some a) (hb : featuresB.get? osmId = some b) :
      IsRecord aoiBoundary featuresA featuresB
        (classifyMatched sh osmId osmId .osmId (computeMetrics sh a b) a b
          aoiBoundary)
  | group (root : String) (as bs : List (LoadedFeature G))
      (h : IsGroup pair (onlyIn featuresA featuresB)
        (onlyIn featuresB featuresA) root as bs) :
      IsRecord aoiBoundary featuresA featuresB
        (groupRecord sh pair aoiBoundary as bs)
  | removed (a : LoadedFeature G)
      (ha : (onlyIn featuresA featuresB).get? a.osmId = some a)
      (h : ∀ b, ¬ Edge pair (onlyIn featuresA featuresB)
        (onlyIn featuresB featuresA) a.osmId b) :
      IsRecord aoiBoundary featuresA featuresB
        (addedOrRemoved sh .removed a aoiBoundary)
  | added (b : LoadedFeature G)
      (hb : (onlyIn featuresB featuresA).get? b.osmId = some b)
      (h : ∀ a, ¬ Edge pair (onlyIn featuresA featuresB)
        (onlyIn featuresB featuresA) a b.osmId) :
      IsRecord aoiBoundary featuresA featuresB
        (addedOrRemoved sh .added b aoiBoundary)

variable {sh pair}

section Groups

variable {onlyInA onlyInB : FeatureDict G}

/-- A linked id is on one of the two sides. -/
theorem mem_or_of_linked {x y : String}
    (h : Linked (Edge pair onlyInA onlyInB) x y) :
    y ∈ onlyInA.toDict ∨ y ∈ onlyInB.toDict := by
  rcases h with ⟨f, g, -, hg, -⟩ | ⟨f, g, hf, -, -⟩
  · exact Or.inr (Dict.mem_of_get? hg)
  · exact Or.inl (Dict.mem_of_get? hf)

/-- A component has one group. -/
theorem IsGroup.eq_of_connected {x y : String}
    {as bs as' bs' : List (LoadedFeature G)}
    (h : IsGroup pair onlyInA onlyInB x as bs)
    (h' : IsGroup pair onlyInA onlyInB y as' bs')
    (hxy : Connected (Edge pair onlyInA onlyInB) x y) :
    as = as' ∧ bs = bs' := by
  have hiff : ∀ z, Connected (Edge pair onlyInA onlyInB) x z ↔
      Connected (Edge pair onlyInA onlyInB) y z :=
    fun z => ⟨hxy.symm.trans, hxy.trans⟩
  constructor
  · apply eq_of_mem_iff_of_pairwise h.sortedA h'.sortedA
    intro f
    rw [h.memA, h'.memA, hiff]
  · apply eq_of_mem_iff_of_pairwise h.sortedB h'.sortedB
    intro g
    rw [h.memB, h'.memB, hiff]

theorem IsGroup.stored {root : String} {as bs : List (LoadedFeature G)}
    (h : IsGroup pair onlyInA onlyInB root as bs) :
    Stored onlyInA as ∧ Stored onlyInB bs :=
  ⟨fun f hf => ((h.memA f).mp hf).1, fun g hg => ((h.memB g).mp hg).1⟩

/-- Every group has an edge between its two sides. -/
theorem IsGroup.exists_pair {root : String} {as bs : List (LoadedFeature G)}
    (h : IsGroup pair onlyInA onlyInB root as bs) :
    ∃ a ∈ as, ∃ b ∈ bs, pair a b = true := by
  have key : ∀ u v, Connected (Edge pair onlyInA onlyInB) root u →
      Connected (Edge pair onlyInA onlyInB) root v →
      Edge pair onlyInA onlyInB u v → ∃ a ∈ as, ∃ b ∈ bs, pair a b = true := by
    rintro u v hu hv ⟨f, g, hf, hg, hpair⟩
    have hf' := FeatureDict.osmId_of_get? hf
    have hg' := FeatureDict.osmId_of_get? hg
    subst hf' hg'
    exact ⟨f, (h.memA f).mpr ⟨hf, hu⟩, g, (h.memB g).mpr ⟨hg, hv⟩, hpair⟩
  rcases h.linked with ⟨y, hlink⟩
  have hy : Connected (Edge pair onlyInA onlyInB) root y :=
    Relation.ReflTransGen.single hlink
  rcases hlink with hedge | hedge
  · exact key root y Relation.ReflTransGen.refl hy hedge
  · exact key y root hy Relation.ReflTransGen.refl hedge

theorem IsGroup.pair_of_single {root : String} {as bs : List (LoadedFeature G)}
    (h : IsGroup pair onlyInA onlyInB root as bs) (a b : LoadedFeature G)
    (ha : as = [a]) (hb : bs = [b]) :
    pair a b = true := by
  rcases h.exists_pair with ⟨a', ha', b', hb', hpair⟩
  rw [ha, List.mem_singleton] at ha'
  rw [hb, List.mem_singleton] at hb'
  rwa [ha', hb'] at hpair

end Groups

section Components

variable {onlyInA onlyInB : FeatureDict G} {order : HashOrder}
  {candidates : Dict String (List String)} {aoiBoundary : Option G}

/-- The mapping lists the edges, and every one of its keys has one. -/
structure Lists (pair : LoadedFeature G → LoadedFeature G → Bool)
    (candidates : Dict String (List String))
    (onlyInA onlyInB : FeatureDict G) : Prop where
  candidate : Candidate candidates = Edge pair onlyInA onlyInB
  key : ∀ a ∈ candidates, ∃ b, Candidate candidates a b
  decides : Decides pair candidates onlyInA onlyInB

variable (hdisj : ∀ osmId ∈ onlyInA.toDict, osmId ∉ onlyInB.toDict)
  (hlists : Lists pair candidates onlyInA onlyInB)

include hlists

theorem mem_candidates_iff {a : String} :
    a ∈ candidates ↔ ∃ b, Edge pair onlyInA onlyInB a b := by
  constructor
  · intro h
    obtain ⟨b, hb⟩ := hlists.key a h
    exact ⟨b, hlists.candidate ▸ hb⟩
  · rintro ⟨b, hb⟩
    rw [← hlists.candidate] at hb
    rcases hb with ⟨bs, hbs, -⟩
    exact Dict.mem_of_get? hbs

/-- The nodes of the walk are the linked ids. -/
theorem mem_neighbourhood_iff_linked {x : String} :
    x ∈ neighbourhood candidates ↔
      ∃ y, Linked (Edge pair onlyInA onlyInB) x y := by
  rw [mem_neighbourhood, mem_candidates_iff hlists, hlists.candidate]
  constructor
  · rintro (⟨b, hb⟩ | ⟨a, ha⟩)
    · exact ⟨b, Or.inl hb⟩
    · exact ⟨a, Or.inr ha⟩
  · rintro ⟨y, h | h⟩
    · exact Or.inl ⟨y, h⟩
    · exact Or.inr ⟨y, h⟩

include hdisj

/-- In a component, the keys of the mapping are the ids of the first side. -/
theorem mem_candidates_iff_of_linked {x y : String}
    (h : Linked (Edge pair onlyInA onlyInB) x y) :
    (x ∈ candidates ↔ x ∈ onlyInA.toDict) ∧
    (x ∉ candidates ↔ x ∈ onlyInB.toDict) := by
  have hside : x ∈ candidates ↔ x ∈ onlyInA.toDict := by
    rw [mem_candidates_iff hlists]
    constructor
    · rintro ⟨b, f, g, hf, -, -⟩
      exact Dict.mem_of_get? hf
    · intro hx
      rcases h with h | ⟨f, g, -, hg, -⟩
      · exact ⟨y, h⟩
      · exact absurd (Dict.mem_of_get? hg) (hdisj x hx)
  refine ⟨hside, ?_⟩
  rw [hside]
  constructor
  · intro hx
    exact (mem_or_of_linked h.symm).resolve_left hx
  · intro hx hx'
    exact hdisj x hx' hx

omit hlists hdisj in
/-- Everything connected to a linked id is linked itself. -/
theorem exists_linked_of_connected {x y z : String}
    (hlink : Linked (Edge pair onlyInA onlyInB) x z)
    (h : Connected (Edge pair onlyInA onlyInB) x y) :
    ∃ w, Linked (Edge pair onlyInA onlyInB) y w := by
  cases h with
  | refl => exact ⟨z, hlink⟩
  | tail _ hstep => exact ⟨_, hstep.symm⟩

/-- Every group that the walk finds is the group of a component. -/
theorem isGroup_select_of_mem {group : List String × List String}
    (h : group ∈ connectedComponents order candidates) :
    ∃ root, IsGroup pair onlyInA onlyInB root
        (onlyInA.select (sorted (order.iter .groupA group.1)))
        (onlyInB.select (sorted (order.iter .groupB group.2))) ∧
      (∀ y, y ∈ group.1 ↔ y ∈ onlyInA.toDict ∧
        Connected (Edge pair onlyInA onlyInB) root y) ∧
      (∀ y, y ∈ group.2 ↔ y ∈ onlyInB.toDict ∧
        Connected (Edge pair onlyInA onlyInB) root y) := by
  obtain ⟨-, -, root, hroot, hA, hB⟩ := mem_connectedComponents h
  obtain ⟨z, hz⟩ := (mem_neighbourhood_iff_linked hlists).mp hroot
  rw [hlists.candidate] at hA hB
  have hsides : ∀ y, Connected (Edge pair onlyInA onlyInB) root y →
      (y ∈ candidates ↔ y ∈ onlyInA.toDict) ∧
      (y ∉ candidates ↔ y ∈ onlyInB.toDict) := by
    intro y hy
    obtain ⟨w, hw⟩ := exists_linked_of_connected hz hy
    exact mem_candidates_iff_of_linked hdisj hlists hw
  have hA' : ∀ y, y ∈ group.1 ↔ y ∈ onlyInA.toDict ∧
      Connected (Edge pair onlyInA onlyInB) root y := by
    intro y
    rw [hA]
    exact and_congr_left fun hy => (hsides y hy).1
  have hB' : ∀ y, y ∈ group.2 ↔ y ∈ onlyInB.toDict ∧
      Connected (Edge pair onlyInA onlyInB) root y := by
    intro y
    rw [hB]
    exact and_congr_left fun hy => (hsides y hy).2
  obtain ⟨-, hsortedA, hmemA⟩ := select_sorted (order.nodup_iter .groupA group.1)
    (fun y => (HashOrder.mem_iter order).trans (hA' y))
  obtain ⟨-, hsortedB, hmemB⟩ := select_sorted (order.nodup_iter .groupB group.2)
    (fun y => (HashOrder.mem_iter order).trans (hB' y))
  exact ⟨root, ⟨hsortedA, hsortedB, hmemA, hmemB, z, hz⟩, hA', hB'⟩

/-- Stage 4 turns a group of the walk into the record of its component. -/
theorem exists_resolveGroup_eq (sh : Shapely G J) (aoiBoundary : Option G)
    {group : List String × List String}
    (h : group ∈ connectedComponents order candidates) :
    ∃ root as bs, IsGroup pair onlyInA onlyInB root as bs ∧
      resolveGroup sh order onlyInA onlyInB candidates aoiBoundary group =
        .ok (groupRecord sh pair aoiBoundary as bs) ∧
      (as.map (·.osmId)).Perm group.1 ∧ (bs.map (·.osmId)).Perm group.2 := by
  obtain ⟨root, hgroup, hA, hB⟩ := isGroup_select_of_mem hdisj hlists h
  obtain ⟨hnodupA, hnodupB, -⟩ := mem_connectedComponents h
  obtain ⟨hidsA, -⟩ := select_sorted (order.nodup_iter .groupA group.1)
    (fun y => (HashOrder.mem_iter order).trans (hA y))
  obtain ⟨hidsB, -⟩ := select_sorted (order.nodup_iter .groupB group.2)
    (fun y => (HashOrder.mem_iter order).trans (hB y))
  refine ⟨root, _, _, hgroup, ?_, ?_, ?_⟩
  · exact resolveGroup_eq hlists.decides hgroup.stored.1 hgroup.stored.2
      hidsA hidsB hgroup.pair_of_single
  · rw [hidsA]
    exact (sortBy_perm id _).trans (order.iter_perm_of_nodup hnodupA)
  · rw [hidsB]
    exact (sortBy_perm id _).trans (order.iter_perm_of_nodup hnodupB)

/-- The walk finds every component. -/
theorem exists_group_of_isGroup (order : HashOrder) (sh : Shapely G J)
    (aoiBoundary : Option G) {root : String} {as bs : List (LoadedFeature G)}
    (h : IsGroup pair onlyInA onlyInB root as bs) :
    ∃ group ∈ connectedComponents order candidates,
      resolveGroup sh order onlyInA onlyInB candidates aoiBoundary group =
        .ok (groupRecord sh pair aoiBoundary as bs) := by
  obtain ⟨group, hgroup, hkey, hother⟩ := exists_group order
    ((mem_neighbourhood_iff_linked hlists).mpr h.linked)
  obtain ⟨root', as', bs', hgroup', hres, hpermA, hpermB⟩ :=
    exists_resolveGroup_eq hdisj hlists sh aoiBoundary hgroup
  have hconn : Connected (Edge pair onlyInA onlyInB) root' root := by
    by_cases hroot : root ∈ candidates
    · obtain ⟨f, hf, hid⟩ :=
        List.mem_map.mp (hpermA.mem_iff.mpr (hkey hroot))
      exact hid ▸ ((hgroup'.memA f).mp hf).2
    · obtain ⟨g, hg, hid⟩ :=
        List.mem_map.mp (hpermB.mem_iff.mpr (hother hroot))
      exact hid ▸ ((hgroup'.memB g).mp hg).2
  obtain ⟨rfl, rfl⟩ := hgroup'.eq_of_connected h hconn
  exact ⟨group, hgroup, hres⟩

/-- The ids that groups take from the first side are those with an edge. -/
theorem mem_matchedA (order : HashOrder) (a : String) :
    a ∈ (connectedComponents order candidates).flatMap Prod.fst ↔
      ∃ b, Edge pair onlyInA onlyInB a b := by
  rw [List.mem_flatMap]
  constructor
  · rintro ⟨group, hgroup, ha⟩
    obtain ⟨root, hsel, hA, -⟩ := isGroup_select_of_mem hdisj hlists hgroup
    obtain ⟨hmem, hconn⟩ := (hA a).mp ha
    rcases hsel.linked with ⟨z, hz⟩
    obtain ⟨w, hw | ⟨f, g, -, hg, -⟩⟩ := exists_linked_of_connected hz hconn
    · exact ⟨w, hw⟩
    · exact absurd (Dict.mem_of_get? hg) (hdisj a hmem)
  · rintro ⟨b, hb⟩
    obtain ⟨group, hgroup, hkey, -⟩ := exists_group order
      ((mem_neighbourhood_iff_linked hlists).mpr ⟨b, Or.inl hb⟩)
    exact ⟨group, hgroup, hkey ((mem_candidates_iff hlists).mpr ⟨b, hb⟩)⟩

/-- The ids that groups take from the second side are those with an edge. -/
theorem mem_matchedB (order : HashOrder) (b : String) :
    b ∈ (connectedComponents order candidates).flatMap Prod.snd ↔
      ∃ a, Edge pair onlyInA onlyInB a b := by
  rw [List.mem_flatMap]
  constructor
  · rintro ⟨group, hgroup, hb⟩
    obtain ⟨root, hsel, -, hB⟩ := isGroup_select_of_mem hdisj hlists hgroup
    obtain ⟨hmem, hconn⟩ := (hB b).mp hb
    rcases hsel.linked with ⟨z, hz⟩
    obtain ⟨w, ⟨f, g, hf, -, -⟩ | hw⟩ := exists_linked_of_connected hz hconn
    · exact absurd hmem (hdisj b (Dict.mem_of_get? hf))
    · exact ⟨w, hw⟩
  · rintro ⟨a, ha⟩
    have hlink : Linked (Edge pair onlyInA onlyInB) b a := Or.inr ha
    obtain ⟨group, hgroup, -, hother⟩ := exists_group order
      ((mem_neighbourhood_iff_linked hlists).mpr ⟨a, hlink⟩)
    refine ⟨group, hgroup, hother ?_⟩
    rw [(mem_candidates_iff_of_linked hdisj hlists hlink).2]
    rcases ha with ⟨f, g, -, hg, -⟩
    exact Dict.mem_of_get? hg

end Components

section Pipeline

variable {featuresA featuresB : FeatureDict G} {aoiBoundary : Option G}

theorem matchShared_eq_ok_iff {osmId : String} {r : ChangeRecord} :
    matchShared sh featuresA featuresB aoiBoundary osmId = .ok r ↔
      ∃ a b, featuresA.get? osmId = some a ∧ featuresB.get? osmId = some b ∧
        r = classifyMatched sh osmId osmId .osmId (computeMetrics sh a b) a b
          aoiBoundary := by
  unfold matchShared
  simp only [bind_eq_ok, getItem_eq_ok_iff, pure_eq_ok]
  constructor
  · rintro ⟨a, ha, b, hb, rfl⟩
    exact ⟨a, b, ha, hb, rfl⟩
  · rintro ⟨a, b, ha, hb, rfl⟩
    exact ⟨a, ha, b, hb, rfl⟩

theorem leftover_eq_ok_iff {classification : Classification}
    {onlyIn : FeatureDict G} {osmId : String} {r : ChangeRecord} :
    leftover sh classification onlyIn aoiBoundary osmId = .ok r ↔
      ∃ f, onlyIn.get? osmId = some f ∧
        r = addedOrRemoved sh classification f aoiBoundary := by
  unfold leftover
  simp only [bind_eq_ok, getItem_eq_ok_iff, pure_eq_ok]
  constructor
  · rintro ⟨f, hf, rfl⟩
    exact ⟨f, hf, rfl⟩
  · rintro ⟨f, hf, rfl⟩
    exact ⟨f, hf, rfl⟩

/-- The id is named on one of the sides of the record. -/
def ChangeRecord.Names (r : ChangeRecord) (osmId : String) : Prop :=
  osmId ∈ r.osmIdsA ∨ osmId ∈ r.osmIdsB

/-- The records of two snapshots, listed strictly by their ids.  The ids on
either side of the records are the ids of that snapshot, each once. -/
structure IsChangeset (sh : Shapely G J)
    (pair : LoadedFeature G → LoadedFeature G → Bool) (aoiBoundary : Option G)
    (featuresA featuresB : FeatureDict G) (records : List ChangeRecord) :
    Prop where
  mem : ∀ r, r ∈ records ↔ IsRecord sh pair aoiBoundary featuresA featuresB r
  sorted : records.Pairwise (fun r s => recordKey r < recordKey s)
  idsA : (records.flatMap (·.osmIdsA)).Perm featuresA.keys
  idsB : (records.flatMap (·.osmIdsB)).Perm featuresB.keys

/-- The records name ids of the two snapshots. -/
theorem IsChangeset.mem_keys {records : List ChangeRecord}
    (h : IsChangeset sh pair aoiBoundary featuresA featuresB records)
    (r : ChangeRecord) (hr : r ∈ records) :
    (∀ osmId ∈ r.osmIdsA, osmId ∈ featuresA.keys) ∧
    ∀ osmId ∈ r.osmIdsB, osmId ∈ featuresB.keys :=
  ⟨fun _ hid => h.idsA.mem_iff.mp (List.mem_flatMap.mpr ⟨r, hr, hid⟩),
    fun _ hid => h.idsB.mem_iff.mp (List.mem_flatMap.mpr ⟨r, hr, hid⟩)⟩

section Names

variable {metrics : MatchMetrics} {method : MatchMethod} {a b : LoadedFeature G}
  {osmId x : String}

/-- What the record of a shared id names. -/
theorem names_shared :
    (classifyMatched sh osmId osmId method metrics a b aoiBoundary).Names x ↔
      x = osmId := by
  simp [ChangeRecord.Names, classifyMatched]

/-- What the record of a leftover feature names. -/
theorem names_removed :
    (addedOrRemoved sh .removed a aoiBoundary).Names x ↔ x = a.osmId := by
  simp [ChangeRecord.Names, addedOrRemoved]

theorem names_added :
    (addedOrRemoved sh .added b aoiBoundary).Names x ↔ x = b.osmId := by
  simp [ChangeRecord.Names, addedOrRemoved]

end Names

/-- A changeset is determined by its records. -/
theorem IsChangeset.eq {records records' : List ChangeRecord}
    (h : IsChangeset sh pair aoiBoundary featuresA featuresB records)
    (h' : records'.Pairwise (fun r s => recordKey r < recordKey s))
    (hmem : ∀ r, r ∈ records' ↔
      IsRecord sh pair aoiBoundary featuresA featuresB r) :
    records = records' :=
  eq_of_mem_iff_of_pairwise h.sorted h'
    (fun r => (h.mem r).trans (hmem r).symm)

/-- Records that name an id, and no id twice, have different keys. -/
theorem nodup_recordKey {records : List ChangeRecord}
    (hnamed : ∀ r ∈ records, r.osmIdsA ≠ [] ∨ r.osmIdsB ≠ [])
    (hA : (records.flatMap (·.osmIdsA)).Nodup)
    (hB : (records.flatMap (·.osmIdsB)).Nodup) :
    (records.map recordKey).Nodup := by
  have hdisj := (List.nodup_flatMap.mp hA).2.and (List.nodup_flatMap.mp hB).2
  refine List.pairwise_map.mpr (hdisj.imp_of_mem ?_)
  rintro r s hr - ⟨hdisjA, hdisjB⟩ hkey
  have hids : (r.osmIdsA, r.osmIdsB) = (s.osmIdsA, s.osmIdsB) :=
    toLex.injective hkey
  obtain ⟨hidsA, hidsB⟩ := Prod.mk.inj hids
  rcases hnamed r hr with h | h
  · obtain ⟨x, hx⟩ := List.exists_mem_of_ne_nil _ h
    have hx' : x ∈ s.osmIdsA := hidsA ▸ hx
    exact hdisjA hx hx'
  · obtain ⟨x, hx⟩ := List.exists_mem_of_ne_nil _ h
    have hx' : x ∈ s.osmIdsB := hidsB ▸ hx
    exact hdisjB hx hx'

/-- Every record names an id. -/
theorem IsRecord.named {r : ChangeRecord}
    (h : IsRecord sh pair aoiBoundary featuresA featuresB r) :
    r.osmIdsA ≠ [] ∨ r.osmIdsB ≠ [] := by
  cases h with
  | shared osmId a b _ _ => exact Or.inl (by simp [classifyMatched])
  | group root as bs h =>
      rcases h.exists_pair with ⟨a, ha, -⟩
      rw [(osmIds_groupRecord sh pair aoiBoundary h.sortedA h.sortedB).1]
      exact Or.inl (List.ne_nil_of_mem (List.mem_map_of_mem ha))
  | removed a _ _ => exact Or.inl (by simp [addedOrRemoved])
  | added b _ _ => exact Or.inr (by simp [addedOrRemoved])

/-- The only record that names a shared id is that of its own two features. -/
theorem IsRecord.eq_of_names_shared {osmId : String} {a b : LoadedFeature G}
    {r : ChangeRecord}
    (h : IsRecord sh pair aoiBoundary featuresA featuresB r)
    (ha : featuresA.get? osmId = some a) (hb : featuresB.get? osmId = some b)
    (hnames : r.Names osmId) :
    r = classifyMatched sh osmId osmId .osmId (computeMetrics sh a b) a b
      aoiBoundary := by
  have hA : osmId ∉ (onlyIn featuresA featuresB).toDict :=
    fun hmem => (mem_onlyIn.mp hmem).2 (Dict.mem_of_get? hb)
  have hB : osmId ∉ (onlyIn featuresB featuresA).toDict :=
    fun hmem => (mem_onlyIn.mp hmem).2 (Dict.mem_of_get? ha)
  cases h with
  | shared osmId' a' b' ha' hb' =>
      obtain rfl := names_shared.mp hnames
      obtain rfl := Option.some.inj (ha.symm.trans ha')
      obtain rfl := Option.some.inj (hb.symm.trans hb')
      rfl
  | group root as bs hgroup =>
      obtain ⟨hidsA, hidsB⟩ := osmIds_groupRecord sh pair aoiBoundary
        hgroup.sortedA hgroup.sortedB
      rw [ChangeRecord.Names, hidsA, hidsB] at hnames
      rcases hnames with hmem | hmem
      · obtain ⟨f, hf, rfl⟩ := List.mem_map.mp hmem
        exact absurd (Dict.mem_of_get? (hgroup.stored.1 f hf)) hA
      · obtain ⟨g, hg, rfl⟩ := List.mem_map.mp hmem
        exact absurd (Dict.mem_of_get? (hgroup.stored.2 g hg)) hB
  | removed a' ha' _ =>
      obtain rfl := names_removed.mp hnames
      exact absurd (Dict.mem_of_get? ha') hA
  | added b' hb' _ =>
      obtain rfl := names_added.mp hnames
      exact absurd (Dict.mem_of_get? hb') hB

/-- Ids that are taken from a list once, followed by the others. -/
theorem append_filter_perm {taken keys : List String} (htaken : taken.Nodup)
    (hsub : ∀ k ∈ taken, k ∈ keys) (hkeys : keys.Nodup) :
    (taken ++ keys.filter (· ∉ taken)).Perm keys := by
  refine (List.perm_ext_iff_of_nodup ?_ hkeys).mpr ?_
  · refine List.nodup_append.mpr ⟨htaken, hkeys.filter _, ?_⟩
    rintro a ha b hb rfl
    simp [ha] at hb
  · intro k
    simp only [List.mem_append, List.mem_filter, decide_eq_true_eq]
    constructor
    · rintro (h | ⟨h, -⟩)
      · exact hsub k h
      · exact h
    · intro h
      by_cases hk : k ∈ taken
      · exact Or.inl hk
      · exact Or.inr ⟨h, hk⟩

/-- The shared ids and the leftovers of one side are its ids. -/
theorem shared_append_onlyIn_perm {shared : List String}
    (hshared : ∀ k, k ∈ shared ↔ k ∈ featuresA.keys ∧ k ∈ featuresB.keys)
    (hnodup : shared.Nodup) :
    (shared ++ (onlyIn featuresA featuresB).keys).Perm featuresA.keys := by
  have hfilter : (onlyIn featuresA featuresB).keys =
      featuresA.keys.filter (· ∉ shared) := by
    rw [keys_onlyIn]
    apply List.filter_congr
    intro k hk
    simp [hshared, hk]
  rw [hfilter]
  exact append_filter_perm hnodup (fun k hk => ((hshared k).mp hk).1)
    featuresA.keys_nodup

/-- Stage 1 returns one record for each shared id. -/
theorem exists_matched (sh : Shapely G J) (aoiBoundary : Option G)
    {ids : List String}
    (hids : ∀ k, k ∈ ids ↔ k ∈ featuresA.keys ∧ k ∈ featuresB.keys) :
    ∃ matched, ids.mapM (matchShared sh featuresA featuresB aoiBoundary) =
        .ok matched ∧
      (∀ r, r ∈ matched ↔ ∃ k a b, featuresA.get? k = some a ∧
        featuresB.get? k = some b ∧
        r = classifyMatched sh k k .osmId (computeMetrics sh a b) a b
          aoiBoundary) ∧
      (matched.flatMap (·.osmIdsA)).Perm ids ∧
      (matched.flatMap (·.osmIdsB)).Perm ids := by
  have hsteps : ∀ k ∈ ids, ∃ r,
      matchShared sh featuresA featuresB aoiBoundary k = .ok r := by
    intro k hk
    obtain ⟨hkA, hkB⟩ := (hids k).mp hk
    obtain ⟨a, ha⟩ := Dict.exists_get?_of_mem hkA
    obtain ⟨b, hb⟩ := Dict.exists_get?_of_mem hkB
    exact ⟨_, matchShared_eq_ok_iff.mpr ⟨a, b, ha, hb, rfl⟩⟩
  obtain ⟨matched, h⟩ := exists_mapM_eq_ok hsteps
  have hsides : ∀ k ∈ ids, ∀ r,
      matchShared sh featuresA featuresB aoiBoundary k = .ok r →
      r.osmIdsA.Perm [k] ∧ r.osmIdsB.Perm [k] := by
    intro k _ r hr
    obtain ⟨a, b, -, -, rfl⟩ := matchShared_eq_ok_iff.mp hr
    exact ⟨List.Perm.refl _, List.Perm.refl _⟩
  refine ⟨matched, h, ?_, ?_, ?_⟩
  · intro r
    simp only [mem_iff_of_mapM_eq_ok h, matchShared_eq_ok_iff]
    constructor
    · rintro ⟨k, -, hr⟩
      exact ⟨k, hr⟩
    · rintro ⟨k, a, b, ha, hb, hr⟩
      have hk := (hids k).mpr ⟨Dict.mem_of_get? ha, Dict.mem_of_get? hb⟩
      exact ⟨k, hk, a, b, ha, hb, hr⟩
  · simpa using flatMap_perm_of_mapM_eq_ok h
      (fun k hk r hr => (hsides k hk r hr).1)
  · simpa using flatMap_perm_of_mapM_eq_ok h
      (fun k hk r hr => (hsides k hk r hr).2)

/-- Every leftover feature has a record, which names nothing else. -/
theorem exists_leftovers (sh : Shapely G J) (aoiBoundary : Option G)
    {onlyIn : FeatureDict G} {ids : List String} {left : String → Prop}
    (classification : Classification)
    (hids : ∀ k, k ∈ ids ↔ k ∈ onlyIn.toDict ∧ left k) :
    ∃ records,
      ids.mapM (leftover sh classification onlyIn aoiBoundary) = .ok records ∧
      (∀ r, r ∈ records ↔ ∃ f, onlyIn.get? f.osmId = some f ∧ left f.osmId ∧
        r = addedOrRemoved sh classification f aoiBoundary) ∧
      (records.flatMap (·.osmIdsA)).Perm
        (if classification = .removed then ids else []) ∧
      (records.flatMap (·.osmIdsB)).Perm
        (if classification = .added then ids else []) := by
  have hsteps : ∀ k ∈ ids, ∃ r,
      leftover sh classification onlyIn aoiBoundary k = .ok r := by
    intro k hk
    obtain ⟨f, hf⟩ := Dict.exists_get?_of_mem ((hids k).mp hk).1
    exact ⟨_, leftover_eq_ok_iff.mpr ⟨f, hf, rfl⟩⟩
  obtain ⟨records, h⟩ := exists_mapM_eq_ok hsteps
  have hsides : ∀ k ∈ ids, ∀ r,
      leftover sh classification onlyIn aoiBoundary k = .ok r →
      r.osmIdsA.Perm (if classification = .removed then [k] else []) ∧
      r.osmIdsB.Perm (if classification = .added then [k] else []) := by
    intro k _ r hr
    obtain ⟨f, hf, rfl⟩ := leftover_eq_ok_iff.mp hr
    rw [← FeatureDict.osmId_of_get? hf]
    exact ⟨List.Perm.refl _, List.Perm.refl _⟩
  refine ⟨records, h, ?_, ?_, ?_⟩
  · intro r
    simp only [mem_iff_of_mapM_eq_ok h, leftover_eq_ok_iff]
    constructor
    · rintro ⟨k, hk, f, hf, hr⟩
      obtain rfl := FeatureDict.osmId_of_get? hf
      exact ⟨f, hf, ((hids _).mp hk).2, hr⟩
    · rintro ⟨f, hf, hleft, hr⟩
      exact ⟨f.osmId, (hids _).mpr ⟨Dict.mem_of_get? hf, hleft⟩, f, hf, hr⟩
  · refine (flatMap_perm_of_mapM_eq_ok h
      (fun k hk r hr => (hsides k hk r hr).1)).trans ?_
    split_ifs <;> simp
  · refine (flatMap_perm_of_mapM_eq_ok h
      (fun k hk r hr => (hsides k hk r hr).2)).trans ?_
    split_ifs <;> simp

/-- Stages 2 to 4 return one record for each group of the walk. -/
theorem exists_resolved (sh : Shapely G J) (aoiBoundary : Option G)
    (order : HashOrder) {onlyInA onlyInB : FeatureDict G}
    {candidates : Dict String (List String)}
    (hdisj : ∀ osmId ∈ onlyInA.toDict, osmId ∉ onlyInB.toDict)
    (hlists : Lists pair candidates onlyInA onlyInB) :
    ∃ resolved,
      (connectedComponents order candidates).mapM
          (resolveGroup sh order onlyInA onlyInB candidates aoiBoundary) =
        .ok resolved ∧
      (∀ r, r ∈ resolved ↔ ∃ root as bs,
        IsGroup pair onlyInA onlyInB root as bs ∧
        r = groupRecord sh pair aoiBoundary as bs) ∧
      (resolved.flatMap (·.osmIdsA)).Perm
        ((connectedComponents order candidates).flatMap Prod.fst) ∧
      (resolved.flatMap (·.osmIdsB)).Perm
        ((connectedComponents order candidates).flatMap Prod.snd) := by
  have hstep : ∀ group ∈ connectedComponents order candidates, ∀ r,
      resolveGroup sh order onlyInA onlyInB candidates aoiBoundary group = .ok r →
      ∃ root as bs, IsGroup pair onlyInA onlyInB root as bs ∧
        r = groupRecord sh pair aoiBoundary as bs ∧
        r.osmIdsA.Perm group.1 ∧ r.osmIdsB.Perm group.2 := by
    intro group hgroup r hr
    obtain ⟨root, as, bs, h, hres, hA, hB⟩ :=
      exists_resolveGroup_eq hdisj hlists sh aoiBoundary hgroup
    obtain rfl : groupRecord sh pair aoiBoundary as bs = r :=
      Except.ok.inj (hres.symm.trans hr)
    obtain ⟨hidsA, hidsB⟩ :=
      osmIds_groupRecord sh pair aoiBoundary h.sortedA h.sortedB
    exact ⟨root, as, bs, h, rfl, hidsA ▸ hA, hidsB ▸ hB⟩
  have hsteps : ∀ group ∈ connectedComponents order candidates, ∃ r,
      resolveGroup sh order onlyInA onlyInB candidates aoiBoundary group =
        .ok r := by
    intro group hgroup
    obtain ⟨root, as, bs, -, hres, -, -⟩ :=
      exists_resolveGroup_eq hdisj hlists sh aoiBoundary hgroup
    exact ⟨_, hres⟩
  obtain ⟨resolved, h⟩ := exists_mapM_eq_ok hsteps
  refine ⟨resolved, h, ?_, ?_, ?_⟩
  · intro r
    rw [mem_iff_of_mapM_eq_ok h]
    constructor
    · rintro ⟨group, hgroup, hr⟩
      obtain ⟨root, as, bs, his, heq, -, -⟩ := hstep group hgroup r hr
      exact ⟨root, as, bs, his, heq⟩
    · rintro ⟨root, as, bs, his, rfl⟩
      exact exists_group_of_isGroup hdisj hlists order sh aoiBoundary his
  · refine flatMap_perm_of_mapM_eq_ok h ?_
    intro group hgroup r hr
    obtain ⟨-, -, -, -, -, hA, -⟩ := hstep group hgroup r hr
    exact hA
  · refine flatMap_perm_of_mapM_eq_ok h ?_
    intro group hgroup r hr
    obtain ⟨-, -, -, -, -, -, hB⟩ := hstep group hgroup r hr
    exact hB

/-- The ids of a side that no group takes. -/
theorem mem_left_iff (order : HashOrder) (site : SetSite)
    {onlyIn : FeatureDict G} {taken : List String} {p : String → Prop}
    (htaken : ∀ k, k ∈ taken ↔ p k) (k : String) :
    k ∈ order.iter site (onlyIn.keys.filter (· ∉ taken)) ↔
      k ∈ onlyIn.toDict ∧ ¬ p k := by
  rw [HashOrder.mem_iter, List.mem_filter, decide_eq_true_iff, htaken]
  rfl

/-- The ids of one side: the shared ones, those of the groups, the others. -/
theorem flatMap_append_perm {order : HashOrder} {site : SetSite}
    {matched resolved removed added : List ChangeRecord}
    {out : ChangeRecord → List String} {shared taken keys : List String}
    {onlyIn : FeatureDict G}
    (hshared : (matched.flatMap out).Perm shared)
    (htaken : (resolved.flatMap out).Perm taken)
    (hleft : ((removed ++ added).flatMap out).Perm
      (order.iter site (onlyIn.keys.filter (· ∉ taken))))
    (hnodup : taken.Nodup) (hsub : ∀ k ∈ taken, k ∈ onlyIn.toDict)
    (hall : (shared ++ onlyIn.keys).Perm keys) :
    ((matched ++ resolved ++ removed ++ added).flatMap out).Perm keys := by
  have hrest := hleft.trans
    (order.iter_perm_of_nodup (onlyIn.keys_nodup.filter _))
  have honly := (htaken.append hrest).trans
    (append_filter_perm hnodup hsub onlyIn.keys_nodup)
  rw [List.append_assoc, List.append_assoc, List.flatMap_append,
    List.flatMap_append]
  exact (hshared.append honly).trans hall

/-- What the stages return: the records of the shared ids, of the groups, and of
the features of either side without overlaps. -/
structure IsStages (sh : Shapely G J)
    (pair : LoadedFeature G → LoadedFeature G → Bool) (aoiBoundary : Option G)
    (featuresA featuresB : FeatureDict G)
    (matched resolved removed added : List ChangeRecord) : Prop where
  memMatched : ∀ r, r ∈ matched ↔ ∃ k a b, featuresA.get? k = some a ∧
    featuresB.get? k = some b ∧
    r = classifyMatched sh k k .osmId (computeMetrics sh a b) a b aoiBoundary
  memResolved : ∀ r, r ∈ resolved ↔ ∃ root as bs,
    IsGroup pair (onlyIn featuresA featuresB) (onlyIn featuresB featuresA) root
      as bs ∧ r = groupRecord sh pair aoiBoundary as bs
  memRemoved : ∀ r, r ∈ removed ↔ ∃ a,
    (onlyIn featuresA featuresB).get? a.osmId = some a ∧
    (¬ ∃ b, Edge pair (onlyIn featuresA featuresB) (onlyIn featuresB featuresA)
      a.osmId b) ∧ r = addedOrRemoved sh .removed a aoiBoundary
  memAdded : ∀ r, r ∈ added ↔ ∃ b,
    (onlyIn featuresB featuresA).get? b.osmId = some b ∧
    (¬ ∃ a, Edge pair (onlyIn featuresA featuresB) (onlyIn featuresB featuresA)
      a b.osmId) ∧ r = addedOrRemoved sh .added b aoiBoundary
  idsA : ((matched ++ resolved ++ removed ++ added).flatMap (·.osmIdsA)).Perm
    featuresA.keys
  idsB : ((matched ++ resolved ++ removed ++ added).flatMap (·.osmIdsB)).Perm
    featuresB.keys

section Stages

variable {matched resolved removed added : List ChangeRecord}

/-- The stages return the records of the two snapshots. -/
theorem IsStages.mem_iff
    (h : IsStages sh pair aoiBoundary featuresA featuresB matched resolved
      removed added) (r : ChangeRecord) :
    r ∈ matched ++ resolved ++ removed ++ added ↔
      IsRecord sh pair aoiBoundary featuresA featuresB r := by
  simp only [List.mem_append, h.memMatched, h.memResolved, h.memRemoved,
    h.memAdded]
  constructor
  · rintro (((⟨k, a, b, ha, hb, rfl⟩ | ⟨root, as, bs, hgroup, rfl⟩) |
      ⟨a, ha, hnone, rfl⟩) | ⟨b, hb, hnone, rfl⟩)
    · exact .shared k a b ha hb
    · exact .group root as bs hgroup
    · exact .removed a ha (not_exists.mp hnone)
    · exact .added b hb (not_exists.mp hnone)
  · intro hr
    cases hr with
    | shared k a b ha hb =>
        exact Or.inl (Or.inl (Or.inl ⟨k, a, b, ha, hb, rfl⟩))
    | group root as bs hgroup =>
        exact Or.inl (Or.inl (Or.inr ⟨root, as, bs, hgroup, rfl⟩))
    | removed a ha hnone =>
        exact Or.inl (Or.inr ⟨a, ha, not_exists.mpr hnone, rfl⟩)
    | added b hb hnone =>
        exact Or.inr ⟨b, hb, not_exists.mpr hnone, rfl⟩

/-- Sorted, they are the changeset. -/
theorem IsStages.isChangeset
    (h : IsStages sh pair aoiBoundary featuresA featuresB matched resolved
      removed added) :
    IsChangeset sh pair aoiBoundary featuresA featuresB
      (sortBy recordKey (matched ++ resolved ++ removed ++ added)) := by
  have hperm := sortBy_perm recordKey (matched ++ resolved ++ removed ++ added)
  refine ⟨?_, ?_, ?_, ?_⟩
  · intro r
    rw [mem_sortBy, h.mem_iff]
  · apply pairwise_lt_sortBy
    exact nodup_recordKey (fun r hr => ((h.mem_iff r).mp hr).named)
      (h.idsA.nodup_iff.mpr featuresA.keys_nodup)
      (h.idsB.nodup_iff.mpr featuresB.keys_nodup)
  · exact (hperm.flatMap_right _).trans h.idsA
  · exact (hperm.flatMap_right _).trans h.idsB

end Stages

/-- The pipeline does not raise, and what it returns are the records of the two
snapshots, strictly sorted, which partition the ids. -/
theorem exists_buildChangeset (rt : Runtime G) (aoiBoundary : Option G)
    (hlists : Lists pair
      (generateCandidates sh rt (onlyIn featuresA featuresB)
        (onlyIn featuresB featuresA))
      (onlyIn featuresA featuresB) (onlyIn featuresB featuresA)) :
    ∃ records,
      buildChangeset sh rt featuresA featuresB aoiBoundary = .ok records ∧
      IsChangeset sh pair aoiBoundary featuresA featuresB records := by
  have hdisj : ∀ osmId ∈ (onlyIn featuresA featuresB).toDict,
      osmId ∉ (onlyIn featuresB featuresA).toDict :=
    fun _ => not_mem_onlyIn_of_mem
  obtain ⟨resolved, hresolved, hgroup, hresolvedA, hresolvedB⟩ :=
    exists_resolved sh aoiBoundary rt.toHashOrder hdisj hlists
  have htakenA := mem_matchedA hdisj hlists rt.toHashOrder
  have htakenB := mem_matchedB hdisj hlists rt.toHashOrder
  have hnodupA := flatMap_fst_nodup rt.toHashOrder
    (generateCandidates sh rt (onlyIn featuresA featuresB)
      (onlyIn featuresB featuresA))
  have hnodupB := flatMap_snd_nodup rt.toHashOrder
    (generateCandidates sh rt (onlyIn featuresA featuresB)
      (onlyIn featuresB featuresA))
  -- from here on the walk enters by these facts only
  generalize hgroups : connectedComponents rt.toHashOrder
    (generateCandidates sh rt (onlyIn featuresA featuresB)
      (onlyIn featuresB featuresA)) = groups at *
  have hsharedIds : ∀ k, k ∈ rt.iter .sharedIds
      (featuresA.keys.filter (· ∈ featuresB.keys)) ↔
        k ∈ featuresA.keys ∧ k ∈ featuresB.keys := by
    simp
  obtain ⟨matched, hmatched, hshared, hmatchedA, hmatchedB⟩ :=
    exists_matched sh aoiBoundary hsharedIds
  obtain ⟨removed, hremoved, hleftA, hremovedA, hremovedB⟩ :=
    exists_leftovers sh aoiBoundary .removed
      (mem_left_iff rt.toHashOrder .leftA htakenA)
  obtain ⟨added, hadded, hleftB, haddedA, haddedB⟩ :=
    exists_leftovers sh aoiBoundary .added
      (mem_left_iff rt.toHashOrder .leftB htakenB)
  have hrun : buildChangeset sh rt featuresA featuresB aoiBoundary =
      .ok (sortBy recordKey (matched ++ resolved ++ removed ++ added)) := by
    simp only [buildChangeset, filterIds_shared_left, filterIds_shared_right,
      hgroups]
    rw [hmatched, hresolved, hremoved, hadded]
    rfl
  have hrestA : ((removed ++ added).flatMap (·.osmIdsA)).Perm
      (rt.iter .leftA ((onlyIn featuresA featuresB).keys.filter
        (· ∉ groups.flatMap Prod.fst))) := by
    rw [List.flatMap_append]
    simpa using hremovedA.append haddedA
  have hrestB : ((removed ++ added).flatMap (·.osmIdsB)).Perm
      (rt.iter .leftB ((onlyIn featuresB featuresA).keys.filter
        (· ∉ groups.flatMap Prod.snd))) := by
    rw [List.flatMap_append]
    simpa using hremovedB.append haddedB
  refine ⟨_, hrun, IsStages.isChangeset ⟨hshared, hgroup, hleftA, hleftB, ?_, ?_⟩⟩
  · refine flatMap_append_perm hmatchedA hresolvedA hrestA hnodupA ?_
      (shared_append_onlyIn_perm hsharedIds (rt.nodup_iter _ _))
    intro k hk
    obtain ⟨b, f, g, hf, -, -⟩ := (htakenA k).mp hk
    exact Dict.mem_of_get? hf
  · refine flatMap_append_perm hmatchedB hresolvedB hrestB hnodupB ?_
      (shared_append_onlyIn_perm (fun k => (hsharedIds k).trans and_comm)
        (rt.nodup_iter _ _))
    intro k hk
    obtain ⟨a, f, g, -, hg, -⟩ := (htakenB k).mp hk
    exact Dict.mem_of_get? hg

end Pipeline

end Spec

section Pairings

variable {G J : Type} {sh : Shapely G J} {rt : Runtime G}
  {featuresA featuresB : FeatureDict G} {aoiBoundary : Option G}

/-- The pairs that a candidate mapping lists. -/
def listedPair (candidates : Dict String (List String))
    (f g : LoadedFeature G) : Bool :=
  isCandidate candidates f.osmId g.osmId

/-- The pairs that an index hits and whose footprints overlap. -/
def hitPair (sh : Shapely G J) (hit : G → G → Bool) (f g : LoadedFeature G) :
    Bool :=
  hit f.geometry g.geometry && decide (overlaps sh f.geometry g.geometry)

/-- The pairs whose footprints overlap. -/
def overlapPair (sh : Shapely G J) (f g : LoadedFeature G) : Bool :=
  decide (overlaps sh f.geometry g.geometry)

theorem isCandidate_iff {candidates : Dict String (List String)}
    {a b : String} :
    isCandidate candidates a b = true ↔ Candidate candidates a b := by
  unfold isCandidate Candidate
  cases candidates.get? a <;> simp

/-- Every key of the candidate mapping has a candidate. -/
theorem exists_candidate_of_mem {onlyInA onlyInB : FeatureDict G} {a : String}
    (h : a ∈ generateCandidates sh rt onlyInA onlyInB) :
    ∃ b, Candidate (generateCandidates sh rt onlyInA onlyInB) a b := by
  obtain ⟨bs, hbs⟩ := Dict.exists_get?_of_mem h
  obtain ⟨f, -, rfl, hne⟩ :=
    mem_items_generateCandidates.mp (Dict.get?_eq_some_iff.mp hbs)
  obtain ⟨b, hb⟩ := List.exists_mem_of_ne_nil _ hne
  exact ⟨b, _, hbs, hb⟩

/-- Whatever the index returns, the mapping lists what it lists. -/
theorem lists_listedPair (onlyInA onlyInB : FeatureDict G) :
    Lists (listedPair (generateCandidates sh rt onlyInA onlyInB))
      (generateCandidates sh rt onlyInA onlyInB) onlyInA onlyInB where
  candidate := by
    funext a b
    apply propext
    constructor
    · intro h
      obtain ⟨f, g, hf, hg, -⟩ := exists_of_candidate h
      refine ⟨f, g, hf, hg, isCandidate_iff.mpr ?_⟩
      rwa [FeatureDict.osmId_of_get? hf, FeatureDict.osmId_of_get? hg]
    · rintro ⟨f, g, hf, hg, hpair⟩
      rw [← FeatureDict.osmId_of_get? hf, ← FeatureDict.osmId_of_get? hg]
      exact isCandidate_iff.mp hpair
  key := fun _ => exists_candidate_of_mem
  decides := fun _ _ _ _ => rfl

/-- The mapping lists the overlapping pairs that the index hits. -/
theorem lists_hitPair (sh : Shapely G J) {hit : G → G → Bool} (hhits : HitsBy hit rt)
    (onlyInA onlyInB : FeatureDict G) :
    Lists (hitPair sh hit) (generateCandidates sh rt onlyInA onlyInB)
      onlyInA onlyInB where
  candidate := by
    funext a b
    apply propext
    rw [candidate_iff_hit hhits]
    simp only [Edge, hitPair, Bool.and_eq_true, decide_eq_true_eq]
  key := fun _ => exists_candidate_of_mem
  decides := by
    intro f g hf hg
    rw [Bool.eq_iff_iff, isCandidate_iff, candidate_iff_hit hhits, hitPair,
      Bool.and_eq_true, decide_eq_true_iff]
    constructor
    · intro h
      exact ⟨f, g, hf, hg, h⟩
    · rintro ⟨f', g', hf', hg', h⟩
      obtain rfl := Option.some.inj (hf.symm.trans hf')
      obtain rfl := Option.some.inj (hg.symm.trans hg')
      exact h

/-- With an exact index, the mapping lists the overlapping pairs. -/
theorem lists_overlapPair (hindex : ExactIndex sh rt)
    (hint : OverlapIntersects sh) (onlyInA onlyInB : FeatureDict G) :
    Lists (overlapPair sh) (generateCandidates sh rt onlyInA onlyInB)
      onlyInA onlyInB := by
  have hpair : hitPair sh sh.intersects = overlapPair sh := by
    funext f g
    rw [Bool.eq_iff_iff, hitPair, overlapPair, Bool.and_eq_true,
      decide_eq_true_iff]
    exact ⟨And.right, fun hov => ⟨hint _ _ hov, hov⟩⟩
  rw [← hpair]
  exact lists_hitPair sh hindex onlyInA onlyInB

/-- Under any index the records partition the ids. -/
theorem buildChangeset_listed (sh : Shapely G J) (rt : Runtime G)
    (featuresA featuresB : FeatureDict G) (aoiBoundary : Option G) :
    ∃ records,
      buildChangeset sh rt featuresA featuresB aoiBoundary = .ok records ∧
      IsChangeset sh
        (listedPair (generateCandidates sh rt (onlyIn featuresA featuresB)
          (onlyIn featuresB featuresA)))
        aoiBoundary featuresA featuresB records :=
  exists_buildChangeset rt aoiBoundary (lists_listedPair _ _)

/-- With an exact index the records follow the overlaps. -/
theorem buildChangeset_overlaps (hindex : ExactIndex sh rt)
    (hint : OverlapIntersects sh) (featuresA featuresB : FeatureDict G)
    (aoiBoundary : Option G) :
    ∃ records,
      buildChangeset sh rt featuresA featuresB aoiBoundary = .ok records ∧
      IsChangeset sh (overlapPair sh) aoiBoundary featuresA featuresB records :=
  exists_buildChangeset rt aoiBoundary (lists_overlapPair hindex hint _ _)

end Pairings

end VectorMapChanges
