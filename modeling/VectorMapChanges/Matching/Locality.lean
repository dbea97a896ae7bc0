import VectorMapChanges.Matching.Records
import VectorMapChanges.Raster

/-!
# Locality

Two parts of a city that share no id and whose leftover footprints do not
overlap across the parts are compared independently of each other.

Main facts:
* `Parts.connected_iff`: no chain of overlaps leaves a part;
* `Parts.isRecord_iff`: the records of the whole are those of the parts;
* `buildChangeset_union`: comparing the whole is comparing the parts and
  merging the results.
-/

namespace VectorMapChanges

open Lib

section Parts

variable {G J : Type} {sh : Shapely G J}
  {pair : LoadedFeature G → LoadedFeature G → Bool}
  {featuresA featuresB a₁ b₁ a₂ b₂ : FeatureDict G} {aoiBoundary : Option G}

/-- Both snapshots fall into two parts with disjoint ids, and no leftover
feature of one part is paired with a leftover feature of the other. -/
structure Parts (pair : LoadedFeature G → LoadedFeature G → Bool)
    (featuresA featuresB a₁ b₁ a₂ b₂ : FeatureDict G) : Prop where
  itemsA : featuresA.items.Perm (a₁.items ++ a₂.items)
  itemsB : featuresB.items.Perm (b₁.items ++ b₂.items)
  disjoint : ∀ osmId, osmId ∈ a₁.keys ∨ osmId ∈ b₁.keys →
    osmId ∉ a₂.keys ∧ osmId ∉ b₂.keys
  apart₁₂ : ∀ x y f g, (onlyIn a₁ b₁).get? x = some f →
    (onlyIn b₂ a₂).get? y = some g → pair f g = false
  apart₂₁ : ∀ x y f g, (onlyIn a₂ b₂).get? x = some f →
    (onlyIn b₁ a₁).get? y = some g → pair f g = false

namespace Parts

variable (h : Parts pair featuresA featuresB a₁ b₁ a₂ b₂)

include h

/-- The parts can be exchanged. -/
theorem symm : Parts pair featuresA featuresB a₂ b₂ a₁ b₁ where
  itemsA := h.itemsA.trans List.perm_append_comm
  itemsB := h.itemsB.trans List.perm_append_comm
  disjoint osmId h₂ := by
    constructor
    · intro h₁
      exact h₂.elim (h.disjoint osmId (Or.inl h₁)).1
        (h.disjoint osmId (Or.inl h₁)).2
    · intro h₁
      exact h₂.elim (h.disjoint osmId (Or.inr h₁)).1
        (h.disjoint osmId (Or.inr h₁)).2
  apart₁₂ := h.apart₂₁
  apart₂₁ := h.apart₁₂

theorem get?_left {osmId : String} {f : LoadedFeature G} :
    featuresA.get? osmId = some f ↔
      a₁.get? osmId = some f ∨ a₂.get? osmId = some f := by
  simp only [Dict.get?_eq_some_iff, h.itemsA.mem_iff, List.mem_append]

theorem get?_right {osmId : String} {f : LoadedFeature G} :
    featuresB.get? osmId = some f ↔
      b₁.get? osmId = some f ∨ b₂.get? osmId = some f := by
  simp only [Dict.get?_eq_some_iff, h.itemsB.mem_iff, List.mem_append]

theorem mem_keys_left {osmId : String} :
    osmId ∈ featuresA.keys ↔ osmId ∈ a₁.keys ∨ osmId ∈ a₂.keys := by
  simp only [Dict.keys, (h.itemsA.map Prod.fst).mem_iff, List.map_append,
    List.mem_append]

theorem mem_keys_right {osmId : String} :
    osmId ∈ featuresB.keys ↔ osmId ∈ b₁.keys ∨ osmId ∈ b₂.keys := by
  simp only [Dict.keys, (h.itemsB.map Prod.fst).mem_iff, List.map_append,
    List.mem_append]

/-- The leftovers of the whole are the leftovers of the parts. -/
theorem get?_onlyIn_left {osmId : String} {f : LoadedFeature G} :
    (onlyIn featuresA featuresB).get? osmId = some f ↔
      (onlyIn a₁ b₁).get? osmId = some f ∨
      (onlyIn a₂ b₂).get? osmId = some f := by
  simp only [get?_onlyIn, h.get?_left, h.mem_keys_right, not_or]
  constructor
  · rintro ⟨h₁ | h₂, hb₁, hb₂⟩
    · exact Or.inl ⟨h₁, hb₁⟩
    · exact Or.inr ⟨h₂, hb₂⟩
  · rintro (⟨h₁, hb₁⟩ | ⟨h₂, hb₂⟩)
    · exact ⟨Or.inl h₁, hb₁,
        (h.disjoint osmId (Or.inl (Dict.mem_of_get? h₁))).2⟩
    · exact ⟨Or.inr h₂,
        (h.symm.disjoint osmId (Or.inl (Dict.mem_of_get? h₂))).2, hb₂⟩

theorem get?_onlyIn_right {osmId : String} {f : LoadedFeature G} :
    (onlyIn featuresB featuresA).get? osmId = some f ↔
      (onlyIn b₁ a₁).get? osmId = some f ∨
      (onlyIn b₂ a₂).get? osmId = some f := by
  simp only [get?_onlyIn, h.get?_right, h.mem_keys_left, not_or]
  constructor
  · rintro ⟨h₁ | h₂, ha₁, ha₂⟩
    · exact Or.inl ⟨h₁, ha₁⟩
    · exact Or.inr ⟨h₂, ha₂⟩
  · rintro (⟨h₁, ha₁⟩ | ⟨h₂, ha₂⟩)
    · exact ⟨Or.inl h₁, ha₁,
        (h.disjoint osmId (Or.inr (Dict.mem_of_get? h₁))).1⟩
    · exact ⟨Or.inr h₂,
        (h.symm.disjoint osmId (Or.inr (Dict.mem_of_get? h₂))).1, ha₂⟩

theorem edge_iff {x y : String} :
    Edge pair (onlyIn featuresA featuresB) (onlyIn featuresB featuresA) x y ↔
      Edge pair (onlyIn a₁ b₁) (onlyIn b₁ a₁) x y ∨
      Edge pair (onlyIn a₂ b₂) (onlyIn b₂ a₂) x y := by
  constructor
  · rintro ⟨f, g, hf, hg, hpair⟩
    rcases h.get?_onlyIn_left.mp hf with hf | hf
    · rcases h.get?_onlyIn_right.mp hg with hg | hg
      · exact Or.inl ⟨f, g, hf, hg, hpair⟩
      · rw [h.apart₁₂ x y f g hf hg] at hpair
        cases hpair
    · rcases h.get?_onlyIn_right.mp hg with hg | hg
      · rw [h.apart₂₁ x y f g hf hg] at hpair
        cases hpair
      · exact Or.inr ⟨f, g, hf, hg, hpair⟩
  · rintro (⟨f, g, hf, hg, hpair⟩ | ⟨f, g, hf, hg, hpair⟩)
    · exact ⟨f, g, h.get?_onlyIn_left.mpr (Or.inl hf),
        h.get?_onlyIn_right.mpr (Or.inl hg), hpair⟩
    · exact ⟨f, g, h.get?_onlyIn_left.mpr (Or.inr hf),
        h.get?_onlyIn_right.mpr (Or.inr hg), hpair⟩

end Parts

/-- The ends of a link have ids of the linked features. -/
theorem mem_keys_of_linked {a b : FeatureDict G} {x y : String}
    (h : Linked (Edge pair (onlyIn a b) (onlyIn b a)) x y) :
    x ∈ a.keys ∨ x ∈ b.keys := by
  rcases mem_or_of_linked h.symm with hx | hx
  · exact Or.inl (mem_onlyIn.mp hx).1
  · exact Or.inr (mem_onlyIn.mp hx).1

namespace Parts

variable (h : Parts pair featuresA featuresB a₁ b₁ a₂ b₂)

include h

/-- A link of the whole that starts in a part is a link of that part. -/
theorem linked_iff {x y : String} (hx : x ∈ a₁.keys ∨ x ∈ b₁.keys) :
    Linked (Edge pair (onlyIn featuresA featuresB)
        (onlyIn featuresB featuresA)) x y ↔
      Linked (Edge pair (onlyIn a₁ b₁) (onlyIn b₁ a₁)) x y := by
  have houtside : ¬ Linked (Edge pair (onlyIn a₂ b₂) (onlyIn b₂ a₂)) x y := by
    intro hlink
    obtain ⟨hA, hB⟩ := h.disjoint x hx
    exact (mem_keys_of_linked hlink).elim hA hB
  unfold Linked at houtside ⊢
  rw [h.edge_iff, h.edge_iff]
  tauto

/-- No chain of overlaps leaves a part. -/
theorem connected_iff {x y : String} (hx : x ∈ a₁.keys ∨ x ∈ b₁.keys) :
    Connected (Edge pair (onlyIn featuresA featuresB)
        (onlyIn featuresB featuresA)) x y ↔
      Connected (Edge pair (onlyIn a₁ b₁) (onlyIn b₁ a₁)) x y := by
  constructor
  · intro hconn
    have hboth : Connected (Edge pair (onlyIn a₁ b₁) (onlyIn b₁ a₁)) x y ∧
        (y ∈ a₁.keys ∨ y ∈ b₁.keys) := by
      induction hconn with
      | refl => exact ⟨Relation.ReflTransGen.refl, hx⟩
      | tail _ hstep ih =>
          have hlink := (h.linked_iff ih.2).mp hstep
          exact ⟨ih.1.tail hlink, mem_keys_of_linked hlink.symm⟩
    exact hboth.1
  · intro hconn
    refine Relation.ReflTransGen.mono ?_ x y hconn
    rintro u v (hedge | hedge)
    · exact Or.inl (h.edge_iff.mpr (Or.inl hedge))
    · exact Or.inr (h.edge_iff.mpr (Or.inl hedge))

/-- The components of a part are components of the whole. -/
theorem isGroup_iff {root : String} {as bs : List (LoadedFeature G)}
    (hroot : root ∈ a₁.keys ∨ root ∈ b₁.keys) :
    IsGroup pair (onlyIn featuresA featuresB) (onlyIn featuresB featuresA)
        root as bs ↔
      IsGroup pair (onlyIn a₁ b₁) (onlyIn b₁ a₁) root as bs := by
  -- what is connected to the root is in the part of the root
  have hpart : ∀ x, Connected (Edge pair (onlyIn a₁ b₁) (onlyIn b₁ a₁)) root x →
      x ∈ a₁.keys ∨ x ∈ b₁.keys := by
    intro x hx
    cases hx with
    | refl => exact hroot
    | tail _ hstep => exact mem_keys_of_linked hstep.symm
  have hA : ∀ f : LoadedFeature G,
      ((onlyIn featuresA featuresB).get? f.osmId = some f ∧
        Connected (Edge pair (onlyIn featuresA featuresB)
          (onlyIn featuresB featuresA)) root f.osmId) ↔
      ((onlyIn a₁ b₁).get? f.osmId = some f ∧
        Connected (Edge pair (onlyIn a₁ b₁) (onlyIn b₁ a₁)) root f.osmId) := by
    intro f
    rw [h.connected_iff hroot, h.get?_onlyIn_left]
    refine and_congr_left fun hconn => or_iff_left ?_
    intro hf
    exact absurd (mem_onlyIn.mp (Dict.mem_of_get? hf)).1
      (h.disjoint _ (hpart _ hconn)).1
  have hB : ∀ g : LoadedFeature G,
      ((onlyIn featuresB featuresA).get? g.osmId = some g ∧
        Connected (Edge pair (onlyIn featuresA featuresB)
          (onlyIn featuresB featuresA)) root g.osmId) ↔
      ((onlyIn b₁ a₁).get? g.osmId = some g ∧
        Connected (Edge pair (onlyIn a₁ b₁) (onlyIn b₁ a₁)) root g.osmId) := by
    intro g
    rw [h.connected_iff hroot, h.get?_onlyIn_right]
    refine and_congr_left fun hconn => or_iff_left ?_
    intro hg
    exact absurd (mem_onlyIn.mp (Dict.mem_of_get? hg)).1
      (h.disjoint _ (hpart _ hconn)).2
  have hlink : (∃ y, Linked (Edge pair (onlyIn featuresA featuresB)
        (onlyIn featuresB featuresA)) root y) ↔
      ∃ y, Linked (Edge pair (onlyIn a₁ b₁) (onlyIn b₁ a₁)) root y :=
    exists_congr fun y => h.linked_iff hroot
  constructor
  · intro hg
    exact ⟨hg.sortedA, hg.sortedB, fun f => (hg.memA f).trans (hA f),
      fun g => (hg.memB g).trans (hB g), hlink.mp hg.linked⟩
  · intro hg
    exact ⟨hg.sortedA, hg.sortedB, fun f => (hg.memA f).trans (hA f).symm,
      fun g => (hg.memB g).trans (hB g).symm, hlink.mpr hg.linked⟩

/-- The records of a part are records of the whole. -/
theorem isRecord_of_left {r : ChangeRecord}
    (hr : IsRecord sh pair aoiBoundary a₁ b₁ r) :
    IsRecord sh pair aoiBoundary featuresA featuresB r := by
  cases hr with
  | shared osmId a b ha hb =>
      exact .shared osmId a b (h.get?_left.mpr (Or.inl ha))
        (h.get?_right.mpr (Or.inl hb))
  | group root as bs hgroup =>
      rcases hgroup.linked with ⟨y, hy⟩
      exact .group root as bs ((h.isGroup_iff (mem_keys_of_linked hy)).mpr hgroup)
  | removed a ha hnone =>
      have hmem : a.osmId ∈ a₁.keys :=
        (mem_onlyIn.mp (Dict.mem_of_get? ha)).1
      refine .removed a (h.get?_onlyIn_left.mpr (Or.inl ha)) ?_
      intro b hb
      rcases h.edge_iff.mp hb with hb | ⟨f, g, hf, -, -⟩
      · exact hnone b hb
      · exact (h.disjoint _ (Or.inl hmem)).1
          (mem_onlyIn.mp (Dict.mem_of_get? hf)).1
  | added b hb hnone =>
      have hmem : b.osmId ∈ b₁.keys :=
        (mem_onlyIn.mp (Dict.mem_of_get? hb)).1
      refine .added b (h.get?_onlyIn_right.mpr (Or.inl hb)) ?_
      intro a ha
      rcases h.edge_iff.mp ha with ha | ⟨f, g, -, hg, -⟩
      · exact hnone a ha
      · exact (h.disjoint _ (Or.inr hmem)).2
          (mem_onlyIn.mp (Dict.mem_of_get? hg)).1

/-- The records of the whole are those of the parts. -/
theorem isRecord_iff {r : ChangeRecord} :
    IsRecord sh pair aoiBoundary featuresA featuresB r ↔
      IsRecord sh pair aoiBoundary a₁ b₁ r ∨
      IsRecord sh pair aoiBoundary a₂ b₂ r := by
  constructor
  · intro hr
    cases hr with
    | shared osmId a b ha hb =>
        rcases h.get?_left.mp ha with ha | ha
        · have hout := h.disjoint osmId (Or.inl (Dict.mem_of_get? ha))
          refine Or.inl (.shared osmId a b ha
            ((h.get?_right.mp hb).resolve_right ?_))
          exact fun hb => hout.2 (Dict.mem_of_get? hb)
        · have hout := h.symm.disjoint osmId (Or.inl (Dict.mem_of_get? ha))
          refine Or.inr (.shared osmId a b ha
            ((h.get?_right.mp hb).resolve_left ?_))
          exact fun hb => hout.2 (Dict.mem_of_get? hb)
    | group root as bs hgroup =>
        rcases hgroup.linked with ⟨y, hedge⟩
        have hroot := mem_keys_of_linked hedge
        rw [h.mem_keys_left, h.mem_keys_right] at hroot
        rcases (by tauto : (root ∈ a₁.keys ∨ root ∈ b₁.keys) ∨
          (root ∈ a₂.keys ∨ root ∈ b₂.keys)) with hroot | hroot
        · exact Or.inl (.group root as bs ((h.isGroup_iff hroot).mp hgroup))
        · exact Or.inr (.group root as bs
            ((h.symm.isGroup_iff hroot).mp hgroup))
    | removed a ha hnone =>
        rcases h.get?_onlyIn_left.mp ha with ha | ha
        · exact Or.inl (.removed a ha
            (fun b hb => hnone b (h.edge_iff.mpr (Or.inl hb))))
        · exact Or.inr (.removed a ha
            (fun b hb => hnone b (h.edge_iff.mpr (Or.inr hb))))
    | added b hb hnone =>
        rcases h.get?_onlyIn_right.mp hb with hb | hb
        · exact Or.inl (.added b hb
            (fun a ha => hnone a (h.edge_iff.mpr (Or.inl ha))))
        · exact Or.inr (.added b hb
            (fun a ha => hnone a (h.edge_iff.mpr (Or.inr ha))))
  · rintro (hr | hr)
    · exact h.isRecord_of_left hr
    · exact h.symm.isRecord_of_left hr

/-- The changeset of the whole merges the changesets of the parts. -/
theorem eq_sortBy_append {records r₁ r₂ : List ChangeRecord}
    (hrecords : IsChangeset sh pair aoiBoundary featuresA featuresB records)
    (h₁ : IsChangeset sh pair aoiBoundary a₁ b₁ r₁)
    (h₂ : IsChangeset sh pair aoiBoundary a₂ b₂ r₂) :
    records = sortBy recordKey (r₁ ++ r₂) := by
  have hmem : ∀ r, r ∈ r₁ ++ r₂ ↔
      IsRecord sh pair aoiBoundary featuresA featuresB r := by
    intro r
    rw [List.mem_append, h₁.mem, h₂.mem, h.isRecord_iff]
  have hA : ((r₁ ++ r₂).flatMap (·.osmIdsA)).Perm featuresA.keys := by
    rw [List.flatMap_append]
    have hkeys := h.itemsA.map Prod.fst
    rw [List.map_append] at hkeys
    exact (h₁.idsA.append h₂.idsA).trans hkeys.symm
  have hB : ((r₁ ++ r₂).flatMap (·.osmIdsB)).Perm featuresB.keys := by
    rw [List.flatMap_append]
    have hkeys := h.itemsB.map Prod.fst
    rw [List.map_append] at hkeys
    exact (h₁.idsB.append h₂.idsB).trans hkeys.symm
  apply hrecords.eq
  · apply pairwise_lt_sortBy
    exact nodup_recordKey (fun r hr => ((hmem r).mp hr).named)
      (hA.nodup_iff.mpr featuresA.keys_nodup)
      (hB.nodup_iff.mpr featuresB.keys_nodup)
  · intro r
    rw [mem_sortBy, hmem]

end Parts

/-- Comparing the whole is comparing the parts and merging the results, and the
record of a shared id is that of its own two features. -/
theorem buildChangeset_union (sh : Shapely G J) (rt rt₁ rt₂ : Runtime G)
    (hindex : ExactIndex sh rt) (hindex₁ : ExactIndex sh rt₁)
    (hindex₂ : ExactIndex sh rt₂) (hint : OverlapIntersects sh)
    (h : Parts (overlapPair sh) featuresA featuresB a₁ b₁ a₂ b₂)
    (aoiBoundary : Option G) :
    ∃ r₁ r₂,
      buildChangeset sh rt₁ a₁ b₁ aoiBoundary = .ok r₁ ∧
      buildChangeset sh rt₂ a₂ b₂ aoiBoundary = .ok r₂ ∧
      buildChangeset sh rt featuresA featuresB aoiBoundary =
        .ok (sortBy recordKey (r₁ ++ r₂)) ∧
      ∀ osmId a b, featuresA.get? osmId = some a →
        featuresB.get? osmId = some b →
        ∀ r ∈ r₁ ++ r₂, r.Names osmId →
          r = classifyMatched sh osmId osmId .osmId (computeMetrics sh a b) a b
            aoiBoundary := by
  obtain ⟨r₁, hrun₁, h₁⟩ := buildChangeset_overlaps hindex₁ hint a₁ b₁ aoiBoundary
  obtain ⟨r₂, hrun₂, h₂⟩ := buildChangeset_overlaps hindex₂ hint a₂ b₂ aoiBoundary
  obtain ⟨records, hrun, hrecords⟩ :=
    buildChangeset_overlaps hindex hint featuresA featuresB aoiBoundary
  have heq := h.eq_sortBy_append hrecords h₁ h₂
  refine ⟨r₁, r₂, hrun₁, hrun₂, heq ▸ hrun, ?_⟩
  intro osmId a b ha hb r hr hnames
  have hmem : r ∈ sortBy recordKey (r₁ ++ r₂) := mem_sortBy.mpr hr
  rw [← heq] at hmem
  exact ((hrecords.mem r).mp hmem).eq_of_names_shared ha hb hnames

end Parts

/-- Two sites far from each other, rebuilt under new ids. -/
theorem parts_twoSites :
    Parts (overlapPair Raster.shapely)
      (Raster.snapshot [Raster.building "way/1" {(0, 0)},
        Raster.building "way/3" {(5, 5)}])
      (Raster.snapshot [Raster.building "way/4" {(5, 5)},
        Raster.building "way/2" {(0, 0)}])
      (Raster.snapshot [Raster.building "way/1" {(0, 0)}])
      (Raster.snapshot [Raster.building "way/2" {(0, 0)}])
      (Raster.snapshot [Raster.building "way/3" {(5, 5)}])
      (Raster.snapshot [Raster.building "way/4" {(5, 5)}]) where
  itemsA := by decide +kernel
  itemsB := by decide +kernel
  disjoint osmId h := by
    have hids : osmId = "way/1" ∨ osmId = "way/2" := by
      simpa [Raster.snapshot, FeatureDict.put, Dict.keys, Dict.set,
        Dict.setItems, FeatureDict.empty, Raster.building] using h
    rcases hids with rfl | rfl
    · decide +kernel
    · decide +kernel
  apart₁₂ x y f g hf hg := by
    have hall : ∀ p ∈ (onlyIn (Raster.snapshot [Raster.building "way/1" {(0, 0)}])
          (Raster.snapshot [Raster.building "way/2" {(0, 0)}])).items,
        ∀ q ∈ (onlyIn (Raster.snapshot [Raster.building "way/4" {(5, 5)}])
          (Raster.snapshot [Raster.building "way/3" {(5, 5)}])).items,
        overlapPair Raster.shapely p.2 q.2 = false := by
      decide +kernel
    exact hall (x, f) (Dict.get?_eq_some_iff.mp hf)
      (y, g) (Dict.get?_eq_some_iff.mp hg)
  apart₂₁ x y f g hf hg := by
    have hall : ∀ p ∈ (onlyIn (Raster.snapshot [Raster.building "way/3" {(5, 5)}])
          (Raster.snapshot [Raster.building "way/4" {(5, 5)}])).items,
        ∀ q ∈ (onlyIn (Raster.snapshot [Raster.building "way/2" {(0, 0)}])
          (Raster.snapshot [Raster.building "way/1" {(0, 0)}])).items,
        overlapPair Raster.shapely p.2 q.2 = false := by
      decide +kernel
    exact hall (x, f) (Dict.get?_eq_some_iff.mp hf)
      (y, g) (Dict.get?_eq_some_iff.mp hg)

theorem buildChangeset_union_twoSites :
    ∃ r₁ r₂,
      buildChangeset Raster.shapely Raster.exact
          (Raster.snapshot [Raster.building "way/1" {(0, 0)}])
          (Raster.snapshot [Raster.building "way/2" {(0, 0)}]) none =
        .ok r₁ ∧
      buildChangeset Raster.shapely Raster.exact
          (Raster.snapshot [Raster.building "way/3" {(5, 5)}])
          (Raster.snapshot [Raster.building "way/4" {(5, 5)}]) none =
        .ok r₂ ∧
      buildChangeset Raster.shapely Raster.exact
          (Raster.snapshot [Raster.building "way/1" {(0, 0)},
            Raster.building "way/3" {(5, 5)}])
          (Raster.snapshot [Raster.building "way/4" {(5, 5)},
            Raster.building "way/2" {(0, 0)}]) none =
        .ok (sortBy recordKey (r₁ ++ r₂)) := by
  obtain ⟨r₁, r₂, hrun₁, hrun₂, hrun, -⟩ :=
    buildChangeset_union Raster.shapely Raster.exact Raster.exact Raster.exact
      Raster.exactIndex Raster.exactIndex Raster.exactIndex
      Raster.overlapIntersects parts_twoSites none
  exact ⟨r₁, r₂, hrun₁, hrun₂, hrun⟩

end VectorMapChanges
