import VectorMapChanges.Matching.Render
import VectorMapChanges.Matching.Resolution

/-!
# What a change record is about

Three constructors, called from six places, take the ids, the metrics and the
features of a record separately.  `Describes` says that the three belong
together: the record is about a list of features on either side, and everything
it holds is computed from them.

Main facts:
* `IsRecord.describes`: every record of two snapshots is about features of them;
* `Describes.length_items_eq_one_iff`: one metrics entry stands for one feature
  on each side;
* `buildChangeset_coherent`: ids, metrics, method, score and flags of every
  record fit together.
-/

namespace VectorMapChanges

open Lib

/-- A feature pair was matched. -/
def Classification.Resolved (c : Classification) : Prop :=
  c ≠ .added ∧ c ≠ .removed ∧ c ≠ .ambiguous

/-- The ids of a pair, which pairs are ordered by. -/
def pairKey {G : Type} (p : LoadedFeature G × LoadedFeature G) :
    String ×ₗ String :=
  toLex (p.1.osmId, p.2.osmId)

/-- The candidate pairs of sorted lists come in the order of their ids. -/
theorem pairwise_candidatePairs {G : Type}
    {pair : LoadedFeature G → LoadedFeature G → Bool}
    {as bs : List (LoadedFeature G)} (has : SortedById as) (hbs : SortedById bs) :
    (candidatePairs pair as bs).Pairwise (fun p q => pairKey p < pairKey q) := by
  refine List.Pairwise.filter _ (List.pairwise_flatMap.mpr ⟨?_, ?_⟩)
  · intro a _
    rw [List.pairwise_map]
    apply List.Pairwise.imp _ hbs
    intro b b' hlt
    exact Prod.Lex.toLex_lt_toLex.mpr (Or.inr ⟨rfl, hlt⟩)
  · apply List.Pairwise.imp _ has
    intro a a' hlt p hp q hq
    obtain ⟨b, -, rfl⟩ := List.mem_map.mp hp
    obtain ⟨b', -, rfl⟩ := List.mem_map.mp hq
    exact Prod.Lex.toLex_lt_toLex.mpr (Or.inl hlt)

theorem resolved_classifyPair (metrics : MatchMetrics) :
    (classifyPair metrics).Resolved := by
  rw [classifyPair_eq_decisionTable]
  unfold Classification.Resolved decisionTable
  split <;> simp

section Describes

variable {G J : Type}

/-- The record names the feature, on the side of the snapshot it is from. -/
def ChangeRecord.Involves (r : ChangeRecord) (featuresA featuresB : FeatureDict G)
    (f : LoadedFeature G) : Prop :=
  (∃ a ∈ r.osmIdsA, featuresA.get? a = some f) ∨
  ∃ b ∈ r.osmIdsB, featuresB.get? b = some f

variable (sh : Shapely G J)

/-- What was decided about the features of a record. -/
inductive Verdict (r : ChangeRecord) :
    List (LoadedFeature G) → List (LoadedFeature G) → Prop where
  | resolved (a b : LoadedFeature G)
      (hclass : r.classification.Resolved) (hmethod : r.matchMethod.isSome = true)
      (hscore : r.matchScore = some (iou sh a.geometry b.geometry)) :
      Verdict r [a] [b]
  | ambiguous (as bs : List (LoadedFeature G)) (has : as ≠ []) (hbs : bs ≠ [])
      (hclass : r.classification = .ambiguous) (hmethod : r.matchMethod = none)
      (hscore : r.matchScore = none) :
      Verdict r as bs
  | removed (a : LoadedFeature G) (hclass : r.classification = .removed)
      (hmethod : r.matchMethod = none) (hscore : r.matchScore = none) :
      Verdict r [a] []
  | added (b : LoadedFeature G) (hclass : r.classification = .added)
      (hmethod : r.matchMethod = none) (hscore : r.matchScore = none) :
      Verdict r [] [b]

/-- The record is about the features `as` of the first and `bs` of the second
snapshot; `pair` says whose metrics it keeps. -/
structure Describes (pair : LoadedFeature G → LoadedFeature G → Bool)
    (aoiBoundary : Option G) (featuresA featuresB : FeatureDict G)
    (r : ChangeRecord) (as bs : List (LoadedFeature G)) : Prop where
  sortedA : SortedById as
  sortedB : SortedById bs
  storedA : Stored featuresA as
  storedB : Stored featuresB bs
  idsA : r.osmIdsA = as.map (·.osmId)
  idsB : r.osmIdsB = bs.map (·.osmId)
  metrics : r.pairMetrics = pairMetricsOf sh pair as bs
  pairedA : ∀ a ∈ as, bs ≠ [] → ∃ b ∈ bs, pair a b = true
  pairedB : ∀ b ∈ bs, as ≠ [] → ∃ a ∈ as, pair a b = true
  repaired : r.involvesRepairedGeometry = involvesRepaired (as ++ bs)
  touches : r.touchesAoiBoundary = touchesAoiBoundary sh (as ++ bs) aoiBoundary
  verdict : Verdict sh r as bs

variable {sh} {pair : LoadedFeature G → LoadedFeature G → Bool}
  {aoiBoundary : Option G} {featuresA featuresB : FeatureDict G}

theorem stored_single {d : FeatureDict G} {k : String} {f : LoadedFeature G}
    (h : d.get? k = some f) :
    Stored d [f] := by
  intro f' hf'
  rw [List.mem_singleton.mp hf', FeatureDict.osmId_of_get? h]
  exact h

/-- A stored feature whose id is listed is listed itself. -/
theorem Stored.mem_of_osmId_mem {d : FeatureDict G} {fs : List (LoadedFeature G)}
    {ids : List String} (h : Stored d fs) (hids : ids = fs.map (·.osmId))
    {f : LoadedFeature G} (hf : d.get? f.osmId = some f) (hmem : f.osmId ∈ ids) :
    f ∈ fs := by
  rw [hids] at hmem
  obtain ⟨f', hf', hid⟩ := List.mem_map.mp hmem
  have hget := h f' hf'
  rw [hid] at hget
  rwa [Option.some.inj (hf.symm.trans hget)]

theorem sortedById_single (f : LoadedFeature G) : SortedById [f] :=
  List.pairwise_singleton _ _

/-- The record of a matched pair is about the two features. -/
theorem describes_classifyMatched {k l : String} {a b : LoadedFeature G}
    (ha : featuresA.get? k = some a) (hb : featuresB.get? l = some b)
    (method : MatchMethod) :
    Describes sh (fun _ _ => true) aoiBoundary featuresA featuresB
      (classifyMatched sh k l method (computeMetrics sh a b) a b aoiBoundary)
      [a] [b] := by
  obtain rfl := FeatureDict.osmId_of_get? ha
  obtain rfl := FeatureDict.osmId_of_get? hb
  have hpaired : ∀ f : LoadedFeature G, ∃ f' ∈ [f], true = true :=
    fun f => ⟨f, by simp, rfl⟩
  exact
    { sortedA := sortedById_single a
      sortedB := sortedById_single b
      storedA := stored_single ha
      storedB := stored_single hb
      idsA := rfl
      idsB := rfl
      metrics := rfl
      pairedA := fun _ _ _ => hpaired b
      pairedB := fun _ _ _ => hpaired a
      repaired := rfl
      touches := rfl
      verdict := .resolved a b (resolved_classifyPair _) rfl rfl }

/-- The record of a feature without counterpart is about that feature. -/
theorem describes_removed {a : LoadedFeature G}
    (ha : featuresA.get? a.osmId = some a) :
    Describes sh (fun _ _ => true) aoiBoundary featuresA featuresB
      (addedOrRemoved sh .removed a aoiBoundary) [a] [] where
  sortedA := sortedById_single a
  sortedB := List.Pairwise.nil
  storedA := stored_single ha
  storedB := by simp [Stored]
  idsA := rfl
  idsB := rfl
  metrics := rfl
  pairedA := fun _ _ h => absurd rfl h
  pairedB := by simp
  repaired := rfl
  touches := rfl
  verdict := .removed a rfl rfl rfl

theorem describes_added {b : LoadedFeature G}
    (hb : featuresB.get? b.osmId = some b) :
    Describes sh (fun _ _ => true) aoiBoundary featuresA featuresB
      (addedOrRemoved sh .added b aoiBoundary) [] [b] where
  sortedA := List.Pairwise.nil
  sortedB := sortedById_single b
  storedA := by simp [Stored]
  storedB := stored_single hb
  idsA := rfl
  idsB := rfl
  metrics := rfl
  pairedA := by simp
  pairedB := fun _ _ h => absurd rfl h
  repaired := rfl
  touches := rfl
  verdict := .added b rfl rfl rfl

/-- A group is resolved, or it is ambiguous for some reason. -/
theorem groupRecord_cases (sh : Shapely G J)
    (pair : LoadedFeature G → LoadedFeature G → Bool) (aoiBoundary : Option G)
    (as bs : List (LoadedFeature G)) :
    (∃ a b, as = [a] ∧ bs = [b] ∧
      groupRecord sh pair aoiBoundary as bs =
        classifyMatched sh a.osmId b.osmId .geometry (computeMetrics sh a b) a b
          aoiBoundary) ∨
    ∃ reason, groupRecord sh pair aoiBoundary as bs =
      ambiguous sh (as.map (·.osmId)) (bs.map (·.osmId))
        (pairMetricsOf sh pair as bs) reason (as ++ bs) aoiBoundary := by
  unfold groupRecord
  split
  · rename_i a b
    split_ifs
    · exact Or.inl ⟨a, b, rfl, rfl, rfl⟩
    · exact Or.inr ⟨_, rfl⟩
  · exact Or.inr ⟨_, rfl⟩
  · exact Or.inr ⟨_, rfl⟩
  · exact Or.inr ⟨_, rfl⟩

end Describes

section Groups

variable {G J : Type} {sh : Shapely G J}
  {pair : LoadedFeature G → LoadedFeature G → Bool}
  {onlyInA onlyInB : FeatureDict G} {root : String}
  {as bs : List (LoadedFeature G)}

/-- Every feature of a component has an edge inside it. -/
theorem IsGroup.exists_pair_left
    (hdisj : ∀ osmId ∈ onlyInA.toDict, osmId ∉ onlyInB.toDict)
    (h : IsGroup pair onlyInA onlyInB root as bs) {a : LoadedFeature G}
    (ha : a ∈ as) :
    ∃ b ∈ bs, pair a b = true := by
  obtain ⟨hget, hconn⟩ := (h.memA a).mp ha
  rcases h.linked with ⟨z, hz⟩
  obtain ⟨w, hw⟩ := exists_linked_of_connected hz hconn
  have hstep := hconn.tail hw
  rcases hw with ⟨f, g, hf, hg, hpair⟩ | ⟨f, g, -, hg, -⟩
  · obtain rfl := Option.some.inj (hget.symm.trans hf)
    obtain rfl := FeatureDict.osmId_of_get? hg
    exact ⟨g, (h.memB g).mpr ⟨hg, hstep⟩, hpair⟩
  · exact absurd (Dict.mem_of_get? hg) (hdisj _ (Dict.mem_of_get? hget))

theorem IsGroup.exists_pair_right
    (hdisj : ∀ osmId ∈ onlyInA.toDict, osmId ∉ onlyInB.toDict)
    (h : IsGroup pair onlyInA onlyInB root as bs) {b : LoadedFeature G}
    (hb : b ∈ bs) :
    ∃ a ∈ as, pair a b = true := by
  obtain ⟨hget, hconn⟩ := (h.memB b).mp hb
  rcases h.linked with ⟨z, hz⟩
  obtain ⟨w, hw⟩ := exists_linked_of_connected hz hconn
  have hstep := hconn.tail hw
  rcases hw with ⟨f, g, hf, -, -⟩ | ⟨f, g, hf, hg, hpair⟩
  · exact absurd (Dict.mem_of_get? hget) (hdisj _ (Dict.mem_of_get? hf))
  · obtain rfl := Option.some.inj (hget.symm.trans hg)
    obtain rfl := FeatureDict.osmId_of_get? hf
    exact ⟨f, (h.memA f).mpr ⟨hf, hstep⟩, hpair⟩

end Groups

section Records

variable {G J : Type} {sh : Shapely G J}
  {pair : LoadedFeature G → LoadedFeature G → Bool} {aoiBoundary : Option G}
  {featuresA featuresB : FeatureDict G}

theorem stored_of_onlyIn {fs : List (LoadedFeature G)}
    (h : Stored (onlyIn featuresA featuresB) fs) :
    Stored featuresA fs :=
  fun f hf => (get?_onlyIn.mp (h f hf)).1

/-- `pair'` keeps the pairs of `pair`, apart from single features that are paired
for another reason. -/
def AgreesOn (pair pair' : LoadedFeature G → LoadedFeature G → Bool)
    (as bs : List (LoadedFeature G)) : Prop :=
  ∀ a ∈ as, ∀ b ∈ bs, pair' a b = pair a b ∨ (as = [a] ∧ bs = [b])

theorem agreesOn_single {pair' : LoadedFeature G → LoadedFeature G → Bool}
    (a b : LoadedFeature G) :
    AgreesOn pair pair' [a] [b] := by
  intro a' ha b' hb
  rw [List.mem_singleton.mp ha, List.mem_singleton.mp hb]
  exact Or.inr ⟨rfl, rfl⟩

/-- The record of a group is about the features of the group. -/
theorem describes_groupRecord {root : String} {as bs : List (LoadedFeature G)}
    (h : IsGroup pair (onlyIn featuresA featuresB) (onlyIn featuresB featuresA)
      root as bs) :
    ∃ pair', Describes sh pair' aoiBoundary featuresA featuresB
      (groupRecord sh pair aoiBoundary as bs) as bs ∧
      AgreesOn pair pair' as bs := by
  have hdisj : ∀ osmId ∈ (onlyIn featuresA featuresB).toDict,
      osmId ∉ (onlyIn featuresB featuresA).toDict :=
    fun _ => not_mem_onlyIn_of_mem
  have hA := stored_of_onlyIn h.stored.1
  have hB := stored_of_onlyIn h.stored.2
  rcases groupRecord_cases sh pair aoiBoundary as bs with
    ⟨a, b, rfl, rfl, heq⟩ | ⟨reason, heq⟩
  · rw [heq]
    exact ⟨_, describes_classifyMatched (hA a (by simp)) (hB b (by simp)) _,
      agreesOn_single a b⟩
  · obtain ⟨a, ha, b, hb, -⟩ := h.exists_pair
    rw [heq]
    exact ⟨pair,
      { sortedA := h.sortedA
        sortedB := h.sortedB
        storedA := hA
        storedB := hB
        idsA := h.sortedA.sorted_ids
        idsB := h.sortedB.sorted_ids
        metrics := rfl
        pairedA := fun _ hmem _ => h.exists_pair_left hdisj hmem
        pairedB := fun _ hmem _ => h.exists_pair_right hdisj hmem
        repaired := rfl
        touches := rfl
        verdict := .ambiguous as bs (List.ne_nil_of_mem ha)
          (List.ne_nil_of_mem hb) rfl rfl rfl },
      fun _ _ _ _ => Or.inl rfl⟩

/-- Every record of two snapshots is about features of them. -/
theorem IsRecord.describes {r : ChangeRecord}
    (h : IsRecord sh pair aoiBoundary featuresA featuresB r) :
    ∃ pair' as bs, Describes sh pair' aoiBoundary featuresA featuresB r as bs ∧
      AgreesOn pair pair' as bs := by
  cases h with
  | shared osmId a b ha hb =>
      exact ⟨_, _, _, describes_classifyMatched ha hb .osmId, agreesOn_single a b⟩
  | group root as bs hgroup =>
      obtain ⟨pair', hdesc, hagrees⟩ := describes_groupRecord hgroup
      exact ⟨pair', as, bs, hdesc, hagrees⟩
  | removed a ha _ =>
      exact ⟨_, _, _, describes_removed (get?_onlyIn.mp ha).1, by simp [AgreesOn]⟩
  | added b hb _ =>
      exact ⟨_, _, _, describes_added (get?_onlyIn.mp hb).1, by simp [AgreesOn]⟩

/-- The pipeline returns records that are about features of the snapshots; of
unresolved ones it keeps the pairs that the candidate mapping lists. -/
theorem exists_buildChangeset_describes (sh : Shapely G J) (rt : Runtime G)
    (featuresA featuresB : FeatureDict G) (aoiBoundary : Option G) :
    ∃ records,
      buildChangeset sh rt featuresA featuresB aoiBoundary = .ok records ∧
      ∀ r ∈ records, ∃ pair as bs,
        Describes sh pair aoiBoundary featuresA featuresB r as bs ∧
        AgreesOn (listedPair (generateCandidates sh rt
          (onlyIn featuresA featuresB) (onlyIn featuresB featuresA))) pair as bs := by
  obtain ⟨records, hrecords, hchangeset⟩ :=
    buildChangeset_listed sh rt featuresA featuresB aoiBoundary
  exact ⟨records, hrecords, fun r hr => ((hchangeset.mem r).mp hr).describes⟩

/-- A record that is about features of the snapshots names ids of them. -/
theorem Describes.mem_toDict {r : ChangeRecord} {as bs : List (LoadedFeature G)}
    (h : Describes sh pair aoiBoundary featuresA featuresB r as bs) :
    (∀ k ∈ r.osmIdsA, k ∈ featuresA.toDict) ∧
    ∀ k ∈ r.osmIdsB, k ∈ featuresB.toDict := by
  rw [h.idsA, h.idsB]
  constructor
  · intro k hk
    obtain ⟨a, ha, rfl⟩ := List.mem_map.mp hk
    exact Dict.mem_of_get? (h.storedA a ha)
  · intro k hk
    obtain ⟨b, hb, rfl⟩ := List.mem_map.mp hk
    exact Dict.mem_of_get? (h.storedB b hb)

/-- The records are rendered one by one, so what is known of a record and of its
feature is known of the whole layer. -/
theorem exists_rendered (sh : Shapely G J) (rt : Runtime G)
    (featuresA featuresB : FeatureDict G) (aoiBoundary : Option G)
    {holds : ChangeRecord → ChangeFeature J → Prop}
    (hstep : ∀ r feature pair as bs,
      Describes sh pair aoiBoundary featuresA featuresB r as bs →
      AgreesOn (listedPair (generateCandidates sh rt
        (onlyIn featuresA featuresB) (onlyIn featuresB featuresA))) pair as bs →
      renderRecord sh featuresA featuresB r = .ok feature → holds r feature) :
    ∃ records layer,
      buildChangeset sh rt featuresA featuresB aoiBoundary = .ok records ∧
      renderChangeLayer sh records featuresA featuresB = .ok layer ∧
      List.Forall₂ holds records layer := by
  obtain ⟨records, hrecords, hdesc⟩ :=
    exists_buildChangeset_describes sh rt featuresA featuresB aoiBoundary
  have hnamed : ∀ r ∈ records, (∀ k ∈ r.osmIdsA, k ∈ featuresA.toDict) ∧
      ∀ k ∈ r.osmIdsB, k ∈ featuresB.toDict := by
    intro r hr
    obtain ⟨pair, as, bs, h, -⟩ := hdesc r hr
    exact h.mem_toDict
  obtain ⟨layer, hlayer⟩ := exists_renderChangeLayer sh hnamed
  refine ⟨records, layer, hrecords, hlayer, ?_⟩
  have hrendered : List.Forall₂ (fun r feature =>
      renderRecord sh featuresA featuresB r = .ok feature) records layer :=
    mapM_eq_ok_iff.mp hlayer
  refine List.Forall₂.imp ?_
    ((List.forall₂_and_left _ _).mpr ⟨hdesc, hrendered⟩)
  rintro r feature ⟨⟨pair, as, bs, h, hagrees⟩, hfeature⟩
  exact hstep r feature pair as bs h hagrees hfeature

namespace Describes

variable {r : ChangeRecord} {as bs : List (LoadedFeature G)}

/-- The features that a record names are those it is about. -/
theorem involves_iff
    (h : Describes sh pair aoiBoundary featuresA featuresB r as bs)
    (f : LoadedFeature G) :
    r.Involves featuresA featuresB f ↔ f ∈ as ++ bs := by
  have hside : ∀ {d : FeatureDict G} {fs : List (LoadedFeature G)},
      Stored d fs → ((∃ k ∈ fs.map (·.osmId), d.get? k = some f) ↔ f ∈ fs) := by
    intro d fs hstored
    constructor
    · rintro ⟨k, hk, hget⟩
      obtain ⟨f', hf', rfl⟩ := List.mem_map.mp hk
      rwa [Option.some.inj (hget.symm.trans (hstored f' hf'))]
    · intro hf
      exact ⟨f.osmId, List.mem_map_of_mem hf, hstored f hf⟩
  rw [ChangeRecord.Involves, h.idsA, h.idsB, hside h.storedA, hside h.storedB,
    List.mem_append]

/-- A record that names ids of both sides keeps metrics. -/
theorem exists_pair
    (h : Describes sh pair aoiBoundary featuresA featuresB r as bs)
    (has : as ≠ []) (hbs : bs ≠ []) :
    ∃ a ∈ as, ∃ b ∈ bs, pair a b = true := by
  obtain ⟨a, ha⟩ := List.exists_mem_of_ne_nil _ has
  obtain ⟨b, hb, hpair⟩ := h.pairedA a ha hbs
  exact ⟨a, ha, b, hb, hpair⟩

/-- Single features on either side are a pair of the record. -/
theorem candidatePairs_single {a b : LoadedFeature G}
    (h : Describes sh pair aoiBoundary featuresA featuresB r [a] [b]) :
    candidatePairs pair [a] [b] = [(a, b)] := by
  obtain ⟨a', ha, b', hb, hpair⟩ := h.exists_pair (by simp) (by simp)
  rw [List.mem_singleton.mp ha, List.mem_singleton.mp hb] at hpair
  simp [candidatePairs, List.product, hpair]

/-- The metrics entries of a record are those of its pairs, each under the two
ids. -/
theorem get?_iff (h : Describes sh pair aoiBoundary featuresA featuresB r as bs)
    {a b : String} {m : MatchMetrics} :
    r.pairMetrics.get? (a, b) = some m ↔
      ∃ f ∈ as, ∃ g ∈ bs, pair f g = true ∧ f.osmId = a ∧ g.osmId = b ∧
        m = computeMetrics sh f g := by
  rw [Dict.get?_eq_some_iff, h.metrics,
    mem_items_pairMetricsOf h.sortedA h.sortedB]
  constructor
  · rintro ⟨f, hf, g, hg, hpair, heq⟩
    obtain ⟨hids, rfl⟩ := Prod.mk.inj heq
    obtain ⟨rfl, rfl⟩ := Prod.mk.inj hids
    exact ⟨f, hf, g, hg, hpair, rfl, rfl, rfl⟩
  · rintro ⟨f, hf, g, hg, hpair, rfl, rfl, rfl⟩
    exact ⟨f, hf, g, hg, hpair, rfl⟩

theorem mem_pairMetrics_of_pair
    (h : Describes sh pair aoiBoundary featuresA featuresB r as bs)
    {a b : LoadedFeature G} (ha : a ∈ as) (hb : b ∈ bs) (hpair : pair a b = true) :
    (a.osmId, b.osmId) ∈ r.pairMetrics :=
  Dict.mem_of_get? (h.get?_iff.mpr ⟨a, ha, b, hb, hpair, rfl, rfl, rfl⟩)

/-- There are no metrics exactly when a side is empty. -/
theorem items_eq_nil_iff
    (h : Describes sh pair aoiBoundary featuresA featuresB r as bs) :
    r.pairMetrics.items = [] ↔ as = [] ∨ bs = [] := by
  rw [h.metrics, items_pairMetricsOf h.sortedA h.sortedB, List.map_eq_nil_iff]
  constructor
  · intro hnil
    by_contra hne
    rw [not_or] at hne
    obtain ⟨a, ha, b, hb, hpair⟩ := h.exists_pair hne.1 hne.2
    have hmem : (a, b) ∈ candidatePairs pair as bs :=
      mem_candidatePairs.mpr ⟨⟨ha, hb⟩, hpair⟩
    rw [hnil] at hmem
    simp at hmem
  · rintro (rfl | rfl) <;> simp [candidatePairs, List.product]

/-- The verdict on a record with one metrics entry is on one feature a side:
every feature of a side occurs in an entry. -/
theorem length_items_eq_one_iff
    (h : Describes sh pair aoiBoundary featuresA featuresB r as bs) :
    r.pairMetrics.items.length = 1 ↔ as.length = 1 ∧ bs.length = 1 := by
  rw [h.metrics, items_pairMetricsOf h.sortedA h.sortedB, List.length_map]
  constructor
  · intro hlen
    obtain ⟨⟨a, b⟩, hpairs⟩ := List.length_eq_one_iff.mp hlen
    have hmem : ∀ f g, (f ∈ as ∧ g ∈ bs) ∧ pair f g = true → f = a ∧ g = b := by
      intro f g hfg
      have hmem : (f, g) ∈ candidatePairs pair as bs := mem_candidatePairs.mpr hfg
      rw [hpairs, List.mem_singleton] at hmem
      exact Prod.mk.inj hmem
    have hab : (a ∈ as ∧ b ∈ bs) ∧ pair a b = true := by
      have hin : (a, b) ∈ candidatePairs pair as bs := by
        rw [hpairs]
        simp
      exact mem_candidatePairs.mp hin
    have hsingle : ∀ {fs : List (LoadedFeature G)} {f : LoadedFeature G},
        SortedById fs → f ∈ fs → (∀ f' ∈ fs, f' = f) → fs.length = 1 := by
      intro fs f hsorted hf hall
      have hfs : fs = [f] :=
        eq_of_mem_iff_of_pairwise hsorted (sortedById_single f) (fun f' =>
          ⟨fun hf' => List.mem_singleton.mpr (hall f' hf'),
            fun hf' => List.mem_singleton.mp hf' ▸ hf⟩)
      rw [hfs]
      rfl
    constructor
    · refine hsingle h.sortedA hab.1.1 ?_
      intro f hf
      obtain ⟨g, hg, hpair⟩ := h.pairedA f hf (List.ne_nil_of_mem hab.1.2)
      exact (hmem f g ⟨⟨hf, hg⟩, hpair⟩).1
    · refine hsingle h.sortedB hab.1.2 ?_
      intro g hg
      obtain ⟨f, hf, hpair⟩ := h.pairedB g hg (List.ne_nil_of_mem hab.1.1)
      exact (hmem f g ⟨⟨hf, hg⟩, hpair⟩).2
  · rintro ⟨has, hbs⟩
    obtain ⟨a, rfl⟩ := List.length_eq_one_iff.mp has
    obtain ⟨b, rfl⟩ := List.length_eq_one_iff.mp hbs
    rw [h.candidatePairs_single]
    rfl

end Describes

end Records

section Coherent

variable {G J : Type}

/-- Ids, metrics, method, score and flags of a record fit together. -/
structure Coherent (sh : Shapely G J) (aoiBoundary : Option G)
    (featuresA featuresB : FeatureDict G) (r : ChangeRecord) : Prop where
  sortedA : r.osmIdsA.Pairwise (· < ·)
  sortedB : r.osmIdsB.Pairwise (· < ·)
  named : r.osmIdsA ≠ [] ∨ r.osmIdsB ≠ []
  metrics : ∀ a b m, r.pairMetrics.get? (a, b) = some m →
    a ∈ r.osmIdsA ∧ b ∈ r.osmIdsB ∧
    ∃ f g, featuresA.get? a = some f ∧ featuresB.get? b = some g ∧
      m = computeMetrics sh f g
  empty : r.pairMetrics.items = [] ↔ r.osmIdsA = [] ∨ r.osmIdsB = []
  covered : r.pairMetrics.items ≠ [] →
    (∀ a ∈ r.osmIdsA, ∃ b, (a, b) ∈ r.pairMetrics) ∧
    ∀ b ∈ r.osmIdsB, ∃ a, (a, b) ∈ r.pairMetrics
  method : r.matchMethod.isSome = true ↔ r.classification.Resolved
  score : r.matchScore.isSome = true ↔ r.classification.Resolved
  pair : r.classification.Resolved → ∃ a b m,
    r.osmIdsA = [a] ∧ r.osmIdsB = [b] ∧
    r.pairMetrics.get? (a, b) = some m ∧ r.matchScore = some m.iou
  touches : r.touchesAoiBoundary = true ↔
    ∃ boundary, aoiBoundary = some boundary ∧
      ∃ f, r.Involves featuresA featuresB f ∧
        sh.distance f.geometry boundary < aoiBoundaryDistanceM
  repaired : r.involvesRepairedGeometry = true ↔
    ∃ f, r.Involves featuresA featuresB f ∧ f.repaired = true

variable {sh : Shapely G J} {aoiBoundary : Option G}
  {featuresA featuresB : FeatureDict G}

theorem touchesAoiBoundary_iff {feats : List (LoadedFeature G)} :
    touchesAoiBoundary sh feats aoiBoundary = true ↔
      ∃ boundary, aoiBoundary = some boundary ∧
        ∃ f ∈ feats, sh.distance f.geometry boundary < aoiBoundaryDistanceM := by
  cases aoiBoundary <;> simp [touchesAoiBoundary]

/-- Whether a record has a method and a score is decided by its verdict. -/
theorem Verdict.isSome_iff {r : ChangeRecord} {as bs : List (LoadedFeature G)}
    (h : Verdict sh r as bs) :
    (r.matchMethod.isSome = true ↔ r.classification.Resolved) ∧
    (r.matchScore.isSome = true ↔ r.classification.Resolved) := by
  cases h with
  | resolved a b hclass hmethod hscore => simp [hclass, hmethod, hscore]
  | ambiguous as bs _ _ hclass hmethod hscore =>
      simp [Classification.Resolved, hclass, hmethod, hscore]
  | removed a hclass hmethod hscore =>
      simp [Classification.Resolved, hclass, hmethod, hscore]
  | added b hclass hmethod hscore =>
      simp [Classification.Resolved, hclass, hmethod, hscore]

theorem Verdict.named {r : ChangeRecord} {as bs : List (LoadedFeature G)}
    (h : Verdict sh r as bs) :
    as ≠ [] ∨ bs ≠ [] := by
  cases h <;> simp_all

/-- A resolved record is about one feature a side. -/
theorem Verdict.single_of_resolved {r : ChangeRecord}
    {as bs : List (LoadedFeature G)} (h : Verdict sh r as bs)
    (hres : r.classification.Resolved) :
    ∃ a b, as = [a] ∧ bs = [b] ∧
      r.matchScore = some (iou sh a.geometry b.geometry) := by
  obtain ⟨hadded, hremoved, hambiguous⟩ := hres
  cases h with
  | resolved a b _ _ hscore => exact ⟨a, b, rfl, rfl, hscore⟩
  | ambiguous as bs _ _ hclass _ _ => exact absurd hclass hambiguous
  | removed a hclass _ _ => exact absurd hclass hremoved
  | added b hclass _ _ => exact absurd hclass hadded

/-- A record that is about features of the two snapshots is coherent. -/
theorem Describes.coherent {pair : LoadedFeature G → LoadedFeature G → Bool}
    {r : ChangeRecord} {as bs : List (LoadedFeature G)}
    (h : Describes sh pair aoiBoundary featuresA featuresB r as bs) :
    Coherent sh aoiBoundary featuresA featuresB r where
  sortedA := by
    rw [h.idsA]
    exact List.pairwise_map.mpr h.sortedA
  sortedB := by
    rw [h.idsB]
    exact List.pairwise_map.mpr h.sortedB
  named := by
    rw [h.idsA, h.idsB]
    simpa using h.verdict.named
  metrics := by
    intro a b m hm
    obtain ⟨f, hf, g, hg, -, rfl, rfl, rfl⟩ := h.get?_iff.mp hm
    rw [h.idsA, h.idsB]
    exact ⟨List.mem_map_of_mem hf, List.mem_map_of_mem hg, f, g, h.storedA f hf,
      h.storedB g hg, rfl⟩
  empty := by
    rw [h.items_eq_nil_iff, h.idsA, h.idsB, List.map_eq_nil_iff,
      List.map_eq_nil_iff]
  covered := by
    intro hne
    rw [ne_eq, h.items_eq_nil_iff, not_or] at hne
    rw [h.idsA, h.idsB]
    constructor
    · intro k hk
      obtain ⟨a, ha, rfl⟩ := List.mem_map.mp hk
      obtain ⟨b, hb, hpair⟩ := h.pairedA a ha hne.2
      exact ⟨b.osmId, h.mem_pairMetrics_of_pair ha hb hpair⟩
    · intro k hk
      obtain ⟨b, hb, rfl⟩ := List.mem_map.mp hk
      obtain ⟨a, ha, hpair⟩ := h.pairedB b hb hne.1
      exact ⟨a.osmId, h.mem_pairMetrics_of_pair ha hb hpair⟩
  method := h.verdict.isSome_iff.1
  score := h.verdict.isSome_iff.2
  pair := by
    intro hres
    obtain ⟨a, b, rfl, rfl, hscore⟩ := h.verdict.single_of_resolved hres
    obtain ⟨a', ha', b', hb', hpair⟩ := h.exists_pair (by simp) (by simp)
    obtain rfl := List.mem_singleton.mp ha'
    obtain rfl := List.mem_singleton.mp hb'
    exact ⟨a'.osmId, b'.osmId, computeMetrics sh a' b', h.idsA, h.idsB,
      h.get?_iff.mpr ⟨a', by simp, b', by simp, hpair, rfl, rfl, rfl⟩, hscore⟩
  touches := by
    rw [h.touches, touchesAoiBoundary_iff]
    simp only [h.involves_iff]
  repaired := by
    rw [h.repaired, involvesRepaired, List.any_eq_true]
    simp only [h.involves_iff]

/-- The pipeline does not raise, and every record that it returns is
coherent. -/
theorem buildChangeset_coherent (sh : Shapely G J) (rt : Runtime G)
    (featuresA featuresB : FeatureDict G) (aoiBoundary : Option G) :
    ∃ records,
      buildChangeset sh rt featuresA featuresB aoiBoundary = .ok records ∧
      ∀ r ∈ records, Coherent sh aoiBoundary featuresA featuresB r := by
  obtain ⟨records, hrecords, hdesc⟩ :=
    exists_buildChangeset_describes sh rt featuresA featuresB aoiBoundary
  refine ⟨records, hrecords, ?_⟩
  intro r hr
  obtain ⟨pair, as, bs, h, -⟩ := hdesc r hr
  exact h.coherent

/-- The record of a split has the metrics of both pairs, and no score. -/
example :
    (buildChangeset Raster.shapely Raster.exact Raster.undivided Raster.divided
        none).toOption.any (List.any · fun r =>
      (r.classification = .ambiguous ∧ r.matchScore = none) ∧
      (r.osmIdsA = ["way/1"] ∧ r.osmIdsB = ["way/2", "way/3"]) ∧
      r.pairMetrics.items.map (fun item => (item.1, item.2.iou)) =
        [(("way/1", "way/2"), 1 / 2), (("way/1", "way/3"), 1 / 2)]) = true := by
  decide +kernel

end Coherent

end VectorMapChanges
