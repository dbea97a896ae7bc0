import VectorMapChanges.Api.Main
import VectorMapChanges.Matching.Resolution
import VectorMapChanges.Publish.Polygonal
import VectorMapChanges.Raster

/-!
# Accounting

The records, the counts, the change layer and the staged rows of one comparison
agree with each other and with the sizes of the two snapshots.

Main facts:
* `namedCount_of_isRecord`: how many ids a record of each classification names;
* `sum_namedCount`: what the records name together, by classification;
* `buildChangesetResult_accounting`: the identities of one run.
-/

namespace VectorMapChanges

open Lib

/-- How many ids a record names on a side on which records of the classification
`absent` have none. -/
def namedCount (absent : Classification) (r : ChangeRecord)
    (ids : List String) : Nat :=
  if r.classification = .ambiguous then ids.length
  else if r.classification = absent then 0
  else 1

/-- How many records have a classification. -/
def recordCount (records : List ChangeRecord) (c : Classification) : Nat :=
  records.countP (fun r => r.classification = c)

/-- How many ids the ambiguous records name on a side. -/
def ambiguousIds (records : List ChangeRecord)
    (side : ChangeRecord → List String) : Nat :=
  ((records.filter (fun r => r.classification = .ambiguous)).map
    (fun r => (side r).length)).sum

section Records

variable {G J : Type} {sh : Shapely G J}
  {pair : LoadedFeature G → LoadedFeature G → Bool} {aoiBoundary : Option G}
  {featuresA featuresB : FeatureDict G} {r : ChangeRecord}

/-- A matched pair names one id on each side. -/
theorem namedCount_classifyMatched {osmIdA osmIdB : String}
    {method : MatchMethod} {metrics : MatchMetrics} {a b : LoadedFeature G}
    (hr : r = classifyMatched sh osmIdA osmIdB method metrics a b aoiBoundary) :
    r.osmIdsA.length = namedCount .added r r.osmIdsA ∧
    r.osmIdsB.length = namedCount .removed r r.osmIdsB := by
  have hclass : r.classification ≠ .ambiguous ∧ r.classification ≠ .added ∧
      r.classification ≠ .removed := by
    rw [hr, classifyMatched]
    simp only [classifyPair]
    split_ifs <;> decide
  obtain ⟨hambiguous, hadded, hremoved⟩ := hclass
  simp only [namedCount, if_neg hambiguous, if_neg hadded, if_neg hremoved]
  rw [hr]
  exact ⟨rfl, rfl⟩

/-- An ambiguous record names what it names. -/
theorem namedCount_ambiguous (hr : r.classification = .ambiguous) :
    r.osmIdsA.length = namedCount .added r r.osmIdsA ∧
    r.osmIdsB.length = namedCount .removed r r.osmIdsB := by
  constructor
  · rw [namedCount, if_pos hr]
  · rw [namedCount, if_pos hr]

/-- How many ids a record names on each side follows from its classification,
unless it is ambiguous. -/
theorem namedCount_of_isRecord
    (h : IsRecord sh pair aoiBoundary featuresA featuresB r) :
    r.osmIdsA.length = namedCount .added r r.osmIdsA ∧
    r.osmIdsB.length = namedCount .removed r r.osmIdsB := by
  cases h with
  | shared osmId a b _ _ =>
      exact namedCount_classifyMatched rfl
  | group root as bs hgroup =>
      by_cases hshape : as.length = 1 ∧ bs.length = 1
      · obtain ⟨a, rfl⟩ := List.length_eq_one_iff.mp hshape.1
        obtain ⟨b, rfl⟩ := List.length_eq_one_iff.mp hshape.2
        by_cases hiou : tCrossIdMatch ≤ iou sh a.geometry b.geometry
        · exact namedCount_classifyMatched (groupRecord_of_iou_ge hiou)
        · rw [groupRecord_of_iou_lt hiou]
          exact namedCount_ambiguous rfl
      · exact namedCount_ambiguous
          (groupRecord_unresolved sh pair aoiBoundary hshape).1
  | removed a _ _ =>
      exact ⟨rfl, rfl⟩
  | added b _ _ =>
      exact ⟨rfl, rfl⟩

/-- What the records name on one side, by classification. -/
theorem sum_namedCount {absent present : Classification}
    (hside : absent = .added ∧ present = .removed ∨
      absent = .removed ∧ present = .added)
    (side : ChangeRecord → List String) (records : List ChangeRecord) :
    (records.map (fun r => namedCount absent r (side r))).sum =
      recordCount records .unchanged + recordCount records .modifiedGeometry +
        recordCount records .modifiedAttributes +
        recordCount records .modifiedGeometryAndAttributes +
        recordCount records present + ambiguousIds records side := by
  induction records with
  | nil =>
      simp [recordCount, ambiguousIds]
  | cons r rest ih =>
      rw [List.map_cons, List.sum_cons, ih]
      rcases hside with ⟨rfl, rfl⟩ | ⟨rfl, rfl⟩ <;>
        cases hc : r.classification <;>
        simp [recordCount, ambiguousIds, namedCount, hc] <;>
        omega

/-- A side of the records that lists the ids of a snapshot accounts for its
size. -/
theorem length_keys_eq {records : List ChangeRecord}
    {side : ChangeRecord → List String} {keys : List String}
    {absent present : Classification}
    (hside : absent = .added ∧ present = .removed ∨
      absent = .removed ∧ present = .added)
    (hperm : (records.flatMap side).Perm keys)
    (hcount : ∀ r ∈ records, (side r).length = namedCount absent r (side r)) :
    keys.length =
      recordCount records .unchanged + recordCount records .modifiedGeometry +
        recordCount records .modifiedAttributes +
        recordCount records .modifiedGeometryAndAttributes +
        recordCount records present + ambiguousIds records side := by
  calc
    keys.length = (records.flatMap side).length := hperm.length_eq.symm
    _ = (records.map (fun r => (side r).length)).sum := List.length_flatMap
    _ = (records.map (fun r => namedCount absent r (side r))).sum := by
      rw [List.map_congr_left hcount]
    _ = _ := sum_namedCount hside side records

/-- The classifications account for every record. -/
theorem sum_recordCount (records : List ChangeRecord) :
    (classifications.map (recordCount records)).sum = records.length := by
  induction records with
  | nil =>
      rfl
  | cons r rest ih =>
      simp only [classifications, List.map_cons, List.map_nil, List.sum_cons,
        List.sum_nil] at ih ⊢
      cases hc : r.classification <;>
        simp [recordCount, hc] at ih ⊢ <;>
        omega

end Records

section Staged

variable {G J : Type} {sh : Shapely G J}

/-- The staged rows are as many of each changed classification as the features
of the layer. -/
theorem countP_staged {layer : ChangeLayer J} {features : List (ChangeFeature J)}
    {staged : List (StagedChangeFeature G)}
    (hfeatures : changedFeatures layer = .ok features)
    (hstaged : changeFeatureRows sh features = .ok staged) (c : Classification) :
    staged.countP (fun s => s.classification = c.value) =
      if c = .unchanged then 0 else layerCount layer c := by
  have hview : staged.map (fun s => some s.classification) =
      (layer.map (fun f => f.view.1)).filter (fun name => name ≠ some "unchanged") := by
    calc
      _ = features.map (fun f => f.view.1) :=
        map_of_mapM_eq_ok hstaged
          (fun _ _ _ h => congrArg Prod.fst (changeFeatureRow_view h))
      _ = _ := by
        rw [changedFeatures_eq_ok hfeatures, List.filter_map]
        rfl
  have hcount : staged.countP (fun s => s.classification = c.value) =
      ((layer.map (fun f => f.view.1)).filter
        (fun name => name ≠ some "unchanged")).countP
        (fun name => name = some c.value) := by
    rw [← hview, List.countP_map]
    apply List.countP_congr
    intro s _
    simp
  rw [hcount, List.countP_filter]
  by_cases hc : c = .unchanged
  · rw [if_pos hc, hc, List.countP_eq_zero]
    intro name _
    simp only [Bool.and_eq_true, decide_eq_true_eq]
    rintro ⟨heq, hne⟩
    exact hne heq
  · rw [if_neg hc, layerCount, List.countP_map]
    apply List.countP_congr
    intro f _
    have hvalue : c.value ≠ "unchanged" :=
      Classification.value_injective.ne hc
    simp only [Function.comp, Bool.and_eq_true, decide_eq_true_eq]
    constructor
    · intro h
      exact h.1
    · intro h
      exact ⟨h, by rw [h]; exact fun he => hvalue (Option.some.inj he)⟩

/-- There are as many staged rows as changed features. -/
theorem length_staged {layer : ChangeLayer J} {features : List (ChangeFeature J)}
    {staged : List (StagedChangeFeature G)} {records : List ChangeRecord}
    {featuresA featuresB : FeatureDict G}
    (hlayer : renderChangeLayer sh records featuresA featuresB = .ok layer)
    (hfeatures : changedFeatures layer = .ok features)
    (hstaged : changeFeatureRows sh features = .ok staged) :
    recordCount records .unchanged + staged.length = records.length := by
  have hlength : staged.length = layer.countP
      (fun f => f.view.1 ≠ some "unchanged") := by
    rw [← (mapM_eq_ok_iff.mp hstaged).length_eq,
      changedFeatures_eq_ok hfeatures, List.countP_eq_length_filter]
  have hunchanged : recordCount records .unchanged =
      layer.countP (fun f => f.view.1 = some "unchanged") :=
    (layerCount_renderChangeLayer hlayer .unchanged).symm
  have htotal : records.length = layer.length :=
    (mapM_eq_ok_iff.mp hlayer).length_eq
  rw [hlength, hunchanged, htotal,
    List.length_eq_countP_add_countP (fun f => f.view.1 = some "unchanged")]
  simp

end Staged

section Run

variable {G J : Type} {sh : Shapely G J} {rt : Runtime G}
  {snapshotA snapshotB : SnapshotRef}
  {processedA processedB : ProcessedCollection J} {aoiGeometry : Option J}
  {result : ChangesetResult J}

/-- The counts have one entry for each classification, in order. -/
theorem keys_counts (records : List ChangeRecord) :
    (records.foldl countRecord zeroCounts).keys = classifications := by
  have hkeys : ∀ counts : Dict Classification Nat,
      counts.keys = classifications →
      (records.foldl countRecord counts).keys = classifications := by
    induction records with
    | nil =>
        intro counts h
        exact h
    | cons r rest ih =>
        intro counts h
        apply ih
        rw [countRecord, Dict.keys, Dict.set, Dict.map_fst_setItems_of_mem]
        · exact h
        · rw [show counts.items.map Prod.fst = classifications from h]
          cases r.classification <;> decide
  exact hkeys zeroCounts (by decide)

/-- The accounting identities of a run: between the records, the counts and the
layer; between the counts and the sizes of the snapshots; and between the counts,
the staged rows and the changed count of the API.  If the snapshots can be
published, the rows can be staged. -/
theorem buildChangesetResult_accounting
    (h : buildChangesetResult sh rt snapshotA snapshotB processedA processedB
      aoiGeometry = .ok result) :
    (result.counts.keys = classifications ∧
      ∀ c, result.counts.get? c = some (recordCount result.records c) ∧
        result.counts.get? c = some (layerCount result.changeLayerGeojson c)) ∧
    (∀ n : Classification → Nat, (∀ c, result.counts.get? c = some (n c)) →
      processedA.length =
          n .unchanged + n .modifiedGeometry + n .modifiedAttributes +
            n .modifiedGeometryAndAttributes + n .removed +
            ambiguousIds result.records (·.osmIdsA) ∧
        processedB.length =
          n .unchanged + n .modifiedGeometry + n .modifiedAttributes +
            n .modifiedGeometryAndAttributes + n .added +
            ambiguousIds result.records (·.osmIdsB)) ∧
    ∃ features, changedFeatures result.changeLayerGeojson = .ok features ∧
      (∀ staged, changeFeatureRows sh features = .ok staged →
        (∀ c ≠ .unchanged, result.counts.get? c =
          some (staged.countP (fun s => s.classification = c.value))) ∧
        (∀ s ∈ staged, s.classification ≠ "unchanged") ∧
        ∀ row : Api.ChangesetSelect,
          (∀ c, result.counts.get? c = some (row.count c)) →
          (Api.changesetPayload row).changedCount = staged.length) ∧
      (KeepsPolygons sh →
        (∀ feature ∈ processedA ++ processedB, Stageable sh feature) →
        ∃ staged, changeFeatureRows sh features = .ok staged) := by
  have hlayerCount := get?_counts_eq_layerCount h
  obtain ⟨-, featuresA, featuresB, aoiBoundary, records, layer, hloadA, hloadB, -,
    hrecords, hlayer, rfl⟩ := buildChangesetResult_eq_ok_iff.mp h
  have hcounts : ∀ c, (records.foldl countRecord zeroCounts).get? c =
      some (recordCount records c) := get?_counts records
  obtain ⟨records', hrecords', hchangeset⟩ :=
    buildChangeset_listed sh rt featuresA featuresB aoiBoundary
  obtain rfl := Except.ok.inj (hrecords.symm.trans hrecords')
  refine ⟨⟨keys_counts records, fun c => ⟨hcounts c, hlayerCount c⟩⟩, ?_, ?_⟩
  · intro n hn
    have hvalue : ∀ c, n c = recordCount records c := by
      intro c
      exact Option.some.inj ((hn c).symm.trans (hcounts c))
    have hsizes : ∀ r ∈ records,
        r.osmIdsA.length = namedCount .added r r.osmIdsA ∧
        r.osmIdsB.length = namedCount .removed r r.osmIdsB :=
      fun r hr => namedCount_of_isRecord ((hchangeset.mem r).mp hr)
    simp only [hvalue]
    constructor
    · rw [← length_keys_of_loadFeatures hloadA]
      exact length_keys_eq (Or.inl ⟨rfl, rfl⟩) hchangeset.idsA
        (fun r hr => (hsizes r hr).1)
    · rw [← length_keys_of_loadFeatures hloadB]
      exact length_keys_eq (Or.inr ⟨rfl, rfl⟩) hchangeset.idsB
        (fun r hr => (hsizes r hr).2)
  · have hnamed : ∀ feature ∈ layer, ∃ c, feature.view.1 = some c := by
      intro feature hfeature
      obtain ⟨r, -, -, hview⟩ := exists_record_of_mem hlayer hfeature
      exact ⟨r.classification.value, congrArg Prod.fst hview⟩
    obtain ⟨features, hfeatures⟩ := exists_changedFeatures hnamed
    refine ⟨features, hfeatures, ?_, ?_⟩
    · intro staged hstaged
      have hcount := countP_staged hfeatures hstaged
      refine ⟨?_, ?_, ?_⟩
      · intro c hc
        rw [hcount c, if_neg hc]
        exact hlayerCount c
      · intro s hs hunchanged
        have hzero := hcount .unchanged
        rw [if_pos rfl, List.countP_eq_zero] at hzero
        exact hzero s hs (decide_eq_true hunchanged)
      · intro row hrow
        have hvalue : row.count = recordCount records := by
          funext c
          exact Option.some.inj ((hrow c).symm.trans (hcounts c))
        have htotal := Api.changedCount_changesetPayload row
        rw [hvalue, sum_recordCount,
          ← length_staged hlayer hfeatures hstaged] at htotal
        omega
    · intro hkeep hstage
      have hA : PolygonalFeatures sh featuresA :=
        polygonalFeatures_of_loadFeatures hkeep
          (fun f hf => hstage f (List.mem_append_left _ hf)) hloadA
      have hB : PolygonalFeatures sh featuresB :=
        polygonalFeatures_of_loadFeatures hkeep
          (fun f hf => hstage f (List.mem_append_right _ hf)) hloadB
      apply exists_mapM_eq_ok
      intro feature hfeature
      rw [changedFeatures_eq_ok hfeatures] at hfeature
      obtain ⟨r, hr, hrender, -⟩ :=
        exists_record_of_mem hlayer (List.mem_of_mem_filter hfeature)
      exact exists_changeFeatureRow_iff.mpr (changeStageable_of_renderRecord hkeep
        hA hB ((hchangeset.mem r).mp hr).named hrender)

end Run

/-- One building of the first snapshot is split into two of the second, one goes
and one comes. -/
theorem accounting_split :
    ∃ result staged,
      buildChangesetResult Raster.shapely Raster.exact (Raster.ref 1)
        (Raster.ref 2)
        [Raster.processed "way/1" {(0, 0), (1, 0)}, Raster.processed "way/2" {(5, 5)}]
        [Raster.processed "way/3" {(0, 0)}, Raster.processed "way/4" {(1, 0)},
          Raster.processed "way/5" {(9, 9)}] none = .ok result ∧
      changedFeatures result.changeLayerGeojson >>= changeFeatureRows Raster.shapely
        = .ok staged ∧
      ambiguousIds result.records (·.osmIdsB) = 2 ∧
      result.counts.get? .ambiguous =
        some (staged.countP (fun s => s.classification = "ambiguous")) := by
  have hrun : (buildChangesetResult Raster.shapely Raster.exact (Raster.ref 1)
      (Raster.ref 2)
      [Raster.processed "way/1" {(0, 0), (1, 0)}, Raster.processed "way/2" {(5, 5)}]
      [Raster.processed "way/3" {(0, 0)}, Raster.processed "way/4" {(1, 0)},
        Raster.processed "way/5" {(9, 9)}] none).map
      (fun result => ambiguousIds result.records (·.osmIdsB)) = .ok 2 := by
    decide +kernel
  obtain ⟨result, hresult⟩ := exists_eq_ok_of_isSome (show
    (buildChangesetResult Raster.shapely Raster.exact (Raster.ref 1)
      (Raster.ref 2)
      [Raster.processed "way/1" {(0, 0), (1, 0)}, Raster.processed "way/2" {(5, 5)}]
      [Raster.processed "way/3" {(0, 0)}, Raster.processed "way/4" {(1, 0)},
        Raster.processed "way/5" {(9, 9)}] none).toOption.isSome = true by
    decide +kernel)
  obtain ⟨-, -, features, hfeatures, hrows, hstageable⟩ :=
    buildChangesetResult_accounting hresult
  have hstage : ∀ feature ∈ [Raster.processed "way/1" {(0, 0), (1, 0)},
      Raster.processed "way/2" {(5, 5)}] ++ [Raster.processed "way/3" {(0, 0)},
      Raster.processed "way/4" {(1, 0)}, Raster.processed "way/5" {(9, 9)}],
      Stageable Raster.shapely feature := by
    intro feature hfeature
    simp only [List.cons_append, List.nil_append, List.mem_cons,
      List.not_mem_nil, or_false] at hfeature
    rcases hfeature with rfl | rfl | rfl | rfl | rfl <;>
      exact Raster.stageable_processed _ _
  obtain ⟨staged, hstaged⟩ := hstageable Raster.keepsPolygons hstage
  obtain ⟨hcounts, -, -⟩ := hrows staged hstaged
  rw [hresult] at hrun
  exact ⟨result, staged, hresult, bind_eq_ok.mpr ⟨features, hfeatures, hstaged⟩,
    Except.ok.inj hrun, hcounts .ambiguous (by decide)⟩

end VectorMapChanges
