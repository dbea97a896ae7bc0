import VectorMapChanges.Lib.ReplaceKeyed
import VectorMapChanges.Publish.Interleaving
import VectorMapChanges.Publish.Serving

/-!
# Overlapping publications of a snapshot

A retry of the task that publishes a snapshot may overlap its predecessor.  Unlike
`change_features`, `snapshot_features` has a natural key: an insertion waits for the
other transaction and fails on a row that it has committed.  Publications that name a
common building can therefore not mix their rows.

Main facts:
* `SnapshotPublications.run_alone`: a transaction that runs alone does what
  `publishSnapshotFeatures` does;
* `SnapshotPublications.contention`: publications that share a building contend for
  its key;
* `publishSnapshot_interleaved`: the snapshot always holds the rows of one document.
-/

namespace VectorMapChanges

open Lib

section Publications

variable {G J : Type}

/-- `WHERE snapshot_id = %s` -/
def inSnapshot (snapshotId : Nat) (row : SnapshotFeatureRow G) : Bool :=
  row.snapshotId = snapshotId

/-- Transactions that publish documents of one snapshot.  None of them raises by
itself. -/
structure SnapshotPublications (sh : Shapely G J) (pg : PostGis G) (τ : Type) where
  database : Database G
  snapshotId : Nat
  processed : τ → ProcessedCollection J
  rows : τ → List (SnapshotFeatureRow G)
  rows_eq : ∀ t, snapshotRows sh pg snapshotId (processed t) = .ok (rows t)
  hasSnapshot : ∀ t, rows t = [] ∨ database.snapshots.HasId snapshotId
  distinct : ∀ t, ((rows t).map (·.osmId)).Nodup

/-- Any two of the documents have a common building, unless both have none. -/
def SnapshotPublications.Overlap {sh : Shapely G J} {pg : PostGis G} {τ : Type}
    (p : SnapshotPublications sh pg τ) : Prop :=
  ∀ t u, t ≠ u → p.rows u = [] ∨
    ∃ osmId ∈ (p.rows u).map (·.osmId), osmId ∈ (p.rows t).map (·.osmId)

namespace SnapshotPublications

variable {sh : Shapely G J} {pg : PostGis G} {τ : Type}
  (p : SnapshotPublications sh pg τ)

theorem own (t : τ) : ∀ row ∈ p.rows t, inSnapshot p.snapshotId row = true := by
  obtain ⟨staged, -, hrows⟩ := bind_eq_ok.mp (p.rows_eq t)
  intro row hrow
  obtain ⟨s, -, hs⟩ := (mem_iff_of_mapM_eq_ok hrows).mp hrow
  exact decide_eq_true (selectSnapshotFeature_key hs).1

/-- Rows of one key are of one snapshot. -/
theorem inSnapshot_of_naturalKey (snapshotId : Nat) {row row' : SnapshotFeatureRow G}
    (h : row.naturalKey = row'.naturalKey) :
    inSnapshot snapshotId row = inSnapshot snapshotId row' := by
  rw [inSnapshot, inSnapshot, show row.snapshotId = row'.snapshotId from
    congrArg Prod.fst h]

theorem distinctKeys (t : τ) :
    ((p.rows t).map SnapshotFeatureRow.naturalKey).Nodup := by
  refine List.Nodup.of_map Prod.snd ?_
  rw [List.map_map]
  exact p.distinct t

theorem contention (h : p.Overlap) :
    ReplaceKeyed.Contention SnapshotFeatureRow.naturalKey (inSnapshot p.snapshotId)
      p.rows := by
  refine ⟨fun _ _ => inSnapshot_of_naturalKey p.snapshotId, p.own, p.distinctKeys, ?_⟩
  intro t u hne
  refine (h t u hne).imp_right ?_
  rintro ⟨osmId, hu, ht⟩
  obtain ⟨row, hrow, rfl⟩ := List.mem_map.mp hu
  obtain ⟨row', hrow', hid⟩ := List.mem_map.mp ht
  refine ⟨row, hrow, row', hrow', Prod.ext ?_ hid.symm⟩
  exact (of_decide_eq_true (p.own u row hrow)).trans
    (of_decide_eq_true (p.own t row' hrow')).symm

/-- Before any of the transactions starts. -/
def start : ReplaceKeyed.State τ (SnapshotFeatureRow G) where
  rows := p.database.snapshotFeatures.rows
  nextId := p.database.snapshotFeatures.nextId
  phase := fun _ => .idle

theorem start_start :
    ReplaceKeyed.Start SnapshotFeatureRow.naturalKey p.start where
  idle _ := rfl
  rows_lt := p.database.snapshotFeatures.ids_lt
  nodup := p.database.snapshotFeatures.nodupKeys

/-- The committed rows of the snapshot, without their ids. -/
def served (s : ReplaceKeyed.State τ (SnapshotFeatureRow G)) :
    List (SnapshotFeatureRow G) :=
  (s.scope (inSnapshot p.snapshotId)).map Prod.snd

variable [DecidableEq τ] [Fintype τ]

/-- After the events of a schedule. -/
def run (schedule : List (ReplaceKeyed.Event τ)) :
    Option (ReplaceKeyed.State τ (SnapshotFeatureRow G)) :=
  ReplaceKeyed.run SnapshotFeatureRow.naturalKey (inSnapshot p.snapshotId) p.rows
    p.start schedule

/-- A publication that runs alone leaves the table that the call leaves. -/
theorem run_alone (t : τ) :
    ∃ s written db, p.run (ReplaceKeyed.alone t (p.rows t).length) = some s ∧
      publishSnapshotFeatures sh pg p.database p.snapshotId (p.processed t) =
        .ok (written, db) ∧
      s.phase t = .committed ∧ s.rows = db.snapshotFeatures.rows ∧
      s.nextId = db.snapshotFeatures.nextId := by
  obtain ⟨s, hrun, hcommitted, hrows, hnext⟩ := ReplaceKeyed.run_alone p.start_start t
    (fun _ _ => inSnapshot_of_naturalKey p.snapshotId) (p.own t) (p.distinctKeys t)
  obtain ⟨staged, hstaged, hselect⟩ := bind_eq_ok.mp (p.rows_eq t)
  -- no row of the snapshot is left when the insertions begin
  have hfree : ∀ row ∈ p.rows t, (p.database.snapshotFeatures.deleteWhere
      (inSnapshot p.snapshotId)).get? row.naturalKey = none := by
    intro row hrow
    rw [KeyedTable.get?_eq_none_iff_values]
    intro value hvalue hkey
    rw [KeyedTable.deleteWhere, SerialTable.values_deleteWhere, List.mem_filter]
      at hvalue
    have hin := p.own t row hrow
    rw [← inSnapshot_of_naturalKey p.snapshotId hkey] at hin
    simp [hin] at hvalue
  obtain ⟨table, htable⟩ :=
    KeyedTable.exists_insertAll_iff.mpr ⟨p.distinctKeys t, hfree⟩
  have hserial := KeyedTable.toSerialTable_insertAll htable
  obtain ⟨hinserted, hid⟩ := SerialTable.rows_insertAll
    (p.database.snapshotFeatures.deleteWhere
      (inSnapshot p.snapshotId)).toSerialTable (p.rows t)
  refine ⟨s, _, _, hrun, publishSnapshotFeatures_eq_ok_iff.mpr
    ⟨staged, p.rows t, table, hstaged, hselect, p.hasSnapshot t, htable, rfl, rfl⟩,
    hcommitted, ?_, ?_⟩
  · rw [hrows, hserial]
    exact hinserted.symm
  · rw [hnext, hserial]
    exact hid.symm

/-- However publications that share a building overlap, and whichever of them are
lost: the snapshot holds the rows of one document that has been committed, or those
from before if none has; other snapshots keep their rows; and a publication fails on
a duplicate key only if another one has committed. -/
theorem publishSnapshot_interleaved (hoverlap : p.Overlap)
    {schedule : List (ReplaceKeyed.Event τ)}
    {s : ReplaceKeyed.State τ (SnapshotFeatureRow G)}
    (hrun : p.run schedule = some s) :
    ((∃ t, s.phase t = .committed ∧ p.served s = p.rows t) ∨
      (∀ t, s.phase t ≠ .committed) ∧
        p.served s = p.database.featureRows p.snapshotId) ∧
    s.rows.filter (fun row => !inSnapshot p.snapshotId row.2) =
      p.database.snapshotFeatures.rows.filter
        (fun row => !inSnapshot p.snapshotId row.2) ∧
    (s.rows.map (fun row => row.2.naturalKey)).Nodup ∧
    ∀ t, s.phase t = .conflicted → ∃ u, u ≠ t ∧ s.phase u = .committed := by
  have hsound := ReplaceKeyed.sound_of_run (p.contention hoverlap) p.start_start hrun
  refine ⟨?_, hsound.whole.outside, hsound.keys.nodup, ?_⟩
  · refine hsound.whole.scope.imp_right ?_
    rintro ⟨hnone, hscope⟩
    refine ⟨hnone, ?_⟩
    rw [served, hscope, ← replaced_snapshotScope]
    rfl
  · intro t ht
    obtain ⟨u, hu⟩ := hsound.whole.conflict t ht
    refine ⟨u, ?_, hu⟩
    rintro rfl
    rw [ht] at hu
    cases hu

end SnapshotPublications
end Publications

namespace Raster

/-- Two publications of the first snapshot. -/
def publications (first second : ProcessedCollection Raster)
    (hfirst : (snapshotRows shapely postgis 1 first).toOption.isSome = true)
    (hsecond : (snapshotRows shapely postgis 1 second).toOption.isSome = true)
    (hdistinct : ∀ processed ∈ [first, second],
      (((snapshotRows shapely postgis 1 processed).toOption.getD []).map
        (·.osmId)).Nodup) : SnapshotPublications shapely postgis Bool where
  database := published
  snapshotId := 1
  processed second? := if second? then second else first
  rows second? := (snapshotRows shapely postgis 1
    (if second? then second else first)).toOption.getD []
  rows_eq second? := by
    have hsome : ∀ processed, (snapshotRows shapely postgis 1 processed).toOption.isSome
        = true → snapshotRows shapely postgis 1 processed =
          .ok ((snapshotRows shapely postgis 1 processed).toOption.getD []) := by
      intro processed h
      obtain ⟨rows, hrows⟩ := exists_eq_ok_of_isSome h
      rw [hrows]
      rfl
    cases second?
    · exact hsome first hfirst
    · exact hsome second hsecond
  hasSnapshot _ := Or.inr (by decide +kernel)
  distinct second? := by
    cases second?
    · exact hdistinct first (by simp)
    · exact hdistinct second (by simp)

/-- A retry that reads the document anew, with one more building. -/
def retried : SnapshotPublications shapely postgis Bool :=
  publications [processed "way/1" {(0, 0)}]
    [processed "way/1" {(0, 0)}, processed "way/2" {(5, 5)}] (by decide +kernel)
    (by decide +kernel) (by decide +kernel)

/-- Both DELETEs have started before either transaction commits. -/
def overlapping : List (ReplaceKeyed.Event Bool) :=
  [.advance false, .advance true, .advance false, .advance false, .advance false,
    .advance true, .advance true]

end Raster

/-- The retry fails on the building that its predecessor has committed, whose
document is served. -/
theorem publishSnapshot_interleaved_retried :
    ∃ s ∈ Raster.retried.run Raster.overlapping, s.phase true = .conflicted ∧
      Raster.retried.served s = Raster.retried.rows false := by
  have hrun : ∃ s ∈ Raster.retried.run Raster.overlapping,
      s.phase true = .conflicted := by
    decide +kernel
  have hoverlap : Raster.retried.Overlap := by
    unfold SnapshotPublications.Overlap
    decide +kernel
  obtain ⟨s, hrun, htrue⟩ := hrun
  obtain ⟨hserved, -, -, hconflict⟩ :=
    Raster.retried.publishSnapshot_interleaved hoverlap hrun
  obtain ⟨u, -, hu⟩ := hconflict true htrue
  obtain ⟨t, ht, hrows⟩ := hserved.resolve_right (fun hnone => hnone.1 u hu)
  cases t with
  | false => exact ⟨s, hrun, htrue, hrows⟩
  | true =>
      rw [htrue] at ht
      cases ht

/-- Documents without a common building are mixed by the same schedule. -/
theorem publishSnapshot_mixed :
    ∃ s ∈ (Raster.publications [Raster.processed "way/1" {(0, 0)}]
        [Raster.processed "way/2" {(5, 5)}] (by decide +kernel) (by decide +kernel)
        (by decide +kernel)).run (Raster.overlapping ++ [.advance true]),
      (∀ t, s.phase t = .committed) ∧
        s.rows.map (fun row => row.2.naturalKey) =
          [(2, "way/1"), (2, "way/2"), (1, "way/1"), (1, "way/2")] := by
  decide +kernel

end VectorMapChanges
