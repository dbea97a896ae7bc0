import VectorMapChanges.Publish.BeforeAfter
import VectorMapChanges.Publish.Transactions

/-!
# What is served

The serving tables seen from outside: for each snapshot and each changeset the list
of its rows.  Publishing one of them assigns its list and leaves the others.

Main facts:
* `featureRows_publishSnapshotFeatures`, `featureRows_publishChangeFeatures`,
  `changeRows_publishSnapshotFeatures`: what each publication assigns and leaves;
* `changesetRows_of_featureRows`: the rows of a changeset depend on the rows of its
  two snapshots only.
-/

namespace VectorMapChanges

open Lib

section Rows

variable {G J : Type}

/-- The rows of a snapshot. -/
def Database.featureRows (db : Database G) (snapshotId : Nat) :
    List (SnapshotFeatureRow G) :=
  db.snapshotFeatures.values.filter (fun row => row.snapshotId = snapshotId)

variable (sh : Shapely G J) (pg : PostGis G)

/-- The rows that publishing a processed snapshot writes. -/
def snapshotRows (snapshotId : Nat) (processed : ProcessedCollection J) :
    Except PyError (List (SnapshotFeatureRow G)) := do
  let staged ← snapshotFeatureRows sh processed
  staged.mapM (selectSnapshotFeature sh pg snapshotId)

variable {sh pg}

/-- No building is twice among the rows of a snapshot. -/
theorem Database.nodup_osmIds (db : Database G) (snapshotId : Nat) :
    ((db.featureRows snapshotId).map (·.osmId)).Nodup := by
  have hkeys : ((db.featureRows snapshotId).map
      SnapshotFeatureRow.naturalKey).Nodup := by
    refine List.Nodup.sublist (List.filter_sublist.map _) ?_
    rw [SerialTable.values, List.map_map]
    exact db.snapshotFeatures.nodupKeys
  have hsame : (db.featureRows snapshotId).map SnapshotFeatureRow.naturalKey =
      ((db.featureRows snapshotId).map (·.osmId)).map (fun osmId =>
        (snapshotId, osmId)) := by
    rw [List.map_map]
    apply List.map_congr_left
    intro row hrow
    exact Prod.ext (of_decide_eq_true (List.mem_filter.mp hrow).2) rfl
  rw [hsame] at hkeys
  exact List.Nodup.of_map _ hkeys

theorem replaced_snapshotScope (db : Database G) (snapshotId : Nat) :
    (snapshotScope snapshotId).replaced db = db.featureRows snapshotId := by
  rw [Scope.replaced, snapshotScope, map_snd_filter]
  rfl

theorem replaced_changesetScope (db : Database G) (changesetId : Nat) :
    (changesetScope changesetId).replaced db = db.changeRows changesetId := by
  rw [Scope.replaced, changesetScope, map_snd_filter]
  rfl

/-- The rows under one key are among those that do not have another. -/
theorem filter_of_others {ρ : Type} {rows rows' : List (Nat × ρ)} {p q : ρ → Bool}
    (h : rows'.filter (fun row => !p row.2) = rows.filter (fun row => !p row.2))
    (hdisj : ∀ value, q value = true → p value = false) :
    rows'.filter (fun row => q row.2) = rows.filter (fun row => q row.2) := by
  have hboth : ∀ l : List (Nat × ρ), l.filter (fun row => q row.2) =
      (l.filter (fun row => !p row.2)).filter (fun row => q row.2) := by
    intro l
    rw [List.filter_filter]
    apply List.filter_congr
    intro row _
    cases hq : q row.2 with
    | false => rfl
    | true => rw [hdisj row.2 hq, Bool.not_false, Bool.true_and]
  rw [hboth rows', h, ← hboth rows]

section PublishSnapshot

variable {db db' : Database G} {snapshotId written : Nat}
  {processed : ProcessedCollection J}

/-- Publishing a snapshot assigns its rows, one for each feature. -/
theorem featureRows_publishSnapshotFeatures
    (h : publishSnapshotFeatures sh pg db snapshotId processed =
      .ok (written, db')) :
    snapshotRows sh pg snapshotId processed = .ok (db'.featureRows snapshotId) ∧
      written = (db'.featureRows snapshotId).length := by
  obtain ⟨staged, rows, table, hstaged, hrows, -, htable, rfl, rfl⟩ :=
    publishSnapshotFeatures_eq_ok_iff.mp h
  have hown : ∀ row ∈ rows, decide (row.snapshotId = snapshotId) = true := by
    intro row hrow
    obtain ⟨s, -, hs⟩ := (mem_iff_of_mapM_eq_ok hrows).mp hrow
    exact decide_eq_true (selectSnapshotFeature_key hs).1
  have hvalues : ({ db with snapshotFeatures := table } : Database G).featureRows
      snapshotId = rows := by
    rw [Database.featureRows, KeyedTable.values_insertAll htable,
      KeyedTable.deleteWhere, SerialTable.values_deleteWhere]
    exact filter_replace hown
  rw [hvalues]
  exact ⟨bind_eq_ok.mpr ⟨staged, hstaged, hrows⟩, rfl⟩

/-- The rows of the other snapshots are those from before, ids included. -/
theorem rows_publishSnapshotFeatures_of_ne
    (h : publishSnapshotFeatures sh pg db snapshotId processed =
      .ok (written, db')) {other : Nat} (hne : other ≠ snapshotId) :
    db'.snapshotFeatures.rows.filter (fun row => row.2.snapshotId = other) =
      db.snapshotFeatures.rows.filter (fun row => row.2.snapshotId = other) := by
  have hothers := (replaces_publishSnapshotFeatures h).others_eq
  rw [Scope.others, Scope.others, snapshotScope] at hothers
  refine filter_of_others (q := fun value => decide (value.snapshotId = other))
    hothers ?_
  intro value hvalue
  rw [decide_eq_true_iff] at hvalue
  simp [hvalue, hne]

/-- So are their rows without the ids. -/
theorem featureRows_of_rows {snapshotId : Nat}
    (h : db'.snapshotFeatures.rows.filter (fun row => row.2.snapshotId = snapshotId) =
      db.snapshotFeatures.rows.filter (fun row => row.2.snapshotId = snapshotId)) :
    db'.featureRows snapshotId = db.featureRows snapshotId := by
  rw [← replaced_snapshotScope, ← replaced_snapshotScope, Scope.replaced,
    Scope.replaced, snapshotScope]
  exact congrArg (List.map Prod.snd) h

/-- Publishing a snapshot leaves the other tables. -/
theorem tables_publishSnapshotFeatures
    (h : publishSnapshotFeatures sh pg db snapshotId processed =
      .ok (written, db')) :
    db'.snapshots = db.snapshots ∧ db'.changesets = db.changesets ∧
      db'.changeFeatures = db.changeFeatures :=
  (replaces_publishSnapshotFeatures h).sameTables

end PublishSnapshot

section PublishChangeset

variable {db db' : Database G} {changesetId snapshotAId snapshotBId written : Nat}
  {layer : ChangeLayer J}

/-- The rows of the other changesets are those from before, ids included. -/
theorem rows_publishChangeFeatures_of_ne
    (h : publishChangeFeatures sh pg db changesetId snapshotAId snapshotBId layer =
      .ok (written, db')) {other : Nat} (hne : other ≠ changesetId) :
    db'.changeFeatures.rows.filter (fun row => row.2.changesetId = other) =
      db.changeFeatures.rows.filter (fun row => row.2.changesetId = other) := by
  have hothers := (replaces_publishChangeFeatures h).others_eq
  rw [Scope.others, Scope.others, changesetScope] at hothers
  refine filter_of_others (q := fun value => decide (value.changesetId = other))
    hothers ?_
  intro value hvalue
  rw [decide_eq_true_iff] at hvalue
  simp [hvalue, hne]

/-- So are their rows without the ids. -/
theorem changeRows_of_rows {changesetId : Nat}
    (h : db'.changeFeatures.rows.filter (fun row => row.2.changesetId = changesetId) =
      db.changeFeatures.rows.filter (fun row => row.2.changesetId = changesetId)) :
    db'.changeRows changesetId = db.changeRows changesetId := by
  rw [← replaced_changesetScope, ← replaced_changesetScope, Scope.replaced,
    Scope.replaced, changesetScope]
  exact congrArg (List.map Prod.snd) h

/-- Publishing a changeset leaves the other tables. -/
theorem tables_publishChangeFeatures
    (h : publishChangeFeatures sh pg db changesetId snapshotAId snapshotBId layer =
      .ok (written, db')) :
    db'.snapshots = db.snapshots ∧ db'.changesets = db.changesets ∧
      db'.snapshotFeatures = db.snapshotFeatures :=
  (replaces_publishChangeFeatures h).sameTables

/-- The geometry of one side depends on the rows of its snapshot only. -/
theorem unionOfFeatures_of_featureRows {snapshotId : Nat}
    (h : db'.featureRows snapshotId = db.featureRows snapshotId) (column : String)
    (osmIds : List String) :
    unionOfFeatures sh pg db' column snapshotId osmIds =
      unionOfFeatures sh pg db column snapshotId osmIds := by
  have hfilter : ∀ db : Database G, db.snapshotFeatures.values.filter
      (fun row => row.snapshotId = snapshotId ∧ row.osmId ∈ osmIds) =
        (db.featureRows snapshotId).filter (fun row => row.osmId ∈ osmIds) := by
    intro db
    rw [Database.featureRows, List.filter_filter]
    apply List.filter_congr
    intro row _
    rw [Bool.and_comm, Bool.decide_and]
  unfold unionOfFeatures
  rw [hfilter db', h, ← hfilter db]

/-- A snapshot counts as published when it has a row. -/
theorem requirePublishedSnapshot_iff_featureRows {snapshotId : Nat} :
    requirePublishedSnapshot db snapshotId = .ok () ↔
      db.featureRows snapshotId ≠ [] := by
  rw [requirePublishedSnapshot_eq_ok_iff, Database.publishedIds, ne_eq,
    List.map_eq_nil_iff]
  rfl

theorem requirePublishedSnapshot_of_featureRows {snapshotId : Nat}
    (h : db'.featureRows snapshotId = db.featureRows snapshotId) :
    requirePublishedSnapshot db' snapshotId =
      requirePublishedSnapshot db snapshotId := by
  by_cases hrows : db.featureRows snapshotId = []
  · have hfails : ∀ db : Database G, db.featureRows snapshotId = [] →
        db.snapshotFeatures.values.any (fun row => row.snapshotId = snapshotId) =
          false := by
      intro db hnil
      rw [Database.featureRows, List.filter_eq_nil_iff] at hnil
      rw [List.any_eq_false]
      exact hnil
    unfold requirePublishedSnapshot
    rw [hfails db hrows, hfails db' (h.trans hrows)]
  · rw [requirePublishedSnapshot_iff_featureRows.mpr hrows,
      requirePublishedSnapshot_iff_featureRows.mpr (by rwa [h])]

/-- The rows of a changeset depend on the rows of its two snapshots only. -/
theorem changesetRows_of_featureRows
    (hA : db'.featureRows snapshotAId = db.featureRows snapshotAId)
    (hB : db'.featureRows snapshotBId = db.featureRows snapshotBId)
    (changesetId : Nat) (layer : ChangeLayer J) :
    changesetRows sh pg db' changesetId snapshotAId snapshotBId layer =
      changesetRows sh pg db changesetId snapshotAId snapshotBId layer := by
  have hselect : selectChangeFeature sh pg db' changesetId snapshotAId snapshotBId =
      selectChangeFeature sh pg db changesetId snapshotAId snapshotBId := by
    funext staged
    unfold selectChangeFeature
    rw [unionOfFeatures_of_featureRows hA, unionOfFeatures_of_featureRows hB]
  unfold changesetRows
  rw [hselect, requirePublishedSnapshot_of_featureRows hA,
    requirePublishedSnapshot_of_featureRows hB]

end PublishChangeset

end Rows

end VectorMapChanges
