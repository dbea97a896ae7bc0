import VectorMapChanges.Lib.Transaction
import VectorMapChanges.Publish.Postgis

/-!
# Publishing as a transaction

The publish functions statement by statement on a connection: the checks, the
DELETE, the temporary table, the COPY of rows that are made one by one, the
INSERT from the temporary table, and the commit.  Every statement may fail for a
reason of its own, such as a lost connection.

Main facts:
* `run_publishSnapshotFeatures`, `run_publishChangeFeatures`: without such
  failures the statements do what the functions on databases do;
* `publish_atomic`: a call raises and leaves the committed tables alone, or
  replaces the rows of its snapshot or changeset, and repeating it changes
  nothing but ids.
-/

namespace VectorMapChanges

open Lib Transaction Session

/-- What may fail in the statements of a call. -/
structure Faults where
  selectA : Option PyError
  selectB : Option PyError
  delete : Option PyError
  createTemp : Option PyError
  openCopy : Option PyError
  writeRow : Nat → Option PyError
  closeCopy : Option PyError
  insert : Option PyError
  commit : Option PyError

/-- No statement fails. -/
def Faults.none : Faults where
  selectA := Option.none
  selectB := Option.none
  delete := Option.none
  createTemp := Option.none
  openCopy := Option.none
  writeRow := fun _ => Option.none
  closeCopy := Option.none
  insert := Option.none
  commit := Option.none

section Staging

variable {G σ φ : Type}

/-- `_load_via_staging`, on a connection. -/
def loadViaStagingOn (faults : Faults) (delete : Database G → Database G)
    (makeRow : φ → Except PyError σ) (features : List φ)
    (insert : Database G → List σ → Except PyError (Nat × Database G)) :
    Session (Database G) σ PyError Nat := do
  check faults.delete
  execute (fun db => .ok ((), delete db))
  check faults.createTemp
  Session.createTemp (.databaseError "duplicate_table")
  check faults.openCopy
  copyRows faults.writeRow makeRow 0 features
  check faults.closeCopy
  check faults.insert
  executeStaged insert

variable {faults : Faults} {delete : Database G → Database G}
  {makeRow : φ → Except PyError σ} {features : List φ}
  {insert : Database G → List σ → Except PyError (Nat × Database G)}

theorem keepsCommitted_loadViaStagingOn :
    KeepsCommitted (loadViaStagingOn faults delete makeRow features insert) :=
  keepsCommitted_bind (keepsCommitted_check _) fun _ =>
  keepsCommitted_bind (keepsCommitted_execute _) fun _ =>
  keepsCommitted_bind (keepsCommitted_check _) fun _ =>
  keepsCommitted_bind (keepsCommitted_createTemp _) fun _ =>
  keepsCommitted_bind (keepsCommitted_check _) fun _ =>
  keepsCommitted_bind (keepsCommitted_copyRows _ _ _ _) fun _ =>
  keepsCommitted_bind (keepsCommitted_check _) fun _ =>
  keepsCommitted_bind (keepsCommitted_check _) fun _ =>
    keepsCommitted_executeStaged _

/-- Nothing but the rows and the INSERT can make the loading fail. -/
def Faults.LoadClear (faults : Faults) (features : List φ) : Prop :=
  faults.delete = Option.none ∧ faults.createTemp = Option.none ∧
  faults.openCopy = Option.none ∧
  (∀ i < features.length, faults.writeRow (0 + i) = Option.none) ∧
  faults.closeCopy = Option.none ∧ faults.insert = Option.none

/-- Loading on a connection returns what loading on a database returns. -/
theorem loadViaStagingOn_eq_ok_iff {c c' : Connection (Database G) σ}
    {written : Nat} (hstaging : c.staging = Option.none) :
    loadViaStagingOn faults delete makeRow features insert c =
        (.ok written, c') ↔
      faults.LoadClear features ∧
      ∃ rows db', features.mapM makeRow = .ok rows ∧
        insert (delete c.working) rows = .ok (written, db') ∧
        c' = ⟨c.committed, db', some rows⟩ := by
  unfold loadViaStagingOn Faults.LoadClear
  simp only [bind_eq_ok_iff, check_eq_ok_iff, execute_eq_ok_iff,
    createTemp_eq_ok_iff, executeStaged_eq_ok_iff]
  constructor
  · rintro ⟨_, _, ⟨hdelete, rfl⟩, _, _, ⟨db, hdb, rfl⟩, _, _, ⟨hcreate, rfl⟩, _, _,
      ⟨-, rfl⟩, _, _, ⟨hopen, rfl⟩, _, _, hcopy, _, _, ⟨hclose, rfl⟩, _, _,
      ⟨hinsert, rfl⟩, db', hwritten, rfl⟩
    obtain ⟨rows, hrows, hwrite, rfl⟩ := (copyRows_eq_ok_iff rfl).mp hcopy
    obtain ⟨-, rfl⟩ := Prod.mk.inj (Except.ok.inj hdb)
    exact ⟨⟨hdelete, hcreate, hopen, hwrite, hclose, hinsert⟩, rows, db', hrows,
      hwritten, rfl⟩
  · rintro ⟨⟨hdelete, hcreate, hopen, hwrite, hclose, hinsert⟩, rows, db', hrows,
      hwritten, rfl⟩
    have hcopy : copyRows faults.writeRow makeRow 0 features
        ⟨c.committed, delete c.working, some []⟩ =
          (.ok (), ⟨c.committed, delete c.working, some rows⟩) :=
      (copyRows_eq_ok_iff rfl).mpr ⟨rows, hrows, hwrite, rfl⟩
    exact ⟨(), c, ⟨hdelete, rfl⟩, (), _, ⟨delete c.working, rfl, rfl⟩, (), _,
      ⟨hcreate, rfl⟩, (), _, ⟨hstaging, rfl⟩, (), _, ⟨hopen, rfl⟩, (), _, hcopy, (),
      _, ⟨hclose, rfl⟩, (), _, ⟨hinsert, rfl⟩, db', hwritten, rfl⟩

end Staging

section Publish

variable {G J : Type} (sh : Shapely G J) (pg : PostGis G) (faults : Faults)

/-- `publish_snapshot_features`, on a connection. -/
def publishSnapshotFeaturesOn (snapshotId : Nat)
    (processedGeojson : ProcessedCollection J) :
    Session (Database G) (StagedSnapshotFeature G) PyError Nat :=
  commitAfter
    (loadViaStagingOn faults
      (fun db => { db with
        snapshotFeatures := db.snapshotFeatures.deleteWhere
          (fun row => row.snapshotId = snapshotId) })
      (snapshotFeatureRow sh) processedGeojson
      (insertSnapshotFeatures sh pg snapshotId))
    faults.commit

/-- `_require_published_snapshot`, on a connection. -/
def requirePublishedSnapshotOn {σ : Type} (fault : Option PyError)
    (snapshotId : Nat) : Session (Database G) σ PyError Unit := do
  check fault
  execute (fun db => do
    requirePublishedSnapshot db snapshotId
    pure ((), db))

/-- `publish_change_features`, on a connection. -/
def publishChangeFeaturesOn (changesetId snapshotAId snapshotBId : Nat)
    (changeLayerGeojson : ChangeLayer J) :
    Session (Database G) (StagedChangeFeature G) PyError Nat :=
  commitAfter
    (do
      let features ← ofExcept (changedFeatures changeLayerGeojson)
      requirePublishedSnapshotOn faults.selectA snapshotAId
      requirePublishedSnapshotOn faults.selectB snapshotBId
      loadViaStagingOn faults
        (fun db => { db with
          changeFeatures := db.changeFeatures.deleteWhere
            (fun row => row.changesetId = changesetId) })
        (changeFeatureRow sh) features
        (insertChangeFeatures sh pg changesetId snapshotAId snapshotBId))
    faults.commit

variable {sh pg faults}

/-- A call raises and leaves the committed tables alone, or it commits what the
function on databases returns. -/
theorem publishSnapshotFeaturesOn_cases (db : Database G) (snapshotId : Nat)
    (processed : ProcessedCollection J) :
    (∃ e, (publishSnapshotFeaturesOn sh pg faults snapshotId processed
        (.open db)).1 = .error e ∧
      (publishSnapshotFeaturesOn sh pg faults snapshotId processed
        (.open db)).2.committed = db) ∨
    ∃ written db', publishSnapshotFeatures sh pg db snapshotId processed =
        .ok (written, db') ∧
      publishSnapshotFeaturesOn sh pg faults snapshotId processed (.open db) =
        (.ok written, .open db') := by
  rcases commitAfter_cases keepsCommitted_loadViaStagingOn faults.commit
    (.open db) with hraise | ⟨written, c, hload, -, hcommit⟩
  · exact Or.inl hraise
  · obtain ⟨-, staged, db', hstaged, hinsert, rfl⟩ :=
      (loadViaStagingOn_eq_ok_iff rfl).mp hload
    refine Or.inr ⟨written, db', ?_, hcommit⟩
    exact bind_eq_ok.mpr ⟨staged, hstaged, hinsert⟩

/-- Without failures of the statements a call does what the function on databases
does. -/
theorem run_publishSnapshotFeatures {db db' : Database G} {snapshotId written : Nat}
    {processed : ProcessedCollection J}
    (h : publishSnapshotFeatures sh pg db snapshotId processed =
      .ok (written, db')) :
    publishSnapshotFeaturesOn sh pg Faults.none snapshotId processed (.open db) =
      (.ok written, .open db') := by
  obtain ⟨staged, hstaged, hinsert⟩ := bind_eq_ok.mp h
  refine bind_eq_ok_iff.mpr ⟨written, ⟨db, db', some staged⟩, ?_, rfl⟩
  exact (loadViaStagingOn_eq_ok_iff rfl).mpr
    ⟨⟨rfl, rfl, rfl, fun _ _ => rfl, rfl, rfl⟩, staged, db', hstaged, hinsert, rfl⟩

theorem requirePublishedSnapshotOn_eq_ok_iff {σ : Type} {fault : Option PyError}
    {snapshotId : Nat} {c c' : Connection (Database G) σ} {u : Unit} :
    requirePublishedSnapshotOn fault snapshotId c = (.ok u, c') ↔
      fault = none ∧ requirePublishedSnapshot c.working snapshotId = .ok u ∧
        c' = c := by
  unfold requirePublishedSnapshotOn
  simp only [bind_eq_ok_iff, check_eq_ok_iff, execute_eq_ok_iff]
  constructor
  · rintro ⟨_, _, ⟨hfault, rfl⟩, db, hdb, rfl⟩
    obtain ⟨_, hrequire, hpure⟩ := bind_eq_ok.mp hdb
    obtain ⟨-, rfl⟩ := Prod.mk.inj (pure_eq_ok.mp hpure)
    exact ⟨hfault, hrequire, rfl⟩
  · rintro ⟨hfault, hrequire, rfl⟩
    exact ⟨(), c', ⟨hfault, rfl⟩, c'.working,
      bind_eq_ok.mpr ⟨(), hrequire, rfl⟩, rfl⟩

theorem keepsCommitted_requirePublishedSnapshotOn {σ : Type}
    (fault : Option PyError) (snapshotId : Nat) :
    KeepsCommitted (requirePublishedSnapshotOn fault snapshotId :
      Session (Database G) σ PyError Unit) :=
  keepsCommitted_bind (keepsCommitted_check _) fun _ => keepsCommitted_execute _

/-- A call raises and leaves the committed tables alone, or it commits what the
function on databases returns. -/
theorem publishChangeFeaturesOn_cases (db : Database G)
    (changesetId snapshotAId snapshotBId : Nat) (layer : ChangeLayer J) :
    (∃ e, (publishChangeFeaturesOn sh pg faults changesetId snapshotAId snapshotBId
        layer (.open db)).1 = .error e ∧
      (publishChangeFeaturesOn sh pg faults changesetId snapshotAId snapshotBId
        layer (.open db)).2.committed = db) ∨
    ∃ written db', publishChangeFeatures sh pg db changesetId snapshotAId
        snapshotBId layer = .ok (written, db') ∧
      publishChangeFeaturesOn sh pg faults changesetId snapshotAId snapshotBId layer
        (.open db) = (.ok written, .open db') := by
  refine (commitAfter_cases ?_ faults.commit (.open db)).imp id ?_
  · exact keepsCommitted_bind (keepsCommitted_ofExcept _) fun _ =>
      keepsCommitted_bind (keepsCommitted_requirePublishedSnapshotOn _ _) fun _ =>
      keepsCommitted_bind (keepsCommitted_requirePublishedSnapshotOn _ _) fun _ =>
      keepsCommitted_loadViaStagingOn
  · rintro ⟨written, c, hload, -, hcommit⟩
    obtain ⟨features, _, hfeatures, hload⟩ := bind_eq_ok_iff.mp hload
    obtain ⟨hchanged, rfl⟩ := ofExcept_eq_ok_iff.mp hfeatures
    obtain ⟨_, _, hselectA, hload⟩ := bind_eq_ok_iff.mp hload
    obtain ⟨-, hA, rfl⟩ := requirePublishedSnapshotOn_eq_ok_iff.mp hselectA
    obtain ⟨_, _, hselectB, hload⟩ := bind_eq_ok_iff.mp hload
    obtain ⟨-, hB, rfl⟩ := requirePublishedSnapshotOn_eq_ok_iff.mp hselectB
    obtain ⟨-, staged, db', hstaged, hinsert, rfl⟩ :=
      (loadViaStagingOn_eq_ok_iff rfl).mp hload
    refine ⟨written, db', ?_, hcommit⟩
    exact bind_eq_ok.mpr ⟨features, hchanged, bind_eq_ok.mpr ⟨(), hA,
      bind_eq_ok.mpr ⟨(), hB, bind_eq_ok.mpr ⟨staged, hstaged, hinsert⟩⟩⟩⟩

/-- Without failures of the statements a call does what the function on databases
does. -/
theorem run_publishChangeFeatures {db db' : Database G}
    {changesetId snapshotAId snapshotBId written : Nat} {layer : ChangeLayer J}
    (h : publishChangeFeatures sh pg db changesetId snapshotAId snapshotBId layer =
      .ok (written, db')) :
    publishChangeFeaturesOn sh pg Faults.none changesetId snapshotAId snapshotBId
      layer (.open db) = (.ok written, .open db') := by
  obtain ⟨features, hfeatures, h⟩ := bind_eq_ok.mp h
  obtain ⟨_, hA, h⟩ := bind_eq_ok.mp h
  obtain ⟨_, hB, h⟩ := bind_eq_ok.mp h
  obtain ⟨staged, hstaged, hinsert⟩ := bind_eq_ok.mp h
  refine bind_eq_ok_iff.mpr ⟨written, ⟨db, db', some staged⟩, ?_, rfl⟩
  refine bind_eq_ok_iff.mpr ⟨features, .open db,
    ofExcept_eq_ok_iff.mpr ⟨hfeatures, rfl⟩, ?_⟩
  refine bind_eq_ok_iff.mpr ⟨(), .open db,
    requirePublishedSnapshotOn_eq_ok_iff.mpr ⟨rfl, hA, rfl⟩, ?_⟩
  refine bind_eq_ok_iff.mpr ⟨(), .open db,
    requirePublishedSnapshotOn_eq_ok_iff.mpr ⟨rfl, hB, rfl⟩, ?_⟩
  exact (loadViaStagingOn_eq_ok_iff rfl).mpr
    ⟨⟨rfl, rfl, rfl, fun _ _ => rfl, rfl, rfl⟩, staged, db', hstaged, hinsert, rfl⟩

end Publish

section Atomicity

variable {G σ ρ φ : Type}

/-- The rows that a call replaces, among those of its table, and what else is to
stay. -/
structure Scope (G ρ : Type) where
  rows : Database G → List (Nat × ρ)
  inScope : ρ → Bool
  SameTables : Database G → Database G → Prop

namespace Scope

variable (scope : Scope G ρ)

/-- The rows in scope, without their ids. -/
def replaced (db : Database G) : List ρ :=
  ((scope.rows db).filter (fun row => scope.inScope row.2)).map Prod.snd

/-- The other rows of the table. -/
def others (db : Database G) : List (Nat × ρ) :=
  (scope.rows db).filter (fun row => !scope.inScope row.2)

/-- The rows in scope are those built from the features, and nothing else has
changed. -/
structure Replaces (build : φ → ρ → Prop) (features : List φ)
    (db db' : Database G) (written : Nat) : Prop where
  built : List.Forall₂ build features (scope.replaced db')
  written_eq : written = features.length
  others_eq : scope.others db' = scope.others db
  sameTables : scope.SameTables db db'

/-- Nothing has changed but the ids of the rows in scope. -/
structure SameButIds (db db' : Database G) : Prop where
  replaced_eq : scope.replaced db' = scope.replaced db
  others_eq : scope.others db' = scope.others db
  sameTables : scope.SameTables db db'

/-- However its statements fail, a call raises and leaves the committed tables
alone, or commits the replacement of the rows in scope, and then repeating it
succeeds if no statement fails, and changes nothing but ids in any case. -/
def Atomic (call : Faults → Session (Database G) σ PyError Nat)
    (build : Database G → φ → ρ → Prop) (features : List φ) : Prop :=
  ∀ db faults,
    (∃ e, (call faults (.open db)).1 = .error e ∧
      (call faults (.open db)).2.committed = db) ∨
    ∃ written db', call faults (.open db) = (.ok written, .open db') ∧
      scope.Replaces (build db) features db db' written ∧
      (∃ db'', call Faults.none (.open db') = (.ok written, .open db'')) ∧
      ∀ again, scope.SameButIds db' (call again (.open db')).2.committed

/-- A call is atomic when it commits what a function on databases returns, and
that function replaces the rows in scope by rows that depend on other tables
only. -/
theorem atomic_of {call : Faults → Session (Database G) σ PyError Nat}
    {build : Database G → φ → ρ → Prop} {features : List φ}
    {publish : Database G → Except PyError (Nat × Database G)}
    (hcases : ∀ faults db,
      (∃ e, (call faults (.open db)).1 = .error e ∧
        (call faults (.open db)).2.committed = db) ∨
      ∃ written db', publish db = .ok (written, db') ∧
        call faults (.open db) = (.ok written, .open db'))
    (hrun : ∀ db written db', publish db = .ok (written, db') →
      call Faults.none (.open db) = (.ok written, .open db'))
    (hreplaces : ∀ db written db', publish db = .ok (written, db') →
      scope.Replaces (build db) features db db' written)
    (hrepeat : ∀ db written db', publish db = .ok (written, db') →
      ∃ db'', publish db' = .ok (written, db''))
    (hsame : ∀ db, scope.SameTables db db)
    (hbuild : ∀ db db' feature, scope.SameTables db db' →
      ∀ row row', build db feature row → build db' feature row' → row = row') :
    scope.Atomic call build features := by
  intro db faults
  rcases hcases faults db with hraise | ⟨written, db', hpublish, hcall⟩
  · exact Or.inl hraise
  · have hreplaced := hreplaces db written db' hpublish
    obtain ⟨db'', hagain⟩ := hrepeat db written db' hpublish
    refine Or.inr ⟨written, db', hcall, hreplaced, ⟨db'', hrun _ _ _ hagain⟩, ?_⟩
    intro again
    rcases hcases again db' with ⟨-, -, hcommitted⟩ | ⟨written', db₂, hpublish', hcall'⟩
    · rw [hcommitted]
      exact ⟨rfl, rfl, hsame db'⟩
    · rw [hcall']
      have hreplaced' := hreplaces db' written' db₂ hpublish'
      refine ⟨?_, hreplaced'.others_eq, hreplaced'.sameTables⟩
      have hunique : ∀ {features : List φ} {rows rows' : List ρ},
          List.Forall₂ (build db) features rows →
          List.Forall₂ (build db') features rows' → rows' = rows := by
        intro features rows rows' hrows
        induction hrows generalizing rows' with
        | nil =>
            intro hrows'
            cases hrows'
            rfl
        | cons hrow _ ih =>
            intro hrows'
            cases hrows' with
            | cons hrow' hrest' =>
                rw [ih hrest', hbuild db db' _ hreplaced.sameTables _ _ hrow hrow']
      exact hunique hreplaced.built hreplaced'.built

end Scope
end Atomicity

section Main

variable {G J : Type}

/-- The rows of a snapshot. -/
def snapshotScope (snapshotId : Nat) : Scope G (SnapshotFeatureRow G) where
  rows db := db.snapshotFeatures.rows
  inScope row := row.snapshotId = snapshotId
  SameTables db db' := db'.snapshots = db.snapshots ∧
    db'.changesets = db.changesets ∧ db'.changeFeatures = db.changeFeatures

/-- The rows of a changeset. -/
def changesetScope (changesetId : Nat) : Scope G (ChangeFeatureRow G) where
  rows db := db.changeFeatures.rows
  inScope row := row.changesetId = changesetId
  SameTables db db' := db'.snapshots = db.snapshots ∧
    db'.changesets = db.changesets ∧ db'.snapshotFeatures = db.snapshotFeatures

variable (sh : Shapely G J) (pg : PostGis G)

/-- The row that publishing a snapshot makes of a feature. -/
def IsSnapshotFeatureRow (snapshotId : Nat) (feature : ProcessedFeature J)
    (row : SnapshotFeatureRow G) : Prop :=
  ∃ staged, snapshotFeatureRow sh feature = .ok staged ∧
    selectSnapshotFeature sh pg snapshotId staged = .ok row

/-- The row that publishing a changeset makes of a feature, over the published
snapshots. -/
def IsChangeFeatureRow (changesetId snapshotAId snapshotBId : Nat) (db : Database G)
    (feature : ChangeFeature J) (row : ChangeFeatureRow G) : Prop :=
  ∃ staged, changeFeatureRow sh feature = .ok staged ∧
    selectChangeFeature sh pg db changesetId snapshotAId snapshotBId staged = .ok row

variable {sh pg}

/-- The values of a filter on rows that looks at the values only. -/
theorem map_snd_filter {ρ : Type} (rows : List (Nat × ρ)) (p : ρ → Bool) :
    (rows.filter (fun row => p row.2)).map Prod.snd =
      (rows.map Prod.snd).filter p := by
  rw [List.filter_map]
  rfl

theorem replaces_publishSnapshotFeatures {db db' : Database G}
    {snapshotId written : Nat} {processed : ProcessedCollection J}
    (h : publishSnapshotFeatures sh pg db snapshotId processed =
      .ok (written, db')) :
    (snapshotScope snapshotId).Replaces (IsSnapshotFeatureRow sh pg snapshotId)
      processed db db' written := by
  obtain ⟨staged, rows, table, hstaged, hrows, -, htable, rfl, rfl⟩ :=
    publishSnapshotFeatures_eq_ok_iff.mp h
  have hbuilt : List.Forall₂ (IsSnapshotFeatureRow sh pg snapshotId) processed rows :=
    forall₂_of_mapM_eq_ok hstaged hrows
  have hown : ∀ row ∈ rows, decide (row.snapshotId = snapshotId) = true := by
    intro row hrow
    obtain ⟨s, -, hs⟩ := (mem_iff_of_mapM_eq_ok hrows).mp hrow
    exact decide_eq_true (selectSnapshotFeature_key hs).1
  have hvalues : (snapshotScope snapshotId).replaced
      { db with snapshotFeatures := table } = rows := by
    have htableValues := KeyedTable.values_insertAll htable
    rw [KeyedTable.deleteWhere, SerialTable.values_deleteWhere] at htableValues
    rw [Scope.replaced, snapshotScope, map_snd_filter]
    exact (congrArg _ htableValues).trans (filter_replace hown)
  refine ⟨?_, hbuilt.length_eq.symm, ?_, rfl, rfl, rfl⟩
  · rw [hvalues]
    exact hbuilt
  · rw [Scope.others, snapshotScope]
    show table.rows.filter _ = _
    rw [KeyedTable.toSerialTable_insertAll htable]
    exact db.snapshotFeatures.filter_rows_replace hown

/-- What could be published once can be published again. -/
theorem publishSnapshotFeatures_again {db db' : Database G}
    {snapshotId written : Nat} {processed : ProcessedCollection J}
    (h : publishSnapshotFeatures sh pg db snapshotId processed =
      .ok (written, db')) :
    ∃ db'', publishSnapshotFeatures sh pg db' snapshotId processed =
      .ok (written, db'') := by
  obtain ⟨staged, rows, table, hstaged, hrows, hid, htable, rfl, rfl⟩ :=
    publishSnapshotFeatures_eq_ok_iff.mp h
  have hkeys := (KeyedTable.exists_insertAll_iff.mp ⟨table, htable⟩).1
  have hnew : ∀ row ∈ rows, (table.deleteWhere
      (fun row => row.snapshotId = snapshotId)).get? row.naturalKey = none := by
    intro row hrow
    obtain ⟨s, -, hs⟩ := (mem_iff_of_mapM_eq_ok hrows).mp hrow
    rw [KeyedTable.get?_eq_none_iff_values, KeyedTable.deleteWhere,
      SerialTable.values_deleteWhere]
    intro value hvalue hkey
    have hout : value.snapshotId ≠ snapshotId := by
      simpa using (List.mem_filter.mp hvalue).2
    exact hout ((Prod.mk.inj hkey).1.trans (selectSnapshotFeature_key hs).1)
  obtain ⟨table', htable'⟩ := KeyedTable.exists_insertAll_iff.mpr ⟨hkeys, hnew⟩
  exact ⟨_, publishSnapshotFeatures_eq_ok_iff.mpr
    ⟨staged, rows, table', hstaged, hrows, hid, htable', rfl, rfl⟩⟩

/-- Change rows depend on the published snapshots only. -/
theorem selectChangeFeature_congr {db db' : Database G}
    (h : db'.snapshotFeatures = db.snapshotFeatures)
    (changesetId snapshotAId snapshotBId : Nat) :
    selectChangeFeature sh pg db' changesetId snapshotAId snapshotBId =
      selectChangeFeature sh pg db changesetId snapshotAId snapshotBId := by
  have hunion : ∀ column snapshotId osmIds,
      unionOfFeatures sh pg db' column snapshotId osmIds =
        unionOfFeatures sh pg db column snapshotId osmIds := by
    intro column snapshotId osmIds
    unfold unionOfFeatures
    rw [h]
  funext staged
  unfold selectChangeFeature
  simp only [hunion]

theorem changesetRows_congr {db db' : Database G}
    (h : db'.snapshotFeatures = db.snapshotFeatures)
    (changesetId snapshotAId snapshotBId : Nat) (layer : ChangeLayer J) :
    changesetRows sh pg db' changesetId snapshotAId snapshotBId layer =
      changesetRows sh pg db changesetId snapshotAId snapshotBId layer := by
  have hrequire : ∀ snapshotId,
      requirePublishedSnapshot db' snapshotId =
        requirePublishedSnapshot db snapshotId := by
    intro snapshotId
    unfold requirePublishedSnapshot
    rw [h]
  unfold changesetRows
  simp only [hrequire, selectChangeFeature_congr h]

theorem replaces_publishChangeFeatures {db db' : Database G}
    {changesetId snapshotAId snapshotBId written : Nat} {layer : ChangeLayer J}
    (h : publishChangeFeatures sh pg db changesetId snapshotAId snapshotBId layer =
      .ok (written, db')) :
    (changesetScope changesetId).Replaces
      (IsChangeFeatureRow sh pg changesetId snapshotAId snapshotBId db)
      (layer.filter (fun f => f.view.1 ≠ some "unchanged")) db db' written := by
  obtain ⟨rows, hrows, -, rfl, rfl⟩ := publishChangeFeatures_eq_ok_iff.mp h
  have hown : ∀ row ∈ rows, decide (row.changesetId = changesetId) = true :=
    fun row hrow => decide_eq_true ((changesetRows_view hrows).1 row hrow)
  obtain ⟨features, hfeatures, hrows⟩ := bind_eq_ok.mp hrows
  obtain ⟨-, -, hrows⟩ := bind_eq_ok.mp hrows
  obtain ⟨-, -, hrows⟩ := bind_eq_ok.mp hrows
  obtain ⟨staged, hstaged, hrows⟩ := bind_eq_ok.mp hrows
  rw [← changedFeatures_eq_ok hfeatures]
  have hbuilt : List.Forall₂
      (IsChangeFeatureRow sh pg changesetId snapshotAId snapshotBId db) features
      rows :=
    forall₂_of_mapM_eq_ok hstaged hrows
  have hvalues : (changesetScope changesetId).replaced
      { db with changeFeatures := (db.changeFeatures.deleteWhere
        (fun row => row.changesetId = changesetId)).insertAll rows } = rows := by
    rw [Scope.replaced, changesetScope, map_snd_filter]
    refine (congrArg _ (SerialTable.values_insertAll _ _)).trans ?_
    rw [SerialTable.values_deleteWhere]
    exact filter_replace hown
  refine ⟨?_, hbuilt.length_eq.symm, ?_, rfl, rfl, rfl⟩
  · rw [hvalues]
    exact hbuilt
  · exact db.changeFeatures.filter_rows_replace hown

/-- What could be published once can be published again. -/
theorem publishChangeFeatures_again {db db' : Database G}
    {changesetId snapshotAId snapshotBId written : Nat} {layer : ChangeLayer J}
    (h : publishChangeFeatures sh pg db changesetId snapshotAId snapshotBId layer =
      .ok (written, db')) :
    ∃ db'', publishChangeFeatures sh pg db' changesetId snapshotAId snapshotBId
      layer = .ok (written, db'') := by
  obtain ⟨rows, hrows, hid, rfl, rfl⟩ := publishChangeFeatures_eq_ok_iff.mp h
  refine ⟨_, publishChangeFeatures_eq_ok_iff.mpr ⟨rows, ?_, hid, rfl, rfl⟩⟩
  exact (changesetRows_congr rfl _ _ _ _).trans hrows

/-- Publishing is an atomic replacement of the rows of one snapshot or
changeset. -/
theorem publish_atomic (sh : Shapely G J) (pg : PostGis G) :
    (∀ (snapshotId : Nat) (processed : ProcessedCollection J),
      (snapshotScope snapshotId).Atomic
        (fun faults => publishSnapshotFeaturesOn sh pg faults snapshotId processed)
        (fun _ => IsSnapshotFeatureRow sh pg snapshotId) processed) ∧
    ∀ (changesetId snapshotAId snapshotBId : Nat) (layer : ChangeLayer J),
      (changesetScope changesetId).Atomic
        (fun faults => publishChangeFeaturesOn sh pg faults changesetId snapshotAId
          snapshotBId layer)
        (IsChangeFeatureRow sh pg changesetId snapshotAId snapshotBId)
        (layer.filter (fun f => f.view.1 ≠ some "unchanged")) := by
  constructor
  · intro snapshotId processed
    refine Scope.atomic_of _
      (fun faults db => publishSnapshotFeaturesOn_cases db snapshotId processed)
      (fun _ _ _ => run_publishSnapshotFeatures)
      (fun _ _ _ => replaces_publishSnapshotFeatures)
      (fun _ _ _ => publishSnapshotFeatures_again)
      (fun _ => ⟨rfl, rfl, rfl⟩) ?_
    rintro db db' feature - row row' ⟨staged, hstaged, hrow⟩ ⟨staged', hstaged', hrow'⟩
    obtain rfl := Except.ok.inj (hstaged.symm.trans hstaged')
    exact Except.ok.inj (hrow.symm.trans hrow')
  · intro changesetId snapshotAId snapshotBId layer
    refine Scope.atomic_of _
      (fun faults db =>
        publishChangeFeaturesOn_cases db changesetId snapshotAId snapshotBId layer)
      (fun _ _ _ => run_publishChangeFeatures)
      (fun _ _ _ => replaces_publishChangeFeatures)
      (fun _ _ _ => publishChangeFeatures_again)
      (fun _ => ⟨rfl, rfl, rfl⟩) ?_
    rintro db db' feature ⟨-, -, hsame⟩ row row' ⟨staged, hstaged, hrow⟩
      ⟨staged', hstaged', hrow'⟩
    obtain rfl := Except.ok.inj (hstaged.symm.trans hstaged')
    rw [selectChangeFeature_congr hsame] at hrow'
    exact Except.ok.inj (hrow.symm.trans hrow')

end Main

end VectorMapChanges
