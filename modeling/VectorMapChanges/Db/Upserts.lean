import VectorMapChanges.Db.Metadata
import VectorMapChanges.Lib.InsertOnce
import VectorMapChanges.Raster

/-!
# Overlapping upserts

Calls of `upsert_snapshot` and `upsert_changeset`, overlapping and repeated in
any way, over one database.  Each is a transaction that inserts its row, reads
the stored row back when the natural key was taken, and commits.  A changeset is
only inserted when both of its snapshots are committed rows.

Main facts:
* `run_alone`: a call that runs alone does what `upsertReturning` does;
* `upserts_firstWriterWins`: the first writer of a natural key wins, and every
  call and every later lookup report its row.
-/

namespace VectorMapChanges

open Lib InsertOnce

section RunAlone

variable {τ ρ κ θ : Type} [DecidableEq τ] [DecidableEq κ] {key : ρ → κ}
  {params : τ → ρ} {old : List (Nat × Stamped ρ θ)} {s : State τ ρ θ}

omit [DecidableEq τ] in
/-- A lookup of the calls is one of the table. -/
theorem lookup_eq_get? (ids : Ids s) (keys : Keys key params s) (k : κ) :
    (s.lookup key k).map Prod.fst =
      ((s.toTable ids keys).get? k).map Prod.fst := by
  have hstored : (s.toTable ids keys).get? k =
      (s.rows.find? (fun row => key row.2.params = k)).map
        (fun row => (row.1, row.2.params)) :=
    List.find?_map
  rw [State.lookup, hstored, Option.map_map, Option.map_map]
  rfl

omit [DecidableEq τ] in
theorem get?_toTable_eq_none_iff (ids : Ids s) (keys : Keys key params s) {k : κ} :
    (s.toTable ids keys).get? k = none ↔ ¬ s.Taken key k := by
  rw [KeyedTable.get?_eq_none_iff]
  constructor
  · rintro h ⟨row, hrow, hkey⟩
    exact h _ (List.mem_map_of_mem hrow) hkey
  · intro h row hrow hkey
    obtain ⟨stored, hstored, rfl⟩ := List.mem_map.mp hrow
    exact h ⟨stored, hstored, hkey⟩

omit [DecidableEq κ] in
theorem phase_enter_self (s : State τ ρ θ) (t : τ) (phase : Phase θ) :
    (s.enter t phase).phase t = phase :=
  Function.update_self _ _ _

/-- A call that nothing holds up does what `upsertReturning` does. -/
theorem run_alone {accepts : ρ → Prop} (hsound : Sound key params old s) {t : τ}
    (hidle : s.phase t = .idle) (hfree : ¬ s.Waits key params t)
    (haccepts : accepts (params t)) (time : θ) :
    ∃ s' row created, Reachable key params accepts s s' ∧
      (s'.phase t).result = some (row, created) ∧
      (row.map Prod.fst, created) =
        (upsertReturning (s.toTable hsound.ids hsound.keys) (params t)).1 ∧
      s'.stored =
        (upsertReturning (s.toTable hsound.ids hsound.keys) (params t)).2.rows ∧
      s'.nextId =
        (upsertReturning (s.toTable hsound.ids hsound.keys) (params t)).2.nextId := by
  have hbegin : InsertOnce.Step key params accepts s (s.begin t time) :=
    .begin t time hidle
  have hphase : (s.begin t time).phase t = .inserting s.nextId time :=
    phase_enter_self s t _
  by_cases htaken : s.Taken key (key (params t))
  · have hsome : (s.toTable hsound.ids hsound.keys).get? (key (params t)) ≠ none :=
      fun h => (get?_toTable_eq_none_iff hsound.ids hsound.keys).mp h htaken
    have hconflict : InsertOnce.Step key params accepts (s.begin t time)
        ((s.begin t time).enter t .conflicted) :=
      .conflict t s.nextId time hphase htaken
    have hread : InsertOnce.Step key params accepts
        ((s.begin t time).enter t .conflicted)
        (((s.begin t time).enter t .conflicted).enter t
          (.readBack (s.lookup key (key (params t))))) :=
      .readBack t (phase_enter_self _ t _)
    have hcommit : InsertOnce.Step key params accepts
        (((s.begin t time).enter t .conflicted).enter t
          (.readBack (s.lookup key (key (params t)))))
        ((((s.begin t time).enter t .conflicted).enter t
          (.readBack (s.lookup key (key (params t))))).commit t []
          (s.lookup key (key (params t))) false) :=
      .commitFound t _ (phase_enter_self _ t _)
    refine ⟨_, _, _, (((Relation.ReflTransGen.single hbegin).tail hconflict).tail
      hread).tail hcommit, congrArg Phase.result (phase_enter_self _ t _), ?_, ?_, ?_⟩
    · rw [upsertReturning_of_ne_none hsome, lookup_eq_get? hsound.ids hsound.keys]
    · rw [upsertReturning_of_ne_none hsome]
      exact congrArg (List.map _) (List.append_nil _)
    · rw [upsertReturning_of_ne_none hsome]
      rfl
  · have hnone : (s.toTable hsound.ids hsound.keys).get? (key (params t)) = none :=
      (get?_toTable_eq_none_iff hsound.ids hsound.keys).mpr htaken
    have hwaits : ¬ (s.begin t time).Waits key params t := by
      rintro ⟨other, hne, hpending, hkey⟩
      have hother : (s.begin t time).phase other = s.phase other :=
        Function.update_of_ne hne _ _
      rw [hother] at hpending
      exact hfree ⟨other, hne, hpending, hkey⟩
    have hinsert : InsertOnce.Step key params accepts (s.begin t time)
        ((s.begin t time).enter t (.inserted s.nextId time)) :=
      .insert t s.nextId time hphase hwaits htaken haccepts
    have hcommit : InsertOnce.Step key params accepts
        ((s.begin t time).enter t (.inserted s.nextId time))
        (((s.begin t time).enter t (.inserted s.nextId time)).commit t
          [(s.nextId, ⟨params t, time⟩)] (some (s.nextId, time)) true) :=
      .commitInserted t s.nextId time (phase_enter_self _ t _)
    refine ⟨_, _, _, ((Relation.ReflTransGen.single hbegin).tail hinsert).tail hcommit,
      congrArg Phase.result (phase_enter_self _ t _), ?_, ?_, ?_⟩
    · rw [upsertReturning_of_none hnone]
      rfl
    · rw [upsertReturning_of_none hnone]
      exact List.map_append
    · rw [upsertReturning_of_none hnone]
      rfl

end RunAlone

/-- Calls of the two upserts, with what they are given. -/
structure UpsertCalls (τ σ : Type) where
  upsertSnapshot : τ → SnapshotRow
  upsertChangeset : σ → ChangesetRow

/-- The two metadata tables, and the calls that work on them. -/
structure Metadata (τ σ θ : Type) where
  snapshots : State τ SnapshotRow θ
  changesets : State σ ChangesetRow θ

namespace Metadata

variable {τ σ θ : Type} [DecidableEq τ] [DecidableEq σ] (calls : UpsertCalls τ σ)

/-- The foreign keys of a changeset. -/
def HasSnapshots (m : Metadata τ σ θ) (row : ChangesetRow) : Prop :=
  row.snapshotAId ∈ m.snapshots.rows.map Prod.fst ∧
    row.snapshotBId ∈ m.snapshots.rows.map Prod.fst

/-- One step of one call. -/
inductive Step (m : Metadata τ σ θ) : Metadata τ σ θ → Prop
  | upsertSnapshot (snapshots : State τ SnapshotRow θ) :
      InsertOnce.Step SnapshotRow.naturalKey calls.upsertSnapshot (fun _ => True)
        m.snapshots snapshots →
      Step m { m with snapshots := snapshots }
  | upsertChangeset (changesets : State σ ChangesetRow θ) :
      InsertOnce.Step ChangesetRow.naturalKey calls.upsertChangeset m.HasSnapshots
        m.changesets changesets →
      Step m { m with changesets := changesets }

/-- A state that steps of the calls lead to. -/
def Reachable : Metadata τ σ θ → Metadata τ σ θ → Prop :=
  Relation.ReflTransGen (Step calls)

/-- The tables before all calls. -/
def start
    (snapshots : KeyedTable
      (fun row : Stamped SnapshotRow θ => row.params.naturalKey))
    (changesets : KeyedTable
      (fun row : Stamped ChangesetRow θ => row.params.naturalKey)) :
    Metadata τ σ θ where
  snapshots := State.start snapshots
  changesets := State.start changesets

/-- A database has the committed rows of the two tables. -/
def Committed {G : Type} (m : Metadata τ σ θ) (db : Database G) : Prop :=
  db.snapshots.rows = m.snapshots.stored ∧
    db.changesets.rows = m.changesets.stored

variable {calls} {m m' : Metadata τ σ θ}

/-- Each table sees the steps of its own calls only. -/
theorem reachable_tables (h : Reachable calls m m') :
    InsertOnce.Reachable SnapshotRow.naturalKey calls.upsertSnapshot
        (fun _ => True) m.snapshots m'.snapshots ∧
      InsertOnce.Reachable ChangesetRow.naturalKey calls.upsertChangeset
        (fun _ => True) m.changesets m'.changesets := by
  induction h with
  | refl => exact ⟨.refl, .refl⟩
  | tail _ hstep ih =>
      cases hstep with
      | upsertSnapshot snapshots h => exact ⟨ih.1.tail h, ih.2⟩
      | upsertChangeset changesets h =>
          exact ⟨ih.1, ih.2.tail (h.mono (fun _ _ => trivial))⟩

/-- The invariants of both tables. -/
theorem sound_reachable
    {snapshots : KeyedTable
      (fun row : Stamped SnapshotRow θ => row.params.naturalKey)}
    {changesets : KeyedTable
      (fun row : Stamped ChangesetRow θ => row.params.naturalKey)}
    (h : Reachable calls (start snapshots changesets) m) :
    Sound SnapshotRow.naturalKey calls.upsertSnapshot snapshots.rows m.snapshots ∧
      Sound ChangesetRow.naturalKey calls.upsertChangeset changesets.rows
        m.changesets := by
  obtain ⟨hsnapshots, hchangesets⟩ := reachable_tables h
  exact ⟨InsertOnce.sound_reachable (sound_start snapshots) hsnapshots,
    InsertOnce.sound_reachable (sound_start changesets) hchangesets⟩

omit [DecidableEq τ] in
/-- A lookup of a table finds the row with the natural key. -/
theorem get?_of_mem_stored {ρ κ : Type} [DecidableEq κ] {key : ρ → κ}
    {table : KeyedTable key} {s : State τ ρ θ} (h : table.rows = s.stored)
    {row : Nat × Stamped ρ θ} (hrow : row ∈ s.rows) :
    table.get? (key row.2.params) = some (row.1, row.2.params) := by
  refine KeyedTable.get?_eq_some_iff.mpr ⟨?_, rfl⟩
  rw [h]
  exact List.mem_map_of_mem hrow

/-- The first writer of a natural key wins in both tables, and every lookup that
comes after a call finds the row that the call returned. -/
theorem upserts_firstWriterWins {G : Type}
    {snapshots : KeyedTable
      (fun row : Stamped SnapshotRow θ => row.params.naturalKey)}
    {changesets : KeyedTable
      (fun row : Stamped ChangesetRow θ => row.params.naturalKey)}
    (hrun : Reachable calls (start snapshots changesets) m)
    (hlater : Reachable calls m m') :
    FirstWriterWins SnapshotRow.naturalKey calls.upsertSnapshot snapshots.rows
        m.snapshots m'.snapshots ∧
    FirstWriterWins ChangesetRow.naturalKey calls.upsertChangeset changesets.rows
        m.changesets m'.changesets ∧
    (∃ db : Database G, m'.Committed db) ∧
    ∀ db : Database G, m'.Committed db →
      (∀ t ∈ m.snapshots.log, ∃ id time created uri,
        (m.snapshots.phase t).result = some (some (id, time), created) ∧
        getSnapshot db (calls.upsertSnapshot t).naturalKey = some ⟨id, uri⟩) ∧
      ∀ t ∈ m.changesets.log, ∃ id time created uri,
        (m.changesets.phase t).result = some (some (id, time), created) ∧
        getChangeset db (calls.upsertChangeset t).naturalKey = some ⟨id, uri⟩ := by
  obtain ⟨hsnapshots, hchangesets⟩ := sound_reachable hrun
  obtain ⟨hsnapshots', hchangesets'⟩ := sound_reachable (hrun.trans hlater)
  obtain ⟨hlaterSnapshots, hlaterChangesets⟩ := reachable_tables hlater
  have hwinsS := firstWriterWins hsnapshots hlaterSnapshots
  have hwinsC := firstWriterWins hchangesets hlaterChangesets
  refine ⟨hwinsS, hwinsC, ⟨
    { snapshots := m'.snapshots.toTable hsnapshots'.ids hsnapshots'.keys
      changesets := m'.changesets.toTable hchangesets'.ids hchangesets'.keys
      snapshotFeatures := .empty
      changeFeatures := .empty }, rfl, rfl⟩, ?_⟩
  · rintro db ⟨hdbS, hdbC⟩
    constructor
    · intro t ht
      obtain ⟨row, hrow, hkey, created, hresult⟩ := hwinsS.reported t ht
      refine ⟨row.1, row.2.time, created, row.2.params.processedObjectUri, hresult, ?_⟩
      rw [getSnapshot, ← hkey, get?_of_mem_stored hdbS hrow]
      rfl
    · intro t ht
      obtain ⟨row, hrow, hkey, created, hresult⟩ := hwinsC.reported t ht
      refine ⟨row.1, row.2.time, created, row.2.params.changeLayerObjectUri, hresult, ?_⟩
      rw [getChangeset, ← hkey, get?_of_mem_stored hdbC hrow]
      rfl

end Metadata

namespace Metadata

/-- Two calls for one snapshot, which found different numbers of features. -/
def twoWriters : UpsertCalls Bool Empty where
  upsertSnapshot second :=
    { Raster.snapshotRow ⟨2026, 7, 1, 0, 0, 0⟩ with
      featureCount := if second then 2 else 1 }
  upsertChangeset := nofun

/-- Empty tables. -/
def noRows : Metadata Bool Empty Nat :=
  start .empty .empty

/-- The second writer begins while the row of the first one is not committed. -/
def bothBegun : State Bool SnapshotRow Nat :=
  ((noRows.snapshots.begin false 10).enter false (.inserted 1 10)).begin true 11

/-- The first writer has committed, and the second one has read its row back. -/
def bothReturned : State Bool SnapshotRow Nat :=
  let first := bothBegun.commit false [(1, ⟨twoWriters.upsertSnapshot false, 10⟩)]
    (some (1, 10)) true
  ((first.enter true .conflicted).enter true (.readBack (some (1, 10)))).commit true
    [] (some (1, 10)) false

theorem reachable_bothReturned :
    Reachable twoWriters noRows ⟨bothReturned, noRows.changesets⟩ := by
  have hwaits : ¬ (noRows.snapshots.begin false 10).Waits SnapshotRow.naturalKey
      twoWriters.upsertSnapshot false := by
    rintro ⟨other, hne, hpending, -⟩
    cases other with
    | false => exact hne rfl
    | true => exact hpending rfl
  have hfree : ¬ (noRows.snapshots.begin false 10).Taken SnapshotRow.naturalKey
      (twoWriters.upsertSnapshot false).naturalKey := by
    rintro ⟨row, hrow, -⟩
    cases hrow
  refine Relation.ReflTransGen.trans (.single (.upsertSnapshot _
    (.begin false 10 rfl))) ?_
  refine Relation.ReflTransGen.trans (.single (.upsertSnapshot _
    (.insert false 1 10 rfl hwaits hfree trivial))) ?_
  refine Relation.ReflTransGen.trans (.single (.upsertSnapshot _
    (.begin true 11 rfl))) ?_
  refine Relation.ReflTransGen.trans (.single (.upsertSnapshot _
    (.commitInserted false 1 10 rfl))) ?_
  refine Relation.ReflTransGen.trans (.single (.upsertSnapshot _
    (.conflict true 2 11 rfl ⟨_, List.mem_cons_self, rfl⟩))) ?_
  refine Relation.ReflTransGen.trans (.single (.upsertSnapshot _
    (.readBack true rfl))) ?_
  exact .single (.upsertSnapshot _ (.commitFound true _ rfl))

/-- The second writer returns the row of the first one. -/
theorem upserts_firstWriterWins_bothReturned :
    bothReturned.log = [false, true] ∧
    (bothReturned.phase true).result = some (some (1, 10), false) ∧
    FirstWriterWins SnapshotRow.naturalKey twoWriters.upsertSnapshot [] bothReturned
      bothReturned :=
  ⟨rfl, rfl,
    (upserts_firstWriterWins (G := Raster) reachable_bothReturned .refl).1⟩

end Metadata

end VectorMapChanges
