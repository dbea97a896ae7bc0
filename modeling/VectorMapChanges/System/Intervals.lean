import VectorMapChanges.System.Runs
import VectorMapChanges.Web.IntervalTicks

/-!
# The intervals of the system in time

An ingestion reads its instant from a text, so that all snapshots are of instants of
the calendar.  The API lists the intervals between them, and the client draws these on
its track.

Main facts:
* `timely_reached`: the instants of all snapshots;
* `timeline_chronological`: the track in every state that the system reaches.
-/

namespace VectorMapChanges

open Lib Api Web

section Timely

variable {G J : Type}

/-- All snapshots are of instants of the calendar. -/
def Timely (db : Database G) : Prop :=
  ∀ row ∈ db.snapshots.rows, row.2.requestedTime.Valid

variable {sh : Shapely G J} {pg : PostGis G} {aoi : Aoi J} {bucket : Bucket}
  {hit : G → G → Bool} {w : World G J}

/-- The step lemma: only an ingestion adds a snapshot. -/
theorem Timely.after (h : Timely w.database) (task : TaskRun J hit) :
    Timely (w.after sh pg aoi bucket task).database := by
  cases task with
  | ingest run =>
      change Timely (ingest sh aoi bucket w run).database
      by_cases huploads : ∃ result, run.Uploads sh aoi result
      · obtain ⟨result, huploads⟩ := huploads
        intro row hrow
        rcases (mem_snapshots_ingest huploads).mp hrow with hrow | ⟨-, -, rfl⟩
        · exact h row hrow
        · exact valid_of_parseInstant (result_fields huploads.1).2.2.1
      · rw [ingest_of_not_uploads (not_exists.mp huploads)]
        exact h
  | build run =>
      change Timely (buildChangesets sh aoi bucket w run).database
      unfold Timely
      rw [snapshots_buildChangesets]
      exact h
  | publishSnapshot params requestedTimeStr =>
      change Timely (w.commit (publishSnapshot sh pg params w requestedTimeStr)).database
      cases hpublish : publishSnapshot sh pg params w requestedTimeStr with
      | error e => exact h
      | ok result =>
          obtain ⟨lookup, document, written, database, -, -, hwritten, rfl⟩ :=
            publishSnapshot_eq_ok_iff.mp hpublish
          obtain ⟨staged, rows, table, -, -, -, -, -, rfl⟩ :=
            publishSnapshotFeatures_eq_ok_iff.mp hwritten
          exact h
  | publishChangeset params pair =>
      change Timely (w.commit (publishChangeset sh pg params w pair)).database
      cases hpublish : publishChangeset sh pg params w pair with
      | error e => exact h
      | ok result =>
          obtain ⟨snapA, snapB, changeset, document, written, database, -, -, hwritten,
            rfl⟩ := publishChangeset_eq_ok_iff.mp hpublish
          obtain ⟨rows, -, -, -, rfl⟩ := publishChangeFeatures_eq_ok_iff.mp hwritten
          exact h

/-- The run lemma. -/
theorem timely_reached (sh : Shapely G J) (pg : PostGis G) (aoi : Aoi J)
    (bucket : Bucket) (objects : Objects J) (tasks : List (TaskRun J hit)) :
    Timely (reached sh pg aoi bucket objects tasks).database := by
  induction tasks using List.reverseRecOn with
  | nil =>
      intro row hrow
      cases hrow
  | append_singleton tasks task ih =>
      rw [reached, afterAll_concat]
      exact ih.after task

/-- The listed intervals are between such instants. -/
theorem Timely.valid_of_isEndpoint {db : Database G} (h : Timely db) {t : Instant}
    (ht : IsEndpoint (listChangesets db) t) : t.Valid := by
  obtain ⟨cs, hcs, heq⟩ := ht
  obtain ⟨select, hselect, rfl⟩ := List.mem_map.mp hcs
  rw [mem_sortBy, changesetSelect] at hselect
  obtain ⟨c, -, hselect⟩ := List.mem_flatMap.mp hselect
  obtain ⟨sa, hsa, hselect⟩ := List.mem_flatMap.mp hselect
  obtain ⟨sb, hsb, rfl⟩ := List.mem_map.mp hselect
  rcases heq with rfl | rfl
  · exact h sa (List.mem_of_mem_filter hsa)
  · exact h sb (List.mem_of_mem_filter hsb)

/-- In every state that the system reaches, after any tasks in any order, the track of
the client is drawn in time. -/
theorem timeline_chronological (sh : Shapely G J) (pg : PostGis G) (aoi : Aoi J)
    (bucket : Bucket) (objects : Objects J) (tasks : List (TaskRun J hit))
    (selectedId : Option Nat) :
    DrawnInTime isoformat
      (listChangesets (reached sh pg aoi bucket objects tasks).database) selectedId := by
  have htimely : Timely (reached sh pg aoi bucket objects tasks).database :=
    timely_reached sh pg aoi bucket objects tasks
  refine drawnInTime_of_ordered ?_ selectedId
  intro s t hs ht
  exact isoDate_isoformat_lt_iff (htimely.valid_of_isEndpoint hs)
    (htimely.valid_of_isEndpoint ht)

end Timely

end VectorMapChanges
