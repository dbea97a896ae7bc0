import VectorMapChanges.Db.Metadata
import VectorMapChanges.Storage.ObjectStore

/-!
# Tasks

What the tasks of the DAGs share: the state that outlives them, which is the
object store and the database, and the natural key of a snapshot.

A task reads, computes, and then makes its durable writes one after the other.
It is modelled by the list of its writes, so that a task that dies between two
of them has made a first part of the list.
-/

namespace VectorMapChanges

open Lib

/-- What outlives a task. -/
structure World (G J : Type) where
  objects : Objects J
  database : Database G

/-- The parameters that select snapshots. -/
structure TaskParams where
  source : String
  layer : String
  aoiId : String
  aoiVersion : String
  sourceQueryVersion : String
deriving DecidableEq

/-- The natural key of the snapshot of one instant. -/
def naturalKey (params : TaskParams) (requestedTimeStr : String) :
    Except PyError SnapshotKey := do
  let requestedTime ← parseInstant requestedTimeStr
  pure
    { source := params.source
      layer := params.layer
      aoiId := params.aoiId
      aoiVersion := params.aoiVersion
      sourceQueryVersion := params.sourceQueryVersion
      requestedTime := requestedTime }

/-- A durable write. -/
inductive Write (J : Type) where
  | putJson (key : String) (data : Document J)
  | upsertSnapshot (params : SnapshotRow)
  | upsertChangeset (params : ChangesetRow)

section Writes

variable {G J : Type} (bucket : Bucket)

/-- The world after one write. -/
def Write.apply (w : World G J) : Write J → Except PyError (World G J)
  | putJson key data =>
      .ok { w with
        objects := (VectorMapChanges.putJson w.objects bucket key data).2 }
  | upsertSnapshot params =>
      .ok { w with
        database := (VectorMapChanges.upsertSnapshot w.database params).2 }
  | upsertChangeset params => do
      let (_, database) ← VectorMapChanges.upsertChangeset w.database params
      pure { w with database := database }

/-- The world after writes in order, up to the first that raises. -/
def World.write (w : World G J) : List (Write J) → World G J
  | [] => w
  | write :: rest =>
      match write.apply bucket w with
      | .ok w' => w'.write rest
      | .error _ => w

/-- The world after a task that made the first `completed` of its writes. -/
def World.runTask (w : World G J) (task : Except PyError (List (Write J)))
    (completed : Nat) : World G J :=
  match task with
  | .ok writes => w.write bucket (writes.take completed)
  | .error _ => w

/-- A task that raises, or dies before its first write, changes nothing. -/
theorem runTask_of_stopped {w : World G J}
    {task : Except PyError (List (Write J))} {completed : Nat}
    (h : ∀ writes, task = .ok writes → completed = 0) :
    w.runTask bucket task completed = w := by
  cases task with
  | error e => rfl
  | ok writes =>
      rw [h writes rfl]
      rfl

end Writes

end VectorMapChanges
