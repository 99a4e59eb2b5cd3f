import Intellivault.Agent.Calls

/-!
# The table behind the calls

Running the SQL calls of a coroutine against the row of its run, and the lemmas that replace
looking into `Sql.exec`.
-/

namespace Intellivault.Agent

open Lib Prog

/-- What the database adds to a statement: a fresh id and the clock. -/
structure Draw where
  newId : UUID := 0
  now : Time := 0

/-- A SQL call is answered, or raises before or after it took effect; any other call leaves the
table alone and may answer or raise anything. -/
def database (jsonb : Attributes → Attributes) : Handler Call Call.Answer Exn Table
  | .sql q, t, r, t' => ∃ draw : Draw,
      r = .ok (q.exec jsonb draw.newId draw.now t).2 ∧ t' = (q.exec jsonb draw.newId draw.now t).1 ∨
      (∃ exc, r = .error exc) ∧ (t' = t ∨ t' = (q.exec jsonb draw.newId draw.now t).1)
  | _, t, _, t' => t' = t

namespace Sql

variable {jsonb : Attributes → Attributes} {newId id : UUID} {now : Time} {t : Table} {row : RunRow}

@[simp] theorem update_none (set : RunRow → RunRow) : update none id set = none := rfl

theorem update_some (same : row.id = id) (set : RunRow → RunRow) :
    update (some row) id set = some (set row) := by
  simp [update, same]

theorem whereId_some (same : row.id = id) : whereId (some row) id = some row := by
  simp [whereId, Option.filter, same]

/-- The run a statement is about; `none` for the insert. -/
def runId : Sql → Option UUID
  | .insertRun _ _ => none
  | .getRun id _ | .getRunInternal id | .getPending id | .markRunning id | .recordNode id _ _
  | .appendCommittedEntity id _ | .appendCommittedRelationship id _
  | .markAwaitingReview id _ _ _ | .approveReview id _ | .markCancelled id
  | .markSucceeded id _ _ _ | .markFailed id _ _ _ => some id

/-- What a statement makes of the row it is about. -/
def rewrite (jsonb : Attributes → Attributes) (now : Time) : Sql → RunRow → RunRow
  | .markRunning _ => Statement.markRunning now
  | .recordNode _ node plan => Statement.recordNode now node plan
  | .appendCommittedEntity _ id => Statement.appendCommittedEntity now id
  | .appendCommittedRelationship _ id => Statement.appendCommittedRelationship now id
  | .markAwaitingReview _ pending result urls =>
      Statement.markAwaitingReview now (pending.stored jsonb) result urls
  | .approveReview _ pending => Statement.approveReview now (pending.stored jsonb)
  | .markCancelled _ => Statement.markCancelled now
  | .markSucceeded _ result entities relationships =>
      Statement.markSucceeded now result entities relationships
  | .markFailed _ error entities relationships =>
      Statement.markFailed now error entities relationships
  | _ => fun row => row

/-- A statement on an existing row rewrites that row or nothing. -/
theorem exec_some (q : Sql) (update : q.runId ≠ none) :
    (q.exec jsonb newId now (some row)).1 =
      some (if some row.id = q.runId then q.rewrite jsonb now row else row) := by
  cases q with
  | insertRun _ _ => exact absurd rfl update
  | getRun _ _ | getRunInternal _ | getPending _ => simp [exec, rewrite]
  | _ => simp [exec, rewrite, runId, Sql.update]

theorem rewrite_id (q : Sql) : (q.rewrite jsonb now row).id = row.id := by
  cases q <;> rfl

/-- An update leaves the run's id alone, and makes no row. -/
theorem exec_id (q : Sql) (update : q.runId ≠ none) :
    (q.exec jsonb newId now t).1.map RunRow.id = t.map RunRow.id := by
  cases t with
  | none => cases q <;> first | rfl | exact absurd rfl update
  | some row =>
      rw [exec_some q update, Option.map_some, Option.map_some]
      split
      · rw [rewrite_id]
      · rfl

end Sql

end Intellivault.Agent
