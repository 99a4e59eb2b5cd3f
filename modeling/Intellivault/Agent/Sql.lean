import Intellivault.Agent.Schemas

/-!
# The SQL statements

One definition for each file of `app/agent/sql/`, on the row of the run it names.  The
model follows one run, so the table is its row or, before the run is created, nothing; a
statement about another id or another user finds no row.

`jsonb` is what storing a JSON object in a `jsonb` column does to its fields; the drafts'
`attributes` are the only free-form objects among the stored models.
-/

namespace Intellivault.Agent

/-- The part of `agent_runs` the model follows. -/
abbrev Table := Option RunRow

/-- A draft after a round trip through a `jsonb` column. -/
def StructuredResult.stored (jsonb : Attributes → Attributes) (d : StructuredResult) :
    StructuredResult :=
  { d with entities := d.entities.map fun e => { e with attributes := jsonb e.attributes } }

namespace Statement

/-- `INSERT INTO agent_runs (user_id, topic)`; the id is the fresh `gen_random_uuid()`. -/
def insertRun (id : UUID) (now : Time) (userId : UUID) (topic : String) : RunRow :=
  { id, userId, topic, createdAt := now, updatedAt := now }

def markRunning (now : Time) (r : RunRow) : RunRow :=
  { r with status := .running, currentNode := none, error := none, updatedAt := now }

def recordNode (now : Time) (node : String) (plan : Option Plan) (r : RunRow) : RunRow :=
  { r with currentNode := some node, plan := plan <|> r.plan, updatedAt := now }

def appendCommittedEntity (now : Time) (entityId : UUID) (r : RunRow) : RunRow :=
  { r with committedEntityIds := r.committedEntityIds ++ [entityId], updatedAt := now }

def appendCommittedRelationship (now : Time) (relationshipId : UUID) (r : RunRow) : RunRow :=
  { r with
    committedRelationshipIds := r.committedRelationshipIds ++ [relationshipId], updatedAt := now }

def markAwaitingReview (now : Time) (pending : StructuredResult) (result : AgentRunResult)
    (sourceUrls : List String) (r : RunRow) : RunRow :=
  { r with
    status := .awaitingReview, currentNode := none, pending := some pending
    result := some result, sourceUrls, updatedAt := now }

def approveReview (now : Time) (pending : StructuredResult) (r : RunRow) : RunRow :=
  { r with status := .running, pending := some pending, error := none, updatedAt := now }

def markCancelled (now : Time) (r : RunRow) : RunRow :=
  { r with status := .cancelled, pending := none, updatedAt := now }

def markSucceeded (now : Time) (result : AgentRunResult) (entityIds relationshipIds : List UUID)
    (r : RunRow) : RunRow :=
  { r with
    status := .succeeded, currentNode := none, result := some result
    committedEntityIds := entityIds, committedRelationshipIds := relationshipIds
    updatedAt := now }

def markFailed (now : Time) (error : String) (entityIds relationshipIds : List UUID)
    (r : RunRow) : RunRow :=
  { r with
    status := .failed, error := some error, committedEntityIds := entityIds
    committedRelationshipIds := relationshipIds, updatedAt := now }

end Statement

/-! ## Executing a statement -/

/-- A statement with its parameters. -/
inductive Sql where
  | insertRun (userId : UUID) (topic : String)
  | getRun (runId userId : UUID)
  | getRunInternal (runId : UUID)
  | getPending (runId : UUID)
  | markRunning (runId : UUID)
  | recordNode (runId : UUID) (node : String) (plan : Option Plan)
  | appendCommittedEntity (runId entityId : UUID)
  | appendCommittedRelationship (runId relationshipId : UUID)
  | markAwaitingReview (runId : UUID) (pending : StructuredResult) (result : AgentRunResult)
      (sourceUrls : List String)
  | approveReview (runId : UUID) (pending : StructuredResult)
  | markCancelled (runId : UUID)
  | markSucceeded (runId : UUID) (result : AgentRunResult) (entityIds relationshipIds : List UUID)
  | markFailed (runId : UUID) (error : String) (entityIds relationshipIds : List UUID)

namespace Sql

/-- The rows a statement returns. -/
def Answer : Sql → Type
  | .insertRun _ _ => RunRow
  | .getRun _ _ | .getRunInternal _ | .getPending _ | .approveReview _ _
  | .markCancelled _ => Option RunRow
  | .markRunning _ | .recordNode _ _ _ | .appendCommittedEntity _ _
  | .appendCommittedRelationship _ _ | .markAwaitingReview _ _ _ _ | .markSucceeded _ _ _ _
  | .markFailed _ _ _ _ => Unit

/-- `WHERE id = $1` -/
def whereId (t : Table) (runId : UUID) : Option RunRow := t.filter fun r => r.id = runId

/-- `UPDATE agent_runs SET .. WHERE id = $1` -/
def update (t : Table) (runId : UUID) (set : RunRow → RunRow) : Table :=
  t.map fun r => if r.id = runId then set r else r

/-- Run a statement: the table after it, and the rows it returns.  `newId` is what
`gen_random_uuid()` yields. -/
def exec (jsonb : Attributes → Attributes) (newId : UUID) (now : Time) (t : Table) :
    (q : Sql) → Table × q.Answer
  | .insertRun userId topic =>
      let r := Statement.insertRun newId now userId topic
      (some r, r)
  | .getRun runId userId => (t, (whereId t runId).filter fun r => r.userId = userId)
  | .getRunInternal runId => (t, whereId t runId)
  | .getPending runId => (t, whereId t runId)
  | .markRunning runId => (update t runId (Statement.markRunning now), ())
  | .recordNode runId node plan => (update t runId (Statement.recordNode now node plan), ())
  | .appendCommittedEntity runId id =>
      (update t runId (Statement.appendCommittedEntity now id), ())
  | .appendCommittedRelationship runId id =>
      (update t runId (Statement.appendCommittedRelationship now id), ())
  | .markAwaitingReview runId pending result sourceUrls =>
      (update t runId
        (Statement.markAwaitingReview now (pending.stored jsonb) result sourceUrls), ())
  | .approveReview runId pending =>
      let t := update t runId (Statement.approveReview now (pending.stored jsonb))
      (t, whereId t runId)
  | .markCancelled runId =>
      let t := update t runId (Statement.markCancelled now)
      (t, whereId t runId)
  | .markSucceeded runId result entityIds relationshipIds =>
      (update t runId (Statement.markSucceeded now result entityIds relationshipIds), ())
  | .markFailed runId error entityIds relationshipIds =>
      (update t runId (Statement.markFailed now error entityIds relationshipIds), ())

end Sql

end Intellivault.Agent
