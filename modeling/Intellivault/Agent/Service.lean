import Intellivault.Agent.Calls

/-!
# The agent service and its routes

`app/agent/service.py` and the two writing routes of `app/agent/router.py`.
-/

namespace Intellivault.Agent

open Lib

namespace Service

/-- `_run`. -/
def run (row : RunRow) : Coroutine AgentRun := do
  let _ ← call (.parse row)
  return {
    id := row.id, topic := row.topic, status := row.status, currentNode := row.currentNode
    plan := row.plan, result := row.result, pending := row.pending
    committedEntityIds := row.committedEntityIds
    committedRelationshipIds := row.committedRelationshipIds
    error := row.error, createdAt := row.createdAt, updatedAt := row.updatedAt }

/-- `_load` of a `jsonb` column. -/
def load {α : Type} (column : String) (raw : Option α) : Coroutine (Option α) :=
  match raw with
  | none => .ret none
  | some value => do
      let _ ← call (.load column)
      return some value

/-! ## HTTP-facing -/

def createRun (userId : UUID) (topic : Topic) : Coroutine AgentRun := do
  let row : RunRow ← sql (.insertRun userId topic.val)
  run row

def getRun (userId runId : UUID) : Coroutine AgentRun := do
  let found : Option RunRow ← sql (.getRun runId userId)
  match found with
  | none => .raise (.http ⟨404, "Run not found"⟩)
  | some row => run row

/-- The drafts an approval commits: the parked ones with the reviewer's edits. -/
def edited (pending : StructuredResult) (review : AgentRunReview) : StructuredResult :=
  { entities := review.entities.getD pending.entities
    relationships := review.relationships.getD pending.relationships }

/-- The status change of `submit_review`, on the row just read. -/
def decide (runId : UUID) (review : AgentRunReview) (row : RunRow) : Coroutine (Option RunRow) :=
  match review.decision with
  | .reject => sql (.markCancelled runId)
  | .approve => do
      let pending ← load "pending" row.pending
      sql (.approveReview runId (edited (pending.getD {}) review))

def submitReview (userId runId : UUID) (review : AgentRunReview) : Coroutine AgentRun := do
  let found : Option RunRow ← sql (.getRun runId userId)
  match found with
  | none => .raise (.http ⟨404, "Run not found"⟩)
  | some row =>
      if row.status ≠ .awaitingReview then
        .raise (.http ⟨409, "Run is " ++ row.status.text ++ ", not awaiting review"⟩)
      else
        let updated ← decide runId review row
        match updated with
        | none => .raise (.other "" "AssertionError()")
        | some row => run row

def enqueueRun (runId : UUID) : Coroutine Unit := kiq (.runAgent runId)

def enqueueCommit (runId : UUID) : Coroutine Unit := kiq (.commitAgentRun runId)

/-! ## The worker's write path -/

/-- `get_run_internal`. -/
def getRunInternal (runId : UUID) : Coroutine RunRow := do
  let found : Option RunRow ← sql (.getRunInternal runId)
  match found with
  | none => .raise (.lookup ("agent_run " ++ uuidStr runId ++ " not found"))
  | some row => return row

/-- `ParkedRun`. -/
structure ParkedRun where
  drafts : StructuredResult
  partialResult : Option AgentRunResult
  sourceUrls : List String

def loadParked (runId : UUID) : Coroutine ParkedRun := do
  let found : Option RunRow ← sql (.getPending runId)
  match found with
  | none => return ⟨{}, none, []⟩
  | some row =>
      let pending ← load "pending" row.pending
      let result ← load "result" row.result
      let urls ← load "source_urls" (some row.sourceUrls)
      return ⟨pending.getD {}, result, urls.getD []⟩

def markRunning (runId : UUID) : Coroutine Unit := sql (.markRunning runId)

def markAwaitingReview (runId : UUID) (pending : StructuredResult) (result : AgentRunResult)
    (sourceUrls : List String) : Coroutine Unit :=
  sql (.markAwaitingReview runId pending result sourceUrls)

def recordNode (runId : UUID) (node : String) (plan : Option Plan) : Coroutine Unit :=
  sql (.recordNode runId node plan)

def appendCommittedEntity (runId entityId : UUID) : Coroutine Unit :=
  sql (.appendCommittedEntity runId entityId)

def appendCommittedRelationship (runId relationshipId : UUID) : Coroutine Unit :=
  sql (.appendCommittedRelationship runId relationshipId)

def markSucceeded (runId : UUID) (result : AgentRunResult) (entityIds relationshipIds : List UUID) :
    Coroutine Unit :=
  sql (.markSucceeded runId result entityIds relationshipIds)

def markFailed (runId : UUID) (error : String) (entityIds relationshipIds : List UUID) :
    Coroutine Unit :=
  sql (.markFailed runId error entityIds relationshipIds)

end Service

namespace Router

/-- `POST /agent/runs` -/
def createRun (userId : UUID) (topic : Topic) : Coroutine AgentRun := do
  let run ← Service.createRun userId topic
  let _ ← Service.enqueueRun run.id
  return run

/-- `POST /agent/runs/{run_id}/review` -/
def reviewRun (userId runId : UUID) (data : AgentRunReview) : Coroutine AgentRun := do
  let run ← Service.submitReview userId runId data
  if data.decision = .approve then
    let _ ← Service.enqueueCommit run.id
  return run

end Router

end Intellivault.Agent
