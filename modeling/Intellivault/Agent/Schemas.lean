import Intellivault.Graph.Model

/-!
# The agent's data

The request, response and worker-internal models of `app/agent/schemas.py`, the LangGraph
state of `app/agent/graph_state.py`, and the row of `agent_runs`.

* Ids are UUIDs where the worker passes `str(uuid)`.
* A `jsonb` column is the value its text denotes.
-/

namespace Intellivault.Agent

open Lib

/-- `AgentRunStatus`. -/
inductive AgentRunStatus where
  | queued
  | running
  | awaitingReview
  | succeeded
  | failed
  | cancelled
deriving DecidableEq, Repr

def AgentRunStatus.text : AgentRunStatus → String
  | .queued => "queued"
  | .running => "running"
  | .awaitingReview => "awaiting_review"
  | .succeeded => "succeeded"
  | .failed => "failed"
  | .cancelled => "cancelled"

/-- `Topic`. -/
abbrev Topic := Bounded 3 500

/-- `Plan`. -/
structure Plan where
  summary : String
  queries : List String
  bounds : 1 ≤ queries.length ∧ queries.length ≤ 8
deriving DecidableEq

/-! ## What the nodes pass around -/

/-- `SearchHit`. -/
structure SearchHit where
  url : String
  title : String := ""
  snippet : String := ""
deriving DecidableEq

/-- `FetchedDoc`. -/
structure FetchedDoc where
  url : String
  text : String
deriving DecidableEq

/-- `DigestEntity`. -/
structure DigestEntity where
  id : UUID
  name : String
  kind : String
deriving DecidableEq

/-- `DigestEdge`. -/
structure DigestEdge where
  fromId : UUID
  toId : UUID
  kind : String
deriving DecidableEq

/-- `GraphDigest`. -/
structure GraphDigest where
  entities : List DigestEntity := []
  relationships : List DigestEdge := []
deriving DecidableEq

/-- `DraftEntity`. -/
structure DraftEntity where
  tempId : String
  name : Name
  kind : Kind
  attributes : Attributes := []
  existingId : Option UUID := none
deriving DecidableEq

/-- `DraftRelationship`. -/
structure DraftRelationship where
  fromRef : String
  toRef : String
  kind : Kind
deriving DecidableEq

/-- `StructuredResult`. -/
structure StructuredResult where
  entities : List DraftEntity := []
  relationships : List DraftRelationship := []
deriving DecidableEq

inductive Verdict where
  | ok
  | revise
deriving DecidableEq

/-- `Critique`. -/
structure Critique where
  verdict : Verdict
  notes : String := ""
deriving DecidableEq

/-- `EnrichLink`. -/
structure EnrichLink where
  targetId : String
  kind : Kind
deriving DecidableEq

/-- `EnrichLinks`. -/
structure EnrichLinks where
  links : List EnrichLink := []
deriving DecidableEq

/-! ## The run record -/

/-- `AgentRunResult`. -/
structure AgentRunResult where
  analysis : String
  entitiesCreated : Nat
  relationshipsCreated : Nat
  skipped : List String := []
deriving DecidableEq

/-- A row of `agent_runs`. -/
structure RunRow where
  id : UUID
  userId : UUID
  topic : String
  status : AgentRunStatus := .queued
  currentNode : Option String := none
  plan : Option Plan := none
  result : Option AgentRunResult := none
  pending : Option StructuredResult := none
  sourceUrls : List String := []
  committedEntityIds : List UUID := []
  committedRelationshipIds : List UUID := []
  error : Option String := none
  createdAt : Time
  updatedAt : Time

/-- `AgentRun`: the row as the owner gets it. -/
structure AgentRun where
  id : UUID
  topic : String
  status : AgentRunStatus
  currentNode : Option String
  plan : Option Plan
  result : Option AgentRunResult
  pending : Option StructuredResult
  committedEntityIds : List UUID
  committedRelationshipIds : List UUID
  error : Option String
  createdAt : Time
  updatedAt : Time

inductive Decision where
  | approve
  | reject
deriving DecidableEq

/-- `AgentRunReview`. -/
structure AgentRunReview where
  decision : Decision
  entities : Option (List DraftEntity) := none
  relationships : Option (List DraftRelationship) := none
deriving DecidableEq

/-! ## The state of a run -/

/-- `AgentState`. -/
structure AgentState where
  topic : String
  ownerId : UUID
  runId : UUID
  plan : Option Plan
  existingGraph : Option GraphDigest
  searchHits : List SearchHit
  searchAttempts : Nat
  documents : List FetchedDoc
  sourceNotes : List String
  analysis : Option String
  structured : Option StructuredResult
  critique : Option String
  critiqueAttempts : Nat
  committedEntityIds : List UUID
  committedRelationshipIds : List UUID
  committedEntities : List DigestEntity
  skipped : List String

/-- `initial_state`. -/
def initialState (topic : String) (ownerId runId : UUID) : AgentState :=
  { topic, ownerId, runId
    plan := none
    existingGraph := none
    searchHits := []
    searchAttempts := 0
    documents := []
    sourceNotes := []
    analysis := none
    structured := none
    critique := none
    critiqueAttempts := 0
    committedEntityIds := []
    committedRelationshipIds := []
    committedEntities := []
    skipped := [] }

/-- The partial update a node returns: the keys it sets. -/
structure Update where
  plan : Option Plan := none
  existingGraph : Option GraphDigest := none
  searchHits : Option (List SearchHit) := none
  searchAttempts : Option Nat := none
  documents : Option (List FetchedDoc) := none
  sourceNotes : Option (List String) := none
  analysis : Option String := none
  structured : Option StructuredResult := none
  critique : Option (Option String) := none
  critiqueAttempts : Option Nat := none
  committedEntityIds : Option (List UUID) := none
  committedRelationshipIds : Option (List UUID) := none
  committedEntities : Option (List DigestEntity) := none
  skipped : Option (List String) := none

/-- `state.update(update)`: every key set is overwritten. -/
def AgentState.update (s : AgentState) (u : Update) : AgentState :=
  { s with
    plan := u.plan <|> s.plan
    existingGraph := u.existingGraph <|> s.existingGraph
    searchHits := u.searchHits.getD s.searchHits
    searchAttempts := u.searchAttempts.getD s.searchAttempts
    documents := u.documents.getD s.documents
    sourceNotes := u.sourceNotes.getD s.sourceNotes
    analysis := u.analysis <|> s.analysis
    structured := u.structured <|> s.structured
    critique := u.critique.getD s.critique
    critiqueAttempts := u.critiqueAttempts.getD s.critiqueAttempts
    committedEntityIds := u.committedEntityIds.getD s.committedEntityIds
    committedRelationshipIds := u.committedRelationshipIds.getD s.committedRelationshipIds
    committedEntities := u.committedEntities.getD s.committedEntities
    skipped := u.skipped.getD s.skipped }

/-- LangGraph's own merge: `source_notes` has the reducer `operator.add`. -/
def AgentState.merge (s : AgentState) (u : Update) : AgentState :=
  { s.update u with sourceNotes := s.sourceNotes ++ u.sourceNotes.getD [] }

end Intellivault.Agent
