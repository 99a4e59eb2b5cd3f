import Intellivault.Agent.Commit

/-!
# The research graph and the tasks

`app/agent/graph.py` and `app/agent/tasks.py`.  `drive` is `_drive` over `run_graph`: it
carries LangGraph's own state next to the task's mirrored one, and it hands the mirrored
state back with the outcome, since `_guarded` reads that state after a failure too.
-/

namespace Intellivault.Agent

open Lib

/-! ## The graph -/

/-- The nodes, under the names `_NODES` registers them. -/
inductive Node where
  | plan
  | surveyGraph
  | search
  | broadenQueries
  | fetch
  | analyzeOne
  | synthesize
  | struct
  | critique
  | lookup
  | commit
  | enrich
deriving DecidableEq

def Node.name : Node → String
  | .plan => "plan"
  | .surveyGraph => "survey_graph"
  | .search => "search"
  | .broadenQueries => "broaden_queries"
  | .fetch => "fetch"
  | .analyzeOne => "analyze_one"
  | .synthesize => "synthesize"
  | .struct => "structure"
  | .critique => "critique"
  | .lookup => "lookup"
  | .commit => "commit"
  | .enrich => "enrich"

def routeAfterSearch (deps : Deps) (state : AgentState) : Node :=
  if state.searchHits ≠ [] ∨ deps.settings.searchRetries ≤ state.searchAttempts then .fetch
  else .broadenQueries

def fanOutAnalyze (state : AgentState) : Node :=
  if state.documents = [] then .synthesize else .analyzeOne

def routeAfterCritique (deps : Deps) (state : AgentState) : Node :=
  if state.critique = none ∨ deps.settings.critiqueRetries < state.critiqueAttempts then .lookup
  else .struct

/-- `build_graph`: the edge out of a node; `none` is `END`. -/
def next (deps : Deps) (review : Bool) (node : Node) (state : AgentState) : Option Node :=
  match node with
  | .plan => some .surveyGraph
  | .surveyGraph => some .search
  | .search => some (routeAfterSearch deps state)
  | .broadenQueries => some .search
  | .fetch => some (fanOutAnalyze state)
  | .analyzeOne => some .synthesize
  | .synthesize => some .struct
  | .struct => some .critique
  | .critique => some (routeAfterCritique deps state)
  | .lookup => if review then none else some .commit
  | .commit => some .enrich
  | .enrich => none

/-- A node that runs once in its step; `analyze_one` runs once for each document. -/
def runNode (deps : Deps) (node : Node) (state : AgentState) : Coroutine Update :=
  match node with
  | .plan => planNode state
  | .surveyGraph => surveyGraphNode deps state
  | .search => searchNode deps state
  | .broadenQueries => broadenQueriesNode state
  | .fetch => fetchNode state
  | .analyzeOne => return {}
  | .synthesize => synthesizeNode state
  | .struct => structureNode deps state
  | .critique => critiqueNode state
  | .lookup => lookupNode deps state
  | .commit => commitNode state
  | .enrich => enrichNode state

/-! ## `_drive` -/

/-- One `(node_name, update)` pair of `run_graph`: the mirrored state after it, and how
`record_node` went. -/
def yielded (runId : UUID) (node : Node) (state : AgentState) (update : Update) :
    Coroutine (AgentState × Except Exn Unit) := do
  match ← (call .stream).attempt with
  | .error exc => return (state, .error exc)
  | .ok _ =>
      let state := state.update update
      let _ ← mirror update
      let recorded ← (Service.recordNode runId node.name
        (if node = .plan then state.plan else none)).attempt
      return (state, recorded)

/-- A step of one node: the mirrored state, and the updates or the exception. -/
def oneNode (deps : Deps) (runId : UUID) (node : Node) (graphState state : AgentState) :
    Coroutine (AgentState × Except Exn (List Update)) := do
  match ← (runNode deps node graphState).attempt with
  | .error exc => return (state, .error exc)
  | .ok update =>
      let (state, recorded) ← yielded runId node state update
      return (state, recorded.map fun _ => [update])

/-- The step of the fan-out branches, in the order they finish; the updates are put back in
the order of the documents. -/
def branches (topic : String) (runId : UUID) : List (Nat × FetchedDoc) → AgentState →
    List (Nat × Update) → Coroutine (AgentState × Except Exn (List Update))
  | [], state, updates =>
      return (state, .ok ((updates.insertionSort fun a b => a.1 ≤ b.1).map (·.2)))
  | (i, doc) :: rest, state, updates => do
      match ← (analyzeOneNode topic doc).attempt with
      | .error exc => return (state, .error exc)
      | .ok update =>
          let (state, recorded) ← yielded runId .analyzeOne state update
          match recorded with
          | .error exc => return (state, .error exc)
          | .ok _ => branches topic runId rest state ((i, update) :: updates)

def analyzeAll (runId : UUID) (graphState state : AgentState) :
    Coroutine (AgentState × Except Exn (List Update)) := do
  let order ← finishOrder graphState.documents.length
  let docs := (List.finRange graphState.documents.length).map fun i =>
    ((order i).val, graphState.documents.get (order i))
  branches graphState.topic runId docs state []

/-- One step of the graph. -/
def superstep (deps : Deps) (runId : UUID) (node : Node) (graphState state : AgentState) :
    Coroutine (AgentState × Except Exn (List Update)) :=
  if node = .analyzeOne then analyzeAll runId graphState state
  else oneNode deps runId node graphState state

/-- `_drive`, from a node on, for at most the given number of steps. -/
def drive (deps : Deps) (review : Bool) (runId : UUID) : Nat → Node → AgentState → AgentState →
    Coroutine (AgentState × Except Exn Unit)
  | 0, _, _, state => return (state, .error .recursionLimit)
  | steps + 1, node, graphState, state => do
      let (state, outcome) ← superstep deps runId node graphState state
      match outcome with
      | .error exc => return (state, .error exc)
      | .ok updates =>
          let graphState := updates.foldl AgentState.merge graphState
          match next deps review node graphState with
          | none => return (state, .ok ())
          | some node => drive deps review runId steps node graphState state

/-! ## The tasks -/

/-- `asyncio.wait_for`: the cancellation it caused comes out as a `TimeoutError`. -/
def waitFor : Except Exn Unit → Except Exn Unit
  | .error .cancelled => .error .timeout
  | outcome => outcome

/-- `_guarded`: the mirrored state, or the failure persisted and raised again. -/
def guarded (runId : UUID) (limit : String) (body : Coroutine (AgentState × Except Exn Unit)) :
    Coroutine AgentState := do
  let (state, outcome) ← body
  match waitFor outcome with
  | .ok _ => return state
  | .error exc =>
      let message :=
        if exc = .timeout then "run exceeded the " ++ limit ++ "s deadline" else exc.repr
      let _ ← Service.markFailed runId message state.committedEntityIds
        state.committedRelationshipIds
      .raise exc

/-- `_result`. -/
def result (state : AgentState) : AgentRunResult :=
  { analysis := state.analysis.getD ""
    entitiesCreated := state.committedEntityIds.length
    relationshipsCreated := state.committedRelationshipIds.length
    skipped := state.skipped }

/-- `_finish_succeeded`. -/
def finishSucceeded (runId : UUID) (state : AgentState) : Coroutine Unit :=
  Service.markSucceeded runId (result state) state.committedEntityIds
    state.committedRelationshipIds

/-- The end of `_run_agent` when review is required. -/
def park (runId : UUID) (state : AgentState) : Coroutine Unit :=
  Service.markAwaitingReview runId (state.structured.getD {}) (result state)
    (state.documents.map (·.url))

/-- `_run_agent`. -/
def runAgent (deps : Deps) (runId : UUID) : Coroutine Unit := do
  let row ← Service.getRunInternal runId
  let _ ← Service.markRunning runId
  let review := deps.settings.reviewRequired
  let state := initialState row.topic row.userId runId
  let state ← guarded runId deps.settings.runTimeout
    (drive deps review runId deps.settings.recursionLimit .plan state state)
  if review then park runId state else finishSucceeded runId state

/-- The body of `_commit_agent_run`. -/
def commitBody (state : AgentState) : Coroutine (AgentState × Except Exn Unit) := do
  match ← (commitNode state).attempt with
  | .error exc => return (state, .error exc)
  | .ok update =>
      let state := state.update update
      let _ ← mirror update
      match ← (enrichNode state).attempt with
      | .error exc => return (state, .error exc)
      | .ok update =>
          let state := state.update update
          let _ ← mirror update
          return (state, .ok ())

/-- The state `_commit_agent_run` rebuilds from what was parked. -/
def restored (topic : String) (ownerId runId : UUID) (parked : Service.ParkedRun) : AgentState :=
  let state := initialState topic ownerId runId
  { state with
    structured := some parked.drafts
    analysis := match parked.partialResult with
      | some partialResult => some partialResult.analysis
      | none => state.analysis
    skipped := match parked.partialResult with
      | some partialResult => partialResult.skipped
      | none => state.skipped
    documents := parked.sourceUrls.map fun url => ⟨url, ""⟩ }

/-- `_commit_agent_run`. -/
def commitAgentRun (deps : Deps) (runId : UUID) : Coroutine Unit := do
  let row ← Service.getRunInternal runId
  let parked ← Service.loadParked runId
  let state ← guarded runId deps.settings.runTimeout
    (commitBody (restored row.topic row.userId runId parked))
  finishSucceeded runId state

end Intellivault.Agent
