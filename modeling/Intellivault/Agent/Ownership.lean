import Intellivault.Lib.Part
import Intellivault.Agent.System

/-!
# Calls for one run and its owner

Every statement, job and graph call of a request or a task is about one run, and the graph is
used on behalf of the run's owner alone.  `Call.For` says so of one call; it holds of all calls
after the first, which says whose run it is, as long as the database answers with rows of
that run (`Returned`).
-/

namespace Intellivault.Agent

open Lib Prog

/-- The rows a statement handed back. -/
def Sql.rows : (q : Sql) → q.Answer → List RunRow
  | .insertRun _ _, row => [row]
  | .getRun _ _, found | .getRunInternal _, found | .getPending _, found
  | .approveReview _ _, found | .markCancelled _, found => Option.toList found
  | .markRunning _, _ | .recordNode _ _ _, _ | .appendCommittedEntity _ _, _
  | .appendCommittedRelationship _ _, _ | .markAwaitingReview _ _ _ _, _ | .markSucceeded _ _ _ _, _
  | .markFailed _ _ _ _, _ => []

/-- The answer is about the run, and its owner is in `P`. -/
def Returned (runId : UUID) (P : UUID → Prop) : Event Call Call.Answer Exn → Prop
  | ⟨.sql q, .ok answer⟩ => ∀ row ∈ q.rows answer, row.id = runId ∧ P row.userId
  | _ => True

/-- A call for the run, on behalf of an owner in `P`; without an owner, one that touches
neither the database, the queue nor the graph. -/
def Call.For (runId : UUID) (P : UUID → Prop) : Call → Prop
  | .sql q => q.runId = some runId ∧ ∃ u, P u
  | .parse row => row.id = runId ∧ P row.userId
  | .kiq job => job.runId = runId ∧ ∃ u, P u
  | .graph c => P c.ownerId ∧ c.Private
  | _ => True

variable {runId : UUID} {P : UUID → Prop} {α : Type}

/-- Every call is for the run. -/
abbrev ForRun (runId : UUID) (P : UUID → Prop) (p : Coroutine α) : Prop := p.Calls (Call.For runId P)

/-- Every call is for the run, and what is returned satisfies `Q`, if the answers are about it. -/
abbrev Serves (runId : UUID) (P : UUID → Prop) (Q : α → Prop) (p : Coroutine α) : Prop :=
  p.Meets (Returned runId P) (Call.For runId P) Q

theorem Call.Outside.forRun {c : Call} (h : c.Outside) : c.For runId P := by
  cases c <;> trivial

theorem Call.Records.forRun {c : Call} {u : UUID} (h : c.Records u runId) (owner : P u) :
    c.For runId P := by
  cases c with
  | graph c =>
      obtain ⟨owned, priv⟩ := h
      exact ⟨(congrArg P owned).mpr owner, priv⟩
  | sql q => cases q <;> first | exact ⟨congrArg some h, u, owner⟩ | exact h.elim
  | load _ | parse _ | kiq _ => exact h.elim
  | _ => trivial

/-! ## The research graph -/

section Drive

variable {deps : Deps} {state graphState : AgentState}

theorem foldl_merge_ids (updates : List Update) (state : AgentState) :
    (updates.foldl AgentState.merge state).ownerId = state.ownerId ∧
      (updates.foldl AgentState.merge state).runId = state.runId := by
  induction updates generalizing state with
  | nil => exact ⟨rfl, rfl⟩
  | cons update rest ih => exact ih (state.merge update)

theorem yielded_forRun (owned : ∃ u, P u) (node : Node) (update : Update) :
    ForRun runId P (yielded runId node state update) := by
  refine (calls_call trivial).attempt.bind fun r => ?_
  cases r with
  | error exc => trivial
  | ok _ =>
      refine Calls.bind ⟨trivial, fun _ => trivial⟩ fun _ => ?_
      have recorded : ForRun runId P (Service.recordNode runId node.name
          (if node = .plan then (state.update update).plan else none)) := calls_call ⟨rfl, owned⟩
      exact recorded.attempt.bind fun _ => trivial

theorem oneNode_forRun (owner : P graphState.ownerId) (same : graphState.runId = runId)
    (node : Node) : ForRun runId P (oneNode deps runId node graphState state) := by
  have ran : ForRun runId P (runNode deps node graphState) :=
    (runNode_owned deps node graphState).mono fun _ records => (same ▸ records).forRun owner
  refine ran.attempt.bind fun r => ?_
  cases r with
  | error exc => trivial
  | ok update => exact (yielded_forRun ⟨_, owner⟩ node update).bind fun _ => trivial

theorem branches_forRun (owned : ∃ u, P u) (topic : String) (docs : List (Nat × FetchedDoc))
    (updates : List (Nat × Update)) : ForRun runId P (branches topic runId docs state updates) := by
  induction docs generalizing state updates with
  | nil => trivial
  | cons doc rest ih =>
      have analyzed : ForRun runId P (analyzeOneNode topic doc.2) :=
        (analyzeOneNode_outside topic doc.2).mono fun _ => Call.Outside.forRun
      refine analyzed.attempt.bind fun r => ?_
      cases r with
      | error exc => trivial
      | ok update =>
          refine (yielded_forRun owned .analyzeOne update).bind fun (state, recorded) => ?_
          cases recorded with
          | error exc => trivial
          | ok _ => exact ih _

theorem superstep_forRun (owner : P graphState.ownerId) (same : graphState.runId = runId)
    (node : Node) : ForRun runId P (superstep deps runId node graphState state) := by
  unfold superstep
  split
  · refine Calls.bind ⟨trivial, fun r => ?_⟩ fun _ => branches_forRun ⟨_, owner⟩ _ _ _
    cases r <;> trivial
  · exact oneNode_forRun owner same node

theorem drive_forRun {review : Bool} (steps : Nat) {node : Node} (owner : P graphState.ownerId)
    (same : graphState.runId = runId) :
    ForRun runId P (drive deps review runId steps node graphState state) := by
  induction steps generalizing node graphState state with
  | zero => trivial
  | succ steps ih =>
      refine (superstep_forRun owner same node).bind fun (state, outcome) => ?_
      cases outcome with
      | error exc => trivial
      | ok updates =>
          obtain ⟨owner', same'⟩ := foldl_merge_ids updates graphState
          dsimp only
          split
          · trivial
          · exact ih (owner' ▸ owner) (same'.trans same)

theorem commitBody_forRun (owner : P state.ownerId) (same : state.runId = runId) :
    ForRun runId P (commitBody state) := by
  have records : ∀ {p : Coroutine Update}, p.Calls (Call.Records state.ownerId state.runId) →
      ForRun runId P p := fun calls => calls.mono fun _ records => (same ▸ records).forRun owner
  have mirrored : ∀ update, ForRun runId P (mirror update) := fun _ => ⟨trivial, fun _ => trivial⟩
  refine (records (commitNode_owned state)).attempt.bind fun r => ?_
  cases r with
  | error exc => trivial
  | ok update =>
      refine (mirrored update).bind fun _ => ?_
      refine (records (enrichNode_owned (state.update update))).attempt.bind fun r => ?_
      cases r with
      | error exc => trivial
      | ok update => exact (mirrored update).bind fun _ => trivial

theorem guarded_forRun (owned : ∃ u, P u) {limit : String}
    {body : Coroutine (AgentState × Except Exn Unit)} (calls : ForRun runId P body) :
    ForRun runId P (guarded runId limit body) := by
  refine calls.bind fun (state, outcome) => ?_
  dsimp only
  cases waitFor outcome with
  | ok _ => trivial
  | error exc => exact Calls.bind (calls_call ⟨rfl, owned⟩) fun _ => trivial

end Drive

/-! ## The routes and the tasks -/

/-- What runs on all of `agent_runs`. -/
inductive FleetTask where
  | create (userId : UUID) (topic : Topic)
  | get (userId runId : UUID)
  | review (userId runId : UUID) (data : AgentRunReview)
  | job (job : Job)

namespace FleetTask

/-- What a process of each kind does. -/
def body (deps : Deps) : FleetTask → Coroutine Unit
  | .create userId topic => do
      let _ ← Router.createRun userId topic
      return ()
  | .get userId runId => do
      let _ ← Service.getRun userId runId
      return ()
  | .review userId runId data => do
      let _ ← Router.reviewRun userId runId data
      return ()
  | .job (.runAgent id) => runAgent deps id
  | .job (.commitAgentRun id) => commitAgentRun deps id

/-- The first call, which finds out whose run it is. -/
def first : FleetTask → Call
  | .create userId topic => .sql (.insertRun userId topic.val)
  | .get userId runId | .review userId runId _ => .sql (.getRun runId userId)
  | .job j => .sql (.getRunInternal j.runId)

/-- The run it may be about. -/
def Runs (runId : UUID) : FleetTask → Prop
  | .create _ _ => True
  | .get _ id | .review _ id _ => id = runId
  | .job j => j.runId = runId

end FleetTask

theorem run_serves {row : RunRow} (id : row.id = runId) (owner : P row.userId) :
    Serves runId P (fun run : AgentRun => run.id = runId) (Service.run row) :=
  Meets.bind (Q := fun _ => True) (meets_perform ⟨id, owner⟩ fun _ _ => trivial) fun _ _ => id

theorem kiq_serves {job : Job} (about : job.runId = runId) (owned : ∃ u, P u) :
    Serves runId P (fun _ => True) (kiq job) :=
  meets_perform ⟨about, owned⟩ fun _ _ => trivial

theorem load_serves {β : Type} (column : String) (raw : Option β) :
    Serves runId P (fun _ => True) (Service.load column raw) := by
  cases raw with
  | none => trivial
  | some value =>
      exact Meets.bind (Q := fun _ => True) (meets_perform trivial fun _ _ => trivial)
        fun _ _ => trivial

/-- The rows of an optional answer are those of the run. -/
def Found (runId : UUID) (P : UUID → Prop) (found : Option RunRow) : Prop :=
  ∀ row, found = some row → row.id = runId ∧ P row.userId

theorem found_of_rows {found : Option RunRow}
    (given : ∀ row ∈ found.toList, row.id = runId ∧ P row.userId) : Found runId P found := by
  intro row here
  exact given row (by simp [here])

theorem decide_serves (owned : ∃ u, P u) (data : AgentRunReview) (row : RunRow) :
    Serves runId P (Found runId P) (Service.decide runId data row) := by
  rw [Service.decide]
  cases data.decision with
  | reject => exact meets_perform ⟨rfl, owned⟩ fun _ => found_of_rows
  | approve =>
      exact (load_serves "pending" row.pending).bind fun _ _ =>
        meets_perform ⟨rfl, owned⟩ fun _ => found_of_rows

theorem review_opens (userId : UUID) (data : AgentRunReview) :
    (Router.reviewRun userId runId data).Opens (.sql (.getRun runId userId)) (Returned runId P)
      (Call.For runId P) fun _ => True := by
  have opened : (Service.submitReview userId runId data).Opens (.sql (.getRun runId userId))
      (Returned runId P) (Call.For runId P) fun run => run.id = runId ∧ ∃ u, P u := by
    have asked : (sql (.getRun runId userId)).Opens (.sql (.getRun runId userId))
        (Returned runId P) (Call.For runId P) (Found runId P) :=
      opens_perform fun _ => found_of_rows
    refine asked.bind fun found mine => ?_
    cases found with
    | none => trivial
    | some row =>
        have owned : ∃ u, P u := ⟨_, (mine row rfl).2⟩
        dsimp only
        split
        · trivial
        · refine (decide_serves owned data row).bind fun updated theirs => ?_
          cases updated with
          | none => trivial
          | some row =>
              obtain ⟨id, owner⟩ := theirs row rfl
              exact (run_serves id owner).mono (fun _ call => call) fun run same => ⟨same, owned⟩
  refine opened.bind fun run ⟨same, owned⟩ => ?_
  cases data.decision with
  | approve =>
      refine Meets.bind (Q := fun _ => True) ?_ fun _ _ => trivial
      exact kiq_serves same owned
  | reject => trivial

theorem internal_opens : (Service.getRunInternal runId).Opens (.sql (.getRunInternal runId))
    (Returned runId P) (Call.For runId P) fun row => row.id = runId ∧ P row.userId := by
  have asked : (sql (.getRunInternal runId)).Opens (.sql (.getRunInternal runId))
      (Returned runId P) (Call.For runId P) (Found runId P) :=
    opens_perform fun _ => found_of_rows
  refine asked.bind fun found mine => ?_
  cases found with
  | none => trivial
  | some row => exact mine row rfl

theorem runAgent_opens (deps : Deps) :
    (runAgent deps runId).Opens (.sql (.getRunInternal runId)) (Returned runId P)
      (Call.For runId P) fun _ => True := by
  refine internal_opens.bind fun row ⟨_, owner⟩ => ?_
  have owned : ∃ u, P u := ⟨_, owner⟩
  refine Meets.bind (Q := fun _ => True) (meets_perform ⟨rfl, owned⟩ fun _ _ => trivial) fun _ _ => ?_
  let state := initialState row.topic row.userId runId
  have driven : ForRun runId P (drive deps deps.settings.reviewRequired runId
      deps.settings.recursionLimit .plan state state) := drive_forRun _ owner rfl
  refine (guarded_forRun owned driven).meets.bind fun state _ => ?_
  split
  · exact meets_perform ⟨rfl, owned⟩ fun _ _ => trivial
  · exact meets_perform ⟨rfl, owned⟩ fun _ _ => trivial

theorem loadParked_serves (owned : ∃ u, P u) :
    Serves runId P (fun _ => True) (Service.loadParked runId) := by
  refine Meets.bind (Q := fun _ => True) (meets_perform ⟨rfl, owned⟩ fun _ _ => trivial)
    fun found _ => ?_
  cases found with
  | none => trivial
  | some row =>
      exact (load_serves "pending" row.pending).bind fun _ _ =>
        (load_serves "result" row.result).bind fun _ _ =>
          (load_serves "source_urls" (some row.sourceUrls)).bind fun _ _ => trivial

theorem commitAgentRun_opens (deps : Deps) :
    (commitAgentRun deps runId).Opens (.sql (.getRunInternal runId)) (Returned runId P)
      (Call.For runId P) fun _ => True := by
  refine internal_opens.bind fun row ⟨_, owner⟩ => ?_
  have owned : ∃ u, P u := ⟨_, owner⟩
  refine (loadParked_serves owned).bind fun parked _ => ?_
  have committed : ForRun runId P (commitBody (restored row.topic row.userId runId parked)) :=
    commitBody_forRun owner rfl
  refine (guarded_forRun owned committed).meets.bind fun state _ => ?_
  exact meets_perform ⟨rfl, owned⟩ fun _ _ => trivial

/-- **Whatever starts on `agent_runs`, after its first call it serves one run and its owner.** -/
theorem body_opens (deps : Deps) {task : FleetTask} (about : task.Runs runId) :
    (task.body deps).Opens task.first (Returned runId P) (Call.For runId P) fun _ => True := by
  cases task with
  | create userId topic =>
      have inserted : (sql (.insertRun userId topic.val)).Opens (.sql (.insertRun userId topic.val))
          (Returned runId P) (Call.For runId P)
          fun row : RunRow => row.id = runId ∧ P row.userId :=
        opens_perform fun row given => given row List.mem_cons_self
      have created : (Service.createRun userId topic).Opens (.sql (.insertRun userId topic.val))
          (Returned runId P) (Call.For runId P) fun run => run.id = runId ∧ ∃ u, P u :=
        inserted.bind fun row ⟨id, owner⟩ =>
          (run_serves id owner).mono (fun _ call => call) fun _ same => ⟨same, _, owner⟩
      refine Opens.bind (Q := fun _ => True) ?_ fun _ _ => trivial
      refine created.bind fun run ⟨same, owned⟩ => ?_
      refine Meets.bind (Q := fun _ => True) ?_ fun _ _ => trivial
      exact kiq_serves same owned
  | get userId id =>
      cases about
      have asked : (sql (.getRun runId userId)).Opens (.sql (.getRun runId userId))
          (Returned runId P) (Call.For runId P) (Found runId P) :=
        opens_perform fun _ => found_of_rows
      refine Opens.bind (Q := fun _ => True) (asked.bind fun found mine => ?_) fun _ _ => trivial
      cases found with
      | none => trivial
      | some row =>
          obtain ⟨same, owner⟩ := mine row rfl
          exact (run_serves same owner).mono (fun _ call => call) fun _ _ => trivial
  | review userId id data =>
      cases about
      exact (review_opens userId data).bind fun _ _ => trivial
  | job job =>
      cases job with
      | runAgent id =>
          cases about
          exact runAgent_opens deps
      | commitAgentRun id =>
          cases about
          exact commitAgentRun_opens deps

end Intellivault.Agent
