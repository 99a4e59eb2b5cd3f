import Intellivault.Lib.History
import Intellivault.Lib.Logs
import Intellivault.Agent.Tasks
import Intellivault.Agent.Body

/-!
# The supersteps of the research graph

An execution of `build_graph`'s graph, apart from what the task does in between: a
superstep runs the node that is due on LangGraph's state, merges what it returned and
follows the edge, or ends the execution with what the node raised.  Nothing is assumed of
the model and the tools, so a node may come to whatever some answers lead it to
(`Prog.Ends`).

`came` says what each superstep can do to the part of the state that the routes look at.
-/

namespace Intellivault.Agent

open Lib Prog

/-! ## Executions -/

/-- The node that is due, and the state it runs on; no node when the execution is over. -/
structure Config where
  node : Option Node
  state : AgentState

def Config.start (topic : String) (ownerId runId : UUID) : Config :=
  ⟨some .plan, initialState topic ownerId runId⟩

/-- What a superstep can come to: the updates to merge, or an exception.  `analyze_one` runs
once for each document. -/
def StepEnds (deps : Deps) (node : Node) (state : AgentState) :
    Except Exn (List Update) → Prop
  | .ok updates =>
      if node = .analyzeOne then
        List.Forall₂ (fun doc update => (analyzeOneNode state.topic doc).Ends (.ok update))
          state.documents updates
      else ∃ update, updates = [update] ∧ (runNode deps node state).Ends (.ok update)
  | .error exc =>
      if node = .analyzeOne then
        ∃ doc ∈ state.documents, (analyzeOneNode state.topic doc).Ends (.error exc)
      else (runNode deps node state).Ends (.error exc)

inductive Superstep (deps : Deps) (review : Bool) :
    Config → Except Exn (List Update) → Config → Prop
  | returned {node : Node} {state : AgentState} {updates : List Update} :
      StepEnds deps node state (.ok updates) →
      Superstep deps review ⟨some node, state⟩ (.ok updates)
        ⟨next deps review node (updates.foldl AgentState.merge state),
          updates.foldl AgentState.merge state⟩
  | raised {node : Node} {state : AgentState} {exc : Exn} :
      StepEnds deps node state (.error exc) →
      Superstep deps review ⟨some node, state⟩ (.error exc) ⟨none, state⟩

abbrev Ran := Transition Config (Except Exn (List Update))

/-- How often the node was due. -/
def ran (node : Node) (tr : List Ran) : Nat := tr.countP fun x => x.source.node = some node

/-- The documents `analyze_one` was run for. -/
def analyzed (tr : List Ran) : List FetchedDoc :=
  tr.flatMap fun x => if x.source.node = some .analyzeOne then x.source.state.documents else []

/-- How often `critique` sent the draft back. -/
def bounces (tr : List Ran) : Nat :=
  tr.countP fun x => x.source.node = some .critique ∧ x.target.node = some .struct

section

variable {node : Node} {tr : List Ran} {x : Ran}

@[simp] theorem ran_nil : ran node [] = 0 := rfl

theorem ran_snoc : ran node (tr ++ [x]) = ran node tr + if x.source.node = some node then 1 else 0 := by
  simp [ran, List.countP_append, List.countP_singleton]

@[simp] theorem analyzed_nil : analyzed [] = [] := rfl

theorem analyzed_snoc : analyzed (tr ++ [x]) =
    analyzed tr ++ if x.source.node = some .analyzeOne then x.source.state.documents else [] := by
  simp [analyzed]

@[simp] theorem bounces_nil : bounces [] = 0 := rfl

theorem bounces_snoc : bounces (tr ++ [x]) =
    bounces tr +
      if x.source.node = some .critique ∧ x.target.node = some .struct then 1 else 0 := by
  simp [bounces, List.countP_append, List.countP_singleton]

end

/-! ## What the nodes return -/

/-- The update leaves the counters, the hits, the documents and the verdict alone. -/
structure Update.Quiet (u : Update) : Prop where
  searchHits : u.searchHits = none
  searchAttempts : u.searchAttempts = none
  documents : u.documents = none
  critique : u.critique = none
  critiqueAttempts : u.critiqueAttempts = none

theorem Update.quiet_empty : Update.Quiet {} := ⟨rfl, rfl, rfl, rfl, rfl⟩

section

variable {deps : Deps} {state : AgentState}

theorem planNode_quiet : (planNode state).Returns Update.Quiet :=
  Prog.Returns.bind fun _ => ⟨rfl, rfl, rfl, rfl, rfl⟩

theorem surveyGraphNode_quiet : (surveyGraphNode deps state).Returns Update.Quiet :=
  Prog.Returns.bind fun _ => ⟨rfl, rfl, rfl, rfl, rfl⟩

theorem analyzeOneNode_quiet {topic : String} {doc : FetchedDoc} :
    (analyzeOneNode topic doc).Returns Update.Quiet :=
  tryExcept_returns (Prog.Returns.bind fun _ => ⟨rfl, rfl, rfl, rfl, rfl⟩)
    fun _ => ⟨rfl, rfl, rfl, rfl, rfl⟩

theorem synthesizeNode_quiet : (synthesizeNode state).Returns Update.Quiet := by
  unfold synthesizeNode
  split
  · exact ⟨rfl, rfl, rfl, rfl, rfl⟩
  · exact Prog.Returns.bind fun _ => ⟨rfl, rfl, rfl, rfl, rfl⟩

theorem structureNode_quiet : (structureNode deps state).Returns Update.Quiet :=
  tryExcept_returns (Prog.Returns.bind fun _ => ⟨rfl, rfl, rfl, rfl, rfl⟩)
    fun _ => ⟨rfl, rfl, rfl, rfl, rfl⟩

theorem lookupNode_quiet : (lookupNode deps state).Returns Update.Quiet := by
  unfold lookupNode
  dsimp only
  split
  · exact Update.quiet_empty
  · split
    · exact ⟨rfl, rfl, rfl, rfl, rfl⟩
    · exact Prog.Returns.bind fun _ => ⟨rfl, rfl, rfl, rfl, rfl⟩

theorem commitNode_quiet : (commitNode state).Returns Update.Quiet :=
  Prog.Returns.bind fun _ => Prog.Returns.bind fun _ => ⟨rfl, rfl, rfl, rfl, rfl⟩

theorem enrichNode_quiet : (enrichNode state).Returns Update.Quiet := by
  unfold enrichNode
  split
  · exact Update.quiet_empty
  · exact Prog.Returns.bind fun _ => ⟨rfl, rfl, rfl, rfl, rfl⟩

/-- The nodes that keep no count. -/
def Node.quiet : Node → Bool
  | .search | .broadenQueries | .fetch | .critique => false
  | _ => true

theorem runNode_quiet {node : Node} (quiet : node.quiet = true) :
    (runNode deps node state).Returns Update.Quiet := by
  cases node with
  | plan => exact planNode_quiet
  | surveyGraph => exact surveyGraphNode_quiet
  | analyzeOne => exact Update.quiet_empty
  | synthesize => exact synthesizeNode_quiet
  | struct => exact structureNode_quiet
  | lookup => exact lookupNode_quiet
  | commit => exact commitNode_quiet
  | enrich => exact enrichNode_quiet
  | search | broadenQueries | fetch | critique => cases quiet

/-- `search` finds at most `agent_max_sources` hits; without its tool it uses the retries up. -/
structure Update.OfSearch (deps : Deps) (state : AgentState) (u : Update) : Prop where
  hits : ∃ hits, u.searchHits = some hits ∧ hits.length ≤ deps.settings.maxSources
  attempts : state.plan.isSome = true →
    u.searchAttempts = if deps.searchTool then none else some deps.settings.searchRetries
  documents : u.documents = none
  critique : u.critique = none
  critiqueAttempts : u.critiqueAttempts = none

theorem searchHits_bounded {limit : Nat} {hits : List SearchHit} {loop : SearchLoop}
    (before : loop.hits.length ≤ limit) :
    (searchHits limit hits loop).Returns fun loop' => loop'.hits.length ≤ limit := by
  induction hits generalizing loop with
  | nil => exact before
  | cons hit rest ih =>
      rw [searchHits]
      split
      · exact ih before
      · rename_i new
        have room : loop.hits.length + 1 ≤ limit := by
          have := (not_or.mp new).2
          omega
        refine Prog.Returns.then (P := fun loop' => loop'.hits.length ≤ limit) ?_ fun _ => ih
        apply tryExcept_returns
        · apply Prog.Returns.bind
          intro _
          change (loop.hits ++ [hit]).length ≤ limit
          rw [List.length_append]
          exact room
        · exact fun _ => before

theorem searchQueries_bounded {queries : List String} {loop : SearchLoop}
    (before : loop.hits.length ≤ deps.settings.maxSources) :
    (searchQueries deps queries loop).Returns fun loop' =>
      loop'.hits.length ≤ deps.settings.maxSources := by
  induction queries generalizing loop with
  | nil => exact before
  | cons query rest ih =>
      rw [searchQueries]
      apply Prog.Returns.bind
      intro raw
      cases raw with
      | error exc => exact ih before
      | ok raw => exact (searchHits_bounded before).then fun _ => ih

theorem searchNode_returns : (searchNode deps state).Returns (Update.OfSearch deps state) := by
  unfold searchNode
  split
  · rename_i none
    refine ⟨⟨[], rfl, Nat.zero_le _⟩, fun planned => ?_, rfl, rfl, rfl⟩
    rw [none] at planned
    cases planned
  · split
    · rename_i noTool
      refine ⟨⟨[], rfl, Nat.zero_le _⟩, fun _ => ?_, rfl, rfl, rfl⟩
      rw [if_neg noTool]
    · rename_i tool
      refine (searchQueries_bounded (Nat.zero_le _)).then fun loop bounded => ?_
      refine ⟨⟨loop.hits, rfl, bounded⟩, fun _ => ?_, rfl, rfl, rfl⟩
      rw [if_pos (not_not.mp tool)]

/-- `broaden_queries` counts one more attempt, on both of its exits. -/
theorem broadenQueriesNode_returns : (broadenQueriesNode state).Returns fun u =>
    u.searchAttempts = some (state.searchAttempts + 1) ∧ u.searchHits = none ∧
      u.documents = none ∧ u.critique = none ∧ u.critiqueAttempts = none :=
  tryExcept_returns (Prog.Returns.bind fun _ => ⟨rfl, rfl, rfl, rfl, rfl⟩)
    fun _ => ⟨rfl, rfl, rfl, rfl, rfl⟩

theorem fetchAll_bounded {hits : List SearchHit} {docs : List FetchedDoc} {skipped : List String} :
    (fetchAll hits docs skipped).Returns fun r => r.1.length ≤ docs.length + hits.length := by
  induction hits generalizing docs skipped with
  | nil => exact Nat.le_refl _
  | cons hit rest ih =>
      rw [fetchAll]
      apply Prog.Returns.bind
      intro fetched
      have longer : ∀ (docs' : List FetchedDoc) (skipped' : List String),
          docs'.length ≤ docs.length + 1 → (fetchAll rest docs' skipped').Returns fun r =>
            r.1.length ≤ docs.length + (hit :: rest).length := by
        intro docs' skipped' bound
        refine ih.mono fun r few => ?_
        rw [List.length_cons]
        omega
      cases fetched with
      | ok doc => exact longer _ _ (by simp)
      | error exc => exact longer _ _ (by simp)

/-- `fetch` keeps one document a hit at most. -/
theorem fetchNode_returns : (fetchNode state).Returns fun u =>
    (∃ docs, u.documents = some docs ∧ docs.length ≤ state.searchHits.length) ∧
      u.searchHits = none ∧ u.searchAttempts = none ∧ u.critique = none ∧
        u.critiqueAttempts = none := by
  refine fetchAll_bounded.then fun r few => ?_
  refine ⟨⟨r.1, rfl, ?_⟩, rfl, rfl, rfl, rfl⟩
  simpa using few

/-- The reply `critique_node` goes by. -/
def critiqueVerdict (state : AgentState) : Coroutine Critique :=
  tryExcept Exn.isStructuredOutput
    (structured .critique [.system "critique_system",
      .human ("Topic: " ++ state.topic ++ "\n\nSources:\n" ++ formatDocuments state.documents ++
        "\n\nDraft:\n" ++ formatDrafts (state.structured.getD {}))])
    fun _ => return { verdict := .ok }

/-- `critique` answered `revise`, on a draft that is not empty. -/
def Revised (state : AgentState) (u : Update) : Prop :=
  (state.structured.getD {}).entities ≠ [] ∧
    ∃ verdict, (critiqueVerdict state).Ends (.ok verdict) ∧ verdict.verdict = .revise ∧
      u.critique = some (some verdict.notes)

/-- `critique` counts its attempt on every exit, and leaves notes just for a `revise`. -/
theorem critiqueNode_returns {u : Update} (ends : (critiqueNode state).Ends (.ok u)) :
    u.critiqueAttempts = some (state.critiqueAttempts + 1) ∧
      (u.critique = some none ∨ Revised state u) ∧ u.searchHits = none ∧
        u.searchAttempts = none ∧ u.documents = none := by
  unfold critiqueNode at ends
  dsimp only at ends
  split at ends
  · cases ends
    exact ⟨rfl, Or.inl rfl, rfl, rfl, rfl⟩
  · rename_i drafted
    obtain ⟨verdict, answered, ends⟩ := Prog.ends_bind.mp ends
    split at ends
    · rename_i revise
      cases ends
      exact ⟨rfl, Or.inr ⟨drafted, verdict, answered, revise, rfl⟩, rfl, rfl, rfl⟩
    · cases ends
      exact ⟨rfl, Or.inl rfl, rfl, rfl, rfl⟩

end

/-! ## Merging -/

section

variable {s : AgentState} {u : Update}

@[simp] theorem merge_searchHits : (s.merge u).searchHits = u.searchHits.getD s.searchHits := rfl

@[simp] theorem merge_searchAttempts :
    (s.merge u).searchAttempts = u.searchAttempts.getD s.searchAttempts := rfl

@[simp] theorem merge_documents : (s.merge u).documents = u.documents.getD s.documents := rfl

@[simp] theorem merge_critique : (s.merge u).critique = u.critique.getD s.critique := rfl

@[simp] theorem merge_critiqueAttempts :
    (s.merge u).critiqueAttempts = u.critiqueAttempts.getD s.critiqueAttempts := rfl

theorem merge_planned (planned : s.plan.isSome = true) : (s.merge u).plan.isSome = true := by
  change (u.plan <|> s.plan).isSome = true
  cases u.plan with
  | none => exact planned
  | some plan => rfl

end

/-- What a node's superstep can do to the state, as far as the routes and counts go. -/
structure Came (deps : Deps) (node : Node) (s s' : AgentState) : Prop where
  plan : s.plan.isSome = true ∨ node = .plan → s'.plan.isSome = true
  searchAttempts : s'.searchAttempts =
    if node = .search then
      if deps.searchTool then s.searchAttempts else deps.settings.searchRetries
    else if node = .broadenQueries then s.searchAttempts + 1 else s.searchAttempts
  searchHits : node = .search → s'.searchHits.length ≤ deps.settings.maxSources
  documents : if node = .fetch then s'.documents.length ≤ s.searchHits.length
    else s'.documents = s.documents
  critiqueAttempts : s'.critiqueAttempts =
    if node = .critique then s.critiqueAttempts + 1 else s.critiqueAttempts

section

variable {deps : Deps} {node : Node} {s : AgentState} {updates : List Update}

theorem Came.of_quiet {u : Update} (quiet : u.Quiet) (silent : node.quiet = true)
    (plan : node = .plan → u.plan.isSome = true) : Came deps node s (s.merge u) := by
  have notSearch : node ≠ .search := by rintro rfl; cases silent
  have notBroaden : node ≠ .broadenQueries := by rintro rfl; cases silent
  have notFetch : node ≠ .fetch := by rintro rfl; cases silent
  have notCritique : node ≠ .critique := by rintro rfl; cases silent
  constructor
  · rintro (already | isPlan)
    · exact merge_planned already
    · change (u.plan <|> s.plan).isSome = true
      obtain ⟨plan, set⟩ := Option.isSome_iff_exists.mp (plan isPlan)
      rw [set]
      rfl
  · simp [quiet.searchAttempts, notSearch, notBroaden]
  · exact fun search => absurd search notSearch
  · simp [quiet.documents, notFetch]
  · simp [quiet.critiqueAttempts, notCritique]

theorem planNode_plans {state : AgentState} : (planNode state).Returns fun u => u.plan.isSome = true :=
  Prog.Returns.bind fun _ => rfl

/-- The branches of the fan-out only add notes. -/
theorem came_branches {topic : String} {docs : List FetchedDoc}
    (ends : List.Forall₂ (fun doc update =>
      (analyzeOneNode topic doc).Ends (.ok update)) docs updates) :
    Came deps .analyzeOne s (updates.foldl AgentState.merge s) := by
  induction ends generalizing s with
  | nil => exact ⟨by rintro (already | ⟨⟨⟩⟩); exact already, rfl, nofun, rfl, rfl⟩
  | @cons doc update docs updates ends _ ih =>
      have quiet : update.Quiet := analyzeOneNode_quiet.of_ends ends
      have one : Came deps .analyzeOne s (s.merge update) := .of_quiet quiet rfl nofun
      have rest : Came deps .analyzeOne (s.merge update) _ := ih
      constructor
      · rintro (already | ⟨⟨⟩⟩)
        exact rest.plan (Or.inl (one.plan (Or.inl already)))
      · exact rest.searchAttempts.trans one.searchAttempts
      · nofun
      · exact rest.documents.trans one.documents
      · exact rest.critiqueAttempts.trans one.critiqueAttempts

/-- **What a superstep can do.** -/
theorem came (planned : node = .search → s.plan.isSome = true)
    (ends : StepEnds deps node s (.ok updates)) :
    Came deps node s (updates.foldl AgentState.merge s) := by
  simp only [StepEnds] at ends
  split at ends
  · rename_i branches
    subst branches
    exact came_branches ends
  · obtain ⟨u, rfl, ends⟩ := ends
    change Came deps node s (s.merge u)
    have keeps : node ≠ .plan → s.plan.isSome = true ∨ node = .plan →
        (s.merge u).plan.isSome = true := fun other already =>
      merge_planned (already.resolve_right other)
    cases node with
    | search =>
        obtain ⟨⟨hits, set, few⟩, attempts, documents, -, critiqueAttempts⟩ :=
          searchNode_returns.of_ends ends
        refine ⟨keeps nofun, ?_, fun _ => ?_, ?_, ?_⟩
        · rw [merge_searchAttempts, attempts (planned rfl), if_pos rfl]
          cases deps.searchTool <;> rfl
        · simpa [set] using few
        · simp [documents]
        · simp [critiqueAttempts]
    | broadenQueries =>
        obtain ⟨attempts, -, documents, -, critiqueAttempts⟩ :=
          broadenQueriesNode_returns.of_ends ends
        refine ⟨keeps nofun, ?_, nofun, ?_, ?_⟩
        · simp [attempts]
        · simp [documents]
        · simp [critiqueAttempts]
    | fetch =>
        obtain ⟨⟨docs, set, few⟩, -, attempts, -, critiqueAttempts⟩ := fetchNode_returns.of_ends ends
        refine ⟨keeps nofun, ?_, nofun, ?_, ?_⟩
        · simp [attempts]
        · simpa [set] using few
        · simp [critiqueAttempts]
    | critique =>
        obtain ⟨attempts, -, -, searchAttempts, documents⟩ := critiqueNode_returns ends
        refine ⟨keeps nofun, ?_, nofun, ?_, ?_⟩
        · simp [searchAttempts]
        · simp [documents]
        · simp [attempts]
    | plan =>
        exact .of_quiet (planNode_quiet.of_ends ends) rfl fun _ => planNode_plans.of_ends ends
    | surveyGraph | analyzeOne | synthesize | struct | lookup | commit | enrich =>
        exact .of_quiet ((runNode_quiet rfl).of_ends ends) rfl nofun

end

/-! ## Along `_drive` -/

/-- What each step that goes well carries on, from the calls so far, the node that is due and the
two states, is there when `_drive` has come to the end of the graph. -/
theorem drive_rule {deps : Deps} {review : Bool} {runId : UUID}
    {I : CallLog → Node → AgentState → AgentState → Prop} {D : CallLog → AgentState → Prop}
    (step : ∀ past node graphState state, I past node graphState state →
      (superstep deps runId node graphState state).Logs (fun _ => True) fun log r =>
        ∀ state' updates, r = .ok (state', .ok updates) →
          match next deps review node (updates.foldl AgentState.merge graphState) with
          | none => D (past ++ log) state'
          | some node' => I (past ++ log) node' (updates.foldl AgentState.merge graphState) state')
    (steps : Nat) {past : CallLog} {node : Node} {graphState state : AgentState}
    (start : I past node graphState state) :
    (drive deps review runId steps node graphState state).Logs (fun _ => True) fun log r =>
      ∀ state', r = .ok (state', .ok ()) → D (past ++ log) state' := by
  induction steps generalizing past node graphState state with
  | zero => rintro state' ⟨⟩
  | succ steps ih =>
      refine logs_bind.mpr ((step past node graphState state start).mono fun log r went => ?_)
      cases r with
      | error exc => exact fun _ => of_error_eq_ok
      | ok p =>
          obtain ⟨state₁, outcome⟩ := p
          cases outcome with
          | error exc => rintro state' ⟨⟩
          | ok updates =>
              have carried := went state₁ updates rfl
              dsimp only
              cases edge : next deps review node (updates.foldl AgentState.merge graphState) with
              | none =>
                  rw [edge] at carried
                  rintro _ ⟨⟩
                  rwa [List.append_nil]
              | some node' =>
                  rw [edge] at carried
                  refine (ih carried).mono fun log' r done state' same => ?_
                  rw [← List.append_assoc]
                  exact done state' same

/-- `_commit_agent_run` takes the same two steps as the end of the graph does: each node is run,
and its update mirrored. -/
theorem commitBody_rule {state : AgentState} {C : CallLog → Except Exn Update → Prop}
    {E : Update → CallLog → Except Exn Update → Prop}
    (commit : (commitNode state).Logs (fun _ => True) C)
    (enrich : ∀ u, (enrichNode (state.update u)).Logs (fun _ => True) (E u)) :
    (commitBody state).Logs (fun _ => True) fun log r => ∀ state', r = .ok (state', .ok ()) →
      ∃ u u' log₁ log₂ m₁ m₂,
        log = log₁ ++ ⟨.mirror u, m₁⟩ :: (log₂ ++ [⟨.mirror u', m₂⟩]) ∧ C log₁ (.ok u) ∧
          E u log₂ (.ok u') ∧ state' = (state.update u).update u' := by
  refine logs_bind.mpr (logs_attempt.mpr (commit.mono fun log₁ r committed => ?_))
  cases r with
  | error exc => rintro state' ⟨⟩
  | ok u =>
      refine logs_bind.mpr fun m₁ _ => ?_
      refine logs_bind.mpr (logs_attempt.mpr ((enrich u).mono fun log₂ r enriched => ?_))
      cases r with
      | error exc => rintro state' ⟨⟩
      | ok u' =>
          refine logs_bind.mpr fun m₂ _ => ?_
          rintro state' ⟨⟩
          exact ⟨u, u', log₁, log₂, m₁, m₂, rfl, committed, enriched, rfl⟩

end Intellivault.Agent
