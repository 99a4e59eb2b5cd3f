import Intellivault.Agent.Tasks

/-!
# What the nodes call

The research nodes only read the graph and never touch `agent_runs`; `commit` and `enrich`
also write to the graph and append to the record.  `drive_calls` puts the nodes together:
with a review pending, no call of the research graph writes to the knowledge graph.
-/

namespace Intellivault.Agent

open Lib Prog

/-! ## Kinds of calls -/

/-- A call of the graph service that writes. -/
def GraphCall.Writes : GraphCall → Prop
  | .createEntity _ _ _ _ _ | .attachSources _ _ _ | .createRelationship _ _
  | .setEntityEmbedding _ _ _ => True
  | _ => False

/-- The tenant a call of the graph service is made for. -/
def GraphCall.ownerId : GraphCall → UUID
  | .createEntity ownerId _ _ _ _ | .attachSources ownerId _ _ | .createRelationship ownerId _
  | .setEntityEmbedding ownerId _ _ | .searchEntitiesByVector ownerId _ _ | .listGraph ownerId
  | .listVisibleRelationshipsAmong ownerId _ => ownerId

/-- What the call creates, if anything, is valid and private. -/
def GraphCall.Private : GraphCall → Prop
  | .createEntity _ visibility name kind attributes => ∃ data : EntityInput,
      data.visibility = .priv ∧ visibility = data.visibility ∧ name = data.name.val ∧
        kind = data.kind.val ∧ attributes = Json.sortKeysObj data.attributes
  | .createRelationship _ data => data.visibility = .priv
  | _ => True

theorem GraphCall.Private.of_reads {c : GraphCall} (reads : ¬c.Writes) : c.Private := by
  cases c <;> first | trivial | exact absurd trivial reads

namespace Call

/-- A call that leaves the service and its stores: a model, a tool, the web. -/
def Outside : Call → Prop
  | .embed _ | .invoke _ | .ask _ _ | .tool _ _ | .guardUrl _ | .fetchText _ | .sleep _ => True
  | _ => False

/-- A call of a research node. -/
def Research : Call → Prop
  | .graph c => ¬c.Writes
  | .embed _ | .invoke _ | .ask _ _ | .tool _ _ | .guardUrl _ | .fetchText _ | .sleep _ => True
  | _ => False

/-- A call of `commit` or `enrich`. -/
def Commit : Call → Prop
  | .graph _ => True
  | .sql (.appendCommittedEntity _ _) | .sql (.appendCommittedRelationship _ _) => True
  | c => c.Research

/-- A call made under `_guarded`; with a review pending there are no writes to the graph and
no appends. -/
def Body (review : Bool) : Call → Prop
  | .sql (.recordNode _ _ _) | .stream | .finishOrder _ | .mirror _ => True
  | c => if review then c.Research else c.Commit

/-- A call of a research node of a run owned by `ownerId`. -/
def Reads (ownerId : UUID) : Call → Prop
  | .graph c => ¬c.Writes ∧ c.ownerId = ownerId
  | c => c.Outside

/-- A call of `commit` or `enrich` of the run. -/
def Records (ownerId runId : UUID) : Call → Prop
  | .graph c => c.ownerId = ownerId ∧ c.Private
  | .sql (.appendCommittedEntity id _) | .sql (.appendCommittedRelationship id _) => id = runId
  | c => c.Outside

theorem Outside.research {c : Call} (h : c.Outside) : c.Research := by
  cases c <;> trivial

theorem Outside.reads {c : Call} {ownerId : UUID} (h : c.Outside) : c.Reads ownerId := by
  cases c <;> first | exact h | exact h.elim

theorem Reads.research {c : Call} {ownerId : UUID} (h : c.Reads ownerId) : c.Research := by
  cases c with
  | graph c => exact h.1
  | _ => exact Outside.research h

theorem Reads.records {c : Call} {ownerId runId : UUID} (h : c.Reads ownerId) :
    c.Records ownerId runId := by
  cases c with
  | graph c => exact ⟨h.2, .of_reads h.1⟩
  | sql q => exact h.elim
  | _ => exact h

theorem Research.commit {c : Call} (h : c.Research) : c.Commit := by
  cases c <;> trivial

theorem Records.commit {c : Call} {ownerId runId : UUID} (h : c.Records ownerId runId) :
    c.Commit := by
  cases c with
  | sql q => cases q <;> trivial
  | graph c => trivial
  | _ => exact Research.commit (Outside.research h)

theorem Research.body {c : Call} {review : Bool} (h : c.Research) : c.Body review := by
  cases review <;> cases c <;> trivial

theorem Commit.body {c : Call} (h : c.Commit) : c.Body false := by
  cases c with
  | sql q => cases q <;> trivial
  | _ => trivial

end Call

/-! ## The rules -/

section Rules

variable {P : Call → Prop} {α : Type}

theorem calls_call {c : Call} (allowed : P c) : (call c).Calls P := calls_perform allowed

theorem calls_tryExcept {catches : Exn → Bool} {p : Coroutine α} {h : Exn → Coroutine α}
    (body : p.Calls P) (handler : ∀ x, (h x).Calls P) : (tryExcept catches p h).Calls P := by
  refine body.handle fun x => ?_
  split
  · exact handler x
  · trivial

theorem tryExcept_returns {Q : α → Prop} {catches : Exn → Bool} {p : Coroutine α}
    {h : Exn → Coroutine α} (body : p.Returns Q) (handler : ∀ x, (h x).Returns Q) :
    (tryExcept catches p h).Returns Q := by
  refine body.handle fun x => ?_
  split
  · exact handler x
  · trivial

theorem calls_returnException {p : Coroutine α} (body : p.Calls P) :
    (returnException p).Calls P :=
  calls_tryExcept (body.bind fun _ => trivial) fun _ => trivial

theorem calls_structured {schema : Schema} {messages : List Message}
    (allowed : ∀ ms, P (.ask schema ms)) : (structured schema messages).Calls P :=
  calls_tryExcept (calls_call (allowed _)) fun _ =>
    calls_tryExcept (calls_call (allowed _)) fun _ => trivial

end Rules

/-! ## The research nodes -/

section Research

variable (deps : Deps) (state : AgentState)

theorem planNode_calls : (planNode state).Calls Call.Outside :=
  (calls_structured fun _ => trivial).bind fun _ => trivial

theorem vectorSurvey_calls (limit : Nat) : (vectorSurvey state limit).Calls (Call.Reads state.ownerId) :=
  calls_tryExcept ((calls_call trivial).bind fun _ => calls_call ⟨id, rfl⟩) fun _ => trivial

theorem lexicalSurvey_calls (limit : Nat) :
    (lexicalSurvey deps state limit).Calls (Call.Reads state.ownerId) :=
  (calls_call ⟨id, rfl⟩).bind fun _ => trivial

theorem survey_calls (limit : Nat) : (survey deps state limit).Calls (Call.Reads state.ownerId) := by
  refine (vectorSurvey_calls state limit).bind fun hits => ?_
  split
  · exact (calls_call ⟨id, rfl⟩).bind fun _ => trivial
  · exact lexicalSurvey_calls deps state limit

theorem surveyGraphNode_calls : (surveyGraphNode deps state).Calls (Call.Reads state.ownerId) :=
  (survey_calls deps state _).bind fun _ => trivial

theorem searchHits_calls (limit : Nat) (hits : List SearchHit) (loop : SearchLoop) :
    (searchHits limit hits loop).Calls Call.Outside := by
  induction hits generalizing loop with
  | nil => trivial
  | cons hit rest ih =>
      rw [searchHits]
      split
      · exact ih loop
      · refine Calls.bind ?_ fun loop => ih loop
        exact calls_tryExcept ((calls_call trivial).bind fun _ => trivial) fun _ => trivial

theorem searchQueries_calls (queries : List String) (loop : SearchLoop) :
    (searchQueries deps queries loop).Calls Call.Outside := by
  induction queries generalizing loop with
  | nil => trivial
  | cons query rest ih =>
      rw [searchQueries]
      refine (calls_returnException (calls_call trivial)).bind fun raw => ?_
      cases raw with
      | error exc => exact ih _
      | ok raw => exact (searchHits_calls _ _ _).bind fun loop => ih loop

theorem searchNode_calls : (searchNode deps state).Calls Call.Outside := by
  unfold searchNode
  split
  · trivial
  · split
    · trivial
    · exact (searchQueries_calls deps _ _).bind fun _ => trivial

theorem broadenQueriesNode_calls : (broadenQueriesNode state).Calls Call.Outside :=
  calls_tryExcept ((calls_structured fun _ => trivial).bind fun _ => trivial) fun _ => trivial

theorem fetchAll_calls (hits : List SearchHit) (docs : List FetchedDoc) (skipped : List String) :
    (fetchAll hits docs skipped).Calls Call.Outside := by
  induction hits generalizing docs skipped with
  | nil => trivial
  | cons hit rest ih =>
      rw [fetchAll]
      refine (calls_returnException (calls_call trivial)).bind fun fetched => ?_
      cases fetched with
      | ok doc => exact ih _ _
      | error exc => exact ih _ _

theorem fetchNode_calls : (fetchNode state).Calls Call.Outside :=
  (fetchAll_calls _ _ _).bind fun _ => trivial

theorem analyzeOneNode_outside (topic : String) (doc : FetchedDoc) :
    (analyzeOneNode topic doc).Calls Call.Outside :=
  calls_tryExcept ((calls_call trivial).bind fun _ => trivial) fun _ => trivial

theorem analyzeOneNode_calls (topic : String) (doc : FetchedDoc) :
    (analyzeOneNode topic doc).Calls Call.Research :=
  (analyzeOneNode_outside topic doc).mono fun _ => Call.Outside.research

theorem synthesizeNode_calls : (synthesizeNode state).Calls Call.Outside := by
  unfold synthesizeNode
  split
  · trivial
  · exact (calls_call trivial).bind fun _ => trivial

theorem structureNode_calls : (structureNode deps state).Calls Call.Outside :=
  calls_tryExcept ((calls_structured fun _ => trivial).bind fun _ => trivial) fun _ => trivial

theorem critiqueNode_calls : (critiqueNode state).Calls Call.Outside := by
  unfold critiqueNode
  dsimp only
  split
  · trivial
  · refine Calls.bind ?_ fun verdict => ?_
    · exact calls_tryExcept (calls_structured fun _ => trivial) fun _ => trivial
    · split <;> trivial

theorem lookupArticle_calls (draft : DraftEntity) :
    (lookupArticle deps draft).Calls Call.Outside :=
  (calls_call trivial).bind fun _ => (calls_call trivial).bind fun _ =>
    (calls_call trivial).bind fun _ => trivial

theorem enrichOne_calls (drafts : List DraftEntity) (draft : DraftEntity)
    (skipped : List String) : (enrichOne deps drafts draft skipped).Calls Call.Outside :=
  calls_tryExcept ((lookupArticle_calls deps draft).bind fun _ => trivial) fun _ => trivial

theorem enrichAll_calls (drafts : List DraftEntity) (first : Bool) (rest : List DraftEntity)
    (skipped : List String) : (enrichAll deps drafts first rest skipped).Calls Call.Outside := by
  induction rest generalizing first skipped with
  | nil => trivial
  | cons draft rest ih =>
      have one := enrichOne_calls deps drafts draft skipped
      rw [enrichAll]
      split
      · exact (calls_call trivial).bind fun _ =>
          one.bind fun _ => (ih _ _).bind fun _ => trivial
      · exact one.bind fun _ => (ih _ _).bind fun _ => trivial

theorem lookupNode_calls : (lookupNode deps state).Calls Call.Outside := by
  unfold lookupNode
  dsimp only
  split
  · trivial
  · split
    · trivial
    · exact (enrichAll_calls deps _ _ _ _).bind fun _ => trivial

end Research

/-! ## `commit` and `enrich` -/

section Commit

variable (ownerId runId : UUID)

theorem commitEntity_calls (urls : List String) (draft : DraftEntity) (loop : EntityLoop) :
    (commitEntity ownerId runId urls draft loop).Calls (Call.Records ownerId runId) := by
  unfold commitEntity
  split
  · trivial
  · refine Calls.bind (calls_call ⟨rfl, _, rfl, rfl, rfl, rfl, rfl⟩) fun entity =>
      Calls.bind (calls_call rfl) fun _ => ?_
    refine Calls.bind ?_ fun skipped => Calls.bind ?_ fun skipped => trivial
    · split
      · exact calls_tryExcept (Calls.bind (calls_call ⟨rfl, trivial⟩) fun _ => trivial) fun _ => trivial
      · trivial
    · exact calls_tryExcept (Calls.bind (calls_call trivial) fun _ =>
        Calls.bind (calls_call ⟨rfl, trivial⟩) fun _ => trivial) fun _ => trivial

theorem commitEntities_calls (urls : List String) (drafts : List DraftEntity)
    (loop : EntityLoop) :
    (commitEntities ownerId runId urls drafts loop).Calls (Call.Records ownerId runId) := by
  induction drafts generalizing loop with
  | nil => trivial
  | cons draft rest ih => exact (commitEntity_calls ownerId runId urls draft loop).bind fun _ => ih _

theorem commitEdge_calls (fromId toId : UUID) (kind : Kind) (label : String) (loop : EdgeLoop) :
    (commitEdge ownerId runId fromId toId kind label loop).Calls (Call.Records ownerId runId) := by
  refine Calls.bind ?_ fun created => ?_
  · exact calls_tryExcept (Calls.bind (calls_call ⟨rfl, rfl⟩) fun _ => trivial) fun _ => trivial
  · cases created with
    | error exc => cases exc <;> trivial
    | ok rel => exact Calls.bind (calls_call rfl) fun _ => trivial

theorem commitRelationship_calls (idMap : IdMap) (edge : DraftRelationship) (loop : EdgeLoop) :
    (commitRelationship ownerId runId idMap edge loop).Calls (Call.Records ownerId runId) := by
  unfold commitRelationship
  split
  · exact commitEdge_calls ownerId runId _ _ _ _ _
  · trivial

theorem commitRelationships_calls (idMap : IdMap) (edges : List DraftRelationship)
    (loop : EdgeLoop) :
    (commitRelationships ownerId runId idMap edges loop).Calls (Call.Records ownerId runId) := by
  induction edges generalizing loop with
  | nil => trivial
  | cons edge rest ih =>
      exact (commitRelationship_calls ownerId runId idMap edge loop).bind fun _ => ih _

theorem commitNode_owned (state : AgentState) :
    (commitNode state).Calls (Call.Records state.ownerId state.runId) :=
  (commitEntities_calls _ _ _ _ _).bind fun _ =>
    (commitRelationships_calls _ _ _ _ _).bind fun _ => trivial

theorem commitNode_calls (state : AgentState) : (commitNode state).Calls Call.Commit :=
  (commitNode_owned state).mono fun _ => Call.Records.commit

theorem linksFor_reads (entity : DigestEntity) (ownIds : List UUID) :
    (linksFor ownerId entity ownIds).Calls (Call.Reads ownerId) := by
  refine Calls.bind ?_ fun near => ?_
  · exact calls_tryExcept ((calls_call trivial).bind fun _ => calls_call ⟨id, rfl⟩) fun _ => trivial
  · dsimp only
    split
    · trivial
    · exact calls_tryExcept ((calls_structured fun _ => trivial).bind fun _ => trivial)
        fun _ => trivial

theorem linksFor_calls (entity : DigestEntity) (ownIds : List UUID) :
    (linksFor ownerId entity ownIds).Calls Call.Research :=
  (linksFor_reads ownerId entity ownIds).mono fun _ => Call.Reads.research

theorem enrichLinks_calls (entity : DigestEntity) (links : List (String × Kind))
    (loop : EdgeLoop) :
    (enrichLinks ownerId runId entity links loop).Calls (Call.Records ownerId runId) := by
  induction links generalizing loop with
  | nil => trivial
  | cons link rest ih =>
      rw [enrichLinks]
      split
      · trivial
      · exact (commitEdge_calls ownerId runId _ _ _ _ _).bind fun _ => ih _

theorem enrichEntities_calls (ownIds : List UUID) (entities : List DigestEntity)
    (loop : EdgeLoop) :
    (enrichEntities ownerId runId ownIds entities loop).Calls (Call.Records ownerId runId) := by
  induction entities generalizing loop with
  | nil => trivial
  | cons entity rest ih =>
      have reads : (linksFor ownerId entity ownIds).Calls (Call.Records ownerId runId) :=
        (linksFor_reads ownerId entity ownIds).mono fun _ => Call.Reads.records
      exact reads.bind fun _ =>
        (enrichLinks_calls ownerId runId entity _ _).bind fun _ => ih _

theorem enrichNode_owned (state : AgentState) :
    (enrichNode state).Calls (Call.Records state.ownerId state.runId) := by
  unfold enrichNode
  split
  · trivial
  · exact (enrichEntities_calls _ _ _ _ _).bind fun _ => trivial

theorem enrichNode_calls (state : AgentState) : (enrichNode state).Calls Call.Commit :=
  (enrichNode_owned state).mono fun _ => Call.Records.commit

end Commit

/-! ## The bodies of the tasks -/

section Bodies

variable (deps : Deps) (runId : UUID)

/-- The nodes that write. -/
def Node.Commits (node : Node) : Prop := node = .commit ∨ node = .enrich

theorem research_reads {node : Node} (research : ¬node.Commits) (state : AgentState) :
    (runNode deps node state).Calls (Call.Reads state.ownerId) := by
  have reads : ∀ {p : Coroutine Update}, p.Calls Call.Outside → p.Calls (Call.Reads state.ownerId) :=
    fun outside => outside.mono fun _ => Call.Outside.reads
  cases node with
  | plan => exact reads (planNode_calls state)
  | surveyGraph => exact surveyGraphNode_calls deps state
  | search => exact reads (searchNode_calls deps state)
  | broadenQueries => exact reads (broadenQueriesNode_calls state)
  | fetch => exact reads (fetchNode_calls state)
  | analyzeOne => trivial
  | synthesize => exact reads (synthesizeNode_calls state)
  | struct => exact reads (structureNode_calls deps state)
  | critique => exact reads (critiqueNode_calls state)
  | lookup => exact reads (lookupNode_calls deps state)
  | commit => exact absurd (.inl rfl) research
  | enrich => exact absurd (.inr rfl) research

theorem research_calls {node : Node} (research : ¬node.Commits) (state : AgentState) :
    (runNode deps node state).Calls Call.Research :=
  (research_reads deps research state).mono fun _ => Call.Reads.research

theorem commit_calls {node : Node} (commits : node.Commits) (state : AgentState) :
    (runNode deps node state).Calls Call.Commit := by
  rcases commits with rfl | rfl
  · exact commitNode_calls state
  · exact enrichNode_calls state

/-- A node works for the owner of its run. -/
theorem runNode_owned (node : Node) (state : AgentState) :
    (runNode deps node state).Calls (Call.Records state.ownerId state.runId) := by
  by_cases commits : node.Commits
  · rcases commits with rfl | rfl
    · exact commitNode_owned state
    · exact enrichNode_owned state
  · exact (research_reads deps commits state).mono fun _ => Call.Reads.records

theorem runNode_calls {node : Node} {review : Bool} (gate : review = true → ¬node.Commits)
    (state : AgentState) : (runNode deps node state).Calls (Call.Body review) := by
  by_cases commits : node.Commits
  · cases review with
    | true => exact absurd commits (gate rfl)
    | false => exact (commit_calls deps commits state).mono fun _ allowed => allowed.body
  · exact (research_calls deps commits state).mono fun _ allowed => allowed.body

theorem mirror_calls {review : Bool} (update : Update) :
    (mirror update).Calls (Call.Body review) := ⟨trivial, fun _ => trivial⟩

theorem finishOrder_calls {review : Bool} (n : Nat) :
    (finishOrder n).Calls (Call.Body review) := by
  refine ⟨trivial, fun r => ?_⟩
  cases r <;> trivial

theorem yielded_calls {review : Bool} (node : Node) (state : AgentState) (update : Update) :
    (yielded runId node state update).Calls (Call.Body review) := by
  refine (calls_call trivial).attempt.bind fun r => ?_
  cases r with
  | error exc => trivial
  | ok _ =>
      exact (mirror_calls update).bind fun _ => (calls_call trivial).attempt.bind fun _ => trivial

theorem oneNode_calls {node : Node} {review : Bool} (gate : review = true → ¬node.Commits)
    (graphState state : AgentState) :
    (oneNode deps runId node graphState state).Calls (Call.Body review) := by
  refine (runNode_calls deps gate graphState).attempt.bind fun r => ?_
  cases r with
  | error exc => trivial
  | ok update => exact (yielded_calls runId node state update).bind fun _ => trivial

theorem branches_calls {review : Bool} (topic : String) (docs : List (Nat × FetchedDoc))
    (state : AgentState) (updates : List (Nat × Update)) :
    (branches topic runId docs state updates).Calls (Call.Body review) := by
  induction docs generalizing state updates with
  | nil => trivial
  | cons doc rest ih =>
      have analyze : (analyzeOneNode topic doc.2).Calls (Call.Body review) :=
        (analyzeOneNode_calls topic doc.2).mono fun _ allowed => allowed.body
      refine analyze.attempt.bind fun r => ?_
      cases r with
      | error exc => trivial
      | ok update =>
          refine (yielded_calls runId .analyzeOne state update).bind fun (state, recorded) => ?_
          cases recorded with
          | error exc => trivial
          | ok _ => exact ih _ _

theorem superstep_calls {node : Node} {review : Bool} (gate : review = true → ¬node.Commits)
    (graphState state : AgentState) :
    (superstep deps runId node graphState state).Calls (Call.Body review) := by
  unfold superstep
  split
  · exact (finishOrder_calls _).bind fun _ => branches_calls runId _ _ _ _
  · exact oneNode_calls deps runId gate graphState state

/-- With a review pending the graph never gets to a node that writes. -/
theorem next_not_commits {node node' : Node} {state : AgentState} (gate : ¬node.Commits)
    (step : next deps true node state = some node') : ¬node'.Commits := by
  intro writes
  cases node <;> simp only [next, routeAfterSearch, fanOutAnalyze, routeAfterCritique] at step
  all_goals grind [Node.Commits]

theorem drive_calls {review : Bool} (steps : Nat) {node : Node}
    (gate : review = true → ¬node.Commits) (graphState state : AgentState) :
    (drive deps review runId steps node graphState state).Calls (Call.Body review) := by
  induction steps generalizing node graphState state with
  | zero => trivial
  | succ steps ih =>
      refine (superstep_calls deps runId gate graphState state).bind fun (state, outcome) => ?_
      cases outcome with
      | error exc => trivial
      | ok updates =>
          dsimp only
          split
          · trivial
          · rename_i node' step
            refine ih (fun pending => ?_) _ _
            subst pending
            exact next_not_commits deps (gate rfl) step

theorem commitBody_calls (state : AgentState) : (commitBody state).Calls (Call.Body false) := by
  have commit : ∀ {p : Coroutine Update}, p.Calls Call.Commit → p.Calls (Call.Body false) :=
    fun h => h.mono fun _ allowed => allowed.body
  refine (commit (commitNode_calls state)).attempt.bind fun r => ?_
  cases r with
  | error exc => trivial
  | ok update =>
      refine (mirror_calls update).bind fun _ => ?_
      refine (commit (enrichNode_calls _)).attempt.bind fun r => ?_
      cases r with
      | error exc => trivial
      | ok update => exact (mirror_calls update).bind fun _ => trivial

/-! ### They do not raise

The failures of the nodes come back as the outcome. -/

theorem yielded_safe (node : Node) (state : AgentState) (update : Update) :
    (yielded runId node state update).Safe := by
  refine (safe_attempt _).bind fun r => ?_
  cases r with
  | error exc => trivial
  | ok _ => exact fun _ => (safe_attempt _).bind fun _ => trivial

theorem branches_safe (topic : String) (docs : List (Nat × FetchedDoc)) (state : AgentState)
    (updates : List (Nat × Update)) : (branches topic runId docs state updates).Safe := by
  induction docs generalizing state updates with
  | nil => trivial
  | cons doc rest ih =>
      refine (safe_attempt _).bind fun r => ?_
      cases r with
      | error exc => trivial
      | ok update =>
          refine (yielded_safe runId .analyzeOne state update).bind fun (state, recorded) => ?_
          cases recorded with
          | error exc => trivial
          | ok _ => exact ih _ _

theorem superstep_safe (node : Node) (graphState state : AgentState) :
    (superstep deps runId node graphState state).Safe := by
  unfold superstep
  split
  · refine Safe.bind (fun r => ?_) fun _ => branches_safe runId _ _ _ _
    cases r <;> trivial
  · refine (safe_attempt _).bind fun r => ?_
    cases r with
    | error exc => trivial
    | ok update => exact (yielded_safe runId node state update).bind fun _ => trivial

theorem drive_safe (review : Bool) (steps : Nat) (node : Node) (graphState state : AgentState) :
    (drive deps review runId steps node graphState state).Safe := by
  induction steps generalizing node graphState state with
  | zero => trivial
  | succ steps ih =>
      refine (superstep_safe deps runId node graphState state).bind fun (state, outcome) => ?_
      cases outcome with
      | error exc => trivial
      | ok updates =>
          dsimp only
          split
          · trivial
          · exact ih _ _ _

theorem commitBody_safe (state : AgentState) : (commitBody state).Safe := by
  refine (safe_attempt _).bind fun r => ?_
  cases r with
  | error exc => trivial
  | ok update =>
      refine fun _ => (safe_attempt _).bind fun r => ?_
      cases r with
      | error exc => trivial
      | ok update => exact fun _ => trivial

end Bodies

end Intellivault.Agent
