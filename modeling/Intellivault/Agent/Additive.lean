import Intellivault.Graph.Additive
import Intellivault.Agent.Body

/-!
# A run adds, privately

Whatever the model, the tools, the search results, the stored drafts and the reviewer say,
the writes of a run only ever add private records of its owner: `_resolve_ref`, `existing_id`
and the link targets choose the two ends of an edge and nothing else.  `Keeps` is proved of
each node; `Runs.holds` turns it into a statement about every prefix of the writes.
-/

namespace Intellivault.Agent

open Lib Prog

/-! ## The graph behind the calls -/

/-- What a call of the graph service does to the graph.  The reads may answer anything. -/
def GraphCall.Effect : (c : GraphCall) → Graph → Except Exn c.Answer → Graph → Prop
  | .createEntity ownerId visibility name kind attributes, g, r, g' =>
      ∃ now id, (∀ e ∈ g.entities, e.id ≠ id) ∧
        let made := Cypher.createEntity g now id ownerId visibility name kind attributes
        r = .ok (Service.entity made.2 []) ∧ g' = made.1
  | .attachSources ownerId entityId urls, g, r, g' =>
      ∃ clock, r = .ok () ∧ g' = Service.attachSources g clock ownerId entityId urls
  | .createRelationship ownerId data, g, r, g' =>
      ∃ clock id, (∀ s ∈ g.relationships, s.id ≠ id) ∧
        let made := Service.createRelationship g clock ownerId id data
        r = made.2.mapError .http ∧ g' = made.1
  | .setEntityEmbedding ownerId entityId embedding, g, r, g' =>
      let made := Service.setEntityEmbedding g ownerId entityId embedding
      r = made.2.mapError .http ∧ g' = made.1
  | .searchEntitiesByVector _ _ _, g, _, g' | .listGraph _, g, _, g'
  | .listVisibleRelationshipsAmong _ _, g, _, g' => g' = g

/-- The surroundings of a run owned by `u`: a call of the graph service is answered, or raises
before or after it took effect; the row of the run names its owner; everything else may
answer or raise anything. -/
def around (u : UUID) : Handler Call Call.Answer Exn Graph
  | .graph c, g, r, g' => c.Effect g r g' ∨ (∃ exc, r = .error exc) ∧ (g' = g ∨ ∃ r', c.Effect g r' g')
  | .sql (.getRunInternal _), g, r, g' => g' = g ∧ ∀ row : RunRow, r = .ok (some row) → row.userId = u
  | _, g, _, g' => g' = g

variable {u : UUID} {g₀ g g' : Graph} {α β : Type}

theorem around_same {c : Call} {r : Except Exn c.Answer} (reads : ∀ gc, c = .graph gc → ¬gc.Writes)
    (answer : around u c g r g') : g' = g := by
  cases c with
  | graph gc =>
      have same : ∀ {r}, gc.Effect g r g' → g' = g := by
        intro r effect
        have := reads gc rfl
        cases gc <;> first | exact effect | exact absurd trivial this
      rcases answer with effect | ⟨_, kept | ⟨_, effect⟩⟩
      · exact same effect
      · exact kept
      · exact same effect
  | sql q => cases q <;> first | exact answer | exact answer.1
  | _ => exact answer

/-! ## Programs that only add -/

/-- From any graph that only added, the program only adds. -/
def Keeps (u : UUID) (g₀ : Graph) (p : Coroutine α) : Prop :=
  ∀ g, Extends u g₀ g → p.Holds (around u) (Extends u g₀) (fun _ g => Extends u g₀ g) g

theorem keeps_ret (a : α) : Keeps u g₀ (.ret a : Coroutine α) := fun _ h => h

theorem keeps_raise (x : Exn) : Keeps u g₀ (.raise x : Coroutine α) := fun _ h => h

theorem Keeps.bind {p : Coroutine α} {f : α → Coroutine β} (first : Keeps u g₀ p)
    (rest : ∀ a, Keeps u g₀ (f a)) : Keeps u g₀ (p >>= f) := by
  intro g h
  refine holds_bind.mpr ((first g h).mono fun r g' h' => ?_)
  cases r with
  | ok a => exact rest a g' h'
  | error x => exact h'

theorem Keeps.attempt {p : Coroutine α} (body : Keeps u g₀ p) : Keeps u g₀ p.attempt :=
  fun g h => holds_attempt.mpr (body g h)

theorem Keeps.tryExcept {catches : Exn → Bool} {p : Coroutine α} {handler : Exn → Coroutine α}
    (body : Keeps u g₀ p) (caught : ∀ x, Keeps u g₀ (handler x)) :
    Keeps u g₀ (tryExcept catches p handler) := by
  intro g h
  refine holds_handle.mpr ((body g h).mono fun r g' h' => ?_)
  cases r with
  | ok a => exact h'
  | error x =>
      dsimp only
      split
      · exact caught x g' h'
      · exact h'

/-- A program that does not write to the graph. -/
theorem keeps_of_calls {P : Call → Prop} {p : Coroutine α} (calls : p.Calls P)
    (reads : ∀ c, P c → ∀ gc, c = .graph gc → ¬gc.Writes) : Keeps u g₀ p := by
  intro g h
  refine calls.holds (fun c s r s' allowed inv answer => ?_) h
  rw [around_same (reads c allowed) answer]
  exact inv

theorem keeps_of_research {p : Coroutine α} (calls : p.Calls Call.Research) : Keeps u g₀ p := by
  refine keeps_of_calls calls fun c allowed gc same => ?_
  subst same
  exact allowed

/-- A call that is not one of the graph service. -/
theorem keeps_call {c : Call} (other : ∀ gc, c ≠ .graph gc := by nofun) : Keeps u g₀ (call c) := by
  intro g h
  refine holds_perform.mpr fun r g' answer => ?_
  rw [around_same (fun gc same => absurd same (other gc)) answer]
  exact ⟨h, h⟩

/-! ## The writes -/

/-- A write that runs an operation that only adds, or raises. -/
theorem written (h : Extends u g₀ g) {c : GraphCall} {r : Except Exn c.Answer}
    (runs : ∀ r' g', c.Effect g r' g' →
      ∃ (op : Op) (clock : Clock), op.Adds g₀ ∧ op.Fresh g ∧ g' = (op.run g clock u).1)
    (answer : around u (.graph c) g r g') : Extends u g₀ g' := by
  have kept : ∀ {r'}, c.Effect g r' g' → Extends u g₀ g' := by
    intro r' effect
    obtain ⟨op, clock, adds, fresh, rfl⟩ := runs r' g' effect
    exact h.run adds fresh clock
  rcases answer with effect | ⟨_, rfl | ⟨_, effect⟩⟩
  · exact kept effect
  · exact h
  · exact kept effect

/-- What follows a `create_entity` may rely on the id being new. -/
theorem keeps_createEntity {data : EntityInput} {f : Entity → Coroutine β}
    (priv : data.visibility = .priv) (rest : ∀ e, ¬g₀.Has e.id → Keeps u g₀ (f e)) :
    Keeps u g₀ (GraphService.createEntity u data >>= f) := by
  intro g h
  refine holds_bind.mpr (holds_perform.mpr fun r g' answer => ?_)
  have added : Extends u g₀ g' := by
    refine written h (fun r' g' effect => ?_) answer
    obtain ⟨now, id, fresh, -, rfl⟩ := effect
    exact ⟨.createEntity id data, fun _ => now, priv, fresh, rfl⟩
  refine ⟨added, ?_⟩
  cases r with
  | error x => exact added
  | ok e =>
      rcases answer with ⟨now, id, fresh, same, -⟩ | ⟨⟨_, raised⟩, _⟩
      · injection same with same
        have born : e.id = id := by
          rw [same]
          rfl
        exact rest e (by rw [born]; exact h.not_has fresh) g' added
      · cases raised

theorem keeps_attachSources {id : UUID} (new : ¬g₀.Has id) (urls : List String) :
    Keeps u g₀ (GraphService.attachSources u id urls) := by
  intro g h
  refine holds_perform.mpr fun r g' answer => ?_
  have added : Extends u g₀ g' := by
    refine written h (fun r' g' effect => ?_) answer
    obtain ⟨clock, -, rfl⟩ := effect
    exact ⟨.attachSources id urls, clock, new, trivial, rfl⟩
  exact ⟨added, added⟩

theorem keeps_setEntityEmbedding {id : UUID} (new : ¬g₀.Has id) (embedding : Embedding) :
    Keeps u g₀ (GraphService.setEntityEmbedding u id embedding) := by
  intro g h
  refine holds_perform.mpr fun r g' answer => ?_
  have added : Extends u g₀ g' := by
    refine written h (fun r' g' effect => ?_) answer
    exact ⟨.setEntityEmbedding id embedding, fun _ => 0, new, trivial, effect.2⟩
  exact ⟨added, added⟩

theorem keeps_createRelationship {data : RelationshipInput} (priv : data.visibility = .priv) :
    Keeps u g₀ (GraphService.createRelationship u data) := by
  intro g h
  refine holds_perform.mpr fun r g' answer => ?_
  have added : Extends u g₀ g' := by
    refine written h (fun r' g' effect => ?_) answer
    obtain ⟨clock, id, fresh, -, rfl⟩ := effect
    exact ⟨.createRelationship id data, clock, priv, fresh, rfl⟩
  exact ⟨added, added⟩

/-! ## The nodes that write -/

section Commit

variable (runId : UUID)

theorem embedEntity_keeps {id : UUID} (new : ¬g₀.Has id) (draft : DraftEntity)
    (skipped : List String) : Keeps u g₀ (embedEntity u id draft skipped) := by
  refine Keeps.tryExcept ?_ fun _ => keeps_ret _
  exact Keeps.bind keeps_call fun vector =>
    (keeps_setEntityEmbedding new vector).bind fun _ => keeps_ret _

theorem attachSources_keeps {id : UUID} (new : ¬g₀.Has id) (urls skipped : List String) :
    Keeps u g₀ (attachSources u id urls skipped) :=
  Keeps.tryExcept ((keeps_attachSources new urls).bind fun _ => keeps_ret _) fun _ => keeps_ret _

theorem commitEntity_keeps (urls : List String) (draft : DraftEntity) (loop : EntityLoop) :
    Keeps u g₀ (commitEntity u runId urls draft loop) := by
  unfold commitEntity
  split
  · exact keeps_ret _
  · refine keeps_createEntity rfl fun entity new => Keeps.bind keeps_call fun _ => ?_
    refine Keeps.bind ?_ fun skipped =>
      (embedEntity_keeps new draft skipped).bind fun _ => keeps_ret _
    split
    · exact attachSources_keeps new urls _
    · exact keeps_ret _

theorem commitEntities_keeps (urls : List String) (drafts : List DraftEntity)
    (loop : EntityLoop) : Keeps u g₀ (commitEntities u runId urls drafts loop) := by
  induction drafts generalizing loop with
  | nil => exact keeps_ret _
  | cons draft rest ih => exact (commitEntity_keeps runId urls draft loop).bind fun _ => ih _

theorem commitEdge_keeps (fromId toId : UUID) (kind : Kind) (label : String) (loop : EdgeLoop) :
    Keeps u g₀ (commitEdge u runId fromId toId kind label loop) := by
  refine Keeps.bind ?_ fun created => ?_
  · exact Keeps.tryExcept ((keeps_createRelationship rfl).bind fun _ => keeps_ret _)
      fun _ => keeps_ret _
  · cases created with
    | error exc => cases exc <;> first | exact keeps_ret _ | exact keeps_raise _
    | ok rel => exact Keeps.bind keeps_call fun _ => keeps_ret _

theorem commitRelationships_keeps (idMap : IdMap) (edges : List DraftRelationship)
    (loop : EdgeLoop) : Keeps u g₀ (commitRelationships u runId idMap edges loop) := by
  induction edges generalizing loop with
  | nil => exact keeps_ret _
  | cons edge rest ih =>
      refine Keeps.bind ?_ fun _ => ih _
      unfold commitRelationship
      split
      · exact commitEdge_keeps runId _ _ _ _ _
      · exact keeps_ret _

theorem commitNode_keeps {state : AgentState} (owner : state.ownerId = u) :
    Keeps u g₀ (commitNode state) := by
  subst owner
  exact (commitEntities_keeps _ _ _ _).bind fun _ =>
    (commitRelationships_keeps _ _ _ _).bind fun _ => keeps_ret _

theorem enrichLinks_keeps (entity : DigestEntity) (links : List (String × Kind))
    (loop : EdgeLoop) : Keeps u g₀ (enrichLinks u runId entity links loop) := by
  induction links generalizing loop with
  | nil => exact keeps_ret _
  | cons link rest ih =>
      rw [enrichLinks]
      split
      · exact keeps_raise _
      · exact (commitEdge_keeps runId _ _ _ _ _).bind fun _ => ih _

theorem enrichEntities_keeps (ownIds : List UUID) (entities : List DigestEntity)
    (loop : EdgeLoop) : Keeps u g₀ (enrichEntities u runId ownIds entities loop) := by
  induction entities generalizing loop with
  | nil => exact keeps_ret _
  | cons entity rest ih =>
      exact (keeps_of_research (linksFor_calls u entity ownIds)).bind fun _ =>
        (enrichLinks_keeps runId entity _ _).bind fun _ => ih _

theorem enrichNode_keeps {state : AgentState} (owner : state.ownerId = u) :
    Keeps u g₀ (enrichNode state) := by
  subst owner
  unfold enrichNode
  split
  · exact keeps_ret _
  · exact (enrichEntities_keeps _ _ _ _).bind fun _ => keeps_ret _

end Commit

/-! ## The tasks -/

section Tasks

variable (deps : Deps) (runId : UUID)

theorem runNode_keeps (node : Node) {state : AgentState} (owner : state.ownerId = u) :
    Keeps u g₀ (runNode deps node state) := by
  by_cases commits : node.Commits
  · rcases commits with rfl | rfl
    · exact commitNode_keeps owner
    · exact enrichNode_keeps owner
  · exact keeps_of_research (research_calls deps commits state)

theorem body_keeps {p : Coroutine α} (calls : p.Calls (Call.Body true)) : Keeps u g₀ p := by
  refine keeps_of_calls calls fun c allowed gc same => ?_
  subst same
  exact allowed

theorem superstep_keeps (node : Node) {graphState state : AgentState}
    (owner : graphState.ownerId = u) :
    Keeps u g₀ (superstep deps runId node graphState state) := by
  unfold superstep
  split
  · exact body_keeps ((finishOrder_calls _).bind fun _ => branches_calls runId _ _ _ _)
  · refine (runNode_keeps deps node owner).attempt.bind fun r => ?_
    cases r with
    | error exc => exact keeps_ret _
    | ok update =>
        exact (body_keeps (yielded_calls runId node state update)).bind fun _ => keeps_ret _

theorem merge_ownerId (updates : List Update) (state : AgentState) :
    (updates.foldl AgentState.merge state).ownerId = state.ownerId := by
  induction updates generalizing state with
  | nil => rfl
  | cons update rest ih => exact ih _

theorem drive_keeps (review : Bool) (steps : Nat) (node : Node) {graphState state : AgentState}
    (owner : graphState.ownerId = u) :
    Keeps u g₀ (drive deps review runId steps node graphState state) := by
  induction steps generalizing node graphState state with
  | zero => exact keeps_ret _
  | succ steps ih =>
      refine (superstep_keeps deps runId node owner).bind fun (state, outcome) => ?_
      cases outcome with
      | error exc => exact keeps_ret _
      | ok updates =>
          dsimp only
          split
          · exact keeps_ret _
          · exact ih _ ((merge_ownerId updates graphState).trans owner)

theorem guarded_keeps {limit : String} {body : Coroutine (AgentState × Except Exn Unit)}
    (keeps : Keeps u g₀ body) : Keeps u g₀ (guarded runId limit body) := by
  refine keeps.bind fun (state, outcome) => ?_
  dsimp only
  split
  · exact keeps_ret _
  · exact Keeps.bind keeps_call fun _ => keeps_raise _

theorem keeps_getRunInternal {f : RunRow → Coroutine β}
    (rest : ∀ row, row.userId = u → Keeps u g₀ (f row)) :
    Keeps u g₀ (Service.getRunInternal runId >>= f) := by
  intro g h
  refine holds_bind.mpr (holds_bind.mpr (holds_perform.mpr fun r g' answer => ?_))
  obtain ⟨rfl, owner⟩ := answer
  refine ⟨h, ?_⟩
  match r, owner with
  | .error x, _ => exact h
  | .ok none, _ => exact h
  | .ok (some row), owner => exact rest row (owner row rfl) g' h

theorem runAgent_keeps : Keeps u g₀ (runAgent deps runId) := by
  refine keeps_getRunInternal runId fun row owner => Keeps.bind keeps_call fun _ => ?_
  refine Keeps.bind ?_ fun state => ?_
  · exact guarded_keeps runId (drive_keeps deps runId _ _ _ owner)
  · split <;> exact keeps_call

theorem load_keeps (column : String) (raw : Option α) : Keeps u g₀ (Service.load column raw) := by
  cases raw with
  | none => exact keeps_ret _
  | some value => exact Keeps.bind keeps_call fun _ => keeps_ret _

theorem loadParked_keeps : Keeps u g₀ (Service.loadParked runId) := by
  refine Keeps.bind keeps_call fun found => ?_
  cases found with
  | none => exact keeps_ret _
  | some row =>
      exact (load_keeps _ _).bind fun _ => (load_keeps _ _).bind fun _ =>
        (load_keeps _ _).bind fun _ => keeps_ret _

theorem commitBody_keeps {state : AgentState} (owner : state.ownerId = u) :
    Keeps u g₀ (commitBody state) := by
  refine (commitNode_keeps owner).attempt.bind fun r => ?_
  cases r with
  | error exc => exact keeps_ret _
  | ok update =>
      refine (body_keeps (mirror_calls update)).bind fun _ => ?_
      have owner' : (state.update update).ownerId = u := owner
      refine (enrichNode_keeps owner').attempt.bind fun r => ?_
      cases r with
      | error exc => exact keeps_ret _
      | ok update => exact (body_keeps (mirror_calls update)).bind fun _ => keeps_ret _

theorem commitAgentRun_keeps : Keeps u g₀ (commitAgentRun deps runId) := by
  refine keeps_getRunInternal runId fun row owner => (loadParked_keeps runId).bind fun parked => ?_
  exact (guarded_keeps runId (commitBody_keeps owner)).bind fun _ => keeps_call

end Tasks

/-! ## Every prefix of a run -/

/-- **A run is additive and private.**  At any point of the research phase, and then at any
point of the commit phase if there is one, the graph is the one before the run with private
records of the run's owner added, and everybody else is shown what they were shown before. -/
theorem run_additive (reachable : Reachable g₀) (deps deps' : Deps) (runId : UUID) {g₁ : Graph}
    {tr₁ tr₂ : List (Event Call Call.Answer Exn)} {left₁ left₂ : Coroutine Unit}
    (research : Runs (around u) (runAgent deps runId) g₀ tr₁ left₁ g₁)
    (commit : Runs (around u) (commitAgentRun deps' runId) g₁ tr₂ left₂ g) :
    (∃ new, g.entities = g₀.entities ++ new ∧ ∀ e ∈ new, e.ownerId = u ∧ e.visibility = .priv) ∧
    (∃ new, g.relationships = g₀.relationships ++ new ∧
      ∀ r ∈ new, r.ownerId = u ∧ r.visibility = .priv ∧
        (g.Sees u r.fromId ∧ g.Sees u r.toId) ∧ (g.Owns u r.fromId ∨ g.Owns u r.toId)) ∧
    (∀ e ∈ g₀.entities, ∀ url, g.Cites e.id url ↔ g₀.Cites e.id url) ∧
    ∀ v, v ≠ u → Service.listGraph g v = Service.listGraph g₀ v := by
  have before := Extends.refl (u := u) reachable.inv.wf
  have between := (research.holds before (runAgent_keeps deps runId g₀ before)).1
  have after := (commit.holds between (commitAgentRun_keeps deps' runId g₁ between)).1
  refine ⟨after.entities, after.relationships, fun e he url => ?_, fun v other => after.listGraph other⟩
  rw [← Cypher.mem_sourceUrls, after.sourceUrls ⟨e, he, rfl⟩, Cypher.mem_sourceUrls]

section Example

/-- A parked draft of user 1: one note, with an edge to user 2's public note. -/
def parkedNote : StructuredResult :=
  { entities := [{ tempId := "t1", name := .of "draft" (Eq.refl true), kind := .of "text" (Eq.refl true) }]
    relationships :=
      [{ fromRef := "t1", toRef := "00000000-0000-0000-0000-000000000014"
         kind := .of "cites" (Eq.refl true) }] }

def parkedRow : RunRow :=
  { id := 7, userId := 1, topic := "notes", status := .running, pending := some parkedNote
    sourceUrls := ["https://example.com"], createdAt := 0, updatedAt := 0 }

def parkedDeps : Deps :=
  { settings :=
      { runTimeout := "600", reviewRequired := true, searchRetries := 2, critiqueRetries := 2
        maxSources := 6, lookupMaxEntities := 10, lookupPaceSeconds := 0, surveyMaxEntities := 40
        recursionLimit := 25 }
    searchTool := false, wikipediaTools := []
    py := { lower := id, loads := fun _ => none, strOf := fun _ => "" } }

/-- The stored row is read, the graph answers with the ids 40 and 41, and all else fails. -/
def parkedAnswers : (c : Call) → Graph → Except Exn c.Answer × Graph
  | .sql (.getRunInternal _), g | .sql (.getPending _), g => (.ok (some parkedRow), g)
  | .sql (.appendCommittedEntity _ _), g | .sql (.appendCommittedRelationship _ _), g
  | .load _, g => (.ok (), g)
  | .graph (.createEntity ownerId visibility name kind attributes), g =>
      if ∃ e ∈ g.entities, e.id = 40 then (.error .timeout, g)
      else
        let (g, e) := Cypher.createEntity g 5 40 ownerId visibility name kind attributes
        (.ok (Service.entity e []), g)
  | .graph (.attachSources ownerId entityId urls), g =>
      (.ok (), Service.attachSources g (fun _ => 5) ownerId entityId urls)
  | .graph (.createRelationship ownerId data), g =>
      if ∃ r ∈ g.relationships, r.id = 41 then (.error .timeout, g)
      else
        let (g, r) := Service.createRelationship g (fun _ => 5) ownerId 41 data
        (r.mapError .http, g)
  | _, g => (.error .timeout, g)

theorem parkedAnswers_allowed (c : Call) (g : Graph) :
    around 1 c g (parkedAnswers c g).1 (parkedAnswers c g).2 := by
  have failing : ∀ gc : GraphCall, around 1 (.graph gc) g (.error .timeout) g :=
    fun gc => .inr ⟨⟨_, rfl⟩, .inl rfl⟩
  cases c with
  | graph gc =>
      cases gc with
      | createEntity ownerId visibility name kind attributes =>
          rw [parkedAnswers]
          split
          · exact failing _
          · rename_i free
            exact .inl ⟨5, 40, fun e he same => free ⟨e, he, same⟩, rfl, rfl⟩
      | attachSources ownerId entityId urls => exact .inl ⟨fun _ => 5, rfl, rfl⟩
      | createRelationship ownerId data =>
          rw [parkedAnswers]
          split
          · exact failing _
          · rename_i free
            exact .inl ⟨fun _ => 5, 41, fun r hr same => free ⟨r, hr, same⟩, rfl, rfl⟩
      | _ => exact failing _
  | sql q =>
      cases q with
      | getRunInternal runId =>
          refine ⟨rfl, fun row same => ?_⟩
          cases same
          rfl
      | _ => rfl
  | _ => rfl

/-- The graph after the commit phase. -/
def afterParkedNote : Graph :=
  ((commitAgentRun parkedDeps 7).run parkedAnswers Graph.twoUsers).2.2

/-- The note and its edge are stored, and user 2 does not see them. -/
theorem run_additive_parkedNote :
    (afterParkedNote.entities.length = 3 ∧ afterParkedNote.relationships.length = 2) ∧
    Service.listGraph afterParkedNote 2 = Service.listGraph .twoUsers 2 := by
  refine ⟨by decide, ?_⟩
  have commit := runs_run parkedAnswers_allowed (commitAgentRun parkedDeps 7) Graph.twoUsers
  exact (run_additive reachable_twoUsers parkedDeps parkedDeps 7 .refl commit).2.2.2 2 (by decide)

end Example

end Intellivault.Agent
