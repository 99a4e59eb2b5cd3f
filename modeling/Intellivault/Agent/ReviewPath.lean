import Intellivault.Lib.Tandem
import Intellivault.Agent.Body
import Intellivault.Agent.Database

/-!
# The review path and the direct path

A research outcome can be committed at once, or parked, approved and committed by a second
task that rebuilds the state from three `jsonb` columns.  `SameWork` is what the rebuilt
state shares with the original; `commit` and `enrich` read no more than that, so the two
paths make the same calls of the graph service, the embedder and the chat model, and leave
the same outcome on the row.
-/

namespace Intellivault.Agent

open Lib Prog

/-! ## The surroundings -/

/-- What answers the calls: the graph service, the embedder, the models and the tools, with
whatever they remember, and what the database draws. -/
structure Surroundings (σ : Type) where
  jsonb : Attributes → Attributes
  newId : σ → UUID
  now : σ → Time
  answer : (c : Call) → σ → Except Exn c.Answer × σ

/-- The statements succeed on the table, the broker takes the jobs, what was stored loads;
all other calls are up to the surroundings. -/
def Surroundings.respond {σ : Type} (env : Surroundings σ) :
    (c : Call) → Table × σ → Except Exn c.Answer × (Table × σ)
  | .sql q, w =>
      (.ok (q.exec env.jsonb (env.newId w.2) (env.now w.2) w.1).2,
        ((q.exec env.jsonb (env.newId w.2) (env.now w.2) w.1).1, w.2))
  | .load _, w | .parse _, w | .kiq _, w | .stream, w | .mirror _, w => (.ok (), w)
  | c, w => ((env.answer c w.2).1, (w.1, (env.answer c w.2).2))

/-- The calls of the graph service, the embedder, the chat model and the tools. -/
def Call.outward : Call → Bool
  | .graph _ | .embed _ | .invoke _ | .ask _ _ | .tool _ _ | .guardUrl _ | .fetchText _
  | .sleep _ => true
  | _ => false

/-! ## The two paths -/

/-- `_run_agent` without review, from the `commit` node on. -/
def directPath (deps : Deps) (steps : Nat) (state : AgentState) : Coroutine Unit := do
  let final ← guarded state.runId deps.settings.runTimeout
    (drive deps false state.runId steps .commit state state)
  finishSucceeded state.runId final

/-- Parking the state, the owner's review, and the commit task. -/
def reviewPath (deps : Deps) (review : AgentRunReview) (state : AgentState) : Coroutine Unit := do
  let _ ← park state.runId state
  let _ ← Router.reviewRun state.ownerId state.runId review
  commitAgentRun deps state.runId

/-- The state with the fields of its drafts replaced that the review overrides. -/
def AgentState.overridden (review : AgentRunReview) (state : AgentState) : AgentState :=
  if review.entities = none ∧ review.relationships = none then state
  else { state with structured := some (Service.edited (state.structured.getD {}) review) }

/-! ## Drafts that agree up to key order -/

/-- A draft stored and loaded again. -/
structure SameDraft (d d' : DraftEntity) : Prop where
  tempId : d.tempId = d'.tempId
  name : d.name = d'.name
  kind : d.kind = d'.kind
  attributes : Json.SameFields d.attributes d'.attributes
  existingId : d.existingId = d'.existingId

structure SameDrafts (r r' : StructuredResult) : Prop where
  entities : List.Forall₂ SameDraft r.entities r'.entities
  relationships : r.relationships = r'.relationships

theorem SameDraft.refl (d : DraftEntity) : SameDraft d d := ⟨rfl, rfl, rfl, rfl, rfl⟩

theorem SameDrafts.refl (r : StructuredResult) : SameDrafts r r :=
  ⟨List.forall₂_same.mpr fun d _ => .refl d, rfl⟩

/-- Storing is faithful when it keeps the fields of every object up to their order. -/
theorem SameDrafts.stored {jsonb : Attributes → Attributes}
    (faithful : ∀ fs, Json.SameFields (jsonb fs) fs) {r r' : StructuredResult}
    (same : SameDrafts r r') : SameDrafts r (r'.stored jsonb) := by
  refine ⟨?_, same.relationships⟩
  refine List.forall₂_map_right_iff.mpr (same.entities.imp fun d d' h => ?_)
  exact ⟨h.tempId, h.name, h.kind, h.attributes.trans (faithful _).symm, h.existingId⟩

theorem SameDrafts.edited {r r' : StructuredResult} (same : SameDrafts r r')
    (review : AgentRunReview) :
    SameDrafts (Service.edited r review) (Service.edited r' review) := by
  refine ⟨?_, ?_⟩
  · simp only [Service.edited]
    cases review.entities with
    | none => exact same.entities
    | some entities => exact (SameDrafts.refl ⟨entities, []⟩).entities
  · simp only [Service.edited, same.relationships]

theorem sortKeysObj_eq_nil {fs : List (String × Json)} : Json.sortKeysObj fs = [] ↔ fs = [] := by
  cases fs with
  | nil => simp [Json.sortKeysObj]
  | cons f fs =>
      have inserted : ∀ k v gs, Json.insertField k v gs ≠ [] := by
        intro k v gs
        cases gs with
        | nil => simp [Json.insertField]
        | cons g gs =>
            rw [Json.insertField]
            split <;> simp
      simpa [Json.sortKeysObj] using inserted _ _ _

theorem SameDraft.embedText {d d' : DraftEntity} (same : SameDraft d d') :
    embedText d = embedText d' := by
  have fields : Json.sortKeysObj d.attributes = Json.sortKeysObj d'.attributes := same.attributes
  have empty : d.attributes = [] ↔ d'.attributes = [] := by
    rw [← sortKeysObj_eq_nil, fields, sortKeysObj_eq_nil]
  simp only [Agent.embedText, same.name, same.kind, fields, ne_eq, empty]

/-- The statement of `create_entity` gets its attributes with sorted keys. -/
theorem SameDraft.createEntity {d d' : DraftEntity} (same : SameDraft d d') (ownerId : UUID)
    (visibility : Visibility) :
    GraphService.createEntity ownerId
        { name := d.name, kind := d.kind, attributes := d.attributes, visibility } =
      GraphService.createEntity ownerId
        { name := d'.name, kind := d'.kind, attributes := d'.attributes, visibility } := by
  have fields : Json.sortKeysObj d.attributes = Json.sortKeysObj d'.attributes := same.attributes
  rw [same.name, same.kind, GraphService.createEntity, fields]
  rfl

theorem SameDraft.commitEntity {d d' : DraftEntity} (same : SameDraft d d')
    (ownerId runId : UUID) (urls : List String) (loop : EntityLoop) :
    commitEntity ownerId runId urls d loop = commitEntity ownerId runId urls d' loop := by
  rw [Agent.commitEntity, same.createEntity]
  simp only [Agent.commitEntity, embedEntity, same.embedText, same.tempId, same.name,
    same.existingId]

theorem commitEntities_same {ds ds' : List DraftEntity} (same : List.Forall₂ SameDraft ds ds')
    (ownerId runId : UUID) (urls : List String) (loop : EntityLoop) :
    commitEntities ownerId runId urls ds loop = commitEntities ownerId runId urls ds' loop := by
  induction same generalizing loop with
  | nil => rfl
  | cons first _ ih => simp only [commitEntities, first.commitEntity, ih]

/-! ## States that agree on the work left -/

/-- What `commit`, `enrich` and `_result` read of the state. -/
structure SameWork (s s' : AgentState) : Prop where
  ownerId : s.ownerId = s'.ownerId
  runId : s.runId = s'.runId
  drafts : SameDrafts (s.structured.getD {}) (s'.structured.getD {})
  urls : s.documents.map (·.url) = s'.documents.map (·.url)
  analysis : s.analysis.getD "" = s'.analysis.getD ""
  skipped : s.skipped = s'.skipped
  entityIds : s.committedEntityIds = s'.committedEntityIds
  relationshipIds : s.committedRelationshipIds = s'.committedRelationshipIds
  entities : s.committedEntities = s'.committedEntities

namespace SameWork

variable {s s' : AgentState}

/-- The same update keeps two states in agreement. -/
theorem update (same : SameWork s s') (u : Update) : SameWork (s.update u) (s'.update u) where
  ownerId := same.ownerId
  runId := same.runId
  drafts := by
    simp only [AgentState.update]
    cases u.structured with
    | none => exact same.drafts
    | some drafts => exact .refl drafts
  urls := by
    simp only [AgentState.update]
    cases u.documents with
    | none => exact same.urls
    | some documents => rfl
  analysis := by
    simp only [AgentState.update]
    cases u.analysis with
    | none => exact same.analysis
    | some analysis => rfl
  skipped := by simp only [AgentState.update, same.skipped]
  entityIds := by simp only [AgentState.update, same.entityIds]
  relationshipIds := by simp only [AgentState.update, same.relationshipIds]
  entities := by simp only [AgentState.update, same.entities]

theorem commitNode (same : SameWork s s') : commitNode s = commitNode s' := by
  simp only [Agent.commitNode, same.ownerId, same.runId, same.urls, same.entityIds,
    same.relationshipIds, same.skipped, same.drafts.relationships,
    commitEntities_same same.drafts.entities]

theorem enrichNode (same : SameWork s s') : enrichNode s = enrichNode s' := by
  simp only [Agent.enrichNode, same.ownerId, same.runId, same.entityIds, same.relationshipIds,
    same.skipped, same.entities]

theorem result (same : SameWork s s') : result s = result s' := by
  simp only [Agent.result, same.analysis, same.entityIds, same.relationshipIds, same.skipped]

end SameWork

section Paths

variable {σ : Type} {env : Surroundings σ} {deps : Deps}

/-! ## The nodes in tandem -/

/-- Two tables with the row of the run, behind the same surroundings. -/
def Beside (runId : UUID) (w w' : Table × σ) : Prop :=
  w.1.map RunRow.id = some runId ∧ w'.1.map RunRow.id = some runId ∧ w.2 = w'.2

/-- Both programs, run in their worlds, make the same calls outward, and `R` relates how they
end. -/
abbrev InTandem {α β : Type} (env : Surroundings σ)
    (R : Except Exn α → Table × σ → Except Exn β → Table × σ → Prop) (p : Coroutine α)
    (w : Table × σ) (q : Coroutine β) (w' : Table × σ) : Prop :=
  Tandem env.respond Call.outward R p w q w'

theorem Beside.symm {runId : UUID} {w w' : Table × σ} (beside : Beside runId w w') :
    Beside runId w' w := ⟨beside.2.1, beside.1, beside.2.2.symm⟩

theorem Beside.sql {runId : UUID} {w w' : Table × σ} (beside : Beside runId w w') (q : Sql)
    (update : q.runId ≠ none) : Beside runId (env.respond (.sql q) w).2 w' :=
  ⟨(Sql.exec_id q update).trans beside.1, beside.2.1, beside.2.2⟩

theorem Beside.sqlBoth {runId : UUID} {w w' : Table × σ} (beside : Beside runId w w') (q : Sql)
    (update : q.runId ≠ none) :
    Beside runId (env.respond (.sql q) w).2 (env.respond (.sql q) w').2 :=
  ((beside.sql q update).symm.sql q update).symm

theorem respond_alike {runId : UUID} {c : Call} {w w' : Table × σ} (commit : c.Commit)
    (beside : Beside runId w w') :
    (env.respond c w).1 = (env.respond c w').1 ∧
      Beside runId (env.respond c w).2 (env.respond c w').2 := by
  cases c with
  | sql q =>
      cases q with
      | appendCommittedEntity a b =>
          exact ⟨rfl, beside.sqlBoth (.appendCommittedEntity a b) nofun⟩
      | appendCommittedRelationship a b =>
          exact ⟨rfl, beside.sqlBoth (.appendCommittedRelationship a b) nofun⟩
      | _ => exact commit.elim
  | load _ | parse _ | kiq _ | stream | mirror _ | finishOrder _ => exact commit.elim
  | _ =>
      obtain ⟨t, e⟩ := w
      obtain ⟨t', e'⟩ := w'
      obtain ⟨left, right, rfl⟩ := beside
      exact ⟨rfl, left, right, rfl⟩

/-- A node that both sides run ends the same way on both. -/
theorem node_tandem {α β γ : Type} {runId : UUID} {w w' : Table × σ}
    {R : Except Exn α → Table × σ → Except Exn β → Table × σ → Prop} {p : Coroutine γ}
    {f : Except Exn γ → Coroutine α} {g : Except Exn γ → Coroutine β}
    (calls : p.Calls Call.Commit) (beside : Beside runId w w')
    (rest : ∀ r w w', Beside runId w w' → InTandem env R (f r) w (g r) w') :
    InTandem env R (p.attempt >>= f) w (p.attempt >>= g) w' := by
  refine Tandem.bind (Tandem.attempt (R := fun r w r' w' => r = r' ∧ (∃ o, r = .ok o) ∧
    Beside runId w w') ?_) fun r w r' w' ends => ?_
  · refine (Tandem.same calls (fun c s t => respond_alike) beside).mono ?_
    intro r s r' t ⟨same, kept⟩
    exact ⟨by rw [same], ⟨r, rfl⟩, kept⟩
  · obtain ⟨rfl, ⟨o, rfl⟩, kept⟩ := ends
    exact rest o w w' kept

/-- The bookkeeping of `_drive` after a node is hidden from the outside. -/
theorem yielded_tandem {α β : Type} {runId : UUID} {w w' : Table × σ}
    {R : Except Exn α → Table × σ → Except Exn β → Table × σ → Prop} {node : Node}
    {state : AgentState} {u : Update} {f : AgentState × Except Exn Unit → Coroutine α}
    {q : Coroutine β} (beside : Beside runId w w')
    (rest : ∀ w, Beside runId w w' → InTandem env R (f (state.update u, .ok ())) w q w') :
    InTandem env R (yielded runId node state u >>= f) w q w' := by
  refine Tandem.left rfl (Tandem.left rfl (Tandem.left rfl ?_))
  exact rest _ (beside.sql (.recordNode runId node.name _) nofun)

/-- Both bodies ended alike, with states that agree. -/
def BodiesEnd (runId : UUID) (r : Except Exn (AgentState × Except Exn Unit)) (w : Table × σ)
    (r' : Except Exn (AgentState × Except Exn Unit)) (w' : Table × σ) : Prop :=
  ∃ x y, r = .ok x ∧ r' = .ok y ∧ SameWork x.1 y.1 ∧ x.2 = y.2 ∧ Beside runId w w'

/-- The research graph from `commit` on, next to the body of the commit task. -/
theorem bodies_tandem {runId : UUID} {s s' : AgentState} {w w' : Table × σ}
    (same : SameWork s s') (beside : Beside runId w w') (steps : Nat) :
    InTandem env (BodiesEnd runId) (drive deps false runId (steps + 2) .commit s s) w
      (commitBody s') w' := by
  rw [drive, superstep, if_neg (by decide), oneNode, commitBody, runNode, same.commitNode,
    bind_assoc]
  refine node_tandem (commitNode_calls s') beside fun r w w' beside => ?_
  cases r with
  | error exc => exact ⟨rfl, _, _, rfl, rfl, same, rfl, beside⟩
  | ok u =>
      have same := same.update u
      dsimp only
      rw [bind_assoc]
      refine yielded_tandem beside fun w beside => Tandem.right rfl ?_
      -- LangGraph's own state differs from the mirrored one in the source notes only.
      have enrich : runNode deps .enrich (s.merge u) = enrichNode (s'.update u) :=
        same.enrichNode
      dsimp only [next, List.foldl, Except.map, ret_bind, pure_eq_ret]
      rw [drive, superstep, if_neg (by decide), oneNode, enrich, bind_assoc]
      refine node_tandem (enrichNode_calls _) beside fun r w w' beside => ?_
      cases r with
      | error exc => exact ⟨rfl, _, _, rfl, rfl, same, rfl, beside⟩
      | ok u =>
          dsimp only
          rw [bind_assoc]
          refine yielded_tandem beside fun w beside => Tandem.right rfl ?_
          exact ⟨rfl, _, _, rfl, rfl, same.update u, rfl, beside⟩

/-! ## The end of a path -/

/-- What the two paths leave on the row: the committed ids, and the result or the error. -/
structure Persisted (ended : Except Exn Unit) (row row' : RunRow) : Prop where
  entityIds : row.committedEntityIds = row'.committedEntityIds
  relationshipIds : row.committedRelationshipIds = row'.committedRelationshipIds
  succeeded : ended = .ok () → row.status = .succeeded ∧ row'.status = .succeeded ∧
    row.result = row'.result ∧ row.result ≠ none
  failed : ∀ exc, ended = .error exc → row.status = .failed ∧ row'.status = .failed ∧
    row.error = row'.error ∧ row.error ≠ none

/-- Both paths end alike, with the same record and the surroundings in the same state. -/
def PathsEnd (r : Except Exn Unit) (w : Table × σ) (r' : Except Exn Unit) (w' : Table × σ) :
    Prop :=
  r = r' ∧ w.2 = w'.2 ∧
    ∃ row row', w.1 = some row ∧ w'.1 = some row' ∧ Persisted r row row'

theorem Beside.rows {runId : UUID} {w w' : Table × σ} (beside : Beside runId w w') :
    ∃ row row' e, w = (some row, e) ∧ w' = (some row', e) ∧ row.id = runId ∧ row'.id = runId := by
  obtain ⟨t, e⟩ := w
  obtain ⟨t', e'⟩ := w'
  obtain ⟨left, right, rfl⟩ := beside
  obtain ⟨row, rfl, named⟩ := Option.map_eq_some_iff.mp left
  obtain ⟨row', rfl, named'⟩ := Option.map_eq_some_iff.mp right
  exact ⟨row, row', e, rfl, rfl, named, named'⟩

/-- What follows the body of a task: the success or the failure is written. -/
def closing (runId : UUID) (limit : String) (body : AgentState × Except Exn Unit) :
    Coroutine Unit :=
  match waitFor body.2 with
  | .ok _ => finishSucceeded runId body.1
  | .error exc => do
      let message :=
        if exc = .timeout then "run exceeded the " ++ limit ++ "s deadline" else exc.repr
      let _ ← Service.markFailed runId message body.1.committedEntityIds
        body.1.committedRelationshipIds
      .raise exc

theorem guarded_finish (runId : UUID) (limit : String)
    (body : Coroutine (AgentState × Except Exn Unit)) :
    guarded runId limit body >>= finishSucceeded runId = body >>= closing runId limit := by
  rw [guarded, bind_assoc]
  refine congrArg (body >>= ·) (funext fun (state, outcome) => ?_)
  rw [closing]
  dsimp only
  cases waitFor outcome with
  | ok _ => rfl
  | error exc =>
      dsimp only
      rw [bind_assoc]
      rfl

theorem finishSucceeded_run (runId : UUID) (state : AgentState) (w : Table × σ) :
    let q := Sql.markSucceeded runId (result state) state.committedEntityIds
      state.committedRelationshipIds
    (finishSucceeded runId state).run env.respond w =
      ([⟨.sql q, .ok ()⟩], .ok (), (env.respond (.sql q) w).2) := rfl

theorem markFailed_run (runId : UUID) (error : String) (entityIds relationshipIds : List UUID)
    (w : Table × σ) :
    let q := Sql.markFailed runId error entityIds relationshipIds
    (Service.markFailed runId error entityIds relationshipIds).run env.respond w =
      ([⟨.sql q, .ok ()⟩], .ok (), (env.respond (.sql q) w).2) := rfl

/-- States that agree are closed by the same record. -/
theorem closing_tandem {runId : UUID} {limit : String} {s s' : AgentState}
    {o : Except Exn Unit} {w w' : Table × σ} (same : SameWork s s')
    (beside : Beside runId w w') :
    InTandem env PathsEnd (closing runId limit (s, o)) w (closing runId limit (s', o)) w' := by
  obtain ⟨row, row', e, rfl, rfl, named, named'⟩ := beside.rows
  rw [closing, closing]
  dsimp only
  rw [same.entityIds, same.relationshipIds]
  cases waitFor o with
  | ok _ =>
      unfold InTandem Tandem
      dsimp only
      rw [finishSucceeded_run, finishSucceeded_run, same.result, same.entityIds,
        same.relationshipIds]
      refine ⟨rfl, rfl, rfl, _, _, Sql.update_some named _, Sql.update_some named' _, ?_⟩
      exact ⟨rfl, rfl, fun _ => ⟨rfl, rfl, rfl, Option.some_ne_none _⟩, fun exc ended => by cases ended⟩
  | error exc =>
      unfold InTandem Tandem
      dsimp only
      rw [run_bind, run_bind, markFailed_run, markFailed_run]
      refine ⟨rfl, rfl, rfl, _, _, Sql.update_some named _, Sql.update_some named' _, ?_⟩
      exact ⟨rfl, rfl, fun ended => (by cases ended), fun exc _ => ⟨rfl, rfl, rfl, Option.some_ne_none _⟩⟩

/-- Whatever follows the bodies writes the same record. -/
theorem finish_tandem {runId : UUID} {limit : String} {w w' : Table × σ}
    {body body' : Coroutine (AgentState × Except Exn Unit)}
    (bodies : InTandem env (BodiesEnd runId) body w body' w') :
    InTandem env PathsEnd (guarded runId limit body >>= finishSucceeded runId) w
      (guarded runId limit body' >>= finishSucceeded runId) w' := by
  rw [guarded_finish, guarded_finish]
  refine Tandem.bind bodies fun r w r' w' ends => ?_
  obtain ⟨x, y, rfl, rfl, same, outcome, beside⟩ := ends
  dsimp only
  obtain ⟨s, o⟩ := x
  cases outcome
  exact closing_tandem same beside

/-! ## From parking to the commit task -/

abbrev Hidden {α : Type} (env : Surroundings σ) (p : Coroutine α) (w : Table × σ) (a : α)
    (w' : Table × σ) : Prop :=
  Silent env.respond Call.outward p w a w'

/-- The row the owner is asked about. -/
def parked (env : Surroundings σ) (e : σ) (state : AgentState) (row : RunRow) : RunRow :=
  Statement.markAwaitingReview (env.now e) ((state.structured.getD {}).stored env.jsonb)
    (result state) (state.documents.map (·.url)) row

/-- The row the approval leaves. -/
def approved (env : Surroundings σ) (e : σ) (review : AgentRunReview) (row : RunRow) : RunRow :=
  Statement.approveReview (env.now e)
    ((Service.edited (row.pending.getD {}) review).stored env.jsonb) row

variable {e : σ} {row : RunRow} {runId userId : UUID} {review : AgentRunReview}

theorem sql_hidden {q : Sql} {t t' : Table} {a : q.Answer}
    (done : q.exec env.jsonb (env.newId e) (env.now e) t = (t', a)) :
    Hidden env (sql q) (t, e) a (t', e) := by
  refine silent_perform rfl ?_
  rw [Surroundings.respond]
  simp only [done]

theorem park_hidden (state : AgentState) (named : row.id = state.runId) :
    Hidden env (park state.runId state) (some row, e) () (some (parked env e state row), e) :=
  sql_hidden (q := .markAwaitingReview _ _ _ _)
    (Prod.ext (Sql.update_some named _) rfl)

/-- A call that only has to succeed. -/
theorem call_hidden {c : Call} {a : c.Answer} {w : Table × σ} (hidden : c.outward = false)
    (answer : env.respond c w = (.ok a, w)) : Hidden env (call c) w a w :=
  silent_perform hidden answer

theorem load_hidden {α : Type} (column : String) (raw : Option α) (w : Table × σ) :
    Hidden env (Service.load column raw) w raw w := by
  cases raw with
  | none => exact silent_ret
  | some value => exact (call_hidden (c := .load column) (a := ()) rfl rfl).bind silent_ret

variable (env) in
theorem run_hidden (row : RunRow) (w : Table × σ) :
    ∃ run, Hidden env (Service.run row) w run w ∧ run.id = row.id :=
  ⟨{ row with }, (call_hidden (c := .parse row) (a := ()) rfl rfl).bind silent_ret, rfl⟩

theorem decide_hidden (named : row.id = runId) (approve : review.decision = .approve) :
    Hidden env (Service.decide runId review row) (some row, e)
      (some (approved env e review row)) (some (approved env e review row), e) := by
  rw [Service.decide, approve]
  refine (load_hidden "pending" row.pending _).bind (sql_hidden ?_)
  rw [Sql.exec, Sql.update_some named]
  exact Prod.ext rfl (Sql.whereId_some named)

theorem reviewRun_hidden (named : row.id = runId) (owned : row.userId = userId)
    (awaiting : row.status = .awaitingReview) (approve : review.decision = .approve) :
    ∃ run, Hidden env (Router.reviewRun userId runId review) (some row, e) run
      (some (approved env e review row), e) := by
  obtain ⟨run, parses, same⟩ :=
    run_hidden env (approved env e review row) (some (approved env e review row), e)
  have found : Hidden env (sql (.getRun runId userId)) (some row, e) (some row) (some row, e) := by
    refine sql_hidden ?_
    rw [Sql.exec, Sql.whereId_some named]
    simp [Option.filter, owned]
  have submitted : Hidden env (Service.submitReview userId runId review) (some row, e) run
      (some (approved env e review row), e) := by
    refine found.bind ?_
    dsimp only
    rw [if_neg (by simp [awaiting])]
    exact (decide_hidden named approve).bind parses
  refine ⟨run, submitted.bind ?_⟩
  rw [if_pos approve]
  exact (call_hidden (c := .kiq _) (a := ()) rfl rfl).bind silent_ret

theorem getRunInternal_hidden (named : row.id = runId) :
    Hidden env (Service.getRunInternal runId) (some row, e) row (some row, e) := by
  have found : Hidden env (sql (.getRunInternal runId)) (some row, e) (some row) (some row, e) :=
    sql_hidden (Prod.ext rfl (Sql.whereId_some named))
  exact found.bind silent_ret

theorem loadParked_hidden (named : row.id = runId) :
    Hidden env (Service.loadParked runId) (some row, e)
      ⟨row.pending.getD {}, row.result, row.sourceUrls⟩ (some row, e) := by
  have found : Hidden env (sql (.getPending runId)) (some row, e) (some row) (some row, e) :=
    sql_hidden (Prod.ext rfl (Sql.whereId_some named))
  refine found.bind ?_
  refine (load_hidden "pending" row.pending _).bind ?_
  refine (load_hidden "result" row.result _).bind ?_
  exact (load_hidden "source_urls" (some row.sourceUrls) _).bind silent_ret

theorem overridden_eq (state : AgentState) (review : AgentRunReview) :
    ∃ drafts, state.overridden review = { state with structured := drafts } ∧
      drafts.getD {} = Service.edited (state.structured.getD {}) review := by
  rw [AgentState.overridden]
  split
  · rename_i untouched
    refine ⟨state.structured, rfl, ?_⟩
    rw [Service.edited, untouched.1, untouched.2]
    rfl
  · exact ⟨_, rfl, rfl⟩

theorem restored_urls (topic : String) (ownerId runId : UUID) (parked : Service.ParkedRun) :
    (restored topic ownerId runId parked).documents.map (·.url) = parked.sourceUrls := by
  simp [restored, Function.comp_def]

/-- What the commit task rebuilds agrees with the overridden state. -/
theorem restored_sameWork {state : AgentState}
    (faithful : ∀ fs, Json.SameFields (env.jsonb fs) fs) (owned : row.userId = state.ownerId)
    (fresh : state.committedEntityIds = [] ∧ state.committedRelationshipIds = [] ∧
      state.committedEntities = []) :
    let final := approved env e review (parked env e state row)
    SameWork (state.overridden review)
      (restored final.topic final.userId state.runId
        ⟨final.pending.getD {}, final.result, final.sourceUrls⟩) := by
  obtain ⟨drafts, same, edits⟩ := overridden_eq state review
  dsimp only
  rw [same]
  refine ⟨owned.symm, rfl, ?_, ?_, rfl, rfl, fresh.1, fresh.2.1, fresh.2.2⟩
  · -- The drafts were stored when they were parked and stored again when they were approved.
    rw [edits]
    exact (((SameDrafts.refl _).stored faithful).edited review).stored faithful
  · rw [restored_urls]
    rfl

/-- Committing through a review makes the same calls outward as committing at once, and ends
with the same record. -/
theorem review_refines_direct (state : AgentState) (steps : Nat)
    (faithful : ∀ fs, Json.SameFields (env.jsonb fs) fs)
    (named : row.id = state.runId) (owned : row.userId = state.ownerId)
    (fresh : state.committedEntityIds = [] ∧ state.committedRelationshipIds = [] ∧
      state.committedEntities = [])
    (approve : review.decision = .approve) :
    let direct := (directPath deps (steps + 2) (state.overridden review)).run env.respond
      (some row, e)
    let reviewed := (reviewPath deps review state).run env.respond (some row, e)
    seen Call.outward direct.1 = seen Call.outward reviewed.1 ∧
      PathsEnd direct.2.1 direct.2.2 reviewed.2.1 reviewed.2.2 := by
  obtain ⟨drafts, same, _⟩ := overridden_eq state review
  have run : (state.overridden review).runId = state.runId := by rw [same]
  have parkedNamed : (parked env e state row).id = state.runId := named
  have parkedOwned : (parked env e state row).userId = state.ownerId := owned
  have awaiting : (parked env e state row).status = .awaitingReview := rfl
  obtain ⟨_, reviews⟩ := reviewRun_hidden parkedNamed parkedOwned awaiting approve
  refine Tandem.afterSilent (park_hidden state named) ?_
  refine Tandem.afterSilent reviews ?_
  refine Tandem.afterSilent (getRunInternal_hidden named) ?_
  refine Tandem.afterSilent (loadParked_hidden named) ?_
  rw [directPath, run]
  refine finish_tandem (bodies_tandem (restored_sameWork faithful owned fresh) ?_ steps)
  exact ⟨congrArg some named, congrArg some named, rfl⟩

end Paths

/-! ## One note, edited and approved -/

section Example

/-- The graph service stores what it is given under rising ids, the embedder answers, and all
else fails. -/
def noteSurroundings : Surroundings Nat where
  jsonb := id
  newId _ := 0
  now := id
  answer
    | .graph (.createEntity ownerId visibility name kind attributes), n =>
        (.ok ⟨BitVec.ofNat 128 n, ownerId, visibility, name, kind, attributes, [], n, n⟩, n + 1)
    | .graph (.attachSources _ _ _), n | .graph (.setEntityEmbedding _ _ _), n => (.ok (), n)
    | .graph (.searchEntitiesByVector _ _ _), n => (.ok [], n)
    | .embed _, n => (.ok [], n)
    | _, n => (.error .timeout, n)

def noteDeps : Deps :=
  { settings := { recursionLimit := 25 }, searchTool := false, wikipediaTools := []
    py := { lower := id, loads := fun _ => none, strOf := fun _ => "" } }

def draftNote (tempId : String) (name : Name) : DraftEntity :=
  { tempId, name, kind := .of "note" (Eq.refl true) }

def noteState : AgentState :=
  { initialState "notes" 1 7 with
    structured := some { entities := [draftNote "a" (.of "first" (Eq.refl true))] }
    analysis := some "one note"
    documents := [⟨"https://example.com", "page"⟩]
    skipped := ["search: one result"] }

/-- The reviewer adds a second note. -/
def addNote : AgentRunReview :=
  { decision := .approve
    entities := some [
      draftNote "a" (.of "first" (Eq.refl true)), draftNote "b" (.of "second" (Eq.refl true))] }

def noteRow : RunRow :=
  { id := 7, userId := 1, topic := "notes", status := .running, createdAt := 0, updatedAt := 0 }

def noteDirect : List (Event Call Call.Answer Exn) × Except Exn Unit × Table × Nat :=
  (directPath noteDeps 2 (noteState.overridden addNote)).run noteSurroundings.respond
    (some noteRow, 40)

def noteReviewed : List (Event Call Call.Answer Exn) × Except Exn Unit × Table × Nat :=
  (reviewPath noteDeps addNote noteState).run noteSurroundings.respond (some noteRow, 40)

/-- Both notes are created with their source, on either path. -/
theorem review_refines_direct_addNote :
    (noteReviewed.2.2.1.map RunRow.committedEntityIds = some [40, 41] ∧
      (seen Call.outward noteReviewed.1).length = 12) ∧
    seen Call.outward noteDirect.1 = seen Call.outward noteReviewed.1 ∧
      PathsEnd noteDirect.2.1 noteDirect.2.2 noteReviewed.2.1 noteReviewed.2.2 := by
  refine ⟨by decide, ?_⟩
  have faithful : ∀ fs, Json.SameFields (noteSurroundings.jsonb fs) fs := fun _ => rfl
  exact review_refines_direct noteState 0 faithful rfl rfl ⟨rfl, rfl, rfl⟩ rfl

end Example

end Intellivault.Agent
