import Intellivault.Agent.Body
import Intellivault.Agent.Database

/-!
# The record of a failed run

A node appends each id it commits to the row, and returns the whole lists only at its end;
the task keeps those lists in its own state, and `mark_failed` writes them over what was
appended.  A `Ledger` follows both: what was appended, and what of it came after the task
last updated its state.  The failed row is accurate exactly if nothing did.
-/

namespace Intellivault.Agent

open Lib Prog

/-! ## The ledger -/

/-- The ids that `append_committed_*` has appended to the row, also where the statement then
raised, and those appended since the task's last `state.update`. -/
structure Ledger where
  entities : List UUID := []
  relationships : List UUID := []
  newEntities : List UUID := []
  newRelationships : List UUID := []

def entityIds (t : Table) : List UUID := (t.map RunRow.committedEntityIds).getD []

def relationshipIds (t : Table) : List UUID := (t.map RunRow.committedRelationshipIds).getD []

namespace Ledger

/-- Nothing was appended since the last `state.update`. -/
def Settled (l : Ledger) : Prop := l.newEntities = [] ∧ l.newRelationships = []

def add (l : Ledger) (entities relationships : List UUID) : Ledger :=
  { entities := l.entities ++ entities
    relationships := l.relationships ++ relationships
    newEntities := l.newEntities ++ entities
    newRelationships := l.newRelationships ++ relationships }

/-- Along a call that takes the table from `t` to `t'`. -/
def read (l : Ledger) (c : Call) (t t' : Table) : Ledger :=
  match c with
  | .sql (.appendCommittedEntity _ _) => l.add ((entityIds t').drop (entityIds t).length) []
  | .sql (.appendCommittedRelationship _ _) =>
      l.add [] ((relationshipIds t').drop (relationshipIds t).length)
  | .mirror _ => { l with newEntities := [], newRelationships := [] }
  | _ => l

theorem add_add (l : Ledger) (E E' R R' : List UUID) :
    (l.add E R).add E' R' = l.add (E ++ E') (R ++ R') := by simp [add]

end Ledger

/-- A call that neither records an id nor updates the task's state nor fails the run. -/
def Call.Quiet : Call → Prop
  | .sql q =>
      match q with
      | .appendCommittedEntity _ _ | .appendCommittedRelationship _ _ | .markFailed _ _ _ _
      | .insertRun _ _ => False
      | _ => True
  | .mirror _ => False
  | _ => True

theorem Call.Research.quiet {c : Call} (h : c.Research) : c.Quiet := by
  cases c <;> trivial

/-- The row of the run is there and has not failed. -/
def Alive (runId : UUID) (t : Table) : Prop :=
  ∃ row, t = some row ∧ row.id = runId ∧ row.status ≠ .failed

variable {jsonb : Attributes → Attributes} {runId : UUID} {α β : Type}

/-- A statement other than the insert and `mark_failed` fails no run. -/
theorem Sql.alive {q : Sql} {newId : UUID} {now : Time} {t : Table} (update : q.runId ≠ none)
    (spares : ∀ id error E R, q ≠ .markFailed id error E R) (alive : Alive runId t) :
    Alive runId (q.exec jsonb newId now t).1 := by
  obtain ⟨row, rfl, same, sound⟩ := alive
  refine ⟨_, exec_some q update, ?_⟩
  split
  · cases q with
    | markFailed id error E R => exact absurd rfl (spares id error E R)
    | insertRun _ _ => exact absurd rfl update
    | markRunning _ | markAwaitingReview _ _ _ _ | approveReview _ _ | markCancelled _
    | markSucceeded _ _ _ _ => exact ⟨same, nofun⟩
    | _ => exact ⟨same, sound⟩
  · exact ⟨same, sound⟩

theorem Call.Quiet.spares {c : Call} (quiet : c.Quiet) :
    ∀ q, c = .sql q → q.runId ≠ none ∧ ∀ id error E R, q ≠ .markFailed id error E R := by
  intro q same
  subst same
  cases q <;> first | exact quiet.elim | exact ⟨nofun, nofun⟩

/-! ## What a node records -/

/-- The database with the ledger beside it. -/
abbrev ledgered (jsonb : Attributes → Attributes) :
    Handler Call Call.Answer Exn (Table × Ledger) :=
  ghost (database jsonb) Ledger.read

/-- The program records `E` and `R`, never updates the task's state, and when it returns `a`
then `Q a E R`. -/
def Records (jsonb : Attributes → Attributes) (runId : UUID) (p : Coroutine α)
    (Q : α → List UUID → List UUID → Prop) : Prop :=
  ∀ t l, Alive runId t → p.Holds (ledgered jsonb) (fun _ => True)
    (fun r s => Alive runId s.1 ∧ ∃ E R, s.2 = l.add E R ∧ ∀ a, r = .ok a → Q a E R) (t, l)

section Rules

variable {Q : α → List UUID → List UUID → Prop} {Q' : β → List UUID → List UUID → Prop}
  {p : Coroutine α}

theorem Records.bind {f : α → Coroutine β} (first : Records jsonb runId p Q)
    (rest : ∀ a E R, Q a E R →
      Records jsonb runId (f a) fun b E' R' => Q' b (E ++ E') (R ++ R')) :
    Records jsonb runId (p >>= f) Q' := by
  intro t l alive
  refine holds_bind.mpr ((first t l alive).mono fun r s h => ?_)
  obtain ⟨t', l'⟩ := s
  obtain ⟨alive', E, R, rfl, post⟩ := h
  cases r with
  | error x => exact ⟨alive', E, R, rfl, fun _ => of_error_eq_ok⟩
  | ok a =>
      refine (rest a E R (post a rfl) t' _ alive').mono fun r s h => ?_
      obtain ⟨alive'', E', R', ledger, post'⟩ := h
      exact ⟨alive'', E ++ E', R ++ R', by rw [ledger, Ledger.add_add], post'⟩

theorem Records.mono {Q₂ : α → List UUID → List UUID → Prop} (h : Records jsonb runId p Q)
    (weaken : ∀ a E R, Q a E R → Q₂ a E R) : Records jsonb runId p Q₂ := by
  intro t l alive
  refine (h t l alive).mono fun r s => ?_
  rintro ⟨alive', E, R, ledger, post⟩
  exact ⟨alive', E, R, ledger, fun a same => weaken a E R (post a same)⟩

end Rules

/-! ## The nodes -/

/-- The lists a node returns are the ones it got with what it recorded at the end. -/
def Update.Records (state : AgentState) (update : Update) (E R : List UUID) : Prop :=
  update.committedEntityIds.getD state.committedEntityIds = state.committedEntityIds ++ E ∧
    update.committedRelationshipIds.getD state.committedRelationshipIds =
      state.committedRelationshipIds ++ R

/-- The update leaves both lists out. -/
def Update.NoIds (update : Update) : Prop :=
  update.committedEntityIds = none ∧ update.committedRelationshipIds = none

theorem Update.NoIds.records {update : Update} (h : update.NoIds) (state : AgentState) :
    update.Records state [] [] := by
  simp [Records, h.1, h.2]

section Commit

variable (ownerId : UUID)

end Commit

section Research

variable (deps : Deps) (state : AgentState)

theorem noIds_ret {update : Update} (h : update.committedEntityIds = none ∧
    update.committedRelationshipIds = none := by exact ⟨rfl, rfl⟩) :
    (.ret update : Coroutine Update).Returns Update.NoIds := h

/-- No research node returns a list of committed ids. -/
theorem research_noIds {node : Node} (research : ¬node.Commits) :
    (runNode deps node state).Returns Update.NoIds := by
  cases node with
  | plan => exact Returns.bind fun _ => noIds_ret
  | surveyGraph => exact Returns.bind fun _ => noIds_ret
  | search =>
      simp only [runNode, searchNode]
      split
      · exact noIds_ret
      · split
        · exact noIds_ret
        · exact Returns.bind fun _ => noIds_ret
  | broadenQueries =>
      exact tryExcept_returns (Returns.bind fun _ => noIds_ret) fun _ => noIds_ret
  | fetch => exact Returns.bind fun _ => noIds_ret
  | analyzeOne => exact noIds_ret
  | synthesize =>
      simp only [runNode, synthesizeNode]
      split
      · exact noIds_ret
      · exact Returns.bind fun _ => noIds_ret
  | struct =>
      exact tryExcept_returns (Returns.bind fun _ => noIds_ret) fun _ => noIds_ret
  | critique =>
      simp only [runNode, critiqueNode]
      split
      · exact noIds_ret
      · refine Returns.bind fun verdict => ?_
        split <;> exact noIds_ret
  | lookup =>
      simp only [runNode, lookupNode]
      split
      · exact noIds_ret
      · split
        · exact noIds_ret
        · exact Returns.bind fun _ => noIds_ret
  | commit => exact absurd (.inl rfl) research
  | enrich => exact absurd (.inr rfl) research

theorem analyzeOneNode_noIds (topic : String) (doc : FetchedDoc) :
    (analyzeOneNode topic doc).Returns Update.NoIds :=
  tryExcept_returns (Returns.bind fun _ => noIds_ret) fun _ => noIds_ret

end Research

/-! ## The task's state against the ledger -/

/-- The lists of the task's state are what had been recorded at its last update. -/
def Tracks (state : AgentState) (l : Ledger) : Prop :=
  l.entities = state.committedEntityIds ++ l.newEntities ∧
    l.relationships = state.committedRelationshipIds ++ l.newRelationships

def SameIds (a b : AgentState) : Prop :=
  a.committedEntityIds = b.committedEntityIds ∧ a.committedRelationshipIds = b.committedRelationshipIds

section Drive

variable (deps : Deps) {graphState state : AgentState} {t : Table} {l : Ledger}

theorem NoIds_foldl {updates : List Update} (noIds : ∀ u ∈ updates, u.NoIds)
    (state : AgentState) : SameIds (updates.foldl AgentState.merge state) state := by
  induction updates generalizing state with
  | nil => exact ⟨rfl, rfl⟩
  | cons update rest ih =>
      have here := noIds update List.mem_cons_self
      have step : SameIds (state.merge update) state := by
        simp [SameIds, AgentState.merge, AgentState.update, here.1, here.2]
      have tail := ih (fun u mem => noIds u (List.mem_cons_of_mem _ mem)) (state.merge update)
      exact ⟨tail.1.trans step.1, tail.2.trans step.2⟩

theorem merge_runId (updates : List Update) (state : AgentState) :
    (updates.foldl AgentState.merge state).runId = state.runId := by
  induction updates generalizing state with
  | nil => rfl
  | cons update rest ih => exact ih _

/-- What the guarded bodies leave behind. -/
def Left (runId : UUID) (r : Except Exn (AgentState × Except Exn Unit)) (s : Table × Ledger) :
    Prop :=
  Alive runId s.1 ∧ ∀ state outcome, r = .ok (state, outcome) → Tracks state s.2

end Drive

section Tasks

variable (deps : Deps) {t : Table}

end Tasks

/-- Every run of the database has a ledger. -/
theorem ledgered_run {p p' : Coroutine α} {t t' : Table} {tr : List (Event Call Call.Answer Exn)}
    (run : Runs (database jsonb) p t tr p' t') :
    ∃ ledger, Runs (ledgered jsonb) p (t, {}) tr p' (t', ledger) :=
  run.ghost ({} : Ledger)

section Example

end Example

end Intellivault.Agent
