import Mathlib.Logic.Relation
import Intellivault.Agent.Counts
import Intellivault.Agent.Mirror

/-!
# Skip notes are never lost

`skipped` has no reducer: a node that notes something copies the notes it found and appends to
them (`Update.Extends`).  Update after update the notes are those of all the nodes, in the order
they were added (`Accrues`), across the pause for a review too.
-/

namespace Intellivault.Agent

open Lib Prog Sql

/-! ## Node by node -/

/-- If the update sets `skipped`, it appends to the notes that were there. -/
def Update.Extends (skipped : List String) (u : Update) : Prop := ∀ l, u.skipped = some l → skipped <+: l

theorem extends_none {u : Update} (none : u.skipped = none) (skipped : List String) :
    u.Extends skipped := fun _ same => nomatch none.symm.trans same

theorem extends_some {u : Update} {skipped l : List String} (some : u.skipped = some l)
    (longer : skipped <+: l) : u.Extends skipped := by
  intro l' same
  obtain rfl := Option.some.inj (some.symm.trans same)
  exact longer

theorem extends_append {u : Update} {skipped new : List String}
    (some : u.skipped = some (skipped ++ new)) : u.Extends skipped :=
  extends_some some (List.prefix_append _ _)

section Nodes

variable (deps : Deps) (state : AgentState)

theorem searchHits_longer (limit : Nat) (hits : List SearchHit) (loop : SearchLoop) :
    (searchHits limit hits loop).Returns fun loop' => loop.skipped <+: loop'.skipped := by
  induction hits generalizing loop with
  | nil => exact List.prefix_rfl
  | cons hit rest ih =>
      rw [searchHits]
      split
      · exact ih loop
      · refine Returns.then (P := fun loop' => loop.skipped <+: loop'.skipped) ?_ fun loop' here =>
          (ih loop').mono fun _ later => here.trans later
        exact tryExcept_returns (Returns.bind fun _ => List.prefix_rfl)
          fun _ => List.prefix_append _ _

theorem searchQueries_longer (queries : List String) (loop : SearchLoop) :
    (searchQueries deps queries loop).Returns fun loop' => loop.skipped <+: loop'.skipped := by
  induction queries generalizing loop with
  | nil => exact List.prefix_rfl
  | cons query rest ih =>
      rw [searchQueries]
      refine Returns.bind fun raw => ?_
      cases raw with
      | error exc => exact (ih _).mono fun _ later => (List.prefix_append _ _).trans later
      | ok raw =>
          exact (searchHits_longer _ _ loop).then fun loop' here =>
            (ih loop').mono fun _ later => here.trans later

theorem searchNode_extends : (searchNode deps state).Returns (Update.Extends state.skipped) := by
  unfold searchNode
  split
  · exact extends_some rfl List.prefix_rfl
  · split
    · exact extends_append rfl
    · exact (searchQueries_longer deps _ _).then fun loop longer => extends_some rfl longer

theorem broadenQueriesNode_extends :
    (broadenQueriesNode state).Returns (Update.Extends state.skipped) :=
  tryExcept_returns (Returns.bind fun _ => extends_append rfl) fun _ => extends_append rfl

theorem fetchAll_longer (hits : List SearchHit) (docs : List FetchedDoc) (skipped : List String) :
    (fetchAll hits docs skipped).Returns fun r => skipped <+: r.2 := by
  induction hits generalizing docs skipped with
  | nil => exact List.prefix_rfl
  | cons hit rest ih =>
      rw [fetchAll]
      refine Returns.bind fun fetched => ?_
      cases fetched with
      | ok doc => exact ih _ _
      | error exc => exact (ih _ _).mono fun _ later => (List.prefix_append _ _).trans later

theorem fetchNode_extends : (fetchNode state).Returns (Update.Extends state.skipped) :=
  (fetchAll_longer _ _ _).then fun _ longer => extends_some rfl longer

theorem synthesizeNode_extends : (synthesizeNode state).Returns (Update.Extends state.skipped) := by
  unfold synthesizeNode
  split
  · exact extends_none rfl _
  · exact Returns.bind fun _ => extends_none rfl _

theorem structureNode_extends : (structureNode deps state).Returns (Update.Extends state.skipped) := by
  refine tryExcept_returns (Returns.bind fun result => ?_) fun _ => extends_append rfl
  refine extends_some rfl ?_
  split
  · exact List.prefix_append _ _
  · exact List.prefix_rfl

theorem critiqueNode_extends : (critiqueNode state).Returns (Update.Extends state.skipped) := by
  unfold critiqueNode
  dsimp only
  split
  · exact extends_none rfl _
  · refine Returns.bind fun verdict => ?_
    split
    · exact extends_append rfl
    · exact extends_none rfl _

theorem lookupNode_extends {u : Update} (ends : (lookupNode deps state).Ends (.ok u)) :
    u.Extends state.skipped := by
  obtain ⟨log, done⟩ := (lookupNode_logs deps state).ends ends
  obtain ⟨ps, -, looked⟩ := done u rfl
  intro l same
  have skipped : (state.merge u).skipped = l := congrArg (·.getD state.skipped) same
  rw [← skipped, looked.skipped, List.append_assoc]
  exact List.prefix_append _ _

theorem commitNode_notes (state : AgentState) :
    (commitNode state).Returns fun u => ∃ more, u.skipped = some (state.skipped ++ more) :=
  Returns.bind fun _ => Returns.bind fun _ => ⟨_, congrArg some (List.append_assoc _ _ _)⟩

theorem enrichNode_extends {u : Update} (ends : (enrichNode state).Ends (.ok u)) :
    u.Extends state.skipped := by
  unfold enrichNode at ends
  split at ends
  · cases ends
    exact extends_none rfl _
  · obtain ⟨loop, enriched, ends⟩ := ends_bind.mp ends
    obtain ⟨log, done⟩ := (enrichEntities_logs _ _).ends enriched
    obtain ⟨-, outcomes, kept⟩ := done loop rfl
    cases ends
    exact extends_append (congrArg some kept.skipped)

/-- **Every node keeps the notes it finds.** -/
theorem runNode_extends {deps : Deps} {node : Node} {state : AgentState} {u : Update}
    (ends : (runNode deps node state).Ends (.ok u)) : u.Extends state.skipped := by
  cases node with
  | plan =>
      have quiet : (planNode state).Returns (Update.Extends state.skipped) :=
        Returns.bind fun _ => extends_none rfl _
      exact quiet.of_ends ends
  | surveyGraph =>
      have noted : (surveyGraphNode deps state).Returns (Update.Extends state.skipped) :=
        Returns.bind fun _ => extends_append rfl
      exact noted.of_ends ends
  | search => exact (searchNode_extends deps state).of_ends ends
  | broadenQueries => exact (broadenQueriesNode_extends state).of_ends ends
  | fetch => exact (fetchNode_extends state).of_ends ends
  | analyzeOne =>
      cases ends
      exact extends_none rfl _
  | synthesize => exact (synthesizeNode_extends state).of_ends ends
  | struct => exact (structureNode_extends deps state).of_ends ends
  | critique => exact (critiqueNode_extends state).of_ends ends
  | lookup => exact lookupNode_extends deps state ends
  | commit =>
      obtain ⟨more, same⟩ := (commitNode_notes state).of_ends ends
      exact extends_append same
  | enrich => exact enrichNode_extends state ends

/-- The branches of the fan-out do not touch the notes. -/
theorem analyzeOneNode_noNotes {topic : String} {doc : FetchedDoc} {u : Update}
    (ends : (analyzeOneNode topic doc).Ends (.ok u)) : u.skipped = none := by
  rw [(analyzeOneNode_onlyNotes topic doc).of_ends ends]

end Nodes

/-! ## Update after update -/

/-- What each update adds to the notes, from these notes on. -/
inductive Accrues : List String → List Update → List (List String) → Prop
  | nil {skipped : List String} : Accrues skipped [] []
  | quiet {skipped : List String} {u : Update} {us : List Update} {notes : List (List String)} :
      u.skipped = none → Accrues skipped us notes → Accrues skipped (u :: us) ([] :: notes)
  | added {skipped new : List String} {u : Update} {us : List Update} {notes : List (List String)} :
      u.skipped = some (skipped ++ new) → Accrues (skipped ++ new) us notes →
      Accrues skipped (u :: us) (new :: notes)

namespace Accrues

variable {skipped : List String} {us us' : List Update} {notes notes' : List (List String)}

theorem append (first : Accrues skipped us notes) (second : Accrues (skipped ++ notes.flatten) us' notes') :
    Accrues skipped (us ++ us') (notes ++ notes') := by
  induction first with
  | nil =>
      rw [List.flatten_nil, List.append_nil] at second
      exact second
  | quiet none _ ih => exact .quiet none (ih second)
  | added some _ ih =>
      rw [List.flatten_cons, ← List.append_assoc] at second
      exact .added some (ih second)

theorem one {u : Update} (longer : u.Extends skipped) : ∃ notes, Accrues skipped [u] notes := by
  cases set : u.skipped with
  | none => exact ⟨_, .quiet set .nil⟩
  | some l =>
      obtain ⟨new, rfl⟩ := longer l set
      exact ⟨_, .added set .nil⟩

theorem none (none : ∀ u ∈ us, u.skipped = none) : ∃ notes, Accrues skipped us notes := by
  induction us with
  | nil => exact ⟨_, .nil⟩
  | cons u us ih =>
      obtain ⟨here, others⟩ := List.forall_mem_cons.mp none
      obtain ⟨notes, later⟩ := ih others
      exact ⟨_, .quiet here later⟩

/-- The state has them all, after the ones it had. -/
theorem foldl {state : AgentState} (accrues : Accrues state.skipped us notes) :
    (us.foldl AgentState.update state).skipped = state.skipped ++ notes.flatten := by
  generalize before : state.skipped = skipped at accrues
  induction accrues generalizing state with
  | nil =>
      rw [List.flatten_nil, List.append_nil]
      exact before
  | @quiet skipped u _ _ none _ ih =>
      have same : (state.update u).skipped = skipped := by
        rw [← before]
        exact congrArg (·.getD state.skipped) none
      exact ih same
  | @added skipped new u _ _ some _ ih =>
      have same : (state.update u).skipped = skipped ++ new :=
        congrArg (·.getD state.skipped) some
      rw [List.flatten_cons, ← List.append_assoc]
      exact ih same

end Accrues

theorem Accrues.mirrorState {state : AgentState} {log : CallLog} {notes : List (List String)}
    (accrues : Accrues state.skipped (mirrored log) notes) :
    (mirrorState state log).skipped = state.skipped ++ notes.flatten := accrues.foldl

/-! ## Along the research graph -/

theorem Agrees.skipped {a b : AgentState} (agrees : Agrees a b) : a.skipped = b.skipped := by
  change a.bare.skipped = b.bare.skipped
  rw [agrees]

/-- These are the updates of an execution that came to the end of the graph. -/
def Executed (deps : Deps) (review : Bool) (s₀ : AgentState) (us : List Update) : Prop :=
  ∃ tr c, History (Superstep deps review) ⟨some .plan, s₀⟩ tr c ∧ c.node = none ∧
    (∀ x ∈ tr, ∃ updates, x.label = .ok updates) ∧ us.Perm (tr.flatMap updatesOf)

/-- Where `_drive` is after these calls: an execution went as far, with the updates that were
streamed, and the task's state has their notes. -/
structure Drives (deps : Deps) (review : Bool) (s₀ : AgentState) (log : CallLog) (c : Config)
    (state : AgentState) : Prop where
  executed : ∃ tr, History (Superstep deps review) ⟨some .plan, s₀⟩ tr c ∧
    (∀ x ∈ tr, ∃ updates, x.label = .ok updates) ∧ (mirrored log).Perm (tr.flatMap updatesOf)
  agrees : Agrees state c.state
  follows : state = mirrorState s₀ log
  accrues : ∃ notes, Accrues s₀.skipped (mirrored log) notes

section Drive

variable {deps : Deps} {review : Bool} {runId : UUID} {s₀ state : AgentState} {log : CallLog}

theorem Drives.start : Drives deps review s₀ [] ⟨some .plan, s₀⟩ s₀ where
  executed := ⟨[], .start, List.forall_mem_nil _, .refl []⟩
  agrees := .refl s₀
  follows := rfl
  accrues := ⟨[], .nil⟩

/-- The updates of a step extend the notes it found. -/
theorem StepMirrors.accrues {node : Node} {graphState state' : AgentState} {us : List Update}
    (mirrors : StepMirrors deps node graphState state log (.ok (state', .ok us)))
    (agrees : Agrees state graphState) : ∃ notes, Accrues state.skipped (mirrored log) notes := by
  obtain ⟨-, went⟩ := mirrors _ _ rfl
  obtain ⟨ends, same, kinds⟩ := went us rfl
  have skipped : graphState.skipped = state.skipped := agrees.skipped.symm
  by_cases fans : node = .analyzeOne
  · rw [StepEnds, if_pos fans] at ends
    exact Accrues.none fun u mem =>
      (congrArg Update.skipped (onlyNotes_of_each ends u (same.mem_iff.mpr mem)) :)
  · rw [StepEnds, if_neg fans] at ends
    obtain ⟨u, rfl, ended⟩ := ends
    rw [List.perm_singleton.mp same.symm, ← skipped]
    exact Accrues.one (runNode_extends ended)

theorem Drives.step {past : CallLog} {node : Node} {graphState state' : AgentState}
    {us : List Update} (drives : Drives deps review s₀ past ⟨some node, graphState⟩ state)
    (mirrors : StepMirrors deps node graphState state log (.ok (state', .ok us))) :
    Drives deps review s₀ (past ++ log)
      ⟨next deps review node (us.foldl AgentState.merge graphState),
        us.foldl AgentState.merge graphState⟩ state' := by
  obtain ⟨tr, history, went, streamed⟩ := drives.executed
  obtain ⟨notes, before⟩ := drives.accrues
  obtain ⟨new, here⟩ := mirrors.accrues drives.agrees
  obtain ⟨step, agrees⟩ := mirrors.agrees review drives.agrees
  obtain ⟨rfl, updates⟩ := mirrors _ _ rfl
  constructor
  · refine ⟨_, history.next step, forall_mem_snoc.mpr ⟨went, us, rfl⟩, ?_⟩
    rw [mirrored_append, List.flatMap_append, List.flatMap_singleton]
    exact streamed.append (updates us rfl).2.1.symm
  · exact agrees
  · rw [drives.follows, ← mirrorState_append]
  · refine ⟨notes ++ new, ?_⟩
    rw [mirrored_append]
    rw [drives.follows, before.mirrorState] at here
    exact before.append here

theorem drive_drives (steps : Nat) :
    (drive deps review runId steps .plan s₀ s₀).Logs (fun _ => True) fun log r =>
      ∀ state, r = .ok (state, .ok ()) → ∃ c, c.node = none ∧ Drives deps review s₀ log c state := by
  refine drive_rule (I := fun past node graphState state =>
      Drives deps review s₀ past ⟨some node, graphState⟩ state)
    (D := fun past state => ∃ c, c.node = none ∧ Drives deps review s₀ past c state) ?_ steps .start
  intro past node graphState state drives
  refine (superstep_mirrors deps node).mono fun log r mirrors state' us same => ?_
  subst same
  have further := drives.step mirrors
  split
  · rename_i ended
    rw [ended] at further
    exact ⟨_, rfl, further⟩
  · rename_i node' edge
    rwa [edge] at further

/-- These are the updates of `commit` and `enrich`, from a state with these notes on. -/
def CommitUpdates (skipped : List String) (us : List Update) : Prop :=
  ∃ state u u', state.skipped = skipped ∧ us = [u, u'] ∧ (commitNode state).Ends (.ok u) ∧
    (enrichNode (state.update u)).Ends (.ok u')

theorem commitBody_accrues : (commitBody state).Logs (fun _ => True) fun log r =>
    ∀ state', r = .ok (state', .ok ()) → state' = mirrorState state log ∧
      CommitUpdates state.skipped (mirrored log) ∧ ∃ notes, Accrues state.skipped (mirrored log) notes := by
  refine (commitBody_rule (node_logs (commitNode_calls state)) fun _ =>
    node_logs (enrichNode_calls _)).mono fun log r taken state' went => ?_
  obtain ⟨u, u', log₁, log₂, m₁, m₂, rfl, ⟨quiet, committed⟩, ⟨quiet', enriched⟩, rfl⟩ :=
    taken state' went
  have streamed :
      mirrored (log₁ ++ ⟨.mirror u, m₁⟩ :: (log₂ ++ [⟨.mirror u', m₂⟩])) = [u, u'] := by
    simp [quiet, quiet']
  obtain ⟨more, noted⟩ := (commitNode_notes state).of_ends committed
  have before : (state.update u).skipped = state.skipped ++ more :=
    congrArg (·.getD state.skipped) noted
  obtain ⟨notes, here⟩ := Accrues.one (enrichNode_extends _ enriched)
  rw [before] at here
  refine ⟨?_, ⟨state, u, u', rfl, streamed, committed, enriched⟩, ?_⟩
  · exact congrArg (fun us : List Update => us.foldl AgentState.update state) streamed.symm
  · exact ⟨more :: notes, streamed ▸ .added noted here⟩

end Drive

/-! ## The row -/

/-- A call that leaves the row there, and its result as it is. -/
def Call.KeepsResult : Call → Prop
  | .sql q =>
      match q with
      | .insertRun _ _ | .markAwaitingReview _ _ _ _ | .markSucceeded _ _ _ _ => False
      | _ => True
  | _ => True

theorem Call.Body.keepsResult {c : Call} {review : Bool} (h : c.Body review) : c.KeepsResult := by
  cases c with
  | sql q =>
      cases q with
      | insertRun _ _ | markAwaitingReview _ _ _ _ | markSucceeded _ _ _ _ => cases review <;> exact h
      | _ => trivial
  | _ => trivial

/-- The row of the run is there, with this result. -/
def HasResult (runId : UUID) (result : Option AgentRunResult) (t : Table) : Prop :=
  ∃ row, t = some row ∧ row.id = runId ∧ row.result = result

section Rows

variable {jsonb : Attributes → Attributes} {runId : UUID} {result : Option AgentRunResult}
  {row : RunRow} {t t' : Table} {log : CallLog}

theorem Sql.hasResult {q : Sql} (keeps : (Call.sql q).KeepsResult) {newId : UUID} {now : Time}
    (has : HasResult runId result t) : HasResult runId result (q.exec jsonb newId now t).1 := by
  obtain ⟨row, rfl, named, same⟩ := has
  have update : q.runId ≠ none := by
    cases q with
    | insertRun _ _ => exact keeps.elim
    | _ => exact nofun
  refine ⟨_, exec_some q update, ?_⟩
  split
  · cases q with
    | insertRun _ _ | markAwaitingReview _ _ _ _ | markSucceeded _ _ _ _ => exact keeps.elim
    | _ => exact ⟨named, same⟩
  · exact ⟨named, same⟩

theorem database_hasResult {c : Call} {r : Except Exn c.Answer} (keeps : c.KeepsResult)
    (answered : database jsonb c t r t') (has : HasResult runId result t) :
    HasResult runId result t' := by
  cases c with
  | sql q =>
      obtain ⟨draw, ⟨-, rfl⟩ | ⟨-, rfl | rfl⟩⟩ := answered
      · exact Sql.hasResult keeps has
      · exact has
      · exact Sql.hasResult keeps has
  | _ =>
      obtain rfl : t' = t := answered
      exact has

theorem runs_hasResult {α : Type} {p p' : Coroutine α} (run : Runs (database jsonb) p t log p' t')
    (keeps : p.Calls Call.KeepsResult) (has : HasResult runId result t) :
    HasResult runId result t' := by
  induction run with
  | refl => exact has
  | step answered _ ih => exact ih (keeps.2 _) (database_hasResult keeps.1 answered has)

theorem guarded_keepsResult {limit : String} {body : Coroutine (AgentState × Except Exn Unit)}
    (keeps : body.Calls Call.KeepsResult) : (guarded runId limit body).Calls Call.KeepsResult := by
  refine keeps.bind fun (state, outcome) => ?_
  dsimp only
  split
  · trivial
  · exact (calls_call trivial).bind fun _ => trivial

/-- A statement that is answered was executed. -/
theorem sql_ran {q : Sql} {a : q.Answer} (run : Runs (database jsonb) (sql q) t log (ended (.ok a)) t') :
    (∃ r, log = [⟨.sql q, r⟩]) ∧ ∃ draw : Draw, a = (q.exec jsonb draw.newId draw.now t).2 ∧
      t' = (q.exec jsonb draw.newId draw.now t).1 := by
  obtain ⟨rfl, answered⟩ := Runs.perform (c := Call.sql q) run
  obtain ⟨draw, ⟨same, rfl⟩ | ⟨⟨_, ⟨⟩⟩, -⟩⟩ := answered
  exact ⟨⟨_, rfl⟩, draw, Except.ok.inj same, rfl⟩

theorem getRunInternal_ran {found : RunRow} (named : row.id = runId)
    (run : Runs (database jsonb) (Service.getRunInternal runId) (some row) log (ended (.ok found)) t) :
    mirrored log = [] ∧ found = row ∧ t = some row := by
  obtain ⟨a, t₁, tr₁, tr₂, reads, run, rfl⟩ := run.bind_ok
  obtain ⟨⟨r, rfl⟩, draw, rfl, rfl⟩ := sql_ran reads
  rw [exec, whereId_some named] at run
  obtain ⟨⟨⟩, rfl, rfl⟩ := run.ret
  exact ⟨rfl, rfl, rfl⟩

theorem load_ran {α : Type} {column : String} {raw a : Option α}
    (run : Runs (database jsonb) (Service.load column raw) t log (ended (.ok a)) t') :
    mirrored log = [] ∧ a = raw ∧ t' = t := by
  cases raw with
  | none =>
      obtain ⟨⟨⟩, rfl, rfl⟩ := run.ret
      exact ⟨rfl, rfl, rfl⟩
  | some value =>
      obtain ⟨_, t₁, tr₁, tr₂, loads, rest, rfl⟩ := run.bind_ok
      obtain ⟨rfl, answered⟩ := Runs.perform (c := Call.load column) loads
      obtain ⟨⟨⟩, rfl, rfl⟩ := rest.ret
      exact ⟨rfl, rfl, answered⟩

theorem loadParked_ran {parked : Service.ParkedRun} (named : row.id = runId)
    (run : Runs (database jsonb) (Service.loadParked runId) (some row) log (ended (.ok parked)) t) :
    mirrored log = [] ∧ parked.partialResult = row.result ∧ t = some row := by
  obtain ⟨a, t₁, tr₁, tr₂, reads, run, rfl⟩ := run.bind_ok
  obtain ⟨⟨r, rfl⟩, draw, rfl, rfl⟩ := sql_ran reads
  rw [exec, whereId_some named] at run
  obtain ⟨pending, t₂, tr₃, tr₄, loads, run, rfl⟩ := run.bind_ok
  obtain ⟨quiet, -, rfl⟩ := load_ran loads
  obtain ⟨result, t₃, tr₅, tr₆, loads, run, rfl⟩ := run.bind_ok
  obtain ⟨quiet', rfl, rfl⟩ := load_ran loads
  obtain ⟨urls, t₄, tr₇, tr₈, loads, run, rfl⟩ := run.bind_ok
  obtain ⟨quiet'', -, rfl⟩ := load_ran loads
  obtain ⟨⟨⟩, rfl, rfl⟩ := run.ret
  refine ⟨?_, rfl, rfl⟩
  simp only [mirrored_append, quiet, quiet', quiet'']
  rfl

/-! ## The tasks -/

/-- The result in the row has the notes of these updates, one after the other. -/
def ReportsNotes (row : RunRow) (us : List Update) : Prop :=
  ∃ res notes, row.result = some res ∧ Accrues [] us notes ∧ res.skipped = notes.flatten

variable {deps : Deps}

/-- A call that is not streamed. -/
theorem mirrored_sql {q : Sql} (r : Except Exn (Call.sql q).Answer) : mirrored [⟨.sql q, r⟩] = [] := rfl

/-- What ends a task writes its result to the row, with this status. -/
def Closes (jsonb : Attributes → Attributes) (runId : UUID) (status : AgentRunStatus)
    (close : AgentState → Coroutine Unit) : Prop :=
  ∀ state t result log t', HasResult runId result t →
    Runs (database jsonb) (close state) t log (ended (.ok ())) t' →
    mirrored log = [] ∧ HasResult runId (some (Agent.result state)) t' ∧
      ∀ row, t' = some row → row.status = status

theorem park_closes : Closes jsonb runId .awaitingReview (park runId) := by
  rintro state _ result log t' ⟨row, rfl, named, -⟩ run
  obtain ⟨⟨r, rfl⟩, draw, -, rfl⟩ := sql_ran (q := .markAwaitingReview _ _ _ _) run
  rw [exec, update_some named]
  refine ⟨rfl, ⟨_, rfl, named, rfl⟩, ?_⟩
  rintro _ ⟨⟩
  rfl

theorem finishSucceeded_closes : Closes jsonb runId .succeeded (finishSucceeded runId) := by
  rintro state _ result log t' ⟨row, rfl, named, -⟩ run
  obtain ⟨⟨r, rfl⟩, draw, -, rfl⟩ := sql_ran (q := .markSucceeded _ _ _ _) run
  rw [exec, update_some named]
  refine ⟨rfl, ⟨_, rfl, named, rfl⟩, ?_⟩
  rintro _ ⟨⟩
  rfl

/-- The guarded body of a task, and what ends it. -/
theorem guarded_closes {status : AgentRunStatus} {close : AgentState → Coroutine Unit} {limit : String}
    {body : Coroutine (AgentState × Except Exn Unit)}
    {done : CallLog → Except Exn (AgentState × Except Exn Unit) → Prop}
    (closes : Closes jsonb runId status close) (logs : body.Logs (fun _ => True) done)
    (keeps : body.Calls Call.KeepsResult) (has : HasResult runId result t)
    (run : Runs (database jsonb) (guarded runId limit body >>= close) t log (ended (.ok ())) t') :
    ∃ state log', done log' (.ok (state, .ok ())) ∧ mirrored log = mirrored log' ∧
      HasResult runId (some (Agent.result state)) t' ∧ ∀ row, t' = some row → row.status = status := by
  obtain ⟨state, t₁, tr₁, tr₂, first, last, rfl⟩ := run.bind_ok
  have ended := first.logs (fun _ _ _ _ _ => trivial) (guarded_logs logs) state rfl
  have still := runs_hasResult first (guarded_keepsResult keeps) has
  obtain ⟨quiet, written, closed⟩ := closes state _ _ _ _ still last
  refine ⟨state, tr₁, ended, ?_, written, closed⟩
  rw [mirrored_append, quiet, List.append_nil]

/-- `_run_agent` ends with the notes of its execution in the row. -/
theorem runAgent_reports (named : row.id = runId)
    (run : Runs (database jsonb) (runAgent deps runId) (some row) log (ended (.ok ())) t) :
    Executed deps deps.settings.reviewRequired (initialState row.topic row.userId runId) (mirrored log) ∧
      ∃ row', t = some row' ∧ row'.id = runId ∧ ReportsNotes row' (mirrored log) ∧
        row'.status = if deps.settings.reviewRequired then .awaitingReview else .succeeded := by
  obtain ⟨found, t₁, tr₁, _, reads, rest, rfl⟩ := run.bind_ok
  obtain ⟨quiet, rfl, rfl⟩ := getRunInternal_ran named reads
  obtain ⟨_, t₂, tr₂, tr₃, starts, rest, rfl⟩ := rest.bind_ok
  obtain ⟨⟨r, rfl⟩, draw, -, rfl⟩ := sql_ran starts
  have has : HasResult runId found.result
      ((Sql.markRunning runId).exec jsonb draw.newId draw.now (some found)).1 :=
    Sql.hasResult (q := Sql.markRunning runId) trivial ⟨found, rfl, named, rfl⟩
  have closes : Closes jsonb runId
      (if deps.settings.reviewRequired then .awaitingReview else .succeeded)
      (fun state => if deps.settings.reviewRequired then park runId state
        else finishSucceeded runId state) := by
    cases deps.settings.reviewRequired with
    | true => exact park_closes
    | false => exact finishSucceeded_closes
  have keeps : (drive deps deps.settings.reviewRequired runId deps.settings.recursionLimit .plan
      (initialState found.topic found.userId runId)
      (initialState found.topic found.userId runId)).Calls Call.KeepsResult :=
    (drive_calls deps runId _ (fun _ => by rintro (⟨⟨⟩⟩ | ⟨⟨⟩⟩)) _ _).mono
      fun _ => Call.Body.keepsResult
  obtain ⟨state, log', drives, same, ⟨row', rfl, named', res⟩, status⟩ :=
    guarded_closes closes (drive_drives _) keeps has rest
  obtain ⟨c, stopped, done⟩ := drives state rfl
  obtain ⟨tr, history, went, streamed⟩ := done.executed
  obtain ⟨notes, accrues⟩ := done.accrues
  have all : mirrored (tr₁ ++ ([⟨.sql (.markRunning runId), r⟩] ++ tr₃)) = mirrored log' := by
    rw [mirrored_append, quiet, mirrored_append, mirrored_sql, same]
    rfl
  rw [all]
  refine ⟨⟨tr, c, history, stopped, went, streamed⟩, row', rfl, named', ?_, status row' rfl⟩
  refine ⟨_, notes, res, accrues, ?_⟩
  change state.skipped = _
  rw [done.follows, accrues.mirrorState]
  rfl

/-- `_commit_agent_run` goes on with the notes in the row. -/
theorem commitAgentRun_reports {us : List Update} (named : row.id = runId)
    (parked : ReportsNotes row us)
    (run : Runs (database jsonb) (commitAgentRun deps runId) (some row) log (ended (.ok ())) t) :
    (∃ res, row.result = some res ∧ CommitUpdates res.skipped (mirrored log)) ∧
      ∃ row', t = some row' ∧ ReportsNotes row' (us ++ mirrored log) ∧ row'.status = .succeeded := by
  obtain ⟨res, notes, stored, accrues, skipped⟩ := parked
  obtain ⟨found, t₁, tr₁, _, reads, rest, rfl⟩ := run.bind_ok
  obtain ⟨quiet, rfl, rfl⟩ := getRunInternal_ran named reads
  obtain ⟨parked, t₂, tr₂, tr₃, reads, rest, rfl⟩ := rest.bind_ok
  obtain ⟨quiet', partialResult, rfl⟩ := loadParked_ran named reads
  have before : (restored found.topic found.userId runId parked).skipped = notes.flatten := by
    rw [← skipped]
    simp only [restored, partialResult, stored]
  obtain ⟨state, log', commits, same, ⟨row', rfl, named', res⟩, status⟩ :=
    guarded_closes finishSucceeded_closes commitBody_accrues
      ((commitBody_calls _).mono fun _ => Call.Body.keepsResult) ⟨_, rfl, named, rfl⟩ rest
  obtain ⟨follows, updates, more, later⟩ := commits state rfl
  have all : mirrored (tr₁ ++ (tr₂ ++ tr₃)) = mirrored log' := by
    rw [mirrored_append, quiet, mirrored_append, quiet', same]
    rfl
  rw [all]
  rw [before] at updates later
  refine ⟨⟨_, stored, skipped ▸ updates⟩, row', rfl, ⟨_, notes ++ more, res, ?_, ?_⟩,
    status row' rfl⟩
  · exact accrues.append later
  · change state.skipped = _
    rw [follows, List.flatten_append, ← before]
    rw [← before] at later
    exact later.mirrorState

/-! ## The review -/

theorem reviewRun_keepsResult (userId : UUID) (data : AgentRunReview) :
    (Router.reviewRun userId runId data).Calls Call.KeepsResult := by
  have parses : ∀ row, (Service.run row).Calls Call.KeepsResult := fun row =>
    (calls_call trivial).bind fun _ => trivial
  have loads : ∀ raw : Option StructuredResult, (Service.load "pending" raw).Calls Call.KeepsResult := by
    intro raw
    cases raw with
    | none => trivial
    | some value => exact (calls_call trivial).bind fun _ => trivial
  have decides : ∀ row, (Service.decide runId data row).Calls Call.KeepsResult := by
    intro row
    unfold Service.decide
    split
    · exact calls_call trivial
    · exact (loads _).bind fun _ => calls_call trivial
  have submits : (Service.submitReview userId runId data).Calls Call.KeepsResult := by
    refine (calls_call trivial).bind fun found => ?_
    cases found with
    | none => trivial
    | some row =>
        dsimp only
        split
        · trivial
        · refine (decides row).bind fun updated => ?_
          cases updated with
          | none => trivial
          | some row => exact parses row
  refine submits.bind fun reviewed => ?_
  split
  · exact (calls_call trivial).bind fun _ => trivial
  · trivial

/-- One request for a review, broken off anywhere. -/
def ReviewStep (jsonb : Attributes → Attributes) (runId : UUID) (t t' : Table) : Prop :=
  ∃ userId data log p', Runs (database jsonb) (Router.reviewRun userId runId data) t log p' t'

/-- Whoever reviews the run, and however often: its result stays. -/
theorem reviews_keep (reviews : Relation.ReflTransGen (ReviewStep jsonb runId) t t')
    (has : HasResult runId result t) : HasResult runId result t' := by
  induction reviews with
  | refl => exact has
  | tail _ step ih =>
      obtain ⟨userId, data, log, p', run⟩ := step
      exact runs_hasResult run (reviewRun_keepsResult userId data) ih

end Rows

/-- **Skip notes are never lost.**  A node that sets `skipped` extends what it found, and the
branches of the fan-out do not set it.  So the row of a run that succeeded reports what the
updates of its execution added, one after the other; if the run paused for a review, those of the
research graph and then those of the commit. -/
theorem notes_kept :
    (∀ deps node state u, (runNode deps node state).Ends (.ok u) → u.Extends state.skipped) ∧
    (∀ topic doc u, (analyzeOneNode topic doc).Ends (.ok u) → u.skipped = none) ∧
    (∀ jsonb runId deps (row : RunRow) log t, row.id = runId →
      deps.settings.reviewRequired = false →
      Runs (database jsonb) (runAgent deps runId) (some row) log (ended (.ok ())) t →
      Executed deps false (initialState row.topic row.userId runId) (mirrored log) ∧
        ∃ row', t = some row' ∧ row'.status = .succeeded ∧ ReportsNotes row' (mirrored log)) ∧
    ∀ jsonb runId deps deps' (row : RunRow) log log' t t' t'', row.id = runId →
      deps.settings.reviewRequired = true →
      Runs (database jsonb) (runAgent deps runId) (some row) log (ended (.ok ())) t →
      Relation.ReflTransGen (ReviewStep jsonb runId) t t' →
      Runs (database jsonb) (commitAgentRun deps' runId) t' log' (ended (.ok ())) t'' →
      Executed deps true (initialState row.topic row.userId runId) (mirrored log) ∧
        (∃ parked res, t' = some parked ∧ parked.result = some res ∧
          CommitUpdates res.skipped (mirrored log')) ∧
        ∃ row', t'' = some row' ∧ row'.status = .succeeded ∧
          ReportsNotes row' (mirrored log ++ mirrored log') := by
  refine ⟨fun _ _ _ _ => runNode_extends, fun _ _ _ => analyzeOneNode_noNotes, ?_, ?_⟩
  · intro jsonb runId deps row log t named open' run
    obtain ⟨executed, row', same, -, reports, status⟩ := runAgent_reports named run
    rw [open'] at executed status
    exact ⟨executed, row', same, status, reports⟩
  · intro jsonb runId deps deps' row log log' t t' t'' named pending run reviews commit
    obtain ⟨executed, row₁, rfl, named₁, ⟨res, notes, stored, accrues, skipped⟩, -⟩ :=
      runAgent_reports named run
    rw [pending] at executed
    obtain ⟨row₂, rfl, named₂, same⟩ := reviews_keep reviews ⟨row₁, rfl, named₁, stored⟩
    obtain ⟨⟨res', stored', updates⟩, row', found, reports, status⟩ :=
      commitAgentRun_reports named₂ ⟨res, notes, same, accrues, skipped⟩ commit
    exact ⟨executed, ⟨row₂, res', rfl, stored', updates⟩, row', found, status, reports⟩

/-! ## Three notes and a review -/

def pausedDeps : Deps :=
  { settings := { recursionLimit := 25 }, searchTool := false, wikipediaTools := []
    py := { lower := id, loads := fun _ => none, strOf := fun _ => "" } }

def pausedRow : RunRow :=
  { id := 7, userId := 1, topic := "notes", createdAt := 0, updatedAt := 0 }

/-- The model drafts one note, the graph takes it, and the embedder is down; the table works. -/
def pausedAnswers : (c : Call) → Table → Except Exn c.Answer × Table
  | .sql q, t =>
      let (t, rows) := q.exec id 0 1 t
      (.ok rows, t)
  | .stream, t | .load _, t | .parse _, t | .kiq _, t | .mirror _, t => (.ok (), t)
  | .graph (.listGraph _), t => (.ok ⟨[], []⟩, t)
  | .graph (.createEntity ownerId visibility name kind attributes), t =>
      (.ok ⟨40, ownerId, visibility, name, kind, attributes, [], 0, 0⟩, t)
  | .ask .plan _, t => (.ok ⟨"notes", ["notes"], by decide⟩, t)
  | .ask .structuredResult _, t =>
      let draft : DraftEntity :=
        { tempId := "a", name := .of "first" (Eq.refl true), kind := .of "note" (Eq.refl true) }
      (.ok { entities := [draft] }, t)
  | .ask .critique _, t => (.ok { verdict := .ok }, t)
  | _, t => (.error (.other "down" "OSError('down')"), t)

theorem pausedAnswers_allowed (c : Call) (t : Table) :
    database id c t (pausedAnswers c t).1 (pausedAnswers c t).2 := by
  cases c with
  | sql q => exact ⟨⟨0, 1⟩, .inl ⟨rfl, rfl⟩⟩
  | graph c => cases c <;> rfl
  | ask schema messages => cases schema <;> rfl
  | _ => rfl

def pausedRun : CallLog × Except Exn Unit × Table :=
  (runAgent pausedDeps 7).run pausedAnswers (some pausedRow)

def pausedReview : CallLog × Except Exn AgentRun × Table :=
  (Router.reviewRun 1 7 { decision := .approve }).run pausedAnswers pausedRun.2.2

def pausedCommit : CallLog × Except Exn Unit × Table :=
  (commitAgentRun pausedDeps 7).run pausedAnswers pausedReview.2.2

/-- The notes of both tasks. -/
theorem notes_kept_paused : ∃ row res, pausedCommit.2.2 = some row ∧
    ReportsNotes row (mirrored pausedRun.1 ++ mirrored pausedCommit.1) ∧ row.result = some res ∧
    res.skipped = ["search: web-search MCP unavailable — skipped",
      "lookup: Wikipedia MCP unavailable — skipped", "embed first: down"] := by
  have ran := runs_run pausedAnswers_allowed (runAgent pausedDeps 7) (some pausedRow)
  have reviewed := runs_run pausedAnswers_allowed (Router.reviewRun 1 7 { decision := .approve })
    pausedRun.2.2
  have committed := runs_run pausedAnswers_allowed (commitAgentRun pausedDeps 7) pausedReview.2.2
  obtain ⟨-, -, row, same, -, reports⟩ := notes_kept.2.2.2 id 7 pausedDeps pausedDeps pausedRow _ _ _ _ _
    rfl rfl ran (.single ⟨1, { decision := .approve }, _, _, reviewed⟩) committed
  have found : ∃ row' res, pausedCommit.2.2 = some row' ∧ row'.result = some res ∧
      res.skipped = ["search: web-search MCP unavailable — skipped",
        "lookup: Wikipedia MCP unavailable — skipped", "embed first: down"] := ⟨_, _, rfl, rfl, rfl⟩
  obtain ⟨row', res, same', stored, skipped⟩ := found
  obtain rfl := Option.some.inj (same'.symm.trans same)
  exact ⟨row', res, same, reports, stored, skipped⟩

end Intellivault.Agent
