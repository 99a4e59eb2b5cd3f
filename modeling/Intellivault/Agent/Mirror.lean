import Mathlib.Data.List.FinRange
import Intellivault.Lib.Logs
import Intellivault.Lib.Rounds
import Intellivault.Agent.Supersteps
import Intellivault.Agent.Body

/-!
# The mirrored state

LangGraph keeps the state of an execution, and the task keeps its own, from the updates that
are streamed to it.  `drive` refines the executions of `Superstep`, and its mirrored state
agrees with theirs on every key but `source_notes`, wherever a run is broken off.
-/

namespace Intellivault.Agent

open Lib Prog

/-! ## Two folds of one stream -/

/-- The state without `source_notes`. -/
def AgentState.bare (s : AgentState) : AgentState := { s with sourceNotes := [] }

/-- The states agree on every key but `source_notes`. -/
def Agrees (a b : AgentState) : Prop := a.bare = b.bare

/-- An update of a branch sets no other key. -/
def Update.OnlyNotes (u : Update) : Prop := u = { sourceNotes := u.sourceNotes }

namespace Agrees

variable {a b c : AgentState}

theorem refl (a : AgentState) : Agrees a a := rfl

theorem symm (h : Agrees a b) : Agrees b a := Eq.symm h

theorem trans (first : Agrees a b) (second : Agrees b c) : Agrees a c := Eq.trans first second

/-- Overwriting every key, or all but one: the others agree. -/
theorem update_merge (h : Agrees a b) (u : Update) : Agrees (a.update u) (b.merge u) :=
  congrArg (fun s : AgentState => (s.update u).bare) h

theorem foldl (h : Agrees a b) (us : List Update) :
    Agrees (us.foldl AgentState.update a) (us.foldl AgentState.merge b) := by
  induction us generalizing a b with
  | nil => exact h
  | cons u us ih => exact ih (h.update_merge u)

theorem update_notes {u : Update} (only : u.OnlyNotes) (a : AgentState) : Agrees (a.update u) a := by
  rw [only]
  rfl

theorem foldl_notes {us : List Update} (only : ∀ u ∈ us, u.OnlyNotes) (a : AgentState) :
    Agrees (us.foldl AgentState.update a) a := by
  induction us generalizing a with
  | nil => exact refl a
  | cons u us ih =>
      obtain ⟨here, others⟩ := List.forall_mem_cons.mp only
      exact (ih others _).trans (update_notes here a)

/-- What the task persists is the same. -/
theorem result (h : Agrees a b) : Agent.result a = Agent.result b := by
  change Agent.result a.bare = Agent.result b.bare
  rw [h]

end Agrees

/-! ## The updates in a log -/

def updateOf : Event Call Call.Answer Exn → Option Update
  | ⟨.mirror u, _⟩ => some u
  | _ => none

/-- The updates that were streamed to the task, in that order. -/
def mirrored (log : CallLog) : List Update := log.filterMap updateOf

/-- The task's state after them. -/
def mirrorState (state : AgentState) (log : CallLog) : AgentState :=
  (mirrored log).foldl AgentState.update state

@[simp] theorem mirrored_nil : mirrored [] = [] := rfl

@[simp] theorem mirrored_mirror (u : Update) (r : Except Exn (Call.mirror u).Answer)
    (log : CallLog) :
    mirrored (⟨.mirror u, r⟩ :: log) = u :: mirrored log := rfl

@[simp] theorem mirrored_append (log log' : CallLog) :
    mirrored (log ++ log') = mirrored log ++ mirrored log' := List.filterMap_append

theorem mirrorState_append (state : AgentState) (log log' : CallLog) :
    mirrorState state (log ++ log') = mirrorState (mirrorState state log) log' := by
  rw [mirrorState, mirrored_append, List.foldl_append]
  rfl

/-- The nodes do not stream. -/
theorem mirrored_commit {log : CallLog} (calls : ∀ e ∈ log, e.1.Commit) : mirrored log = [] := by
  refine List.filterMap_eq_nil_iff.mpr fun e mem => ?_
  have inside := calls e mem
  obtain ⟨c, r⟩ := e
  cases c <;> first | rfl | exact inside.elim

theorem mirrorState_quiet (state : AgentState) {log : CallLog} (quiet : mirrored log = []) :
    mirrorState state log = state := by
  rw [mirrorState, quiet]
  rfl

/-- What a node's own run leaves: nothing is streamed, and it can return what it returned. -/
theorem node_logs {α : Type} {p : Coroutine α} (calls : p.Calls Call.Commit) :
    p.Logs (fun _ => True) fun log r => mirrored log = [] ∧ p.Ends r := by
  refine (logs_logged.and calls.logs).mono fun log r ⟨ran, made⟩ => ⟨?_, ran.ends⟩
  exact mirrored_commit fun e mem => (made e mem).1

theorem runNode_commit (deps : Deps) (node : Node) (state : AgentState) :
    (runNode deps node state).Calls Call.Commit := by
  by_cases commits : node.Commits
  · exact commit_calls deps commits state
  · exact (research_calls deps commits state).mono fun _ => Call.Research.commit

theorem analyzeOneNode_onlyNotes (topic : String) (doc : FetchedDoc) :
    (analyzeOneNode topic doc).Returns Update.OnlyNotes :=
  tryExcept_returns (Returns.bind fun _ => rfl) fun _ => rfl

/-! ## One superstep -/

section Superstep

variable {runId : UUID} {graphState state : AgentState}

/-- The update is streamed, and the task's state follows. -/
theorem yielded_mirrors (node : Node) (update : Update) :
    (yielded runId node state update).Logs (fun _ => True) fun log r => ∀ state' recorded,
      r = .ok (state', recorded) → state' = mirrorState state log ∧
        ∀ x, recorded = .ok x → mirrored log = [update] := by
  refine logs_bind.mpr (logs_attempt.mpr (logs_perform.mpr fun r _ => ?_))
  cases r with
  | error exc =>
      rintro _ _ ⟨⟩
      exact ⟨rfl, fun _ => of_error_eq_ok⟩
  | ok _ =>
      refine logs_bind.mpr fun r _ => ?_
      refine logs_bind.mpr (logs_attempt.mpr (logs_perform.mpr fun recorded _ => ?_))
      rintro _ _ ⟨⟩
      exact ⟨rfl, fun _ _ => rfl⟩

/-- What a step that is over says: the task's state, and the updates if it went well. -/
def StepMirrors (deps : Deps) (node : Node) (graphState state : AgentState) (log : CallLog)
    (r : Except Exn (AgentState × Except Exn (List Update))) : Prop :=
  ∀ state' outcome, r = .ok (state', outcome) → state' = mirrorState state log ∧
    ∀ us, outcome = .ok us → StepEnds deps node graphState (.ok us) ∧ us.Perm (mirrored log) ∧
      (us = mirrored log ∨ ∀ u ∈ us, u.OnlyNotes)

theorem oneNode_mirrors (deps : Deps) {node : Node} (single : node ≠ .analyzeOne) :
    (oneNode deps runId node graphState state).Logs (fun _ => True)
      (StepMirrors deps node graphState state) := by
  refine logs_bind.mpr (logs_attempt.mpr
    ((node_logs (runNode_commit deps node graphState)).mono fun log r ⟨quiet, ends⟩ => ?_))
  have still := mirrorState_quiet state quiet
  cases r with
  | error exc =>
      rintro _ _ ⟨⟩
      refine ⟨?_, fun _ => of_error_eq_ok⟩
      rw [List.append_nil, still]
  | ok update =>
      refine logs_bind.mpr ((yielded_mirrors node update).mono fun log' r yields => ?_)
      cases r with
      | error exc => exact fun _ _ => of_error_eq_ok
      | ok p =>
          obtain ⟨state', recorded⟩ := p
          obtain ⟨rfl, streamed⟩ := yields state' recorded rfl
          rintro _ _ ⟨⟩
          have skip : mirrorState state (log ++ (log' ++ [])) = mirrorState state log' := by
            rw [mirrorState_append, List.append_nil, still]
          refine ⟨skip.symm, ?_⟩
          cases recorded with
          | error exc => exact fun _ => of_error_eq_ok
          | ok x =>
              rintro us ⟨⟩
              have only : mirrored (log ++ (log' ++ [])) = [update] := by
                rw [mirrored_append, quiet, List.append_nil, streamed x rfl]
                rfl
              refine ⟨?_, only ▸ .refl _, .inl only.symm⟩
              rw [StepEnds, if_neg single]
              exact ⟨update, rfl, ends⟩

/-- The updates, in the order of their numbers. -/
def inOrder (updates : List (Nat × Update)) : List (Nat × Update) :=
  updates.insertionSort fun a b => a.1 ≤ b.1

/-- Numbered from 0 on, they come in the order of the numbers. -/
theorem inOrder_keys {updates : List (Nat × Update)} {n : Nat}
    (keys : (updates.map (·.1)).Perm (List.range n)) : (inOrder updates).map (·.1) = List.range n := by
  have total : Std.Total fun a b : Nat × Update => a.1 ≤ b.1 := ⟨fun a b => Nat.le_total a.1 b.1⟩
  have trans : IsTrans (Nat × Update) fun a b => a.1 ≤ b.1 := ⟨fun _ _ _ => Nat.le_trans⟩
  have sorted : ((inOrder updates).map (·.1)).Pairwise (· ≤ ·) :=
    List.pairwise_map.mpr (List.pairwise_insertionSort _ _)
  have same : ((inOrder updates).map (·.1)).Perm (List.range n) :=
    ((List.perm_insertionSort _ _).map _).trans keys
  exact same.eq_of_pairwise (fun _ _ _ _ => Nat.le_antisymm) sorted List.pairwise_le_range

/-- What the branches come to, in the order they finish. -/
def Finished (topic : String) (docs : List (Nat × FetchedDoc)) (news : List (Nat × Update)) : Prop :=
  List.Forall₂ (fun doc new => new.1 = doc.1 ∧ (analyzeOneNode topic doc.2).Ends (.ok new.2)) docs news

theorem Finished.keys {topic : String} {docs : List (Nat × FetchedDoc)} {news : List (Nat × Update)}
    (all : Finished topic docs news) : news.map (·.1) = docs.map (·.1) := by
  induction all with
  | nil => rfl
  | cons here _ ih => rw [List.map_cons, List.map_cons, ih, here.1]

theorem Finished.each {topic : String} {docs : List (Nat × FetchedDoc)} {news : List (Nat × Update)}
    (all : Finished topic docs news) : ∀ new ∈ news, ∃ doc ∈ docs, new.1 = doc.1 ∧
      (analyzeOneNode topic doc.2).Ends (.ok new.2) := by
  induction all with
  | nil => exact List.forall_mem_nil _
  | cons here _ ih =>
      refine List.forall_mem_cons.mpr ⟨⟨_, List.mem_cons_self, here⟩, fun new mem => ?_⟩
      obtain ⟨doc, inside, done⟩ := ih new mem
      exact ⟨doc, List.mem_cons_of_mem _ inside, done⟩

theorem branches_mirrors (topic : String) (docs : List (Nat × FetchedDoc))
    (updates : List (Nat × Update)) :
    (branches topic runId docs state updates).Logs (fun _ => True) fun log r => ∀ state' outcome,
      r = .ok (state', outcome) → state' = mirrorState state log ∧
        ∀ us, outcome = .ok us → ∃ news, Finished topic docs news ∧ mirrored log = news.map (·.2) ∧
          us = (inOrder (news.reverse ++ updates)).map (·.2) := by
  induction docs generalizing state updates with
  | nil =>
      rintro _ _ ⟨⟩
      refine ⟨rfl, ?_⟩
      rintro _ ⟨⟩
      exact ⟨[], .nil, rfl, rfl⟩
  | cons doc rest ih =>
      have calls := (analyzeOneNode_calls topic doc.2).mono fun _ => Call.Research.commit
      refine logs_bind.mpr (logs_attempt.mpr
        ((node_logs calls).mono fun log r ⟨quiet, ends⟩ => ?_))
      have still := mirrorState_quiet state quiet
      cases r with
      | error exc =>
          rintro _ _ ⟨⟩
          refine ⟨?_, fun _ => of_error_eq_ok⟩
          rw [List.append_nil, still]
      | ok update =>
          refine logs_bind.mpr ((yielded_mirrors .analyzeOne update).mono fun log' r yields => ?_)
          cases r with
          | error exc => exact fun _ _ => of_error_eq_ok
          | ok p =>
              obtain ⟨state', recorded⟩ := p
              obtain ⟨rfl, streamed⟩ := yields state' recorded rfl
              cases recorded with
              | error exc =>
                  rintro _ _ ⟨⟩
                  refine ⟨?_, fun _ => of_error_eq_ok⟩
                  rw [mirrorState_append, List.append_nil, still]
              | ok x =>
                  refine (ih ((doc.1, update) :: updates)).mono fun log'' r later => ?_
                  intro state'' outcome same
                  obtain ⟨rfl, done⟩ := later state'' outcome same
                  refine ⟨?_, fun us went => ?_⟩
                  · rw [mirrorState_append, mirrorState_append, still]
                  · obtain ⟨news, all, these, sorted⟩ := done us went
                    refine ⟨(doc.1, update) :: news, .cons ⟨rfl, ends⟩ all, ?_, ?_⟩
                    · simp [quiet, streamed x rfl, these]
                    · rw [sorted]
                      simp

/-- The documents, in the order in which their branches finish. -/
def shuffled (docs : List FetchedDoc) (order : Equiv.Perm (Fin docs.length)) : List (Nat × FetchedDoc) :=
  (List.finRange docs.length).map fun i => ((order i).val, docs.get (order i))

/-- Each branch finishes once. -/
theorem shuffled_keys (docs : List FetchedDoc) (order : Equiv.Perm (Fin docs.length)) :
    ((shuffled docs order).map (·.1)).Perm (List.range docs.length) := by
  have all := Equiv.Perm.ofFn_comp_perm order Fin.val
  rw [List.ofFn_eq_map, List.ofFn_eq_map, List.map_coe_finRange_eq_range] at all
  rwa [shuffled, List.map_map]

/-- Put back in order, the updates are those of the documents. -/
theorem finished_inOrder {topic : String} {docs : List FetchedDoc}
    {order : Equiv.Perm (Fin docs.length)} {news : List (Nat × Update)}
    (all : Finished topic (shuffled docs order) news) :
    List.Forall₂ (fun doc update => (analyzeOneNode topic doc).Ends (.ok update)) docs
      ((inOrder (news.reverse ++ [])).map (·.2)) := by
  have keys : (news.map (·.1)).Perm (List.range docs.length) := by
    rw [all.keys]
    exact shuffled_keys docs order
  have numbered : (inOrder (news.reverse ++ [])).map (·.1) = List.range docs.length := by
    rw [List.append_nil]
    exact inOrder_keys (((List.reverse_perm news).map _).trans keys)
  refine List.forall₂_iff_get.mpr ⟨?_, fun i here there => ?_⟩
  · have length := congrArg List.length numbered
    simpa using length.symm
  · rw [List.length_map] at there
    have index : ((inOrder (news.reverse ++ [])).get ⟨i, there⟩).1 = i := by
      have at_i := congrArg (·[i]?) numbered
      rw [List.getElem?_map, List.getElem?_eq_getElem there, List.getElem?_range here] at at_i
      exact Option.some.inj at_i
    have sorted : (inOrder (news.reverse ++ [])).get ⟨i, there⟩ ∈ news := by
      have mem := (List.perm_insertionSort _ _).mem_iff.mp (List.get_mem _ ⟨i, there⟩)
      simpa using mem
    obtain ⟨doc, mem, same, ends⟩ := all.each _ sorted
    obtain ⟨k, -, rfl⟩ := List.mem_map.mp mem
    have found : docs.get ⟨i, here⟩ = docs.get (order k) := by
      congr 1
      exact Fin.ext (index.symm.trans same)
    rw [found]
    simpa using ends

theorem onlyNotes_of_each {topic : String} {docs : List FetchedDoc} {us : List Update}
    (each : List.Forall₂ (fun doc update => (analyzeOneNode topic doc).Ends (.ok update)) docs us) :
    ∀ u ∈ us, u.OnlyNotes := by
  induction each with
  | nil => exact List.forall_mem_nil _
  | cons here _ ih =>
      exact List.forall_mem_cons.mpr ⟨(analyzeOneNode_onlyNotes topic _).of_ends here, ih⟩

theorem superstep_mirrors (deps : Deps) (node : Node) :
    (superstep deps runId node graphState state).Logs (fun _ => True)
      (StepMirrors deps node graphState state) := by
  unfold superstep
  split
  · rename_i fans
    subst fans
    refine logs_bind.mpr fun r _ => ?_
    have branched : ∀ order, (branches graphState.topic runId (shuffled graphState.documents order)
        state []).Logs (fun _ => True) fun log =>
          StepMirrors deps .analyzeOne graphState state (⟨.finishOrder _, r⟩ :: log) := by
      intro order
      refine (branches_mirrors _ _ _).mono fun log r done state' outcome same => ?_
      obtain ⟨rfl, went⟩ := done state' outcome same
      refine ⟨rfl, fun us ok => ?_⟩
      obtain ⟨news, all, these, rfl⟩ := went us ok
      have each := finished_inOrder all
      refine ⟨?_, ?_, .inr ?_⟩
      · rw [StepEnds, if_pos rfl]
        exact each
      · change List.Perm _ (mirrored log)
        rw [these, List.append_nil]
        exact ((List.perm_insertionSort _ _).trans (List.reverse_perm news)).map _
      · exact onlyNotes_of_each each
    cases r with
    | ok order => exact branched order
    | error exc => exact branched (.refl _)
  · rename_i single
    exact oneNode_mirrors deps single

end Superstep

/-! ## Along a run -/

/-- The updates of a superstep. -/
def updatesOf (x : Ran) : List Update :=
  match x.label with
  | .ok updates => updates
  | .error _ => []

section Drive

variable {deps : Deps} {review : Bool} {runId : UUID} {first : Config} {tr : List Ran} {node : Node}
  {s₀ graphState state : AgentState} {log : CallLog}

/-- A step that went well is one of the execution, and the states agree after it. -/
theorem StepMirrors.agrees (review : Bool) {us : List Update} {state' : AgentState}
    (mirrors : StepMirrors deps node graphState state log (.ok (state', .ok us)))
    (agrees : Agrees state graphState) :
    Superstep deps review ⟨some node, graphState⟩ (.ok us)
      ⟨next deps review node (us.foldl AgentState.merge graphState),
        us.foldl AgentState.merge graphState⟩ ∧
    Agrees (mirrorState state log) (us.foldl AgentState.merge graphState) := by
  obtain ⟨rfl, went⟩ := mirrors _ _ rfl
  obtain ⟨ends, same, kinds⟩ := went us rfl
  refine ⟨.returned ends, ?_⟩
  rcases kinds with rfl | only
  · exact agrees.foldl _
  · have streamed : ∀ u ∈ mirrored log, u.OnlyNotes := fun u mem => only u (same.mem_iff.mpr mem)
    have kept : Agrees graphState (us.foldl AgentState.merge graphState) :=
      (Agrees.foldl_notes only graphState).symm.trans ((Agrees.refl graphState).foldl us)
    exact ((Agrees.foldl_notes streamed state).trans agrees).trans kept

/-- Where a run stands: an execution is at `c` after the calls `done`, and in its next step. -/
structure Follows (deps : Deps) (review : Bool) (runId : UUID) (first : Config) (s₀ : AgentState)
    (log : CallLog) (tr : List Ran) (c : Config) (done current : CallLog) : Prop where
  split : log = done ++ current
  history : History (Superstep deps review) first tr c
  streamed : (mirrored done).Perm (tr.flatMap updatesOf)
  agrees : Agrees (mirrorState s₀ done) c.state
  inside : current = [] ∨ ∃ node q, c.node = some node ∧ Runs (fun _ _ _ _ => True)
    (superstep deps runId node c.state (mirrorState s₀ done)) () current q ()

theorem drive_follows {S : Type} {H : Handler Call Call.Answer Exn S} {st st' : S}
    (before : CallLog) (steps : Nat)
    {p' : Coroutine (AgentState × Except Exn Unit)}
    (history : History (Superstep deps review) first tr ⟨some node, graphState⟩)
    (streamed : (mirrored before).Perm (tr.flatMap updatesOf))
    (agrees : Agrees (mirrorState s₀ before) graphState)
    (run : Runs H (drive deps review runId steps node graphState (mirrorState s₀ before)) st log p' st') :
    ∃ tr c done current, Follows deps review runId first s₀ (before ++ log) tr c done current := by
  induction steps generalizing node graphState tr before log st with
  | zero =>
      cases run
      exact ⟨tr, _, before, [], rfl, history, streamed, agrees, .inl rfl⟩
  | succ steps ih =>
      rcases run.bind_prefix with ⟨q, inside⟩ | ⟨⟨state', outcome⟩, t, tr₁, tr₂, whole, rest, rfl⟩
      · exact ⟨tr, _, before, log, rfl, history, streamed, agrees,
          .inr ⟨node, q, rfl, inside.anyhow⟩⟩
      · have mirrors := whole.logs (fun _ _ _ _ _ => trivial) (superstep_mirrors deps node)
        cases outcome with
        | error exc =>
            cases rest
            rw [List.append_nil]
            exact ⟨tr, _, before, tr₁, rfl, history, streamed, agrees,
              .inr ⟨node, _, rfl, whole.anyhow⟩⟩
        | ok us =>
            obtain ⟨step, agrees'⟩ := mirrors.agrees review agrees
            obtain ⟨rfl, went⟩ := mirrors _ _ rfl
            rw [← mirrorState_append] at agrees' rest
            have history' := history.next step
            have streamed' : ∀ source target, (mirrored (before ++ tr₁)).Perm
                ((tr ++ [⟨source, .ok us, target⟩] : List Ran).flatMap updatesOf) := by
              intro source target
              rw [mirrored_append, List.flatMap_append, List.flatMap_singleton]
              exact streamed.append (went us rfl).2.1.symm
            rw [← List.append_assoc]
            cases edge : next deps review node (us.foldl AgentState.merge graphState) with
            | none =>
                rw [edge] at history'
                simp only [edge] at rest
                cases rest
                rw [List.append_nil]
                exact ⟨_, _, before ++ tr₁, [], (List.append_nil _).symm, history', streamed' _ _,
                  agrees', .inl rfl⟩
            | some node' =>
                rw [edge] at history'
                simp only [edge] at rest
                exact ih _ history' (streamed' _ _) agrees' rest

/-- A run of `drive` that is over: its state, and the execution if it went to the end. -/
theorem drive_completes (steps : Nat)
    (history : History (Superstep deps review) first tr ⟨some node, graphState⟩)
    (agrees : Agrees state graphState) :
    (drive deps review runId steps node graphState state).Logs (fun _ => True) fun log r =>
      ∀ state' outcome, r = .ok (state', outcome) → state' = mirrorState state log ∧
        (outcome = .ok () → ∃ tr' c, History (Superstep deps review) first tr' c ∧ c.node = none ∧
          Agrees state' c.state) := by
  induction steps generalizing node graphState state tr with
  | zero =>
      rintro _ _ ⟨⟩
      exact ⟨rfl, fun failed => nomatch failed⟩
  | succ steps ih =>
      refine logs_bind.mpr ((superstep_mirrors deps node).mono fun log r mirrors => ?_)
      cases r with
      | error exc => exact fun _ _ => of_error_eq_ok
      | ok p =>
          obtain ⟨state₁, outcome⟩ := p
          cases outcome with
          | error exc =>
              rintro _ _ ⟨⟩
              rw [List.append_nil]
              exact ⟨(mirrors _ _ rfl).1, fun failed => nomatch failed⟩
          | ok us =>
              obtain ⟨step, agrees'⟩ := mirrors.agrees review agrees
              obtain ⟨rfl, -⟩ := mirrors _ _ rfl
              have history' := history.next step
              dsimp only
              split
              · rename_i ended
                rw [ended] at history'
                rintro _ _ ⟨⟩
                rw [List.append_nil]
                exact ⟨rfl, fun _ => ⟨_, _, history', rfl, agrees'⟩⟩
              · rename_i node' edge
                rw [edge] at history'
                refine (ih history' agrees').mono fun log' r later state' outcome same => ?_
                rw [mirrorState_append]
                exact later state' outcome same

/-- A call that streams nothing but notes. -/
def Call.StreamsNotes : Call → Prop
  | .mirror u => u.OnlyNotes
  | _ => True

theorem Call.Commit.streamsNotes {c : Call} (h : c.Commit) : c.StreamsNotes := by
  cases c <;> trivial

theorem branches_streamNotes (topic : String) (docs : List (Nat × FetchedDoc))
    (updates : List (Nat × Update)) :
    (branches topic runId docs state updates).Calls Call.StreamsNotes := by
  induction docs generalizing state updates with
  | nil => trivial
  | cons doc rest ih =>
      have analyze : (analyzeOneNode topic doc.2).Calls Call.StreamsNotes :=
        (analyzeOneNode_calls topic doc.2).mono fun _ h => h.commit.streamsNotes
      refine analyze.attempt.then (analyzeOneNode_onlyNotes topic doc.2).attempt fun r only => ?_
      cases r with
      | error exc => trivial
      | ok update =>
          have yields : (yielded runId .analyzeOne state update).Calls Call.StreamsNotes := by
            refine (calls_call trivial).attempt.bind fun r => ?_
            cases r with
            | error exc => trivial
            | ok _ =>
                exact Calls.bind ⟨only update rfl, fun _ => trivial⟩ fun _ =>
                  (calls_call trivial).attempt.bind fun _ => trivial
          refine yields.bind fun (state, recorded) => ?_
          cases recorded with
          | error exc => trivial
          | ok _ => exact ih _

theorem analyzeAll_streamNotes :
    (superstep deps runId .analyzeOne graphState state).Calls Call.StreamsNotes := by
  rw [superstep, if_pos rfl]
  refine Calls.bind ⟨trivial, fun r => ?_⟩ fun _ => branches_streamNotes _ _ _
  cases r <;> trivial

theorem Follows.onlyNotes {c : Config} {done current : CallLog}
    (follows : Follows deps review runId first s₀ log tr c done current)
    (fans : c.node = some .analyzeOne) : ∀ u ∈ mirrored current, u.OnlyNotes := by
  intro u mem
  obtain ⟨e, inside, same⟩ := List.mem_filterMap.mp mem
  rcases follows.inside with rfl | ⟨node, q, due, run⟩
  · cases inside
  · obtain rfl : node = .analyzeOne := Option.some.inj (due.symm.trans fans)
    have notes := run.calls analyzeAll_streamNotes e inside
    obtain ⟨call, r⟩ := e
    cases call <;> cases same
    exact notes

end Drive

/-- **The mirrored state agrees with the graph's.**  Wherever a run is broken off, an execution
has come as far, with the updates that were streamed; the task's state agrees with LangGraph's
after the updates of the step that is going on, and during a fan-out also before them.  So does
the state that the task goes on with in the end, and what it persists is the same. -/
theorem mirror_agrees {deps : Deps} {review : Bool} {runId : UUID} {steps : Nat} {node : Node}
    {s₀ : AgentState} {S : Type} {H : Handler Call Call.Answer Exn S} {st st' : S} {log : CallLog}
    {p' : Coroutine (AgentState × Except Exn Unit)}
    (run : Runs H (drive deps review runId steps node s₀ s₀) st log p' st') :
    (∃ tr c done current, Follows deps review runId ⟨some node, s₀⟩ s₀ log tr c done current ∧
      Agrees (mirrorState s₀ log) ((mirrored current).foldl AgentState.merge c.state) ∧
      (c.node = some .analyzeOne → Agrees (mirrorState s₀ log) c.state)) ∧
    ∀ state outcome, p' = ended (.ok (state, outcome)) → state = mirrorState s₀ log ∧
      (outcome = .ok () → ∃ tr c, History (Superstep deps review) ⟨some node, s₀⟩ tr c ∧
        c.node = none ∧ Agrees state c.state ∧ result state = result c.state) := by
  constructor
  · obtain ⟨tr, c, done, current, follows⟩ :=
      drive_follows [] steps .start (.refl []) (.refl s₀) run
    rw [List.nil_append] at follows
    have whole : mirrorState s₀ log = mirrorState (mirrorState s₀ done) current := by
      rw [follows.split, mirrorState_append]
    refine ⟨tr, c, done, current, follows, ?_, fun fans => ?_⟩
    · rw [whole]
      exact follows.agrees.foldl _
    · rw [whole]
      exact (Agrees.foldl_notes (follows.onlyNotes fans) _).trans follows.agrees
  · rintro state outcome rfl
    obtain ⟨same, finished⟩ := run.logs (fun _ _ _ _ _ => trivial)
      (drive_completes steps .start (.refl s₀)) state outcome rfl
    refine ⟨same, fun went => ?_⟩
    obtain ⟨tr, c, history, stopped, agrees⟩ := finished went
    exact ⟨tr, c, history, stopped, agrees, agrees.result⟩

/-! ## Two branches -/

def fanDeps : Deps :=
  { settings := { recursionLimit := 25 }, searchTool := false, wikipediaTools := []
    py := { lower := id, loads := fun _ => none, strOf := fun _ => "" } }

def fanState : AgentState :=
  { initialState "notes" 1 7 with documents := [⟨"https://a", "one"⟩, ⟨"https://b", "two"⟩] }

/-- The branches finish in reverse, and the model has one reply. -/
def fanAnswers : (c : Call) → Unit → Except Exn c.Answer × Unit
  | .finishOrder _, u => (.ok Fin.revPerm, u)
  | .invoke _, u => (.ok (.text "note"), u)
  | .stream, u | .sql (.recordNode _ _ _), u => (.ok (), u)
  | _, u => (.error .timeout, u)

/-- The task ends up with the notes of one branch, and with the analysis of LangGraph's state. -/
theorem mirror_agrees_fan : ∃ state log tr c done current,
    (drive fanDeps true 7 2 .analyzeOne fanState fanState).Logged log
      (.ok (state, .error .recursionLimit)) ∧
    state.sourceNotes = ["<https://a> note"] ∧
    Follows fanDeps true 7 ⟨some .analyzeOne, fanState⟩ fanState log tr c done current ∧
    Agrees state ((mirrored current).foldl AgentState.merge c.state) := by
  have run := logged_run fanAnswers (drive fanDeps true 7 2 .analyzeOne fanState fanState)
  obtain ⟨⟨tr, c, done, current, follows, agrees, -⟩, completes⟩ := mirror_agrees run
  obtain ⟨same, -⟩ := completes _ _ rfl
  refine ⟨_, _, tr, c, done, current, run, rfl, follows, ?_⟩
  rw [same]
  exact agrees

end Intellivault.Agent
