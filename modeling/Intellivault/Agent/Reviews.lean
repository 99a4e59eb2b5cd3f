import Intellivault.Lib.Script
import Intellivault.Agent.RowMachine

/-!
# Who decides a review

`submit_review` looks at the status in one statement and writes the decision in another one.
As long as each decision is written to a row that still awaits it (`DecidesParked`), one
review wins: `OneReview` is kept by every step, however many reviews overlap.
-/

namespace Intellivault.Agent

open Lib Prog

/-! ## Calls that write to the graph -/

instance (c : GraphCall) : Decidable c.Writes :=
  match c with
  | .createEntity _ _ _ _ _ | .attachSources _ _ _ | .createRelationship _ _
  | .setEntityEmbedding _ _ _ => isTrue trivial
  | .searchEntitiesByVector _ _ _ | .listGraph _ | .listVisibleRelationshipsAmong _ _ =>
      isFalse not_false

/-- The call writes to the knowledge graph. -/
def Call.WritesGraph : Call → Prop
  | .graph c => c.Writes
  | _ => False

instance (c : Call) : Decidable c.WritesGraph :=
  match c with
  | .graph c => inferInstanceAs (Decidable c.Writes)
  | .sql _ | .load _ | .parse _ | .kiq _ | .embed _ | .invoke _ | .ask _ _ | .tool _ _ | .guardUrl _
  | .fetchText _ | .sleep _ | .stream | .finishOrder _ | .mirror _ => isFalse not_false

/-- Who may write to the graph: a commit, or a run without review. -/
def Task.MayWrite (review : Bool) : Task → Prop
  | .job (.commitAgentRun _) => True
  | .job (.runAgent _) => review = false
  | _ => False

def Task.Writing (review : Bool) (k : Task) (c : Call) : Prop := c.WritesGraph → k.MayWrite review

section Calls

variable {α : Type} {review : Bool}

theorem calls_of_forall {P : Call → Prop} (all : ∀ c, P c) (p : Coroutine α) : p.Calls P := by
  induction p with
  | ret a => trivial
  | raise x => trivial
  | call c k ih => exact ⟨all c, ih⟩

theorem run_calls {P : Call → Prop} (parse : ∀ row, P (.parse row)) (row : RunRow) :
    (Service.run row).Calls P :=
  (calls_call (parse row)).bind fun _ => trivial

theorem createRun_writing (userId : UUID) (topic : Topic) :
    (Router.createRun userId topic).Calls ((Task.create userId topic).Writing review) := by
  refine Calls.bind ?_ fun run => (calls_call False.elim).bind fun _ => trivial
  exact (calls_call False.elim).bind fun row => run_calls (fun _ => False.elim) row

theorem reviewRun_writing (userId runId : UUID) (data : AgentRunReview) :
    (Router.reviewRun userId runId data).Calls ((Task.review userId data).Writing review) := by
  have decides : ∀ row, (Service.decide runId data row).Calls
      ((Task.review userId data).Writing review) := by
    intro row
    unfold Service.decide
    split
    · exact calls_call False.elim
    · refine Calls.bind ?_ fun _ => calls_call False.elim
      cases row.pending with
      | none => trivial
      | some drafts => exact (calls_call False.elim).bind fun _ => trivial
  refine Calls.bind ?_ fun run => ?_
  · refine (calls_call False.elim).bind fun found => ?_
    cases found with
    | none => trivial
    | some row =>
        dsimp only
        split
        · trivial
        · refine (decides row).bind fun updated => ?_
          cases updated with
          | none => trivial
          | some row => exact run_calls (fun _ => False.elim) row
  · split
    · exact (calls_call False.elim).bind fun _ => trivial
    · trivial

/-- With a review pending the research writes nothing. -/
theorem runAgent_writing (deps : Deps) (id : UUID) :
    (runAgent deps id).Calls ((Task.job (.runAgent id)).Writing deps.settings.reviewRequired) := by
  cases gate : deps.settings.reviewRequired with
  | false => exact calls_of_forall (fun _ _ => rfl) _
  | true =>
      have inside : ∀ c : Call, c.Body true → (Task.job (.runAgent id)).Writing true c := by
        intro c body writes
        cases c with
        | graph c => exact absurd writes body
        | _ => exact writes.elim
      have open' : true = true → ¬Node.plan.Commits := fun _ commits => commits.elim nofun nofun
      have drives : ∀ state : AgentState, (drive deps true id deps.settings.recursionLimit .plan
          state state).Calls ((Task.job (.runAgent id)).Writing true) := fun state =>
        (drive_calls deps id deps.settings.recursionLimit open' state state).mono inside
      unfold runAgent
      rw [gate]
      refine Calls.bind ?_ fun row => (calls_call False.elim).bind fun _ => ?_
      · refine (calls_call False.elim).bind fun found => ?_
        cases found <;> trivial
      · refine Calls.bind ?_ fun state => calls_call False.elim
        refine (drives _).bind fun (state, outcome) => ?_
        dsimp only
        split
        · trivial
        · exact (calls_call False.elim).bind fun _ => trivial

/-- **Who writes to the graph.** -/
theorem body_writing (deps : Deps) (runId : UUID) (task : Task) :
    (task.body deps runId).Calls (task.Writing deps.settings.reviewRequired) := by
  cases task with
  | create userId topic => exact (createRun_writing userId topic).bind fun _ => trivial
  | review userId data => exact (reviewRun_writing userId runId data).bind fun _ => trivial
  | job job =>
      cases job with
      | runAgent id => exact runAgent_writing deps id
      | commitAgentRun id => exact calls_of_forall (fun _ _ => trivial) _

end Calls

/-! ## The condition, and what it keeps -/

/-- The statements that write a decision. -/
def Call.decides : Call → Bool
  | .sql (.approveReview _ _) | .sql (.markCancelled _) => true
  | _ => false

/-- A decision is written to a row that awaits one. -/
def DecidesParked (x : RunTransition) : Prop :=
  x.label.does (fun e => e.1.decides) = true → x.source.status = some .awaitingReview

instance (x : RunTransition) : Decidable (DecidesParked x) := inferInstanceAs (Decidable (_ → _))

section Machine

variable {deps : Deps} {jsonb : Attributes → Attributes} {runId : UUID} {pool pool' : RunPool}
  {l : Action Task Call Call.Answer Exn} {tr : List RunTransition}

/-- What every step keeps as long as decisions are written to a parked row. -/
structure OneReview (deps : Deps) (runId : UUID) (pool : RunPool) : Prop where
  grounded : Grounded deps runId pool
  fits : Fits (census deps.settings.reviewRequired runId pool) pool.status
  /-- Only a run with review is ever parked, and only a parked one is rejected. -/
  gate : pool.status = some .awaitingReview ∨
    0 < census deps.settings.reviewRequired runId pool .rejecting →
      deps.settings.reviewRequired = true

theorem OneReview.empty : OneReview deps runId .empty := by
  refine ⟨.empty, RowMachine.empty.fits, ?_⟩
  rintro (⟨⟨⟩⟩ | some)
  exact absurd some (Nat.lt_irrefl 0)

/-- A decision made by a call of the step. -/
theorem DecidesParked.awaiting {k : Task} {past : List (Event Call Call.Answer Exn)}
    {e : Event Call Call.Answer Exn} {q : Sql} (parked : DecidesParked ⟨pool, l, pool'⟩)
    (label : l = .call k past e) (what : e.1 = .sql q) (decides : q.Decides) :
    pool.status = some .awaitingReview := by
  refine parked ?_
  rw [label, Action.does_call, what]
  cases q with
  | approveReview _ _ => rfl
  | markCancelled _ => rfl
  | _ => exact decides.elim

section Acts

variable {review : Bool} {k : Task} {e : Event Call Call.Answer Exn} {w w' : World} {a b : Role}
  {n n' : Role → Nat}

/-- Only a decision rejects. -/
theorem Writes.rejects {s : Sql} {b' : Role} (writes : Writes review a s b)
    (goes : b' = b ∨ b' = a.lost) (rejects : b' = .rejecting) : s.Decides := by
  have stops : a.lost ≠ .rejecting := by cases a <;> exact nofun
  subst rejects
  rcases goes with leads | lost
  · cases writes with
    | node inside => rcases inside with same | same <;> cases same.symm.trans leads.symm
    | entity inside => rcases inside with ⟨same, -⟩ | same <;> cases same.symm.trans leads.symm
    | relationship inside =>
        rcases inside with ⟨same, -⟩ | same <;> cases same.symm.trans leads.symm
    | succeed inside => exact (stops leads.symm).elim
    | fail inside => exact (stops leads.symm).elim
    | cancel => trivial
    | _ => cases leads
  · exact (stops lost.symm).elim

theorem Writes.gate {s : Sql} {b' : Role} {row : RunRow} {now : Time}
    (writes : Writes review a s b) (goes : b' = b ∨ b' = a.lost) (shift : Shifts n n' a b')
    (decides : s.Decides → row.status = .awaitingReview)
    (before : row.status = .awaitingReview ∨ 0 < n .rejecting → review = true)
    (after : (s.rewrite jsonb now row).status = .awaitingReview ∨ 0 < n' .rejecting) :
    review = true := by
  by_cases decisive : s.Decides
  · exact before (.inl (decides decisive))
  · have count := shift .rejecting
    rw [if_neg fun rejects => decisive (writes.rejects goes rejects)] at count
    rcases after with parked | some
    · cases writes with
      | park gate => exact gate
      | node _ | entity _ | relationship _ => exact before (.inl parked)
      | _ => cases parked
    · exact before (.inr (by omega))

/-- An act that parks the run, or rejects it, happens in a run with review. -/
theorem Act.gate (act : Act jsonb review runId k e w a b w') (count : Counts w w' n n' a b)
    (decides : ∀ q, e.1 = .sql q → q.Decides → w.row.map RunRow.status = some .awaitingReview)
    (before : w.row.map RunRow.status = some .awaitingReview ∨ 0 < n .rejecting → review = true)
    (after : w'.row.map RunRow.status = some .awaitingReview ∨ 0 < n' .rejecting) :
    review = true := by
  have rejecting := count .rejecting
  cases act with
  | write what writes goes =>
      simp only [Option.map_some, Option.some.injEq] at decides before after
      exact writes.gate (goes.imp_right And.left) count.shifts (decides _ what) before after
  | insert goes =>
      rcases after with ⟨⟨⟩⟩ | some
      refine before (.inr ?_)
      rcases goes with rfl | ⟨rfl, -⟩ <;>
        simp only [World.queued, reduceCtorEq, if_false] at rejecting <;> omega
  | lose why =>
      refine before (after.imp_right fun some => ?_)
      cases a <;> simp only [Role.lost, reduceCtorEq, if_true, if_false] at rejecting <;> omega
  | keep => exact before (after.imp_right fun some => by omega)
  | see here awaiting =>
      simp only [reduceCtorEq, if_false] at rejecting
      exact before (after.imp_right fun some => by omega)
  | enqueueRun =>
      rw [World.queued_snoc, Job.role] at rejecting
      simp only [reduceCtorEq, if_false] at rejecting
      exact before (after.imp_right fun some => by omega)
  | enqueueCommit =>
      rw [World.queued_snoc, Job.role] at rejecting
      simp only [reduceCtorEq, if_false] at rejecting
      exact before (after.imp_right fun some => by omega)

end Acts

theorem OneReview.next (one : OneReview deps runId pool)
    (step : RunStep deps jsonb runId pool l pool') (parked : DecidesParked ⟨pool, l, pool'⟩) :
    OneReview deps runId pool' := by
  have grounded := one.grounded.next step
  cases turn one.grounded step with
  | @request task label kind same count =>
      have status : pool'.status = pool.status := by rw [RunPool.status, same, RunPool.status]
      have quiet := request_quiet kind count
      refine ⟨grounded, ?_, ?_⟩
      · rw [status]
        exact one.fits.fewer fun x idle asking _ => (quiet x idle asking).le
      · rw [status, quiet .rejecting (by decide) (by decide)]
        exact one.gate
  | taken label row count =>
      have status : pool'.status = pool.status := by rw [RunPool.status, row, RunPool.status]
      refine ⟨grounded, ?_, ?_⟩
      · rw [status]
        exact one.fits.fewer fun x _ _ _ => (count x).le
      · rw [status, count]
        exact one.gate
  | called label caller counted act count =>
      have awaits : ∀ q, _ = Call.sql q → q.Decides → pool.status = some .awaitingReview :=
        fun _ what decisive => parked.awaiting label what decisive
      exact ⟨grounded, act.fits count (fun q what decisive _ => awaits q what decisive) one.fits,
        act.gate count awaits one.gate⟩

theorem OneReview.of_history (history : History (RunStep deps jsonb runId) RunPool.empty tr pool)
    (parked : ∀ x ∈ tr, DecidesParked x) : OneReview deps runId pool :=
  history.invariant parked .empty fun _ _ _ one met step => one.next step met

end Machine

/-! ## What is counted -/

/-- The call enqueues a commit job. -/
def Commits : Event Call Call.Answer Exn → Bool
  | ⟨.kiq (.commitAgentRun _), r⟩ =>
      match (r : Except Exn Unit) with
      | .ok _ => true
      | .error _ => false
  | _ => false

def Job.isCommit : Job → Bool
  | .commitAgentRun _ => true
  | .runAgent _ => false

def Task.isCommit : Task → Bool
  | .job (.commitAgentRun _) => true
  | _ => false

/-- A review that has answered with the run. -/
def Process.Reviewed (p : RunProcess) : Prop := p.kind.Reviews ∧ p.returned = true

instance (p : RunProcess) : Decidable (Process.Reviewed p) := inferInstanceAs (Decidable (_ ∧ _))

def Task.Rejects : Task → Prop
  | .review _ data => data.decision = .reject
  | _ => False

instance (task : Task) : Decidable task.Rejects :=
  match task with
  | .review _ data => inferInstanceAs (Decidable (data.decision = .reject))
  | .create _ _ | .job _ => isFalse not_false

section Counts

variable {deps : Deps} {jsonb : Attributes → Attributes} {runId : UUID} {pool pool' : RunPool}
  {l : Action Task Call Call.Answer Exn} {tr : List RunTransition}

theorem countP_le_counts {α : Type} {xs : List α} {p : α → Bool} {f : α → Role} {a b : Role}
    (role : ∀ x ∈ xs, p x = true → f x = a ∨ f x = b) :
    xs.countP p ≤ (xs.map f).count a + (xs.map f).count b := by
  induction xs with
  | nil => simp
  | cons x xs ih =>
      rw [List.forall_mem_cons] at role
      have rest := ih role.2
      simp only [List.countP_cons, List.map_cons, List.count_cons, beq_iff_eq]
      by_cases picked : p x = true
      · rcases role.1 picked with same | same <;> simp only [picked, same, if_true] <;> omega
      · rw [if_neg picked]
        omega

/-- The commit jobs there are: queued ones, and those that were started. -/
def RunPool.commits (pool : RunPool) : Nat :=
  pool.world.queue.countP Job.isCommit + pool.processes.countP fun p => p.kind.isCommit

/-- What a call puts in the queue. -/
theorem system_queue {c : Call} {w w' : World} {r : Except Exn c.Answer}
    (answer : system jsonb runId c w r w') :
    w'.queue.countP Job.isCommit = w.queue.countP Job.isCommit + (Commits ⟨c, r⟩).toNat := by
  cases c with
  | sql q => rw [answer.2.1]; rfl
  | kiq job =>
      rw [answer.2, List.countP_append]
      cases job <;> cases r <;> rfl
  | _ =>
      cases answer
      rfl

theorem RunPool.commits_step (step : RunStep deps jsonb runId pool l pool') :
    pool'.commits = pool.commits + (l.does Commits).toNat := by
  cases step with
  | @start w w' ps task started =>
      rcases arrives_cases started with ⟨rfl, request⟩ | ⟨job, before, after, rfl, queue, rfl⟩
      · have other : task.isCommit = false := by
          cases task with
          | job job => exact (request job rfl).elim
          | _ => rfl
        simp [RunPool.commits, other]
      · have same : (Task.job job).isCommit = job.isCommit := by cases job <;> rfl
        simp only [RunPool.commits, queue, List.countP_append, List.countP_cons, List.countP_nil,
          same, Action.does_start, Bool.toNat_false]
        omega
  | @call w w' before after k past c f r answer =>
      have queue := system_queue answer
      simp only [RunPool.commits, queue, List.countP_append, List.countP_cons, Action.does_call]
      omega

/-- Every commit job there is was enqueued by one call. -/
theorem RunPool.commits_counted
    (history : History (RunStep deps jsonb runId) RunPool.empty tr pool) :
    pool.commits = tr.countP fun x => x.label.does Commits := by
  induction history with
  | start => rfl
  | @next tr t u l before step ih =>
      rw [RunPool.commits_step step, ih, List.countP_append, List.countP_singleton]
      cases l.does Commits <;> rfl

theorem RunPool.commits_le (pool : RunPool) (review : Bool) (runId : UUID) :
    pool.commits ≤ census review runId pool .committing + census review runId pool .spent := by
  have queued : pool.world.queue.countP Job.isCommit ≤
      pool.world.queued .committing + pool.world.queued .spent := by
    refine countP_le_counts fun job _ commit => ?_
    cases job with
    | runAgent _ => cases commit
    | commitAgentRun _ => exact .inl rfl
  have started : (pool.processes.countP fun p => p.kind.isCommit) ≤
      (pool.processes.map (roleOf review runId)).count .committing +
        (pool.processes.map (roleOf review runId)).count .spent := by
    refine countP_le_counts fun p _ commit => ?_
    obtain ⟨k, past, rest⟩ := p
    rw [roleOf]
    cases k with
    | job job =>
        cases job with
        | runAgent _ => cases commit
        | commitAgentRun _ => cases stageOf _ _ _ <;> first | exact .inl rfl | exact .inr rfl
    | _ => cases commit
  rw [commits, census, census]
  omega

/-- What a review has done once it has answered. -/
theorem Grounded.reviewed_role (grounded : Grounded deps runId pool) {p : RunProcess}
    (mem : p ∈ pool.processes) (reviewed : Process.Reviewed p) :
    ∃ userId data, p.kind = .review userId data ∧ roleOf deps.settings.reviewRequired runId p =
      if data.decision = .approve then .approved else .rejecting := by
  have follows := grounded.follows p mem
  have ended := Process.rest_of_returned reviewed.2
  have kind := reviewed.1
  obtain ⟨k, past, rest⟩ := p
  cases k with
  | review userId data =>
      refine ⟨userId, data, rfl, ?_⟩
      have ends : stageOf deps.settings.reviewRequired runId ⟨_, past, rest⟩ = _ :=
        follows.ends_at (r := .ok ()) ended
      rw [roleOf, ends]
      split <;> rfl
  | _ => exact kind.elim

theorem Grounded.reviewed_le (grounded : Grounded deps runId pool) :
    (pool.processes.countP fun p => Process.Reviewed p) ≤
      census deps.settings.reviewRequired runId pool .approved +
        census deps.settings.reviewRequired runId pool .rejecting := by
  have counted : (pool.processes.countP fun p => Process.Reviewed p) ≤
      (pool.processes.map (roleOf deps.settings.reviewRequired runId)).count .approved +
        (pool.processes.map (roleOf deps.settings.reviewRequired runId)).count .rejecting := by
    refine countP_le_counts fun p mem reviewed => ?_
    obtain ⟨_, data, _, role⟩ := grounded.reviewed_role mem (of_decide_eq_true reviewed)
    rw [role]
    split
    · exact .inl rfl
    · exact .inr rfl
  rw [census, census]
  omega

/-- A rejected run has no commit, neither queued nor started. -/
theorem OneReview.rejected (one : OneReview deps runId pool) {p : RunProcess}
    (mem : p ∈ pool.processes) (reviewed : Process.Reviewed p) (rejects : p.kind.Rejects) :
    pool.status = some .cancelled ∧ deps.settings.reviewRequired = true ∧ pool.commits = 0 := by
  obtain ⟨userId, data, kind, role⟩ := one.grounded.reviewed_role mem reviewed
  rw [kind] at rejects
  rw [show data.decision = .reject from rejects, if_neg nofun] at role
  have some : 0 < census deps.settings.reviewRequired runId pool .rejecting := by
    refine Nat.add_pos_right _ (List.count_pos_iff.mpr ?_)
    exact List.mem_map.mpr ⟨p, mem, role⟩
  have cancelled := one.fits.cancelled_of_rejecting some
  refine ⟨cancelled, one.gate (.inr some), ?_⟩
  have fits := one.fits
  rw [cancelled] at fits
  have most := pool.commits_le deps.settings.reviewRequired runId
  simp only [Fits] at fits
  omega

theorem RunPool.writing (history : History (RunStep deps jsonb runId) RunPool.empty tr pool) :
    ∀ p ∈ pool.processes, Pool.Allowed (Task.Writing deps.settings.reviewRequired) p := by
  induction history with
  | start => exact nofun
  | next _ step ih => exact step.allowed (body_writing deps runId) ih

/-- Without a commit a run with review writes nothing to the graph. -/
theorem unwritten (history : History (RunStep deps jsonb runId) RunPool.empty tr pool)
    (review : deps.settings.reviewRequired = true) (uncommitted : pool.commits = 0) :
    ∀ x ∈ tr, ∀ k past e, x.label = .call k past e → ¬e.1.WritesGraph := by
  intro x inside k past e label writes
  obtain ⟨p, mem, rfl, made⟩ := Pool.remembered history x inside k past e label
  have may := (RunPool.writing history p mem).1 e made writes
  have none : p.kind.isCommit = false := by
    have processes := (Nat.add_eq_zero_iff.mp uncommitted).2
    simpa using List.countP_eq_zero.mp processes p mem
  rw [review] at may
  match kind : p.kind with
  | .job (.commitAgentRun _) =>
      rw [kind] at none
      cases none
  | .job (.runAgent _) =>
      rw [kind] at may
      cases may
  | .create _ _ | .review _ _ =>
      rw [kind] at may
      exact may

/-- **One review wins.**  If every decision is written to a row that still awaits it, then at
most one review answers with the run and at most one commit is enqueued; once a rejection has
answered, the run is cancelled and nothing was written to the graph. -/
theorem one_review_wins (history : History (RunStep deps jsonb runId) RunPool.empty tr pool)
    (parked : ∀ x ∈ tr, DecidesParked x) :
    (pool.processes.countP fun p => Process.Reviewed p) ≤ 1 ∧
      (tr.countP fun x => x.label.does Commits) ≤ 1 ∧
      ∀ p ∈ pool.processes, Process.Reviewed p → p.kind.Rejects →
        pool.status = some .cancelled ∧
          ∀ x ∈ tr, ∀ k past e, x.label = .call k past e → ¬e.1.WritesGraph := by
  have one := OneReview.of_history history parked
  obtain ⟨answers, commits⟩ := one.fits.one_review
  refine ⟨le_trans one.grounded.reviewed_le answers, ?_, fun p mem reviewed rejects => ?_⟩
  · rw [← RunPool.commits_counted history]
    exact le_trans (pool.commits_le _ _) commits
  · obtain ⟨cancelled, review, uncommitted⟩ := one.rejected mem reviewed rejects
    exact ⟨cancelled, unwritten history review uncommitted⟩

end Counts

/-! ## A rejection next to an approval -/

def rejection : AgentRunReview := { decision := .reject }

/-- An approval that commits one entity. -/
def rewrite : AgentRunReview :=
  { decision := .approve
    entities := some [
      { tempId := "t1", name := .of "draft" (Eq.refl true), kind := .of "text" (Eq.refl true) }] }

/-- Both find the run awaiting a review. -/
def askedTwice : List (Pool.Move Task Choice) :=
  parking ++ [.start (.review 1 rejection), .start (.review 1 rewrite), .call 2 {}, .call 3 {}]

/-- The approval cannot load the drafts, so the rejection stands. -/
def rejecting : List (Pool.Move Task Choice) :=
  askedTwice ++ [.call 3 { answer := fun _ => .error .timeout }, .call 2 {}, .call 2 {}]

/-- A rejection has answered. -/
def RunPool.Rejected (pool : RunPool) : Prop :=
  ∃ p ∈ pool.processes, Process.Reviewed p ∧ p.kind.Rejects

instance (pool : RunPool) : Decidable pool.Rejected :=
  inferInstanceAs (Decidable (∃ p ∈ pool.processes, Process.Reviewed p ∧ p.kind.Rejects))

theorem one_review_wins_rejecting : ∃ (tr : List RunTransition) (pool : RunPool),
    History (RunStep quietDeps id 7) RunPool.empty tr pool ∧ pool.Rejected ∧
      (pool.processes.countP fun p => Process.Reviewed p) ≤ 1 ∧
      (tr.countP fun x => x.label.does Commits) ≤ 1 ∧
      ∀ p ∈ pool.processes, Process.Reviewed p → p.kind.Rejects →
        pool.status = some .cancelled ∧
          ∀ x ∈ tr, ∀ k past e, x.label = .call k past e → ¬e.1.WritesGraph := by
  have rejected : (RunPool.play quietDeps 7 (fun x => DecidesParked x) rejecting).any
      (fun pool => pool.Rejected) = true := by decide +kernel
  obtain ⟨pool, played, rejected⟩ := (Option.any_eq_true _ _).mp rejected
  obtain ⟨tr, history, parked⟩ := RunPool.play_history played
  exact ⟨tr, pool, history, of_decide_eq_true rejected,
    one_review_wins history fun x mem => of_decide_eq_true (parked x mem)⟩

/-- The rejection is written and answered, and then the approval is; its commit starts. -/
def decidedTwice : List (Pool.Move Task Choice) :=
  askedTwice ++ List.replicate 2 (.call 2 {}) ++ List.replicate 4 (.call 3 {}) ++
    .start (.job (.commitAgentRun 7)) :: List.replicate 6 (.call 4 {})

/-- Both reviews win, and the commit of the approval writes to the graph of a run that was
rejected. -/
theorem two_reviews_win : ∃ (tr : List RunTransition) (pool : RunPool),
    History (RunStep quietDeps id 7) RunPool.empty tr pool ∧
      (pool.processes.countP fun p => Process.Reviewed p) = 2 ∧ pool.Rejected ∧
      pool.status = some .running ∧
      ∃ x ∈ tr, ∃ k past e, x.label = .call k past e ∧ e.1.WritesGraph := by
  have won : (RunPool.play quietDeps 7 (fun _ => true) decidedTwice).any (fun pool =>
      (pool.processes.countP fun p => Process.Reviewed p) = 2 ∧ pool.Rejected ∧
        pool.status = some .running ∧
        ∃ p ∈ pool.processes, ∃ e ∈ p.past, e.1.WritesGraph) = true := by decide +kernel
  obtain ⟨pool, played, won⟩ := (Option.any_eq_true _ _).mp won
  obtain ⟨tr, history, _⟩ := RunPool.play_history played
  obtain ⟨both, rejected, running, p, mem, e, made, writes⟩ := of_decide_eq_true won
  obtain ⟨past, rest, log⟩ := List.append_of_mem made
  obtain ⟨x, inside, label⟩ := Pool.logged history p mem past e rest log
  exact ⟨tr, pool, history, both, rejected, running, x, inside, p.kind, past, e, label, writes⟩

end Intellivault.Agent
