import Intellivault.Agent.RowMachine

/-!
# Who has the run to advance

A run that is queued or running waits for somebody: a job in the queue, a job that executes,
or a request that has written the status and has its job to enqueue.  `_guarded` covers only a
part of each job, and nothing covers the requests: `Exposed` is a call whose exception leaves
the run to nobody, and `no_stranded_run` says that nothing else does.
-/

namespace Intellivault.Agent

open Lib Prog

/-! ## Stranded runs -/

/-- The run is queued or running. -/
def Active (status : Option AgentRunStatus) : Prop :=
  status = some .queued ∨ status = some .running

instance (status : Option AgentRunStatus) : Decidable (Active status) :=
  inferInstanceAs (Decidable (_ ∨ _))

theorem Active.cases {status : AgentRunStatus} (active : Active (some status)) :
    status = .queued ∨ status = .running :=
  active.imp Option.some.inj Option.some.inj

instance (e : Event Call Call.Answer Exn) : Decidable (Raises e) :=
  match e with
  | ⟨_, .error exc⟩ => isTrue ⟨exc, rfl⟩
  | ⟨_, .ok _⟩ => isFalse nofun

/-- A job has the run to advance, and so has a request that has its job to enqueue. -/
def Task.carries : Task → Stage → Bool
  | .job _, _ => true
  | _, .owing _ => true
  | _, _ => false

/-- A call that raises leaves the run queued or running: `active` says that it was so before,
`wrote` that the call wrote the status all the same. -/
def Call.exposes (active wrote : Bool) : Call → Bool
  -- the request ends without enqueueing a job
  | .sql (.insertRun _ _) | .sql (.approveReview _ _) => wrote
  -- between the status and the job
  | .parse _ | .kiq _ => active
  -- the job is not under `_guarded` yet, and no other job will come
  | .sql (.getRunInternal _) | .sql (.getPending _) | .load _ => active
  | .sql (.markRunning _) => active || wrote
  -- nothing catches what the last statement of a job raises
  | .sql (.markAwaitingReview _ _ _ _) | .sql (.markSucceeded _ _ _ _)
  | .sql (.markFailed _ _ _ _) => active && !wrote
  | _ => false

section Carriers

variable (review : Bool) (runId : UUID)

/-- The process has the run to advance. -/
def Process.Carries (p : RunProcess) : Prop :=
  ¬p.Ended ∧ p.kind.carries (stageOf review runId p) = true

instance (p : RunProcess) : Decidable (Process.Carries review runId p) :=
  inferInstanceAs (Decidable (_ ∧ _))

/-- How many have the run to advance: the jobs in the queue, and the processes. -/
def RunPool.carriers (pool : RunPool) : Nat :=
  pool.world.queue.length + pool.processes.countP fun p => Process.Carries review runId p

/-- The run is queued or running, and nothing is left to advance it. -/
def RunPool.Stranded (pool : RunPool) : Prop :=
  Active pool.status ∧ pool.carriers review runId = 0

instance (pool : RunPool) : Decidable (pool.Stranded review runId) :=
  inferInstanceAs (Decidable (_ ∧ _))

/-- The call raises, and nobody but its caller has the run to advance. -/
def Exposed (x : RunTransition) : Prop :=
  match x.label with
  | .start _ => False
  | .call k past e =>
      Raises e ∧ e.1.exposes (Active x.source.status) (x.target.status ≠ x.source.status) = true ∧
        x.source.carriers review runId ≤
          (k.carries (stageOf review runId ⟨k, past, .ret ()⟩)).toNat

instance (x : RunTransition) : Decidable (Exposed review runId x) :=
  match x with
  | ⟨_, .start _, _⟩ => isFalse not_false
  | ⟨_, .call _ _ _, _⟩ => inferInstanceAs (Decidable (_ ∧ _ ∧ _))

end Carriers

/-! ## The carriers, by their roles -/

/-- The roles that have the run to advance. -/
def Role.Carries : Role → Prop
  | .starting | .research | .approving | .committing => True
  | _ => False

instance (x : Role) : Decidable x.Carries :=
  match x with
  | .starting | .research | .approving | .committing => isTrue trivial
  | .idle | .asking | .deciding | .approved | .rejecting | .spent => isFalse not_false

section Protocol

variable {review : Bool} {runId : UUID} {k : Task} {s : Stage} {e : Event Call Call.Answer Exn}

/-- A process that may still call carries if its role does. -/
theorem carries_of_legal (legal : k.advance review runId s e ≠ .bad) :
    k.carries s = true ↔ (k.role s).Carries := by
  cases k with
  | job job =>
      refine iff_of_true rfl ?_
      cases job with
      | runAgent id => cases s <;> first | exact trivial | exact (legal rfl).elim
      | commitAgentRun id => cases s <;> first | exact trivial | exact (legal rfl).elim
  | _ => cases s <;> first | exact iff_of_true rfl trivial | exact iff_of_false nofun not_false

/-- A process that has ended carries nothing. -/
theorem ends_idle {r : Except Exn Unit} (ends : k.ends r s) : ¬(k.role s).Carries := by
  cases k with
  | create _ _ => cases r <;> cases ends <;> exact not_false
  | review _ data =>
      cases r with
      | ok _ =>
          rw [show s = _ from ends]
          split <;> exact not_false
      | error _ =>
          cases ends
          exact not_false
  | job job =>
      have last : s = .done ∨ s = .dead := by
        cases r with
        | ok _ => exact .inl ends
        | error _ => exact ends
      rcases last with rfl | rfl <;> cases job <;> exact not_false

/-- What a carrier calls outside `_guarded`. -/
theorem exposes_of_carries (legal : k.advance review runId s e ≠ .bad)
    (carries : (k.role s).Carries) (unguarded : ¬k.Guards e.1) : e.1.exposes true false = true := by
  obtain ⟨c, r⟩ := e
  cases k with
  | create _ _ =>
      cases s with
      | owing job => cases c <;> first | rfl | exact (legal rfl).elim
      | _ => exact carries.elim
  | review _ _ =>
      cases s with
      | owing job => cases c <;> first | rfl | exact (legal rfl).elim
      | _ => exact carries.elim
  | job job =>
      cases c with
      | sql q =>
          cases q <;> first
            | rfl
            | exact (unguarded trivial).elim
            | (cases job <;> cases s <;> exact (legal rfl).elim)
      | kiq _ | load _ | parse _ => rfl
      | _ => exact (unguarded trivial).elim

/-- The first call of an idle process is the insert. -/
theorem exposes_of_idle {active : Bool} (legal : k.advance review runId s e ≠ .bad)
    (idle : k.role s = .idle) : e.1.exposes active true = true := by
  obtain ⟨c, r⟩ := e
  cases k with
  | create _ _ =>
      cases s with
      | fresh =>
          cases c with
          | sql q => cases q <;> first | rfl | exact (legal rfl).elim
          | _ => exact (legal rfl).elim
      | owing job => cases idle
      | _ => exact (legal rfl).elim
  | review _ _ => cases s <;> first | exact (legal rfl).elim | cases idle
  | job job => cases job <;> cases s <;> first | exact (legal rfl).elim | cases idle

/-- The protocol goes no further. -/
def Stage.Stopped (s : Stage) : Prop := s = .done ∨ s = .dead ∨ s = .bad

theorem Stage.Stopped.idle (stopped : s.Stopped) : ¬(k.role s).Carries := by
  rcases stopped with rfl | rfl | rfl <;> cases k <;> first
    | exact not_false
    | (rename_i job; cases job <;> exact not_false)

theorem stopped_ite {p : Prop} [Decidable p] : (if p then .dead else .bad : Stage).Stopped := by
  split
  · exact .inr (.inl rfl)
  · exact .inr (.inr rfl)

theorem stopped_done {p : Prop} [Decidable p] : (if p then .done else .bad : Stage).Stopped := by
  split
  · exact .inl rfl
  · exact .inr (.inr rfl)

section Raised

variable {c : Call} {exc : Exn} {id : UUID} {next : Stage} {active wrote : Bool}

theorem enqueues_raised {job : Job} : (Stage.enqueues job ⟨c, .error exc⟩).Stopped := by
  cases c with
  | parse _ => exact .inr (.inl rfl)
  | kiq _ => exact stopped_ite
  | _ => exact .inr (.inr rfl)

theorem inserts_raised : (Stage.inserts ⟨c, .error exc⟩).Stopped := by
  cases c with
  | sql q => cases q <;> first | exact .inr (.inl rfl) | exact .inr (.inr rfl)
  | _ => exact .inr (.inr rfl)

theorem looks_raised : (Stage.looks ⟨c, .error exc⟩).Stopped := by
  cases c with
  | sql q => cases q <;> first | exact .inr (.inl rfl) | exact .inr (.inr rfl)
  | _ => exact .inr (.inr rfl)

theorem decides_raised {decision : Decision} :
    (Stage.decides runId decision ⟨c, .error exc⟩).Stopped := by
  cases c with
  | load _ => exact .inr (.inl rfl)
  | sql q => cases q <;> first | exact stopped_ite | exact .inr (.inr rfl)
  | _ => exact .inr (.inr rfl)

theorem rejects_raised : (Stage.rejects ⟨c, .error exc⟩).Stopped := by
  cases c with
  | parse _ => exact .inr (.inl rfl)
  | _ => exact .inr (.inr rfl)

theorem fetches_raised : (Stage.fetches id next ⟨c, .error exc⟩).Stopped := by
  cases c with
  | sql q => cases q <;> first | exact stopped_ite | exact .inr (.inr rfl)
  | _ => exact .inr (.inr rfl)

theorem begins_raised : (Stage.begins id ⟨c, .error exc⟩).Stopped := by
  cases c with
  | sql q => cases q <;> first | exact stopped_ite | exact .inr (.inr rfl)
  | _ => exact .inr (.inr rfl)

theorem runs_raised (exposes : c.exposes active wrote = true) :
    (Stage.runs review id ⟨c, .error exc⟩).Stopped := by
  cases c with
  | sql q => cases q <;> first | exact stopped_done | exact .inr (.inr rfl) | cases exposes
  | kiq _ | load _ | parse _ => exact .inr (.inr rfl)
  | _ => cases exposes

theorem commits_raised (exposes : c.exposes active wrote = true) :
    (Stage.commits id ⟨c, .error exc⟩).Stopped := by
  cases c with
  | sql q => cases q <;> first
      | exact stopped_done
      | exact stopped_ite
      | exact .inr (.inr rfl)
      | cases exposes
  | load _ => exact .inr (.inl rfl)
  | kiq _ | parse _ => exact .inr (.inr rfl)
  | _ => cases exposes

end Raised

/-- Whoever is told that such a call raised stops. -/
theorem stops_of_exposes {active wrote : Bool} (raises : Raises e)
    (exposes : e.1.exposes active wrote = true) : (k.advance review runId s e).Stopped := by
  obtain ⟨c, r⟩ := e
  obtain ⟨exc, raised⟩ := raises
  have same : r = (.error exc : Except Exn c.Answer) := raised
  subst same
  cases k with
  | create _ _ =>
      cases s with
      | fresh => exact inserts_raised
      | owing job => exact enqueues_raised
      | _ => exact .inr (.inr rfl)
  | review _ _ =>
      cases s with
      | fresh => exact looks_raised
      | deciding => exact decides_raised
      | rejecting => exact rejects_raised
      | owing job => exact enqueues_raised
      | _ => exact .inr (.inr rfl)
  | job job =>
      cases job with
      | runAgent id =>
          cases s with
          | fresh => exact fetches_raised
          | ready => exact begins_raised
          | working => exact runs_raised exposes
          | _ => exact .inr (.inr rfl)
      | commitAgentRun id =>
          cases s with
          | fresh => exact fetches_raised
          | working => exact commits_raised exposes
          | _ => exact .inr (.inr rfl)

end Protocol

section Acts

variable {jsonb : Attributes → Attributes} {review : Bool} {runId : UUID} {k : Task}
  {e : Event Call Call.Answer Exn} {w w' : World} {a b : Role}

/-- How an update leaves the run active. -/
theorem Writes.active {s : Sql} {next : Role} {row : RunRow} {now : Time}
    (writes : Writes review a s next) (what : e.1 = .sql s)
    (goes : b = next ∨ b = a.lost ∧ Raises e ∧ ¬k.Guards e.1)
    (carried : a.Carries → ¬k.Guards e.1 → e.1.exposes true false = true)
    (active : Active (some (s.rewrite jsonb now row).status)) :
    b.Carries ∨ ¬a.Carries ∧ (s.rewrite jsonb now row).status = row.status ∨
      Raises e ∧ e.1.exposes (Active (some row.status))
        (some (s.rewrite jsonb now row).status ≠ some row.status) = true := by
  -- a note is made under `_guarded`, so its caller goes on
  have noted : a.Carries → (Call.sql s).exposes true false = false → next = a → b.Carries := by
    intro carries covered same
    rcases goes with rfl | ⟨-, -, unguarded⟩
    · rwa [same]
    · rw [← what, carried carries unguarded] at covered
      cases covered
  cases writes with
  | node inside =>
      exact .inl (noted (by rcases inside with rfl | rfl <;> trivial) rfl rfl)
  | entity inside =>
      exact .inl (noted (by rcases inside with ⟨rfl, -⟩ | rfl <;> trivial) rfl rfl)
  | relationship inside =>
      exact .inl (noted (by rcases inside with ⟨rfl, -⟩ | rfl <;> trivial) rfl rfl)
  | begin =>
      rcases goes with rfl | ⟨rfl, raises, -⟩
      · exact .inl trivial
      · refine .inr (.inr ⟨raises, ?_⟩)
        rw [what, Call.exposes, Bool.or_eq_true, decide_eq_true_iff, decide_eq_true_iff]
        by_cases same : row.status = .running
        · exact .inl (.inr (congrArg some same))
        · exact .inr fun written => same (Option.some.inj written).symm
  | approve =>
      rcases goes with rfl | ⟨rfl, raises, -⟩
      · exact .inl trivial
      · by_cases same : row.status = .running
        · exact .inr (.inl ⟨not_false, same.symm⟩)
        · refine .inr (.inr ⟨raises, ?_⟩)
          rw [what]
          exact decide_eq_true fun written => same (Option.some.inj written).symm
  | _ =>
      rcases active.cases with queued | running
      · cases queued
      · cases running

/-- **How an act leaves the run active**: its caller carries on, a job is enqueued, nothing
has changed, or the call was exposed. -/
theorem Act.active (act : Act jsonb review runId k e w a b w')
    (carried : a.Carries → ¬k.Guards e.1 → e.1.exposes true false = true)
    (idle : a = .idle → ∀ active, e.1.exposes active true = true)
    (active : Active (w'.row.map RunRow.status)) :
    b.Carries ∨ w.queue.length < w'.queue.length ∨
      ¬a.Carries ∧ w'.row.map RunRow.status = w.row.map RunRow.status ∨
      Raises e ∧ e.1.exposes (Active (w.row.map RunRow.status))
        (w'.row.map RunRow.status ≠ w.row.map RunRow.status) = true := by
  cases act with
  | keep =>
      by_cases carries : a.Carries
      · exact .inl carries
      · exact .inr (.inr (.inl ⟨carries, rfl⟩))
  | lose why =>
      by_cases carries : a.Carries
      · have raised : Raises e ∧ ¬k.Guards e.1 := by
          rcases why with raised | rfl | rfl | absent
          · exact raised
          · exact carries.elim
          · exact carries.elim
          · rw [absent] at active
            exact absurd active (by decide)
        have exposes := carried carries raised.2
        refine .inr (.inr (.inr ⟨raised.1, ?_⟩))
        rwa [decide_eq_true active, decide_eq_false (not_not.mpr rfl)]
      · exact .inr (.inr (.inl ⟨carries, rfl⟩))
  | see here awaiting =>
      rw [here, Option.map_some, awaiting] at active
      exact absurd active (by decide)
  | insert goes =>
      rcases goes with rfl | ⟨rfl, raises, -⟩
      · exact .inl trivial
      · exact .inr (.inr (.inr ⟨raises, idle rfl _⟩))
  | write what writes goes =>
      refine (writes.active what goes carried active).imp_right fun rest => .inr ?_
      exact rest.imp_left fun stays => ⟨stays.1, congrArg some stays.2⟩
  | enqueueRun => exact .inr (.inl (by simp))
  | enqueueCommit => exact .inr (.inl (by simp))

/-- A statement about the run writes its own status or none. -/
theorem system_status {q : Sql} {r : Except Exn q.Answer}
    (answer : system jsonb runId (.sql q) w r w') (update : q.runId ≠ none) :
    w'.row.map RunRow.status = w.row.map RunRow.status ∨
      ∃ now row, w'.row = some (q.rewrite jsonb now row) := by
  cases here : w.row with
  | some row =>
      rcases system_rewrite answer update here with rfl | ⟨now, rfl⟩
      · exact .inl (congrArg _ here)
      · exact .inr ⟨now, row, rfl⟩
  | none =>
      obtain ⟨⟨draw, done⟩, -⟩ := answer
      have absent : (q.exec jsonb draw.newId draw.now w.row).1 = none := by
        rw [here, ← Option.map_eq_none_iff, Sql.exec_id q update]
        rfl
      have gone : w'.row = none := by
        rcases done with ⟨-, row⟩ | ⟨-, row | row⟩
        · exact row.trans absent
        · exact row.trans here
        · exact row.trans absent
      exact .inl (congrArg _ gone)

/-- An exposed call leaves the run active, and the queue as it was. -/
theorem exposes_active (raises : Raises e) (answer : system jsonb runId e.1 w e.2 w')
    (exposes : e.1.exposes (Active (w.row.map RunRow.status))
      (w'.row.map RunRow.status ≠ w.row.map RunRow.status) = true) :
    Active (w'.row.map RunRow.status) ∧ w'.queue = w.queue := by
  obtain ⟨c, r⟩ := e
  obtain ⟨exc, raised⟩ := raises
  have same : r = (.error exc : Except Exn c.Answer) := raised
  subst same
  cases c with
  | parse row | load column =>
      cases answer
      exact ⟨of_decide_eq_true exposes, rfl⟩
  | kiq job =>
      obtain ⟨row, queue⟩ := answer
      rw [row]
      exact ⟨of_decide_eq_true exposes, queue.trans (List.append_nil _)⟩
  | sql q =>
      refine ⟨?_, answer.2.1⟩
      cases q with
      | insertRun userId topic =>
          have wrote := of_decide_eq_true exposes
          obtain ⟨-, now, ⟨⟨⟩, -⟩ | ⟨-, rfl | rfl⟩⟩ := system_insert answer
          · exact (wrote rfl).elim
          · exact .inl rfl
      | approveReview id pending =>
          have wrote := of_decide_eq_true exposes
          rcases system_status answer nofun with same | ⟨now, row, written⟩
          · exact (wrote same).elim
          · rw [written]
            exact .inr rfl
      | markRunning id =>
          rcases system_status answer nofun with same | ⟨now, row, written⟩
          · rw [Call.exposes, Bool.or_eq_true, decide_eq_true_iff, decide_eq_true_iff] at exposes
            rw [same]
            exact exposes.resolve_right fun wrote => wrote same
          · rw [written]
            exact .inr rfl
      | getRunInternal id | getPending id =>
          obtain ⟨rfl, -⟩ := system_read answer fun _ _ _ => rfl
          exact of_decide_eq_true exposes
      | markAwaitingReview _ _ _ _ | markSucceeded _ _ _ _ | markFailed _ _ _ _ =>
          rw [Call.exposes, Bool.and_eq_true, Bool.not_eq_true', decide_eq_true_iff,
            decide_eq_false_iff_not, not_not] at exposes
          rw [exposes.2]
          exact exposes.1
      | _ => cases exposes
  | _ => cases exposes

/-- A call takes nothing out of the queue. -/
theorem Act.queue_le (act : Act jsonb review runId k e w a b w') :
    w.queue.length ≤ w'.queue.length := by
  cases act with
  | enqueueRun => simp
  | enqueueCommit => simp
  | _ => exact le_rfl

end Acts

/-! ## Steps -/

section Steps

variable {deps : Deps} {jsonb : Attributes → Attributes} {runId : UUID} {pool pool' : RunPool}
  {l : Action Task Call Call.Answer Exn} {tr : List RunTransition}

theorem Grounded.carries_iff (grounded : Grounded deps runId pool) {p : RunProcess}
    (mem : p ∈ pool.processes) : Process.Carries deps.settings.reviewRequired runId p ↔
      (roleOf deps.settings.reviewRequired runId p).Carries := by
  have follows := grounded.follows p mem
  by_cases ended : p.Ended
  · obtain ⟨r, last⟩ := id ended
    exact iff_of_false (fun carries => carries.1 ended) (ends_idle (follows.ends_at last))
  · obtain ⟨k, past, rest⟩ := p
    rw [Process.Carries, roleOf, and_iff_right ended]
    cases rest with
    | ret a => exact (ended ⟨.ok a, rfl⟩).elim
    | raise x => exact (ended ⟨.error x, rfl⟩).elim
    | call c f => exact carries_of_legal (follows.2 (.error .timeout) _ rfl).1

theorem Grounded.carriers_eq (grounded : Grounded deps runId pool) :
    pool.carriers deps.settings.reviewRequired runId = pool.world.queue.length +
      pool.processes.countP fun p => (roleOf deps.settings.reviewRequired runId p).Carries := by
  rw [RunPool.carriers]
  congr 1
  exact List.countP_congr fun p mem => by
    simpa only [decide_eq_true_eq] using grounded.carries_iff mem

theorem countP_insert {α : Type} (q : α → Bool) (before after : List α) (x : α) :
    (before ++ x :: after).countP q = (before ++ after).countP q + (q x).toNat := by
  rw [List.countP_append, List.countP_append, List.countP_cons, Nat.add_assoc]
  cases q x <;> rfl

/-- A call, seen from its caller in stage `s`; `others` counts the other processes that have
the run to advance. -/
structure Called (deps : Deps) (jsonb : Attributes → Attributes) (runId : UUID) (pool : RunPool)
    (k : Task) (s : Stage) (e : Event Call Call.Answer Exn) (others : Nat) (pool' : RunPool) :
    Prop where
  legal : k.advance deps.settings.reviewRequired runId s e ≠ .bad
  act : Act jsonb deps.settings.reviewRequired runId k e pool.world (k.role s)
    (k.role (k.advance deps.settings.reviewRequired runId s e)) pool'.world
  answer : system jsonb runId e.1 pool.world e.2 pool'.world
  sound : Sound runId k s pool.world
  before : pool.carriers deps.settings.reviewRequired runId =
    pool.world.queue.length + others + (k.carries s).toNat
  after : pool'.carriers deps.settings.reviewRequired runId =
    pool'.world.queue.length + others +
      (decide (k.role (k.advance deps.settings.reviewRequired runId s e)).Carries).toNat

theorem Grounded.called {k : Task} {past : List (Event Call Call.Answer Exn)}
    {e : Event Call Call.Answer Exn} (grounded : Grounded deps runId pool)
    (step : RunStep deps jsonb runId pool (.call k past e) pool') :
    ∃ others, Called deps jsonb runId pool k
      (stageOf deps.settings.reviewRequired runId ⟨k, past, .ret ()⟩) e others pool' := by
  have grounded' := grounded.next step
  cases step with
  | @call w w' before after k past c f r answer =>
      have mem : (⟨k, past, .call c f⟩ : RunProcess) ∈ before ++ ⟨k, past, .call c f⟩ :: after := by
        simp
      have next : stageOf deps.settings.reviewRequired runId ⟨k, past ++ [⟨c, r⟩], f r⟩ =
          k.advance deps.settings.reviewRequired runId
            (stageOf deps.settings.reviewRequired runId ⟨k, past, .ret ()⟩) ⟨c, r⟩ :=
        Pool.stage_snoc _ _ k past ⟨c, r⟩ (.ret ()) (f r)
      have legal := ((grounded.follows _ mem).2 r _ rfl).1
      have own : k.carries (stageOf deps.settings.reviewRequired runId ⟨k, past, .ret ()⟩) =
          decide (k.role (stageOf deps.settings.reviewRequired runId ⟨k, past, .ret ()⟩)).Carries :=
        Bool.eq_iff_iff.mpr ((carries_of_legal legal).trans decide_eq_true_iff.symm)
      refine ⟨(before ++ after).countP fun p =>
        (roleOf deps.settings.reviewRequired runId p).Carries, legal, ?_, answer,
        grounded.sound _ mem, ?_, ?_⟩
      · rw [← next]
        exact (grounded.moves answer).1
      · rw [grounded.carriers_eq, countP_insert, Nat.add_assoc, own]
        rfl
      · rw [grounded'.carriers_eq, countP_insert, Nat.add_assoc, ← next]
        rfl

section Call

variable {k : Task} {past : List (Event Call Call.Answer Exn)} {e : Event Call Call.Answer Exn}
  {others : Nat}

/-- A call that leaves the run to nobody is exposed. -/
theorem Called.kept (called : Called deps jsonb runId pool k
      (stageOf deps.settings.reviewRequired runId ⟨k, past, .ret ()⟩) e others pool')
    (fine : ¬pool.Stranded deps.settings.reviewRequired runId)
    (stranded : pool'.Stranded deps.settings.reviewRequired runId) :
    Exposed deps.settings.reviewRequired runId ⟨pool, .call k past e, pool'⟩ := by
  obtain ⟨active, nobody⟩ := stranded
  rw [called.after] at nobody
  have alone : pool.world.queue.length + others = 0 := by
    have longer := called.act.queue_le
    omega
  have before := called.before
  rw [alone, Nat.zero_add] at before
  rcases called.act.active (exposes_of_carries called.legal)
    (fun idle _ => exposes_of_idle called.legal idle) active with
    on | queued | ⟨idle, same⟩ | ⟨raises, exposes⟩
  · rw [decide_eq_true on, Bool.toNat_true] at nobody
    omega
  · omega
  · have rests := Bool.eq_false_iff.mpr (mt (carries_of_legal called.legal).mp idle)
    rw [rests] at before
    refine (fine ⟨?_, before⟩).elim
    rw [RunPool.status, ← same]
    exact active
  · refine ⟨raises, exposes, ?_⟩
    exact before.le

/-- An exposed call leaves the run to nobody. -/
theorem Called.strands (called : Called deps jsonb runId pool k
      (stageOf deps.settings.reviewRequired runId ⟨k, past, .ret ()⟩) e others pool')
    (exposed : Exposed deps.settings.reviewRequired runId ⟨pool, .call k past e, pool'⟩) :
    pool'.Stranded deps.settings.reviewRequired runId := by
  obtain ⟨raises, exposes, alone⟩ := exposed
  obtain ⟨active, queue⟩ := exposes_active raises called.answer exposes
  have stops : ¬(k.role (k.advance deps.settings.reviewRequired runId
      (stageOf deps.settings.reviewRequired runId ⟨k, past, .ret ()⟩) e)).Carries :=
    (stops_of_exposes raises exposes).idle
  refine ⟨active, ?_⟩
  rw [called.after, queue, decide_eq_false stops, Bool.toNat_false]
  rw [called.before] at alone
  omega

end Call

/-- Nothing is stranded by a start: a job leaves the queue to execute. -/
theorem Grounded.started {task : Task} (grounded : Grounded deps runId pool)
    (step : RunStep deps jsonb runId pool (.start task) pool')
    (fine : ¬pool.Stranded deps.settings.reviewRequired runId) :
    ¬pool'.Stranded deps.settings.reviewRequired runId := by
  have grounded' := grounded.next step
  rintro ⟨active, nobody⟩
  rw [grounded'.carriers_eq] at nobody
  cases step with
  | @start w w' ps task started =>
      rw [List.countP_append, List.countP_singleton] at nobody
      rcases arrives_cases started with ⟨rfl, -⟩ | ⟨job, -, -, rfl, -, -⟩
      · refine fine ⟨active, ?_⟩
        rw [grounded.carriers_eq]
        dsimp only at nobody ⊢
        omega
      · have carries : (roleOf deps.settings.reviewRequired runId
            ⟨.job job, [], Task.body deps runId (.job job)⟩).Carries := by
          cases job <;> exact trivial
        rw [decide_eq_true carries, if_pos rfl] at nobody
        omega

/-- **A step strands the run exactly if it is an exposed call.** -/
theorem Grounded.stranded_iff (grounded : Grounded deps runId pool)
    (step : RunStep deps jsonb runId pool l pool')
    (fine : ¬pool.Stranded deps.settings.reviewRequired runId) :
    pool'.Stranded deps.settings.reviewRequired runId ↔
      Exposed deps.settings.reviewRequired runId ⟨pool, l, pool'⟩ := by
  cases l with
  | start task => exact iff_of_false (grounded.started step fine) not_false
  | call k past e =>
      obtain ⟨others, called⟩ := grounded.called step
      exact ⟨called.kept fine, called.strands⟩

theorem Grounded.of_history (history : History (RunStep deps jsonb runId) RunPool.empty tr pool) :
    Grounded deps runId pool := by
  induction history with
  | start => exact .empty
  | next _ step ih => exact ih.next step

/-- The last state of a run whose states are fine. -/
theorem not_stranded_last {review : Bool}
    (history : History (RunStep deps jsonb runId) RunPool.empty tr pool)
    (fine : ∀ x ∈ tr, ¬x.target.Stranded review runId) : ¬pool.Stranded review runId := by
  cases history with
  | start => exact fun stranded => absurd stranded.1 (by decide)
  | next _ _ => exact (forall_mem_snoc.mp fine).2

/-- **While the run is queued or running, something is left to advance it, in every state, if
and only if no call is exposed**, whatever the requests, the jobs and their order. -/
theorem no_stranded_run (history : History (RunStep deps jsonb runId) RunPool.empty tr pool) :
    (∀ x ∈ tr, ¬x.target.Stranded deps.settings.reviewRequired runId) ↔
      ∀ x ∈ tr, ¬Exposed deps.settings.reviewRequired runId x := by
  induction history with
  | start => simp
  | @next tr t u l history step ih =>
      rw [forall_mem_snoc, forall_mem_snoc, ← ih]
      refine and_congr_right fun fine => not_congr ?_
      exact (Grounded.of_history history).stranded_iff step (not_stranded_last history fine)

end Steps

/-! ## A run that is stranded by its request -/

/-- The run is created, and its job cannot be enqueued. -/
def unqueued : List (Pool.Move Task Choice) :=
  [.start (.create 1 (.of "notes" (Eq.refl true))), .call 0 { draw := ⟨7, 0⟩ }, .call 0 {},
    .call 0 { raises := some .timeout }]

/-- The run stays queued; no job is in the queue, and nothing executes. -/
theorem queued_for_nothing : ∃ (tr : List RunTransition) (pool : RunPool),
    History (RunStep quietDeps id 7) RunPool.empty tr pool ∧ pool.status = some .queued ∧
      pool.world.queue = [] ∧ ∀ p ∈ pool.processes, p.Ended := by
  have left : (RunPool.play quietDeps 7 (fun _ => true) unqueued).any (fun pool =>
      pool.status = some .queued ∧ pool.world.queue.isEmpty ∧
        ∀ p ∈ pool.processes, p.Ended) = true := by decide +kernel
  obtain ⟨pool, played, left⟩ := (Option.any_eq_true _ _).mp left
  obtain ⟨tr, history, -⟩ := RunPool.play_history played
  obtain ⟨queued, empty, ended⟩ := of_decide_eq_true left
  exact ⟨tr, pool, history, queued, List.isEmpty_iff.mp empty, ended⟩

/-- The run is approved, and its commit executes. -/
theorem no_stranded_run_approving : ∃ (tr : List RunTransition) (pool : RunPool),
    History (RunStep quietDeps id 7) RunPool.empty tr pool ∧ pool.status = some .running ∧
      ∀ x ∈ tr, ¬x.target.Stranded quietDeps.settings.reviewRequired 7 := by
  have approved : (RunPool.play quietDeps 7
      (fun x => ¬Exposed quietDeps.settings.reviewRequired 7 x) approving).map
      RunPool.status = some (some .running) := by decide +kernel
  obtain ⟨pool, played, running⟩ := Option.map_eq_some_iff.mp approved
  obtain ⟨tr, history, guarded⟩ := RunPool.play_history played
  exact ⟨tr, pool, history, running,
    (no_stranded_run history).mpr fun x mem => of_decide_eq_true (guarded x mem)⟩

end Intellivault.Agent
