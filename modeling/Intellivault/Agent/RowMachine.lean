import Intellivault.Lib.History
import Intellivault.Agent.Lifecycle

/-!
# The row of a run as a state machine

None of the updates of `agent_runs` looks at the current status, so what the status may do is
decided by the order in which the tasks and the reviews issue them.  While no two reviews of
the run overlap, `RowMachine` is kept by every step: the roles fit the status, a deciding
review finds the row awaiting one, and each status has its fields.
-/

namespace Intellivault.Agent

open Lib Prog

/-! ## The machine -/

/-- The moves of the status; `none` is before the run is created. -/
inductive StatusStep : Option AgentRunStatus → Option AgentRunStatus → Prop
  | stay {s : Option AgentRunStatus} : StatusStep s s
  | create : StatusStep none (some .queued)
  | start : StatusStep (some .queued) (some .running)
  | park : StatusStep (some .running) (some .awaitingReview)
  | succeed : StatusStep (some .running) (some .succeeded)
  | fail : StatusStep (some .running) (some .failed)
  | approve : StatusStep (some .awaitingReview) (some .running)
  | reject : StatusStep (some .awaitingReview) (some .cancelled)

/-- Nothing gets back to the queue. -/
theorem StatusStep.into {s t : Option AgentRunStatus} (step : StatusStep s t)
    (early : t = none ∨ t = some .queued) : s = none ∨ s = some .queued := by
  cases step with
  | stay => exact early
  | create => exact .inl rfl
  | _ => rcases early with absurd | absurd <;> cases absurd

/-- The fields of a row, by its status. -/
structure RowFits (row : RunRow) : Prop where
  error : row.error ≠ none ↔ row.status = .failed
  succeeded : row.status = .succeeded → row.result ≠ none ∧ row.currentNode = none
  awaiting : row.status = .awaitingReview →
    row.pending ≠ none ∧ row.result ≠ none ∧ row.currentNode = none ∧
      row.committedEntityIds = [] ∧ row.committedRelationshipIds = []
  cancelled : row.status = .cancelled →
    row.pending = none ∧ row.committedEntityIds = [] ∧ row.committedRelationshipIds = []
  queued : row.status = .queued →
    row.plan = none ∧ row.result = none ∧ row.pending = none ∧ row.error = none ∧
      row.currentNode = none ∧ row.committedEntityIds = [] ∧ row.committedRelationshipIds = []

def RunPool.status (pool : RunPool) : Option AgentRunStatus := pool.world.row.map RunRow.status

/-! ## What an act keeps -/

section Acts

variable {jsonb : Attributes → Attributes} {review : Bool} {runId : UUID} {k : Task}
  {e : Event Call Call.Answer Exn} {w w' : World} {a b : Role} {n n' : Role → Nat}

/-- With a review pending nothing is committed before it. -/
structure RowInv (review : Bool) (n : Role → Nat) (row : RunRow) : Prop where
  fields : RowFits row
  uncommitted : review = true → row.status = .running → 0 < n .research →
    row.committedEntityIds = [] ∧ row.committedRelationshipIds = []

theorem RowFits.insertRun (now : Time) (userId : UUID) (topic : String) :
    RowFits (Statement.insertRun runId now userId topic) := by
  constructor <;> simp [Statement.insertRun]

theorem RowFits.error_none {row : RunRow} (fits : RowFits row) (other : row.status ≠ .failed) :
    row.error = none := by
  by_contra some
  exact other (fits.error.mp some)

/-- Of a running row only its error is asked. -/
theorem RowFits.of_running {row : RunRow} (running : row.status = .running)
    (error : row.error = none) : RowFits row := by
  constructor <;> simp [running, error]

/-- A research does not outlive a call of somebody else. -/
theorem RowInv.later {row : RunRow} (inv : RowInv review n row)
    (fewer : n' .research ≤ n .research) : RowInv review n' row :=
  ⟨inv.fields, fun gate running some => inv.uncommitted gate running (by omega)⟩

/-- A note keeps the status and the error. -/
theorem RowInv.noted {row row' : RunRow} (inv : RowInv review n row)
    (running : row.status = .running) (status : row'.status = row.status)
    (error : row'.error = row.error)
    (uncommitted : review = true → 0 < n' .research →
      row'.committedEntityIds = [] ∧ row'.committedRelationshipIds = []) :
    RowInv review n' row' := by
  have none : row'.error = none := error.trans (inv.fields.error_none (by simp [running]))
  exact ⟨.of_running (status.trans running) none, fun gate _ some => uncommitted gate some⟩

/-- Without the gate the research commits; with it the commit comes after the research. -/
theorem Fits.no_research {status : Option AgentRunStatus} (fits : Fits n status)
    (inside : a = .research ∧ review = false ∨ a = .committing) (gate : review = true)
    (counted : 0 < n a) : n .research = 0 := by
  rcases inside with ⟨-, open'⟩ | rfl
  · rw [gate] at open'
    cases open'
  · rw [fits.running_of_busy (by omega)] at fits
    simp only [Fits, Unreviewed] at fits
    omega

theorem Writes.status {s : Sql} {row : RunRow} {now : Time} (writes : Writes review a s b)
    (counted : 0 < n a) (fits : Fits n (some row.status))
    (decides : a = .deciding → row.status = .awaitingReview) :
    StatusStep (some row.status) (some (s.rewrite jsonb now row).status) := by
  have busy : a = .research ∨ a = .committing → some row.status = some .running := by
    rintro (rfl | rfl) <;> exact fits.running_of_busy (by omega)
  cases writes with
  | begin =>
      rw [fits.queued_of_starting counted]
      exact .start
  | node inside => exact .stay
  | entity inside => exact .stay
  | relationship inside => exact .stay
  | park gate =>
      rw [busy (.inl rfl)]
      exact .park
  | succeed inside =>
      rw [busy (inside.imp_left And.left)]
      exact .succeed
  | fail inside =>
      rw [busy inside]
      exact .fail
  | approve =>
      rw [decides rfl]
      exact .approve
  | cancel =>
      rw [decides rfl]
      exact .reject

/-- A research begins with its first statement. -/
theorem Writes.research {s : Sql} {b' : Role} (writes : Writes review a s b)
    (goes : b' = b ∨ b' = a.lost) (shift : Shifts n n' a b') (begun : a ≠ .starting) :
    n' .research ≤ n .research := by
  have count := shift .research
  have lost : a.lost ≠ .research := by cases a <;> exact nofun
  have stays : b' = .research → a = .research := by
    intro same
    rcases goes with rfl | rfl
    · cases writes with
      | begin => exact (begun rfl).elim
      | node inside => exact same
      | entity inside => exact same
      | relationship inside => exact same
      | park gate => cases same
      | succeed inside => exact (lost same).elim
      | fail inside => exact (lost same).elim
      | approve => cases same
      | cancel => cases same
    · exact (lost same).elim
  by_cases same : b' = .research
  · rw [if_pos (stays same), if_pos same] at count
    omega
  · rw [if_neg same] at count
    omega

theorem Writes.row {s : Sql} {b' : Role} {row : RunRow} {now : Time}
    (writes : Writes review a s b) (goes : b' = b ∨ b' = a.lost) (shift : Shifts n n' a b')
    (counted : 0 < n a) (fits : Fits n (some row.status))
    (decides : a = .deciding → row.status = .awaitingReview) (inv : RowInv review n row) :
    RowInv review n' (s.rewrite jsonb now row) := by
  have busy : a = .research ∨ a = .committing → row.status = .running := by
    intro inside
    refine Option.some.inj (fits.running_of_busy ?_)
    rcases inside with rfl | rfl <;> omega
  have fewer := writes.research goes shift
  cases writes with
  | begin =>
      have queued := Option.some.inj (fits.queued_of_starting counted)
      obtain ⟨_, _, _, _, _, uncommitted⟩ := inv.fields.queued queued
      exact ⟨.of_running rfl rfl, fun _ _ _ => uncommitted⟩
  | node inside =>
      refine inv.noted (busy inside) rfl rfl fun gate some => inv.uncommitted gate (busy inside) ?_
      have before := fewer (by rcases inside with rfl | rfl <;> decide)
      omega
  | entity inside =>
      refine inv.noted (busy (inside.imp_left And.left)) rfl rfl fun gate some => ?_
      have none := fits.no_research inside gate counted
      have before := fewer (by rcases inside with ⟨rfl, -⟩ | rfl <;> decide)
      omega
  | relationship inside =>
      refine inv.noted (busy (inside.imp_left And.left)) rfl rfl fun gate some => ?_
      have none := fits.no_research inside gate counted
      have before := fewer (by rcases inside with ⟨rfl, -⟩ | rfl <;> decide)
      omega
  | park gate =>
      have running := busy (.inl rfl)
      have error := inv.fields.error_none (by simp [running])
      have uncommitted := inv.uncommitted gate running counted
      refine ⟨?_, fun _ running => by cases running⟩
      constructor <;> simp [Sql.rewrite, Statement.markAwaitingReview, error, uncommitted]
  | succeed inside =>
      have running := busy (inside.imp_left And.left)
      have error := inv.fields.error_none (by simp [running])
      refine ⟨?_, fun _ running => by cases running⟩
      constructor <;> simp [Sql.rewrite, Statement.markSucceeded, error]
  | fail inside =>
      refine ⟨?_, fun _ running => by cases running⟩
      constructor <;> simp [Sql.rewrite, Statement.markFailed]
  | approve =>
      refine ⟨.of_running rfl rfl, fun _ _ some => ?_⟩
      rw [decides rfl] at fits
      have none : n .research = 0 := fits.2.1
      have before := fewer (by decide)
      omega
  | cancel =>
      have awaiting := decides rfl
      obtain ⟨_, _, _, uncommitted⟩ := inv.fields.awaiting awaiting
      have error := inv.fields.error_none (by simp [awaiting])
      refine ⟨?_, fun _ running => by cases running⟩
      constructor <;> simp [Sql.rewrite, Statement.markCancelled, error, uncommitted]

/-- How the census changes with one call. -/
def Counts (w w' : World) (n n' : Role → Nat) (a b : Role) : Prop :=
  ∀ x, n' x + (if a = x then 1 else 0) + w.queued x = n x + (if b = x then 1 else 0) + w'.queued x

theorem Counts.shifts {t t' : Table} {q : List Job} (count : Counts ⟨t, q⟩ ⟨t', q⟩ n n' a b) :
    Shifts n n' a b := fun x => Nat.add_right_cancel (count x)

theorem Act.status (act : Act jsonb review runId k e w a b w') (counted : 0 < n a)
    (fits : Fits n (w.row.map RunRow.status))
    (decides : a = .deciding → w.row.map RunRow.status = some .awaitingReview) :
    StatusStep (w.row.map RunRow.status) (w'.row.map RunRow.status) := by
  cases act with
  | insert goes => exact .create
  | write what writes goes =>
      exact writes.status counted fits fun deciding => by simpa using decides deciding
  | _ => exact .stay

theorem Act.row (act : Act jsonb review runId k e w a b w') (count : Counts w w' n n' a b)
    (counted : 0 < n a) (fits : Fits n (w.row.map RunRow.status))
    (decides : a = .deciding → w.row.map RunRow.status = some .awaitingReview)
    (inv : ∀ row, w.row = some row → RowInv review n row) :
    ∀ row, w'.row = some row → RowInv review n' row := by
  have research := count .research
  intro row here
  cases act with
  | keep => exact (inv row here).later (by omega)
  | lose why =>
      refine (inv row here).later ?_
      cases a <;> simp only [Role.lost, reduceCtorEq, if_true, if_false] at research <;> omega
  | see found awaiting =>
      simp only [reduceCtorEq, if_false] at research
      exact (inv row here).later (by omega)
  | insert goes =>
      cases here
      exact ⟨.insertRun _ _ _, fun _ running => by cases running⟩
  | write what writes goes =>
      cases here
      exact writes.row (goes.imp_right And.left) count.shifts counted fits
        (fun deciding => by simpa using decides deciding) (inv _ rfl)
  | enqueueRun =>
      rw [World.queued_snoc, Job.role] at research
      simp only [reduceCtorEq, if_false] at research
      exact (inv row here).later (by omega)
  | enqueueCommit =>
      rw [World.queued_snoc, Job.role] at research
      simp only [reduceCtorEq, if_false] at research
      exact (inv row here).later (by omega)

/-- One review at a time, and what it read still holds. -/
structure Reviewing (n : Role → Nat) (status : Option AgentRunStatus) : Prop where
  one : n .asking + n .deciding ≤ 1
  awaits : 0 < n .deciding → status = some .awaitingReview

/-- Neither review roles nor the status have changed. -/
theorem Reviewing.fewer {status : Option AgentRunStatus} (reviewing : Reviewing n status)
    (asking : n' .asking ≤ n .asking) (deciding : n' .deciding ≤ n .deciding) :
    Reviewing n' status := by
  have one := reviewing.one
  exact ⟨by omega, fun some => reviewing.awaits (by omega)⟩

theorem Writes.caller {s : Sql} (writes : Writes review a s b) :
    a = .starting ∨ a = .research ∨ a = .committing ∨ a = .deciding := by
  cases writes with
  | begin => exact .inl rfl
  | node inside => exact .inr (inside.imp_right .inl)
  | entity inside => exact .inr (inside.imp And.left .inl)
  | relationship inside => exact .inr (inside.imp And.left .inl)
  | park gate => exact .inr (.inl rfl)
  | succeed inside => exact .inr (inside.imp And.left .inl)
  | fail inside => exact .inr (inside.imp_right .inl)
  | approve => exact .inr (.inr (.inr rfl))
  | cancel => exact .inr (.inr (.inr rfl))

/-- Nobody is about to review after a write. -/
theorem Writes.leads {s : Sql} {b' : Role} (writes : Writes review a s b)
    (goes : b' = b ∨ b' = a.lost) : b' ≠ .asking ∧ b' ≠ .deciding := by
  have lost : a.lost ≠ .asking ∧ a.lost ≠ .deciding := by cases a <;> exact ⟨nofun, nofun⟩
  have written : b ≠ .asking ∧ b ≠ .deciding := by
    cases writes with
    | node inside => rcases inside with rfl | rfl <;> exact ⟨nofun, nofun⟩
    | entity inside => rcases inside with ⟨rfl, -⟩ | rfl <;> exact ⟨nofun, nofun⟩
    | relationship inside => rcases inside with ⟨rfl, -⟩ | rfl <;> exact ⟨nofun, nofun⟩
    | succeed inside => exact lost
    | fail inside => exact lost
    | _ => exact ⟨nofun, nofun⟩
  rcases goes with rfl | rfl
  · exact written
  · exact lost

/-- While a review decides nobody else writes, and once it has written none decides. -/
theorem Writes.reviewing {s : Sql} {b' : Role} {status : Option AgentRunStatus}
    (writes : Writes review a s b) (goes : b' = b ∨ b' = a.lost) (shift : Shifts n n' a b')
    (counted : 0 < n a) (fits : Fits n status) (reviewing : Reviewing n status) :
    n' .asking = n .asking ∧ n' .deciding = 0 := by
  have one := reviewing.one
  have asking := shift .asking
  have deciding := shift .deciding
  have others : a = .starting ∨ a = .research ∨ a = .committing → n .deciding = 0 := by
    intro inside
    by_contra some
    rw [reviewing.awaits (by omega)] at fits
    simp only [Fits, Unreviewed] at fits
    rcases inside with rfl | rfl | rfl <;> omega
  rw [if_neg (writes.leads goes).1] at asking
  rw [if_neg (writes.leads goes).2] at deciding
  rcases writes.caller with rfl | rfl | rfl | rfl <;>
    simp only [reduceCtorEq, true_or, or_true, forall_const, if_true, if_false]
      at asking deciding others <;> omega

theorem Act.reviewing (act : Act jsonb review runId k e w a b w') (count : Counts w w' n n' a b)
    (counted : 0 < n a) (fits : Fits n (w.row.map RunRow.status))
    (reviewing : Reviewing n (w.row.map RunRow.status)) :
    Reviewing n' (w'.row.map RunRow.status) := by
  have asking := count .asking
  have deciding := count .deciding
  cases act with
  | keep => exact reviewing.fewer (by omega) (by omega)
  | lose why =>
      refine reviewing.fewer ?_ ?_
      · cases a <;> simp only [Role.lost, reduceCtorEq, if_true, if_false] at asking <;> omega
      · cases a <;> simp only [Role.lost, reduceCtorEq, if_true, if_false] at deciding <;> omega
  | see here awaiting =>
      have one := reviewing.one
      simp only [reduceCtorEq, if_true, if_false] at asking deciding
      refine ⟨by omega, fun _ => ?_⟩
      rw [here, Option.map_some, awaiting]
  | insert goes =>
      have none : n .deciding = 0 := by
        by_contra some
        cases reviewing.awaits (by omega)
      have one := reviewing.one
      rcases goes with rfl | ⟨rfl, -⟩ <;>
        simp only [World.queued, reduceCtorEq, if_false] at asking deciding <;>
        exact ⟨by omega, fun some => by omega⟩
  | write what writes goes =>
      have one := reviewing.one
      have quiet := writes.reviewing (goes.imp_right And.left) count.shifts counted fits reviewing
      exact ⟨by omega, fun some => by omega⟩
  | enqueueRun =>
      rw [World.queued_snoc, Job.role] at asking deciding
      simp only [reduceCtorEq, if_false] at asking deciding
      exact reviewing.fewer (by omega) (by omega)
  | enqueueCommit =>
      rw [World.queued_snoc, Job.role] at asking deciding
      simp only [reduceCtorEq, if_false] at asking deciding
      exact reviewing.fewer (by omega) (by omega)

/-- The run may still be parked. -/
def Unparked (n : Role → Nat) (status : Option AgentRunStatus) : Prop :=
  status = none ∨ status = some .queued ∨ 0 < n .research

theorem Fits.parked {status : Option AgentRunStatus} (fits : Fits n status)
    (awaiting : status = some .awaitingReview) : ¬Unparked n status := by
  rw [awaiting] at fits ⊢
  simp only [Fits, Unparked, reduceCtorEq, false_or, Option.some.injEq] at fits ⊢
  omega

theorem Act.research (act : Act jsonb review runId k e w a b w') (count : Counts w w' n n' a b)
    (counted : 0 < n a) (fits : Fits n (w.row.map RunRow.status)) :
    n' .research ≤ n .research ∨ w.row.map RunRow.status = some .queued := by
  have research := count .research
  cases act with
  | lose why =>
      cases a <;> simp only [Role.lost, reduceCtorEq, if_true, if_false] at research <;> omega
  | insert goes =>
      rcases goes with rfl | ⟨rfl, -⟩ <;>
        simp only [World.queued, reduceCtorEq, if_false] at research <;> omega
  | write what writes goes =>
      by_cases starting : a = .starting
      · rw [starting] at counted
        exact .inr (fits.queued_of_starting counted)
      · exact .inl (writes.research (goes.imp_right And.left) count.shifts starting)
  | enqueueRun =>
      rw [World.queued_snoc, Job.role] at research
      simp only [reduceCtorEq, if_false] at research
      omega
  | enqueueCommit =>
      rw [World.queued_snoc, Job.role] at research
      simp only [reduceCtorEq, if_false] at research
      omega
  | keep => omega
  | see here awaiting =>
      simp only [reduceCtorEq, if_false] at research
      omega

/-- The status becomes awaiting through a research. -/
theorem Act.parks (act : Act jsonb review runId k e w a b w') (counted : 0 < n a)
    (before : w.row.map RunRow.status ≠ some .awaitingReview)
    (after : w'.row.map RunRow.status = some .awaitingReview) : 0 < n .research := by
  cases act with
  | insert goes => cases after
  | write what writes goes =>
      cases writes with
      | park gate => exact counted
      | node _ | entity _ | relationship _ => exact (before after).elim
      | _ => cases after
  | _ => exact (before after).elim

end Acts

/-! ## The machine over runs -/

def Task.Reviews : Task → Prop
  | .review _ _ => True
  | _ => False

instance (task : Task) : Decidable task.Reviews :=
  match task with
  | .review _ _ => isTrue trivial
  | .create _ _ | .job _ => isFalse not_false

/-- A review starts when the earlier ones have ended. -/
def ReviewsApart (x : RunTransition) : Prop :=
  match x.label with
  | .start (.review _ _) => ∀ p ∈ x.source.processes, p.kind.Reviews → p.Ended
  | _ => True

instance (x : RunTransition) : Decidable (ReviewsApart x) :=
  match x with
  | ⟨s, .start (.review _ _), _⟩ =>
      inferInstanceAs (Decidable (∀ p ∈ s.processes, p.kind.Reviews → p.Ended))
  | ⟨_, .start (.create _ _), _⟩ | ⟨_, .start (.job _), _⟩ | ⟨_, .call _ _ _, _⟩ => isTrue trivial

/-- The run is parked by this step. -/
def Parks (x : RunTransition) : Prop :=
  x.source.status ≠ some .awaitingReview ∧ x.target.status = some .awaitingReview

instance (x : RunTransition) : Decidable (Parks x) := inferInstanceAs (Decidable (_ ∧ _))

section Machine

variable {deps : Deps} {jsonb : Attributes → Attributes} {runId : UUID} {pool pool' : RunPool}
  {l : Action Task Call Call.Answer Exn} {tr : List RunTransition}

/-- What every step keeps as long as reviews are apart. -/
structure RowMachine (deps : Deps) (runId : UUID) (pool : RunPool) : Prop where
  grounded : Grounded deps runId pool
  fits : Fits (census deps.settings.reviewRequired runId pool) pool.status
  reviewing : Reviewing (census deps.settings.reviewRequired runId pool) pool.status
  row : ∀ row, pool.world.row = some row →
    RowInv deps.settings.reviewRequired (census deps.settings.reviewRequired runId pool) row

theorem RowMachine.empty : RowMachine deps runId .empty := by
  have nobody : ∀ x, census deps.settings.reviewRequired runId .empty x = 0 := fun _ => rfl
  refine ⟨.empty, ?_, ⟨?_, ?_⟩, ?_⟩
  · simp only [RunPool.status, RunPool.empty, Option.map, Fits, Unreviewed]
    exact ⟨rfl, rfl, rfl, rfl, rfl, rfl, rfl⟩
  · rw [nobody, nobody]
    omega
  · rw [nobody]
    omega
  · intro row here
    cases here

/-- A review that has ended is neither asking nor deciding. -/
theorem Grounded.ended_role (grounded : Grounded deps runId pool) {p : RunProcess}
    (mem : p ∈ pool.processes) (ended : p.kind.Reviews → p.Ended) :
    roleOf deps.settings.reviewRequired runId p ≠ .asking ∧
      roleOf deps.settings.reviewRequired runId p ≠ .deciding := by
  have follows := grounded.follows p mem
  obtain ⟨k, past, rest⟩ := p
  rw [roleOf]
  cases k with
  | create _ _ =>
      cases stageOf _ _ _ <;> exact ⟨(fun same => by cases same), fun same => by cases same⟩
  | job job =>
      cases job <;> cases stageOf _ _ _ <;>
        exact ⟨(fun same => by cases same), fun same => by cases same⟩
  | review userId data =>
      obtain ⟨r, done⟩ := ended trivial
      have ends : Task.ends (.review userId data) r
        (stageOf deps.settings.reviewRequired runId ⟨_, past, rest⟩) := follows.ends_at done
      cases r with
      | ok _ =>
          rw [show stageOf _ _ _ = _ from ends]
          split <;> exact ⟨(fun same => by cases same), fun same => by cases same⟩
      | error _ =>
          rw [show stageOf _ _ _ = _ from ends]
          exact ⟨(fun same => by cases same), fun same => by cases same⟩

/-- Nobody reviews once the earlier reviews have ended. -/
theorem Grounded.nobody_reviews (grounded : Grounded deps runId pool)
    (ended : ∀ p ∈ pool.processes, p.kind.Reviews → p.Ended) {x : Role}
    (role : x = .asking ∨ x = .deciding) : census deps.settings.reviewRequired runId pool x = 0 := by
  have processes : (pool.processes.map (roleOf deps.settings.reviewRequired runId)).count x = 0 := by
    refine List.count_eq_zero.mpr fun mem => ?_
    obtain ⟨p, inside, same⟩ := List.mem_map.mp mem
    have other := grounded.ended_role inside (ended p inside)
    rcases role with rfl | rfl
    · exact other.1 same
    · exact other.2 same
  have queued : pool.world.queued x = 0 := by
    refine List.count_eq_zero.mpr fun mem => ?_
    obtain ⟨job, _, same⟩ := List.mem_map.mp mem
    rcases role with rfl | rfl <;> cases job <;> cases same
  rw [census, processes, queued]

theorem RowMachine.next (machine : RowMachine deps runId pool)
    (step : RunStep deps jsonb runId pool l pool') (apart : ReviewsApart ⟨pool, l, pool'⟩) :
    RowMachine deps runId pool' := by
  have grounded := machine.grounded.next step
  have one := machine.reviewing.one
  cases turn machine.grounded step with
  | @request task label kind same count =>
      have quiet := request_quiet kind count
      have status : pool'.status = pool.status := by rw [RunPool.status, same, RunPool.status]
      refine ⟨grounded, ?_, ?_, ?_⟩
      · rw [status]
        exact machine.fits.fewer fun x idle asking _ => (quiet x idle asking).le
      · rw [status]
        cases task with
        | create _ _ =>
            have asking := count .asking
            have deciding := quiet .deciding nofun nofun
            rw [if_neg nofun] at asking
            exact machine.reviewing.fewer asking.le deciding.le
        | review userId data =>
            have ended : ∀ p ∈ pool.processes, p.kind.Reviews → p.Ended := by
              rw [ReviewsApart, label] at apart
              exact apart
            have asking := count .asking
            have deciding := quiet .deciding nofun nofun
            rw [machine.grounded.nobody_reviews ended (.inl rfl)] at asking
            rw [machine.grounded.nobody_reviews ended (.inr rfl)] at deciding
            rw [show (Task.review userId data).role .fresh = .asking from rfl, if_pos rfl] at asking
            exact ⟨by omega, fun some => by omega⟩
        | job job => exact (kind job rfl).elim
      · rw [same]
        exact fun row here => (machine.row row here).later (quiet .research nofun nofun).le
  | taken label row count =>
      have status : pool'.status = pool.status := by rw [RunPool.status, row, RunPool.status]
      refine ⟨grounded, ?_, ?_, ?_⟩
      · rw [status]
        exact machine.fits.fewer fun x _ _ _ => (count x).le
      · rw [status]
        exact machine.reviewing.fewer (count _).le (count _).le
      · rw [row]
        exact fun row here => (machine.row row here).later (count _).le
  | @called k past e a b label caller counted act count =>
      have awaits : a = .deciding → pool.status = some .awaitingReview :=
        fun deciding => machine.reviewing.awaits (deciding ▸ counted)
      exact ⟨grounded, act.fits count (fun _ _ _ => awaits) machine.fits,
        act.reviewing count counted machine.fits machine.reviewing,
        act.row count counted machine.fits awaits machine.row⟩

theorem RowMachine.status_step (machine : RowMachine deps runId pool)
    (step : RunStep deps jsonb runId pool l pool') : StatusStep pool.status pool'.status := by
  cases turn machine.grounded step with
  | request label kind same count =>
      rw [RunPool.status, RunPool.status, same]
      exact .stay
  | taken label row count =>
      rw [RunPool.status, RunPool.status, row]
      exact .stay
  | called label caller counted act count =>
      exact act.status counted machine.fits fun deciding =>
        machine.reviewing.awaits (deciding ▸ counted)

/-- Nothing takes the run back to where it may be parked. -/
theorem RowMachine.unparked (machine : RowMachine deps runId pool)
    (step : RunStep deps jsonb runId pool l pool')
    (unparked : Unparked (census deps.settings.reviewRequired runId pool') pool'.status) :
    Unparked (census deps.settings.reviewRequired runId pool) pool.status := by
  have research : census deps.settings.reviewRequired runId pool' .research ≤
      census deps.settings.reviewRequired runId pool .research ∨ pool.status = some .queued := by
    cases turn machine.grounded step with
    | request label kind same count => exact .inl (request_quiet kind count .research nofun nofun).le
    | taken label row count => exact .inl (count _).le
    | called label caller counted act count => exact act.research count counted machine.fits
  have status := machine.status_step step
  rcases unparked with new | queued | some
  · exact (status.into (.inl new)).imp_right .inl
  · exact (status.into (.inr queued)).imp_right .inl
  · rcases research with fewer | queued
    · exact .inr (.inr (by omega))
    · exact .inr (.inl queued)

theorem RowMachine.parks (machine : RowMachine deps runId pool)
    (step : RunStep deps jsonb runId pool l pool') (parks : Parks ⟨pool, l, pool'⟩) :
    Unparked (census deps.settings.reviewRequired runId pool) pool.status := by
  obtain ⟨before, after⟩ := parks
  cases turn machine.grounded step with
  | request label kind same count =>
      rw [RunPool.status, same] at after
      exact (before after).elim
  | taken label row count =>
      rw [RunPool.status, row] at after
      exact (before after).elim
  | called label caller counted act count => exact .inr (.inr (act.parks counted before after))

/-- A run that has been parked is not parked again. -/
theorem RowMachine.parks_once
    (history : History (RunStep deps jsonb runId) RunPool.empty tr pool)
    (apart : ∀ x ∈ tr, ReviewsApart x) :
    RowMachine deps runId pool ∧ tr.countP (fun x => Parks x) ≤ 1 ∧
      (Unparked (census deps.settings.reviewRequired runId pool) pool.status →
        tr.countP (fun x => Parks x) = 0) := by
  induction history with
  | start => exact ⟨.empty, by simp, by simp⟩
  | @next tr t u l history step ih =>
      rw [forall_mem_snoc] at apart
      obtain ⟨machine, once, unparked⟩ := ih apart.1
      have after := machine.next step apart.2
      rw [List.countP_append, List.countP_singleton]
      by_cases parks : Parks ⟨t, l, u⟩
      · have never := unparked (machine.parks step parks)
        rw [if_pos (decide_eq_true parks)]
        exact ⟨after, by omega, fun open' => (after.fits.parked parks.2 open').elim⟩
      · rw [if_neg (by simpa using parks)]
        exact ⟨after, by omega, fun open' => unparked (machine.unparked step open')⟩

/-- **The status moves forward only, the run is parked at most once, and every row has the
fields of its status**, whatever the jobs and the reviews do, as long as no two reviews
overlap. -/
theorem row_machine (history : History (RunStep deps jsonb runId) RunPool.empty tr pool)
    (apart : ∀ x ∈ tr, ReviewsApart x) :
    (∀ x ∈ tr, StatusStep x.source.status x.target.status) ∧
      tr.countP (fun x => Parks x) ≤ 1 ∧ ∀ row, pool.world.row = some row → RowFits row := by
  obtain ⟨machine, once, _⟩ := RowMachine.parks_once history apart
  have visits := history.visits apart RowMachine.empty fun _ _ _ inv cond step => inv.next step cond
  refine ⟨fun x mem => ?_, once, fun row here => (machine.row row here).fields⟩
  obtain ⟨before, step, _⟩ := visits x mem
  exact before.status_step step

end Machine

/-! ## A run that is parked and approved -/

/-- The run is created and researched, and nothing is found. -/
def parking : List (Pool.Move Task Choice) :=
  [.start (.create 1 (.of "notes" (Eq.refl true))), .call 0 { draw := ⟨7, 0⟩ }, .call 0 {}, .call 0 {},
    .start (.job (.runAgent 7))] ++ List.replicate 32 (.call 1 {})

def approval : AgentRunReview := { decision := .approve }

/-- An approval, and another one once it has ended. -/
def approving : List (Pool.Move Task Choice) :=
  parking ++ .start (.review 1 approval) :: List.replicate 5 (.call 2 {}) ++
    [.start (.review 1 approval), .call 3 {}, .start (.job (.commitAgentRun 7)), .call 4 {}]

theorem row_machine_approving : ∃ (tr : List RunTransition) (pool : RunPool),
    History (RunStep quietDeps id 7) RunPool.empty tr pool ∧ pool.status = some .running ∧
      ((∀ x ∈ tr, StatusStep x.source.status x.target.status) ∧
        tr.countP (fun x => Parks x) ≤ 1 ∧ ∀ row, pool.world.row = some row → RowFits row) := by
  have approved : (RunPool.play quietDeps 7 (fun x => ReviewsApart x) approving).map
      RunPool.status = some (some .running) := by decide
  obtain ⟨pool, played, running⟩ := Option.map_eq_some_iff.mp approved
  obtain ⟨tr, history, apart⟩ := RunPool.play_history played
  exact ⟨tr, pool, history, running, row_machine history fun x mem => of_decide_eq_true (apart x mem)⟩

end Intellivault.Agent
