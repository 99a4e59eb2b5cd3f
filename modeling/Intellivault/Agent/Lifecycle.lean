import Intellivault.Agent.Census

/-!
# The life of a run

At any time at most one process or queued job has the run to advance: first the research,
then, once a review is approved, the commit.  `Fits` says which roles there may be in which
status; it is kept as long as every review is written to a row that still awaits it.
-/

namespace Intellivault.Agent

open Lib Prog

/-- Nothing has come of a review yet. -/
def Unreviewed (n : Role → Nat) : Prop :=
  n .approving = 0 ∧ n .approved = 0 ∧ n .rejecting = 0 ∧ n .committing = 0 ∧ n .spent = 0

/-- The roles there may be in a status; `none` is before the run is created. -/
def Fits (n : Role → Nat) : Option AgentRunStatus → Prop
  | none | some .awaitingReview => n .starting = 0 ∧ n .research = 0 ∧ Unreviewed n
  | some .queued => n .starting ≤ 1 ∧ n .research = 0 ∧ Unreviewed n
  | some .running =>
      n .starting = 0 ∧ n .rejecting = 0 ∧ (n .research ≤ 1 ∧ Unreviewed n ∨
        n .research = 0 ∧ n .approving + n .committing + n .spent ≤ 1 ∧
          n .approving + n .approved ≤ 1)
  | some .succeeded | some .failed =>
      n .starting = 0 ∧ n .research = 0 ∧ n .approving = 0 ∧ n .rejecting = 0 ∧
        n .committing = 0 ∧ n .approved ≤ 1 ∧ n .spent ≤ 1
  | some .cancelled =>
      n .starting = 0 ∧ n .research = 0 ∧ n .approving = 0 ∧ n .approved = 0 ∧
        n .committing = 0 ∧ n .spent = 0 ∧ n .rejecting ≤ 1

/-- The statements that write a decision. -/
def Sql.Decides : Sql → Prop
  | .approveReview _ _ | .markCancelled _ => True
  | _ => False

section Fits

variable {jsonb : Attributes → Attributes} {review : Bool} {runId : UUID} {k : Task}
  {e : Event Call Call.Answer Exn} {w w' : World} {a b : Role} {n n' : Role → Nat}

/-- Fewer processes fit as well; reviews that have decided nothing do not matter. -/
theorem Fits.fewer {status : Option AgentRunStatus} (fits : Fits n status)
    (fewer : ∀ x, x ≠ .idle → x ≠ .asking → x ≠ .deciding → n' x ≤ n x) : Fits n' status := by
  have starting := fewer .starting nofun nofun nofun
  have research := fewer .research nofun nofun nofun
  have approving := fewer .approving nofun nofun nofun
  have approved := fewer .approved nofun nofun nofun
  have rejecting := fewer .rejecting nofun nofun nofun
  have committing := fewer .committing nofun nofun nofun
  have spent := fewer .spent nofun nofun nofun
  rcases status with _ | status
  · simp only [Fits, Unreviewed] at fits ⊢
    omega
  · cases status <;> simp only [Fits, Unreviewed] at fits ⊢ <;> omega

theorem Fits.queued_of_starting {status : Option AgentRunStatus} (fits : Fits n status)
    (some : 0 < n .starting) : status = .some .queued := by
  rcases status with _ | status
  · simp only [Fits] at fits
    omega
  · cases status <;> simp only [Fits] at fits ⊢ <;> omega

theorem Fits.running_of_busy {status : Option AgentRunStatus} (fits : Fits n status)
    (some : 0 < n .research + n .approving + n .committing) : status = .some .running := by
  rcases status with _ | status
  · simp only [Fits, Unreviewed] at fits
    omega
  · cases status <;> simp only [Fits, Unreviewed] at fits ⊢ <;> omega

theorem Fits.cancelled_of_rejecting {status : Option AgentRunStatus} (fits : Fits n status)
    (some : 0 < n .rejecting) : status = .some .cancelled := by
  rcases status with _ | status
  · simp only [Fits, Unreviewed] at fits
    omega
  · cases status <;> simp only [Fits, Unreviewed] at fits ⊢ <;> omega

/-- One review has come to something, and one commit of it. -/
theorem Fits.one_review {status : Option AgentRunStatus} (fits : Fits n status) :
    n .approved + n .rejecting ≤ 1 ∧ n .committing + n .spent ≤ 1 := by
  rcases status with _ | status
  · simp only [Fits, Unreviewed] at fits
    omega
  · cases status <;> simp only [Fits, Unreviewed] at fits <;> omega

/-- A caller goes from one role to another, and the queue stays. -/
def Shifts (n n' : Role → Nat) (a b : Role) : Prop :=
  ∀ x, n' x + (if a = x then 1 else 0) = n x + if b = x then 1 else 0

/-- The equations of a shift for the roles that count. -/
theorem Shifts.all (shift : Shifts n n' a b) :
    (n' .starting + (if a = .starting then 1 else 0) =
        n .starting + if b = .starting then 1 else 0) ∧
      (n' .research + (if a = .research then 1 else 0) =
        n .research + if b = .research then 1 else 0) ∧
      (n' .approving + (if a = .approving then 1 else 0) =
        n .approving + if b = .approving then 1 else 0) ∧
      (n' .approved + (if a = .approved then 1 else 0) =
        n .approved + if b = .approved then 1 else 0) ∧
      (n' .rejecting + (if a = .rejecting then 1 else 0) =
        n .rejecting + if b = .rejecting then 1 else 0) ∧
      (n' .committing + (if a = .committing then 1 else 0) =
        n .committing + if b = .committing then 1 else 0) ∧
      n' .spent + (if a = .spent then 1 else 0) = n .spent + if b = .spent then 1 else 0 :=
  ⟨shift _, shift _, shift _, shift _, shift _, shift _, shift _⟩

theorem Role.lost_cases (a : Role) : a = .committing ∨ a.lost = a ∨ a.lost = .idle := by
  cases a <;> simp [Role.lost]

/-- A process that stops short leaves the run to nobody. -/
theorem Fits.lost {status : Option AgentRunStatus} (fits : Fits n status)
    (shift : Shifts n n' a a.lost) : Fits n' status := by
  rcases a.lost_cases with rfl | same | gone
  · have eqs := shift.all
    simp only [Role.lost, reduceCtorEq, if_true, if_false] at eqs
    have running := fits.running_of_busy (by omega)
    subst running
    simp only [Fits, Unreviewed] at fits ⊢
    omega
  · refine fits.fewer fun x _ _ _ => ?_
    have count := shift x
    rw [same] at count
    omega
  · refine fits.fewer fun x idle _ _ => ?_
    have count := shift x
    rw [gone, if_neg idle.symm] at count
    omega

/-- A note keeps the status; its caller stays or stops. -/
theorem Fits.noted {b' : Role} {status : Option AgentRunStatus} (fits : Fits n status)
    (goes : b' = a ∨ b' = a.lost) (shift : Shifts n n' a b') : Fits n' status := by
  rcases goes with rfl | rfl
  · refine fits.fewer fun x _ _ _ => ?_
    have count := shift x
    omega
  · exact fits.lost shift

/-- The research or the commit ends, and the status says that it did. -/
theorem Fits.closed {status : AgentRunStatus} (fits : Fits n (some status))
    (inside : a = .research ∨ a = .committing) (shift : Shifts n n' a a.lost) :
    Fits n' (some .succeeded) ∧ (a = .research → Fits n' (some .awaitingReview)) := by
  have eqs := shift.all
  have running : some status = some .running := by
    rcases inside with rfl | rfl <;>
      simp only [Role.lost, reduceCtorEq, if_true, if_false] at eqs <;>
      exact fits.running_of_busy (by omega)
  rw [running] at fits
  rcases inside with rfl | rfl <;>
    simp only [Role.lost, reduceCtorEq, if_true, if_false] at eqs <;>
    simp only [Fits, Unreviewed, reduceCtorEq, false_implies, and_true, forall_const] at fits ⊢ <;>
    omega

theorem Writes.fits {s : Sql} {b' : Role} {row : RunRow} {now : Time}
    (writes : Writes review a s b) (goes : b' = b ∨ b' = a.lost) (shift : Shifts n n' a b')
    (decides : s.Decides → row.status = .awaitingReview) (fits : Fits n (some row.status)) :
    Fits n' (some (s.rewrite jsonb now row).status) := by
  have eqs := shift.all
  cases writes with
  | begin =>
      have queued : some row.status = some .queued := by
        rcases goes with rfl | rfl <;>
          simp only [Role.lost, reduceCtorEq, if_true, if_false] at eqs <;>
          exact fits.queued_of_starting (by omega)
      rw [queued] at fits
      rcases goes with rfl | rfl <;>
        simp only [Role.lost, reduceCtorEq, if_true, if_false] at eqs <;>
        simp only [Fits, Unreviewed, Sql.rewrite, Statement.markRunning] at fits ⊢ <;> omega
  | node inside => exact fits.noted goes shift
  | entity inside => exact fits.noted goes shift
  | relationship inside => exact fits.noted goes shift
  | park gate =>
      have ends : b' = Role.research.lost := goes.elim id id
      subst ends
      exact (fits.closed (.inl rfl) shift).2 rfl
  | succeed inside =>
      rw [or_self] at goes
      subst goes
      exact (fits.closed (inside.imp_left And.left) shift).1
  | fail inside =>
      rw [or_self] at goes
      subst goes
      exact (fits.closed inside shift).1
  | approve =>
      rw [decides trivial] at fits
      rcases goes with rfl | rfl <;>
        simp only [Role.lost, reduceCtorEq, if_true, if_false] at eqs <;>
        simp only [Fits, Unreviewed, Sql.rewrite, Statement.approveReview] at fits ⊢ <;> omega
  | cancel =>
      rw [decides trivial] at fits
      rcases goes with rfl | rfl <;>
        simp only [Role.lost, reduceCtorEq, if_true, if_false] at eqs <;>
        simp only [Fits, Unreviewed, Sql.rewrite, Statement.markCancelled] at fits ⊢ <;> omega

/-- **An act keeps the roles fitting**, provided a decision is written to a row that awaits
one. -/
theorem Act.fits (act : Act jsonb review runId k e w a b w')
    (count : ∀ x, n' x + (if a = x then 1 else 0) + w.queued x =
      n x + (if b = x then 1 else 0) + w'.queued x)
    (decides : ∀ q, e.1 = .sql q → q.Decides → a = .deciding →
      w.row.map RunRow.status = some .awaitingReview)
    (fits : Fits n (w.row.map RunRow.status)) : Fits n' (w'.row.map RunRow.status) := by
  cases act with
  | keep =>
      refine fits.fewer fun x _ _ _ => ?_
      have same := count x
      omega
  | lose why => exact fits.lost fun x => Nat.add_right_cancel (count x)
  | see here awaiting =>
      refine fits.fewer fun x _ asking deciding => ?_
      have same := count x
      rw [if_neg asking.symm, if_neg deciding.symm] at same
      omega
  | insert goes =>
      have shift : Shifts n n' .idle b := fun x => Nat.add_right_cancel (count x)
      have eqs := shift.all
      rcases goes with rfl | ⟨rfl, -⟩ <;>
        simp only [reduceCtorEq, if_false, if_true] at eqs <;>
        simp only [Fits, Unreviewed, Option.map, Statement.insertRun] at fits ⊢ <;> omega
  | write what writes goes =>
      refine writes.fits (goes.imp_right And.left) (fun x => Nat.add_right_cancel (count x)) ?_ fits
      intro decisive
      have deciding : a = .deciding := by
        cases writes <;> first | rfl | exact decisive.elim
      simpa using decides _ what decisive deciding
  | enqueueRun =>
      refine fits.fewer fun x idle _ _ => ?_
      have same := count x
      rw [World.queued_snoc, Job.role, if_neg idle.symm] at same
      omega
  | @enqueueCommit t q =>
      have eqs : ∀ x, n' x + (if Role.approving = x then 1 else 0) =
          n x + (if Role.approved = x then 1 else 0) + if Role.committing = x then 1 else 0 := by
        intro x
        have same := count x
        rw [World.queued_snoc, Job.role] at same
        omega
      have approving := eqs .approving
      have approved := eqs .approved
      have committing := eqs .committing
      have starting := eqs .starting
      have research := eqs .research
      have rejecting := eqs .rejecting
      have spent := eqs .spent
      simp only [reduceCtorEq, if_true, if_false] at approving approved committing
      simp only [reduceCtorEq, if_false] at starting research rejecting spent
      have running := fits.running_of_busy (by omega)
      rw [running] at fits ⊢
      simp only [Fits, Unreviewed] at fits ⊢
      omega

end Fits

end Intellivault.Agent
