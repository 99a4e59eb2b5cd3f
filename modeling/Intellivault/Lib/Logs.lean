import Intellivault.Lib.Prog

/-!
# What a program logs

`Prog.Logs real done` relates the calls a program makes, with their answers, to how it ends:
however it is answered, as long as every answer is `real`, `done` holds of its log and its
outcome.  The log is the program's own, so the logs of two parts are appended.
-/

namespace Intellivault.Lib

namespace Prog

variable {C : Type} {A : C → Type} {ε α β S : Type} {real : Event C A ε → Prop}

/-- `done` of the log and the outcome, for all real answers. -/
def Logs (real : Event C A ε → Prop) :
    Prog C A ε α → (List (Event C A ε) → Except ε α → Prop) → Prop
  | .ret a, done => done [] (.ok a)
  | .raise x, done => done [] (.error x)
  | .call c k, done => ∀ r, real ⟨c, r⟩ → (k r).Logs real fun log => done (⟨c, r⟩ :: log)

variable {done done' : List (Event C A ε) → Except ε α → Prop} {p : Prog C A ε α}

theorem Logs.mono (weaken : ∀ log r, done log r → done' log r) (h : p.Logs real done) :
    p.Logs real done' := by
  induction p generalizing done done' with
  | ret a => exact weaken _ _ h
  | raise x => exact weaken _ _ h
  | call c k ih => exact fun r answer => ih r (fun log => weaken _) (h r answer)

theorem Logs.and (h : p.Logs real done) (h' : p.Logs real done') :
    p.Logs real fun log r => done log r ∧ done' log r := by
  induction p generalizing done done' with
  | ret a => exact ⟨h, h'⟩
  | raise x => exact ⟨h, h'⟩
  | call c k ih => exact fun r answer => ih r (h r answer) (h' r answer)

@[simp] theorem logs_ended {r : Except ε α} : (ended r : Prog C A ε α).Logs real done ↔ done [] r := by
  cases r <;> rfl

theorem logs_perform {c : C} {done : List (Event C A ε) → Except ε (A c) → Prop} :
    (perform c : Prog C A ε (A c)).Logs real done ↔ ∀ r, real ⟨c, r⟩ → done [⟨c, r⟩] r := by
  refine forall_congr' fun r => forall_congr' fun _ => ?_
  cases r <;> rfl

theorem logs_bind {done : List (Event C A ε) → Except ε β → Prop} {f : α → Prog C A ε β} :
    (p >>= f).Logs real done ↔ p.Logs real fun log r =>
      match r with
      | .ok a => (f a).Logs real fun log' => done (log ++ log')
      | .error x => done log (.error x) := by
  induction p generalizing done with
  | ret a => rfl
  | raise x => rfl
  | call c k ih => exact forall_congr' fun r => forall_congr' fun _ => ih r

theorem logs_attempt {done : List (Event C A ε) → Except ε (Except ε α) → Prop} :
    p.attempt.Logs real done ↔ p.Logs real fun log r => done log (.ok r) := by
  induction p generalizing done with
  | ret a => rfl
  | raise x => rfl
  | call c k ih => exact forall_congr' fun r => forall_congr' fun _ => ih r

theorem logs_handle {h : ε → Prog C A ε α} :
    (p.handle h).Logs real done ↔ p.Logs real fun log r =>
      match r with
      | .ok a => done log (.ok a)
      | .error x => (h x).Logs real fun log' => done (log ++ log') := by
  rw [handle, logs_bind, logs_attempt]
  refine iff_of_eq (congrArg (p.Logs real) ?_)
  funext log r
  cases r with
  | ok a => exact congrArg (done · (.ok a)) (List.append_nil log)
  | error x => rfl

/-- Only the calls it may make are logged, with real answers. -/
theorem Calls.logs {P : C → Prop} (h : p.Calls P) :
    p.Logs real fun log _ => ∀ e ∈ log, P e.1 ∧ real e := by
  induction p with
  | ret a => exact fun _ mem => (List.not_mem_nil mem).elim
  | raise x => exact fun _ mem => (List.not_mem_nil mem).elim
  | call c k ih =>
      exact fun r answer => (ih r (h.2 r)).mono fun log _ calls =>
        List.forall_mem_cons.mpr ⟨⟨h.1, answer⟩, calls⟩

theorem Returns.logs {Q : α → Prop} (h : p.Returns Q) :
    p.Logs real fun _ r => ∀ a, r = .ok a → Q a := by
  induction p with
  | ret a =>
      rintro _ ⟨⟩
      exact h
  | raise x => exact fun _ => of_error_eq_ok
  | call c k ih => exact fun r _ => ih r (h r)

/-- The program ends so, answered as in the log. -/
def Logged (p : Prog C A ε α) (log : List (Event C A ε)) (r : Except ε α) : Prop :=
  Runs (fun _ _ _ _ => True) p () log (ended r) ()

/-- A run, whoever answered. -/
theorem Runs.anyhow {H : Handler C A ε S} {s s' : S} {log : List (Event C A ε)} {p' : Prog C A ε α}
    (run : Runs H p s log p' s') : Runs (fun _ _ (_ : Except ε _) _ => True) p () log p' () := by
  induction run with
  | refl => exact .refl
  | step _ _ ih => exact .step trivial ih

theorem logged_run (respond : (c : C) → Unit → Except ε (A c) × Unit) (p : Prog C A ε α) :
    p.Logged (p.run respond ()).1 (p.run respond ()).2.1 := runs_run (fun _ _ => trivial) p ()

theorem logs_logged : p.Logs real p.Logged := by
  induction p with
  | ret a => exact .refl
  | raise x => exact .refl
  | call c k ih => exact fun r _ => (ih r).mono fun log q run => .step trivial run

/-- An end of a program, with a log that leads to it. -/
theorem Logs.ends {r : Except ε α} (h : p.Logs (fun _ => True) done) (ends : p.Ends r) :
    ∃ log, done log r := by
  induction p generalizing done with
  | ret a =>
      obtain rfl := ends
      exact ⟨[], h⟩
  | raise x =>
      obtain rfl := ends
      exact ⟨[], h⟩
  | call c k ih =>
      obtain ⟨answer, ends⟩ := ends
      obtain ⟨log, post⟩ := ih answer (h answer trivial) ends
      exact ⟨⟨c, answer⟩ :: log, post⟩

/-- What `Logs` means: it holds of every run that is over. -/
theorem Runs.logs {H : Handler C A ε S} {s s' : S} {tr : List (Event C A ε)} {r : Except ε α}
    (answers : ∀ c s r s', H c s r s' → real ⟨c, r⟩) (run : Runs H p s tr (ended r) s')
    (h : p.Logs real done) : done tr r := by
  generalize left : ended r = q at run
  induction run generalizing done with
  | refl =>
      subst left
      exact logs_ended.mp h
  | step answered _ ih => exact ih (h _ (answers _ _ _ _ answered)) left

/-- What is left of a run that is not over is logged after it. -/
theorem Runs.logs_left {H : Handler C A ε S} {s s' : S} {tr : List (Event C A ε)}
    {p' : Prog C A ε α} (run : Runs H p s tr p' s') (h : p.Logs (fun _ => True) done) :
    p'.Logs (fun _ => True) fun log => done (tr ++ log) := by
  induction run generalizing done with
  | refl => exact h
  | step _ _ ih => exact ih (h _ trivial)

/-- A program may be answered with errors only. -/
theorem Logs.failing (x : ε) (h : p.Logs (fun _ => True) done) :
    ∃ log r, done log r ∧ ∀ e ∈ log, e.2 = .error x := by
  induction p generalizing done with
  | ret a => exact ⟨[], .ok a, h, List.forall_mem_nil _⟩
  | raise y => exact ⟨[], .error y, h, List.forall_mem_nil _⟩
  | call c k ih =>
      obtain ⟨log, r, post, failed⟩ := ih (.error x) (h (.error x) trivial)
      exact ⟨⟨c, .error x⟩ :: log, r, post, List.forall_mem_cons.mpr ⟨rfl, failed⟩⟩

end Prog

end Intellivault.Lib
