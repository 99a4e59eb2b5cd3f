import Mathlib.Algebra.GroupWithZero.Nat
import Intellivault.Lib.Pool
import Intellivault.Lib.Rounds

/-!
# What a program calls, by what was answered before

A program followed through the log of its calls: which call it may make after which log,
and what its log looks like when it ends.

* `Prog.Scripted`: `allow` says which call may follow a log, `done` what holds at the end;
  only the answers that are `real` count.
* `Prog.interp`: a program over one interface run over another one, each of its calls by a
  program; `Prog.both`: two programs at once, in any interleaving.
* `Pool.Step.scripted`: if each program keeps to the script, so does every process.
-/

namespace Intellivault.Lib

namespace Prog

variable {C C' : Type} {A : C → Type} {A' : C' → Type} {ε α β : Type}

/-! ## Scripts -/

/-- After the log `past`, the calls are allowed by what was logged, and `done` holds of the
log the program ends with. -/
def Scripted (real : Event C A ε → Prop) (allow : List (Event C A ε) → C → Prop)
    (done : List (Event C A ε) → Except ε α → Prop) : List (Event C A ε) → Prog C A ε α → Prop
  | past, .ret a => done past (.ok a)
  | past, .raise x => done past (.error x)
  | past, .call c k =>
      allow past c ∧ ∀ r, real ⟨c, r⟩ → (k r).Scripted real allow done (past ++ [⟨c, r⟩])

variable {real : Event C A ε → Prop} {allow : List (Event C A ε) → C → Prop}
  {past : List (Event C A ε)}

theorem Scripted.mono {done done' : List (Event C A ε) → Except ε α → Prop} {p : Prog C A ε α}
    (weaken : ∀ log r, done log r → done' log r) (h : p.Scripted real allow done past) :
    p.Scripted real allow done' past := by
  induction p generalizing past with
  | ret a => exact weaken _ _ h
  | raise x => exact weaken _ _ h
  | call c k ih => exact ⟨h.1, fun r answer => ih r (h.2 r answer)⟩

@[simp] theorem scripted_ended {done : List (Event C A ε) → Except ε α → Prop} {r : Except ε α} :
    (ended r : Prog C A ε α).Scripted real allow done past ↔ done past r := by
  cases r <;> rfl

theorem scripted_perform {c : C} {done : List (Event C A ε) → Except ε (A c) → Prop} :
    (perform c : Prog C A ε (A c)).Scripted real allow done past ↔
      allow past c ∧ ∀ r, real ⟨c, r⟩ → done (past ++ [⟨c, r⟩]) r := by
  refine and_congr_right fun _ => forall_congr' fun r => forall_congr' fun _ => ?_
  cases r <;> rfl

/-- A call that no script forbids. -/
theorem scripted_free {c : C} {done : List (Event C A ε) → Except ε (A c) → Prop} :
    (perform c : Prog C A ε (A c)).Scripted real (fun _ _ => True) done past ↔
      ∀ r, real ⟨c, r⟩ → done (past ++ [⟨c, r⟩]) r :=
  scripted_perform.trans (and_iff_right trivial)

theorem scripted_bind {done : List (Event C A ε) → Except ε β → Prop} {p : Prog C A ε α}
    {f : α → Prog C A ε β} :
    (p >>= f).Scripted real allow done past ↔ p.Scripted real allow (fun log r =>
      match r with
      | .ok a => (f a).Scripted real allow done log
      | .error x => done log (.error x)) past := by
  induction p generalizing past with
  | ret a => rfl
  | raise x => rfl
  | call c k ih => exact and_congr_right fun _ => forall_congr' fun r =>
        forall_congr' fun _ => ih r

theorem scripted_attempt {done : List (Event C A ε) → Except ε (Except ε α) → Prop}
    {p : Prog C A ε α} :
    p.attempt.Scripted real allow done past ↔
      p.Scripted real allow (fun log r => done log (.ok r)) past := by
  induction p generalizing past with
  | ret a => rfl
  | raise x => rfl
  | call c k ih => exact and_congr_right fun _ => forall_congr' fun r =>
        forall_congr' fun _ => ih r

theorem scripted_handle {done : List (Event C A ε) → Except ε α → Prop} {p : Prog C A ε α}
    {h : ε → Prog C A ε α} :
    (p.handle h).Scripted real allow done past ↔ p.Scripted real allow (fun log r =>
      match r with
      | .ok a => done log (.ok a)
      | .error x => (h x).Scripted real allow done log) past := by
  rw [handle, scripted_bind, scripted_attempt]
  refine iff_of_eq (congrArg (fun R => p.Scripted real allow R past) ?_)
  funext log r
  cases r <;> rfl

/-- Two accounts of the same script. -/
theorem Scripted.and {done done' : List (Event C A ε) → Except ε α → Prop} {p : Prog C A ε α}
    (h : p.Scripted real allow done past) (h' : p.Scripted real allow done' past) :
    p.Scripted real allow (fun log r => done log r ∧ done' log r) past := by
  induction p generalizing past with
  | ret a => exact ⟨h, h'⟩
  | raise x => exact ⟨h, h'⟩
  | call c k ih => exact ⟨h.1, fun r answer => ih r (h.2 r answer) (h'.2 r answer)⟩

/-- What no allowed call changes about the log. -/
theorem Calls.scripted {P : C → Prop} {I : List (Event C A ε) → Prop} {p : Prog C A ε α}
    (h : p.Calls P)
    (keeps : ∀ log c r, P c → real ⟨c, r⟩ → I log → I (log ++ [⟨c, r⟩])) (start : I past) :
    p.Scripted real (fun _ _ => True) (fun log _ => I log) past := by
  induction p generalizing past with
  | ret a => exact start
  | raise x => exact start
  | call c k ih =>
      exact ⟨trivial, fun r answer => ih r (h.2 r) (keeps _ _ _ h.1 answer start)⟩

/-- A program whose calls may follow any log. -/
theorem Calls.anytime {P : C → Prop} {p : Prog C A ε α} (h : p.Calls P)
    (free : ∀ log c, P c → allow log c) : p.Scripted real allow (fun _ _ => True) past := by
  induction p generalizing past with
  | ret a => trivial
  | raise x => trivial
  | call c k ih => exact ⟨free _ _ h.1, fun r _ => ih r (h.2 r)⟩

/-- What `Scripted` means: along every run, complete or not, each call was allowed by what
was logged before it, and what is left still keeps to the script. -/
theorem Runs.scripted {S : Type} {H : Handler C A ε S}
    {done : List (Event C A ε) → Except ε α → Prop}
    {p p' : Prog C A ε α} {s s' : S} {tr : List (Event C A ε)}
    (answers : ∀ c s r s', H c s r s' → real ⟨c, r⟩) (run : Runs H p s tr p' s')
    (h : p.Scripted real allow done past) :
    (∀ before e after, tr = before ++ e :: after → allow (past ++ before) e.1) ∧
      p'.Scripted real allow done (past ++ tr) := by
  induction run generalizing past with
  | refl =>
      refine ⟨fun before e after nothing => ?_, by rwa [List.append_nil]⟩
      cases before <;> cases nothing
  | step answered _ ih =>
      obtain ⟨calls, left⟩ := ih (h.2 _ (answers _ _ _ _ answered))
      rw [List.append_assoc] at left
      refine ⟨fun before e after here => ?_, left⟩
      cases before with
      | nil =>
          cases here
          rw [List.append_nil]
          exact h.1
      | cons first before =>
          cases here
          have later := calls before e after rfl
          rwa [List.append_assoc] at later

/-- What a run logs was answered. -/
theorem Runs.answered {S : Type} {H : Handler C A ε S} {p p' : Prog C A ε α} {s s' : S}
    {tr : List (Event C A ε)} (answers : ∀ c s r s', H c s r s' → real ⟨c, r⟩)
    (run : Runs H p s tr p' s') : ∀ e ∈ tr, real e := by
  induction run with
  | refl => exact fun _ mem => (List.not_mem_nil mem).elim
  | step answered _ ih =>
      exact List.forall_mem_cons.mpr ⟨answers _ _ _ _ answered, ih⟩

/-! ## Running one interface over another -/

/-- Each call of the program is made by a program over another interface. -/
def interp (h : (c : C) → Prog C' A' ε (A c)) : Prog C A ε α → Prog C' A' ε α
  | .ret a => .ret a
  | .raise x => .raise x
  | .call c k => (h c).attempt >>= fun r => (k r).interp h

variable {h : (c : C) → Prog C' A' ε (A c)}

@[simp] theorem interp_ret (a : α) : (.ret a : Prog C A ε α).interp h = .ret a := rfl

@[simp] theorem interp_raise (x : ε) : (.raise x : Prog C A ε α).interp h = .raise x := rfl

theorem interp_bind (p : Prog C A ε α) (f : α → Prog C A ε β) :
    (p >>= f).interp h = p.interp h >>= fun a => (f a).interp h := by
  induction p with
  | ret a => rfl
  | raise x => rfl
  | call c k ih => simp only [call_bind, interp, bind_assoc, ih]

/-- Trying twice is trying once. -/
theorem attempt_bind_attempt (p : Prog C A ε α) (f : Except ε α → Prog C A ε β) :
    (p.attempt >>= f).attempt = p.attempt >>= fun r => (f r).attempt := by
  induction p with
  | ret a => rfl
  | raise x => rfl
  | call c k ih => simp only [attempt, call_bind, ih]

theorem interp_attempt (p : Prog C A ε α) : p.attempt.interp h = (p.interp h).attempt := by
  induction p with
  | ret a => rfl
  | raise x => rfl
  | call c k ih => simp only [attempt, interp, attempt_bind_attempt, ih]

theorem interp_handle (p : Prog C A ε α) (g : ε → Prog C A ε α) :
    (p.handle g).interp h = (p.interp h).handle fun x => (g x).interp h := by
  rw [handle, interp_bind, interp_attempt, handle]
  refine congrArg _ (funext fun r => ?_)
  cases r <;> rfl

/-- One call alone becomes the program that makes it. -/
theorem interp_perform (c : C) : (perform c : Prog C A ε (A c)).interp h = h c := by
  show ((h c).attempt >>= fun r => interp h _) = h c
  induction h c with
  | ret a => rfl
  | raise x => rfl
  | call c k ih =>
      rw [attempt, call_bind]
      exact congrArg (Prog.call c) (funext ih)

section Interp

variable {real : Event C' A' ε → Prop} {allow : List (Event C' A' ε) → C' → Prop}
  {past : List (Event C' A' ε)}

theorem scripted_interp_bind {done : List (Event C' A' ε) → Except ε β → Prop} {p : Prog C A ε α}
    {f : α → Prog C A ε β} :
    ((p >>= f).interp h).Scripted real allow done past ↔
      (p.interp h).Scripted real allow (fun log r =>
        match r with
        | .ok a => ((f a).interp h).Scripted real allow done log
        | .error x => done log (.error x)) past := by
  rw [interp_bind, scripted_bind]

theorem scripted_interp_handle {done : List (Event C' A' ε) → Except ε α → Prop}
    {p : Prog C A ε α} {g : ε → Prog C A ε α} :
    ((p.handle g).interp h).Scripted real allow done past ↔
      (p.interp h).Scripted real allow (fun log r =>
        match r with
        | .ok a => done log (.ok a)
        | .error x => ((g x).interp h).Scripted real allow done log) past := by
  rw [interp_handle, scripted_handle]

theorem scripted_interp_perform {c : C} {done : List (Event C' A' ε) → Except ε (A c) → Prop} :
    ((perform c : Prog C A ε (A c)).interp h).Scripted real allow done past ↔
      (h c).Scripted real allow done past := by
  rw [interp_perform]

end Interp

section InterpRuns

variable {S : Type} {H : Handler C' A' ε S} {s s' : S} {tr : List (Event C' A' ε)}

theorem Runs.interp_bind {p : Prog C A ε α} {f : α → Prog C A ε β} {r : Except ε β}
    (run : Runs H ((p >>= f).interp h) s tr (ended r) s') :
    (∃ x, r = .error x ∧ Runs H (p.interp h) s tr (ended (.error x)) s') ∨
      ∃ a t tr₁ tr₂, Runs H (p.interp h) s tr₁ (ended (.ok a)) t ∧
        Runs H ((f a).interp h) t tr₂ (ended r) s' ∧ tr = tr₁ ++ tr₂ := by
  rw [Prog.interp_bind] at run
  exact run.bind

theorem Runs.interp_perform {c : C} {r : Except ε (A c)}
    (run : Runs H ((Prog.perform c : Prog C A ε (A c)).interp h) s tr (ended r) s') :
    Runs H (h c) s tr (ended r) s' := by
  rwa [Prog.interp_perform] at run

end InterpRuns

/-! ## Two programs at once -/

/-- One call against a whole program: the scheduler says which of the two goes on. -/
def gatherCall (turn : C) (first : A turn → Bool) (c : C)
    (next : Except ε (A c) → Prog C A ε β → Prog C A ε (Except ε α × Except ε β)) :
    Prog C A ε β → Prog C A ε (Except ε α × Except ε β)
  | .ret b => .call c fun r => next r (.ret b)
  | .raise x => .call c fun r => next r (.raise x)
  | .call d l => .call turn fun who =>
      match who with
      | .ok who =>
          if first who then .call c fun r => next r (.call d l)
          else .call d fun r => gatherCall turn first c next (l r)
      | .error _ => .call c fun r => next r (.call d l)

/-- `asyncio.gather(p, q)`, with both outcomes. -/
def both (turn : C) (first : A turn → Bool) :
    Prog C A ε α → Prog C A ε β → Prog C A ε (Except ε α × Except ε β)
  | .ret a, q => q.attempt >>= fun b => .ret (.ok a, b)
  | .raise x, q => q.attempt >>= fun b => .ret (.error x, b)
  | .call c k, q => gatherCall turn first c (fun r q => (k r).both turn first q) q

/-- A script that a longer log does not break. -/
def Lasting (allow : List (Event C A ε) → C → Prop) : Prop :=
  ∀ log log' c, log ⊆ log' → allow log c → allow log' c

theorem Scripted.longer {done : List (Event C A ε) → Except ε α → Prop} {p : Prog C A ε α}
    {past' : List (Event C A ε)} (lasting : Lasting allow)
    (lasts : ∀ log log' r, log ⊆ log' → done log r → done log' r) (more : past ⊆ past')
    (h : p.Scripted real allow done past) : p.Scripted real allow done past' := by
  induction p generalizing past past' with
  | ret a => exact lasts _ _ _ more h
  | raise x => exact lasts _ _ _ more h
  | call c k ih =>
      refine ⟨lasting _ _ _ more h.1, fun r answer => ih r ?_ (h.2 r answer)⟩
      exact List.append_subset.mpr
        ⟨fun e mem => List.mem_append_left _ (more mem), List.subset_append_right _ _⟩

theorem subset_snoc (log : List (Event C A ε)) (e : Event C A ε) : log ⊆ log ++ [e] :=
  List.subset_append_left log [e]

theorem subset_later {log log' : List (Event C A ε)} {e : Event C A ε} (more : log ⊆ log') :
    log ⊆ log' ++ [e] := fun _ mem => List.mem_append_left _ (more mem)

theorem subset_earlier {log log' : List (Event C A ε)} {e : Event C A ε} (more : log ++ [e] ⊆ log') :
    log ⊆ log' := fun _ mem => more (List.mem_append_left _ mem)

/-- The log only grows. -/
theorem Scripted.grows {done : List (Event C A ε) → Except ε α → Prop} {p : Prog C A ε α}
    {earlier : List (Event C A ε)} (before : earlier ⊆ past) (h : p.Scripted real allow done past) :
    p.Scripted real allow (fun log r => earlier ⊆ log ∧ done log r) past := by
  induction p generalizing past with
  | ret a => exact ⟨before, h⟩
  | raise x => exact ⟨before, h⟩
  | call c k ih => exact ⟨h.1, fun r answer => ih r (subset_later before) (h.2 r answer)⟩

/-- What is logged was allowed at some time. -/
theorem Scripted.traced {done : List (Event C A ε) → Except ε α → Prop} {p : Prog C A ε α}
    (before : ∀ e ∈ past, ∃ log, allow log e.1) (h : p.Scripted real allow done past) :
    p.Scripted real allow (fun log r => done log r ∧ ∀ e ∈ log, ∃ log', allow log' e.1) past := by
  induction p generalizing past with
  | ret a => exact ⟨h, before⟩
  | raise x => exact ⟨h, before⟩
  | call c k ih =>
      refine ⟨h.1, fun r answer => ih r (fun e mem => ?_) (h.2 r answer)⟩
      rcases List.mem_append.mp mem with old | new
      · exact before e old
      · rw [List.mem_singleton.mp new]
        exact ⟨past, h.1⟩

section Both

variable {turn : C} {first : A turn → Bool} {left : List (Event C A ε) → Except ε α → Prop}
  {right : List (Event C A ε) → Except ε β → Prop} {q : Prog C A ε β}

/-- What both leave behind. -/
def Gathered (left : List (Event C A ε) → Except ε α → Prop)
    (right : List (Event C A ε) → Except ε β → Prop) (log : List (Event C A ε))
    (r : Except ε (Except ε α × Except ε β)) : Prop :=
  ∃ a b, r = .ok (a, b) ∧ left log a ∧ right log b

theorem scripted_second (lastsLeft : ∀ log log' r, log ⊆ log' → left log r → left log' r)
    {a : Except ε α} (ended : left past a) (hq : q.Scripted real allow right past) :
    (q.attempt >>= fun b => (.ret (a, b) : Prog C A ε _)).Scripted real allow (Gathered left right)
      past := by
  rw [scripted_bind, scripted_attempt]
  refine (hq.grows (List.Subset.refl past)).mono fun log b last => ?_
  exact ⟨a, b, rfl, lastsLeft _ _ _ last.1 ended, last.2⟩

theorem scripted_gatherCall {c : C}
    {next : Except ε (A c) → Prog C A ε β → Prog C A ε (Except ε α × Except ε β)}
    (lasting : Lasting allow) (free : ∀ log, allow log turn)
    (lastsRight : ∀ log log' r, log ⊆ log' → right log r → right log' r) (allowed : allow past c)
    (goesOn : ∀ log r q', past ⊆ log → real ⟨c, r⟩ → q'.Scripted real allow right (log ++ [⟨c, r⟩]) →
      (next r q').Scripted real allow (Gathered left right) (log ++ [⟨c, r⟩]))
    (hq : q.Scripted real allow right past) :
    (gatherCall turn first c next q).Scripted real allow (Gathered left right) past := by
  induction q generalizing past with
  | ret b =>
      exact ⟨allowed, fun r answer => goesOn past r _ (List.Subset.refl _) answer
        (hq.longer lasting lastsRight (subset_snoc _ _))⟩
  | raise x =>
      exact ⟨allowed, fun r answer => goesOn past r _ (List.Subset.refl _) answer
        (hq.longer lasting lastsRight (subset_snoc _ _))⟩
  | call d l ih =>
      rw [gatherCall]
      refine ⟨free past, fun who _ => ?_⟩
      have later : allow (past ++ [⟨turn, who⟩]) c := lasting _ _ _ (subset_snoc _ _) allowed
      have rest := hq.longer lasting lastsRight (subset_snoc past ⟨turn, who⟩)
      have here : ∀ r, real ⟨c, r⟩ → (next r (.call d l)).Scripted real allow (Gathered left right)
          (past ++ [⟨turn, who⟩] ++ [⟨c, r⟩]) := fun r answer =>
        goesOn _ r _ (subset_snoc _ _) answer (rest.longer lasting lastsRight (subset_snoc _ _))
      cases who with
      | error x => exact ⟨later, here⟩
      | ok who =>
          dsimp only
          split
          · exact ⟨later, here⟩
          · refine ⟨rest.1, fun r answer =>
              ih r (lasting _ _ _ (subset_snoc _ _) later) ?_ (rest.2 r answer)⟩
            intro log r' q' more
            exact goesOn log r' q' (subset_earlier (subset_earlier more))

/-- The rule of `gather`, for scripts and ends that a longer log does not break. -/
theorem scripted_both {p : Prog C A ε α} (lasting : Lasting allow) (free : ∀ log, allow log turn)
    (lastsLeft : ∀ log log' r, log ⊆ log' → left log r → left log' r)
    (lastsRight : ∀ log log' r, log ⊆ log' → right log r → right log' r)
    (hp : p.Scripted real allow left past) (hq : q.Scripted real allow right past) :
    (p.both turn first q).Scripted real allow (Gathered left right) past := by
  induction p generalizing past q with
  | ret a => exact scripted_second lastsLeft hp hq
  | raise x => exact scripted_second lastsLeft hp hq
  | call c k ih =>
      refine scripted_gatherCall lasting free lastsRight hp.1 ?_ hq
      intro log r q' more answer rest
      refine ih r ((hp.2 r answer).longer lasting lastsLeft ?_) rest
      exact List.append_subset.mpr
        ⟨subset_later more, List.subset_append_right _ _⟩

end Both

end Prog

namespace Pool

open Prog

variable {K C ε W : Type} {A : C → Type} {body : K → Prog C A ε Unit}
  {handler : Handler C A ε W} {spawn : W → K → W → Prop} {pool pool' : Pool K C A ε W}
  {l : Action K C A ε} {real : Event C A ε → Prop} {allow : K → List (Event C A ε) → C → Prop}
  {done : K → List (Event C A ε) → Except ε Unit → Prop}

/-- Every process keeps to the script of its kind. -/
def Scripted (real : Event C A ε → Prop) (allow : K → List (Event C A ε) → C → Prop)
    (done : K → List (Event C A ε) → Except ε Unit → Prop) (pool : Pool K C A ε W) : Prop :=
  ∀ p ∈ pool.processes, p.rest.Scripted real (allow p.kind) (done p.kind) p.past

theorem Step.scripted (answers : ∀ c w r w', handler c w r w' → real ⟨c, r⟩)
    (keeps : ∀ k, (body k).Scripted real (allow k) (done k) [])
    (step : Step body handler spawn pool l pool') (before : pool.Scripted real allow done) :
    pool'.Scripted real allow done := by
  cases step with
  | start started =>
      intro p mem
      rcases List.mem_append.mp mem with old | new
      · exact before p old
      · rw [List.mem_singleton.mp new]
        exact keeps _
  | @call w w' first last k past c f r answer =>
      intro p mem
      rcases List.mem_append.mp mem with old | new
      · exact before p (List.mem_append_left _ old)
      rcases List.mem_cons.mp new with rfl | old
      · exact (before ⟨k, past, .call c f⟩ (List.mem_append_right _ List.mem_cons_self)).2 r
          (answers _ _ _ _ answer)
      · exact before p (List.mem_append_right _ (List.mem_cons_of_mem _ old))

/-- The call of a step is one its script allows. -/
theorem Step.allows {k : K} {past : List (Event C A ε)} {e : Event C A ε}
    (step : Step body handler spawn pool (.call k past e) pool')
    (before : pool.Scripted real allow done) : allow k past e.1 := by
  cases step with
  | call answer => exact (before _ (List.mem_append_right _ List.mem_cons_self)).1

/-- A call step is an answer of the handler. -/
theorem Step.answers {k : K} {past : List (Event C A ε)} {e : Event C A ε}
    (step : Step body handler spawn pool (.call k past e) pool') :
    handler e.1 pool.world e.2 pool'.world := by
  cases step with
  | call answer => exact answer

/-- The process that a call step is of. -/
theorem Step.caller {k : K} {past : List (Event C A ε)} {e : Event C A ε}
    (step : Step body handler spawn pool (.call k past e) pool') :
    ∃ p ∈ pool.processes, p.kind = k ∧ p.past = past := by
  cases step with
  | call answer => exact ⟨_, List.mem_append_right _ List.mem_cons_self, rfl, rfl⟩

/-- Every process was started. -/
theorem started {w : W} {tr : List (Transition (Pool K C A ε W) (Action K C A ε))}
    (history : History (Step body handler spawn) ⟨w, []⟩ tr pool) :
    ∀ p ∈ pool.processes, ∃ x ∈ tr, x.label = .start p.kind := by
  induction history with
  | start => exact nofun
  | @next tr t u l before step ih =>
      have earlier : ∀ k, (∃ x ∈ tr, x.label = .start k) →
          ∃ x ∈ tr ++ [⟨t, l, u⟩], x.label = .start k := by
        intro k ⟨x, inside, label⟩
        exact ⟨x, List.mem_append_left _ inside, label⟩
      intro p mem
      cases step with
      | start spawned =>
          rcases List.mem_append.mp mem with old | new
          · exact earlier _ (ih p old)
          · rw [List.mem_singleton.mp new]
            exact ⟨_, List.mem_append_right _ (List.mem_singleton_self _), rfl⟩
      | @call w w' first last k past c f r answer =>
          rcases List.mem_append.mp mem with old | new
          · exact earlier _ (ih p (List.mem_append_left _ old))
          rcases List.mem_cons.mp new with rfl | old
          · exact earlier k (ih ⟨k, past, .call c f⟩ (List.mem_append_right _ List.mem_cons_self))
          · exact earlier _ (ih p (List.mem_append_right _ (List.mem_cons_of_mem _ old)))

/-- Every call is of a process that was started. -/
theorem called_started {w : W} {tr : List (Transition (Pool K C A ε W) (Action K C A ε))}
    (history : History (Step body handler spawn) ⟨w, []⟩ tr pool) :
    ∀ x ∈ tr, ∀ k past e, x.label = .call k past e → ∃ y ∈ tr, y.label = .start k := by
  induction history with
  | start => exact List.forall_mem_nil _
  | @next tr t u l before step ih =>
      refine forall_mem_snoc.mpr ⟨fun x inside k past e label => ?_, fun k past e label => ?_⟩
      · obtain ⟨y, mem, start⟩ := ih x inside k past e label
        exact ⟨y, List.mem_append_left _ mem, start⟩
      · obtain rfl : l = .call k past e := label
        obtain ⟨p, mem, rfl, -⟩ := step.caller
        obtain ⟨y, mem, start⟩ := started before p mem
        exact ⟨y, List.mem_append_left _ mem, start⟩

/-- Every call is remembered by the process that made it. -/
theorem remembered {w : W} {tr : List (Transition (Pool K C A ε W) (Action K C A ε))}
    (history : History (Step body handler spawn) ⟨w, []⟩ tr pool) :
    ∀ x ∈ tr, ∀ k past e, x.label = .call k past e →
      ∃ p ∈ pool.processes, p.kind = k ∧ e ∈ p.past := by
  induction history with
  | start => exact List.forall_mem_nil _
  | @next tr t u l before step ih =>
      have kept : ∀ k e, (∃ p ∈ t.processes, p.kind = k ∧ e ∈ p.past) →
          ∃ p ∈ u.processes, p.kind = k ∧ e ∈ p.past := by
        intro k e ⟨p, mem, kind, made⟩
        cases step with
        | start started => exact ⟨p, List.mem_append_left _ mem, kind, made⟩
        | @call w w' first last k' past c f r answer =>
            rcases List.mem_append.mp mem with old | new
            · exact ⟨p, List.mem_append_left _ old, kind, made⟩
            rcases List.mem_cons.mp new with rfl | old
            · exact ⟨_, List.mem_append_right _ List.mem_cons_self, kind, List.mem_append_left _ made⟩
            · exact ⟨p, List.mem_append_right _ (List.mem_cons_of_mem _ old), kind, made⟩
      refine forall_mem_snoc.mpr ⟨fun x inside k past e label => ?_, fun k past e label => ?_⟩
      · exact kept k e (ih x inside k past e label)
      · obtain rfl : l = .call k past e := label
        cases step with
        | call answer =>
            exact ⟨_, List.mem_append_right _ List.mem_cons_self, rfl, by simp⟩

/-- Every logged call of a process is a step of the history. -/
theorem logged {w : W} {tr : List (Transition (Pool K C A ε W) (Action K C A ε))}
    (history : History (Step body handler spawn) ⟨w, []⟩ tr pool) :
    ∀ p ∈ pool.processes, ∀ past e rest, p.past = past ++ e :: rest →
      ∃ x ∈ tr, x.label = .call p.kind past e := by
  induction history with
  | start => exact nofun
  | @next tr t u l before step ih =>
      intro p mem past e rest log
      have earlier : ∀ q ∈ t.processes, q.kind = p.kind → q.past = past ++ e :: rest →
          ∃ x ∈ tr ++ [⟨t, l, u⟩], x.label = .call p.kind past e := by
        intro q old same log
        obtain ⟨x, inside, label⟩ := ih q old past e rest log
        exact ⟨x, List.mem_append_left _ inside, by rw [label, same]⟩
      cases step with
      | start started =>
          rcases List.mem_append.mp mem with old | new
          · exact earlier p old rfl log
          · rw [List.mem_singleton.mp new] at log
            simp at log
      | @call w w' first last k past' c f r answer =>
          rcases List.mem_append.mp mem with old | new
          · exact earlier p (List.mem_append_left _ old) rfl log
          rcases List.mem_cons.mp new with rfl | old
          · rcases snoc_eq_append_cons log with ⟨rfl, rfl, -⟩ | ⟨rest, -, log⟩
            · exact ⟨_, List.mem_append_right _ (List.mem_singleton_self _), rfl⟩
            · obtain ⟨x, inside, label⟩ :=
                ih _ (List.mem_append_right _ List.mem_cons_self) past e rest log
              exact ⟨x, List.mem_append_left _ inside, label⟩
          · exact earlier p (List.mem_append_right _ (List.mem_cons_of_mem _ old)) rfl log

/-- Every step that is a call is logged once, by one process. -/
theorem logged_count {w : W} {tr : List (Transition (Pool K C A ε W) (Action K C A ε))}
    (q : Event C A ε → Bool) (history : History (Step body handler spawn) ⟨w, []⟩ tr pool) :
    (pool.processes.map fun p => p.past.countP q).sum = tr.countP fun x => x.label.does q := by
  induction history with
  | start => rfl
  | @next tr t u l before step ih =>
      rw [List.countP_append, ← ih]
      cases step with
      | start started => simp
      | @call w w' first last k past c f r answer =>
          have single : ∀ {β : Type} (y : β) (h : β → Bool), h y = q ⟨c, r⟩ →
              [y].countP h = (q ⟨c, r⟩).toNat := by
            intro β y h same
            rw [List.countP_singleton, same]
            cases q ⟨c, r⟩ <;> rfl
          simp only [List.map_append, List.map_cons, List.sum_append, List.sum_cons,
            List.countP_append, single ⟨c, r⟩ q rfl]
          rw [single _ (fun x : Transition (Pool K C A ε W) (Action K C A ε) => x.label.does q) rfl]
          omega

/-- A process that has ended has the log its script asks for. -/
theorem Scripted.ended {p : Process K C A ε} {r : Except ε Unit}
    (scripted : pool.Scripted real allow done)
    (mem : p ∈ pool.processes) (ended : p.rest = Prog.ended r) : done p.kind p.past r := by
  have last := scripted p mem
  rw [ended] at last
  cases r <;> exact last

end Pool

end Intellivault.Lib
