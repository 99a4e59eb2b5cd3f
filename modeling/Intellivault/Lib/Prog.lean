import Mathlib.Logic.Basic

/-!
# Programs that call their surroundings

A `Prog` is a terminating program whose only effects are calls: it returns, raises, or
makes one call and goes on with whatever comes back, a value or an exception.  What
the calls do is left to a `Handler`, a relation between the states before and after
one call and its answer, so one program can be run against several surroundings.

* `Prog.Runs`: a program, run for some of its calls, with the trace of them.  Every
  partial run is covered, so a statement about `Runs` is about every prefix too.
* `Prog.Holds`: an invariant holds after each call and a postcondition at the end;
  `holds_bind` and `holds_attempt` are its rules, `Runs.holds` its meaning.
* `Prog.Calls`: the program makes only calls of one kind, whatever is answered.
* `Prog.Returns`: what the program may return, whatever is answered; `Prog.Safe`: it does
  not raise; `Prog.Ends`: it can end so.
* `Prog.run`: the run against surroundings that answer by a function.
-/

namespace Intellivault.Lib

/-- A program over calls `C` answered in `A`, raising `ε` and returning `α`. -/
inductive Prog (C : Type) (A : C → Type) (ε α : Type) : Type
  | ret (a : α)
  | raise (x : ε)
  | call (c : C) (k : Except ε (A c) → Prog C A ε α)

namespace Prog

variable {C : Type} {A : C → Type} {ε α β γ S : Type}

/-- Run `p`, then `f` on what it returns; an exception skips `f`. -/
def bind : Prog C A ε α → (α → Prog C A ε β) → Prog C A ε β
  | .ret a, f => f a
  | .raise x, _ => .raise x
  | .call c k, f => .call c fun r => (k r).bind f

instance : Monad (Prog C A ε) where
  pure := .ret
  bind := .bind

/-- Make one call and pass its answer on. -/
def perform (c : C) : Prog C A ε (A c) :=
  .call c fun
    | .ok a => .ret a
    | .error x => .raise x

/-- Run `p` and hand over its outcome, whether it returned or raised. -/
def attempt : Prog C A ε α → Prog C A ε (Except ε α)
  | .ret a => .ret (.ok a)
  | .raise x => .ret (.error x)
  | .call c k => .call c fun r => (k r).attempt

/-- `try: p except x: h x`. -/
def handle (p : Prog C A ε α) (h : ε → Prog C A ε α) : Prog C A ε α := do
  match ← p.attempt with
  | .ok a => return a
  | .error x => h x

@[simp] theorem pure_eq_ret (a : α) : (pure a : Prog C A ε α) = .ret a := rfl

@[simp] theorem ret_bind (a : α) (f : α → Prog C A ε β) : (.ret a >>= f) = f a := rfl

@[simp] theorem raise_bind (x : ε) (f : α → Prog C A ε β) : (.raise x >>= f) = .raise x := rfl

@[simp] theorem call_bind (c : C) (k : Except ε (A c) → Prog C A ε α) (f : α → Prog C A ε β) :
    (.call c k >>= f) = .call c fun r => k r >>= f := rfl

theorem bind_assoc (p : Prog C A ε α) (f : α → Prog C A ε β) (g : β → Prog C A ε γ) :
    (p >>= f >>= g) = p >>= fun a => f a >>= g := by
  induction p with
  | ret a => rfl
  | raise x => rfl
  | call c k ih => simp only [call_bind, ih]

/-! ## Running against a relation -/

/-- What a call may do: state before, answer, state after. -/
abbrev Handler (C : Type) (A : C → Type) (ε S : Type) :=
  (c : C) → S → Except ε (A c) → S → Prop

/-- One call with its answer. -/
abbrev Event (C : Type) (A : C → Type) (ε : Type) := (c : C) × Except ε (A c)

/-- `Runs H p s tr p' s'`: making the calls of `tr` takes `p` in state `s` to the
program `p'` that is left to run, in state `s'`. -/
inductive Runs (H : Handler C A ε S) :
    Prog C A ε α → S → List (Event C A ε) → Prog C A ε α → S → Prop
  | refl {p : Prog C A ε α} {s : S} : Runs H p s [] p s
  | step {c : C} {k : Except ε (A c) → Prog C A ε α} {s s₁ s' : S} {r : Except ε (A c)}
      {tr : List (Event C A ε)} {p' : Prog C A ε α} :
      H c s r s₁ → Runs H (k r) s₁ tr p' s' → Runs H (.call c k) s (⟨c, r⟩ :: tr) p' s'

/-- The program that ends at once with the given outcome. -/
def ended : Except ε α → Prog C A ε α
  | .ok a => .ret a
  | .error x => .raise x

/-- Invariant `I` after every call, and `Q` of the outcome and the state at the end. -/
def Holds (H : Handler C A ε S) (I : S → Prop) (Q : Except ε α → S → Prop) :
    Prog C A ε α → S → Prop
  | .ret a, s => Q (.ok a) s
  | .raise x, s => Q (.error x) s
  | .call c k, s => ∀ r s', H c s r s' → I s' ∧ (k r).Holds H I Q s'

variable {H : Handler C A ε S} {I : S → Prop}

@[simp] theorem holds_ret {Q : Except ε α → S → Prop} {a : α} {s : S} :
    (Prog.ret a : Prog C A ε α).Holds H I Q s ↔ Q (.ok a) s := Iff.rfl

@[simp] theorem holds_raise {Q : Except ε α → S → Prop} {x : ε} {s : S} :
    (Prog.raise x : Prog C A ε α).Holds H I Q s ↔ Q (.error x) s := Iff.rfl

theorem holds_perform {c : C} {Q : Except ε (A c) → S → Prop} {s : S} :
    (perform c : Prog C A ε (A c)).Holds H I Q s ↔ ∀ r s', H c s r s' → I s' ∧ Q r s' := by
  refine forall_congr' fun r => forall_congr' fun s' => ?_
  cases r <;> rfl

@[simp] theorem holds_ended {Q : Except ε α → S → Prop} {r : Except ε α} {s : S} :
    (ended r : Prog C A ε α).Holds H I Q s ↔ Q r s := by
  cases r <;> rfl

theorem holds_true (p : Prog C A ε α) (s : S) :
    p.Holds H (fun _ => True) (fun _ _ => True) s := by
  induction p generalizing s with
  | ret a => trivial
  | raise x => trivial
  | call c k ih => exact fun r s' _ => ⟨trivial, ih r s'⟩

/-- The rule of sequential composition. -/
theorem holds_bind {Q : Except ε β → S → Prop} {p : Prog C A ε α} {f : α → Prog C A ε β} {s : S} :
    (p >>= f).Holds H I Q s ↔ p.Holds H I (fun r s' =>
      match r with
      | .ok a => (f a).Holds H I Q s'
      | .error x => Q (.error x) s') s := by
  induction p generalizing s with
  | ret a => rfl
  | raise x => rfl
  | call c k ih =>
      refine forall_congr' fun r => forall_congr' fun s' => forall_congr' fun _ => ?_
      exact and_congr_right fun _ => ih r

theorem holds_attempt {Q : Except ε (Except ε α) → S → Prop} {p : Prog C A ε α} {s : S} :
    p.attempt.Holds H I Q s ↔ p.Holds H I (fun r s' => Q (.ok r) s') s := by
  induction p generalizing s with
  | ret a => rfl
  | raise x => rfl
  | call c k ih =>
      refine forall_congr' fun r => forall_congr' fun s' => forall_congr' fun _ => ?_
      exact and_congr_right fun _ => ih r

/-- The rule of `try`/`except`. -/
theorem holds_handle {Q : Except ε α → S → Prop} {p : Prog C A ε α} {h : ε → Prog C A ε α}
    {s : S} :
    (p.handle h).Holds H I Q s ↔ p.Holds H I (fun r s' =>
      match r with
      | .ok a => Q (.ok a) s'
      | .error x => (h x).Holds H I Q s') s := by
  rw [handle, holds_bind, holds_attempt]
  refine iff_of_eq (congrArg (fun R => p.Holds H I R s) ?_)
  funext r s'
  cases r <;> rfl

theorem Holds.mono {Q Q' : Except ε α → S → Prop} {p : Prog C A ε α} {s : S}
    (weaken : ∀ r s', Q r s' → Q' r s') (h : p.Holds H I Q s) : p.Holds H I Q' s := by
  induction p generalizing s with
  | ret a => exact weaken _ _ h
  | raise x => exact weaken _ _ h
  | call c k ih => exact fun r s' answer => ⟨(h r s' answer).1, ih r (h r s' answer).2⟩

/-- A weaker invariant. -/
theorem Holds.weaken {I' : S → Prop} {Q : Except ε α → S → Prop} {p : Prog C A ε α} {s : S}
    (implied : ∀ s, I s → I' s) (h : p.Holds H I Q s) : p.Holds H I' Q s := by
  induction p generalizing s with
  | ret a => exact h
  | raise x => exact h
  | call c k ih => exact fun r s' answer => ⟨implied _ (h r s' answer).1, ih r (h r s' answer).2⟩

/-- What `Holds` means: along every run, complete or not, the invariant is kept and what
is left still satisfies the triple. -/
theorem Runs.holds {Q : Except ε α → S → Prop} {p p' : Prog C A ε α} {s s' : S}
    {tr : List (Event C A ε)} (run : Runs H p s tr p' s') (start : I s)
    (h : p.Holds H I Q s) : I s' ∧ p'.Holds H I Q s' := by
  induction run with
  | refl => exact ⟨start, h⟩
  | step answer _ ih =>
      obtain ⟨kept, rest⟩ := h _ _ answer
      exact ih kept rest

/-- The postcondition at the end of a complete run. -/
theorem Runs.post {Q : Except ε α → S → Prop} {p : Prog C A ε α} {r : Except ε α} {s s' : S}
    {tr : List (Event C A ε)} (run : Runs H p s tr (ended r) s') (start : I s)
    (h : p.Holds H I Q s) : Q r s' := by
  have last := (run.holds start h).2
  cases r <;> exact last

/-- What raised did not return. -/
theorem of_error_eq_ok {x : ε} {a : α} {R : Prop} (h : (Except.error x : Except ε α) = .ok a) : R := by
  cases h

/-! ## Running against a function -/

/-- The complete run when every call is answered by a function of the state. -/
def run (respond : (c : C) → S → Except ε (A c) × S) :
    Prog C A ε α → S → List (Event C A ε) × Except ε α × S
  | .ret a, s => ([], .ok a, s)
  | .raise x, s => ([], .error x, s)
  | .call c k, s =>
      let (r, s) := respond c s
      let (tr, outcome, s) := (k r).run respond s
      (⟨c, r⟩ :: tr, outcome, s)

/-- It is a run of every handler that allows these answers. -/
theorem runs_run {respond : (c : C) → S → Except ε (A c) × S}
    (allowed : ∀ c s, H c s (respond c s).1 (respond c s).2) (p : Prog C A ε α) (s : S) :
    Runs H p s (p.run respond s).1 (ended (p.run respond s).2.1) (p.run respond s).2.2 := by
  induction p generalizing s with
  | ret a => exact .refl
  | raise x => exact .refl
  | call c k ih => exact .step (allowed c s) (ih _ _)

/-! ## Ghost state -/

/-- The handler that also feeds what each call does to the state to an automaton. -/
def ghost {σ : Type} (H : Handler C A ε S) (δ : σ → C → S → S → σ) :
    Handler C A ε (S × σ) :=
  fun c before r after => H c before.1 r after.1 ∧ after.2 = δ before.2 c before.1 after.1

/-- It only watches: every run is one of its runs. -/
theorem Runs.ghost {σ : Type} {δ : σ → C → S → S → σ} {p p' : Prog C A ε α} {s s' : S}
    {tr : List (Event C A ε)} (run : Runs H p s tr p' s') (q : σ) :
    ∃ q', Runs (ghost H δ) p (s, q) tr p' (s', q') := by
  induction run generalizing q with
  | refl => exact ⟨q, .refl⟩
  | @step c k s t u r tr p answer _ ih =>
      obtain ⟨q', rest⟩ := ih (δ q c s t)
      exact ⟨q', .step ⟨answer, rfl⟩ rest⟩

/-! ## Programs that make only some calls -/

/-- Every call the program can make satisfies `P`, whatever is answered before. -/
def Calls (P : C → Prop) : Prog C A ε α → Prop
  | .ret _ => True
  | .raise _ => True
  | .call c k => P c ∧ ∀ r, (k r).Calls P

variable {P : C → Prop}

@[simp] theorem calls_ret {a : α} : (Prog.ret a : Prog C A ε α).Calls P := trivial

@[simp] theorem calls_raise {x : ε} : (Prog.raise x : Prog C A ε α).Calls P := trivial

theorem calls_perform {c : C} (allowed : P c) : (perform c : Prog C A ε (A c)).Calls P :=
  ⟨allowed, fun r => by cases r <;> trivial⟩

theorem Calls.bind {p : Prog C A ε α} {f : α → Prog C A ε β} (first : p.Calls P)
    (rest : ∀ a, (f a).Calls P) : (p >>= f).Calls P := by
  induction p with
  | ret a => exact rest a
  | raise x => trivial
  | call c k ih => exact ⟨first.1, fun r => ih r (first.2 r)⟩

theorem Calls.attempt {p : Prog C A ε α} (h : p.Calls P) : p.attempt.Calls P := by
  induction p with
  | ret a => trivial
  | raise x => trivial
  | call c k ih => exact ⟨h.1, fun r => ih r (h.2 r)⟩

theorem Calls.handle {p : Prog C A ε α} {h : ε → Prog C A ε α} (body : p.Calls P)
    (handler : ∀ x, (h x).Calls P) : (p.handle h).Calls P := by
  refine body.attempt.bind fun r => ?_
  cases r with
  | ok a => trivial
  | error x => exact handler x

theorem Calls.mono {P' : C → Prop} {p : Prog C A ε α} (weaken : ∀ c, P c → P' c)
    (h : p.Calls P) : p.Calls P' := by
  induction p with
  | ret a => trivial
  | raise x => trivial
  | call c k ih => exact ⟨weaken c h.1, fun r => ih r (h.2 r)⟩

/-- A state property every allowed call keeps holds along the whole program. -/
theorem Calls.holds {p : Prog C A ε α} {s : S} (h : p.Calls P)
    (keeps : ∀ c s r s', P c → I s → H c s r s' → I s') (start : I s) :
    p.Holds H I (fun _ s' => I s') s := by
  induction p generalizing s with
  | ret a => exact start
  | raise x => exact start
  | call c k ih =>
      intro r s' answer
      have kept := keeps c s r s' h.1 start answer
      exact ⟨kept, ih r (h.2 r) kept⟩

/-! ## What a program may return -/

/-- Every value the program can return satisfies `Q`, whatever is answered. -/
def Returns (Q : α → Prop) : Prog C A ε α → Prop
  | .ret a => Q a
  | .raise _ => True
  | .call _ k => ∀ r, (k r).Returns Q

theorem returns_true (p : Prog C A ε α) : p.Returns fun _ => True := by
  induction p with
  | ret a => trivial
  | raise x => trivial
  | call c k ih => exact ih

theorem Returns.mono {P Q : α → Prop} {p : Prog C A ε α} (h : p.Returns P)
    (weaken : ∀ a, P a → Q a) : p.Returns Q := by
  induction p with
  | ret a => exact weaken a h
  | raise x => trivial
  | call c k ih => exact fun r => ih r (h r)

/-- The rest may count on what was returned. -/
theorem Returns.then {P : α → Prop} {Q : β → Prop} {p : Prog C A ε α} {f : α → Prog C A ε β}
    (first : p.Returns P) (rest : ∀ a, P a → (f a).Returns Q) : (p >>= f).Returns Q := by
  induction p with
  | ret a => exact rest a first
  | raise x => trivial
  | call c k ih => exact fun r => ih r (first r)

theorem Returns.bind {Q : β → Prop} {p : Prog C A ε α} {f : α → Prog C A ε β}
    (rest : ∀ a, (f a).Returns Q) : (p >>= f).Returns Q :=
  (returns_true p).then fun a _ => rest a

theorem Returns.attempt {Q : α → Prop} {p : Prog C A ε α} (h : p.Returns Q) :
    p.attempt.Returns fun r => ∀ a, r = .ok a → Q a := by
  induction p with
  | ret a =>
      rintro _ ⟨⟩
      exact h
  | raise x => exact fun _ => of_error_eq_ok
  | call c k ih => exact fun r => ih r (h r)

/-- The calls of a sequence, if only what the first part returns goes on. -/
theorem Calls.then {P : C → Prop} {Q : α → Prop} {p : Prog C A ε α} {f : α → Prog C A ε β}
    (first : p.Calls P) (returns : p.Returns Q) (rest : ∀ a, Q a → (f a).Calls P) :
    (p >>= f).Calls P := by
  induction p with
  | ret a => exact rest a returns
  | raise x => trivial
  | call c k ih => exact ⟨first.1, fun r => ih r (first.2 r) (returns r)⟩

theorem Returns.handle {Q : α → Prop} {p : Prog C A ε α} {h : ε → Prog C A ε α}
    (body : p.Returns Q) (handler : ∀ x, (h x).Returns Q) : (p.handle h).Returns Q := by
  induction p with
  | ret a => exact body
  | raise x => exact handler x
  | call c k ih => exact fun r => ih r (body r)

/-- The program can end with the outcome, if it is answered accordingly. -/
def Ends : Prog C A ε α → Except ε α → Prop
  | .ret a, r => r = .ok a
  | .raise x, r => r = .error x
  | .call _ k, r => ∃ answer, (k answer).Ends r

theorem Returns.of_ends {Q : α → Prop} {p : Prog C A ε α} {a : α} (returns : p.Returns Q)
    (ends : p.Ends (.ok a)) : Q a := by
  induction p with
  | ret b =>
      cases ends
      exact returns
  | raise x => cases ends
  | call c k ih =>
      obtain ⟨answer, ends⟩ := ends
      exact ih answer (returns answer) ends

/-- Every program can end: any call may fail. -/
theorem exists_ends (x : ε) (p : Prog C A ε α) : ∃ r, p.Ends r := by
  induction p with
  | ret a => exact ⟨.ok a, rfl⟩
  | raise x => exact ⟨.error x, rfl⟩
  | call c k ih =>
      obtain ⟨r, ends⟩ := ih (.error x)
      exact ⟨r, .error x, ends⟩

theorem ends_bind {p : Prog C A ε α} {f : α → Prog C A ε β} {b : β} :
    (p >>= f).Ends (.ok b) ↔ ∃ a, p.Ends (.ok a) ∧ (f a).Ends (.ok b) := by
  induction p with
  | ret a =>
      constructor
      · exact fun ends => ⟨a, rfl, ends⟩
      · rintro ⟨_, ⟨⟩, ends⟩
        exact ends
  | raise x =>
      constructor
      · rintro ⟨⟩
      · rintro ⟨_, ⟨⟩, _⟩
  | call c k ih =>
      constructor
      · rintro ⟨answer, ends⟩
        obtain ⟨a, first, rest⟩ := (ih answer).mp ends
        exact ⟨a, ⟨answer, first⟩, rest⟩
      · rintro ⟨a, ⟨answer, first⟩, rest⟩
        exact ⟨answer, (ih answer).mpr ⟨a, first, rest⟩⟩

/-- The program never raises. -/
def Safe : Prog C A ε α → Prop
  | .ret _ => True
  | .raise _ => False
  | .call _ k => ∀ r, (k r).Safe

theorem Safe.bind {p : Prog C A ε α} {f : α → Prog C A ε β} (first : p.Safe)
    (rest : ∀ a, (f a).Safe) : (p >>= f).Safe := by
  induction p with
  | ret a => exact rest a
  | raise x => exact first.elim
  | call c k ih => exact fun r => ih r (first r)

theorem safe_attempt (p : Prog C A ε α) : p.attempt.Safe := by
  induction p with
  | ret a => trivial
  | raise x => trivial
  | call c k ih => exact ih

theorem Safe.holds {Q : Except ε α → S → Prop} {p : Prog C A ε α} {s : S} (safe : p.Safe)
    (h : p.Holds H I Q s) : p.Holds H I (fun r s' => Q r s' ∧ ∃ a, r = .ok a) s := by
  induction p generalizing s with
  | ret a => exact ⟨h, a, rfl⟩
  | raise x => exact safe.elim
  | call c k ih => exact fun r s' answer => ⟨(h r s' answer).1, ih r (safe r) (h r s' answer).2⟩

end Prog

end Intellivault.Lib
