import Intellivault.Lib.Prog

/-!
# Two programs in tandem

Two programs run against the same surroundings, each in its own world, and compared by
the calls an observer watches.  `Tandem R p s q t`: both runs show the observer the same
calls with the same answers, and `R` relates how they end and the worlds they leave.

* `Tandem.bind` and `Tandem.attempt` go along with the programs.
* `Tandem.left` and `Tandem.right` let one side make calls nobody watches.
* `Tandem.same`: one program in two worlds that answer its calls alike.
* `Silent`: a program that returns without a watched call; `Tandem.afterSilent` skips it.
-/

namespace Intellivault.Lib.Prog

variable {C : Type} {A : C → Type} {ε α β γ δ S : Type}

section Run

variable {respond : (c : C) → S → Except ε (A c) × S}

theorem run_call (c : C) (k : Except ε (A c) → Prog C A ε α) (s : S) :
    (Prog.call c k).run respond s =
      (⟨c, (respond c s).1⟩ :: ((k (respond c s).1).run respond (respond c s).2).1,
        ((k (respond c s).1).run respond (respond c s).2).2) := rfl

/-- The rest of a run, after the first program ended. -/
def runOn (respond : (c : C) → S → Except ε (A c) × S) (f : α → Prog C A ε β) :
    Except ε α → S → List (Event C A ε) × Except ε β × S
  | .ok a, s => (f a).run respond s
  | .error x, s => ([], .error x, s)

theorem run_bind (p : Prog C A ε α) (f : α → Prog C A ε β) (s : S) :
    (p >>= f).run respond s =
      ((p.run respond s).1 ++ (runOn respond f (p.run respond s).2.1 (p.run respond s).2.2).1,
        (runOn respond f (p.run respond s).2.1 (p.run respond s).2.2).2) := by
  induction p generalizing s with
  | ret a => rfl
  | raise x => rfl
  | call c k ih => simp only [call_bind, run_call, ih, List.cons_append]

theorem run_attempt (p : Prog C A ε α) (s : S) :
    p.attempt.run respond s =
      ((p.run respond s).1, .ok (p.run respond s).2.1, (p.run respond s).2.2) := by
  induction p generalizing s with
  | ret a => rfl
  | raise x => rfl
  | call c k ih => simp only [attempt, run_call, ih]

end Run

/-! ## The relation -/

section Tandem

variable (respond : (c : C) → S → Except ε (A c) × S) (watched : C → Bool)

/-- What the observer sees of a trace. -/
def seen (tr : List (Event C A ε)) : List (Event C A ε) := tr.filter fun e => watched e.1

theorem seen_hidden {c : C} {r : Except ε (A c)} {tr : List (Event C A ε)}
    (hidden : watched c = false) : seen watched (⟨c, r⟩ :: tr) = seen watched tr := by
  simp [seen, hidden]

def Tandem (R : Except ε α → S → Except ε β → S → Prop) (p : Prog C A ε α) (s : S)
    (q : Prog C A ε β) (t : S) : Prop :=
  seen watched (p.run respond s).1 = seen watched (q.run respond t).1 ∧
    R (p.run respond s).2.1 (p.run respond s).2.2 (q.run respond t).2.1 (q.run respond t).2.2

variable {respond watched} {R : Except ε α → S → Except ε β → S → Prop}
  {p : Prog C A ε α} {q : Prog C A ε β} {s t : S}

theorem Tandem.mono {R' : Except ε α → S → Except ε β → S → Prop}
    (h : Tandem respond watched R p s q t)
    (weaken : ∀ r s' r' t', R r s' r' t' → R' r s' r' t') :
    Tandem respond watched R' p s q t :=
  ⟨h.1, weaken _ _ _ _ h.2⟩

/-- Sequential composition; the first programs end the same way, returning or raising. -/
theorem Tandem.bind {M : Except ε γ → S → Except ε δ → S → Prop} {p : Prog C A ε γ}
    {q : Prog C A ε δ} {f : γ → Prog C A ε α} {g : δ → Prog C A ε β}
    (first : Tandem respond watched M p s q t)
    (rest : ∀ r s' r' t', M r s' r' t' → match r, r' with
      | .ok a, .ok b => Tandem respond watched R (f a) s' (g b) t'
      | .error x, .error y => R (.error x) s' (.error y) t'
      | _, _ => False) :
    Tandem respond watched R (p >>= f) s (q >>= g) t := by
  obtain ⟨same, ends⟩ := first
  have after := rest _ _ _ _ ends
  unfold Tandem
  rw [run_bind, run_bind]
  dsimp only
  simp only [seen, List.filter_append] at same ⊢
  generalize (p.run respond s).2 = x at after
  generalize (q.run respond t).2 = y at after
  obtain ⟨r, s'⟩ := x
  obtain ⟨r', t'⟩ := y
  cases r with
  | ok a =>
      cases r' with
      | ok b => exact ⟨by rw [same]; exact congrArg _ after.1, after.2⟩
      | error y => exact after.elim
  | error x =>
      cases r' with
      | ok b => exact after.elim
      | error y => exact ⟨by rw [same]; rfl, after⟩

theorem Tandem.attempt {R : Except ε (Except ε α) → S → Except ε (Except ε β) → S → Prop}
    (h : Tandem respond watched (fun r s' r' t' => R (.ok r) s' (.ok r') t') p s q t) :
    Tandem respond watched R p.attempt s q.attempt t := by
  unfold Tandem
  rw [run_attempt, run_attempt]
  exact h

/-- The left program makes a call that is not watched. -/
theorem Tandem.left {c : C} {k : Except ε (A c) → Prog C A ε α} (hidden : watched c = false)
    (h : Tandem respond watched R (k (respond c s).1) (respond c s).2 q t) :
    Tandem respond watched R (.call c k) s q t := by
  unfold Tandem
  rw [run_call, seen_hidden watched hidden]
  exact h

/-- The right program makes a call that is not watched. -/
theorem Tandem.right {c : C} {k : Except ε (A c) → Prog C A ε β} (hidden : watched c = false)
    (h : Tandem respond watched R p s (k (respond c t).1) (respond c t).2) :
    Tandem respond watched R p s (.call c k) t := by
  unfold Tandem
  rw [run_call, seen_hidden watched hidden]
  exact h

/-- One program in two worlds: `J` is kept, and its calls are answered alike. -/
theorem Tandem.same {J : S → S → Prop} {P : C → Prop} {p : Prog C A ε α} (calls : p.Calls P)
    (alike : ∀ c s t, P c → J s t →
      (respond c s).1 = (respond c t).1 ∧ J (respond c s).2 (respond c t).2)
    (start : J s t) :
    Tandem respond watched (fun r s' r' t' => r = r' ∧ J s' t') p s p t := by
  induction p generalizing s t with
  | ret a => exact ⟨rfl, rfl, start⟩
  | raise x => exact ⟨rfl, rfl, start⟩
  | call c k ih =>
      obtain ⟨same, kept⟩ := alike c s t calls.1 start
      obtain ⟨trace, ends⟩ := ih (respond c s).1 (calls.2 _) kept
      rw [same] at trace ends
      unfold Tandem
      rw [run_call, run_call, same]
      refine ⟨?_, ends⟩
      simp only [seen, List.filter_cons] at trace ⊢
      rw [trace]

/-! ## Programs the observer does not see -/

variable (respond watched) in
/-- From `s` the program returns `a` in `t`, and makes no watched call. -/
def Silent (p : Prog C A ε α) (s : S) (a : α) (t : S) : Prop :=
  seen watched (p.run respond s).1 = [] ∧ (p.run respond s).2 = (.ok a, t)

theorem silent_ret {a : α} : Silent respond watched (.ret a : Prog C A ε α) s a s := ⟨rfl, rfl⟩

theorem silent_perform {c : C} {a : A c} (hidden : watched c = false)
    (answer : respond c s = (.ok a, t)) : Silent respond watched (perform c) s a t := by
  unfold Silent perform
  rw [run_call, answer, seen_hidden watched hidden]
  exact ⟨rfl, rfl⟩

theorem Silent.bind {u : S} {a : α} {b : β} {f : α → Prog C A ε β}
    (first : Silent respond watched p s a t) (rest : Silent respond watched (f a) t b u) :
    Silent respond watched (p >>= f) s b u := by
  unfold Silent
  rw [run_bind, first.2]
  dsimp only [runOn]
  simp only [seen, List.filter_append]
  exact ⟨List.append_eq_nil_iff.mpr ⟨first.1, rest.1⟩, rest.2⟩

theorem Tandem.afterSilent {u : S} {b : γ} {q : Prog C A ε γ} {g : γ → Prog C A ε β}
    (first : Silent respond watched q t b u) (rest : Tandem respond watched R p s (g b) u) :
    Tandem respond watched R p s (q >>= g) t := by
  unfold Tandem
  rw [run_bind, first.2]
  dsimp only [runOn]
  refine ⟨?_, rest.2⟩
  rw [rest.1, seen, seen, List.filter_append]
  exact (congrArg (· ++ _) first.1).symm

end Tandem

end Intellivault.Lib.Prog
