import Intellivault.Lib.History
import Intellivault.Lib.Prog

/-!
# Complete runs, part by part

A complete run of a sequence is a run of its first part and one of the rest; a complete run
of a loop is a history of its rounds.

* `Runs.bind`, `Runs.handle`, `Runs.perform`: the parts of a run that is over.
* `Round`: one round of a loop, from the loop's variables and the state to both after it.
* `Runs.rounds`: a loop's run as a `History` of rounds, one for each element.
-/

namespace Intellivault.Lib

namespace Prog

variable {C : Type} {A : C → Type} {ε α β σ S X : Type} {H : Handler C A ε S} {s s' : S}
  {tr : List (Event C A ε)}

/-! ## The parts of a run -/

theorem Runs.ends {p : Prog C A ε α} {r : Except ε α} (run : Runs H p s tr (ended r) s') :
    p.Ends r := by
  generalize left : ended r = q at run
  induction run with
  | refl =>
      subst left
      cases r <;> rfl
  | step _ _ ih => exact ⟨_, ih left⟩

/-- A run that is over after no call, or goes on with one. -/
theorem Runs.call {c : C} {k : Except ε (A c) → Prog C A ε α} {r : Except ε α}
    (run : Runs H (.call c k) s tr (ended r) s') :
    ∃ answer t tr', H c s answer t ∧ Runs H (k answer) t tr' (ended r) s' ∧
      tr = ⟨c, answer⟩ :: tr' := by
  generalize left : ended r = q at run
  cases run with
  | refl => cases r <;> cases left
  | step answered rest => exact ⟨_, _, _, answered, rest, rfl⟩

theorem Runs.ret {a : α} {r : Except ε α} (run : Runs H (.ret a) s tr (ended r) s') :
    r = .ok a ∧ tr = [] ∧ s' = s := by
  generalize left : ended r = q at run
  cases run
  cases r <;> cases left
  exact ⟨rfl, rfl, rfl⟩

theorem Runs.raise {x : ε} {r : Except ε α} (run : Runs H (.raise x) s tr (ended r) s') :
    r = .error x ∧ tr = [] ∧ s' = s := by
  generalize left : ended r = q at run
  cases run
  cases r <;> cases left
  exact ⟨rfl, rfl, rfl⟩

theorem Runs.atOnce {q r : Except ε α} (run : Runs H (ended q) s tr (ended r) s') :
    r = q ∧ tr = [] ∧ s' = s := by
  cases q with
  | ok a => exact run.ret
  | error x => exact run.raise

theorem Runs.perform {c : C} {r : Except ε (A c)}
    (run : Runs H (Prog.perform c) s tr (ended r) s') : tr = [⟨c, r⟩] ∧ H c s r s' := by
  obtain ⟨answer, t, tr', answered, rest, rfl⟩ := run.call
  cases answer with
  | ok a =>
      obtain ⟨rfl, rfl, rfl⟩ := rest.ret
      exact ⟨rfl, answered⟩
  | error x =>
      obtain ⟨rfl, rfl, rfl⟩ := rest.raise
      exact ⟨rfl, answered⟩

/-- The first part of a sequence raises, or returns and the rest follows. -/
theorem Runs.bind {p : Prog C A ε α} {f : α → Prog C A ε β} {r : Except ε β}
    (run : Runs H (p >>= f) s tr (ended r) s') :
    (∃ x, r = .error x ∧ Runs H p s tr (ended (.error x)) s') ∨
      ∃ a t tr₁ tr₂, Runs H p s tr₁ (ended (.ok a)) t ∧ Runs H (f a) t tr₂ (ended r) s' ∧
        tr = tr₁ ++ tr₂ := by
  induction p generalizing s tr with
  | ret a => exact Or.inr ⟨a, s, [], tr, .refl, run, rfl⟩
  | raise x =>
      obtain ⟨rfl, rfl, rfl⟩ := run.raise
      exact Or.inl ⟨x, rfl, .refl⟩
  | call c k ih =>
      obtain ⟨answer, t, tr', answered, rest, rfl⟩ := run.call
      rcases ih answer rest with ⟨x, same, raised⟩ | ⟨a, u, tr₁, tr₂, first, second, rfl⟩
      · exact Or.inl ⟨x, same, .step answered raised⟩
      · exact Or.inr ⟨a, u, _ :: tr₁, tr₂, .step answered first, second, rfl⟩

/-- A sequence that returns. -/
theorem Runs.bind_ok {p : Prog C A ε α} {f : α → Prog C A ε β} {b : β}
    (run : Runs H (p >>= f) s tr (ended (.ok b)) s') :
    ∃ a t tr₁ tr₂, Runs H p s tr₁ (ended (.ok a)) t ∧
      Runs H (f a) t tr₂ (ended (.ok b)) s' ∧ tr = tr₁ ++ tr₂ := by
  rcases run.bind with ⟨_, same, _⟩ | parts
  · cases same
  · exact parts

/-- Runs of two parts, one after the other. -/
theorem Runs.andThen {p : Prog C A ε α} {f : α → Prog C A ε β} {a : α} {q : Prog C A ε β} {t : S}
    {tr₁ tr₂ : List (Event C A ε)} (first : Runs H p s tr₁ (ended (.ok a)) t)
    (second : Runs H (f a) t tr₂ q s') : Runs H (p >>= f) s (tr₁ ++ tr₂) q s' := by
  induction p generalizing s tr₁ with
  | ret b =>
      obtain ⟨same, rfl, rfl⟩ := first.ret
      cases same
      exact second
  | raise x =>
      obtain ⟨same, -, -⟩ := first.raise
      cases same
  | call c k ih =>
      obtain ⟨answer, t, tr', answered, rest, rfl⟩ := first.call
      exact .step answered (ih answer rest)

/-- A run of a sequence, broken off anywhere: it is in the first part, or the first part is over. -/
theorem Runs.bind_prefix {p : Prog C A ε α} {f : α → Prog C A ε β} {q : Prog C A ε β}
    (run : Runs H (p >>= f) s tr q s') :
    (∃ p', Runs H p s tr p' s') ∨
      ∃ a t tr₁ tr₂, Runs H p s tr₁ (ended (.ok a)) t ∧ Runs H (f a) t tr₂ q s' ∧ tr = tr₁ ++ tr₂ := by
  induction p generalizing s tr with
  | ret a => exact .inr ⟨a, s, [], tr, .refl, run, rfl⟩
  | raise x =>
      cases run
      exact .inl ⟨_, .refl⟩
  | call c k ih =>
      rw [call_bind] at run
      cases run with
      | refl => exact .inl ⟨_, .refl⟩
      | step answered rest =>
          rcases ih _ rest with ⟨p', inside⟩ | ⟨a, t, tr₁, tr₂, first, second, rfl⟩
          · exact .inl ⟨p', .step answered inside⟩
          · exact .inr ⟨a, t, _ :: tr₁, tr₂, .step answered first, second, rfl⟩

/-- A handled program returns by itself, or raises what its handler then deals with. -/
theorem Runs.handle {p : Prog C A ε α} {h : ε → Prog C A ε α} {r : Except ε α}
    (run : Runs H (p.handle h) s tr (ended r) s') :
    (∃ a, r = .ok a ∧ Runs H p s tr (ended (.ok a)) s') ∨
      ∃ x t tr₁ tr₂, Runs H p s tr₁ (ended (.error x)) t ∧ Runs H (h x) t tr₂ (ended r) s' ∧
        tr = tr₁ ++ tr₂ := by
  induction p generalizing s tr with
  | ret a =>
      obtain ⟨rfl, rfl, rfl⟩ := Runs.ret run
      exact Or.inl ⟨a, rfl, .refl⟩
  | raise x => exact Or.inr ⟨x, s, [], tr, .refl, run, rfl⟩
  | call c k ih =>
      obtain ⟨answer, t, tr', answered, rest, rfl⟩ := Runs.call run
      rcases ih answer rest with ⟨a, same, returned⟩ | ⟨x, u, tr₁, tr₂, raised, handled, rfl⟩
      · exact Or.inl ⟨a, same, .step answered returned⟩
      · exact Or.inr ⟨x, u, _ :: tr₁, tr₂, .step answered raised, handled, rfl⟩

theorem Runs.attempt {p : Prog C A ε α} {r : Except ε (Except ε α)}
    (run : Runs H p.attempt s tr (ended r) s') :
    ∃ q, r = .ok q ∧ Runs H p s tr (ended q) s' := by
  induction p generalizing s tr with
  | ret a =>
      obtain ⟨rfl, rfl, rfl⟩ := Runs.ret run
      exact ⟨.ok a, rfl, .refl⟩
  | raise x =>
      obtain ⟨rfl, rfl, rfl⟩ := Runs.ret run
      exact ⟨.error x, rfl, .refl⟩
  | call c k ih =>
      obtain ⟨answer, t, tr', answered, rest, rfl⟩ := Runs.call run
      obtain ⟨q, same, inner⟩ := ih answer rest
      exact ⟨q, same, .step answered inner⟩

theorem Runs.attempted {p : Prog C A ε α} {r : Except ε α}
    (run : Runs H p s tr (ended r) s') : Runs H p.attempt s tr (ended (.ok r)) s' := by
  induction p generalizing s tr with
  | ret a =>
      obtain ⟨rfl, rfl, rfl⟩ := run.ret
      exact .refl
  | raise x =>
      obtain ⟨rfl, rfl, rfl⟩ := run.raise
      exact .refl
  | call c k ih =>
      obtain ⟨answer, t, tr', answered, rest, rfl⟩ := run.call
      exact .step answered (ih answer rest)

/-- What every call keeps holds after a run. -/
theorem Runs.kept {I : S → Prop} {p p' : Prog C A ε α} (run : Runs H p s tr p' s')
    (keeps : ∀ c s r s', I s → H c s r s' → I s') (start : I s) : I s' := by
  induction run with
  | refl => exact start
  | step answered _ ih => exact ih (keeps _ _ _ _ start answered)

/-- The calls of a run, broken off anywhere. -/
theorem Runs.calls {P : C → Prop} {p p' : Prog C A ε α} (run : Runs H p s tr p' s')
    (allowed : p.Calls P) : ∀ e ∈ tr, P e.1 := by
  induction run with
  | refl => exact List.forall_mem_nil _
  | step _ _ ih => exact List.forall_mem_cons.mpr ⟨allowed.1, ih (allowed.2 _)⟩

/-- A run cut in its trace. -/
theorem Runs.cut {p p' : Prog C A ε α} {tr₁ tr₂ : List (Event C A ε)}
    (run : Runs H p s (tr₁ ++ tr₂) p' s') :
    ∃ q t, Runs H p s tr₁ q t ∧ Runs H q t tr₂ p' s' := by
  induction tr₁ generalizing p s with
  | nil => exact ⟨p, s, .refl, run⟩
  | cons e tr₁ ih =>
      rw [List.cons_append] at run
      cases run with
      | step answered rest =>
          obtain ⟨q, t, first, second⟩ := ih rest
          exact ⟨q, t, .step answered first, second⟩

/-- A run goes on with the next call. -/
theorem Runs.snoc {p : Prog C A ε α} {c : C} {k : Except ε (A c) → Prog C A ε α} {t : S}
    {r : Except ε (A c)} (run : Runs H p s tr (.call c k) t) (answered : H c t r s') :
    Runs H p s (tr ++ [⟨c, r⟩]) (k r) s' := by
  generalize left : Prog.call c k = q at run
  induction run with
  | refl =>
      subst left
      exact .step answered .refl
  | step first _ ih => exact .step first (ih answered left)

/-- A run of no call stays where it is. -/
theorem Runs.stays {p p' : Prog C A ε α} (run : Runs H p s [] p' s') : p' = p ∧ s' = s := by
  generalize none : ([] : List (Event C A ε)) = tr at run
  cases run with
  | refl => exact ⟨rfl, rfl⟩
  | step _ _ => cases none

/-- A run of one call. -/
theorem Runs.once {p p' : Prog C A ε α} {e : Event C A ε} (run : Runs H p s [e] p' s') :
    H e.1 s e.2 s' := by
  generalize same : [e] = tr at run
  cases run with
  | refl => cases same
  | step answered rest =>
      cases same
      exact rest.stays.2 ▸ answered

/-- The run, seen in other surroundings that allow the same answers. -/
theorem Runs.through {S' : Type} {H' : Handler C A ε S'} {f : S → S'} {p p' : Prog C A ε α}
    (run : Runs H p s tr p' s') (allows : ∀ c s r s', H c s r s' → H' c (f s) r (f s')) :
    Runs H' p (f s) tr p' (f s') := by
  induction run with
  | refl => exact .refl
  | step answered _ ih => exact .step (allows _ _ _ _ answered) ih

/-- If each call gives out names that are new, and names last, then no name is given out twice
along a run. -/
theorem Runs.fresh {N : Type} {has : S → N → Prop} {given : Event C A ε → List N}
    (lasts : ∀ c s r s' n, H c s r s' → has s n → has s' n)
    (new : ∀ c s r s', H c s r s' → (given ⟨c, r⟩).Nodup ∧ ∀ n ∈ given ⟨c, r⟩, ¬has s n ∧ has s' n)
    {p p' : Prog C A ε α} (run : Runs H p s tr p' s') :
    (tr.flatMap given).Nodup ∧ ∀ n ∈ tr.flatMap given, ¬has s n := by
  induction run with
  | refl => exact ⟨List.nodup_nil, List.forall_mem_nil _⟩
  | step answered _ ih =>
      obtain ⟨distinct, absent⟩ := ih
      obtain ⟨here, names⟩ := new _ _ _ _ answered
      rw [List.flatMap_cons, List.nodup_append]
      refine ⟨⟨here, distinct, ?_⟩, List.forall_mem_append.mpr ⟨fun n mem => (names n mem).1, ?_⟩⟩
      · rintro n mem _ later rfl
        exact absent n later (names n mem).2
      · exact fun n mem had => absent n mem (lasts _ _ _ _ _ answered had)

/-! ## Loops -/

/-- One round of a loop. -/
def Round (H : Handler C A ε S) (body : X → σ → Prog C A ε σ) : σ × S → X → σ × S → Prop :=
  fun before x after => ∃ tr, Runs H (body x before.1) before.2 tr (ended (.ok after.1)) after.2

theorem Runs.rounds (body : X → σ → Prog C A ε σ) (loop : List X → σ → Prog C A ε σ)
    (nil : ∀ a, loop [] a = .ret a) (cons : ∀ x xs a, loop (x :: xs) a = body x a >>= loop xs)
    {first : σ × S} {past : List (Transition (σ × S) X)} {xs : List X} {a b : σ}
    (earlier : History (Round H body) first past (a, s))
    (run : Runs H (loop xs a) s tr (ended (.ok b)) s') :
    ∃ rounds, History (Round H body) first (past ++ rounds) (b, s') ∧
      rounds.map (·.label) = xs := by
  induction xs generalizing past a s tr with
  | nil =>
      rw [nil] at run
      obtain ⟨⟨⟩, -, rfl⟩ := run.ret
      exact ⟨[], by rwa [List.append_nil], rfl⟩
  | cons x xs ih =>
      rw [cons] at run
      obtain ⟨c, t, tr₁, tr₂, here, rest, -⟩ := run.bind_ok
      obtain ⟨rounds, history, labels⟩ := ih (earlier.next ⟨tr₁, here⟩) rest
      rw [List.append_assoc] at history
      exact ⟨_ :: rounds, history, by rw [List.map_cons, labels]⟩

end Prog

end Intellivault.Lib
