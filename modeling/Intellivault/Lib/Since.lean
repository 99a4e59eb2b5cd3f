import Intellivault.Lib.Script

/-!
# Since a call

A process reads at one step and writes at a later one.  Whether what it has read is still true
then depends on what the others did in between: `Pool.Since` bounds that, and `Since.kept` carries
what was read over to the step that writes.

`Throughout` is a condition on the transitions of a history, each with those before it.
-/

namespace Intellivault.Lib

section Throughout

variable {S L : Type} {cond : List (Transition S L) → Transition S L → Prop}
  {tr : List (Transition S L)} {x : Transition S L}

def Throughout (cond : List (Transition S L) → Transition S L → Prop)
    (tr : List (Transition S L)) : Prop :=
  ∀ before x after, tr = before ++ x :: after → cond before x

theorem throughout_nil : Throughout cond [] := by
  intro before x after split
  exact (List.append_ne_nil_of_right_ne_nil before (List.cons_ne_nil x after) split.symm).elim

theorem throughout_snoc :
    Throughout cond (tr ++ [x]) ↔ Throughout cond tr ∧ cond tr x := by
  constructor
  · intro all
    refine ⟨fun before y after split => all before y (after ++ [x]) ?_, all tr x [] rfl⟩
    rw [split, List.append_assoc, List.cons_append]
  · intro each before y after split
    obtain ⟨all, last⟩ := each
    rcases snoc_eq_append_cons split with ⟨rfl, rfl, -⟩ | ⟨rest, -, split⟩
    · exact last
    · exact all before y rest split

/-- What holds after a transition, and is kept by all later ones, holds in the end. -/
theorem History.since {step : S → L → S → Prop} {s t : S} {P : S → Prop}
    {earlier later : List (Transition S L)} (history : History step s (earlier ++ x :: later) t)
    (start : P x.target)
    (keep : ∀ before z after, later = before ++ z :: after →
      History step s (earlier ++ x :: before) z.source → step z.source z.label z.target →
        P z.source → P z.target) : P t := by
  generalize whole : earlier ++ x :: later = tr at history
  induction history generalizing later with
  | start =>
      exact (List.append_ne_nil_of_right_ne_nil earlier (List.cons_ne_nil x later) whole).elim
  | next before moved ih =>
      rcases snoc_eq_append_cons whole.symm with ⟨rfl, rfl, -⟩ | ⟨rest, rfl, split⟩
      · exact start
      · rw [split] at before
        refine keep rest _ [] rfl before moved (ih ?_ split.symm)
        exact fun first z after inside => keep first z _ (by rw [inside, List.append_assoc]; rfl)

end Throughout

namespace Pool

open Prog

variable {K C ε W : Type} {A : C → Type} {body : K → Prog C A ε Unit} {handler : Handler C A ε W}
  {spawn : W → K → W → Prop} {pool pool' : Pool K C A ε W} {w : W} {k : K}
  {past : List (Event C A ε)} {e : Event C A ε}
  {tr : List (Transition (Pool K C A ε W) (Action K C A ε))}

/-- Since each call of the process that `reads` picks, every step was `quiet`.  Processes that
have logged the same calls are not told apart. -/
def Since (tr : List (Transition (Pool K C A ε W) (Action K C A ε))) (k : K)
    (past : List (Event C A ε)) (reads : Event C A ε → Prop)
    (quiet : Transition (Pool K C A ε W) (Action K C A ε) → Prop) : Prop :=
  ∀ earlier e later, past = earlier ++ e :: later → reads e →
    ∃ before x after, tr = before ++ x :: after ∧ x.label = .call k earlier e ∧ ∀ z ∈ after, quiet z

/-- What a process has called before a step of its own were steps of the history. -/
theorem Step.recalled (history : History (Step body handler spawn) ⟨w, []⟩ tr pool)
    {e' : Event C A ε} (step : Step body handler spawn pool (.call k past e') pool')
    {earlier later : List (Event C A ε)} (log : past = earlier ++ e :: later) :
    ∃ before x after, tr = before ++ x :: after ∧ x.label = .call k earlier e := by
  obtain ⟨p, mem, rfl, rfl⟩ := Step.caller step
  obtain ⟨x, inside, label⟩ := logged history p mem earlier e later log
  obtain ⟨before, after, split⟩ := List.append_of_mem inside
  exact ⟨before, x, after, split, label⟩

/-- What the call has read is kept by the quiet steps since. -/
theorem Since.kept {reads : Event C A ε → Prop} {P : Pool K C A ε W → Prop}
    {quiet : Transition (Pool K C A ε W) (Action K C A ε) → Prop}
    (since : Since tr k past reads quiet)
    (history : History (Step body handler spawn) ⟨w, []⟩ tr pool) (called : e ∈ past)
    (read : reads e)
    (start : ∀ before x after, tr = before ++ x :: after →
      History (Step body handler spawn) ⟨w, []⟩ before x.source →
        handler e.1 x.source.world e.2 x.target.world → P x.target)
    (keep : ∀ before z after, tr = before ++ z :: after →
      History (Step body handler spawn) ⟨w, []⟩ before z.source →
        Step body handler spawn z.source z.label z.target → quiet z → P z.source → P z.target) :
    P pool := by
  obtain ⟨earlier, later, log⟩ := List.append_of_mem called
  obtain ⟨before, x, after, rfl, label, calm⟩ := since earlier e later log read
  obtain ⟨first, moved⟩ := history.upTo rfl
  rw [label] at moved
  refine history.since (start before x after rfl first (Step.answers moved)) ?_
  intro middle z rest split next step holds
  refine keep (before ++ x :: middle) z rest ?_ next step (calm z ?_) holds
  · rw [split, List.append_assoc, List.cons_append]
  · rw [split]
    exact List.mem_append_right _ List.mem_cons_self

end Pool

end Intellivault.Lib
