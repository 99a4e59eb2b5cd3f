import Mathlib.Logic.Function.Basic

/-!
# Commands that ensure something

Commands on objects found by a key, each of which only sees to it that its object is there or
that it is not.  Running a sequence of them twice is running it once (`Ensure.runAll_runAll`),
so one that was broken off is completed by running it from the start.
-/

namespace Intellivault.Lib

inductive Ensure (K V : Type) where
  /-- The object is made, unless it is there. -/
  | create (key : K) (value : V)
  /-- The object is removed, if it is there. -/
  | drop (key : K)

namespace Ensure

variable {K V : Type}

def key : Ensure K V → K
  | .create k _ | .drop k => k

/-- What becomes of the command's object. -/
def outcome : Ensure K V → Option V → Option V
  | .create _ v, x => x <|> some v
  | .drop _, _ => none

variable [DecidableEq K]

def run (objects : K → Option V) (c : Ensure K V) : K → Option V :=
  Function.update objects c.key (c.outcome (objects c.key))

def runAll (cs : List (Ensure K V)) (objects : K → Option V) : K → Option V := cs.foldl run objects

/-- What becomes of one object. -/
def onKey (k : K) (cs : List (Ensure K V)) (x : Option V) : Option V :=
  cs.foldl (fun x c => if c.key = k then c.outcome x else x) x

theorem runAll_apply (cs : List (Ensure K V)) (objects : K → Option V) (k : K) :
    runAll cs objects k = onKey k cs (objects k) := by
  induction cs generalizing objects with
  | nil => rfl
  | cons c cs ih =>
      have first : run objects c k = if c.key = k then c.outcome (objects k) else objects k := by
        rw [run]
        split
        · rename_i same
          rw [← same, Function.update_self]
        · rename_i other
          rw [Function.update_of_ne (Ne.symm other)]
      exact (ih (run objects c)).trans (congrArg (onKey k cs) first)

/-- A sequence settles what becomes of an object, or only sees to it that it is there. -/
theorem onKey_cases (k : K) (cs : List (Ensure K V)) :
    (∃ y, ∀ x, onKey k cs x = y) ∨ ∃ y, ∀ x, onKey k cs x = (x <|> y) := by
  induction cs with
  | nil => exact .inr ⟨none, fun x => by cases x <;> rfl⟩
  | cons c cs ih =>
      have step : ∀ x, onKey k (c :: cs) x = onKey k cs (if c.key = k then c.outcome x else x) :=
        fun x => rfl
      rcases ih with ⟨y, settled⟩ | ⟨y, kept⟩
      · exact .inl ⟨y, fun x => (step x).trans (settled _)⟩
      by_cases own : c.key = k
      · cases c with
        | drop k' => exact .inl ⟨y, fun x => by rw [step, if_pos own, kept]; rfl⟩
        | create k' v =>
            refine .inr ⟨some v, fun x => ?_⟩
            rw [step, if_pos own, kept]
            cases x <;> rfl
      · exact .inr ⟨y, fun x => by rw [step, if_neg own, kept]⟩

/-- Twice is once. -/
theorem runAll_runAll (cs : List (Ensure K V)) (objects : K → Option V) :
    runAll cs (runAll cs objects) = runAll cs objects := by
  funext k
  rw [runAll_apply, runAll_apply]
  rcases onKey_cases k cs with ⟨y, settled⟩ | ⟨y, kept⟩
  · rw [settled, settled]
  · rw [kept, kept]
    cases objects k <;> cases y <;> rfl

end Ensure

end Intellivault.Lib
