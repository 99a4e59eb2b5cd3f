import Mathlib.Data.List.Forall2

/-!
# Two runs side by side

A deterministic machine reads an input in a state and yields the next state and an output.
If related states answer every admitted input alike and stay related (the unwinding
condition), then they answer every admitted sequence of inputs alike.
-/

namespace Intellivault.Lib

variable {S I O : Type}

/-- The outputs along a sequence of inputs, and the state after it. -/
def runAll (step : S → I → S × O) : S → List I → S × List O
  | s, [] => (s, [])
  | s, i :: is => ((runAll step (step s i).1 is).1, (step s i).2 :: (runAll step (step s i).1 is).2)

/-- Every input of the sequence is admitted in the state it is read in. -/
def Admitted (step : S → I → S × O) (ok : S → I → Prop) : S → List I → Prop
  | _, [] => True
  | s, i :: is => ok s i ∧ Admitted step ok (step s i).1 is

/-- One admitted input read in related states is answered alike, and the states stay related. -/
def Unwinds (step : S → I → S × O) (ok : S → I → Prop) (rel : S → S → Prop)
    (same : O → O → Prop) : Prop :=
  ∀ s t i, rel s t → ok s i → ok t i → same (step s i).2 (step t i).2 ∧
    rel (step s i).1 (step t i).1

/-- **Unwinding**: related states answer a whole sequence alike. -/
theorem Unwinds.runAll {step : S → I → S × O} {ok : S → I → Prop} {rel : S → S → Prop}
    {same : O → O → Prop} (unwinds : Unwinds step ok rel same) {s t : S} {is : List I}
    (related : rel s t) (hs : Admitted step ok s is) (ht : Admitted step ok t is) :
    List.Forall₂ same (runAll step s is).2 (runAll step t is).2 ∧
      rel (runAll step s is).1 (runAll step t is).1 := by
  induction is generalizing s t with
  | nil => exact ⟨.nil, related⟩
  | cons i is ih =>
      obtain ⟨answers, next⟩ := unwinds s t i related hs.1 ht.1
      obtain ⟨rest, last⟩ := ih next hs.2 ht.2
      exact ⟨.cons answers rest, last⟩

end Intellivault.Lib
