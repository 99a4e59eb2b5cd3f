import Intellivault.Lib.History

/-!
# Chains of custody

Items that a system holds, each founded by a step or handed on from an item that was held
before.  If no step adds an item in another way, then every item that is held has a chain of
hand-overs that goes back, ever earlier in the history, to a founding step.
-/

namespace Intellivault.Lib

variable {S L I : Type} {step : S → L → S → Prop} {founds : Transition S L → I → Prop}
  {hands : Transition S L → I → I → Prop} {s s' : S} {tr : List (Transition S L)} {i : I}

/-- The chain of an item: founded, or handed on from an item that had its chain already. -/
inductive Entrusted (founds : Transition S L → I → Prop) (hands : Transition S L → I → I → Prop) :
    List (Transition S L) → I → Prop
  | founded {tr : List (Transition S L)} {x : Transition S L} {i : I} :
      founds x i → Entrusted founds hands (tr ++ [x]) i
  | handed {tr : List (Transition S L)} {x : Transition S L} {i j : I} :
      Entrusted founds hands tr i → hands x i j → Entrusted founds hands (tr ++ [x]) j
  | later {tr : List (Transition S L)} {x : Transition S L} {i : I} :
      Entrusted founds hands tr i → Entrusted founds hands (tr ++ [x]) i

theorem Entrusted.append (more : List (Transition S L)) (chain : Entrusted founds hands tr i) :
    Entrusted founds hands (tr ++ more) i := by
  induction more using List.reverseRecOn with
  | nil => rwa [List.append_nil]
  | append_singleton more x ih =>
      rw [← List.append_assoc]
      exact ih.later

/-- A state the history has been in, or is in now. -/
def Visited (tr : List (Transition S L)) (s t : S) : Prop := t = s ∨ ∃ x ∈ tr, x.source = t

/-- **Everything that is held has its chain**, if nothing is held at first and each step adds
only items that it founds or hands on from an item that was held at some time. -/
theorem History.entrusted (holds : S → I → Prop) (history : History step s tr s')
    (empty : ∀ i, ¬holds s i)
    (adds : ∀ tr t l u, History step s tr t → step t l u → ∀ j, holds u j →
      holds t j ∨ founds ⟨t, l, u⟩ j ∨
        ∃ i, (∃ v, Visited tr t v ∧ holds v i) ∧ hands ⟨t, l, u⟩ i j) :
    ∀ t, Visited tr s' t → ∀ i, holds t i → Entrusted founds hands tr i := by
  induction history with
  | start =>
      intro t visited i held
      rcases visited with rfl | ⟨_, mem, _⟩
      · exact (empty i held).elim
      · cases mem
  | @next tr t u l before moved ih =>
      intro v visited j held
      have earlier : ∀ v, Visited tr t v → ∀ i, holds v i →
          Entrusted founds hands (tr ++ [⟨t, l, u⟩]) i := fun v at_ i held => (ih v at_ i held).later
      rcases visited with rfl | ⟨x, mem, rfl⟩
      · rcases adds tr t l v before moved j held with old | new | ⟨i, ⟨w, at_, was⟩, handed⟩
        · exact earlier t (.inl rfl) j old
        · exact .founded new
        · exact .handed (ih w at_ i was) handed
      · rcases List.mem_append.mp mem with old | last
        · exact earlier _ (.inr ⟨x, old, rfl⟩) j held
        · rw [List.mem_singleton.mp last] at held
          exact earlier t (.inl rfl) j held

end Intellivault.Lib
