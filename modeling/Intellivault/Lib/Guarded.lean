import Intellivault.Lib.Prog

/-!
# What holds before each call

`Prog.Guarded` is `Prog.Holds` with an assertion on each call and the state it is made in, so
it also says what a program that has been stopped was about to do.
-/

namespace Intellivault.Lib

namespace Prog

variable {C : Type} {A : C → Type} {ε α β S : Type} {H : Handler C A ε S} {J : C → S → Prop}
  {I : S → Prop}

/-- `J` before every call and `I` after it, and `Q` at the end. -/
def Guarded (H : Handler C A ε S) (J : C → S → Prop) (I : S → Prop) (Q : Except ε α → S → Prop) :
    Prog C A ε α → S → Prop
  | .ret a, s => Q (.ok a) s
  | .raise x, s => Q (.error x) s
  | .call c k, s => J c s ∧ ∀ r s', H c s r s' → I s' ∧ (k r).Guarded H J I Q s'

theorem guarded_perform {c : C} {Q : Except ε (A c) → S → Prop} {s : S} :
    (perform c : Prog C A ε (A c)).Guarded H J I Q s ↔
      J c s ∧ ∀ r s', H c s r s' → I s' ∧ Q r s' := by
  refine and_congr_right fun _ => forall_congr' fun r => forall_congr' fun s' => ?_
  cases r <;> rfl

theorem guarded_bind {Q : Except ε β → S → Prop} {p : Prog C A ε α} {f : α → Prog C A ε β} {s : S} :
    (p >>= f).Guarded H J I Q s ↔ p.Guarded H J I (fun r s' =>
      match r with
      | .ok a => (f a).Guarded H J I Q s'
      | .error x => Q (.error x) s') s := by
  induction p generalizing s with
  | ret a => rfl
  | raise x => rfl
  | call c k ih =>
      refine and_congr_right fun _ => forall_congr' fun r => forall_congr' fun s' =>
        forall_congr' fun _ => and_congr_right fun _ => ih r

theorem Guarded.mono {Q Q' : Except ε α → S → Prop} {p : Prog C A ε α} {s : S}
    (weaken : ∀ r s', Q r s' → Q' r s') (h : p.Guarded H J I Q s) : p.Guarded H J I Q' s := by
  induction p generalizing s with
  | ret a => exact weaken _ _ h
  | raise x => exact weaken _ _ h
  | call c k ih => exact ⟨h.1, fun r s' answer => ⟨(h.2 r s' answer).1, ih r (h.2 r s' answer).2⟩⟩

/-- What `Guarded` means: along every run, complete or not, the invariant is kept and what is
left is guarded. -/
theorem Runs.guarded {Q : Except ε α → S → Prop} {p p' : Prog C A ε α} {s s' : S}
    {tr : List (Event C A ε)} (run : Runs H p s tr p' s') (start : I s)
    (h : p.Guarded H J I Q s) : I s' ∧ p'.Guarded H J I Q s' := by
  induction run with
  | refl => exact ⟨start, h⟩
  | step answer _ ih =>
      obtain ⟨kept, rest⟩ := h.2 _ _ answer
      exact ih kept rest

/-- Each call of a run was guarded. -/
theorem Runs.guarded_calls {Q : Except ε α → S → Prop} {p p' : Prog C A ε α} {s s' : S}
    {tr : List (Event C A ε)} (run : Runs H p s tr p' s') (h : p.Guarded H J I Q s) :
    ∀ e ∈ tr, ∃ t, J e.1 t := by
  induction run with
  | refl => exact List.forall_mem_nil _
  | step answer _ ih => exact List.forall_mem_cons.mpr ⟨⟨_, h.1⟩, ih (h.2 _ _ answer).2⟩

end Prog

end Intellivault.Lib
