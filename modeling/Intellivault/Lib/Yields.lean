import Intellivault.Lib.Script

/-!
# What a program has logged when it returns

Scripts that say at their end something about a returned value, and nothing about an
exception: the rules go along the binds of a program with one postcondition for each part.
-/

namespace Intellivault.Lib.Prog

variable {C : Type} {A : C → Type} {ε α β : Type} {real : Event C A ε → Prop}
  {allow : List (Event C A ε) → C → Prop} {past : List (Event C A ε)}
  {post post' : α → List (Event C A ε) → Prop} {last : β → List (Event C A ε) → Prop}
  {p : Prog C A ε α}

/-- The end of a script that only speaks of values. -/
def OnReturn (post : α → List (Event C A ε) → Prop) (log : List (Event C A ε)) :
    Except ε α → Prop
  | .ok a => post a log
  | .error _ => True

/-- The calls are allowed, and a value is returned with a log that `post` holds of. -/
def Yields (real : Event C A ε → Prop) (allow : List (Event C A ε) → C → Prop)
    (post : α → List (Event C A ε) → Prop) (past : List (Event C A ε)) (p : Prog C A ε α) : Prop :=
  p.Scripted real allow (OnReturn post) past

theorem Yields.mono (weaken : ∀ a log, post a log → post' a log)
    (h : p.Yields real allow post past) : p.Yields real allow post' past := by
  refine Scripted.mono (fun log r => ?_) h
  cases r with
  | ok a => exact weaken a log
  | error x => exact id

/-- What is known of the log before the program is known of it afterwards. -/
theorem Yields.grows (h : p.Yields real allow (fun a log => past ⊆ log → post a log) past) :
    p.Yields real allow post past := by
  refine Scripted.mono (fun log r => ?_) (Scripted.grows (List.Subset.refl past) h)
  cases r with
  | ok a => exact fun ⟨more, last⟩ => last more
  | error x => exact fun _ => trivial

theorem Yields.bind {f : α → Prog C A ε β}
    (h : p.Yields real allow (fun a log => (f a).Yields real allow last log) past) :
    (p >>= f).Yields real allow last past := by
  apply scripted_bind.mpr
  refine Scripted.mono (fun log r => ?_) h
  cases r with
  | ok a => exact id
  | error x => exact fun _ => trivial

theorem yields_perform {c : C} {post : A c → List (Event C A ε) → Prop} (allowed : allow past c)
    (answered : ∀ a, real ⟨c, .ok a⟩ → post a (past ++ [⟨c, .ok a⟩])) :
    (perform c : Prog C A ε (A c)).Yields real allow post past := by
  apply scripted_perform.mpr
  refine ⟨allowed, fun r => ?_⟩
  cases r with
  | ok a => exact answered a
  | error x => exact fun _ => trivial

/-- A handler that raises again. -/
theorem Yields.handle {h : ε → Prog C A ε α}
    (handled : ∀ x log, (h x).Yields real allow post log) (body : p.Yields real allow post past) :
    (p.handle h).Yields real allow post past := by
  apply scripted_handle.mpr
  refine Scripted.mono (fun log r => ?_) body
  cases r with
  | ok a => exact id
  | error x => exact fun _ => handled x log

section Interp

variable {C' : Type} {A' : C' → Type} {h : (c : C') → Prog C A ε (A' c)} {q : Prog C' A' ε α}

theorem Yields.interp_bind {f : α → Prog C' A' ε β}
    (body : (q.interp h).Yields real allow
      (fun a log => ((f a).interp h).Yields real allow last log) past) :
    ((q >>= f).interp h).Yields real allow last past := by
  rw [Prog.interp_bind]
  exact body.bind

theorem Yields.interp_handle {g : ε → Prog C' A' ε α}
    (handled : ∀ x log, ((g x).interp h).Yields real allow post log)
    (body : (q.interp h).Yields real allow post past) :
    ((q.handle g).interp h).Yields real allow post past := by
  rw [Prog.interp_handle]
  exact body.handle handled

theorem Yields.interp_perform {c : C'} {post : A' c → List (Event C A ε) → Prop}
    (body : (h c).Yields real allow post past) :
    ((perform c : Prog C' A' ε (A' c)).interp h).Yields real allow post past := by
  rwa [Prog.interp_perform]

end Interp

/-- Two programs at once, of which only the calls matter. -/
theorem Yields.both {turn : C} {first : A turn → Bool} {q : Prog C A ε β}
    (lasting : Lasting allow) (free : ∀ log, allow log turn)
    (left : p.Yields real allow (fun _ _ => True) past)
    (right : q.Yields real allow (fun _ _ => True) past) :
    (p.both turn first q).Yields real allow (fun _ _ => True) past := by
  have ends : ∀ {γ : Type} {g : Prog C A ε γ}, g.Yields real allow (fun _ _ => True) past →
      g.Scripted real allow (fun _ _ => True) past :=
    fun script => Scripted.mono (fun _ _ _ => trivial) script
  have gathered : (p.both turn first q).Scripted real allow
      (Gathered (fun _ _ => True) fun _ _ => True) past :=
    scripted_both lasting free (fun _ _ _ _ h => h) (fun _ _ _ _ h => h) (ends left) (ends right)
  refine Scripted.mono (fun log r _ => ?_) gathered
  cases r <;> trivial

end Intellivault.Lib.Prog
