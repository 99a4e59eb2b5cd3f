import Intellivault.Lib.History
import Intellivault.Lib.Prog

/-!
# Pools of processes over one world

A `Process` is a program on its way: what it was started as, the calls it has made, and
what is left of it.  A `Pool` interleaves any number of them over one world: a step lets
one process make its next call, or starts a new process.  Ended processes stay in the
pool, so the pool remembers everything that was ever called.

* `Pool.play`: the pool along a schedule whose steps pass a check, computed;
  `Pool.play_history` makes it a history.
* `Pool.stage`: a process seen through an automaton that reads its calls.
* `Pool.Step.follows`: if each program keeps to the automaton, so does every process of
  every reachable pool.
* `Pool.Step.allowed`: the same for a bound on the calls of each kind of process.
-/

namespace Intellivault.Lib

variable {K C ε W : Type} {A : C → Type}

structure Process (K C : Type) (A : C → Type) (ε : Type) where
  kind : K
  past : List (Prog.Event C A ε)
  rest : Prog C A ε Unit

/-- The process has returned or raised. -/
def Process.Ended (p : Process K C A ε) : Prop := ∃ r, p.rest = Prog.ended r

instance (p : Process K C A ε) : Decidable p.Ended :=
  match p with
  | ⟨_, _, .ret a⟩ => isTrue ⟨.ok a, rfl⟩
  | ⟨_, _, .raise x⟩ => isTrue ⟨.error x, rfl⟩
  | ⟨_, _, .call _ _⟩ => isFalse fun ⟨r, ended⟩ => by cases r <;> cases ended

def Process.returned (p : Process K C A ε) : Bool :=
  match p.rest with
  | .ret _ => true
  | _ => false

theorem Process.rest_of_returned {p : Process K C A ε} (ended : p.returned = true) :
    p.rest = .ret () := by
  unfold returned at ended
  split at ended
  · assumption
  · cases ended

structure Pool (K C : Type) (A : C → Type) (ε W : Type) where
  world : W
  processes : List (Process K C A ε)

/-- The label of a step: what was started, or which process got which answer. -/
inductive Action (K C : Type) (A : C → Type) (ε : Type)
  | start (kind : K)
  | call (kind : K) (past : List (Prog.Event C A ε)) (event : Prog.Event C A ε)

/-- The step is a call that `q` picks. -/
def Action.does (q : Prog.Event C A ε → Bool) : Action K C A ε → Bool
  | .start _ => false
  | .call _ _ e => q e

@[simp] theorem Action.does_start (q : Prog.Event C A ε → Bool) (k : K) :
    (.start k : Action K C A ε).does q = false := rfl

@[simp] theorem Action.does_call (q : Prog.Event C A ε → Bool) (k : K)
    (past : List (Prog.Event C A ε)) (e : Prog.Event C A ε) :
    (.call k past e : Action K C A ε).does q = q e := rfl

namespace Pool

/-- `body` is the program of each kind of process, `handler` what a call does to the world,
`spawn` when a process may start and what that does to the world. -/
inductive Step (body : K → Prog C A ε Unit) (handler : Prog.Handler C A ε W)
    (spawn : W → K → W → Prop) : Pool K C A ε W → Action K C A ε → Pool K C A ε W → Prop
  | start {w w' : W} {ps : List (Process K C A ε)} {k : K} :
      spawn w k w' → Step body handler spawn ⟨w, ps⟩ (.start k) ⟨w', ps ++ [⟨k, [], body k⟩]⟩
  | call {w w' : W} {before after : List (Process K C A ε)} {k : K}
      {past : List (Prog.Event C A ε)} {c : C} {f : Except ε (A c) → Prog C A ε Unit}
      {r : Except ε (A c)} :
      handler c w r w' →
      Step body handler spawn ⟨w, before ++ ⟨k, past, .call c f⟩ :: after⟩ (.call k past ⟨c, r⟩)
        ⟨w', before ++ ⟨k, past ++ [⟨c, r⟩], f r⟩ :: after⟩

variable {body : K → Prog C A ε Unit} {handler : Prog.Handler C A ε W}
  {spawn : W → K → W → Prop} {pool pool' : Pool K C A ε W} {a : Action K C A ε}

/-- A call step of the process at a position. -/
theorem Step.callAt {w w' : W} {ps : List (Process K C A ε)} {k : K}
    {past : List (Prog.Event C A ε)} {c : C} {f : Except ε (A c) → Prog C A ε Unit}
    {r : Except ε (A c)} (i : Nat) (here : ps[i]? = some ⟨k, past, .call c f⟩)
    (answer : handler c w r w') :
    Step body handler spawn ⟨w, ps⟩ (.call k past ⟨c, r⟩)
      ⟨w', ps.set i ⟨k, past ++ [⟨c, r⟩], f r⟩⟩ := by
  rw [List.set_eq_take_append_cons_drop, if_pos (List.getElem?_eq_some_iff.mp here).1]
  obtain ⟨inside, at_i⟩ := List.getElem?_eq_some_iff.mp here
  have split : ps.take i ++ ⟨k, past, .call c f⟩ :: ps.drop (i + 1) = ps := by
    rw [← at_i, List.getElem_cons_drop, List.take_append_drop]
  have step : Step body handler spawn ⟨w, ps.take i ++ ⟨k, past, .call c f⟩ :: ps.drop (i + 1)⟩
      (.call k past ⟨c, r⟩)
      ⟨w', ps.take i ++ ⟨k, past ++ [⟨c, r⟩], f r⟩ :: ps.drop (i + 1)⟩ := .call answer
  rwa [split] at step

/-! ## Playing a schedule -/

/-- A schedule starts processes and picks which one calls next; `χ` is what the surroundings
choose for the answer. -/
inductive Move (K χ : Type)
  | start (kind : K)
  | call (i : Nat) (choice : χ)

section Play

variable {χ : Type} (body) (arrive : W → K → Option W)
  (respond : χ → (c : C) → W → Option (Except ε (A c) × W))

def move (pool : Pool K C A ε W) : Move K χ → Option (Action K C A ε × Pool K C A ε W)
  | .start k =>
      (arrive pool.world k).map fun w' => (.start k, ⟨w', pool.processes ++ [⟨k, [], body k⟩]⟩)
  | .call i choice =>
      match pool.processes[i]? with
      | some ⟨k, past, .call c f⟩ =>
          (respond choice c pool.world).map fun (r, w') =>
            (.call k past ⟨c, r⟩, ⟨w', pool.processes.set i ⟨k, past ++ [⟨c, r⟩], f r⟩⟩)
      | _ => none

/-- Along the schedule, as long as every step passes the check. -/
def play (check : Transition (Pool K C A ε W) (Action K C A ε) → Bool) (pool : Pool K C A ε W) :
    List (Move K χ) → Option (Pool K C A ε W)
  | [] => some pool
  | m :: moves =>
      (pool.move body arrive respond m).bind fun next =>
        if check ⟨pool, next.1, next.2⟩ then next.2.play check moves else none

variable {body arrive respond}
  {check : Transition (Pool K C A ε W) (Action K C A ε) → Bool}

/-- A move whose answer the handler allows is a step. -/
theorem move_step {m : Move K χ} (arrives : ∀ w k w', arrive w k = some w' → spawn w k w')
    (answers : ∀ choice c w r w', respond choice c w = some (r, w') → handler c w r w')
    (moved : pool.move body arrive respond m = some (a, pool')) :
    Step body handler spawn pool a pool' := by
  cases m with
  | start k =>
      simp only [move, Option.map_eq_some_iff] at moved
      obtain ⟨w', arrived, same⟩ := moved
      cases same
      exact .start (arrives _ _ _ arrived)
  | call i choice =>
      simp only [move] at moved
      split at moved
      · rename_i k past c f here
        obtain ⟨⟨r, w'⟩, answered, same⟩ := Option.map_eq_some_iff.mp moved
        cases same
        exact .callAt i here (answers choice c pool.world r w' answered)
      · cases moved

theorem play_history {moves : List (Move K χ)} {start : Pool K C A ε W}
    {tr : List (Transition (Pool K C A ε W) (Action K C A ε))}
    (arrives : ∀ w k w', arrive w k = some w' → spawn w k w')
    (answers : ∀ choice c w r w', respond choice c w = some (r, w') → handler c w r w')
    (before : History (Step body handler spawn) start tr pool)
    (passed : ∀ x ∈ tr, check x = true)
    (played : pool.play body arrive respond check moves = some pool') :
    ∃ more, History (Step body handler spawn) start (tr ++ more) pool' ∧
      ∀ x ∈ tr ++ more, check x = true := by
  induction moves generalizing pool tr with
  | nil =>
      cases played
      exact ⟨[], by rwa [List.append_nil], by rwa [List.append_nil]⟩
  | cons m moves ih =>
      simp only [play, Option.bind_eq_some_iff, Option.ite_none_right_eq_some] at played
      obtain ⟨⟨a, next⟩, moved, checked, played⟩ := played
      have after := before.next (move_step arrives answers moved)
      obtain ⟨more, history, all⟩ := ih after (forall_mem_snoc.mpr ⟨passed, checked⟩) played
      rw [List.append_assoc] at history all
      exact ⟨_, history, all⟩

end Play

/-! ## Processes seen through an automaton -/

section Automaton

variable {σ : Type} (δ : K → σ → Prog.Event C A ε → σ) (init : K → σ)

/-- Where the automaton is after the calls a process has made. -/
def stage (p : Process K C A ε) : σ := p.past.foldl (δ p.kind) (init p.kind)

@[simp] theorem stage_nil (k : K) (rest : Prog C A ε Unit) :
    stage δ init ⟨k, [], rest⟩ = init k := rfl

theorem stage_snoc (k : K) (past : List (Prog.Event C A ε)) (e : Prog.Event C A ε)
    (rest next : Prog C A ε Unit) :
    stage δ init ⟨k, past ++ [e], next⟩ = δ k (stage δ init ⟨k, past, rest⟩) e := by
  simp [stage]

/-- The automaton as a handler: it moves by the call and the answer, whatever that is. -/
def reads (k : K) : Prog.Handler C A ε σ := fun c s r s' => s' = δ k s ⟨c, r⟩

variable (legal : σ → Prop) (ends : K → Except ε Unit → σ → Prop)

/-- A process that keeps to the automaton: it is in a legal stage, and what is left of it
visits legal stages only and ends as it should. -/
def Follows (p : Process K C A ε) : Prop :=
  legal (stage δ init p) ∧ p.rest.Holds (reads δ p.kind) legal (ends p.kind) (stage δ init p)

variable {δ init legal ends}

theorem holds_reads {k : K} {c : C} {Q : Except ε (A c) → σ → Prop} {s : σ} :
    (Prog.perform c : Prog C A ε (A c)).Holds (reads δ k) legal Q s ↔
      ∀ r, legal (δ k s ⟨c, r⟩) ∧ Q r (δ k s ⟨c, r⟩) := by
  simp only [Prog.holds_perform, reads, forall_eq]

/-- A process that has ended stands where it should. -/
theorem Follows.ends_at {p : Process K C A ε} {r : Except ε Unit}
    (follows : Follows δ init legal ends p) (ended : p.rest = Prog.ended r) :
    ends p.kind r (stage δ init p) := by
  have last := follows.2
  rw [ended] at last
  cases r <;> exact last

theorem Step.follows (keeps : ∀ k, Follows δ init legal ends ⟨k, [], body k⟩)
    (moved : Step body handler spawn pool a pool')
    (before : ∀ p ∈ pool.processes, Follows δ init legal ends p) :
    ∀ p ∈ pool'.processes, Follows δ init legal ends p := by
  cases moved with
  | start started =>
      intro p mem
      rcases List.mem_append.mp mem with old | new
      · exact before p old
      · rw [List.mem_singleton.mp new]
        exact keeps _
  | @call w w' first last k past c f r answer =>
      intro p mem
      rcases List.mem_append.mp mem with old | new
      · exact before p (List.mem_append_left _ old)
      rcases List.mem_cons.mp new with rfl | old
      · have here := before ⟨k, past, .call c f⟩ (List.mem_append_right _ List.mem_cons_self)
        have after := here.2 r _ rfl
        refine ⟨?_, ?_⟩
        · rw [stage_snoc δ init k past ⟨c, r⟩ (.call c f)]
          exact after.1
        · rw [stage_snoc δ init k past ⟨c, r⟩ (.call c f)]
          exact after.2
      · exact before p (List.mem_append_right _ (List.mem_cons_of_mem _ old))

end Automaton

/-! ## Bounds on the calls -/

/-- The calls a process has made, and those it may still make, satisfy `P`. -/
def Allowed (P : K → C → Prop) (p : Process K C A ε) : Prop :=
  (∀ e ∈ p.past, P p.kind e.1) ∧ p.rest.Calls (P p.kind)

theorem Step.allowed {P : K → C → Prop} (bound : ∀ k, (body k).Calls (P k))
    (moved : Step body handler spawn pool a pool')
    (before : ∀ p ∈ pool.processes, Allowed P p) : ∀ p ∈ pool'.processes, Allowed P p := by
  cases moved with
  | start started =>
      intro p mem
      rcases List.mem_append.mp mem with old | new
      · exact before p old
      · rw [List.mem_singleton.mp new]
        exact ⟨by simp, bound _⟩
  | @call w w' first last k past c f r answer =>
      intro p mem
      rcases List.mem_append.mp mem with old | new
      · exact before p (List.mem_append_left _ old)
      rcases List.mem_cons.mp new with rfl | old
      · obtain ⟨made, left⟩ :=
          before ⟨k, past, .call c f⟩ (List.mem_append_right _ List.mem_cons_self)
        refine ⟨fun e inside => ?_, left.2 r⟩
        rcases List.mem_append.mp inside with earlier | latest
        · exact made e earlier
        · rw [List.mem_singleton.mp latest]
          exact left.1
      · exact before p (List.mem_append_right _ (List.mem_cons_of_mem _ old))

end Pool

end Intellivault.Lib
