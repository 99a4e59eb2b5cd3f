import Intellivault.Lib.Pool

/-!
# A part of a pool

A pool over a large world, seen from one part of it: `view` is what the part holds of the
world.  A process of the large pool is the part's own, or away, when nothing it may still
call reaches the part.  `Part.history` says that the histories of the large pool are, for
the part, histories of a smaller pool with steps in between that it does not notice.

A process may belong to the part in the beginning and be away later, when its first call
tells where it goes; the smaller pool keeps it as it was then (`Tracks.left`).

* `Pool.Step.through`: a pool over a world with more in it.
* `Mirrors`: two histories that agree on the part, step by step.
* `Mirrors.forall` and `Mirrors.countP` take over what is said of all steps, or of how many.
* `Prog.Meets`: the calls and the outcome of a program whose calls are answered as they really
  are.
-/

namespace Intellivault.Lib

variable {K K' C ε W W' : Type} {A : C → Type}

/-- How the pool with `body'`, `handler'` and `spawn'` is a part of the one with `body`,
`handler` and `spawn`. -/
structure Part (body : K → Prog C A ε Unit) (handler : Prog.Handler C A ε W)
    (spawn : W → K → W → Prop) (body' : K' → Prog C A ε Unit) (handler' : Prog.Handler C A ε W')
    (spawn' : W' → K' → W' → Prop) where
  view : W → W'
  Own : K' → Process K C A ε → Prop
  Away : Process K C A ε → Prop
  /-- The processes that may turn away after the part has got to know them. -/
  Left : K' → Prop
  start : ∀ {w w' : W} {k : K}, spawn w k w' →
    (∃ k', spawn' (view w) k' (view w') ∧ body' k' = body k ∧ Own k' ⟨k, [], body k⟩) ∨
      view w' = view w ∧ Away ⟨k, [], body k⟩
  own_call : ∀ {w w' : W} {k : K} {k' : K'} {past : List (Prog.Event C A ε)} {c : C}
    {f : Except ε (A c) → Prog C A ε Unit} {r : Except ε (A c)},
    Own k' ⟨k, past, .call c f⟩ → handler c w r w' →
      handler' c (view w) r (view w') ∧ Own k' ⟨k, past ++ [⟨c, r⟩], f r⟩ ∨
        view w' = view w ∧ Left k' ∧ Away ⟨k, past ++ [⟨c, r⟩], f r⟩
  away_call : ∀ {w w' : W} {k : K} {past : List (Prog.Event C A ε)} {c : C}
    {f : Except ε (A c) → Prog C A ε Unit} {r : Except ε (A c)},
    Away ⟨k, past, .call c f⟩ → handler c w r w' →
      view w' = view w ∧ Away ⟨k, past ++ [⟨c, r⟩], f r⟩

/-- A step over a large world is one over what `view` leaves of it. -/
theorem Pool.Step.through {body : K → Prog C A ε Unit} {handler : Prog.Handler C A ε W}
    {spawn : W → K → W → Prop} {handler' : Prog.Handler C A ε W'} {spawn' : W' → K → W' → Prop}
    {pool pool' : Pool K C A ε W} {a : Action K C A ε} (view : W → W')
    (step : Pool.Step body handler spawn pool a pool')
    (calls : ∀ c w r w', handler c w r w' → handler' c (view w) r (view w'))
    (spawns : ∀ w k w', spawn w k w' → spawn' (view w) k (view w')) :
    Pool.Step body handler' spawn' ⟨view pool.world, pool.processes⟩ a
      ⟨view pool'.world, pool'.processes⟩ := by
  cases step with
  | start spawned => exact .start (spawns _ _ _ spawned)
  | call answer => exact .call (calls _ _ _ _ answer)

namespace Part

variable {body : K → Prog C A ε Unit} {handler : Prog.Handler C A ε W} {spawn : W → K → W → Prop}
  {body' : K' → Prog C A ε Unit} {handler' : Prog.Handler C A ε W'} {spawn' : W' → K' → W' → Prop}
  (part : Part body handler spawn body' handler' spawn')

/-- The processes of the large pool and those the part knows of. -/
inductive Tracks : List (Process K C A ε) → List (Process K' C A ε) → Prop
  | nil : Tracks [] []
  | own {k' : K'} {p : Process K C A ε} {ps : List (Process K C A ε)}
      {qs : List (Process K' C A ε)} :
      part.Own k' p → Tracks ps qs → Tracks (p :: ps) (⟨k', p.past, p.rest⟩ :: qs)
  | away {p : Process K C A ε} {ps : List (Process K C A ε)} {qs : List (Process K' C A ε)} :
      part.Away p → Tracks ps qs → Tracks (p :: ps) qs
  | left {p : Process K C A ε} {q : Process K' C A ε} {ps : List (Process K C A ε)}
      {qs : List (Process K' C A ε)} :
      part.Away p → part.Left q.kind → Tracks ps qs → Tracks (p :: ps) (q :: qs)

variable {part}

namespace Tracks

variable {p : Process K C A ε} {ps before after : List (Process K C A ε)}
  {qs qs' : List (Process K' C A ε)}

theorem append (first : part.Tracks before qs) (rest : part.Tracks after qs') :
    part.Tracks (before ++ after) (qs ++ qs') := by
  induction first with
  | nil => exact rest
  | own here _ ih => exact .own here ih
  | away gone _ ih => exact .away gone ih
  | left gone stays _ ih => exact .left gone stays ih

/-- What the part knows of one of the processes, and of those around it. -/
theorem split (tracks : part.Tracks (before ++ p :: after) qs) :
    ∃ first last, part.Tracks before first ∧ part.Tracks after last ∧
      ((∃ k', part.Own k' p ∧ qs = first ++ ⟨k', p.past, p.rest⟩ :: last) ∨
        part.Away p ∧ (qs = first ++ last ∨
          ∃ q : Process K' C A ε, part.Left q.kind ∧ qs = first ++ q :: last)) := by
  induction before generalizing qs with
  | nil =>
      cases tracks with
      | own here rest => exact ⟨[], _, .nil, rest, .inl ⟨_, here, rfl⟩⟩
      | away gone rest => exact ⟨[], _, .nil, rest, .inr ⟨gone, .inl rfl⟩⟩
      | left gone stays rest => exact ⟨[], _, .nil, rest, .inr ⟨gone, .inr ⟨_, stays, rfl⟩⟩⟩
  | cons b before ih =>
      cases tracks with
      | own here rest =>
          obtain ⟨first, last, known, others, split⟩ := ih rest
          refine ⟨_ :: first, last, .own here known, others, ?_⟩
          rcases split with ⟨k', mine, rfl⟩ | ⟨gone, rfl | ⟨q, stays, rfl⟩⟩
          · exact .inl ⟨k', mine, rfl⟩
          · exact .inr ⟨gone, .inl rfl⟩
          · exact .inr ⟨gone, .inr ⟨q, stays, rfl⟩⟩
      | away gone rest =>
          obtain ⟨first, last, known, others, split⟩ := ih rest
          exact ⟨first, last, .away gone known, others, split⟩
      | left gone stays rest =>
          obtain ⟨first, last, known, others, split⟩ := ih rest
          refine ⟨_ :: first, last, .left gone stays known, others, ?_⟩
          rcases split with ⟨k', mine, rfl⟩ | ⟨away, rfl | ⟨q, kept, rfl⟩⟩
          · exact .inl ⟨k', mine, rfl⟩
          · exact .inr ⟨away, .inl rfl⟩
          · exact .inr ⟨away, .inr ⟨q, kept, rfl⟩⟩

/-- A process the part knows of is its own, or one that has left. -/
theorem mem (tracks : part.Tracks ps qs) {q : Process K' C A ε} (known : q ∈ qs) :
    (∃ p ∈ ps, part.Own q.kind p ∧ q.past = p.past ∧ q.rest = p.rest) ∨ part.Left q.kind := by
  induction tracks with
  | nil => cases known
  | @own k' p ps qs here rest ih =>
      rcases List.mem_cons.mp known with rfl | known
      · exact .inl ⟨p, List.mem_cons_self, here, rfl, rfl⟩
      · exact (ih known).imp_left fun ⟨p, mem, found⟩ => ⟨p, List.mem_cons_of_mem _ mem, found⟩
  | away gone rest ih =>
      exact (ih known).imp_left fun ⟨p, mem, found⟩ => ⟨p, List.mem_cons_of_mem _ mem, found⟩
  | left gone stays rest ih =>
      rcases List.mem_cons.mp known with rfl | known
      · exact .inr stays
      · exact (ih known).imp_left fun ⟨p, mem, found⟩ => ⟨p, List.mem_cons_of_mem _ mem, found⟩

end Tracks

/-! ## Steps -/

variable (part) in
/-- A label of the large pool and what the part sees of it. -/
inductive Shows : Action K C A ε → Action K' C A ε → Prop
  | start {k : K} {k' : K'} : part.Own k' ⟨k, [], body k⟩ → Shows (.start k) (.start k')
  | call {k : K} {k' : K'} {past : List (Prog.Event C A ε)} {rest : Prog C A ε Unit}
      {e : Prog.Event C A ε} :
      part.Own k' ⟨k, past, rest⟩ → Shows (.call k past e) (.call k' past e)

variable (part) in
/-- The two pools agree on the part. -/
structure Agree (pool : Pool K C A ε W) (pool' : Pool K' C A ε W') : Prop where
  world : pool'.world = part.view pool.world
  tracks : part.Tracks pool.processes pool'.processes

/-- A step of the large pool is not noticed, or it is a step of the part. -/
theorem Agree.step {pool next : Pool K C A ε W} {pool' : Pool K' C A ε W'} {a : Action K C A ε}
    (agree : part.Agree pool pool') (moved : Pool.Step body handler spawn pool a next) :
    (part.view next.world = part.view pool.world ∧ part.Agree next pool') ∨
      ∃ a' next', Pool.Step body' handler' spawn' pool' a' next' ∧ part.Shows a a' ∧
        part.Agree next next' := by
  obtain ⟨world', processes'⟩ := pool'
  obtain ⟨world, tracks⟩ := agree
  dsimp only at world tracks
  subst world
  cases moved with
  | @start w w' ps k started =>
      rcases part.start started with ⟨k', spawned, same, here⟩ | ⟨same, gone⟩
      · refine .inr ⟨_, _, .start spawned, .start here, rfl, tracks.append ?_⟩
        rw [same]
        exact .own here .nil
      · refine .inl ⟨same, same.symm, ?_⟩
        rw [← List.append_nil processes']
        exact tracks.append (.away gone .nil)
  | @call w w' before after k past c f r answer =>
      obtain ⟨first, last, known, others, split⟩ := tracks.split
      rcases split with ⟨k', here, rfl⟩ | ⟨gone, split⟩
      · rcases part.own_call here answer with ⟨answer', stays⟩ | ⟨same, leaves, gone⟩
        · exact .inr ⟨_, _, .call answer', .call here, rfl, known.append (.own stays others)⟩
        · exact .inl ⟨same, same.symm, known.append (.left gone leaves others)⟩
      · obtain ⟨same, gone⟩ := part.away_call gone answer
        refine .inl ⟨same, same.symm, ?_⟩
        rcases split with rfl | ⟨q, stays, rfl⟩
        · exact known.append (.away gone others)
        · exact known.append (.left gone stays others)

/-! ## Histories -/

variable (part) in
/-- A history of the large pool and one of the part, which skips what it does not notice. -/
inductive Mirrors : List (Transition (Pool K C A ε W) (Action K C A ε)) →
    List (Transition (Pool K' C A ε W') (Action K' C A ε)) → Prop
  | start : Mirrors [] []
  | quiet {tr : List (Transition (Pool K C A ε W) (Action K C A ε))}
      {tr' : List (Transition (Pool K' C A ε W') (Action K' C A ε))}
      {x : Transition (Pool K C A ε W) (Action K C A ε)} :
      Mirrors tr tr' → part.view x.target.world = part.view x.source.world →
      Mirrors (tr ++ [x]) tr'
  | step {tr : List (Transition (Pool K C A ε W) (Action K C A ε))}
      {tr' : List (Transition (Pool K' C A ε W') (Action K' C A ε))}
      {x : Transition (Pool K C A ε W) (Action K C A ε)}
      {x' : Transition (Pool K' C A ε W') (Action K' C A ε)} :
      Mirrors tr tr' → part.Shows x.label x'.label → part.Agree x.source x'.source →
      part.Agree x.target x'.target → Mirrors (tr ++ [x]) (tr' ++ [x'])

/-- **A history of the whole is a history of the part**, up to what the part does not notice. -/
theorem history {pool next : Pool K C A ε W} {pool' : Pool K' C A ε W'}
    {tr : List (Transition (Pool K C A ε W) (Action K C A ε))}
    (history : History (Pool.Step body handler spawn) pool tr next) (agree : part.Agree pool pool') :
    ∃ tr' next', History (Pool.Step body' handler' spawn') pool' tr' next' ∧
      part.Mirrors tr tr' ∧ part.Agree next next' := by
  induction history with
  | start => exact ⟨[], pool', .start, .start, agree⟩
  | next before moved ih =>
      obtain ⟨tr', last', before', mirrors, agree⟩ := ih
      rcases agree.step moved with ⟨same, after⟩ | ⟨a', next', moved', shows, after⟩
      · exact ⟨tr', last', before', .quiet mirrors same, after⟩
      · exact ⟨_, next', before'.next moved', .step mirrors shows agree after, after⟩

section Mirrors

variable {tr : List (Transition (Pool K C A ε W) (Action K C A ε))}
  {tr' : List (Transition (Pool K' C A ε W') (Action K' C A ε))}

/-- Each step of the part is one of the whole. -/
theorem Mirrors.of_mem (mirrors : part.Mirrors tr tr')
    {x' : Transition (Pool K' C A ε W') (Action K' C A ε)} (mem : x' ∈ tr') :
    ∃ x ∈ tr, part.Shows x.label x'.label ∧ part.Agree x.source x'.source := by
  induction mirrors with
  | start => cases mem
  | quiet _ _ ih =>
      obtain ⟨x, found, rest⟩ := ih mem
      exact ⟨x, List.mem_append_left _ found, rest⟩
  | step _ shows before _ ih =>
      rcases List.mem_append.mp mem with mem | mem
      · obtain ⟨x, found, rest⟩ := ih mem
        exact ⟨x, List.mem_append_left _ found, rest⟩
      · rw [List.mem_singleton.mp mem]
        exact ⟨_, List.mem_append_right _ (List.mem_singleton.mpr rfl), shows, before⟩

/-- What holds of a step that changes nothing, and of the part's steps, holds of all. -/
theorem Mirrors.forall {R : W' → W' → Prop} (mirrors : part.Mirrors tr tr') (rest : ∀ w, R w w)
    (each : ∀ x ∈ tr', R x.source.world x.target.world) :
    ∀ x ∈ tr, R (part.view x.source.world) (part.view x.target.world) := by
  induction mirrors with
  | start => simp
  | quiet _ same ih =>
      refine forall_mem_snoc.mpr ⟨ih each, ?_⟩
      rw [same]
      exact rest _
  | step _ _ before after ih =>
      rw [forall_mem_snoc] at each ⊢
      refine ⟨ih each.1, ?_⟩
      rw [← before.world, ← after.world]
      exact each.2

/-- As many steps of the whole as of the part make a change that is counted. -/
theorem Mirrors.countP {R : W' → W' → Bool} (mirrors : part.Mirrors tr tr')
    (rest : ∀ w, R w w = false) :
    tr.countP (fun x => R (part.view x.source.world) (part.view x.target.world)) =
      tr'.countP fun x => R x.source.world x.target.world := by
  induction mirrors with
  | start => rfl
  | quiet _ same ih =>
      rw [List.countP_append, List.countP_singleton, same, rest, ih]
      rfl
  | step _ _ before after ih =>
      rw [List.countP_append, List.countP_append, List.countP_singleton, List.countP_singleton,
        before.world, after.world, ih]

end Mirrors

end Part

/-! ## Calls that are answered as they really are -/

namespace Prog

variable {α β : Type} {real : Event C A ε → Prop} {P P' : C → Prop} {Q Q' : α → Prop}

/-- The calls satisfy `P` and what is returned `Q`, as long as the answers are real. -/
def Meets (real : Event C A ε → Prop) (P : C → Prop) (Q : α → Prop) : Prog C A ε α → Prop
  | .ret a => Q a
  | .raise _ => True
  | .call c k => P c ∧ ∀ r, real ⟨c, r⟩ → (k r).Meets real P Q

theorem Calls.meets {p : Prog C A ε α} (calls : p.Calls P) : p.Meets real P fun _ => True := by
  induction p with
  | ret a => trivial
  | raise x => trivial
  | call c k ih => exact ⟨calls.1, fun r _ => ih r (calls.2 r)⟩

theorem meets_perform {c : C} {Q : A c → Prop} (allowed : P c)
    (returns : ∀ a, real ⟨c, .ok a⟩ → Q a) : (perform c : Prog C A ε (A c)).Meets real P Q := by
  refine ⟨allowed, fun r given => ?_⟩
  cases r with
  | ok a => exact returns a given
  | error x => trivial

theorem Meets.bind {R : β → Prop} {p : Prog C A ε α} {f : α → Prog C A ε β}
    (first : p.Meets real P Q) (rest : ∀ a, Q a → (f a).Meets real P R) :
    (p >>= f).Meets real P R := by
  induction p with
  | ret a => exact rest a first
  | raise x => trivial
  | call c k ih => exact ⟨first.1, fun r given => ih r (first.2 r given)⟩

theorem Meets.mono {p : Prog C A ε α} (meets : p.Meets real P Q) (calls : ∀ c, P c → P' c)
    (returns : ∀ a, Q a → Q' a) : p.Meets real P' Q' := by
  induction p with
  | ret a => exact returns a meets
  | raise x => trivial
  | call c k ih => exact ⟨calls c meets.1, fun r given => ih r (meets.2 r given)⟩

/-- The program makes the call `first`, and meets `P` and `Q` after it. -/
def Opens (first : C) (real : Event C A ε → Prop) (P : C → Prop) (Q : α → Prop) :
    Prog C A ε α → Prop
  | .call c k => c = first ∧ ∀ r, real ⟨c, r⟩ → (k r).Meets real P Q
  | _ => False

theorem opens_perform {c : C} {Q : A c → Prop} (returns : ∀ a, real ⟨c, .ok a⟩ → Q a) :
    (perform c : Prog C A ε (A c)).Opens c real P Q := by
  refine ⟨rfl, fun r given => ?_⟩
  cases r with
  | ok a => exact returns a given
  | error x => trivial

theorem Opens.bind {R : β → Prop} {first : C} {p : Prog C A ε α} {f : α → Prog C A ε β}
    (opens : p.Opens first real P Q) (rest : ∀ a, Q a → (f a).Meets real P R) :
    (p >>= f).Opens first real P R := by
  cases p with
  | ret a => exact opens.elim
  | raise x => exact opens.elim
  | call c k => exact ⟨opens.1, fun r given => (opens.2 r given).bind rest⟩

/-- The first call may be one of those the program meets later. -/
theorem Opens.meets {first : C} {p : Prog C A ε α} (opens : p.Opens first real P Q)
    (allowed : P first) : p.Meets real P Q := by
  cases p with
  | ret a => exact opens.elim
  | raise x => exact opens.elim
  | call c k => exact ⟨opens.1 ▸ allowed, opens.2⟩

end Prog

end Intellivault.Lib
