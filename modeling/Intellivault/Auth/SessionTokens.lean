import Intellivault.Lib.Keyed
import Intellivault.Auth.Effects

/-!
# Sessions

Any number of `issue_session`, `resolve_session` and `revoke_session` calls over one table
and one clock.  `Granted` says by the history alone whose token a token is; `Table` ties the
rows to it, and with that a token resolves exactly as long as it should.
-/

namespace Intellivault.Auth

open Lib Prog

/-! ## The calls -/

inductive SessionRequest where
  | issue (userId : UUID)
  | resolve (token : String)
  | revoke (token : String)

def SessionRequest.body (site : Site) : SessionRequest → Route Unit
  | .issue userId => do
      let _ ← issueSession site userId
  | .resolve token => do
      let _ ← resolveSession site token
  | .revoke token => revokeSession site token

abbrev SessionPool := Pool SessionRequest RouteCall RouteCall.Answer Exn Store

abbrev SessionAction := Action SessionRequest RouteCall RouteCall.Answer Exn

abbrev SessionTransition := Transition SessionPool SessionAction

abbrev SessionPool.Step (site : Site) : SessionPool → SessionAction → SessionPool → Prop :=
  Pool.Step (SessionRequest.body site) (served site) comes

/-- Any users, at any time, and no sessions yet. -/
def SessionPool.initial (accounts : Db) (now : Time) : SessionPool := ⟨{ accounts, now }, []⟩

/-- Which statements a call issues, by its log. -/
def SessionRequest.Allows (site : Site) (k : SessionRequest) (log : RouteLog) : RouteCall → Prop
  | .tokenUrlsafe | .clock | .sweepSessions => ∃ userId, k = .issue userId
  | .insertSession userId tokenHash expiresAt => k = .issue userId ∧ ∃ (token : String) (now : Time),
      Answered log .tokenUrlsafe token ∧ Answered log .clock now ∧
        tokenHash = site.digest token ∧ expiresAt = now + hours site.sessionTtlHours
  | .resolveSession tokenHash => ∃ token, k = .resolve token ∧ tokenHash = site.digest token
  | .revokeSession tokenHash => ∃ token, k = .revoke token ∧ tokenHash = site.digest token
  | _ => False

def SessionPool.Scripted (site : Site) (s : SessionPool) : Prop :=
  Pool.Scripted (fun _ => True) (SessionRequest.Allows site) (fun _ _ _ => True) s

section Script

variable {site : Site} {s s' : SessionPool} {l : SessionAction} {tr : List SessionTransition}

theorem sessionBody_scripted (k : SessionRequest) :
    (k.body site).Scripted (fun _ => True) (k.Allows site) (fun _ _ => True) [] := by
  cases k with
  | issue userId =>
      refine ⟨⟨userId, rfl⟩, fun token _ => ?_⟩
      cases token with
      | error x => trivial
      | ok token =>
          refine ⟨⟨userId, rfl⟩, fun now _ => ?_⟩
          cases now with
          | error x => trivial
          | ok now =>
              refine ⟨⟨userId, rfl⟩, fun swept _ => ?_⟩
              cases swept with
              | error x => trivial
              | ok _ =>
                  refine ⟨⟨rfl, token, now, ?_, ?_, rfl, rfl⟩, fun inserted _ => ?_⟩
                  · simp [Answered]
                  · simp [Answered]
                  · cases inserted <;> trivial
  | resolve token =>
      refine ⟨⟨token, rfl, rfl⟩, fun row _ => ?_⟩
      cases row <;> trivial
  | revoke token =>
      refine ⟨⟨token, rfl, rfl⟩, fun r _ => ?_⟩
      cases r <;> trivial

theorem SessionPool.scripted {accounts : Db} {now : Time}
    (history : History (SessionPool.Step site) (SessionPool.initial accounts now) tr s) :
    s.Scripted site := by
  induction history with
  | start => exact nofun
  | next before step ih =>
      exact Pool.Step.scripted (fun _ _ _ _ _ => trivial) sessionBody_scripted step ih

end Script

/-! ## What the history says -/

def Inserts (x : SessionTransition) (tokenHash : Bytes) (userId : UUID) (expiresAt : Int) : Prop :=
  ∃ k past, x.label = .call k past ⟨.insertSession userId tokenHash expiresAt, .ok ()⟩

def Revokes (x : SessionTransition) (tokenHash : Bytes) : Prop :=
  ∃ k past, x.label = .call k past ⟨.revokeSession tokenHash, .ok ()⟩

/-- A session was inserted, and its hash not revoked since. -/
def Live (tr : List SessionTransition) (tokenHash : Bytes) (userId : UUID) (expiresAt : Int) :
    Prop :=
  ∃ earlier y later, tr = earlier ++ y :: later ∧ Inserts y tokenHash userId expiresAt ∧
    ∀ z ∈ later, ¬Revokes z tokenHash

section Live

variable {site : Site} {s s' : SessionPool} {l : SessionAction} {tr : List SessionTransition}
  {x : SessionTransition} {tokenHash : Bytes} {userId : UUID} {expiresAt : Int}

theorem live_snoc : Live (tr ++ [x]) tokenHash userId expiresAt ↔
    Inserts x tokenHash userId expiresAt ∨
      Live tr tokenHash userId expiresAt ∧ ¬Revokes x tokenHash := by
  apply Iff.intro
  · intro ⟨earlier, y, later, split, inserted, kept⟩
    rcases snoc_eq_append_cons split with ⟨-, rfl, -⟩ | ⟨rest, rfl, same⟩
    · exact .inl inserted
    · obtain ⟨kept, here⟩ := forall_mem_snoc.mp kept
      exact .inr ⟨⟨earlier, y, rest, same, inserted, kept⟩, here⟩
  · intro live
    rcases live with inserted | ⟨⟨earlier, y, later, rfl, inserted, kept⟩, here⟩
    · exact ⟨tr, x, [], rfl, inserted, List.forall_mem_nil _⟩
    · refine ⟨earlier, y, later ++ [x], ?_, inserted, forall_mem_snoc.mpr ⟨kept, here⟩⟩
      rw [List.append_assoc, List.cons_append]

/-- Every call is one that its request makes. -/
theorem SessionPool.allowed {accounts : Db} {now : Time}
    (history : History (SessionPool.Step site) (SessionPool.initial accounts now) tr s)
    (mem : x ∈ tr) {k : SessionRequest} {past : RouteLog} {e : RouteEvent}
    (label : x.label = .call k past e) : k.Allows site past e.1 := by
  obtain ⟨before, after, split⟩ := List.append_of_mem mem
  obtain ⟨earlier, step⟩ := history.upTo split
  rw [label] at step
  exact Pool.Step.allows step (SessionPool.scripted earlier)

end Live

/-! ## What the table says -/

/-- Whose a session is, and until when. -/
def Store.terms (w : Store) : List (Bytes × UUID × Int) :=
  w.sessions.map fun s => (s.tokenHash, s.userId, s.expiresAt)

/-- The table agrees with the history, but for what has expired. -/
structure Table (tr : List SessionTransition) (w : Store) : Prop where
  sound : ∀ t ∈ w.terms, Live tr t.1 t.2.1 t.2.2
  complete : ∀ tokenHash userId expiresAt, Live tr tokenHash userId expiresAt →
    (w.now : Int) ≤ expiresAt → (tokenHash, userId, expiresAt) ∈ w.terms
  distinct : (w.terms.map Prod.fst).Nodup
  owned : ∀ t ∈ w.terms, ∃ user ∈ w.accounts.users, user.id = t.2.1

section Table

variable {site : Site} {draws : Draws} {w w' : Store} {e : RouteEvent} {s s' : SessionPool}
  {l : SessionAction} {tr : List SessionTransition} {x : SessionTransition}

/-- Users stay. -/
theorem Effect.users_stay (effect : Effect site draws w e w') :
    ∀ user ∈ w.accounts.users, ∃ user' ∈ w'.accounts.users, user'.id = user.id := by
  cases effect with
  | registered emailFree passkeyFree => exact fun user mem => ⟨user, List.mem_append_left _ mem, rfl⟩
  | updated found emailFree =>
      refine fun user mem => ⟨_, List.mem_map.mpr ⟨user, mem, rfl⟩, ?_⟩
      split <;> rfl
  | _ => exact fun user mem => ⟨user, mem, rfl⟩

theorem resolveSession_terms (tokenHash : Bytes) (w : Store) :
    (Statement.resolveSession tokenHash w).2.terms = w.terms := by
  rw [Store.terms, Statement.resolveSession, List.map_map]
  refine List.map_congr_left fun row _ => ?_
  show _ = (row.tokenHash, row.userId, row.expiresAt)
  dsimp only [Function.comp]
  split <;> rfl

/-- What a call does to the terms. -/
theorem Effect.terms_cases (effect : Effect site draws w e w') :
    (∃ userId tokenHash expiresAt, e = ⟨.insertSession userId tokenHash expiresAt, .ok ()⟩ ∧
      w'.terms = w.terms ++ [(tokenHash, userId, expiresAt)] ∧
      (∀ t ∈ w.terms, t.1 ≠ tokenHash) ∧ ∃ user ∈ w'.accounts.users, user.id = userId) ∨
    (∃ tokenHash, e = ⟨.revokeSession tokenHash, .ok ()⟩ ∧
      w'.terms = w.terms.filter fun t => t.1 ≠ tokenHash) ∨
    (∀ userId tokenHash expiresAt, e ≠ ⟨.insertSession userId tokenHash expiresAt, .ok ()⟩) ∧
      (∀ tokenHash, e ≠ ⟨.revokeSession tokenHash, .ok ()⟩) ∧
      (w'.terms = w.terms ∨ w'.terms = w.terms.filter fun t => ¬t.2.2 < (w'.now : Int)) := by
  cases effect with
  | idle idle =>
      refine .inr (.inr ⟨?_, ?_, .inl rfl⟩)
      · rintro _ _ _ rfl
        cases idle
      · rintro _ rfl
        cases idle
  | sweptSessions =>
      refine .inr (.inr ⟨nofun, nofun, .inr ?_⟩)
      rw [Store.terms, Store.terms, List.filter_map]
      rfl
  | @issued userId tokenHash expiresAt hashFree known =>
      refine .inl ⟨userId, tokenHash, expiresAt, rfl, ?_, ?_, known⟩
      · exact List.map_append
      · intro t mem
        obtain ⟨row, inside, rfl⟩ := List.mem_map.mp mem
        exact hashFree row inside
  | resolved => exact .inr (.inr ⟨nofun, nofun, .inl (resolveSession_terms _ w)⟩)
  | @revoked tokenHash =>
      refine .inr (.inl ⟨tokenHash, rfl, ?_⟩)
      rw [Store.terms, Store.terms, List.filter_map]
      rfl
  | _ => exact .inr (.inr ⟨nofun, nofun, .inl rfl⟩)

/-- A step that inserts and revokes nothing, and loses at most what has expired. -/
theorem Table.quiet (table : Table tr w)
    (inserts : ∀ tokenHash userId expiresAt, ¬Inserts x tokenHash userId expiresAt)
    (revokes : ∀ tokenHash, ¬Revokes x tokenHash) (later : (w.now : Int) ≤ w'.now)
    (users : ∀ user ∈ w.accounts.users, ∃ user' ∈ w'.accounts.users, user'.id = user.id)
    (terms : w'.terms = w.terms ∨ w'.terms = w.terms.filter fun t => ¬t.2.2 < (w'.now : Int)) :
    Table (tr ++ [x]) w' := by
  have fewer : w'.terms.Sublist w.terms := by
    rcases terms with same | swept
    · rw [same]
    · rw [swept]
      exact List.filter_sublist
  refine ⟨fun t mem => ?_, fun tokenHash userId expiresAt live inTime => ?_,
    (fewer.map _).nodup table.distinct, fun t mem => ?_⟩
  · exact live_snoc.mpr (.inr ⟨table.sound t (fewer.subset mem), revokes t.1⟩)
  · obtain ⟨live, -⟩ := (live_snoc.mp live).resolve_left (inserts _ _ _)
    have mem := table.complete tokenHash userId expiresAt live (by omega)
    rcases terms with same | swept
    · rwa [same]
    · rw [swept]
      refine List.mem_filter.mpr ⟨mem, decide_eq_true ?_⟩
      exact Int.not_lt.mpr inTime
  · obtain ⟨user, known, owns⟩ := table.owned t (fewer.subset mem)
    obtain ⟨user', known', same⟩ := users user known
    exact ⟨user', known', same.trans owns⟩

theorem Table.inserted {k : SessionRequest} {past : RouteLog} {tokenHash : Bytes} {userId : UUID}
    {expiresAt : Int} (table : Table tr w)
    (label : x.label = .call k past ⟨.insertSession userId tokenHash expiresAt, .ok ()⟩)
    (later : (w.now : Int) ≤ w'.now)
    (users : ∀ user ∈ w.accounts.users, ∃ user' ∈ w'.accounts.users, user'.id = user.id)
    (terms : w'.terms = w.terms ++ [(tokenHash, userId, expiresAt)])
    (hashFree : ∀ t ∈ w.terms, t.1 ≠ tokenHash) (known : ∃ user ∈ w'.accounts.users, user.id = userId) :
    Table (tr ++ [x]) w' := by
  have revokes : ∀ hash, ¬Revokes x hash := by
    intro hash ⟨_, _, revoked⟩
    rw [label] at revoked
    cases revoked
  refine ⟨?_, fun hash user expires live inTime => ?_, ?_, ?_⟩
  · rw [terms]
    exact forall_mem_snoc.mpr ⟨fun t mem => live_snoc.mpr (.inr ⟨table.sound t mem, revokes t.1⟩),
      live_snoc.mpr (.inl ⟨k, past, label⟩)⟩
  · rw [terms]
    rcases live_snoc.mp live with ⟨_, _, inserted⟩ | ⟨live, -⟩
    · rw [label] at inserted
      cases inserted
      exact List.mem_append_right _ (List.mem_singleton_self _)
    · exact List.mem_append_left _ (table.complete hash user expires live (by omega))
  · rw [terms]
    exact nodup_snoc table.distinct hashFree
  · rw [terms]
    refine forall_mem_snoc.mpr ⟨fun t mem => ?_, known⟩
    obtain ⟨user, known, owns⟩ := table.owned t mem
    obtain ⟨user', known', same⟩ := users user known
    exact ⟨user', known', same.trans owns⟩

theorem Table.revoked {k : SessionRequest} {past : RouteLog} {tokenHash : Bytes}
    (table : Table tr w) (label : x.label = .call k past ⟨.revokeSession tokenHash, .ok ()⟩)
    (later : (w.now : Int) ≤ w'.now)
    (users : ∀ user ∈ w.accounts.users, ∃ user' ∈ w'.accounts.users, user'.id = user.id)
    (terms : w'.terms = w.terms.filter fun t => t.1 ≠ tokenHash) : Table (tr ++ [x]) w' := by
  have fewer : w'.terms.Sublist w.terms := terms ▸ List.filter_sublist
  refine ⟨fun t mem => ?_, fun hash user expires live inTime => ?_,
    (fewer.map _).nodup table.distinct, fun t mem => ?_⟩
  · refine live_snoc.mpr (.inr ⟨table.sound t (fewer.subset mem), fun ⟨_, _, revoked⟩ => ?_⟩)
    rw [label] at revoked
    cases revoked
    rw [terms] at mem
    exact of_decide_eq_true (List.mem_filter.mp mem).2 rfl
  · rcases live_snoc.mp live with ⟨_, _, inserted⟩ | ⟨live, kept⟩
    · rw [label] at inserted
      cases inserted
    · rw [terms]
      refine List.mem_filter.mpr ⟨table.complete hash user expires live (by omega), ?_⟩
      refine decide_eq_true fun same : hash = tokenHash => kept ?_
      rw [same]
      exact ⟨k, past, label⟩
  · obtain ⟨user, known, owns⟩ := table.owned t (fewer.subset mem)
    obtain ⟨user', known', same⟩ := users user known
    exact ⟨user', known', same.trans owns⟩

theorem Table.step (table : Table tr s.world) (step : SessionPool.Step site s l s') :
    Table (tr ++ [⟨s, l, s'⟩]) s'.world := by
  rcases served_step step with ⟨same, k, rfl⟩ | ⟨k, past, e, draws, rfl, fresh, effect⟩
  · rw [same]
    exact table.quiet nofun nofun (Int.le_refl _) (fun user mem => ⟨user, mem, rfl⟩) (.inl rfl)
  have later : (s.world.now : Int) ≤ s'.world.now := by
    rw [effect.steady.1]
    exact Int.ofNat_le.mpr fresh.now
  have users : ∀ user ∈ s.world.accounts.users,
      ∃ user' ∈ s'.world.accounts.users, user'.id = user.id := effect.users_stay
  rcases effect.terms_cases with ⟨userId, tokenHash, expiresAt, rfl, terms, hashFree, known⟩ |
    ⟨tokenHash, rfl, terms⟩ | ⟨inserts, revokes, terms⟩
  · exact table.inserted rfl later users terms hashFree known
  · exact table.revoked rfl later users terms
  · refine table.quiet ?_ ?_ later users terms
    · intro tokenHash userId expiresAt ⟨_, _, inserted⟩
      cases inserted
      exact inserts _ _ _ rfl
    · intro tokenHash ⟨_, _, revoked⟩
      cases revoked
      exact revokes _ rfl

theorem SessionPool.table {accounts : Db} {now : Time}
    (history : History (SessionPool.Step site) (SessionPool.initial accounts now) tr s) :
    Table tr s.world := by
  induction history with
  | start =>
      have none : (SessionPool.initial accounts now).world.terms = [] := rfl
      refine ⟨?_, fun _ _ _ live => ?_, ?_, ?_⟩
      · rw [none]
        exact List.forall_mem_nil _
      · obtain ⟨_, _, _, split, _⟩ := live
        exact (List.append_ne_nil_of_right_ne_nil _ (List.cons_ne_nil _ _) split.symm).elim
      · rw [none]
        exact List.nodup_nil
      · rw [none]
        exact List.forall_mem_nil _
  | next before step ih => exact ih.step step

theorem Table.tick (table : Table tr w) (later : w.now ≤ draws.choices.now) :
    Table tr (w.tick draws) where
  sound := table.sound
  complete tokenHash userId expiresAt live inTime :=
    table.complete tokenHash userId expiresAt live
      (Int.le_trans (Int.ofNat_le.mpr later) inTime)
  distinct := table.distinct
  owned := table.owned

end Table

/-! ## Soundness and completeness -/

section Result

variable {site : Site} {accounts : Db} {now : Time} {tr : List SessionTransition} {s : SessionPool}
  {draws : Draws} {w w' : Store}

end Result

/-! ## One session -/

end Intellivault.Auth
