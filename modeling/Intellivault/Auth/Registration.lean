import Intellivault.Auth.Challenges

/-!
# Registration is all or nothing

A user and the first passkey are added by one transaction, or neither is.  Emails stay
apart whatever their case, passkeys stay apart, and whatever is taken is reported as a
conflict: as requests bring their emails in lower case, the index on `lower(email)` never
finds what the plain one does not.
-/

namespace Intellivault.Auth

open Lib

/-! ## Assumptions and results -/

/-- The request models have put the emails of a request into lower case. -/
def Normalised (site : Site) (x : ServerTransition) : Prop :=
  match x.label with
  | .start (.registerBegin req) => site.lower req.email = req.email
  | .start (.patchMe _ req) => ∀ email ∈ req.email, site.lower email = email
  | _ => True

instance (site : Site) (x : ServerTransition) : Decidable (Normalised site x) :=
  match x with
  | ⟨_, .start (.registerBegin req), _⟩ =>
      inferInstanceAs (Decidable (site.lower req.email = req.email))
  | ⟨_, .start (.patchMe _ req), _⟩ =>
      inferInstanceAs (Decidable (∀ email ∈ req.email, site.lower email = email))
  | ⟨_, .start (.registerFinish _ _), _⟩ | ⟨_, .start .loginBegin, _⟩
  | ⟨_, .start (.loginFinish _ _), _⟩ | ⟨_, .start (.logout _), _⟩ | ⟨_, .start (.me _), _⟩
  | ⟨_, .start (.getCredentials _), _⟩ | ⟨_, .start (.addPasskeyBegin _), _⟩
  | ⟨_, .start (.addPasskeyFinish _ _), _⟩ | ⟨_, .start (.removeCredential _ _), _⟩
  | ⟨_, .call _ _ _, _⟩ => isTrue trivial

/-- A request comes that removes a passkey. -/
def Removes (x : ServerTransition) : Prop :=
  ∃ cookies credentialId, x.label = .start (.removeCredential cookies credentialId)

/-- The step adds the user and the passkey, both at once. -/
def Joins (x : ServerTransition) (userId credentialId : UUID) : Prop :=
  ∃ (user : UserRow) (c : CredentialRow), user.id = userId ∧ c.id = credentialId ∧
    c.userId = userId ∧ x.target.world.accounts = {
      users := x.source.world.accounts.users ++ [user]
      credentials := x.source.world.accounts.credentials ++ [c] }

/-- The call found an email or a passkey that is there already. -/
def Collides (e : RouteEvent) : Prop :=
  Collision e ∨ ∃ email displayName verified transports,
    e = ⟨.account (.registration email displayName verified transports), .error .uniqueViolation⟩

structure AllOrNothing (site : Site) (tr : List ServerTransition) (s : Server) : Prop where
  emails : (s.world.accounts.users.map fun user => site.lower user.email).Nodup
  passkeys : (s.world.accounts.credentials.map (·.credentialId)).Nodup
  /-- Every user came with a passkey, and has it unless passkeys are removed. -/
  together : ∀ user ∈ s.world.accounts.users, ∃ x ∈ tr, ∃ credentialId,
    Joins x user.id credentialId ∧ ((∀ x ∈ tr, ¬Removes x) →
      ∃ c ∈ s.world.accounts.credentials, c.id = credentialId ∧ c.userId = user.id)
  /-- A registration that is refused has changed nothing. -/
  refused : ∀ p ∈ s.processes, ∀ cookies credential y,
    p.kind = .registerFinish cookies credential → p.rest = .raise (.http y) →
      ∀ x ∈ tr, ∀ past, ∀ e ∈ p.past, x.label = .call p.kind past e →
        x.target.world.accounts = x.source.world.accounts ∧
          x.target.world.sessions = x.source.world.sessions
  reported : ∀ p ∈ s.processes, ∀ r, p.rest = Prog.ended r → ∀ e ∈ p.past, Collides e →
    ∃ detail, r = .error (.http ⟨409, detail⟩)

/-! ## What the calls keep -/

section Effects

variable {site : Site} {draws : Draws} {w w' : Store} {e : RouteEvent}

/-- Emails are unique, whatever their case. -/
theorem Effect.emails (effect : Effect site draws (w.tick draws) e w')
    (unique : ∀ a ∈ w.accounts.users, ∀ b ∈ w.accounts.users,
      site.lower a.email = site.lower b.email → a.id = b.id) :
    ∀ a ∈ w'.accounts.users, ∀ b ∈ w'.accounts.users,
      site.lower a.email = site.lower b.email → a.id = b.id := by
  cases effect with
  | registered emailFree passkeyFree =>
      intro a mem b mem' same
      rcases List.mem_append.mp mem with old | new <;> rcases List.mem_append.mp mem' with old' | new'
      · exact unique a old b old' same
      · rw [List.mem_singleton.mp new'] at same
        exact (emailFree a old same).elim
      · rw [List.mem_singleton.mp new] at same
        exact (emailFree b old' same.symm).elim
      · rw [List.mem_singleton.mp new, List.mem_singleton.mp new']
  | @updated id email displayName user found emailFree =>
      intro a mem b mem' same
      obtain ⟨a, inside, rfl⟩ := List.mem_map.mp mem
      obtain ⟨b, inside', rfl⟩ := List.mem_map.mp mem'
      by_cases hit : a.id = id <;> by_cases hit' : b.id = id
      · rw [if_pos hit, if_pos hit']
        exact hit.trans hit'.symm
      · rw [if_pos hit, if_neg hit'] at same
        exact (emailFree b inside' hit' same.symm).elim
      · rw [if_neg hit, if_pos hit'] at same
        exact (emailFree a inside hit same).elim
      · rw [if_neg hit, if_neg hit'] at same ⊢
        exact unique a inside b inside' same
  | _ => exact unique

theorem Effect.passkeys (effect : Effect site draws w e w')
    (unique : (w.accounts.credentials.map (·.credentialId)).Nodup) :
    (w'.accounts.credentials.map (·.credentialId)).Nodup := by
  cases effect with
  | registered emailFree passkeyFree => exact nodup_snoc unique passkeyFree
  | added known passkeyFree => exact nodup_snoc unique passkeyFree
  | deleted => exact (List.filter_sublist.map _).nodup unique
  | bumped =>
      rw [Statement.updateSignCount, List.map_map]
      refine Eq.mp (congrArg List.Nodup (List.map_congr_left fun c _ => ?_)) unique
      show c.credentialId = (if c.id = _ then _ else c : CredentialRow).credentialId
      split <;> rfl
  | _ => exact unique

/-- Only a `DELETE` takes a passkey from its user. -/
theorem Effect.keeps (effect : Effect site draws w e w')
    (stays : ∀ seen id userId r, e ≠ ⟨.account (.deleteCredential seen id userId), r⟩) :
    ∀ c ∈ w.accounts.credentials, ∃ c' ∈ w'.accounts.credentials,
      c'.id = c.id ∧ c'.userId = c.userId := by
  cases effect with
  | registered _ _ | added _ _ =>
      exact fun c mem => ⟨c, List.mem_append_left _ mem, rfl, rfl⟩
  | deleted => exact (stays _ _ _ _ rfl).elim
  | bumped =>
      refine fun c mem => ⟨_, List.mem_map.mpr ⟨c, mem, rfl⟩, ?_⟩
      split <;> exact ⟨rfl, rfl⟩
  | _ => exact fun c mem => ⟨c, mem, rfl, rfl⟩

/-- A user was there before, or has just joined with a passkey. -/
theorem Effect.joins (effect : Effect site draws w e w') :
    ∀ user ∈ w'.accounts.users, (∃ old ∈ w.accounts.users, old.id = user.id) ∨
      ∃ c : CredentialRow, c.userId = user.id ∧ w'.accounts = {
        users := w.accounts.users ++ [user], credentials := w.accounts.credentials ++ [c] } := by
  cases effect with
  | registered emailFree passkeyFree =>
      exact forall_mem_snoc.mpr ⟨fun user mem => .inl ⟨user, mem, rfl⟩, .inr ⟨_, rfl, rfl⟩⟩
  | updated found emailFree =>
      intro user mem
      obtain ⟨old, inside, rfl⟩ := List.mem_map.mp mem
      refine .inl ⟨old, inside, ?_⟩
      split <;> rfl
  | _ => exact fun user mem => .inl ⟨user, mem, rfl⟩

theorem Effect.untouched (effect : Effect site draws w e w') (untouching : Untouching e) :
    w'.accounts = w.accounts ∧ w'.sessions = w.sessions := by
  cases effect with
  | idle _ | consumed _ _ => exact ⟨rfl, rfl⟩
  | _ => exact untouching.elim

/-- A session resolves to a user of the table. -/
theorem Effect.resolved_user {tokenHash : Bytes} {answer : Option UserRow}
    (effect : Effect site draws w ⟨.resolveSession tokenHash, .ok answer⟩ w') :
    ∀ user ∈ answer, user ∈ w.accounts.users := by
  cases effect with
  | idle idle => cases idle
  | resolved =>
      intro user found
      obtain ⟨session, _, owned⟩ := List.exists_of_findSome?_eq_some found
      exact List.mem_of_find?_eq_some owned

end Effects

/-! ## Emails in lower case -/

section Normal

variable {site : Site} {s s' : Server} {tr : List ServerTransition} {k : RouteRequest}
  {past : RouteLog} {r : Except Exn UserRow}

/-- A registration was begun with its email. -/
theorem Server.registration_email (before : History (Server.Step site) Server.empty tr s)
    (normal : ∀ x ∈ tr, Normalised site x) {email displayName : String} {verified : Verified}
    {transports : List String}
    (step : Server.Step site s
      (.call k past ⟨.account (.registration email displayName verified transports), r⟩) s') :
    site.lower email = email := by
  have allowed := Pool.Step.allows step (Server.scripted before).1
  obtain ⟨-, row, ⟨id, popped⟩, hasEmail, -⟩ := allowed
  obtain ⟨x, inside, past', label⟩ := Server.recalled before step popped
  obtain ⟨-, ⟨begun, past'', issued⟩, -⟩ := (Server.ledger before).sound x inside k past' id row label
  have begins := issued.begins before
  rw [hasEmail] at begins
  cases begun with
  | registerBegin req =>
      obtain ⟨y, mem, stored⟩ := issued
      obtain ⟨z, there, start⟩ := Pool.called_started before y mem _ _ _ stored
      have lowered := normal z there
      rw [Normalised, start] at lowered
      rw [Option.some.inj begins.2.1]
      exact lowered
  | loginBegin => cases begins.2.1
  | addPasskeyBegin _ => cases begins.2.1
  | _ => exact begins.elim

/-- The users that sessions have been resolved to have their emails in lower case. -/
def ReadsNormal (site : Site) (tr : List ServerTransition) : Prop :=
  ∀ x ∈ tr, ∀ k past tokenHash user,
    x.label = .call k past ⟨.resolveSession tokenHash, .ok (some user)⟩ →
      site.lower user.email = user.email

theorem Server.patch_email (before : History (Server.Step site) Server.empty tr s)
    (normal : ∀ x ∈ tr, Normalised site x) (reads : ReadsNormal site tr) {id : UUID}
    {email displayName : String} {r : Except Exn (Option UserRow)}
    (step : Server.Step site s (.call k past ⟨.updateAccount id email displayName, r⟩) s') :
    site.lower email = email := by
  have allowed := Pool.Step.allows step (Server.scripted before).1
  obtain ⟨cookies, req, user, kind, ⟨token, -, signed⟩, -, emailIs, -⟩ := allowed
  rw [emailIs]
  cases given : req.email with
  | none =>
      obtain ⟨x, inside, past', label⟩ := Server.recalled before step signed
      exact reads x inside k past' _ user label
  | some email =>
      obtain ⟨p, mem, rfl, -⟩ := Pool.Step.caller step
      obtain ⟨z, there, start⟩ := Pool.started before p mem
      have lowered := normal z there
      rw [Normalised, start, kind] at lowered
      exact lowered email given

/-- All emails that are stored, or were read, are in lower case. -/
theorem Server.normal (history : History (Server.Step site) Server.empty tr s)
    (normal : ∀ x ∈ tr, Normalised site x) :
    (∀ user ∈ s.world.accounts.users, site.lower user.email = user.email) ∧
      ReadsNormal site tr := by
  induction history with
  | start => exact ⟨List.forall_mem_nil _, List.forall_mem_nil _⟩
  | @next tr t u l before step ih =>
      obtain ⟨earlier, -⟩ := forall_mem_snoc.mp normal
      obtain ⟨users, reads⟩ := ih earlier
      refine ⟨?_, forall_mem_snoc.mpr ⟨reads, fun k past tokenHash user label => ?_⟩⟩
      · rcases step.cases with ⟨same, -⟩ | ⟨k, past, e, draws, rfl, fresh, effect⟩
        · rwa [same]
        generalize after : u.world = w' at *
        cases effect with
        | registered emailFree passkeyFree =>
            exact forall_mem_snoc.mpr ⟨users, Server.registration_email before earlier step⟩
        | updated found emailFree =>
            intro user mem
            obtain ⟨old, inside, rfl⟩ := List.mem_map.mp mem
            have lowered := Server.patch_email before earlier reads step
            split
            · exact lowered
            · exact users old inside
        | _ => exact users
      · obtain rfl : l = .call k past ⟨.resolveSession tokenHash, .ok (some user)⟩ := label
        rcases step.cases with ⟨-, _, absurd⟩ | ⟨_, _, _, draws, same, fresh, effect⟩
        · cases absurd
        · cases same
          exact users user (effect.resolved_user user rfl)

/-- With emails in lower case, the index on `lower(email)` finds what the plain one does. -/
theorem registration_not_unique {draws : Draws} {w : Store} {email displayName : String}
    {verified : Verified} {transports : List String} (ids : w.Ids) (fresh : draws.Fresh w)
    (users : ∀ user ∈ w.accounts.users, site.lower user.email = user.email)
    (lowered : site.lower email = email) :
    registration site.lower draws.choices.userId draws.choices.id draws.choices.now email
      displayName verified transports w.accounts ≠ .error .uniqueViolation := by
  intro raised
  unfold registration at raised
  split at raised
  · rename_i exc inserted
    cases raised
    unfold Statement.insertUser at inserted
    split at inserted
    · cases inserted
    rename_i free
    split at inserted
    · rename_i taken
      obtain ⟨user, mem, sameId | sameEmail⟩ := taken
      · exact ids.user_ne fresh user mem sameId
      · rw [users user mem, lowered] at sameEmail
        exact free ⟨user, mem, sameEmail⟩
    · cases inserted
  · cases raised
  · split at raised
    · rename_i exc stored
      rcases insertCredential_error stored with rfl | rfl <;> cases raised
    · cases raised

/-- No registration breaks off on a unique index. -/
theorem Server.no_violation (history : History (Server.Step site) Server.empty tr s)
    (normal : ∀ x ∈ tr, Normalised site x) :
    ∀ x ∈ tr, ∀ k past email displayName verified transports,
      x.label ≠ .call k past
        ⟨.account (.registration email displayName verified transports), .error .uniqueViolation⟩ := by
  induction history with
  | start => exact List.forall_mem_nil _
  | @next tr t u l before step ih =>
      obtain ⟨earlier, -⟩ := forall_mem_snoc.mp normal
      refine forall_mem_snoc.mpr ⟨ih earlier, ?_⟩
      intro k past email displayName verified transports label
      obtain rfl : l = .call k past
        ⟨.account (.registration email displayName verified transports), .error .uniqueViolation⟩ :=
          label
      obtain ⟨draws, fresh, ⟨raised, -⟩ | ⟨⟨_, other⟩, -⟩⟩ := Pool.Step.answers step
      · simp only [RouteCall.respond, Call.respond] at raised
        split at raised
        · cases raised
        · rename_i exc ran
          cases raised
          exact registration_not_unique (Server.ids before) fresh (Server.normal before earlier).1
            (Server.registration_email before earlier step) ran
      · cases other

end Normal

/-! ## The result -/

section Results

variable {site : Site} {s : Server} {tr : List ServerTransition}

theorem Server.emails (history : History (Server.Step site) Server.empty tr s) :
    (s.world.accounts.users.map fun user => site.lower user.email).Nodup := by
  have unique : ∀ a ∈ s.world.accounts.users, ∀ b ∈ s.world.accounts.users,
      site.lower a.email = site.lower b.email → a.id = b.id := by
    induction history with
    | start => exact List.forall_mem_nil _
    | next before step ih =>
        rcases step.cases with ⟨same, -⟩ | ⟨_, _, _, draws, -, fresh, effect⟩
        · rwa [same]
        · exact effect.emails ih
  have ids := (Server.ids history).users
  refine List.Nodup.map_on (fun a mem b mem' same => ?_) ids.of_map
  exact List.inj_on_of_nodup_map ids mem mem' (unique a mem b mem' same)

theorem Server.passkeys (history : History (Server.Step site) Server.empty tr s) :
    (s.world.accounts.credentials.map (·.credentialId)).Nodup := by
  induction history with
  | start => exact List.nodup_nil
  | next before step ih =>
      rcases step.cases with ⟨same, -⟩ | ⟨_, _, _, draws, -, fresh, effect⟩
      · rwa [same]
      · exact effect.passkeys ih

/-- A call that takes a passkey is of a request that came to remove one. -/
theorem Server.removes (before : History (Server.Step site) Server.empty tr s) {s' : Server}
    {k : RouteRequest} {past : RouteLog} {seen : Db} {id userId : UUID}
    {r : Except Exn (Option UUID)}
    (step : Server.Step site s (.call k past ⟨.account (.deleteCredential seen id userId), r⟩) s') :
    ∃ x ∈ tr, Removes x := by
  obtain ⟨cookies, credentialId, rfl⟩ := Pool.Step.allows step (Server.scripted before).1
  obtain ⟨p, mem, kind, -⟩ := Pool.Step.caller step
  obtain ⟨x, inside, start⟩ := Pool.started before p mem
  exact ⟨x, inside, cookies, credentialId, by rw [start, kind]⟩

theorem Server.together (history : History (Server.Step site) Server.empty tr s) :
    ∀ user ∈ s.world.accounts.users, ∃ x ∈ tr, ∃ credentialId,
      Joins x user.id credentialId ∧ ((∀ x ∈ tr, ¬Removes x) →
        ∃ c ∈ s.world.accounts.credentials, c.id = credentialId ∧ c.userId = user.id) := by
  induction history with
  | start => exact List.forall_mem_nil _
  | @next tr t u l before step ih =>
      have kept : (∀ x ∈ tr, ¬Removes x) → ∀ c ∈ t.world.accounts.credentials,
          ∃ c' ∈ u.world.accounts.credentials, c'.id = c.id ∧ c'.userId = c.userId := by
        intro stay
        rcases step.cases with ⟨same, -⟩ | ⟨k, past, e, draws, rfl, fresh, effect⟩
        · rw [same]
          exact fun c mem => ⟨c, mem, rfl, rfl⟩
        · refine effect.keeps fun seen id userId r same => ?_
          subst same
          obtain ⟨x, inside, removes⟩ := Server.removes before step
          exact stay x inside removes
      have earlier : ∀ user ∈ t.world.accounts.users, ∃ x ∈ tr ++ [⟨t, l, u⟩], ∃ credentialId,
          Joins x user.id credentialId ∧ ((∀ x ∈ tr ++ [⟨t, l, u⟩], ¬Removes x) →
            ∃ c ∈ u.world.accounts.credentials, c.id = credentialId ∧ c.userId = user.id) := by
        intro user mem
        obtain ⟨x, inside, credentialId, joins, has⟩ := ih user mem
        refine ⟨x, List.mem_append_left _ inside, credentialId, joins, fun stay => ?_⟩
        obtain ⟨stay, -⟩ := forall_mem_snoc.mp stay
        obtain ⟨c, there, rfl, owned⟩ := has stay
        obtain ⟨c', there', sameId, sameUser⟩ := kept stay c there
        exact ⟨c', there', sameId, sameUser.trans owned⟩
      rcases step.cases with ⟨same, -⟩ | ⟨_, _, _, draws, -, fresh, effect⟩
      · intro user mem
        rw [same] at mem
        exact earlier user mem
      · intro user mem
        rcases effect.joins user mem with ⟨old, inside, same⟩ | ⟨c, owned, joined⟩
        · rw [← same]
          exact earlier old inside
        · refine ⟨_, List.mem_append_right _ (List.mem_singleton_self _), c.id,
            ⟨user, c, rfl, rfl, owned, joined⟩, fun _ => ⟨c, ?_, rfl, owned⟩⟩
          rw [joined]
          exact List.mem_append_right _ (List.mem_singleton_self _)

theorem Server.refused (history : History (Server.Step site) Server.empty tr s)
    {p : Process RouteRequest RouteCall RouteCall.Answer Exn} (mem : p ∈ s.processes)
    {cookies : Cookies} {credential : CeremonyResponse} {y : HTTPException}
    (kind : p.kind = .registerFinish cookies credential) (raised : p.rest = .raise (.http y))
    {x : ServerTransition} (inside : x ∈ tr) {past : RouteLog} {e : RouteEvent} (called : e ∈ p.past)
    (label : x.label = .call p.kind past e) :
    x.target.world.accounts = x.source.world.accounts ∧
      x.target.world.sessions = x.source.world.sessions := by
  have ended : p.rest = Prog.ended (.error (.http y)) := raised
  have outcome := (Pool.Scripted.ended (Server.scripted history).1 mem ended).1
  rw [kind] at outcome
  obtain ⟨draws, -, effect⟩ := served_effect (Server.answered history inside label)
  exact effect.untouched (outcome e called)

theorem Server.reported (history : History (Server.Step site) Server.empty tr s)
    (normal : ∀ x ∈ tr, Normalised site x)
    {p : Process RouteRequest RouteCall RouteCall.Answer Exn} (mem : p ∈ s.processes)
    {r : Except Exn Unit} (ended : p.rest = Prog.ended r) {e : RouteEvent} (called : e ∈ p.past)
    (collides : Collides e) : ∃ detail, r = .error (.http ⟨409, detail⟩) := by
  rcases collides with collision | ⟨email, displayName, verified, transports, rfl⟩
  · exact (Pool.Scripted.ended (Server.scripted history).1 mem ended).2 e called collision
  · obtain ⟨x, inside, past, label, -⟩ := Server.logged history mem called
    exact (Server.no_violation history normal x inside _ _ _ _ _ _ label).elim

/-- **Registration is all or nothing, and emails and passkeys stay unique**, whatever requests
come and however their calls interleave. -/
theorem all_or_nothing (history : History (Server.Step site) Server.empty tr s)
    (normal : ∀ x ∈ tr, Normalised site x) : AllOrNothing site tr s where
  emails := Server.emails history
  passkeys := Server.passkeys history
  together := Server.together history
  refused _ mem _ _ _ kind raised _ inside _ _ called label :=
    Server.refused history mem kind raised inside called label
  reported _ mem _ ended _ called collides := Server.reported history normal mem ended called collides

end Results

/-- Ada begins twice and finishes both. -/
def registeringTwice : List (Pool.Move RouteRequest Draws) :=
  .start (.registerBegin ⟨"ada@example.org", .of "Ada" (Eq.refl true)⟩) :: inTurn 0 1 6 ++
    .start (.registerBegin ⟨"ada@example.org", .of "Ada" (Eq.refl true)⟩) :: inTurn 1 7 6 ++
    .start (.registerFinish { ceremony := some "0000000000000000000000000000000d" } passkey) ::
      inTurn 2 13 7 ++
    .start (.registerFinish { ceremony := some "00000000000000000000000000000019" } passkey) ::
      inTurn 3 20 3

theorem all_or_nothing_registeringTwice : ∃ (tr : List ServerTransition) (s : Server),
    History (Server.Step localhost) Server.empty tr s ∧ s.processes.map (·.returned) =
      [true, true, true, false] ∧ AllOrNothing localhost tr s := by
  have finished : (Server.play localhost (fun x => Normalised localhost x) registeringTwice).map
      (fun s => s.processes.map (·.returned)) = some [true, true, true, false] := by decide +kernel
  obtain ⟨s, played, returned⟩ := Option.map_eq_some_iff.mp finished
  obtain ⟨tr, history, normal⟩ := Server.play_history played
  exact ⟨tr, s, history, returned,
    all_or_nothing history fun x mem => of_decide_eq_true (normal x mem)⟩

end Intellivault.Auth
