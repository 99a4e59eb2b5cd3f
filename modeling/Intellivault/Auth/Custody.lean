import Intellivault.Lib.Custody
import Intellivault.Auth.Warrants
import Intellivault.Auth.Registration

/-!
# Whom a session stands for

What opens an account is a passkey or a session.  The passkeys of a user come with the
registration or under a session of that user; the sessions come with the registration or
from an assertion under a passkey of that user.  So each has a chain of custody back to the
registration, and whatever changes the account presents a session with such a chain.
-/

namespace Intellivault.Auth

open Lib

/-! ## Keys -/

/-- What opens an account. -/
inductive Key where
  | passkey (id : UUID)
  | session (tokenHash : Bytes)

/-- The key is in the tables, as a key of the user. -/
def Store.Holds (w : Store) : Key × UUID → Prop
  | (.passkey id, userId) => ∃ c ∈ w.accounts.credentials, c.id = id ∧ c.userId = userId
  | (.session tokenHash, userId) =>
      ∃ row ∈ w.sessions, row.tokenHash = tokenHash ∧ row.userId = userId

/-- A registration is at the start of the key. -/
def Founds (x : ServerTransition) : Key × UUID → Prop
  | (.passkey id, userId) => ∃ k past email displayName verified transports user row,
      x.label = .call k past
        ⟨.account (.registration email displayName verified transports), .ok user⟩ ∧
      user.id = userId ∧ Attested past row verified ∧ row.email = some email ∧
      row.displayName = some displayName ∧
      ¬x.source.world.Holds (.passkey id, userId) ∧ x.target.world.Holds (.passkey id, userId)
  | (.session tokenHash, userId) => ∃ k past expiresAt user,
      x.label = .call k past ⟨.insertSession userId tokenHash expiresAt, .ok ()⟩ ∧
      Registered past user ∧ user.id = userId

/-- A passkey is added under a session of the same user, or a session is opened with a
passkey of the same user. -/
def Hands (site : Site) (x : ServerTransition) : Key × UUID → Key × UUID → Prop
  | (.session tokenHash, owner), (.passkey id, userId) => owner = userId ∧
      ∃ k past verified transports name row token,
        x.label = .call k past
          ⟨.account (.insertCredential userId verified transports name), .ok id⟩ ∧
        k.cookies.session = some token ∧ site.digest token = tokenHash ∧
        Attested past row verified ∧ row.userId = some userId
  | (.passkey id, owner), (.session tokenHash, userId) => owner = userId ∧
      ∃ k past expiresAt passkey user,
        x.label = .call k past ⟨.insertSession userId tokenHash expiresAt, .ok ()⟩ ∧
        Asserted past passkey user ∧ passkey.id = id ∧ user.id = userId
  | _, _ => False

section Effects

variable {site : Site} {draws : Draws} {w w' : Store} {e : RouteEvent} {key : Key × UUID}

/-- How a key comes into the tables. -/
theorem Effect.holds (effect : Effect site draws w e w') (held : w'.Holds key) :
    w.Holds key ∨
    (∃ email displayName verified transports user id,
      e = ⟨.account (.registration email displayName verified transports), .ok user⟩ ∧
        key = (.passkey id, user.id)) ∨
    (∃ userId verified transports name id,
      e = ⟨.account (.insertCredential userId verified transports name), .ok id⟩ ∧
        key = (.passkey id, userId)) ∨
    ∃ userId tokenHash expiresAt, e = ⟨.insertSession userId tokenHash expiresAt, .ok ()⟩ ∧
      key = (.session tokenHash, userId) := by
  obtain ⟨key, userId⟩ := key
  cases key with
  | passkey id =>
      obtain ⟨c, mem, rfl, rfl⟩ := held
      cases effect with
      | registered emailFree passkeyFree =>
          rcases List.mem_append.mp mem with old | new
          · exact .inl ⟨c, old, rfl, rfl⟩
          · obtain rfl := List.mem_singleton.mp new
            exact .inr (.inl ⟨_, _, _, _, _, _, rfl, rfl⟩)
      | added known passkeyFree =>
          rcases List.mem_append.mp mem with old | new
          · exact .inl ⟨c, old, rfl, rfl⟩
          · obtain rfl := List.mem_singleton.mp new
            exact .inr (.inr (.inl ⟨_, _, _, _, _, rfl, rfl⟩))
      | deleted => exact .inl ⟨c, List.mem_of_mem_filter mem, rfl, rfl⟩
      | bumped =>
          obtain ⟨old, inside, rfl⟩ := List.mem_map.mp mem
          refine .inl ⟨old, inside, ?_⟩
          split <;> exact ⟨rfl, rfl⟩
      | _ => exact .inl ⟨c, mem, rfl, rfl⟩
  | session tokenHash =>
      obtain ⟨row, mem, rfl, rfl⟩ := held
      cases effect with
      | sweptSessions => exact .inl ⟨row, List.mem_of_mem_filter mem, rfl, rfl⟩
      | issued hashFree known =>
          rcases List.mem_append.mp mem with old | new
          · exact .inl ⟨row, old, rfl, rfl⟩
          · obtain rfl := List.mem_singleton.mp new
            exact .inr (.inr (.inr ⟨_, _, _, rfl, rfl⟩))
      | resolved =>
          obtain ⟨old, inside, rfl⟩ := List.mem_map.mp mem
          refine .inl ⟨old, inside, ?_⟩
          split <;> exact ⟨rfl, rfl⟩
      | revoked => exact .inl ⟨row, List.mem_of_mem_filter mem, rfl, rfl⟩
      | _ => exact .inl ⟨row, mem, rfl, rfl⟩

/-- A session resolves to the user it is a key of. -/
theorem Effect.resolved_key {tokenHash : Bytes} {answer : Option UserRow}
    (effect : Effect site draws w ⟨.resolveSession tokenHash, .ok answer⟩ w') :
    ∀ user ∈ answer, w.Holds (.session tokenHash, user.id) := by
  cases effect with
  | idle idle => cases idle
  | resolved =>
      intro user found
      obtain ⟨row, live, owned⟩ := List.exists_of_findSome?_eq_some found
      obtain ⟨mem, matched⟩ := List.mem_filter.mp live
      have hash : row.tokenHash = tokenHash := (of_decide_eq_true matched).1
      have named := List.find?_some owned
      exact ⟨row, mem, hash, (of_decide_eq_true named).symm⟩

theorem Statement.credentialWithUser_key {rawId : Bytes} {passkey : CredentialRow} {user : UserRow}
    (found : Statement.credentialWithUser rawId w = some (passkey, user)) :
    w.Holds (.passkey passkey.id, user.id) := by
  obtain ⟨c, matched, owned⟩ := List.exists_of_findSome?_eq_some found
  obtain ⟨row, isOwner, same⟩ := Option.map_eq_some_iff.mp owned
  obtain ⟨rfl, rfl⟩ := Prod.mk.inj same
  have named := List.find?_some isOwner
  exact ⟨c, List.mem_of_mem_filter matched, rfl, (of_decide_eq_true named).symm⟩

end Effects

/-! ## Chains -/

section Chains

variable {site : Site} {s s' : Server} {tr : List ServerTransition} {k : RouteRequest}
  {past : RouteLog} {l : ServerAction} {key : Key × UUID}

/-- The key was in the tables at some time. -/
def Known (tr : List ServerTransition) (s : Server) (key : Key × UUID) : Prop :=
  ∃ t, Visited tr s t ∧ t.world.Holds key

/-- Who is signed in presents a session that was a key of the user. -/
theorem Server.session_known (before : History (Server.Step site) Server.empty tr s)
    {x : ServerTransition} (mem : x ∈ tr) {token : String} {user : UserRow}
    (label : x.label = .call k past ⟨.resolveSession (site.digest token), .ok (some user)⟩) :
    Known tr s (.session (site.digest token), user.id) := by
  obtain ⟨draws, -, effect⟩ := served_effect (Server.answered before mem label)
  exact ⟨x.source, .inr ⟨x, mem, rfl⟩, effect.resolved_key user rfl⟩

/-- Whose passkey has signed is its user. -/
theorem Server.passkey_known (before : History (Server.Step site) Server.empty tr s)
    {e : RouteEvent} (step : Server.Step site s (.call k past e) s') {passkey : CredentialRow}
    {user : UserRow} (asserted : Asserted past passkey user) :
    Known tr s (.passkey passkey.id, user.id) := by
  obtain ⟨rawId, _, _, _, -, found, -⟩ := asserted
  obtain ⟨x, mem, past', label⟩ := Server.recalled before step found
  obtain ⟨draws, -, ⟨same, -⟩ | ⟨⟨message, failed⟩, -⟩⟩ := Server.answered before mem label
  · exact ⟨x.source, .inr ⟨x, mem, rfl⟩,
      Statement.credentialWithUser_key (Except.ok.inj same).symm⟩
  · cases failed

/-- A step adds a key in one of these ways only. -/
theorem Server.Step.adds (before : History (Server.Step site) Server.empty tr s)
    (step : Server.Step site s l s') (held : s'.world.Holds key) :
    s.world.Holds key ∨ Founds ⟨s, l, s'⟩ key ∨
      ∃ key', Known tr s key' ∧ Hands site ⟨s, l, s'⟩ key' key := by
  by_cases old : s.world.Holds key
  · exact .inl old
  apply Or.inr
  rcases step.cases with ⟨same, -⟩ | ⟨k, past, e, draws, rfl, -, effect⟩
  · rw [same] at held
    exact (old held).elim
  have warrant := Server.warranted before step
  rcases effect.holds held with was | registered | added | opened
  · exact (old was).elim
  · obtain ⟨email, displayName, verified, transports, user, id, rfl, rfl⟩ := registered
    obtain ⟨row, attested, hasEmail, hasName⟩ := warrant
    exact .inl ⟨k, past, email, displayName, verified, transports, user, row, rfl, rfl, attested,
      hasEmail, hasName, old, held⟩
  · obtain ⟨userId, verified, transports, name, id, rfl, rfl⟩ := added
    obtain ⟨user, row, ⟨token, cookie, signed⟩, rfl, attested, drawnFor⟩ := warrant
    obtain ⟨x, mem, past', label⟩ := Server.recalled before step signed
    refine .inr ⟨(.session (site.digest token), user.id),
      Server.session_known before mem label, rfl, ?_⟩
    exact ⟨k, past, verified, transports, name, row, token, rfl, cookie, rfl, attested, drawnFor⟩
  · obtain ⟨userId, tokenHash, expiresAt, rfl, rfl⟩ := opened
    obtain ⟨user, rfl, registered | ⟨passkey, asserted⟩⟩ := warrant
    · exact .inl ⟨k, past, expiresAt, user, rfl, registered, rfl⟩
    · refine .inr ⟨(.passkey passkey.id, user.id),
        Server.passkey_known before step asserted, rfl, ?_⟩
      exact ⟨k, past, expiresAt, passkey, user, rfl, asserted, rfl, rfl⟩

/-- The key goes back to the registration of its user. -/
abbrev Rooted (site : Site) : List ServerTransition → Key × UUID → Prop :=
  Entrusted Founds (Hands site)

theorem Server.rooted (history : History (Server.Step site) Server.empty tr s)
    (known : Known tr s key) : Rooted site tr key := by
  obtain ⟨t, visited, held⟩ := known
  have empty : ∀ key, ¬Server.empty.world.Holds key := by
    intro ⟨key, userId⟩ held
    cases key with
    | passkey _ | session _ =>
        obtain ⟨_, mem, -⟩ := held
        cases mem
  exact history.entrusted (fun s => s.world.Holds) empty
    (fun _ _ _ _ before step _ => Server.Step.adds before step) t visited key held

/-- A request that is signed in presents a session with its chain. -/
theorem Server.signedIn_rooted (history : History (Server.Step site) Server.empty tr s)
    {p : Process RouteRequest RouteCall RouteCall.Answer Exn} (mem : p ∈ s.processes)
    {user : UserRow} (signedIn : SignedIn site p.kind.cookies p.past user) :
    ∃ token, p.kind.cookies.session = some token ∧
      Rooted site tr (.session (site.digest token), user.id) := by
  obtain ⟨token, cookie, answered⟩ := signedIn
  obtain ⟨x, inside, past, label, -⟩ := Server.logged history mem answered
  exact ⟨token, cookie, Server.rooted history (Server.session_known history inside label)⟩

/-- **Every passkey and every session goes back to the registration of its user**, along
sessions that passkeys have opened and passkeys that were added under sessions; and a request
acts for a user under such a session only. -/
theorem keys_rooted (history : History (Server.Step site) Server.empty tr s) :
    (∀ key, s.world.Holds key → Rooted site tr key) ∧
      ∀ p ∈ s.processes, ∀ user, SignedIn site p.kind.cookies p.past user →
        ∃ token, p.kind.cookies.session = some token ∧
          Rooted site tr (.session (site.digest token), user.id) :=
  ⟨fun _ held => Server.rooted history ⟨s, .inl rfl, held⟩,
    fun _ mem _ signedIn => Server.signedIn_rooted history mem signedIn⟩

end Chains

/-- Ada's second passkey was added under the session that her registration has opened. -/
theorem keys_rooted_secondPasskey : ∃ (tr : List ServerTransition) (s : Server),
    History (Server.Step localhost) Server.empty tr s ∧
      s.world.accounts.credentials.map (fun c => (c.id, c.userId)) = [(19, 20), (47, 20)] ∧
      Rooted localhost tr (.passkey 47, 20) := by
  have owned : (Server.play localhost (fun _ => true) secondPasskey).map (fun s =>
      s.world.accounts.credentials.map fun c => (c.id, c.userId)) =
        some [(19, 20), (47, 20)] := by decide +kernel
  obtain ⟨s, played, two⟩ := Option.map_eq_some_iff.mp owned
  obtain ⟨tr, history, -⟩ := Server.play_history played
  have second : ((47 : UUID), (20 : UUID)) ∈
      s.world.accounts.credentials.map fun c => (c.id, c.userId) := by
    rw [two]
    exact List.mem_cons_of_mem _ (List.mem_singleton_self _)
  obtain ⟨c, mem, same⟩ := List.mem_map.mp second
  obtain ⟨isId, isOwner⟩ := Prod.mk.inj same
  exact ⟨tr, s, history, two, (keys_rooted history).1 (.passkey 47, 20) ⟨c, mem, isId, isOwner⟩⟩

/-! ## What changes an account -/

/-- A passkey but for the traces that logins leave on it. -/
def CredentialRow.bare (c : CredentialRow) : CredentialRow :=
  { c with signCount := 0, lastUsedAt := none }

/-- What belongs to a user. -/
structure Account where
  profile : List UserRow
  passkeys : List CredentialRow

/-- The profile of a user and their passkeys. -/
def Store.account (w : Store) (userId : UUID) : Account where
  profile := w.accounts.users.filter fun user => user.id = userId
  passkeys := (w.accounts.credentials.filter fun c => c.userId = userId).map CredentialRow.bare

/-- The call writes to the account of the user. -/
def WritesTo (userId : UUID) : RouteCall → Prop
  | .account (.insertCredential owner _ _ _) | .account (.deleteCredential _ _ owner)
  | .updateAccount owner _ _ => owner = userId
  | _ => False

section Accounts

variable {site : Site} {draws : Draws} {w w' : Store} {e : RouteEvent} {userId : UUID}
  {s s' t : Server} {tr more : List ServerTransition} {k : RouteRequest} {past : RouteLog}
  {l : ServerAction}

theorem filter_snoc_other {α : Type} {p : α → Bool} {rows : List α} {row : α}
    (other : p row = false) : (rows ++ [row]).filter p = rows.filter p := by
  rw [List.filter_append, List.filter_singleton, other]
  exact List.append_nil _

/-- Rows that are replaced in place, and look the same where the filter takes them. -/
theorem map_filter_map {α β : Type} {p : α → Bool} {f : α → α} {g : α → β} {rows : List α}
    (same : ∀ row, p (f row) = p row) (kept : ∀ row, p row → g (f row) = g row) :
    ((rows.map f).filter p).map g = (rows.filter p).map g := by
  have filters : p ∘ f = p := funext same
  rw [List.filter_map, List.map_map, filters]
  exact List.map_congr_left fun row mem => kept row (List.of_mem_filter mem)

theorem filter_map_kept {α : Type} {p : α → Bool} {f : α → α} {rows : List α}
    (same : ∀ row, p (f row) = p row) (kept : ∀ row, p row → f row = row) :
    (rows.map f).filter p = rows.filter p := by
  have mapped : ((rows.map f).filter p).map id = (rows.filter p).map id :=
    map_filter_map same kept
  rwa [List.map_id, List.map_id] at mapped

theorem account_eq
    (profile : (w'.accounts.users.filter fun user => user.id = userId) =
      w.accounts.users.filter fun user => user.id = userId)
    (passkeys : (w'.accounts.credentials.filter fun c => c.userId = userId).map
      CredentialRow.bare = (w.accounts.credentials.filter fun c => c.userId = userId).map
      CredentialRow.bare) : w'.account userId = w.account userId := by
  rw [Store.account, Store.account, profile, passkeys]

/-- Another call leaves the account of a user as it is. -/
theorem Effect.account (effect : Effect site draws (w.tick draws) e w') (fresh : draws.Fresh w)
    (ids : w.Ids) (known : ∃ user ∈ w.accounts.users, user.id = userId)
    (other : ¬WritesTo userId e.1) : w'.account userId = w.account userId := by
  cases effect with
  | registered emailFree passkeyFree =>
      -- the new user has an id of their own
      obtain ⟨user, mem, rfl⟩ := known
      have ne : draws.choices.userId ≠ user.id := fun same => ids.user_ne fresh user mem same.symm
      apply account_eq
      · exact filter_snoc_other (decide_eq_false ne)
      · exact congrArg _ (filter_snoc_other (decide_eq_false ne))
  | @added owner _ _ _ there passkeyFree =>
      have ne : owner ≠ userId := other
      apply account_eq
      · exact Eq.refl _
      · exact congrArg _ (filter_snoc_other (decide_eq_false ne))
  | @deleted seen id owner =>
      have ne : owner ≠ userId := other
      apply account_eq
      · exact Eq.refl _
      apply congrArg
      show List.filter _ (List.filter _ _) = _
      rw [List.filter_filter]
      apply List.filter_congr
      intro c _
      by_cases own : c.userId = userId
      · have stays : Statement.isTarget id owner c = false :=
          decide_eq_false fun hit => ne (hit.2.symm.trans own)
        rw [stays, Bool.not_false, Bool.and_true]
      · rw [decide_eq_false own, Bool.false_and]
  | @bumped signCount id =>
      apply account_eq
      · exact Eq.refl _
      apply map_filter_map
      · intro c
        split <;> rfl
      · intro c _
        split <;> rfl
  | @updated id email displayName user found emailFree =>
      have ne : id ≠ userId := other
      apply account_eq
      · apply filter_map_kept
        · intro row
          split <;> rfl
        · intro row mine
          exact if_neg fun hit => ne (hit.symm.trans (of_decide_eq_true mine))
      · exact Eq.refl _
  | _ => rfl

/-- A user that is known stays known, as the account says. -/
theorem account_known (same : w'.account userId = w.account userId)
    (known : ∃ user ∈ w.accounts.users, user.id = userId) :
    ∃ user ∈ w'.accounts.users, user.id = userId := by
  obtain ⟨user, mem, own⟩ := known
  have inside : user ∈ (w.account userId).profile :=
    List.mem_filter.mpr ⟨mem, decide_eq_true own⟩
  rw [← same] at inside
  obtain ⟨mem', own'⟩ := List.mem_filter.mp inside
  exact ⟨user, mem', of_decide_eq_true own'⟩

/-- What writes to an account is signed in as its user. -/
theorem WritesTo.signedIn {c : RouteCall} (writes : WritesTo userId c)
    (warrant : k.Warrants site past c) : ∃ user, SignedIn site k.cookies past user ∧
      user.id = userId := by
  cases c with
  | account c =>
      cases c with
      | insertCredential owner _ _ _ =>
          obtain ⟨user, _, signedIn, same, -⟩ := warrant
          exact ⟨user, signedIn, same.trans writes⟩
      | deleteCredential _ _ owner =>
          obtain ⟨user, signedIn, same⟩ := warrant
          exact ⟨user, signedIn, same.trans writes⟩
      | _ => exact writes.elim
  | updateAccount owner _ _ =>
      obtain ⟨user, signedIn, same⟩ := warrant
      exact ⟨user, signedIn, same.trans writes⟩
  | _ => exact writes.elim

/-- The request presents a session of the user. -/
def Presents (site : Site) (tr : List ServerTransition) (userId : UUID) (k : RouteRequest) : Prop :=
  ∃ token, k.cookies.session = some token ∧ Rooted site tr (.session (site.digest token), userId)

theorem Presents.append (more : List ServerTransition) (presents : Presents site tr userId k) :
    Presents site (tr ++ more) userId k := by
  obtain ⟨token, cookie, rooted⟩ := presents
  exact ⟨token, cookie, rooted.append more⟩

/-- A step changes an account only if its request presents a session of the user. -/
theorem Server.Step.account (before : History (Server.Step site) Server.empty tr s)
    (step : Server.Step site s l s') (known : ∃ user ∈ s.world.accounts.users, user.id = userId) :
    s'.world.account userId = s.world.account userId ∨
      ∃ k past e, l = .call k past e ∧ WritesTo userId e.1 ∧ Presents site tr userId k := by
  rcases step.cases with ⟨same, -⟩ | ⟨k, past, e, draws, rfl, fresh, effect⟩
  · exact .inl (congrArg (fun w => w.account userId) same)
  by_cases writes : WritesTo userId e.1
  · obtain ⟨user, ⟨token, cookie, answered⟩, rfl⟩ :=
      writes.signedIn (Server.warranted before step)
    obtain ⟨x, mem, past', label⟩ := Server.recalled before step answered
    have rooted := Server.rooted before (Server.session_known before mem label)
    exact .inr ⟨k, past, e, rfl, writes, token, cookie, rooted⟩
  · exact .inl (effect.account fresh (Server.ids before) known writes)

/-- **Nobody else changes an account**: as long as no request that presents a session of the
user writes to it, the profile and the passkeys stay as they are. -/
theorem account_kept (before : History (Server.Step site) Server.empty tr s)
    (known : ∃ user ∈ s.world.accounts.users, user.id = userId)
    (later : History (Server.Step site) s more s')
    (apart : ∀ x ∈ more, ∀ k past e, x.label = .call k past e → WritesTo userId e.1 →
      ¬Presents site (tr ++ more) userId k) :
    s'.world.account userId = s.world.account userId := by
  induction later with
  | start => rfl
  | @next more t u l earlier step ih =>
      obtain ⟨kept, last⟩ := forall_mem_snoc.mp apart
      have same := ih fun x mem k past e label writes presents => kept x mem k past e label writes
        (by rw [← List.append_assoc]; exact presents.append _)
      rcases Server.Step.account (before.append earlier) step (account_known same known) with
        unchanged | ⟨k, past, e, rfl, writes, presents⟩
      · exact unchanged.trans same
      · refine (last k past e rfl writes ?_).elim
        rw [← List.append_assoc]
        exact presents.append _

end Accounts

/-- Somebody logs in with Ada's passkey, the twenty-third call being the new session. -/
def loggingInLater : List (Pool.Move RouteRequest Draws) :=
  .start .loginBegin :: inTurn 2 14 4 ++
    .start (.loginFinish { ceremony := some "00000000000000000000000000000023" } passkey) ::
      inTurn 3 18 9

/-- The request of the step has no session. -/
def sessionless (x : ServerTransition) : Bool :=
  match x.label with
  | .start _ => true
  | .call k _ _ => k.cookies.session.isNone

theorem account_kept_loggingInLater : ∃ (s s' : Server) (tr more : List ServerTransition),
    History (Server.Step localhost) Server.empty tr s ∧
      History (Server.Step localhost) s more s' ∧ s'.world.sessions.length = 2 ∧
      s'.world.account 20 = s.world.account 20 := by
  have counted : ((Server.play localhost (fun _ => true) registering).bind fun s =>
      (Server.playOn localhost sessionless s loggingInLater).map fun s' =>
        (s.world.accounts.users.map (·.id), s'.world.sessions.length)) = some ([20], 2) := by
    decide +kernel
  obtain ⟨s, played, later⟩ := Option.bind_eq_some_iff.mp counted
  obtain ⟨s', playedOn, same⟩ := Option.map_eq_some_iff.mp later
  obtain ⟨ada, two⟩ := Prod.mk.inj same
  obtain ⟨tr, before, -⟩ := Server.play_history played
  obtain ⟨more, after, passed⟩ := playServed_history .start (List.forall_mem_nil _) playedOn
  have known : ∃ user ∈ s.world.accounts.users, user.id = 20 :=
    List.mem_map.mp (ada ▸ List.mem_singleton_self _)
  refine ⟨s, s', tr, [] ++ more, before, after, two, account_kept before known after ?_⟩
  intro x mem k past e label _ presents
  obtain ⟨token, cookie, -⟩ := presents
  have none := passed x mem
  rw [sessionless, label] at none
  simp [cookie] at none

end Intellivault.Auth
