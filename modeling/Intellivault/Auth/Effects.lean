import Intellivault.Auth.Protocol

/-!
# What a call does to the tables

`Effect` has one case for each statement that writes, and one for everything else; the rows
of a case are those the statement adds or takes.  Every invariant of the tables is a case
analysis on it.
-/

namespace Intellivault.Auth

open Lib

/-! ## Rows -/

/-- The insertion of a challenge. -/
def ChallengeRow.stored (row : ChallengeRow) : RouteEvent :=
  ⟨.storeChallenge row.challenge row.userId row.email row.displayName row.expiresAt, .ok row.id⟩

/-- Its removal by a finish request. -/
def ChallengeRow.consumed (row : ChallengeRow) : RouteEvent := ⟨.popChallenge row.id, .ok (some row)⟩

def newUser (draws : Draws) (email displayName : String) : UserRow :=
  { id := draws.choices.userId, email, displayName, createdAt := draws.choices.now }

def newCredential (draws : Draws) (userId : UUID) (verified : Verified) (transports : List String)
    (name : String) : CredentialRow :=
  { id := draws.choices.id, userId, credentialId := verified.credentialId
    publicKey := verified.credentialPublicKey, signCount := verified.signCount
    transports, aaguid := verified.aaguid, name, createdAt := draws.choices.now }

def newSession (draws : Draws) (userId : UUID) (tokenHash : Bytes) (expiresAt : Int) : SessionRow :=
  { id := draws.choices.id, userId, tokenHash, createdAt := draws.choices.now, expiresAt
    lastSeenAt := draws.choices.now }

/-- The call writes to a table, or draws a token. -/
def writes : RouteEvent → Bool
  | ⟨.account (.registration _ _ _ _), .ok _⟩ | ⟨.account (.insertCredential _ _ _ _), .ok _⟩
  | ⟨.account (.deleteCredential _ _ _), .ok (some _)⟩ | ⟨.sweepChallenges, .ok _⟩
  | ⟨.storeChallenge _ _ _ _ _, .ok _⟩ | ⟨.popChallenge _, .ok (some _)⟩
  | ⟨.tokenUrlsafe, .ok _⟩ | ⟨.sweepSessions, .ok _⟩ | ⟨.insertSession _ _ _, .ok _⟩
  | ⟨.resolveSession _, .ok _⟩ | ⟨.revokeSession _, .ok _⟩ | ⟨.updateSignCount _ _, .ok _⟩
  | ⟨.updateAccount _ _ _, .ok (some _)⟩ => true
  | _ => false

/-- The call `e` at the time of `w`, and the world after it. -/
inductive Effect (site : Site) (draws : Draws) (w : Store) : RouteEvent → Store → Prop
  | idle {e : RouteEvent} : writes e = false → Effect site draws w e w
  | registered {email displayName : String} {verified : Verified} {transports : List String}
      (emailFree : ∀ user ∈ w.accounts.users, site.lower user.email ≠ site.lower email)
      (passkeyFree : ∀ c ∈ w.accounts.credentials, c.credentialId ≠ verified.credentialId) :
      Effect site draws w
        ⟨.account (.registration email displayName verified transports),
          .ok (newUser draws email displayName)⟩
        { w with
          accounts :=
            { users := w.accounts.users ++ [newUser draws email displayName]
              credentials := w.accounts.credentials ++
                [newCredential draws draws.choices.userId verified transports "Passkey"] } }
  | added {userId : UUID} {verified : Verified} {transports : List String} {name : String}
      (known : ∃ user ∈ w.accounts.users, user.id = userId)
      (passkeyFree : ∀ c ∈ w.accounts.credentials, c.credentialId ≠ verified.credentialId) :
      Effect site draws w
        ⟨.account (.insertCredential userId verified transports name), .ok draws.choices.id⟩
        { w with
          accounts := { w.accounts with
            credentials := w.accounts.credentials ++
              [newCredential draws userId verified transports name] } }
  | deleted {seen : Db} {id userId : UUID} :
      Effect site draws w ⟨.account (.deleteCredential seen id userId), .ok (some id)⟩
        { w with accounts := Statement.remove id userId w.accounts }
  | sweptChallenges : Effect site draws w ⟨.sweepChallenges, .ok ()⟩ (Statement.sweepChallenges w)
  | stored {row : ChallengeRow} (drawn : row.id = draws.choices.id) :
      Effect site draws w row.stored { w with challenges := w.challenges ++ [row] }
  | consumed {row : ChallengeRow} (mem : row ∈ w.challenges) (inTime : w.now < row.expiresAt) :
      Effect site draws w row.consumed (Statement.popChallenge row.id w).2
  | drawn : Effect site draws w ⟨.tokenUrlsafe, .ok draws.token⟩
      { w with tokens := draws.token :: w.tokens }
  | sweptSessions : Effect site draws w ⟨.sweepSessions, .ok ()⟩ (Statement.sweepSessions w)
  | issued {userId : UUID} {tokenHash : Bytes} {expiresAt : Int}
      (hashFree : ∀ s ∈ w.sessions, s.tokenHash ≠ tokenHash)
      (known : ∃ user ∈ w.accounts.users, user.id = userId) :
      Effect site draws w ⟨.insertSession userId tokenHash expiresAt, .ok ()⟩
        { w with sessions := w.sessions ++ [newSession draws userId tokenHash expiresAt] }
  | resolved {tokenHash : Bytes} :
      Effect site draws w
        ⟨.resolveSession tokenHash, .ok (Statement.resolveSession tokenHash w).1⟩
        (Statement.resolveSession tokenHash w).2
  | revoked {tokenHash : Bytes} :
      Effect site draws w ⟨.revokeSession tokenHash, .ok ()⟩ (Statement.revokeSession tokenHash w)
  | bumped {signCount : Nat} {id : UUID} :
      Effect site draws w ⟨.updateSignCount signCount id, .ok ()⟩
        (Statement.updateSignCount signCount id w)
  | updated {id : UUID} {email displayName : String} {user : UserRow}
      (found : (w.accounts.users.find? fun user => user.id = id) = some user)
      (emailFree : ∀ other ∈ w.accounts.users, other.id ≠ id →
        site.lower other.email ≠ site.lower email) :
      Effect site draws w
        ⟨.updateAccount id email displayName, .ok (some { user with email, displayName })⟩
        { w with
          accounts := { w.accounts with
            users := w.accounts.users.map fun row =>
              if row.id = id then { row with email, displayName } else row } }

/-! ## Every answer has an effect -/

section Effects

variable {site : Site} {draws : Draws} {w : Store}

theorem insertUser_inserted {lower : String → String} {id : UUID} {now : Time}
    {email displayName : String} {db db' : Db} {user : UserRow}
    (done : Statement.insertUser lower id now email displayName db = .ok (some user, db')) :
    user = { id, email, displayName, createdAt := now } ∧
      db' = { db with users := db.users ++ [user] } ∧
      ∀ other ∈ db.users, lower other.email ≠ lower email := by
  unfold Statement.insertUser at done
  split at done
  · cases done
  split at done
  · cases done
  · rename_i free
    cases done
    exact ⟨rfl, rfl, fun other mem same => free ⟨other, mem, .inr same⟩⟩

theorem insertCredential_inserted {id newId : UUID} {now : Time} {userId : UUID}
    {verified : Verified} {transports : List String} {name : String} {db db' : Db}
    (done : Statement.insertCredential id now userId verified transports name db =
      .ok (newId, db')) :
    newId = id ∧ (∃ user ∈ db.users, user.id = userId) ∧
      (∀ c ∈ db.credentials, c.credentialId ≠ verified.credentialId) ∧
      db' = { db with
        credentials := db.credentials ++ [{
          id, userId, credentialId := verified.credentialId
          publicKey := verified.credentialPublicKey, signCount := verified.signCount
          transports, aaguid := verified.aaguid, name, createdAt := now }] } := by
  unfold Statement.insertCredential at done
  split at done
  · cases done
  rename_i free
  split at done
  · cases done
  · rename_i known
    cases done
    exact ⟨rfl, not_not.mp known, fun c mem same => free ⟨c, mem, .inr same⟩, rfl⟩

/-- The transaction added the user and the passkey. -/
theorem registration_registered {lower : String → String} {userId id : UUID} {now : Time}
    {email displayName : String} {verified : Verified} {transports : List String} {db db' : Db}
    {user : UserRow}
    (done : registration lower userId id now email displayName verified transports db =
      .ok (user, db')) :
    user = { id := userId, email, displayName, createdAt := now } ∧
      (∀ other ∈ db.users, lower other.email ≠ lower email) ∧
      (∀ c ∈ db.credentials, c.credentialId ≠ verified.credentialId) ∧
      db' = {
        users := db.users ++ [user]
        credentials := db.credentials ++ [{
          id, userId, credentialId := verified.credentialId
          publicKey := verified.credentialPublicKey, signCount := verified.signCount
          transports, aaguid := verified.aaguid, name := "Passkey", createdAt := now }] } := by
  unfold registration at done
  split at done
  · cases done
  · cases done
  · rename_i row middle inserted
    obtain ⟨rowIs, rfl, emailFree⟩ := insertUser_inserted inserted
    split at done
    · cases done
    · rename_i newId last stored
      obtain ⟨-, -, passkeyFree, rfl⟩ := insertCredential_inserted stored
      cases done
      subst rowIs
      exact ⟨rfl, emailFree, passkeyFree, rfl⟩

theorem storeChallenge_stored {id newId : UUID} {challenge : Bytes} {userId : Option UUID}
    {email displayName : Option String} {expiresAt : Time} {w' : Store}
    (done : Statement.storeChallenge id challenge userId email displayName expiresAt w =
      .ok (newId, w')) :
    newId = id ∧ w' = { w with
      challenges := w.challenges ++ [{ id, challenge, userId, email, displayName, expiresAt }] } := by
  unfold Statement.storeChallenge at done
  split at done
  · cases done
  split at done
  · cases done
  · cases done
    exact ⟨rfl, rfl⟩

theorem insertSession_issued {id userId : UUID} {tokenHash : Bytes} {expiresAt : Int} {w' : Store}
    {a : Unit} (done : Statement.insertSession id userId tokenHash expiresAt w = .ok (a, w')) :
    (∀ s ∈ w.sessions, s.tokenHash ≠ tokenHash) ∧
      (∃ user ∈ w.accounts.users, user.id = userId) ∧
      w' = { w with
        sessions := w.sessions ++
          [{ id, userId, tokenHash, createdAt := w.now, expiresAt, lastSeenAt := w.now }] } := by
  unfold Statement.insertSession at done
  split at done
  · cases done
  rename_i free
  split at done
  · cases done
  · rename_i known
    cases done
    exact ⟨fun s mem same => free ⟨s, mem, .inr same⟩, not_not.mp known, rfl⟩

theorem updateAccount_updated {lower : String → String} {id : UUID} {email displayName : String}
    {w' : Store} {user : Option UserRow}
    (done : Statement.updateAccount lower id email displayName w = .ok (user, w')) :
    user = none ∧ w' = w ∨ ∃ row, (w.accounts.users.find? fun user => user.id = id) = some row ∧
      user = some { row with email, displayName } ∧
      (∀ other ∈ w.accounts.users, other.id ≠ id → lower other.email ≠ lower email) ∧
      w' = { w with
        accounts := { w.accounts with
          users := w.accounts.users.map fun row =>
            if row.id = id then { row with email, displayName } else row } } := by
  unfold Statement.updateAccount at done
  split at done
  · cases done
    exact .inl ⟨rfl, rfl⟩
  rename_i row found
  split at done
  · cases done
  · rename_i free
    cases done
    exact .inr ⟨row, found, rfl, fun other mem ne same => free ⟨other, mem, ne, .inr same⟩, rfl⟩

/-- A pop that returns nothing removes nothing. -/
theorem popChallenge_none {id : UUID} (missing : (Statement.popChallenge id w).1 = none) :
    (Statement.popChallenge id w).2 = w := by
  have absent := List.find?_eq_none.mp missing
  have all : (w.challenges.filter fun c => !Statement.isPending id w.now c) = w.challenges :=
    List.filter_eq_self.mpr fun c mem => by simpa using absent c mem
  show { w with challenges := _ } = w
  rw [all]

theorem popChallenge_some {id : UUID} {row : ChallengeRow}
    (popped : (Statement.popChallenge id w).1 = some row) :
    row ∈ w.challenges ∧ row.id = id ∧ w.now < row.expiresAt := by
  have pending := List.find?_some popped
  simp only [Statement.isPending, decide_eq_true_eq] at pending
  exact ⟨List.mem_of_find?_eq_some popped, pending⟩

theorem deleteCredential_done (seen : Db) (id userId : UUID) (db : Db) :
    Statement.deleteCredential seen id userId db = (none, db) ∨
      Statement.deleteCredential seen id userId db = (some id, Statement.remove id userId db) := by
  unfold Statement.deleteCredential
  split
  · exact .inr rfl
  · exact .inl rfl

/-- Every answer is one of the cases. -/
theorem respond_effect {c : RouteCall} (now : w.now = draws.choices.now) :
    Effect site draws w ⟨c, (c.respond site draws w).1⟩ (c.respond site draws w).2 := by
  cases c with
  | account c =>
      cases c with
      | registration email displayName verified transports =>
          simp only [RouteCall.respond, Call.respond]
          split
          · rename_i user after ran
            obtain ⟨rfl, emailFree, passkeyFree, rfl⟩ := registration_registered ran
            exact .registered emailFree passkeyFree
          · exact .idle rfl
      | insertCredential userId verified transports name =>
          simp only [RouteCall.respond, Call.respond]
          split
          · rename_i id after ran
            obtain ⟨rfl, known, passkeyFree, rfl⟩ := insertCredential_inserted ran
            exact .added known passkeyFree
          · exact .idle rfl
      | deleteCredential seen id userId =>
          simp only [RouteCall.respond, Call.respond]
          rcases deleteCredential_done seen id userId w.accounts with kept | removed
          · rw [kept]
            exact .idle rfl
          · rw [removed]
            exact .deleted
      | _ => exact .idle rfl
  | sweepChallenges => exact .sweptChallenges
  | storeChallenge challenge userId email displayName expiresAt =>
      simp only [RouteCall.respond, settle]
      split
      · rename_i id after ran
        obtain ⟨rfl, rfl⟩ := storeChallenge_stored ran
        show Effect site draws w
          (ChallengeRow.stored ⟨_, challenge, userId, email, displayName, expiresAt⟩) _
        exact .stored rfl
      · exact .idle rfl
  | popChallenge id =>
      simp only [RouteCall.respond]
      cases popped : (Statement.popChallenge id w).1 with
      | none =>
          rw [popChallenge_none popped]
          exact .idle rfl
      | some row =>
          obtain ⟨mem, rfl, inTime⟩ := popChallenge_some popped
          exact .consumed mem inTime
  | tokenUrlsafe => exact .drawn
  | sweepSessions => exact .sweptSessions
  | insertSession userId tokenHash expiresAt =>
      simp only [RouteCall.respond, settle]
      split
      · rename_i a after ran
        obtain ⟨hashFree, known, rfl⟩ := insertSession_issued ran
        have effect : Effect site draws w ⟨.insertSession userId tokenHash expiresAt, .ok ()⟩ _ :=
          .issued hashFree known
        rw [newSession, ← now] at effect
        exact effect
      · exact .idle rfl
  | resolveSession tokenHash => exact .resolved
  | revokeSession tokenHash => exact .revoked
  | updateSignCount signCount id => exact .bumped
  | updateAccount id email displayName =>
      simp only [RouteCall.respond, settle]
      split
      · rename_i user after ran
        rcases updateAccount_updated ran with ⟨rfl, rfl⟩ | ⟨row, found, rfl, emailFree, rfl⟩
        · exact .idle rfl
        · exact .updated found emailFree
      · exact .idle rfl
  | _ => exact .idle rfl

theorem served_effect {c : RouteCall} {w' : Store} {r : Except Exn c.Answer}
    (answer : served site c w r w') :
    ∃ draws : Draws, draws.Fresh w ∧ Effect site draws (w.tick draws) ⟨c, r⟩ w' := by
  obtain ⟨draws, fresh, ⟨rfl, rfl⟩ | ⟨⟨message, rfl⟩, rfl⟩⟩ := answer
  · exact ⟨draws, fresh, respond_effect rfl⟩
  · refine ⟨draws, fresh, .idle ?_⟩
    cases c with
    | account c => cases c <;> rfl
    | _ => rfl

/-- No call turns the clock or forgets an id. -/
theorem Effect.steady {e : RouteEvent} {w' : Store} (effect : Effect site draws w e w') :
    w'.now = w.now ∧ w'.minted = w.minted := by
  cases effect <;> exact ⟨rfl, rfl⟩

/-! ## Ids -/

/-- Users and passkeys have ids of their own, which were drawn. -/
structure Store.Ids (w : Store) : Prop where
  users : (w.accounts.users.map (·.id)).Nodup
  credentials : (w.accounts.credentials.map (·.id)).Nodup
  userMinted : ∀ user ∈ w.accounts.users, user.id ∈ w.minted
  credentialMinted : ∀ c ∈ w.accounts.credentials, c.id ∈ w.minted

theorem minted_tick {id : UUID} (known : id ∈ w.minted) : id ∈ (w.tick draws).minted :=
  List.mem_cons_of_mem _ (List.mem_cons_of_mem _ known)

theorem nodup_snoc {α κ : Type} {key : α → κ} {rows : List α} {row : α}
    (distinct : (rows.map key).Nodup) (fresh : ∀ other ∈ rows, key other ≠ key row) :
    ((rows ++ [row]).map key).Nodup := by
  rw [List.map_append, List.nodup_append]
  refine ⟨distinct, by simp, fun a old b new same => ?_⟩
  obtain ⟨other, mem, rfl⟩ := List.mem_map.mp old
  rw [List.mem_singleton.mp new] at same
  exact fresh other mem same

theorem Store.Ids.tick (ids : w.Ids) : (w.tick draws).Ids where
  users := ids.users
  credentials := ids.credentials
  userMinted user mem := minted_tick (ids.userMinted user mem)
  credentialMinted c mem := minted_tick (ids.credentialMinted c mem)

/-- The draws of a call are new. -/
theorem Store.Ids.user_ne (ids : w.Ids) (fresh : draws.Fresh w) :
    ∀ user ∈ w.accounts.users, user.id ≠ draws.choices.userId := by
  intro user mem same
  have known := ids.userMinted user mem
  rw [same] at known
  exact fresh.userId known

theorem Store.Ids.credential_ne (ids : w.Ids) (fresh : draws.Fresh w) :
    ∀ c ∈ w.accounts.credentials, c.id ≠ draws.choices.id := by
  intro c mem same
  have known := ids.credentialMinted c mem
  rw [same] at known
  exact fresh.id known

theorem Effect.ids {e : RouteEvent} {w' : Store} (ids : w.Ids) (fresh : draws.Fresh w)
    (effect : Effect site draws (w.tick draws) e w') : w'.Ids := by
  have ticked : (w.tick draws).Ids := ids.tick
  have drawn : draws.choices.id ∈ (w.tick draws).minted := List.mem_cons_self
  have userDrawn : draws.choices.userId ∈ (w.tick draws).minted :=
    List.mem_cons_of_mem _ List.mem_cons_self
  cases effect with
  | registered emailFree passkeyFree =>
      refine ⟨nodup_snoc ids.users (ids.user_ne fresh),
        nodup_snoc ids.credentials (ids.credential_ne fresh), ?_, ?_⟩
      · exact forall_mem_snoc.mpr ⟨ticked.userMinted, userDrawn⟩
      · exact forall_mem_snoc.mpr ⟨ticked.credentialMinted, drawn⟩
  | added known passkeyFree =>
      refine ⟨ids.users, nodup_snoc ids.credentials (ids.credential_ne fresh),
        ticked.userMinted, ?_⟩
      exact forall_mem_snoc.mpr ⟨ticked.credentialMinted, drawn⟩
  | deleted =>
      refine ⟨ids.users, (List.filter_sublist.map _).nodup ids.credentials, ticked.userMinted, ?_⟩
      exact fun c mem => ticked.credentialMinted c (List.mem_of_mem_filter mem)
  | bumped =>
      refine ⟨ids.users, ?_, ticked.userMinted, ?_⟩
      · rw [Statement.updateSignCount, List.map_map]
        refine Eq.mp (congrArg List.Nodup (List.map_congr_left fun c _ => ?_)) ids.credentials
        show c.id = (if c.id = _ then _ else c : CredentialRow).id
        split <;> rfl
      · intro c mem
        obtain ⟨old, inside, rfl⟩ := List.mem_map.mp mem
        have known := ticked.credentialMinted old inside
        split <;> exact known
  | updated found emailFree =>
      refine ⟨?_, ids.credentials, ?_, ticked.credentialMinted⟩
      · rw [List.map_map]
        refine Eq.mp (congrArg List.Nodup (List.map_congr_left fun user _ => ?_)) ids.users
        show user.id = (if user.id = _ then _ else user : UserRow).id
        split <;> rfl
      · intro user mem
        obtain ⟨old, inside, rfl⟩ := List.mem_map.mp mem
        have known := ticked.userMinted old inside
        split <;> exact known
  | _ => exact ⟨ids.users, ids.credentials, ticked.userMinted, ticked.credentialMinted⟩

end Effects

/-! ## Steps of the site -/

section Steps

variable {site : Site} {s s' : Server} {l : ServerAction}

/-- A step changes nothing, or it is a call with its effect. -/
theorem served_step {K : Type} {body : K → Route Unit}
    {pool pool' : Pool K RouteCall RouteCall.Answer Exn Store}
    {l : Action K RouteCall RouteCall.Answer Exn}
    (step : Pool.Step body (served site) comes pool l pool') :
    pool'.world = pool.world ∧ (∃ k, l = .start k) ∨
      ∃ k past e draws, l = .call k past e ∧ Draws.Fresh draws pool.world ∧
        Effect site draws (pool.world.tick draws) e pool'.world := by
  cases step with
  | start started => exact .inl ⟨started, _, rfl⟩
  | call answer =>
      obtain ⟨draws, fresh, effect⟩ := served_effect answer
      exact .inr ⟨_, _, _, draws, rfl, fresh, effect⟩

theorem Server.Step.cases (step : Server.Step site s l s') :
    s'.world = s.world ∧ (∃ k, l = .start k) ∨
      ∃ k past e draws, l = .call k past e ∧ Draws.Fresh draws s.world ∧
        Effect site draws (s.world.tick draws) e s'.world := served_step step

theorem Server.Step.ids (step : Server.Step site s l s') (ids : s.world.Ids) : s'.world.Ids := by
  rcases step.cases with ⟨same, -⟩ | ⟨_, _, _, draws, -, fresh, effect⟩
  · rwa [same]
  · exact effect.ids ids fresh

/-- What has been drawn stays drawn. -/
theorem Server.Step.minted (step : Server.Step site s l s') :
    s.world.minted ⊆ s'.world.minted := by
  rcases step.cases with ⟨same, -⟩ | ⟨_, _, _, draws, -, -, effect⟩
  · rw [same]
    exact List.Subset.refl _
  · rw [effect.steady.2]
    exact fun id known => minted_tick known

theorem Server.ids {tr : List ServerTransition}
    (history : History (Server.Step site) Server.empty tr s) : s.world.Ids := by
  induction history with
  | start => exact ⟨List.nodup_nil, List.nodup_nil, List.forall_mem_nil _, List.forall_mem_nil _⟩
  | next before step ih => exact step.ids ih

end Steps

end Intellivault.Auth
