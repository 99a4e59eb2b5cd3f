import Intellivault.Lib.Yields
import Intellivault.Auth.Protocol

/-!
# What a route has at hand when it writes

`Auth.Protocol` says which statements a route issues; here is in whose name.  Before a
statement that writes to an account, the log of the request has the session it is signed in
with, the passkey that signed its challenge, or the registration it has just made.
-/

namespace Intellivault.Auth

open Lib Prog

/-! ## Warrants -/

/-- The request has registered this user. -/
def Registered (log : RouteLog) (user : UserRow) : Prop :=
  ∃ email displayName verified transports,
    Answered log (.account (.registration email displayName verified transports)) user

/-- A new passkey was verified under a challenge that the request has consumed. -/
def Attested (log : RouteLog) (row : ChallengeRow) (verified : Verified) : Prop :=
  Popped log row ∧
    ∃ credential, Answered log (.account (.verify row.challenge credential)) verified

/-- A passkey has signed a challenge that the request has consumed. -/
def Asserted (log : RouteLog) (passkey : CredentialRow) (user : UserRow) : Prop :=
  ∃ rawId row credential signCount, Popped log row ∧
    Answered log (.credentialWithUser rawId) (some (passkey, user)) ∧
    Answered log (.verifyAuthentication row.challenge credential passkey.publicKey
      passkey.signCount) signCount

theorem Popped.later {log log' : RouteLog} {row : ChallengeRow} (more : log ⊆ log')
    (popped : Popped log row) : Popped log' row := by
  obtain ⟨id, answered⟩ := popped
  exact ⟨id, answered.later more⟩

theorem Registered.later {log log' : RouteLog} {user : UserRow} (more : log ⊆ log')
    (registered : Registered log user) : Registered log' user := by
  obtain ⟨email, displayName, verified, transports, answered⟩ := registered
  exact ⟨email, displayName, verified, transports, answered.later more⟩

theorem Attested.later {log log' : RouteLog} {row : ChallengeRow} {verified : Verified}
    (more : log ⊆ log') (attested : Attested log row verified) : Attested log' row verified := by
  obtain ⟨popped, credential, answered⟩ := attested
  exact ⟨popped.later more, credential, answered.later more⟩

theorem Asserted.later {log log' : RouteLog} {passkey : CredentialRow} {user : UserRow}
    (more : log ⊆ log') (asserted : Asserted log passkey user) : Asserted log' passkey user := by
  obtain ⟨rawId, row, credential, signCount, popped, found, verified⟩ := asserted
  exact ⟨rawId, row, credential, signCount, popped.later more, found.later more,
    verified.later more⟩

/-- What a route has to have at hand when it writes to an account. -/
def RouteRequest.Warrants (site : Site) (k : RouteRequest) (log : RouteLog) : RouteCall → Prop
  | .account (.registration email displayName verified _) => ∃ row, Attested log row verified ∧
      row.email = some email ∧ row.displayName = some displayName
  | .account (.insertCredential userId verified _ _) => ∃ user row,
      SignedIn site k.cookies log user ∧ user.id = userId ∧ Attested log row verified ∧
        row.userId = some userId
  | .account (.deleteCredential _ _ userId) | .updateAccount userId _ _ =>
      ∃ user, SignedIn site k.cookies log user ∧ user.id = userId
  | .insertSession userId _ _ => ∃ user : UserRow, user.id = userId ∧
      (Registered log user ∨ ∃ passkey, Asserted log passkey user)
  | .account (.issueSession _) => False
  | _ => True

theorem warrants_lasting {site : Site} {k : RouteRequest} : Lasting (k.Warrants site) := by
  intro log log' c more warranted
  cases c with
  | account c =>
      cases c with
      | registration _ _ _ _ =>
          obtain ⟨row, attested, named⟩ := warranted
          exact ⟨row, attested.later more, named⟩
      | insertCredential _ _ _ _ =>
          obtain ⟨user, row, signedIn, same, attested, drawnFor⟩ := warranted
          exact ⟨user, row, signedIn.later more, same, attested.later more, drawnFor⟩
      | deleteCredential _ _ _ =>
          obtain ⟨user, signedIn, same⟩ := warranted
          exact ⟨user, signedIn.later more, same⟩
      | _ => exact warranted
  | updateAccount _ _ _ =>
      obtain ⟨user, signedIn, same⟩ := warranted
      exact ⟨user, signedIn.later more, same⟩
  | insertSession _ _ _ =>
      obtain ⟨user, same, opens⟩ := warranted
      refine ⟨user, same, opens.imp (Registered.later more) fun ⟨passkey, asserted⟩ => ?_⟩
      exact ⟨passkey, asserted.later more⟩
  | _ => exact warranted

/-! ## Every route has them -/

section Routes

variable {site : Site} {k : RouteRequest} {log : RouteLog}

/-- The calls are warranted, and a value is returned with a log that `post` holds of. -/
abbrev Warranted {α : Type} (site : Site) (k : RouteRequest) (post : α → RouteLog → Prop)
    (log : RouteLog) (p : Route α) : Prop := p.Yields Real (k.Warrants site) post log

theorem warranted_call {α : Type} {c : RouteCall} {f : c.Answer → Route α}
    {post : α → RouteLog → Prop} (warrant : k.Warrants site log c)
    (next : ∀ a, Warranted site k post (log ++ [⟨c, .ok a⟩]) (f a)) :
    Warranted site k post log (routeCall c >>= f) :=
  Yields.bind (yields_perform warrant fun a _ => next a)

theorem warranted_last {c : RouteCall} {post : c.Answer → RouteLog → Prop}
    (warrant : k.Warrants site log c) (last : ∀ a, post a (log ++ [⟨c, .ok a⟩])) :
    Warranted site k post log (routeCall c) :=
  yields_perform warrant fun a _ => last a

theorem storeChallenge_warranted {challenge : Bytes} {userId : Option UUID}
    {email displayName : Option String} :
    Warranted site k (fun _ _ => True) log (storeChallenge challenge userId email displayName) :=
  warranted_call trivial fun _ => warranted_call trivial fun _ =>
    warranted_last trivial fun _ => trivial

theorem pop_warranted {cookies : Cookies} :
    Warranted site k (fun row log => Popped log row) log (pop cookies) := by
  apply Yields.bind
  unfold popChallenge
  split
  · exact trivial
  split
  · exact trivial
  split
  · exact trivial
  · rename_i id _
    refine warranted_last trivial fun row => ?_
    cases row with
    | none => exact trivial
    | some row => exact ⟨id, answered_snoc⟩

theorem currentUser_warranted :
    Warranted site k (fun user log => ∃ row, user = sessionUser row ∧
      SignedIn site k.cookies log row) log (currentUser site k.cookies) := by
  apply Yields.bind
  rw [currentUserOptional]
  split
  · exact trivial
  rename_i token cookie
  split
  · exact trivial
  refine warranted_call trivial fun row => ?_
  cases row with
  | none => exact trivial
  | some row => exact ⟨row, rfl, token, cookie, answered_snoc⟩

theorem issueSession_warranted {user : UserRow}
    (opens : Registered log user ∨ ∃ passkey, Asserted log passkey user) :
    Warranted site k (fun _ _ => True) log (issueSession site user.id) := by
  refine warranted_call trivial fun token => warranted_call trivial fun now =>
    warranted_call trivial fun _ => warranted_call ?_ fun _ => trivial
  have more : log ⊆ log ++ [⟨.tokenUrlsafe, .ok token⟩] ++ [⟨.clock, .ok now⟩] ++
      [⟨.sweepSessions, .ok ()⟩] := subset_later (subset_later (subset_snoc _ _))
  refine ⟨user, rfl, opens.imp (Registered.later more) fun ⟨passkey, asserted⟩ => ?_⟩
  exact ⟨passkey, asserted.later more⟩

/-- A call of an account operation is made by its statements. -/
theorem statements_warranted {c : Call} {post : c.Answer → RouteLog → Prop}
    (program : Warranted site k post log (statements site c)) :
    Warranted site k post log ((call c).interp (statements site)) :=
  Yields.interp_perform program

/-- Most of them are one statement. -/
theorem account_warranted {α : Type} {c : Call} {f : c.Answer → Coroutine α}
    {post : α → RouteLog → Prop} (direct : statements site c = routeCall (.account c))
    (warrant : k.Warrants site log (.account c))
    (next : ∀ a, Warranted site k post (log ++ [⟨.account c, .ok a⟩])
      ((f a).interp (statements site))) :
    Warranted site k post log ((call c >>= f).interp (statements site)) := by
  apply Yields.interp_bind
  apply statements_warranted
  rw [direct]
  exact warranted_last warrant next

theorem verifyRegistration_warranted {challenge : Bytes} {credential : CeremonyResponse} :
    Warranted site k (fun (verified : Verified) log =>
      Answered log (.account (.verify challenge credential)) verified) log
      ((verifyRegistration challenge credential).interp (statements site)) := by
  have verifies : Warranted site k (fun (verified : Verified) log =>
      Answered log (.account (.verify challenge credential)) verified) log
      (routeCall (.account (.verify challenge credential))) :=
    warranted_last trivial fun _ => answered_snoc
  refine Yields.interp_handle (fun x log => ?_)
    (statements_warranted (c := .verify challenge credential) verifies)
  cases x <;> exact trivial

theorem registerFinish_warranted (cookies : Cookies) (credential : CeremonyResponse) :
    Warranted site k (fun _ _ => True) log (registerFinish site cookies credential) := by
  refine Yields.bind (pop_warranted.mono fun row log popped => ?_)
  unfold finishRegistration
  split
  · rename_i email displayName hasEmail hasName
    apply Yields.interp_bind
    apply Yields.grows
    refine verifyRegistration_warranted.mono fun verified log attests more => ?_
    have attested : Attested log row verified := ⟨popped.later more, credential, attests⟩
    refine account_warranted
      (c := .registration email displayName verified credential.transports) rfl
      ⟨row, attested, hasEmail, hasName⟩ fun user => ?_
    refine Yields.interp_bind
      (statements_warranted (c := .issueSession (sessionUser user).id) ?_)
    have registered : Registered (log ++ [⟨.account (.registration email displayName verified
        credential.transports), .ok user⟩]) user :=
      ⟨email, displayName, verified, credential.transports, answered_snoc⟩
    exact issueSession_warranted (.inl registered)
  · exact trivial

theorem addPasskeyFinish_warranted (cookies : Cookies) (req : AddPasskeyFinishRequest) :
    Warranted site (.addPasskeyFinish cookies req) (fun _ _ => True) log
      (addPasskeyFinish site cookies req) := by
  refine Yields.bind (currentUser_warranted.mono fun user log signedIn => ?_)
  obtain ⟨user, rfl, signedIn⟩ := signedIn
  refine Yields.bind (Yields.grows (pop_warranted.mono fun row log popped more => ?_))
  have signedIn := signedIn.later more
  unfold finishAddPasskey
  split
  · exact trivial
  rename_i same
  apply Yields.interp_bind
  apply Yields.grows
  refine verifyRegistration_warranted.mono fun verified log attests more => ?_
  have attested : Attested log row verified := ⟨popped.later more, req.credential, attests⟩
  apply Yields.interp_bind
  refine Yields.interp_handle (fun _ _ => trivial) (statements_warranted
    (c := .insertCredential user.id verified req.credential.transports req.name.val) ?_)
  refine warranted_last ⟨user, row, signedIn.later more, rfl, attested, not_not.mp same⟩ ?_
  intro newId
  refine account_warranted (c := .credentialSummaryById newId) rfl trivial fun found => ?_
  cases found <;> exact trivial

theorem removeCredential_warranted (cookies : Cookies) (credentialId : UUID) :
    Warranted site (.removeCredential cookies credentialId) (fun _ _ => True) log
      (removeCredential site cookies credentialId) := by
  refine Yields.bind (currentUser_warranted.mono fun user log signedIn => ?_)
  obtain ⟨user, rfl, signedIn⟩ := signedIn
  unfold deleteCredential deleteStatement
  apply Yields.interp_bind
  refine account_warranted (c := .snapshot) rfl trivial fun snapshot => ?_
  refine statements_warranted (c := .deleteCredential snapshot credentialId user.id) ?_
  refine warranted_last ⟨user, signedIn.later (subset_snoc _ _), rfl⟩ fun deleted => ?_
  split
  · exact trivial
  refine account_warranted (c := .credentialExists credentialId user.id) rfl trivial
    fun found => ?_
  split <;> exact trivial

theorem patchMe_warranted (cookies : Cookies) (req : UpdateAccountRequest) :
    Warranted site (.patchMe cookies req) (fun _ _ => True) log (patchMe site cookies req) := by
  refine Yields.bind (currentUser_warranted.mono fun user log signedIn => ?_)
  obtain ⟨user, rfl, signedIn⟩ := signedIn
  apply Yields.bind
  refine Yields.handle (fun x _ => ?_) (warranted_last ⟨user, signedIn, rfl⟩ fun row => ?_)
  · cases x <;> exact trivial
  · cases row <;> exact trivial

theorem bumpAndIssue_warranted {newSignCount : Nat} {credentialId : UUID} {user : UserRow}
    (opens : Registered log user ∨ ∃ passkey, Asserted log passkey user) :
    Warranted site k (fun _ _ => True) log
      (bumpAndIssue site newSignCount credentialId user.id) := by
  have bumps : Warranted site k (fun _ _ => True) log
      (routeCall (.updateSignCount newSignCount credentialId)) :=
    warranted_last trivial fun _ => trivial
  have gathered : Warranted site k (fun _ _ => True) log
      (both RouteCall.turn (fun (first : Bool) => first)
        (routeCall (.updateSignCount newSignCount credentialId)) (issueSession site user.id)) :=
    Yields.both warrants_lasting (fun _ => trivial) bumps (issueSession_warranted opens)
  refine Yields.bind (gathered.mono fun outcome _ _ => ?_)
  obtain ⟨bumped, issued⟩ := outcome
  cases bumped <;> cases issued <;> exact trivial

theorem loginFinish_warranted (cookies : Cookies) (credential : CeremonyResponse) :
    Warranted site k (fun _ _ => True) log (loginFinish site cookies credential) := by
  refine Yields.bind (pop_warranted.mono fun row log popped => ?_)
  apply Yields.bind
  rcases rawId_cases site credential with ⟨bytes, decoded⟩ | ⟨x, malformed⟩
  · rw [decoded]
    refine warranted_call trivial fun found => ?_
    cases found with
    | none => exact trivial
    | some found =>
        obtain ⟨passkey, owner⟩ := found
        apply Yields.bind
        refine Yields.handle (fun x _ => ?_) (warranted_last trivial fun signCount => ?_)
        · cases x <;> exact trivial
        have asserted : Asserted (log ++ [⟨.credentialWithUser bytes, .ok (some (passkey, owner))⟩] ++
            [⟨.verifyAuthentication row.challenge credential passkey.publicKey passkey.signCount,
              .ok signCount⟩]) passkey owner :=
          ⟨bytes, row, credential, signCount, popped.later (subset_later (subset_snoc _ _)),
            answered_snoc.later (subset_snoc _ _), answered_snoc⟩
        exact Yields.bind ((bumpAndIssue_warranted (.inr ⟨passkey, asserted⟩)).mono fun _ _ _ =>
          trivial)
  · rw [malformed]
    exact trivial

/-- Every route has its warrant for what it writes. -/
theorem body_warranted (k : RouteRequest) :
    (k.body site).Scripted Real (k.Warrants site) (fun _ _ => True) [] := by
  have drops : ∀ {α : Type} {p : Route α}, Warranted site k (fun _ _ => True) [] p →
      Warranted site k (fun _ _ => True) [] (p >>= fun _ => .ret ()) :=
    fun program => Yields.bind (program.mono fun _ _ _ => trivial)
  have ends : Warranted site k (fun _ _ => True) [] (k.body site) := by
    cases k with
    | registerBegin req =>
        refine drops (warranted_call trivial fun taken => ?_)
        cases taken with
        | true => exact trivial
        | false =>
            refine warranted_call trivial fun handle => warranted_call trivial fun challenge => ?_
            exact Yields.bind (storeChallenge_warranted.mono fun _ _ _ => trivial)
    | registerFinish cookies credential => exact drops (registerFinish_warranted cookies credential)
    | loginBegin =>
        refine drops (warranted_call trivial fun challenge => ?_)
        exact Yields.bind (storeChallenge_warranted.mono fun _ _ _ => trivial)
    | loginFinish cookies credential => exact drops (loginFinish_warranted cookies credential)
    | logout cookies =>
        show Warranted _ _ _ _ (logout site cookies)
        unfold logout
        split
        · exact trivial
        split
        · exact trivial
        · exact warranted_last trivial fun _ => trivial
    | me cookies =>
        have signs : Warranted site (.me cookies) (fun _ _ => True) []
            (currentUser site cookies) := currentUser_warranted.mono fun _ _ _ => trivial
        exact drops signs
    | patchMe cookies req => exact drops (patchMe_warranted cookies req)
    | getCredentials cookies =>
        refine drops (Yields.bind (currentUser_warranted.mono fun user _ _ => ?_))
        exact warranted_call trivial fun _ => trivial
    | addPasskeyBegin cookies =>
        refine drops (Yields.bind (currentUser_warranted.mono fun user _ _ => ?_))
        refine warranted_call trivial fun exclude => warranted_call trivial fun challenge => ?_
        exact Yields.bind (storeChallenge_warranted.mono fun _ _ _ => trivial)
    | addPasskeyFinish cookies req => exact drops (addPasskeyFinish_warranted cookies req)
    | removeCredential cookies credentialId =>
        exact removeCredential_warranted cookies credentialId
  exact Scripted.mono (fun _ _ _ => trivial) ends

end Routes

/-! ## The site has them -/

section Server

variable {site : Site} {s s' : Server} {tr : List ServerTransition}

theorem Server.warrants (history : History (Server.Step site) Server.empty tr s) :
    Pool.Scripted Real (RouteRequest.Warrants site) (fun _ _ _ => True) s := by
  induction history with
  | start => exact nofun
  | next before step ih =>
      exact Pool.Step.scripted (fun _ _ _ _ => served_real) body_warranted step ih

/-- The call of a step is warranted by what its request has logged. -/
theorem Server.warranted (before : History (Server.Step site) Server.empty tr s)
    {k : RouteRequest} {past : RouteLog} {e : RouteEvent}
    (step : Server.Step site s (.call k past e) s') : k.Warrants site past e.1 :=
  Pool.Step.allows step (Server.warrants before)

end Server

end Intellivault.Auth
