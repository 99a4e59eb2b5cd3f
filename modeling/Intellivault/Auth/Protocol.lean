import Intellivault.Auth.Routes

/-!
# What the auth routes call, and when

The script of each route: which statement it issues after which answers, and what its log
says once it has ended.  `served_scripted` puts it together for the whole site; from there on
no proof looks into a route.
-/

namespace Intellivault.Auth

open Lib Prog

abbrev RouteEvent := Event RouteCall RouteCall.Answer Exn

abbrev RouteLog := List RouteEvent

/-! ## Logs -/

/-- The call was answered so. -/
def Answered (log : RouteLog) (c : RouteCall) (a : c.Answer) : Prop :=
  (⟨c, .ok a⟩ : RouteEvent) ∈ log

theorem Answered.later {log log' : RouteLog} {c : RouteCall} {a : c.Answer} (more : log ⊆ log')
    (answered : Answered log c a) : Answered log' c a := more answered

theorem answered_snoc {log : RouteLog} {c : RouteCall} {a : c.Answer} :
    Answered (log ++ [⟨c, .ok a⟩]) c a := List.mem_append_right _ (List.mem_singleton_self _)

/-- The challenge was consumed. -/
def Popped (log : RouteLog) (row : ChallengeRow) : Prop :=
  ∃ id, Answered log (.popChallenge id) (some row)

def RouteRequest.cookies : RouteRequest → Cookies
  | .registerBegin _ | .loginBegin => {}
  | .registerFinish cookies _ | .loginFinish cookies _ | .logout cookies | .me cookies
  | .patchMe cookies _ | .getCredentials cookies | .addPasskeyBegin cookies
  | .addPasskeyFinish cookies _ | .removeCredential cookies _ => cookies

/-- The request is signed in as this user. -/
def SignedIn (site : Site) (cookies : Cookies) (log : RouteLog) (user : UserRow) : Prop :=
  ∃ token, cookies.session = some token ∧
    Answered log (.resolveSession (site.digest token)) (some user)

theorem SignedIn.later {site : Site} {cookies : Cookies} {log log' : RouteLog} {user : UserRow}
    (more : log ⊆ log') (signedIn : SignedIn site cookies log user) :
    SignedIn site cookies log' user := by
  obtain ⟨token, cookie, answered⟩ := signedIn
  exact ⟨token, cookie, answered.later more⟩

/-- What a call may raise. -/
def RouteCall.MayRaise : RouteCall → Exn → Prop
  | .account (.issueSession _), _ | _, .other _ => True
  | .account (.verify _ _), exc | .verifyAuthentication _ _ _ _, exc => exc = .webAuthn
  | .account (.registration _ _ _ _), exc =>
      exc = .uniqueViolation ∨ exc = .foreignKeyViolation ∨ ∃ detail, exc = .http ⟨409, detail⟩
  | .account (.insertCredential _ _ _ _), exc | .storeChallenge _ _ _ _ _, exc
  | .insertSession _ _ _, exc | .updateAccount _ _ _, exc =>
      exc = .uniqueViolation ∨ exc = .foreignKeyViolation
  | _, _ => False

/-- An answer there can be. -/
def Real (e : RouteEvent) : Prop := ∀ exc, e.2 = .error exc → e.1.MayRaise exc

/-- The statement found an email or a passkey that is already there. -/
def Collision : RouteEvent → Prop
  | ⟨.account (.registration _ _ _ _), .error (.http _)⟩
  | ⟨.account (.insertCredential _ _ _ _), .error .uniqueViolation⟩
  | ⟨.updateAccount _ _ _, .error .uniqueViolation⟩ => True
  | ⟨.emailTaken _, r⟩ => r = .ok true
  | _ => False

/-- A call that changes neither the accounts nor the sessions. -/
def Untouching : RouteEvent → Prop
  | ⟨.popChallenge _, _⟩ | ⟨.account (.verify _ _), _⟩
  | ⟨.account (.registration _ _ _ _), .error _⟩ => True
  | _ => False

/-! ## The script -/

section Script

variable (site : Site)

/-- What the begin step of a ceremony stores with its challenge. -/
def RouteRequest.Begins (k : RouteRequest) (log : RouteLog) (userId : Option UUID)
    (email displayName : Option String) : Prop :=
  match k with
  | .registerBegin req =>
      userId = none ∧ email = some req.email ∧ displayName = some req.displayName.val
  | .loginBegin => userId = none ∧ email = none ∧ displayName = none
  | .addPasskeyBegin cookies => (∃ user, SignedIn site cookies log user ∧ userId = some user.id) ∧
      email = none ∧ displayName = none
  | _ => False

def RouteRequest.Finishes : RouteRequest → Prop
  | .registerFinish _ _ | .loginFinish _ _ | .addPasskeyFinish _ _ => True
  | _ => False

/-- The counter that an assertion verified against a row. -/
def CounterVerified (log : RouteLog) (id : UUID) (signCount : Nat) : Prop :=
  ∃ rawId row user challenge credential,
    Answered log (.credentialWithUser rawId) (some (row, user)) ∧ row.id = id ∧
      Answered log (.verifyAuthentication challenge credential row.publicKey row.signCount) signCount

/-- Which statements a route issues, by its log. -/
def RouteRequest.Allows (k : RouteRequest) (log : RouteLog) : RouteCall → Prop
  | .emailTaken _ => ∃ req, k = .registerBegin req
  | .storeChallenge _ userId email displayName _ => k.Begins site log userId email displayName
  | .popChallenge _ => k.Finishes
  | .account (.registration email displayName _ _) =>
      (∃ cookies credential, k = .registerFinish cookies credential) ∧
        ∃ row, Popped log row ∧ row.email = some email ∧ row.displayName = some displayName
  | .account (.insertCredential _ _ _ _) => ∃ cookies req, k = .addPasskeyFinish cookies req
  | .account (.deleteCredential _ _ _) => ∃ cookies id, k = .removeCredential cookies id
  | .account (.issueSession _) => False
  | .updateSignCount signCount id => CounterVerified log id signCount
  | .updateAccount id email displayName => ∃ cookies req user, k = .patchMe cookies req ∧
      SignedIn site cookies log user ∧ id = user.id ∧ email = req.email.getD user.email ∧
        displayName = (req.displayName.map Bounded.val).getD user.displayName
  | _ => True

/-- What the log of a route says about how it ended. -/
def RouteRequest.Outcome (k : RouteRequest) (log : RouteLog) (r : Except Exn Unit) : Prop :=
  match k, r with
  | .registerFinish _ _, .ok _ => ∃ row email displayName verified transports user,
      Popped log row ∧ row.email = some email ∧ row.displayName = some displayName ∧
        Answered log (.account (.registration email displayName verified transports)) user
  | .registerFinish _ _, .error (.http _) => ∀ e ∈ log, Untouching e
  | .loginFinish _ _, .ok _ => ∃ row, Popped log row
  | .addPasskeyFinish cookies _, .ok _ => ∃ row user, Popped log row ∧
      SignedIn site cookies log user ∧ row.userId = some user.id
  | _, _ => True

/-- An email or a passkey that is taken is reported as such. -/
def Reports (log : RouteLog) (r : Except Exn Unit) : Prop :=
  ∀ e ∈ log, Collision e → ∃ detail, r = .error (.http ⟨409, detail⟩)

def RouteRequest.Done (k : RouteRequest) (log : RouteLog) (r : Except Exn Unit) : Prop :=
  k.Outcome site log r ∧ Reports log r

end Script

/-! ## The answers are real -/

theorem settle_error {α : Type} {w : Store} {done : Except Exn (α × Store)} {exc : Exn}
    (raised : (settle w done).1 = .error exc) : done = .error exc := by
  cases done with
  | ok _ => cases raised
  | error _ =>
      cases raised
      rfl

theorem storeChallenge_error {id : UUID} {challenge : Bytes} {userId : Option UUID}
    {email displayName : Option String} {expiresAt : Time} {w : Store} {exc : Exn}
    (raised : Statement.storeChallenge id challenge userId email displayName expiresAt w =
      .error exc) : exc = .uniqueViolation ∨ exc = .foreignKeyViolation := by
  unfold Statement.storeChallenge at raised
  split at raised
  · cases raised
    exact .inl rfl
  · split at raised
    · cases raised
      exact .inr rfl
    · cases raised

theorem insertSession_error {id userId : UUID} {tokenHash : Bytes} {expiresAt : Int} {w : Store}
    {exc : Exn}
    (raised : Statement.insertSession id userId tokenHash expiresAt w = .error exc) :
    exc = .uniqueViolation ∨ exc = .foreignKeyViolation := by
  unfold Statement.insertSession at raised
  split at raised
  · cases raised
    exact .inl rfl
  · split at raised
    · cases raised
      exact .inr rfl
    · cases raised

theorem updateAccount_error {lower : String → String} {id : UUID} {email displayName : String}
    {w : Store} {exc : Exn}
    (raised : Statement.updateAccount lower id email displayName w = .error exc) :
    exc = .uniqueViolation := by
  unfold Statement.updateAccount at raised
  split at raised
  · cases raised
  · split at raised
    · cases raised
      rfl
    · cases raised

theorem insertUser_error {lower : String → String} {id : UUID} {now : Time}
    {email displayName : String} {db : Db} {exc : Exn}
    (raised : Statement.insertUser lower id now email displayName db = .error exc) :
    exc = .uniqueViolation := by
  unfold Statement.insertUser at raised
  split at raised
  · cases raised
  · split at raised
    · cases raised
      rfl
    · cases raised

theorem insertCredential_error {id : UUID} {now : Time} {userId : UUID} {verified : Verified}
    {transports : List String} {name : String} {db : Db} {exc : Exn}
    (raised : Statement.insertCredential id now userId verified transports name db = .error exc) :
    exc = .uniqueViolation ∨ exc = .foreignKeyViolation := by
  unfold Statement.insertCredential at raised
  split at raised
  · cases raised
    exact .inl rfl
  · split at raised
    · cases raised
      exact .inr rfl
    · cases raised

theorem registration_error {lower : String → String} {userId id : UUID} {now : Time}
    {email displayName : String} {verified : Verified} {transports : List String} {db : Db}
    {exc : Exn}
    (raised : registration lower userId id now email displayName verified transports db =
      .error exc) : exc = .uniqueViolation ∨ exc = .foreignKeyViolation ∨
        ∃ detail, exc = .http ⟨409, detail⟩ := by
  unfold registration at raised
  split at raised
  · rename_i inserted
    cases raised
    exact .inl (insertUser_error inserted)
  · cases raised
    exact .inr (.inr ⟨_, rfl⟩)
  · split at raised
    · rename_i stored
      cases raised
      rcases insertCredential_error stored with rfl | rfl
      · exact .inr (.inr ⟨_, rfl⟩)
      · exact .inr (.inl rfl)
    · cases raised

theorem fromLibrary_error {α : Type} {r : Except Exn α} {exc : Exn} (library : fromLibrary r)
    (raised : r = .error exc) : exc = .webAuthn ∨ ∃ message, exc = .other message := by
  subst raised
  cases exc with
  | webAuthn => exact .inl rfl
  | other message => exact .inr ⟨message, rfl⟩
  | _ => cases library

theorem mayRaise_other (c : RouteCall) (message : String) : c.MayRaise (.other message) := by
  cases c with
  | account c => cases c <;> trivial
  | _ => trivial

theorem account_real {lower : String → String} {choices : Choices} {c : Call} {db : Db}
    (verified : fromLibrary choices.verified) :
    Real ⟨.account c, (c.respond lower choices db).1⟩ := by
  intro exc raised
  cases c with
  | verify _ _ =>
      rcases fromLibrary_error verified raised with rfl | ⟨message, rfl⟩
      · rfl
      · trivial
  | registration email displayName verified transports =>
      rw [Call.respond] at raised
      split at raised
      · cases raised
      · rename_i failed
        cases raised
        have cases := registration_error failed
        cases exc with
        | other _ => trivial
        | _ => exact cases
  | insertCredential userId verified transports name =>
      rw [Call.respond] at raised
      split at raised
      · cases raised
      · rename_i failed
        cases raised
        have cases := insertCredential_error failed
        cases exc with
        | other _ => trivial
        | _ => exact cases
  | issueSession _ => trivial
  | _ => cases raised

theorem respond_real {site : Site} {draws : Draws} {c : RouteCall} {w w' : Store}
    (fresh : draws.Fresh w') : Real ⟨c, (c.respond site draws w).1⟩ := by
  intro exc raised
  cases c with
  | account c => exact account_real fresh.verified exc raised
  | storeChallenge _ _ _ _ _ =>
      rcases storeChallenge_error (settle_error raised) with rfl | rfl
      · exact .inl rfl
      · exact .inr rfl
  | insertSession _ _ _ =>
      rcases insertSession_error (settle_error raised) with rfl | rfl
      · exact .inl rfl
      · exact .inr rfl
  | updateAccount _ _ _ =>
      obtain rfl := updateAccount_error (settle_error raised)
      exact .inl rfl
  | verifyAuthentication _ _ _ current =>
      have library := fresh.assertion
      simp only [RouteCall.respond] at raised
      cases asserted : draws.assertion with
      | ok n =>
          rw [asserted] at raised
          dsimp only at raised
          split at raised
          · cases raised
          · cases raised
            rfl
      | error exc' =>
          rw [asserted] at raised
          cases raised
          rcases fromLibrary_error library asserted with rfl | ⟨message, rfl⟩
          · rfl
          · trivial
  | _ => cases raised

theorem served_real {site : Site} {c : RouteCall} {w w' : Store} {r : Except Exn c.Answer}
    (answer : served site c w r w') : Real ⟨c, r⟩ := by
  obtain ⟨draws, fresh, ⟨rfl, -⟩ | ⟨⟨message, rfl⟩, -⟩⟩ := answer
  · exact respond_real fresh
  · intro exc raised
    cases raised
    exact mayRaise_other c message

/-! ## The parts of the routes -/

section Parts

variable {site : Site} {k : RouteRequest} {log : RouteLog}

/-- The program keeps to the script of the route, and `done` holds at its end. -/
abbrev Keeps {α : Type} (site : Site) (k : RouteRequest) (done : RouteLog → Except Exn α → Prop)
    (log : RouteLog) (p : Route α) : Prop := p.Scripted Real (k.Allows site) done log

/-- Nothing that was taken. -/
def Quiet (log : RouteLog) : Prop := ∀ e ∈ log, ¬Collision e

theorem quiet_nil : Quiet [] := List.forall_mem_nil _

theorem Quiet.snoc {e : RouteEvent} (quiet : Quiet log) (calm : ¬Collision e) :
    Quiet (log ++ [e]) := by
  intro e' mem
  rcases List.mem_append.mp mem with old | new
  · exact quiet e' old
  · rwa [List.mem_singleton.mp new]

theorem Quiet.reports {r : Except Exn Unit} (quiet : Quiet log) : Reports log r :=
  fun e mem collision => (quiet e mem collision).elim

theorem keeps_call {α : Type} {c : RouteCall} {f : c.Answer → Route α}
    {done : RouteLog → Except Exn α → Prop} (allowed : k.Allows site log c)
    (ok : ∀ a, Keeps site k done (log ++ [⟨c, .ok a⟩]) (f a))
    (failed : ∀ x, c.MayRaise x → done (log ++ [⟨c, .error x⟩]) (.error x)) :
    Keeps site k done log (routeCall c >>= f) := by
  refine scripted_bind.mpr (scripted_perform.mpr ⟨allowed, fun r real => ?_⟩)
  cases r with
  | ok a => exact ok a
  | error x => exact failed x (real x rfl)

/-- A call that ends its part. -/
theorem keeps_last {c : RouteCall} {done : RouteLog → Except Exn c.Answer → Prop}
    (allowed : k.Allows site log c) (ends : ∀ r, Real ⟨c, r⟩ → done (log ++ [⟨c, r⟩]) r) :
    Keeps site k done log (routeCall c) :=
  scripted_perform.mpr ⟨allowed, ends⟩

theorem keeps_storeChallenge {challenge : Bytes} {userId : Option UUID}
    {email displayName : Option String} {done : RouteLog → Except Exn UUID → Prop}
    (quiet : Quiet log)
    (begins : ∀ log', log ⊆ log' → k.Begins site log' userId email displayName)
    (ends : ∀ log' r, Quiet log' → done log' r) :
    Keeps site k done log (storeChallenge challenge userId email displayName) := by
  have swept : ∀ r, Quiet (log ++ [⟨.sweepChallenges, r⟩]) := fun r => quiet.snoc not_false
  refine keeps_call trivial (fun _ => ?_) fun x _ => ends _ _ (swept _)
  have timed : ∀ r, Quiet (log ++ [⟨.sweepChallenges, .ok ()⟩] ++ [⟨.clock, r⟩]) :=
    fun r => (swept _).snoc not_false
  refine keeps_call trivial (fun now => ?_) fun x _ => ends _ _ (timed _)
  refine keeps_last (begins _ ?_) fun r _ => ends _ _ ((timed _).snoc not_false)
  rw [List.append_assoc]
  exact List.subset_append_left _ _

theorem keeps_pop {cookies : Cookies} {done : RouteLog → Except Exn ChallengeRow → Prop}
    (finishes : k.Finishes)
    (popped : ∀ id row, done (log ++ [⟨.popChallenge id, .ok (some row)⟩]) (.ok row))
    (expired : done log (.error (.http ⟨400, "Ceremony expired or missing — start again"⟩)))
    (failed : ∀ id r x, done (log ++ [⟨.popChallenge id, r⟩]) (.error x)) :
    Keeps site k done log (pop cookies) := by
  refine scripted_bind.mpr ?_
  unfold popChallenge
  split
  · exact expired
  split
  · exact expired
  split
  · exact expired
  · rename_i id _
    refine keeps_last finishes fun r _ => ?_
    cases r with
    | error x => exact failed id _ x
    | ok row =>
        cases row with
        | none => exact failed id _ _
        | some row => exact popped id row

theorem keeps_currentUser {done : RouteLog → Except Exn SessionUser → Prop} (quiet : Quiet log)
    (signedIn : ∀ log' user, Quiet log' → SignedIn site k.cookies log' user →
      done log' (.ok (sessionUser user)))
    (failed : ∀ log' x, Quiet log' → done log' (.error x)) :
    Keeps site k done log (currentUser site k.cookies) := by
  refine scripted_bind.mpr ?_
  rw [currentUserOptional]
  split
  · exact failed _ _ quiet
  rename_i token cookie
  split
  · exact failed _ _ quiet
  have resolved : ∀ r, Quiet (log ++ [⟨.resolveSession (site.digest token), r⟩]) :=
    fun r => quiet.snoc not_false
  refine keeps_call trivial (fun row => ?_) fun x _ => failed _ _ (resolved _)
  cases row with
  | none => exact failed _ _ (resolved _)
  | some row => exact signedIn _ row (resolved _) ⟨token, cookie, answered_snoc⟩

theorem keeps_issueSession {userId : UUID} {done : RouteLog → Except Exn String → Prop}
    (quiet : Quiet log)
    (ends : ∀ log' r, log ⊆ log' → Quiet log' → (∀ x, r ≠ .error (.http x)) → done log' r) :
    Keeps site k done log (issueSession site userId) := by
  have notHttp : ∀ {c : RouteCall} {x : Exn}, c.MayRaise x → (∀ y, ¬c.MayRaise (.http y)) →
      ∀ y, (Except.error x : Except Exn String) ≠ .error (.http y) := by
    intro c x raises never y same
    cases same
    exact never y raises
  have drawn : ∀ r, Quiet (log ++ [⟨.tokenUrlsafe, r⟩]) := fun r => quiet.snoc not_false
  refine keeps_call trivial (fun token => ?_) fun x raises =>
    ends _ _ (subset_snoc _ _) (drawn _) (notHttp raises fun _ => not_false)
  have timed : ∀ r, Quiet (log ++ [⟨.tokenUrlsafe, .ok token⟩] ++ [⟨.clock, r⟩]) :=
    fun r => (drawn _).snoc not_false
  refine keeps_call trivial (fun now => ?_) fun x raises =>
    ends _ _ (subset_later (subset_snoc _ _)) (timed _)
      (notHttp raises fun _ => not_false)
  have swept : ∀ r, Quiet (log ++ [⟨.tokenUrlsafe, .ok token⟩] ++ [⟨.clock, .ok now⟩] ++
      [⟨.sweepSessions, r⟩]) := fun r => (timed _).snoc not_false
  have more : log ⊆ log ++ [⟨.tokenUrlsafe, .ok token⟩] ++ [⟨.clock, .ok now⟩] :=
    subset_later (subset_snoc _ _)
  refine keeps_call trivial (fun _ => ?_) fun x raises =>
    ends _ _ (subset_later more) (swept _) (notHttp raises fun _ => not_false)
  refine keeps_call trivial (fun _ => ?_) fun x raises =>
    ends _ _ (subset_later (subset_later more)) ((swept _).snoc not_false)
      (notHttp raises fun _ absurd => by rcases absurd with absurd | absurd <;> cases absurd)
  exact ends _ _ (subset_later (subset_later more))
    ((swept _).snoc not_false) nofun

theorem allows_lasting : Lasting (k.Allows site) := by
  intro log log' c more allowed
  cases c with
  | account c =>
      cases c with
      | registration _ _ _ _ =>
          obtain ⟨kind, row, ⟨id, popped⟩, named⟩ := allowed
          exact ⟨kind, row, ⟨id, popped.later more⟩, named⟩
      | _ => exact allowed
  | storeChallenge _ _ _ _ _ =>
      cases k with
      | addPasskeyBegin _ =>
          obtain ⟨⟨user, signedIn, same⟩, rest⟩ := allowed
          exact ⟨⟨user, signedIn.later more, same⟩, rest⟩
      | _ => exact allowed
  | updateSignCount _ _ =>
      obtain ⟨rawId, row, user, challenge, credential, found, same, verified⟩ := allowed
      exact ⟨rawId, row, user, challenge, credential, found.later more, same, verified.later more⟩
  | updateAccount _ _ _ =>
      obtain ⟨cookies, req, user, kind, signedIn, fields⟩ := allowed
      exact ⟨cookies, req, user, kind, signedIn.later more, fields⟩
  | _ => exact allowed

end Parts

/-! ## The routes -/

section Routes

variable (site : Site)

theorem keeps_body {α : Type} {k : RouteRequest} {p : Route α}
    (body : Keeps site k (fun log r => k.Done site log (r.map fun _ => ())) [] p) :
    Keeps site k (k.Done site) [] (p >>= fun _ => .ret ()) := by
  refine scripted_bind.mpr (body.mono fun log r done => ?_)
  cases r <;> exact done

theorem registerBegin_keeps (req : RegisterBeginRequest) :
    Keeps site (.registerBegin req) (RouteRequest.Done site (.registerBegin req)) []
      (RouteRequest.body site (.registerBegin req)) := by
  refine keeps_body site (keeps_call ⟨req, rfl⟩ (fun taken => ?_) fun x _ => ⟨trivial, ?_⟩)
  · cases taken with
    | true => exact ⟨trivial, fun _ _ _ => ⟨_, rfl⟩⟩
    | false =>
        have quiet : Quiet ([] ++ [⟨.emailTaken req.email, .ok false⟩]) :=
          quiet_nil.snoc fun taken => Bool.false_ne_true (Except.ok.inj taken)
        have handled : ∀ r, Quiet ([] ++ [⟨.emailTaken req.email, .ok false⟩] ++ [⟨.uuid4, r⟩]) :=
          fun r => quiet.snoc not_false
        refine keeps_call trivial (fun handle => ?_) fun x _ => ⟨trivial, (handled _).reports⟩
        have drawn : ∀ r, Quiet ([] ++ [⟨.emailTaken req.email, .ok false⟩] ++
            [⟨.uuid4, .ok handle⟩] ++ [⟨.generateChallenge, r⟩]) :=
          fun r => (handled _).snoc not_false
        refine keeps_call trivial (fun challenge => ?_) fun x _ => ⟨trivial, (drawn _).reports⟩
        refine scripted_bind.mpr (keeps_storeChallenge (drawn _) (fun _ _ => ⟨rfl, rfl, rfl⟩) ?_)
        intro log r quiet
        cases r <;> exact ⟨trivial, quiet.reports⟩
  · exact Quiet.reports (quiet_nil.snoc nofun)

theorem loginBegin_keeps :
    Keeps site .loginBegin (RouteRequest.Done site .loginBegin) []
      (RouteRequest.body site .loginBegin) := by
  have drawn : ∀ r, Quiet ([] ++ [⟨.generateChallenge, r⟩]) := fun r => quiet_nil.snoc not_false
  refine keeps_body site (keeps_call trivial (fun challenge => ?_) fun x _ =>
    ⟨trivial, (drawn _).reports⟩)
  refine scripted_bind.mpr (keeps_storeChallenge (drawn _) (fun _ _ => ⟨rfl, rfl, rfl⟩) ?_)
  intro log r quiet
  cases r <;> exact ⟨trivial, quiet.reports⟩

theorem addPasskeyBegin_keeps (cookies : Cookies) :
    Keeps site (.addPasskeyBegin cookies) (RouteRequest.Done site (.addPasskeyBegin cookies)) []
      (RouteRequest.body site (.addPasskeyBegin cookies)) := by
  refine keeps_body site (scripted_bind.mpr (keeps_currentUser quiet_nil ?_ ?_))
  · intro log user quiet signedIn
    have listed : ∀ r, Quiet (log ++ [⟨.descriptors user.id, r⟩]) := fun r => quiet.snoc not_false
    refine keeps_call trivial (fun exclude => ?_) fun x _ => ⟨trivial, (listed _).reports⟩
    have drawn : ∀ r, Quiet (log ++ [⟨.descriptors user.id, .ok exclude⟩] ++
        [⟨.generateChallenge, r⟩]) := fun r => (listed _).snoc not_false
    refine keeps_call trivial (fun challenge => ?_) fun x _ => ⟨trivial, (drawn _).reports⟩
    refine scripted_bind.mpr (keeps_storeChallenge (drawn _) ?_ ?_)
    · intro log' more
      have kept : log ⊆ log' := subset_earlier (subset_earlier more)
      exact ⟨⟨user, signedIn.later kept, rfl⟩, rfl, rfl⟩
    · intro log r quiet
      cases r <;> exact ⟨trivial, quiet.reports⟩
  · exact fun log x quiet => ⟨trivial, quiet.reports⟩

theorem logout_keeps (cookies : Cookies) :
    Keeps site (.logout cookies) (RouteRequest.Done site (.logout cookies)) []
      (RouteRequest.body site (.logout cookies)) := by
  show Keeps _ _ _ _ (logout site cookies)
  unfold logout
  split
  · exact ⟨trivial, quiet_nil.reports⟩
  split
  · exact ⟨trivial, quiet_nil.reports⟩
  · exact keeps_last trivial fun r _ => ⟨trivial, Quiet.reports (quiet_nil.snoc not_false)⟩

theorem me_keeps (cookies : Cookies) :
    Keeps site (.me cookies) (RouteRequest.Done site (.me cookies)) []
      (RouteRequest.body site (.me cookies)) := by
  have signs : Keeps site (.me cookies)
      (fun log r => (RouteRequest.me cookies).Done site log (r.map fun _ => ())) []
      (currentUser site cookies) :=
    keeps_currentUser quiet_nil (fun _ _ quiet _ => ⟨trivial, quiet.reports⟩)
      fun _ _ quiet => ⟨trivial, quiet.reports⟩
  exact keeps_body site signs

theorem getCredentials_keeps (cookies : Cookies) :
    Keeps site (.getCredentials cookies) (RouteRequest.Done site (.getCredentials cookies)) []
      (RouteRequest.body site (.getCredentials cookies)) := by
  refine keeps_body site (scripted_bind.mpr (keeps_currentUser quiet_nil ?_ ?_))
  · intro log user quiet _
    have listed : ∀ r, Quiet (log ++ [⟨.listCredentials user.id, r⟩]) :=
      fun r => quiet.snoc not_false
    exact keeps_call trivial (fun rows => ⟨trivial, (listed _).reports⟩) fun x _ =>
      ⟨trivial, (listed _).reports⟩
  · exact fun log x quiet => ⟨trivial, quiet.reports⟩

theorem patchMe_keeps (cookies : Cookies) (req : UpdateAccountRequest) :
    Keeps site (.patchMe cookies req) (RouteRequest.Done site (.patchMe cookies req)) []
      (RouteRequest.body site (.patchMe cookies req)) := by
  refine keeps_body site (scripted_bind.mpr (keeps_currentUser quiet_nil ?_ ?_))
  · intro log user quiet signedIn
    refine scripted_bind.mpr (scripted_handle.mpr (keeps_last ?_ fun r real => ?_))
    · exact ⟨cookies, req, user, rfl, signedIn, rfl, rfl, rfl⟩
    cases r with
    | ok row =>
        have updated := quiet.snoc (e := ⟨.updateAccount user.id (req.email.getD user.email)
          ((req.displayName.map Bounded.val).getD user.displayName), .ok row⟩) not_false
        cases row with
        | none => exact ⟨trivial, updated.reports⟩
        | some row => exact ⟨trivial, updated.reports⟩
    | error exc =>
        cases exc with
        | uniqueViolation => exact ⟨trivial, fun _ _ _ => ⟨_, rfl⟩⟩
        | _ => exact ⟨trivial, Quiet.reports (quiet.snoc not_false)⟩
  · exact fun log x quiet => ⟨trivial, quiet.reports⟩

/-- A call of an account operation is made by its statements. -/
theorem keeps_statements {k : RouteRequest} {log : RouteLog} {c : Call}
    {done : RouteLog → Except Exn c.Answer → Prop} (program : Keeps site k done log (statements site c)) :
    Keeps site k done log ((call c).interp (statements site)) := by
  rw [call]
  exact scripted_interp_perform.mpr program

theorem keeps_verifyRegistration {k : RouteRequest} {log : RouteLog} {challenge : Bytes}
    {credential : CeremonyResponse} {done : RouteLog → Except Exn Verified → Prop}
    (ends : ∀ r r', done (log ++ [⟨.account (.verify challenge credential), r⟩]) r') :
    Keeps site k done log ((verifyRegistration challenge credential).interp (statements site)) := by
  have free : k.Allows site log (.account (.verify challenge credential)) := trivial
  refine scripted_interp_handle.mpr
    (keeps_statements site (c := .verify challenge credential) ?_)
  show Keeps site k _ log (routeCall (.account (.verify challenge credential)))
  refine keeps_last free fun r _ => ?_
  cases r with
  | ok verified => exact ends _ _
  | error exc => cases exc <;> exact ends _ _

/-- The transaction found the email or the passkey taken, or broke off. -/
theorem registration_refused {cookies : Cookies} {credential : CeremonyResponse} {log : RouteLog}
    {email displayName : String} {verified : Verified} {transports : List String} {x : Exn}
    (calm : ∀ e ∈ log ++ [⟨.account (.registration email displayName verified transports),
      .error x⟩], Untouching e) (quiet : Quiet log)
    (real : Real ⟨.account (.registration email displayName verified transports), .error x⟩) :
    (RouteRequest.registerFinish cookies credential).Done site
      (log ++ [⟨.account (.registration email displayName verified transports), .error x⟩])
      (.error x) := by
  have raises := real x rfl
  cases x with
  | http y =>
      refine ⟨calm, fun e mem collision => ?_⟩
      obtain ⟨detail, same⟩ := (raises.resolve_left nofun).resolve_left nofun
      exact ⟨detail, congrArg _ same⟩
  | _ => exact ⟨trivial, Quiet.reports (quiet.snoc not_false)⟩

theorem registerFinish_keeps (cookies : Cookies) (credential : CeremonyResponse) :
    Keeps site (.registerFinish cookies credential)
      (RouteRequest.Done site (.registerFinish cookies credential)) []
      (RouteRequest.body site (.registerFinish cookies credential)) := by
  have untouched : ∀ {log : RouteLog} (x : Exn), (∀ e ∈ log, Untouching e) → Quiet log →
      (RouteRequest.registerFinish cookies credential).Done site log (.error x) := by
    intro log x calm quiet
    refine ⟨?_, quiet.reports⟩
    cases x with
    | http _ => exact calm
    | _ => trivial
  refine keeps_body site (scripted_bind.mpr (keeps_pop trivial ?_ ?_ ?_))
  · intro id row
    have popped : ∀ {log : RouteLog}, [] ++ [⟨.popChallenge id, .ok (some row)⟩] ⊆ log →
        Popped log row := fun more => ⟨id, more answered_snoc⟩
    show Keeps _ _ _ _ (interp _ (finishRegistration _ _ _ _))
    unfold finishRegistration
    split
    · rename_i email displayName hasEmail hasName
      refine scripted_interp_bind.mpr (keeps_verifyRegistration site fun checked verified => ?_)
      have calm : ∀ e ∈ [] ++ [⟨.popChallenge id, .ok (some row)⟩] ++
          [⟨.account (.verify row.challenge credential), checked⟩], Untouching e := by
        simp [Untouching]
      have quiet₁ : Quiet ([] ++ [⟨.popChallenge id, .ok (some row)⟩]) := quiet_nil.snoc not_false
      have quiet : Quiet ([] ++ [⟨.popChallenge id, .ok (some row)⟩] ++
          [⟨.account (.verify row.challenge credential), checked⟩]) := quiet₁.snoc not_false
      cases verified with
      | error x => exact untouched x calm quiet
      | ok verified =>
          have named := popped (subset_snoc _ ⟨.account (.verify row.challenge credential), checked⟩)
          refine scripted_interp_bind.mpr (keeps_statements site
            (c := .registration email displayName verified credential.transports) ?_)
          show Keeps _ _ _ _ (routeCall
            (.account (.registration email displayName verified credential.transports)))
          refine keeps_last ⟨⟨cookies, credential, rfl⟩, row, named, hasEmail, hasName⟩
            fun registered real => ?_
          cases registered with
          | error x =>
              refine registration_refused site ?_ quiet real
              exact forall_mem_snoc.mpr ⟨calm, trivial⟩
          | ok user =>
              refine scripted_interp_bind.mpr
                (keeps_statements site (c := .issueSession (sessionUser user).id) ?_)
              show Keeps _ _ _ _ (issueSession site user.id)
              refine keeps_issueSession (quiet.snoc not_false) fun log r more quiet' notHttp => ?_
              cases r with
              | ok token =>
                  refine ⟨⟨row, email, displayName, verified, _, user, ?_, hasEmail, hasName, ?_⟩,
                    quiet'.reports⟩
                  · exact popped (subset_earlier (subset_earlier more))
                  · exact more answered_snoc
              | error x =>
                  refine ⟨?_, quiet'.reports⟩
                  cases x with
                  | http y => exact (notHttp y rfl).elim
                  | _ => trivial
    · exact untouched _ (by simp [Untouching]) (quiet_nil.snoc not_false)
  · exact untouched _ nofun quiet_nil
  · exact fun id r x => untouched x (by simp [Untouching]) (quiet_nil.snoc not_false)

theorem removeCredential_keeps (cookies : Cookies) (credentialId : UUID) :
    Keeps site (.removeCredential cookies credentialId)
      (RouteRequest.Done site (.removeCredential cookies credentialId)) []
      (RouteRequest.body site (.removeCredential cookies credentialId)) := by
  refine scripted_bind.mpr (keeps_currentUser quiet_nil ?_ fun _ _ quiet => ⟨trivial, quiet.reports⟩)
  intro log user quiet _
  refine scripted_interp_bind.mpr (scripted_interp_bind.mpr
    (keeps_statements site (c := .snapshot) ?_))
  have seen : ∀ r, Quiet (log ++ [⟨.account .snapshot, r⟩]) := fun r => quiet.snoc not_false
  refine keeps_last trivial fun r _ => ?_
  cases r with
  | error x => exact ⟨trivial, (seen _).reports⟩
  | ok snapshot =>
      refine keeps_statements site (c := .deleteCredential snapshot credentialId user.id) ?_
      have deleted : ∀ r, Quiet (log ++ [⟨.account .snapshot, .ok snapshot⟩] ++
          [⟨.account (.deleteCredential snapshot credentialId user.id), r⟩]) :=
        fun r => (seen _).snoc not_false
      refine keeps_last ⟨cookies, credentialId, rfl⟩ fun r _ => ?_
      cases r with
      | error x => exact ⟨trivial, (deleted _).reports⟩
      | ok row =>
          dsimp only
          split
          · exact ⟨trivial, (deleted _).reports⟩
          · refine scripted_interp_bind.mpr
              (keeps_statements site (c := .credentialExists credentialId user.id) ?_)
            refine keeps_last trivial fun r _ => ?_
            have counted := (deleted (.ok row)).snoc
              (e := ⟨.account (.credentialExists credentialId user.id), r⟩) not_false
            cases r with
            | error x => exact ⟨trivial, counted.reports⟩
            | ok found =>
                dsimp only
                split <;> exact ⟨trivial, counted.reports⟩

theorem addPasskeyFinish_keeps (cookies : Cookies) (req : AddPasskeyFinishRequest) :
    Keeps site (.addPasskeyFinish cookies req)
      (RouteRequest.Done site (.addPasskeyFinish cookies req)) []
      (RouteRequest.body site (.addPasskeyFinish cookies req)) := by
  have fails : ∀ {log : RouteLog} (x : Exn), Quiet log →
      (RouteRequest.addPasskeyFinish cookies req).Done site log (.error x) :=
    fun x quiet => ⟨trivial, quiet.reports⟩
  refine keeps_body site (scripted_bind.mpr (keeps_currentUser quiet_nil ?_ fun _ x quiet =>
    fails x quiet))
  intro log user quiet signedIn
  refine scripted_bind.mpr (keeps_pop trivial ?_ (fails _ quiet)
    fun id r x => fails x (quiet.snoc not_false))
  intro id row
  have popped : ∀ {log' : RouteLog}, log ++ [⟨.popChallenge id, .ok (some row)⟩] ⊆ log' →
      Popped log' row := fun more => ⟨id, more answered_snoc⟩
  have quiet₁ : Quiet (log ++ [⟨.popChallenge id, .ok (some row)⟩]) := quiet.snoc not_false
  show Keeps _ _ _ _ (interp _ (finishAddPasskey _ _ _ _))
  unfold finishAddPasskey
  split
  · exact fails _ quiet₁
  rename_i same
  refine scripted_interp_bind.mpr (keeps_verifyRegistration site fun checked verified => ?_)
  have quiet₂ := quiet₁.snoc
    (e := ⟨.account (.verify row.challenge req.credential), checked⟩) not_false
  cases verified with
  | error x => exact fails x quiet₂
  | ok verified =>
      refine scripted_interp_bind.mpr (scripted_interp_handle.mpr (keeps_statements site
        (c := .insertCredential (sessionUser user).id verified req.credential.transports
          req.name.val) ?_))
      refine keeps_last ⟨cookies, req, rfl⟩ fun stored _ => ?_
      cases stored with
      | error x =>
          cases x with
          | uniqueViolation => exact ⟨trivial, fun _ _ _ => ⟨_, rfl⟩⟩
          | _ => exact fails _ (quiet₂.snoc not_false)
      | ok newId =>
          refine scripted_interp_bind.mpr
            (keeps_statements site (c := .credentialSummaryById newId) ?_)
          refine keeps_last trivial fun found _ => ?_
          have quiet₃ := (quiet₂.snoc (e := ⟨.account (.insertCredential (sessionUser user).id
            verified req.credential.transports req.name.val), .ok newId⟩) not_false).snoc
            (e := ⟨.account (.credentialSummaryById newId), found⟩) not_false
          cases found with
          | error x => exact fails x quiet₃
          | ok found =>
              cases found with
              | none => exact fails _ quiet₃
              | some credential =>
                  refine ⟨⟨row, user, popped ?_, signedIn.later ?_, not_not.mp same⟩, quiet₃.reports⟩
                  · exact subset_later (subset_later (subset_snoc _ _))
                  · exact subset_later (subset_later (subset_later (subset_snoc _ _)))

/-- A login has nothing that could be taken. -/
theorem login_quiet {cookies : Cookies} {credential : CeremonyResponse} {log : RouteLog}
    (allowed : ∀ e ∈ log, ∃ log',
      (RouteRequest.loginFinish cookies credential).Allows site log' e.1) : Quiet log := by
  intro e mem collision
  obtain ⟨log', allows⟩ := allowed e mem
  obtain ⟨c, r⟩ := e
  cases c with
  | emailTaken _ =>
      obtain ⟨_, kind⟩ := allows
      cases kind
  | account c =>
      cases c with
      | registration _ _ _ _ =>
          obtain ⟨⟨_, _, kind⟩, _⟩ := allows
          cases kind
      | insertCredential _ _ _ _ =>
          obtain ⟨_, _, kind⟩ := allows
          cases kind
      | _ => exact collision.elim
  | updateAccount _ _ _ =>
      obtain ⟨_, _, _, kind, _⟩ := allows
      cases kind
  | _ => exact collision.elim

theorem rawId_cases (credential : CeremonyResponse) :
    (∃ bytes, rawId site credential = .ret bytes) ∨ ∃ x, rawId site credential = .raise x := by
  unfold rawId
  split
  · split
    · exact .inr ⟨_, rfl⟩
    · split
      · exact .inr ⟨_, rfl⟩
      · exact .inl ⟨_, rfl⟩
  · exact .inr ⟨_, rfl⟩

theorem bumpAndIssue_keeps {k : RouteRequest} {log : RouteLog} {newSignCount : Nat}
    {credentialId userId : UUID} {done : RouteLog → Except Exn String → Prop} (quiet : Quiet log)
    (verified : CounterVerified log credentialId newSignCount)
    (ends : ∀ log' r, log ⊆ log' → done log' r) :
    Keeps site k done log (bumpAndIssue site newSignCount credentialId userId) := by
  have bumps : Keeps site k (fun _ _ => True) log
      (routeCall (.updateSignCount newSignCount credentialId)) :=
    keeps_last verified fun _ _ => trivial
  have issues : Keeps site k (fun _ _ => True) log (issueSession site userId) :=
    keeps_issueSession quiet fun _ _ _ _ _ => trivial
  have gathered : Keeps site k (Gathered (fun _ _ => True) fun _ _ => True) log
      (both RouteCall.turn (fun (first : Bool) => first)
        (routeCall (.updateSignCount newSignCount credentialId)) (issueSession site userId)) :=
    scripted_both allows_lasting (fun _ => trivial) (fun _ _ _ _ h => h) (fun _ _ _ _ h => h)
      bumps issues
  refine scripted_bind.mpr ((gathered.grows (List.Subset.refl log)).mono fun log' r last => ?_)
  obtain ⟨more, bumped, issued, rfl, -⟩ := last
  cases bumped <;> cases issued <;> exact ends _ _ more

theorem loginFinish_keeps (cookies : Cookies) (credential : CeremonyResponse) :
    Keeps site (.loginFinish cookies credential)
      (RouteRequest.Done site (.loginFinish cookies credential)) []
      (RouteRequest.body site (.loginFinish cookies credential)) := by
  have outcome : Keeps site (.loginFinish cookies credential)
      (RouteRequest.Outcome site (.loginFinish cookies credential)) []
      (RouteRequest.body site (.loginFinish cookies credential)) := by
    refine scripted_bind.mpr (scripted_bind.mpr (keeps_pop trivial ?_ trivial fun _ _ _ => trivial))
    intro id row
    have popped : ∀ {log : RouteLog}, [] ++ [⟨.popChallenge id, .ok (some row)⟩] ⊆ log →
        Popped log row := fun more => ⟨id, more answered_snoc⟩
    refine scripted_bind.mpr ?_
    rcases rawId_cases site credential with ⟨bytes, decoded⟩ | ⟨x, malformed⟩
    · rw [decoded]
      refine keeps_call trivial (fun found => ?_) fun _ _ => trivial
      cases found with
      | none => exact trivial
      | some found =>
          obtain ⟨credentialRow, owner⟩ := found
          refine scripted_bind.mpr (scripted_handle.mpr (keeps_last trivial fun verified _ => ?_))
          cases verified with
          | error x => cases x <;> exact trivial
          | ok newSignCount =>
              refine scripted_bind.mpr (bumpAndIssue_keeps site ?_ ?_ fun log r more => ?_)
              · have quiet₁ : Quiet ([] ++ [⟨.popChallenge id, .ok (some row)⟩]) :=
                  quiet_nil.snoc not_false
                have quiet₂ := quiet₁.snoc
                  (e := ⟨.credentialWithUser bytes, .ok (some (credentialRow, owner))⟩) not_false
                exact quiet₂.snoc not_false
              · exact ⟨bytes, credentialRow, owner, row.challenge, credential,
                  answered_snoc.later (subset_snoc _ _), rfl, answered_snoc⟩
              · cases r with
                | error _ => exact trivial
                | ok _ =>
                    exact ⟨row, popped (subset_earlier (subset_earlier more))⟩
    · rw [malformed]
      exact trivial
  refine (outcome.traced fun _ mem => by cases mem).mono fun log r ⟨outcome, allowed⟩ => ?_
  exact ⟨outcome, (login_quiet site allowed).reports⟩

/-- Every route keeps to its script. -/
theorem body_keeps (k : RouteRequest) :
    Keeps site k (k.Done site) [] (RouteRequest.body site k) := by
  cases k with
  | registerBegin req => exact registerBegin_keeps site req
  | registerFinish cookies credential => exact registerFinish_keeps site cookies credential
  | loginBegin => exact loginBegin_keeps site
  | loginFinish cookies credential => exact loginFinish_keeps site cookies credential
  | logout cookies => exact logout_keeps site cookies
  | me cookies => exact me_keeps site cookies
  | patchMe cookies req => exact patchMe_keeps site cookies req
  | getCredentials cookies => exact getCredentials_keeps site cookies
  | addPasskeyBegin cookies => exact addPasskeyBegin_keeps site cookies
  | addPasskeyFinish cookies req => exact addPasskeyFinish_keeps site cookies req
  | removeCredential cookies credentialId => exact removeCredential_keeps site cookies credentialId

end Routes

/-! ## The site keeps to it -/

section Server

variable {site : Site} {s s' : Server} {l : ServerAction} {tr : List ServerTransition}

def Server.Scripted (site : Site) (s : Server) : Prop :=
  Pool.Scripted Real (RouteRequest.Allows site) (RouteRequest.Done site) s

theorem Server.Step.scripted (step : Server.Step site s l s') (scripted : s.Scripted site) :
    s'.Scripted site :=
  Pool.Step.scripted (fun _ _ _ _ => served_real) (body_keeps site) step scripted

theorem Server.scripted (history : History (Server.Step site) Server.empty tr s) :
    s.Scripted site ∧ ∀ x ∈ tr, x.source.Scripted site := by
  have start : Server.empty.Scripted site := nofun
  have free : ∀ x ∈ tr, (fun _ : ServerTransition => True) x := fun _ _ => trivial
  have kept := fun t l u (before : Server.Scripted site t) (_ : True)
    (step : Server.Step site t l u) => step.scripted before
  exact ⟨history.invariant free start kept, fun x mem => (history.visits free start kept x mem).1⟩

/-- The call of a step is one its route allows. -/
theorem Server.allowed (history : History (Server.Step site) Server.empty tr s)
    {x : ServerTransition} (mem : x ∈ tr) {k : RouteRequest} {past : RouteLog} {e : RouteEvent}
    (label : x.label = .call k past e) : k.Allows site past e.1 := by
  have step := history.step_of_mem x mem
  rw [label] at step
  exact Pool.Step.allows step ((Server.scripted history).2 x mem)

/-- The call of a step was answered by the database. -/
theorem Server.answered (history : History (Server.Step site) Server.empty tr s)
    {x : ServerTransition} (mem : x ∈ tr) {k : RouteRequest} {past : RouteLog} {e : RouteEvent}
    (label : x.label = .call k past e) : served site e.1 x.source.world e.2 x.target.world := by
  have step := history.step_of_mem x mem
  rw [label] at step
  exact Pool.Step.answers step

/-- A logged call of a request was a step. -/
theorem Server.logged (history : History (Server.Step site) Server.empty tr s)
    {p : Process RouteRequest RouteCall RouteCall.Answer Exn} (mem : p ∈ s.processes)
    {e : RouteEvent} (called : e ∈ p.past) :
    ∃ x ∈ tr, ∃ past, x.label = .call p.kind past e ∧ past ⊆ p.past := by
  obtain ⟨past, rest, log⟩ := List.append_of_mem called
  obtain ⟨x, inside, label⟩ := Pool.logged history p mem past e rest log
  exact ⟨x, inside, past, label, by rw [log]; exact List.subset_append_left _ _⟩

/-- What a request has logged before a call were steps. -/
theorem Server.recalled (before : History (Server.Step site) Server.empty tr s)
    {k : RouteRequest} {past : RouteLog} {e e' : RouteEvent}
    (step : Server.Step site s (.call k past e) s') (called : e' ∈ past) :
    ∃ x ∈ tr, ∃ past', x.label = .call k past' e' := by
  obtain ⟨p, mem, rfl, rfl⟩ := Pool.Step.caller step
  obtain ⟨x, inside, past', label, -⟩ := Server.logged before mem called
  exact ⟨x, inside, past', label⟩

end Server

end Intellivault.Auth
