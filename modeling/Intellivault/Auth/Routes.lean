import Intellivault.Lib.Script
import Intellivault.Agent.Text
import Intellivault.Auth.Store

/-!
# The auth routes

`app/auth/ceremony.py`, `sessions.py`, `dependencies.py`, the rest of `service.py`, and the
routes of `router.py`, down to single statements.  The account operations are those of
`Auth.Service`, run over this interface: their calls stay calls, and the session they issue
is issued by its statements.
-/

namespace Intellivault.Auth

open Lib Prog

/-! ## Calls -/

inductive RouteCall where
  | account (c : Call)
  | emailTaken (email : String)
  /-- `uuid4()` -/
  | uuid4
  /-- The challenge the options are generated with. -/
  | generateChallenge
  /-- `datetime.now(UTC)` -/
  | clock
  | sweepChallenges
  | storeChallenge (challenge : Bytes) (userId : Option UUID) (email displayName : Option String)
      (expiresAt : Time)
  | popChallenge (id : UUID)
  /-- `secrets.token_urlsafe(..)` -/
  | tokenUrlsafe
  | sweepSessions
  | insertSession (userId : UUID) (tokenHash : Bytes) (expiresAt : Int)
  | resolveSession (tokenHash : Bytes)
  | revokeSession (tokenHash : Bytes)
  | credentialWithUser (rawId : Bytes)
  /-- `verify_authentication_response(..)` -/
  | verifyAuthentication (challenge : Bytes) (credential : CeremonyResponse) (publicKey : Bytes)
      (signCount : Nat)
  | updateSignCount (signCount : Nat) (id : UUID)
  | descriptors (userId : UUID)
  | listCredentials (userId : UUID)
  | updateAccount (id : UUID) (email displayName : String)
  /-- Not a call: whether the first of two gathered coroutines goes on. -/
  | turn

def RouteCall.Answer : RouteCall → Type
  | .account c => c.Answer
  | .emailTaken _ | .turn => Bool
  | .uuid4 | .storeChallenge _ _ _ _ _ => UUID
  | .generateChallenge => Bytes
  | .clock => Time
  | .sweepChallenges | .sweepSessions | .insertSession _ _ _ | .revokeSession _
  | .updateSignCount _ _ => Unit
  | .popChallenge _ => Option ChallengeRow
  | .tokenUrlsafe => String
  | .resolveSession _ | .updateAccount _ _ _ => Option UserRow
  | .credentialWithUser _ => Option (CredentialRow × UserRow)
  | .verifyAuthentication _ _ _ _ => Nat
  | .descriptors _ => List Bytes
  | .listCredentials _ => List CredentialRow

abbrev Route (α : Type) : Type := Prog RouteCall RouteCall.Answer Exn α

def routeCall (c : RouteCall) : Route c.Answer := Prog.perform c

/-- What a deployment fixes, and the two functions the code takes from its libraries. -/
structure Site where
  /-- Postgres's `lower()`. -/
  lower : String → String
  /-- `_digest` -/
  digest : String → Bytes
  /-- `base64url_to_bytes(value)`; `none` is its `ValueError`. -/
  base64url : Json → Option Bytes
  sessionTtlHours : Int := 720

/-! ## Request models -/

/-- `RegisterBeginRequest`, its email normalised. -/
structure RegisterBeginRequest where
  email : String
  displayName : Bounded 1 100

/-- `UpdateAccountRequest`, its email normalised. -/
structure UpdateAccountRequest where
  email : Option String := none
  displayName : Option (Bounded 1 100) := none

/-- What goes into the options of a ceremony. -/
structure CeremonyOptions where
  challenge : Bytes
  /-- The handle, email and display name of a registration. -/
  user : Option (UUID × String × String) := none
  exclude : List Bytes := []

/-- The `iv_session` and `iv_ceremony` cookies of a request. -/
structure Cookies where
  session : Option String := none
  ceremony : Option String := none

/-! ## `ceremony.py` -/

def storeChallenge (challenge : Bytes) (userId : Option UUID) (email displayName : Option String) :
    Route UUID := do
  let _ ← routeCall .sweepChallenges
  let now : Time ← routeCall .clock
  routeCall (.storeChallenge challenge userId email displayName (now + challengeTtl))

def popChallenge (cookieValue : Option String) : Route (Option ChallengeRow) :=
  match cookieValue with
  | none => return none
  | some value =>
      if value = "" then return none
      else
        match Agent.parseUuid value with
        | none => return none
        | some challengeId => routeCall (.popChallenge challengeId)

/-! ## `sessions.py` and `dependencies.py` -/

section Sessions

variable (site : Site)

def issueSession (userId : UUID) : Route String := do
  let token : String ← routeCall .tokenUrlsafe
  let now : Time ← routeCall .clock
  let _ ← routeCall .sweepSessions
  let _ ← routeCall (.insertSession userId (site.digest token) (now + hours site.sessionTtlHours))
  return token

def resolveSession (token : String) : Route (Option SessionUser) := do
  let row : Option UserRow ← routeCall (.resolveSession (site.digest token))
  return row.map sessionUser

def revokeSession (token : String) : Route Unit := routeCall (.revokeSession (site.digest token))

def currentUserOptional (cookies : Cookies) : Route (Option SessionUser) :=
  match cookies.session with
  | none => return none
  | some token => if token = "" then return none else resolveSession site token

def currentUser (cookies : Cookies) : Route SessionUser := do
  let user ← currentUserOptional site cookies
  match user with
  | none => .raise (.http ⟨401, "Not authenticated"⟩)
  | some user => return user

end Sessions

/-! ## `service.py` -/

section Service

variable (site : Site)

/-- The calls of the account operations: a session is issued by its statements. -/
def statements : (c : Call) → Route c.Answer
  | .issueSession userId => issueSession site userId
  | c => routeCall (.account c)

def beginRegistration (req : RegisterBeginRequest) : Route (CeremonyOptions × UUID) := do
  let taken : Bool ← routeCall (.emailTaken req.email)
  if taken then .raise (.http ⟨409, "An account with that email already exists"⟩)
  else do
    let handle : UUID ← routeCall .uuid4
    let challenge : Bytes ← routeCall .generateChallenge
    let challengeId ← storeChallenge challenge none (some req.email) (some req.displayName.val)
    return (⟨challenge, some (handle, req.email, req.displayName.val), []⟩, challengeId)

def beginLogin : Route (CeremonyOptions × UUID) := do
  let challenge : Bytes ← routeCall .generateChallenge
  let challengeId ← storeChallenge challenge none none none
  return ({ challenge }, challengeId)

/-- `base64url_to_bytes(credential["rawId"])` -/
def rawId (credential : CeremonyResponse) : Route Bytes :=
  let malformed : Exn := .http ⟨400, "Malformed passkey response"⟩
  match credential.json with
  | .obj fields =>
      match fields.lookup "rawId" with
      | none => .raise malformed
      | some value =>
          match site.base64url value with
          | none => .raise malformed
          | some bytes => return bytes
  | _ => .raise (.other "TypeError")

def verifyLogin (challenge : Bytes) (credential : CeremonyResponse) (row : CredentialRow) :
    Route Nat :=
  (routeCall (.verifyAuthentication challenge credential row.publicKey row.signCount)).handle fun
    | .webAuthn => .raise (.http ⟨401, "Passkey verification failed"⟩)
    | exc => .raise exc

/-- `await asyncio.gather(..)` of the sign-count bump and the new session. -/
def bumpAndIssue (newSignCount : Nat) (credentialId userId : UUID) : Route String := do
  let (bumped, issued) ← both RouteCall.turn (fun (first : Bool) => first)
    (routeCall (.updateSignCount newSignCount credentialId)) (issueSession site userId)
  match bumped, issued with
  | .error exc, _ => .raise exc
  | _, .error exc => .raise exc
  | .ok _, .ok token => return token

def finishLogin (challenge : Bytes) (credential : CeremonyResponse) :
    Route (SessionUser × String) := do
  let rawId ← rawId site credential
  let found : Option (CredentialRow × UserRow) ← routeCall (.credentialWithUser rawId)
  match found with
  | none => .raise (.http ⟨401, "Unknown passkey"⟩)
  | some (row, owner) => do
      let newSignCount ← verifyLogin challenge credential row
      let user : SessionUser := sessionUser owner
      let token ← bumpAndIssue site newSignCount row.id user.id
      return (user, token)

def beginAddPasskey (user : SessionUser) : Route (CeremonyOptions × UUID) := do
  let exclude : List Bytes ← routeCall (.descriptors user.id)
  let challenge : Bytes ← routeCall .generateChallenge
  let challengeId ← storeChallenge challenge (some user.id) none none
  return (⟨challenge, some (user.id, user.email, user.displayName), exclude⟩, challengeId)

def updateAccount (user : SessionUser) (req : UpdateAccountRequest) : Route SessionUser := do
  let email := req.email.getD user.email
  let displayName := (req.displayName.map Bounded.val).getD user.displayName
  let row : Option UserRow ← (routeCall (.updateAccount user.id email displayName)).handle fun
    | .uniqueViolation => .raise (.http ⟨409, "That email is already in use"⟩)
    | exc => .raise exc
  match row with
  | none => .raise (.other "AssertionError")
  | some row => return sessionUser row

def listCredentials (user : SessionUser) : Route (List CredentialSummary) := do
  let rows : List CredentialRow ← routeCall (.listCredentials user.id)
  return rows.map summary

end Service

/-! ## `router.py` -/

def pop (cookies : Cookies) : Route ChallengeRow := do
  let challenge ← popChallenge cookies.ceremony
  match challenge with
  | none => .raise (.http ⟨400, "Ceremony expired or missing — start again"⟩)
  | some challenge => return challenge

/-- A request to one of the routes. -/
inductive RouteRequest where
  | registerBegin (req : RegisterBeginRequest)
  | registerFinish (cookies : Cookies) (credential : CeremonyResponse)
  | loginBegin
  | loginFinish (cookies : Cookies) (credential : CeremonyResponse)
  | logout (cookies : Cookies)
  | me (cookies : Cookies)
  | patchMe (cookies : Cookies) (req : UpdateAccountRequest)
  | getCredentials (cookies : Cookies)
  | addPasskeyBegin (cookies : Cookies)
  | addPasskeyFinish (cookies : Cookies) (req : AddPasskeyFinishRequest)
  | removeCredential (cookies : Cookies) (credentialId : UUID)

section Router

variable (site : Site)

def registerBegin (req : RegisterBeginRequest) : Route (CeremonyOptions × UUID) :=
  beginRegistration req

def registerFinish (cookies : Cookies) (credential : CeremonyResponse) :
    Route (SessionUser × String) := do
  let ceremony ← pop cookies
  (finishRegistration ceremony.challenge ceremony.email ceremony.displayName credential).interp
    (statements site)

def loginBegin : Route (CeremonyOptions × UUID) := beginLogin

def loginFinish (cookies : Cookies) (credential : CeremonyResponse) :
    Route (SessionUser × String) := do
  let ceremony ← pop cookies
  finishLogin site ceremony.challenge credential

def logout (cookies : Cookies) : Route Unit :=
  match cookies.session with
  | none => return
  | some token => if token = "" then return else revokeSession site token

def me (cookies : Cookies) : Route SessionUser := do
  let user ← currentUserOptional site cookies
  match user with
  | none => .raise (.http ⟨401, "Not authenticated"⟩)
  | some user => return user

def patchMe (cookies : Cookies) (req : UpdateAccountRequest) : Route SessionUser := do
  let user ← currentUser site cookies
  updateAccount user req

def getCredentials (cookies : Cookies) : Route (List CredentialSummary) := do
  let user ← currentUser site cookies
  listCredentials user

def addPasskeyBegin (cookies : Cookies) : Route (CeremonyOptions × UUID) := do
  let user ← currentUser site cookies
  beginAddPasskey user

def addPasskeyFinish (cookies : Cookies) (req : AddPasskeyFinishRequest) :
    Route CredentialSummary := do
  let user ← currentUser site cookies
  let ceremony ← pop cookies
  (finishAddPasskey ceremony.challenge ceremony.userId user req).interp (statements site)

def removeCredential (cookies : Cookies) (credentialId : UUID) : Route Unit := do
  let user ← currentUser site cookies
  (deleteCredential user credentialId).interp (statements site)

def RouteRequest.body : RouteRequest → Route Unit
  | .registerBegin req => do
      let _ ← Auth.registerBegin req
  | .registerFinish cookies credential => do
      let _ ← Auth.registerFinish site cookies credential
  | .loginBegin => do
      let _ ← Auth.loginBegin
  | .loginFinish cookies credential => do
      let _ ← Auth.loginFinish site cookies credential
  | .logout cookies => Auth.logout site cookies
  | .me cookies => do
      let _ ← Auth.me site cookies
  | .patchMe cookies req => do
      let _ ← Auth.patchMe site cookies req
  | .getCredentials cookies => do
      let _ ← Auth.getCredentials site cookies
  | .addPasskeyBegin cookies => do
      let _ ← Auth.addPasskeyBegin site cookies
  | .addPasskeyFinish cookies req => do
      let _ ← Auth.addPasskeyFinish site cookies req
  | .removeCredential cookies credentialId => Auth.removeCredential site cookies credentialId

end Router

/-! ## The site over its database -/

/-- What the surroundings choose for a call. -/
structure Draws where
  choices : Choices := {}
  uuid4 : UUID := 0
  challenge : Bytes := []
  token : String := ""
  /-- The counter the authenticator asserts, or a bad signature. -/
  assertion : Except Exn Nat := .error .webAuthn
  first : Bool := true

/-- py_webauthn's rule for the counter of an assertion. -/
def counterAccepted (current asserted : Nat) : Bool :=
  current < asserted ∨ asserted = 0 ∧ current = 0

/-- The world at the time of a call, with its draws noted. -/
def Store.tick (draws : Draws) (w : Store) : Store :=
  { w with
    now := draws.choices.now
    minted := draws.choices.id :: draws.choices.userId :: w.minted }

/-- A statement that may violate a constraint: then nothing changes. -/
def settle {α : Type} (w : Store) (done : Except Exn (α × Store)) : Except Exn α × Store :=
  match done with
  | .ok (a, after) => (.ok a, after)
  | .error exc => (.error exc, w)

/-- How a call is answered, in a world that has its time already. -/
def RouteCall.respond (site : Site) (draws : Draws) :
    (c : RouteCall) → Store → Except Exn c.Answer × Store
  | .account c, w =>
      let (r, accounts) := c.respond site.lower draws.choices w.accounts
      (r, { w with accounts })
  | .emailTaken email, w => (.ok (Statement.emailTaken site.lower email w), w)
  | .uuid4, w => (.ok draws.uuid4, w)
  | .generateChallenge, w => (.ok draws.challenge, w)
  | .clock, w => (.ok w.now, w)
  | .sweepChallenges, w => (.ok (), Statement.sweepChallenges w)
  | .storeChallenge challenge userId email displayName expiresAt, w =>
      settle w (Statement.storeChallenge draws.choices.id challenge userId email displayName
        expiresAt w)
  | .popChallenge id, w =>
      let (row, after) := Statement.popChallenge id w
      (.ok row, after)
  | .tokenUrlsafe, w => (.ok draws.token, { w with tokens := draws.token :: w.tokens })
  | .sweepSessions, w => (.ok (), Statement.sweepSessions w)
  | .insertSession userId tokenHash expiresAt, w =>
      settle w (Statement.insertSession draws.choices.id userId tokenHash expiresAt w)
  | .resolveSession tokenHash, w =>
      let (row, after) := Statement.resolveSession tokenHash w
      (.ok row, after)
  | .revokeSession tokenHash, w => (.ok (), Statement.revokeSession tokenHash w)
  | .credentialWithUser rawId, w => (.ok (Statement.credentialWithUser rawId w), w)
  | .verifyAuthentication _ _ _ current, w =>
      (match draws.assertion with
        | .ok asserted => if counterAccepted current asserted then .ok asserted else .error .webAuthn
        | .error exc => .error exc, w)
  | .updateSignCount signCount id, w => (.ok (), Statement.updateSignCount signCount id w)
  | .descriptors userId, w => (.ok (Statement.descriptors userId w), w)
  | .listCredentials userId, w => (.ok (Statement.listCredentials userId w), w)
  | .updateAccount id email displayName, w =>
      settle w (Statement.updateAccount site.lower id email displayName w)
  | .turn, w => (.ok draws.first, w)

/-- What a library raises: what the code expects of it, or something else. -/
def fromLibrary {α : Type} : Except Exn α → Bool
  | .ok _ | .error .webAuthn | .error (.other _) => true
  | .error _ => false

/-- The draws are new, the clock does not go back, and no library raises for the database. -/
structure Draws.Fresh (draws : Draws) (w : Store) : Prop where
  id : draws.choices.id ∉ w.minted
  userId : draws.choices.userId ∉ w.minted
  distinct : draws.choices.id ≠ draws.choices.userId
  token : draws.token ∉ w.tokens
  now : w.now ≤ draws.choices.now
  verified : fromLibrary draws.choices.verified
  assertion : fromLibrary draws.assertion

instance (draws : Draws) (w : Store) : Decidable (draws.Fresh w) :=
  decidable_of_iff (draws.choices.id ∉ w.minted ∧ draws.choices.userId ∉ w.minted ∧
      draws.choices.id ≠ draws.choices.userId ∧ draws.token ∉ w.tokens ∧
      w.now ≤ draws.choices.now ∧ fromLibrary draws.choices.verified ∧
      fromLibrary draws.assertion)
    ⟨fun ⟨id, userId, distinct, token, now, verified, assertion⟩ =>
      ⟨id, userId, distinct, token, now, verified, assertion⟩,
    fun ⟨id, userId, distinct, token, now, verified, assertion⟩ =>
      ⟨id, userId, distinct, token, now, verified, assertion⟩⟩

/-- A call is answered so, or it fails and does nothing. -/
def served (site : Site) : Prog.Handler RouteCall RouteCall.Answer Exn Store :=
  fun c w r w' => ∃ draws : Draws, draws.Fresh w ∧
    (r = (c.respond site draws (w.tick draws)).1 ∧ w' = (c.respond site draws (w.tick draws)).2 ∨
      (∃ message, r = .error (.other message)) ∧ w' = w.tick draws)

/-- Requests come at any time. -/
def comes {K : Type} (w : Store) (_ : K) (w' : Store) : Prop := w' = w

abbrev Server := Pool RouteRequest RouteCall RouteCall.Answer Exn Store

abbrev ServerAction := Action RouteRequest RouteCall RouteCall.Answer Exn

abbrev ServerTransition := Transition Server ServerAction

abbrev Server.Step (site : Site) : Server → ServerAction → Server → Prop :=
  Pool.Step (RouteRequest.body site) (served site) comes

/-- Nobody has registered yet. -/
def Server.empty : Server := ⟨{}, []⟩

/-- Any processes over the database, along a schedule. -/
def playServed {K : Type} (site : Site) (body : K → Route Unit)
    (check : Transition (Pool K RouteCall RouteCall.Answer Exn Store)
      (Action K RouteCall RouteCall.Answer Exn) → Bool)
    (pool : Pool K RouteCall RouteCall.Answer Exn Store) (moves : List (Pool.Move K Draws)) :
    Option (Pool K RouteCall RouteCall.Answer Exn Store) :=
  Pool.play body (fun w _ => some w)
    (fun draws c w =>
      if draws.Fresh w then some (c.respond site draws (w.tick draws)) else none)
    check pool moves

theorem playServed_history {K : Type} {site : Site} {body : K → Route Unit}
    {check : Transition (Pool K RouteCall RouteCall.Answer Exn Store)
      (Action K RouteCall RouteCall.Answer Exn) → Bool}
    {moves : List (Pool.Move K Draws)} {start s s' : Pool K RouteCall RouteCall.Answer Exn Store}
    {tr : List (Transition (Pool K RouteCall RouteCall.Answer Exn Store)
      (Action K RouteCall RouteCall.Answer Exn))}
    (before : History (Pool.Step body (served site) comes) start tr s)
    (passed : ∀ x ∈ tr, check x = true) (played : playServed site body check s moves = some s') :
    ∃ more, History (Pool.Step body (served site) comes) start (tr ++ more) s' ∧
      ∀ x ∈ tr ++ more, check x = true := by
  have arriving : ∀ (w : Store) (k : K) (w' : Store), some w = some w' → comes w k w' :=
    fun _ _ _ same => (Option.some.inj same).symm
  have answers : ∀ (draws : Draws) (c : RouteCall) (w : Store) r w',
      (if draws.Fresh w then some (c.respond site draws (w.tick draws)) else none) = some (r, w') →
        served site c w r w' := by
    intro draws c w r w' answered
    obtain ⟨fresh, same⟩ := Option.ite_none_right_eq_some.mp answered
    obtain ⟨answer, after⟩ := Prod.mk.inj (Option.some.inj same)
    exact ⟨draws, fresh, .inl ⟨answer.symm, after.symm⟩⟩
  exact Pool.play_history arriving answers before passed played

/-- The site along a schedule. -/
def Server.playOn (site : Site) (check : ServerTransition → Bool) (s : Server)
    (moves : List (Pool.Move RouteRequest Draws)) : Option Server :=
  playServed site (RouteRequest.body site) check s moves

/-- The site from its beginning. -/
def Server.play (site : Site) (check : ServerTransition → Bool)
    (moves : List (Pool.Move RouteRequest Draws)) : Option Server :=
  Server.playOn site check Server.empty moves

theorem Server.playOn_history {site : Site} {check : ServerTransition → Bool}
    {moves : List (Pool.Move RouteRequest Draws)} {s s' : Server} {tr : List ServerTransition}
    (before : History (Server.Step site) Server.empty tr s) (passed : ∀ x ∈ tr, check x = true)
    (played : Server.playOn site check s moves = some s') :
    ∃ more, History (Server.Step site) Server.empty (tr ++ more) s' ∧
      ∀ x ∈ tr ++ more, check x = true :=
  playServed_history before passed played

theorem Server.play_history {site : Site} {check : ServerTransition → Bool}
    {moves : List (Pool.Move RouteRequest Draws)} {s : Server}
    (played : Server.play site check moves = some s) :
    ∃ tr, History (Server.Step site) Server.empty tr s ∧ ∀ x ∈ tr, check x = true :=
  Server.playOn_history .start (List.forall_mem_nil _) played

/-! ## A deployment to play on -/

/-- Emails are in lower case already, and the only passkey id is `[1]`. -/
def localhost : Site where
  lower email := email
  digest token := token.toList.map fun c => UInt8.ofNat c.toNat
  base64url value :=
    match value with
    | .str text => if text = "AQ" then some [1] else none
    | _ => none

/-- The draws of the `n`-th call: everything is new, and the authenticator agrees. -/
def draw (n : Nat) : Draws where
  choices := {
    id := BitVec.ofNat 128 (2 * n + 1)
    userId := BitVec.ofNat 128 (2 * n + 2)
    now := n
    verified := .ok ⟨[1], [2], 0, "0"⟩ }
  challenge := [UInt8.ofNat n]
  token := String.ofList (List.replicate n 't')
  assertion := .ok 0

/-- A process makes its calls one after the other, from the `n`-th call on. -/
def inTurn (i n calls : Nat) : List (Pool.Move RouteRequest Draws) :=
  (List.range calls).map fun j => .call i (draw (n + j))

/-- What the browser sends back for the passkey `[1]`. -/
def passkey : CeremonyResponse := ⟨.obj [("rawId", .str "AQ")], []⟩

/-- Ada registers with the calls 1 to 13, and gets the token of the tenth. -/
def registering : List (Pool.Move RouteRequest Draws) :=
  .start (.registerBegin ⟨"ada@example.org", .of "Ada" (Eq.refl true)⟩) :: inTurn 0 1 6 ++
    .start (.registerFinish { ceremony := some "0000000000000000000000000000000d" } passkey) ::
      inTurn 1 7 7

def adasSession : Option String := some "tttttttttt"

end Intellivault.Auth
