import Intellivault.Auth.Statements
import Intellivault.Lib.Pool

/-!
# The account operations

`finish_registration`, `finish_add_passkey` and `delete_credential` of
`app/auth/service.py`, as programs over the calls they make.

Postgres runs each statement at `READ COMMITTED`: the one `DELETE` with a subquery is two
calls, its snapshot and its effect, between which others may commit; every other statement
is one call, and so is the registration transaction, which commits at once.
-/

namespace Intellivault.Auth

open Lib

/-- `SessionUser`. -/
structure SessionUser where
  id : UUID
  email : String
  displayName : String

/-- The browser's reply to a ceremony.  Of the JSON the service itself reads the transports. -/
structure CeremonyResponse where
  json : Json
  transports : List String

/-- `AddPasskeyFinishRequest`. -/
structure AddPasskeyFinishRequest where
  name : Bounded 1 100
  credential : CeremonyResponse

/-- `CredentialSummary`. -/
structure CredentialSummary where
  id : UUID
  name : String
  createdAt : Time
  lastUsedAt : Option Time
  transports : List String

/-! ## Calls -/

inductive Call where
  /-- `verify_registration_response(..)` -/
  | verify (challenge : Bytes) (credential : CeremonyResponse)
  /-- The transaction of `finish_registration`. -/
  | registration (email displayName : String) (verified : Verified) (transports : List String)
  | insertCredential (userId : UUID) (verified : Verified) (transports : List String)
      (name : String)
  | credentialSummaryById (id : UUID)
  /-- A `DELETE` starts: the committed data it will look at. -/
  | snapshot
  /-- It takes effect. -/
  | deleteCredential (snapshot : Db) (id userId : UUID)
  | credentialExists (id userId : UUID)
  | issueSession (userId : UUID)

def Call.Answer : Call → Type
  | .verify _ _ => Verified
  | .registration _ _ _ _ => UserRow
  | .insertCredential _ _ _ _ => UUID
  | .credentialSummaryById _ => Option CredentialRow
  | .snapshot => Db
  | .deleteCredential _ _ _ => Option UUID
  | .credentialExists _ _ => Nat
  | .issueSession _ => String

abbrev Coroutine (α : Type) : Type := Prog Call Call.Answer Exn α

def call (c : Call) : Coroutine c.Answer := Prog.perform c

/-! ## The service -/

def sessionUser (row : UserRow) : SessionUser := ⟨row.id, row.email, row.displayName⟩

def summary (row : CredentialRow) : CredentialSummary :=
  ⟨row.id, row.name, row.createdAt, row.lastUsedAt, row.transports⟩

/-- `except asyncpg.UniqueViolationError` of `_insert_credential`. -/
def conflict : Exn → Exn
  | .uniqueViolation => .http ⟨409, "That passkey is already registered"⟩
  | exc => exc

/-- The body of the transaction; raising rolls it back. -/
def registration (lower : String → String) (userId id : UUID) (now : Time)
    (email displayName : String) (verified : Verified) (transports : List String) (db : Db) :
    Except Exn (UserRow × Db) :=
  match Statement.insertUser lower userId now email displayName db with
  | .error exc => .error exc
  | .ok (none, _) => .error (.http ⟨409, "An account with that email already exists"⟩)
  | .ok (some user, db) =>
      match Statement.insertCredential id now user.id verified transports "Passkey" db with
      | .error exc => .error (conflict exc)
      | .ok (_, db) => .ok (user, db)

def verifyRegistration (challenge : Bytes) (credential : CeremonyResponse) : Coroutine Verified :=
  (call (.verify challenge credential)).handle fun
    | .webAuthn => .raise (.http ⟨400, "Passkey registration failed"⟩)
    | exc => .raise exc

def finishRegistration (challenge : Bytes) (email displayName : Option String)
    (credential : CeremonyResponse) : Coroutine (SessionUser × String) :=
  match email, displayName with
  | some email, some displayName => do
      let verified ← verifyRegistration challenge credential
      let row : UserRow ← call (.registration email displayName verified credential.transports)
      let user := sessionUser row
      let token ← call (.issueSession user.id)
      return (user, token)
  | _, _ => .raise (.http ⟨400, "No registration in progress"⟩)

def finishAddPasskey (challenge : Bytes) (userId : Option UUID) (user : SessionUser)
    (req : AddPasskeyFinishRequest) : Coroutine CredentialSummary :=
  if userId ≠ some user.id then .raise (.http ⟨400, "No passkey registration in progress"⟩)
  else do
    let verified ← verifyRegistration challenge req.credential
    let newId : UUID ← (call (.insertCredential user.id verified req.credential.transports
      req.name.val)).handle fun exc => .raise (conflict exc)
    let row : Option CredentialRow ← call (.credentialSummaryById newId)
    match row with
    | none => .raise (.other "AssertionError")
    | some row => return summary row

/-- The statement `delete_credential.sql`. -/
def deleteStatement (credentialId userId : UUID) : Coroutine (Option UUID) := do
  let snapshot ← call .snapshot
  call (.deleteCredential snapshot credentialId userId)

def deleteCredential (user : SessionUser) (credentialId : UUID) : Coroutine Unit := do
  let deleted ← deleteStatement credentialId user.id
  if deleted ≠ none then return
  else
    let found : Nat ← call (.credentialExists credentialId user.id)
    if found ≠ 0 then .raise (.http ⟨409, "You must keep at least one passkey"⟩)
    else .raise (.http ⟨404, "Passkey not found"⟩)

/-! ## Sessions over one database -/

/-- What a session asks for. -/
inductive Request where
  | finishRegistration (challenge : Bytes) (email displayName : Option String)
      (credential : CeremonyResponse)
  | finishAddPasskey (challenge : Bytes) (userId : Option UUID) (user : SessionUser)
      (req : AddPasskeyFinishRequest)
  | deleteCredential (user : SessionUser) (credentialId : UUID)

def Request.body : Request → Coroutine Unit
  | .finishRegistration challenge email displayName credential => do
      let _ ← Auth.finishRegistration challenge email displayName credential
  | .finishAddPasskey challenge userId user req => do
      let _ ← Auth.finishAddPasskey challenge userId user req
  | .deleteCredential user credentialId => Auth.deleteCredential user credentialId

/-- What the surroundings choose: fresh ids, the clock, and the answers from elsewhere. -/
structure Choices where
  userId : UUID := 0
  id : UUID := 0
  now : Time := 0
  verified : Except Exn Verified := .error .webAuthn
  token : Except Exn String := .ok ""

/-- How a call is answered, and the tables after it. -/
def Call.respond (lower : String → String) (choices : Choices) :
    (c : Call) → Db → Except Exn c.Answer × Db
  | .verify _ _, db => (choices.verified, db)
  | .registration email displayName verified transports, db =>
      match Auth.registration lower choices.userId choices.id choices.now email displayName
        verified transports db with
      | .ok (user, after) => (.ok user, after)
      | .error exc => (.error exc, db)
  | .insertCredential userId verified transports name, db =>
      match Statement.insertCredential choices.id choices.now userId verified transports name
        db with
      | .ok (id, after) => (.ok id, after)
      | .error exc => (.error exc, db)
  | .credentialSummaryById id, db => (.ok (Statement.credentialSummaryById id db), db)
  | .snapshot, db => (.ok db, db)
  | .deleteCredential seen id userId, db =>
      let (deleted, after) := Statement.deleteCredential seen id userId db
      (.ok deleted, after)
  | .credentialExists id userId, db => (.ok (Statement.credentialExists id userId db), db)
  | .issueSession _, db => (choices.token, db)

/-- A call is answered so, or it raises, before or after it took effect. -/
def postgres (lower : String → String) : Prog.Handler Call Call.Answer Exn Db :=
  fun c db r db' => ∃ choices,
    r = (c.respond lower choices db).1 ∧ db' = (c.respond lower choices db).2 ∨
    (∃ exc, r = .error exc) ∧ (db' = db ∨ db' = (c.respond lower choices db).2)

/-- Sessions start at any time. -/
def arrives (db : Db) (_ : Request) (db' : Db) : Prop := db' = db

/-- The sessions of any number of users over one database. -/
abbrev Sessions := Pool Request Call Call.Answer Exn Db

abbrev Sessions.Step (lower : String → String) :
    Sessions → Action Request Call Call.Answer Exn → Sessions → Prop :=
  Pool.Step Request.body (postgres lower) arrives

end Intellivault.Auth
