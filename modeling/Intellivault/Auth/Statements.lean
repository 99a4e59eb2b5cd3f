import Intellivault.Graph.Model

/-!
# The auth tables and their statements

The rows of `users` and `webauthn_credentials`, and one definition for each file of
`app/auth/sql/` that the account operations run on them.  Constraints are checked as the
migrations declare them: both primary keys, `users.email` and its index on `lower(email)`,
`webauthn_credentials.credential_id`, and the reference to the user.
-/

namespace Intellivault.Auth

open Lib

abbrev Bytes := List UInt8

/-- A row of `users`. -/
structure UserRow where
  id : UUID
  email : String
  displayName : String
  createdAt : Time
deriving DecidableEq

/-- A row of `webauthn_credentials`. -/
structure CredentialRow where
  id : UUID
  userId : UUID
  credentialId : Bytes
  publicKey : Bytes
  signCount : Nat
  transports : List String
  aaguid : String
  name : String
  createdAt : Time
  lastUsedAt : Option Time := none
deriving DecidableEq

structure Db where
  users : List UserRow := []
  credentials : List CredentialRow := []
deriving DecidableEq

inductive Exn where
  | http (x : HTTPException)
  | webAuthn
  | uniqueViolation
  | foreignKeyViolation
  /-- Any other exception. -/
  | other (message : String)
deriving DecidableEq

/-- What `verify_registration_response` returns, as far as it is stored. -/
structure Verified where
  credentialId : Bytes
  credentialPublicKey : Bytes
  signCount : Nat
  aaguid : String

/-- The number of passkeys of a user. -/
def Db.passkeys (db : Db) (userId : UUID) : Nat :=
  db.credentials.countP fun c => c.userId = userId

/-- Every existing user has a passkey. -/
def Db.NoneLockedOut (db : Db) : Prop := ∀ user ∈ db.users, 0 < db.passkeys user.id

instance (db : Db) : Decidable db.NoneLockedOut :=
  inferInstanceAs (Decidable (∀ user ∈ db.users, 0 < db.passkeys user.id))

namespace Statement

/-- `insert_user.sql`; no row comes back when the email is taken.  `lower` is Postgres's. -/
def insertUser (lower : String → String) (id : UUID) (now : Time) (email displayName : String)
    (db : Db) : Except Exn (Option UserRow × Db) :=
  if ∃ user ∈ db.users, user.email = email then .ok (none, db)
  else if ∃ user ∈ db.users, user.id = id ∨ lower user.email = lower email then
    .error .uniqueViolation
  else
    let user := { id, email, displayName, createdAt := now }
    .ok (some user, { db with users := db.users ++ [user] })

/-- `insert_credential.sql` -/
def insertCredential (id : UUID) (now : Time) (userId : UUID) (verified : Verified)
    (transports : List String) (name : String) (db : Db) : Except Exn (UUID × Db) :=
  if ∃ c ∈ db.credentials, c.id = id ∨ c.credentialId = verified.credentialId then
    .error .uniqueViolation
  else if ¬∃ user ∈ db.users, user.id = userId then .error .foreignKeyViolation
  else
    let row := {
      id, userId, credentialId := verified.credentialId
      publicKey := verified.credentialPublicKey, signCount := verified.signCount
      transports, aaguid := verified.aaguid, name, createdAt := now }
    .ok (id, { db with credentials := db.credentials ++ [row] })

/-- The row `delete_credential.sql` names. -/
def isTarget (id userId : UUID) (c : CredentialRow) : Bool := c.id = id ∧ c.userId = userId

/-- The `WHERE` of `delete_credential.sql`, on the snapshot taken when the statement starts. -/
def mayDelete (snapshot : Db) (id userId : UUID) : Bool :=
  snapshot.credentials.any (isTarget id userId) ∧ 1 < snapshot.passkeys userId

def remove (id userId : UUID) (db : Db) : Db :=
  { db with credentials := db.credentials.filter fun c => !isTarget id userId c }

/-- The `DELETE` of `delete_credential.sql` taking effect: the row must still be there. -/
def deleteCredential (snapshot : Db) (id userId : UUID) (db : Db) : Option UUID × Db :=
  if mayDelete snapshot id userId ∧ db.credentials.any (isTarget id userId) then
    (some id, remove id userId db)
  else (none, db)

/-- `credential_exists.sql` -/
def credentialExists (id userId : UUID) (db : Db) : Nat :=
  db.credentials.countP (isTarget id userId)

/-- `credential_summary_by_id.sql` -/
def credentialSummaryById (id : UUID) (db : Db) : Option CredentialRow :=
  db.credentials.find? fun c => c.id = id

end Statement

end Intellivault.Auth
