import Intellivault.Auth.Service

/-!
# Challenges, sessions and the account statements

The rows of `webauthn_challenges` and `sessions`, and one definition for each statement that
the ceremonies, the sessions and the account routes run on them.  A statement sees the time
the transaction started, `now()`, which every statement here takes from the clock.
-/

namespace Intellivault.Auth

open Lib

/-- A row of `webauthn_challenges`. -/
structure ChallengeRow where
  id : UUID
  challenge : Bytes
  userId : Option UUID
  email : Option String
  displayName : Option String
  expiresAt : Time
deriving DecidableEq

/-- A row of `sessions`. -/
structure SessionRow where
  id : UUID
  userId : UUID
  tokenHash : Bytes
  createdAt : Time
  expiresAt : Int
  lastSeenAt : Time
deriving DecidableEq

/-- The auth tables, the clock, and what the random generators have yielded so far. -/
structure Store where
  accounts : Db := {}
  challenges : List ChallengeRow := []
  sessions : List SessionRow := []
  now : Time := 0
  minted : List UUID := []
  tokens : List String := []

/-- A clock tick is a microsecond. -/
def minute : Time := 60000000

/-- `_TTL` -/
def challengeTtl : Time := 5 * minute

def hours (n : Int) : Int := n * (60 * minute)

namespace Statement

/-! ## Challenges -/

/-- `DELETE FROM webauthn_challenges WHERE expires_at < now()` -/
def sweepChallenges (w : Store) : Store :=
  { w with challenges := w.challenges.filter fun c => ¬c.expiresAt < w.now }

/-- `store_challenge.sql` -/
def storeChallenge (id : UUID) (challenge : Bytes) (userId : Option UUID)
    (email displayName : Option String) (expiresAt : Time) (w : Store) :
    Except Exn (UUID × Store) :=
  if ∃ c ∈ w.challenges, c.id = id then .error .uniqueViolation
  else if userId.any fun user => ¬∃ row ∈ w.accounts.users, row.id = user then
    .error .foreignKeyViolation
  else
    let row := { id, challenge, userId, email, displayName, expiresAt }
    .ok (id, { w with challenges := w.challenges ++ [row] })

/-- The `WHERE` of `pop_challenge.sql`. -/
def isPending (id : UUID) (now : Time) (c : ChallengeRow) : Bool := c.id = id ∧ now < c.expiresAt

/-- `pop_challenge.sql` -/
def popChallenge (id : UUID) (w : Store) : Option ChallengeRow × Store :=
  (w.challenges.find? (isPending id w.now),
    { w with challenges := w.challenges.filter fun c => !isPending id w.now c })

/-! ## Sessions -/

/-- `DELETE FROM sessions WHERE expires_at < now()` -/
def sweepSessions (w : Store) : Store :=
  { w with sessions := w.sessions.filter fun s => ¬s.expiresAt < w.now }

/-- `INSERT INTO sessions (user_id, token_hash, expires_at)` -/
def insertSession (id userId : UUID) (tokenHash : Bytes) (expiresAt : Int) (w : Store) :
    Except Exn (Unit × Store) :=
  if ∃ s ∈ w.sessions, s.id = id ∨ s.tokenHash = tokenHash then .error .uniqueViolation
  else if ¬∃ row ∈ w.accounts.users, row.id = userId then .error .foreignKeyViolation
  else
    let row := { id, userId, tokenHash, createdAt := w.now, expiresAt, lastSeenAt := w.now }
    .ok ((), { w with sessions := w.sessions ++ [row] })

/-- The `WHERE` of `resolve_session.sql`, on the session. -/
def isLive (tokenHash : Bytes) (now : Time) (s : SessionRow) : Bool :=
  s.tokenHash = tokenHash ∧ now < s.expiresAt

/-- The user a session belongs to. -/
def owner (w : Store) (s : SessionRow) : Option UserRow :=
  w.accounts.users.find? fun user => user.id = s.userId

/-- `resolve_session.sql` -/
def resolveSession (tokenHash : Bytes) (w : Store) : Option UserRow × Store :=
  ((w.sessions.filter (isLive tokenHash w.now)).findSome? (owner w),
    { w with sessions := w.sessions.map fun s =>
        if isLive tokenHash w.now s ∧ (owner w s).isSome then { s with lastSeenAt := w.now } else s })

/-- `DELETE FROM sessions WHERE token_hash = $1` -/
def revokeSession (tokenHash : Bytes) (w : Store) : Store :=
  { w with sessions := w.sessions.filter fun s => s.tokenHash ≠ tokenHash }

/-! ## Users and passkeys -/

/-- `SELECT 1 FROM users WHERE lower(email) = $1` -/
def emailTaken (lower : String → String) (email : String) (w : Store) : Bool :=
  w.accounts.users.any fun user => lower user.email = email

/-- `credential_with_user.sql` -/
def credentialWithUser (rawId : Bytes) (w : Store) : Option (CredentialRow × UserRow) :=
  (w.accounts.credentials.filter fun c => c.credentialId = rawId).findSome? fun c =>
    (w.accounts.users.find? fun user => user.id = c.userId).map fun user => (c, user)

/-- `UPDATE webauthn_credentials SET sign_count = $1, last_used_at = now() WHERE id = $2` -/
def updateSignCount (signCount : Nat) (id : UUID) (w : Store) : Store :=
  { w with
    accounts := { w.accounts with
      credentials := w.accounts.credentials.map fun c =>
        if c.id = id then { c with signCount, lastUsedAt := some w.now } else c } }

/-- `SELECT credential_id FROM webauthn_credentials WHERE user_id = $1` -/
def descriptors (userId : UUID) (w : Store) : List Bytes :=
  (w.accounts.credentials.filter fun c => c.userId = userId).map (·.credentialId)

/-- `list_credentials.sql` -/
def listCredentials (userId : UUID) (w : Store) : List CredentialRow :=
  (w.accounts.credentials.filter fun c => c.userId = userId).mergeSort fun a b =>
    a.createdAt ≤ b.createdAt

/-- `update_account.sql` -/
def updateAccount (lower : String → String) (id : UUID) (email displayName : String)
    (w : Store) : Except Exn (Option UserRow × Store) :=
  match w.accounts.users.find? fun user => user.id = id with
  | none => .ok (none, w)
  | some user =>
      if ∃ other ∈ w.accounts.users, other.id ≠ id ∧
          (other.email = email ∨ lower other.email = lower email) then .error .uniqueViolation
      else
        let users := w.accounts.users.map fun row =>
          if row.id = id then { row with email, displayName } else row
        .ok (some { user with email, displayName }, { w with accounts := { w.accounts with users } })

end Statement

end Intellivault.Auth
