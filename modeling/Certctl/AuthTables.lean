import Certctl.AtomicInterleaving
import Certctl.DomainRecords
import Certctl.RecordTable
import Mathlib.Data.List.Sort

/-!
# Tables of sessions and break-glass credentials

Sessions, the keys that sign their cookies and the break-glass credentials
are rows of three tables. Every call of a repository is one operation; so
are a reading of the clock, a reading of the random source and the check of
a password. The environment decides at each operation the time, the bytes
drawn and whether the operation fails. The state keeps the latest time, the
bytes drawn so far and the times of the password checks, which no operation
reads.
-/

namespace Certctl.AuthTables

open AtomicProgram DomainRecords RecordTable

/-- A row of the sessions table. -/
structure Session where
  /-- Primary key, from which the cookie is made. -/
  id : String
  actorID : String
  actorType : String
  signingKeyID : String
  /-- The row stands for a login under way. -/
  isPreLogin : Bool
  csrfTokenHash : String
  /-- End of the first idle window. -/
  idleExpiresAt : Time
  absoluteExpiresAt : Time
  createdAt : Time
  lastSeenAt : Time
  ipAddress : String
  userAgent : String
  revokedAt : Option Time
  tenantID : String
deriving DecidableEq

/-- A row of the signing keys. -/
structure SessionSigningKey where
  id : String
  tenantID : String
  keyMaterialEncrypted : List UInt8
  createdAt : Time
  retiredAt : Option Time
deriving DecidableEq

/-- A break-glass password and its failures. -/
structure BreakglassCredential where
  id : String
  tenantID : String
  actorID : String
  passwordHash : String
  failureCount : ℕ
  lockedUntil : Option Time
  lastFailureAt : Option Time
deriving DecidableEq

/-- The tables, and what no operation reads. -/
structure AuthDb where
  sessions : List Session
  keys : List SessionSigningKey
  credentials : List BreakglassCredential
  clock : Time
  /-- Bytes drawn from the random source. -/
  drawn : List (List UInt8)
  /-- Times at which a password was checked against a stored hash, latest first. -/
  verified : List Time
deriving DecidableEq

/-- The operations of the store. -/
inductive Op where
  | clockNow
  | readRand (count : ℕ)
  | getActiveKey (tenantID : String)
  | getKey (id : String)
  | addKey (key : SessionSigningKey)
  | retireKey (id : String)
  | listKeys (tenantID : String)
  | deleteKey (id : String)
  | createPreLogin (id signingKeyID : String)
  | createSession (row : Session)
  | getSession (id : String)
  | listByActor (actorID actorType tenantID : String)
  /-- Note a request of a session. -/
  | updateLastSeen (id : String)
  | updateCSRFTokenHash (id csrfTokenHash : String)
  | revokeSession (id : String)
  | revokeAllForActor (actorID actorType tenantID : String)
  /-- Delete the sessions that have ended. -/
  | garbageCollectExpired
  | getByActor (actorID tenantID : String)
  | incrementFailure (actorID tenantID : String) (threshold lockoutDurationSec : ℤ)
  | resetFailureCount (actorID tenantID : String)
  /-- Check a password against a stored hash. -/
  | verifyPassword (plaintext encoded : String)
deriving DecidableEq

def Res : Op→Type
  | .clockNow => Time
  | .readRand _ => Try (List UInt8)
  | .getActiveKey _ => Try SessionSigningKey
  | .getKey _ => Try SessionSigningKey
  | .addKey _ => Try Unit
  | .retireKey _ => Try Unit
  | .listKeys _ => Try (List SessionSigningKey)
  | .deleteKey _ => Try Unit
  | .createPreLogin _ _ => Try Unit
  | .createSession _ => Try Unit
  | .getSession _ => Try Session
  | .listByActor _ _ _ => Try (List Session)
  | .updateLastSeen _ => Try Unit
  | .updateCSRFTokenHash _ _ => Try Unit
  | .revokeSession _ => Try Unit
  | .revokeAllForActor _ _ _ => Try Unit
  | .garbageCollectExpired => Try ℕ
  | .getByActor _ _ => Try BreakglassCredential
  | .incrementFailure _ _ _ _ => Try BreakglassCredential
  | .resetFailureCount _ _ => Try Unit
  | .verifyPassword _ _ => Try Bool

/-- What the environment decides at an operation. -/
structure Choice where
  now : Time := 0
  fault : Err := none
  random : List UInt8 := []
  /-- A login under way refers to the key. -/
  referenced : Bool := false
  verdict : Try Bool := .ok false
  /-- How the database reports a violated constraint. -/
  violation : GoError := ⟨"pq: constraint violated",none⟩

def AuthDb.ticked (db : AuthDb) (now : Time) : AuthDb := {db with clock := now}

/-- An operation that may fail; a failure changes nothing but the time. -/
def fallible {α : Type} (c : Choice) (front : String) (db : AuthDb) (done : Try α×AuthDb) : Option (Try α×AuthDb) :=
  match c.fault with
  | some err => some (.error (err.wrapped front),db.ticked c.now)
  | none => some (done.1,done.2.ticked c.now)

theorem answered {α : Type} {c : Choice} {front : String} {db db' : AuthDb} {done : Try α×AuthDb}
    {r : Try α} (hfault : c.fault=none) (h : fallible c front db done=some (r,db')) :
    r=done.1 ∧ db'=done.2.ticked c.now := by
  rw [fallible,hfault] at h
  cases h
  exact ⟨rfl,rfl⟩

def found {ρ : Type} (missing : Sentinel) : Option ρ→Try ρ
  | none => .error missing.error
  | some row => .ok row

/-- Success if some row was touched. -/
def touched (missing : Sentinel) : Bool→Try Unit
  | true => .ok ()
  | false => .error missing.error

def newestFirst {ρ : Type} (createdAt : ρ→Time) (rows : List ρ) : List ρ :=
  rows.insertionSort fun a b => createdAt b≤createdAt a

def BreakglassCredential.owner (row : BreakglassCredential) : String×String := (row.actorID,row.tenantID)

def Session.ofActor (actorID actorType tenantID : String) (row : Session) : Bool :=
  row.actorID=actorID && row.actorType=actorType && row.tenantID=tenantID

def Session.revoked (now : Time) (row : Session) : Session :=
  if row.revokedAt=none then {row with revokedAt := some now} else row

def Session.revokedFor (actorID actorType tenantID : String) (now : Time) (row : Session) : Session :=
  if row.ofActor actorID actorType tenantID then row.revoked now else row

/-- The session has ended, or was a login that was not completed in ten minutes. -/
def Session.expired (now : Time) (row : Session) : Bool :=
  row.absoluteExpiresAt<now || (row.isPreLogin && row.createdAt<now-600*second)

def SessionSigningKey.retired (now : Time) (key : SessionSigningKey) : SessionSigningKey :=
  if key.retiredAt=none then {key with retiredAt := some now} else key

def BreakglassCredential.cleared (row : BreakglassCredential) : BreakglassCredential :=
  {row with failureCount := 0,lockedUntil := none,lastFailureAt := none}

def BreakglassCredential.failed (now : Time) (threshold lockoutDurationSec : ℤ) (row : BreakglassCredential) :
    BreakglassCredential :=
  {row with
    failureCount := row.failureCount+1
    lastFailureAt := some now
    lockedUntil := if threshold≤(row.failureCount+1 : ℕ) then some (now+lockoutDurationSec*second) else row.lockedUntil}

def Session.stored (row : Session) : Session := {row with revokedAt := none}

def SessionSigningKey.stored (now : Time) (key : SessionSigningKey) : SessionSigningKey :=
  {key with createdAt := if key.createdAt=zeroTime then now else key.createdAt, retiredAt := none}

def AuthDb.modifyCredential (db : AuthDb) (actorID tenantID : String) (f : BreakglassCredential→BreakglassCredential) :
    AuthDb :=
  {db with credentials := modify BreakglassCredential.owner (actorID,tenantID) f db.credentials}

def AuthDb.modifySession (db : AuthDb) (id : String) (f : Session→Session) : AuthDb :=
  {db with sessions := modify Session.id id f db.sessions}

def perform : (op : Op)→Choice→AuthDb→Option (Res op×AuthDb)
  | .clockNow,c,db => some (c.now,db.ticked c.now)
  | .readRand count,c,db =>
    if c.random.length=count then fallible c "" db (.ok c.random,{db with drawn := c.random::db.drawn}) else none
  | .getActiveKey tenantID,c,db =>
    fallible c "session_signing_keys get_active: " db
      (found .sessionSigningKeyNotFound (newestFirst SessionSigningKey.createdAt
        (db.keys.filter fun k => k.tenantID=tenantID && k.retiredAt=none)).head?,db)
  | .getKey id,c,db =>
    fallible c "session_signing_keys get: " db
      (found .sessionSigningKeyNotFound (lookup SessionSigningKey.id id db.keys),db)
  | .addKey key,c,db =>
    if (lookup SessionSigningKey.id key.id db.keys).isSome then
      fallible c "session_signing_keys add: " db (.error (c.violation.wrapped "session_signing_keys add: "),db)
    else fallible c "session_signing_keys add: " db (.ok (),{db with keys := db.keys++[key.stored c.now]})
  | .retireKey id,c,db =>
    fallible c "session_signing_keys retire: " db
      (touched .sessionSigningKeyNotFound (lookup SessionSigningKey.id id db.keys).isSome,
        {db with keys := modify SessionSigningKey.id id (SessionSigningKey.retired c.now) db.keys})
  | .listKeys tenantID,c,db =>
    fallible c "session_signing_keys list: " db
      (.ok (newestFirst SessionSigningKey.createdAt (db.keys.filter fun k => k.tenantID=tenantID)),db)
  | .deleteKey id,c,db =>
    if c.referenced || (db.sessions.any fun row => row.signingKeyID=id) then
      fallible c "session_signing_keys delete: " db (.error Sentinel.sessionSigningKeyInUse.error,db)
    else
      fallible c "session_signing_keys delete: " db
        (touched .sessionSigningKeyNotFound (lookup SessionSigningKey.id id db.keys).isSome,
          {db with keys := remove SessionSigningKey.id id db.keys})
  | .createPreLogin _ _,c,db => fallible c "" db (.ok (),db)
  | .createSession row,c,db =>
    if (lookup Session.id row.id db.sessions).isSome then
      fallible c "sessions create: " db (.error Sentinel.authDuplicateName.error,db)
    else if (lookup SessionSigningKey.id row.signingKeyID db.keys).isSome then
      fallible c "sessions create: " db (.ok (),{db with sessions := db.sessions++[row.stored]})
    else fallible c "sessions create: " db (.error (c.violation.wrapped "sessions create: "),db)
  | .getSession id,c,db =>
    fallible c "sessions get: " db (found .sessionRowNotFound (lookup Session.id id db.sessions),db)
  | .listByActor actorID actorType tenantID,c,db =>
    fallible c "sessions list_by_actor: " db (.ok (newestFirst Session.createdAt (db.sessions.filter fun row =>
        row.ofActor actorID actorType tenantID && row.revokedAt=none && !row.isPreLogin &&
          c.now<row.absoluteExpiresAt)),db)
  | .updateLastSeen id,c,db =>
    fallible c "sessions update_last_seen: " db (touched .sessionRowNotFound (lookup Session.id id db.sessions).isSome,
        db.modifySession id fun row => {row with lastSeenAt := c.now})
  | .updateCSRFTokenHash id csrfTokenHash,c,db =>
    fallible c "sessions update_csrf_token_hash: " db
      (touched .sessionRowNotFound (lookup Session.id id db.sessions).isSome,
        db.modifySession id fun row => {row with csrfTokenHash := csrfTokenHash})
  | .revokeSession id,c,db =>
    fallible c "sessions revoke: " db (touched .sessionRowNotFound (lookup Session.id id db.sessions).isSome,
        db.modifySession id (Session.revoked c.now))
  | .revokeAllForActor actorID actorType tenantID,c,db =>
    fallible c "sessions revoke_all_for_actor: " db
      (.ok (),{db with sessions := db.sessions.map (Session.revokedFor actorID actorType tenantID c.now)})
  | .garbageCollectExpired,c,db =>
    fallible c "sessions garbage_collect: " db (.ok (db.sessions.filter (Session.expired c.now)).length,
        {db with sessions := db.sessions.filter fun row => !row.expired c.now})
  | .getByActor actorID tenantID,c,db =>
    fallible c "breakglass get_by_actor: " db
      (found .breakglassNotFound (lookup BreakglassCredential.owner (actorID,tenantID) db.credentials),db)
  | .incrementFailure actorID tenantID threshold lockoutDurationSec,c,db =>
    fallible c "breakglass increment_failure: " db
      (found .breakglassNotFound ((lookup BreakglassCredential.owner (actorID,tenantID) db.credentials).map
          (BreakglassCredential.failed c.now threshold lockoutDurationSec)),
        db.modifyCredential actorID tenantID (BreakglassCredential.failed c.now threshold lockoutDurationSec))
  | .resetFailureCount actorID tenantID,c,db =>
    fallible c "breakglass reset_failure_count: " db
      (touched .breakglassNotFound (lookup BreakglassCredential.owner (actorID,tenantID) db.credentials).isSome,
        db.modifyCredential actorID tenantID BreakglassCredential.cleared)
  | .verifyPassword _ _,c,db => some (c.verdict,{db with verified := c.now::db.verified, clock := c.now})

def store : Store where
  Op := Op
  Res := Res
  State := AuthDb
  Choice := Choice
  perform := perform

abbrev ask (op : Op) : Prog store (Res op) := Prog.perform (S := store) op

/-- The clock does not go back, and no operation fails. -/
def steady : Prog.Allowed store := fun _ c db => db.clock≤c.now ∧ c.fault=none

end Certctl.AuthTables
