import Certctl.AuthTables
import Certctl.SessionCookies

/-!
# The session service

Sessions are made after a login, looked up by their cookie, kept alive by
requests and ended by a revocation or a sweep; the keys that sign the
cookies are rotated and swept. Each method is a program over the tables.
-/

namespace Certctl.SessionService

open AtomicProgram DomainRecords AuthTables SessionCookies

abbrev Service := Prog store

def isSpace (ch : Char) : Bool :=
  let n := ch.toNat
  (9≤n && n≤13) || n==32 || n==133 || n==160 || n==5760 || (8192≤n && n≤8202) || n==8232 || n==8233 || n==8239 ||
    n==8287 || n==12288

/-- The text is empty once its spaces are trimmed. -/
def blank (text : String) : Bool := text.toList.all isSpace

def isHexDigit (ch : Char) : Bool := (48≤ch.toNat && ch.toNat≤57) || (97≤ch.toNat && ch.toNat≤102)

def defaultTenantID : String := "t-default"

/-- How long sessions live. -/
structure Config where
  /-- Longest time between two requests. -/
  idleTimeout : Time
  /-- Longest life of a session. -/
  absoluteTimeout : Time
  /-- How long a retired key still verifies. -/
  signingKeyRetention : Time
  /-- A session is bound to its address. -/
  bindIP : Bool
  bindUserAgent : Bool

/-- The service as configured. -/
structure SessionServer where
  crypto : Cryptography
  tenantID : String
  cfg : Config
  encryption : String
  named : blank tenantID=false

/-- The columns of a session are as they should be; a missing tenant is filled in. -/
def validateSession (s : Session) : Try Session :=
  if hasPrefix s.id "ses-"=false then .error ⟨"session: id must start with 'ses-'",none⟩
  else if blank s.actorID then .error ⟨"session: actor_id is required",none⟩
  else if blank s.actorType then .error ⟨"session: actor_type is required",none⟩
  else if hasPrefix s.signingKeyID "sk-"=false then .error ⟨"session: signing_key_id must start with 'sk-'",none⟩
  else if ¬s.idleExpiresAt < s.absoluteExpiresAt then
    .error ⟨"session: absolute_expires_at must be > idle_expires_at",none⟩
  else if s.createdAt≠zeroTime ∧ ¬s.createdAt < s.idleExpiresAt then
    .error ⟨"session: idle_expires_at must be after created_at",none⟩
  else if s.isPreLogin=false ∧ blank s.csrfTokenHash=true then
    .error ⟨"session: csrf_token_hash must be 64 hex characters (sha256) when set",none⟩
  else if s.csrfTokenHash≠"" ∧
      ¬(LengthPrefixed.size s.csrfTokenHash.toList=64 ∧ s.csrfTokenHash.toList.all isHexDigit=true) then
    .error ⟨"session: csrf_token_hash must be 64 hex characters (sha256) when set",none⟩
  else if blank s.tenantID then .ok {s with tenantID := defaultTenantID}
  else .ok s

/-- The columns of a key are as they should be; a missing tenant is filled in. -/
def validateKey (k : SessionSigningKey) : Try SessionSigningKey :=
  if hasPrefix k.id "sk-"=false then .error ⟨"session: signing key id must start with 'sk-'",none⟩
  else if k.keyMaterialEncrypted=[] then .error ⟨"session: signing key material is required",none⟩
  else if k.createdAt≠zeroTime ∧ k.retiredAt.any (·<k.createdAt)=true then
    .error ⟨"session: retired_at cannot be before created_at",none⟩
  else if blank k.tenantID then .ok {k with tenantID := defaultTenantID}
  else .ok k

/-- An identifier made of sixteen random bytes. -/
def newOpaqueID (front : String) : Service (Try String) := do
  match ← ask (.readRand 16) with
  | .error err => raise err
  | .ok b => pure (.ok (front++String.ofList (Base64Url.encode b)))

/-- A token made of thirty-two random bytes. -/
def newCSRFToken : Service (Try String) := do
  match ← ask (.readRand 32) with
  | .error err => raise err
  | .ok b => pure (.ok (String.ofList (Base64Url.encode b)))

def newKeyMaterial : Service (Try (List UInt8)) := ask (.readRand 32)

def hashCSRFToken (crypto : Cryptography) (plaintext : String) : String := crypto.sha256Hex plaintext

/-- A session with its cookie and its token. -/
structure CreateResult where
  session : Session
  cookieValue : String
  /-- Its token against forged requests. -/
  csrfToken : String
deriving DecidableEq

def newSession (svc : SessionServer) (now : Time) (sessionID keyID csrfToken actorID actorType ip userAgent : String) :
    Session where
  id := sessionID
  actorID := actorID
  actorType := actorType
  signingKeyID := keyID
  isPreLogin := false
  csrfTokenHash := hashCSRFToken svc.crypto csrfToken
  idleExpiresAt := now+svc.cfg.idleTimeout
  absoluteExpiresAt := now+svc.cfg.absoluteTimeout
  createdAt := now
  lastSeenAt := now
  ipAddress := ip
  userAgent := userAgent
  revokedAt := none
  tenantID := svc.tenantID

/-- Make a session and sign its cookie. -/
def create (svc : SessionServer) (actorID actorType ip userAgent : String) : Service (Try CreateResult) :=
  if blank actorID then raise ⟨"session: actor_id is required",none⟩
  else if blank actorType then raise ⟨"session: actor_type is required",none⟩
  else do
    match ← ask (.getActiveKey svc.tenantID) with
    | .error err => raise (err.wrapped "session: get active signing key: ")
    | .ok active =>
      match decryptKeyMaterial svc.crypto active.keyMaterialEncrypted svc.encryption with
      | .error err => raise (err.wrapped "session: decrypt active key material: ")
      | .ok hmacKey =>
        match ← newOpaqueID "ses-" with
        | .error err => raise (err.wrapped "session: generate session id: ")
        | .ok sessionID =>
          match ← newCSRFToken with
          | .error err => raise (err.wrapped "session: generate csrf token: ")
          | .ok csrfToken =>
            let now ← ask .clockNow
            match validateSession (newSession svc now sessionID active.id csrfToken actorID actorType ip userAgent) with
            | .error verr => raise (verr.wrapped "session: validate row: ")
            | .ok row =>
              match ← ask (.createSession row) with
              | .error cerr => raise (cerr.wrapped "session: create row: ")
              | .ok () => pure (.ok ⟨row,signCookie svc.crypto row.id row.signingKeyID hmacKey,csrfToken⟩)

/-- What a request presents. -/
structure ValidateInput where
  cookieValue : String
  clientIP : String
  userAgent : String

/-- The session is alive and the request comes from where it is bound to. -/
def admitRow (svc : SessionServer) (now : Time) (req : ValidateInput) (row : Session) : Try Session :=
  if row.revokedAt≠none then .error Sentinel.sessionRevoked.error
  else if ¬now<row.absoluteExpiresAt then .error Sentinel.sessionExpiredAbsolute.error
  else if ¬now<row.lastSeenAt+svc.cfg.idleTimeout then .error Sentinel.sessionExpiredIdle.error
  else if svc.cfg.bindIP=true ∧ req.clientIP≠"" ∧ row.ipAddress≠"" ∧ req.clientIP≠row.ipAddress then
    .error Sentinel.sessionIPMismatch.error
  else if svc.cfg.bindUserAgent=true ∧ req.userAgent≠"" ∧ row.userAgent≠"" ∧ req.userAgent≠row.userAgent then
    .error Sentinel.sessionUAMismatch.error
  else .ok row

def pastRetention (svc : SessionServer) (now : Time) (key : SessionSigningKey) : Bool :=
  key.retiredAt.any fun retired => retired+svc.cfg.signingKeyRetention<now

def validate (svc : SessionServer) (req : ValidateInput) : Service (Try Session) :=
  match parseCookie req.cookieValue with
  | .error _ => raise Sentinel.sessionInvalidCookie.error
  | .ok parsed =>
    if hasPrefix parsed.sessionID "ses-"=false then raise Sentinel.sessionInvalidCookie.error
    else do
      match ← ask (.getKey parsed.signingKeyID) with
      | .error _ => raise Sentinel.signingKeyNotFound.error
      | .ok signingKey =>
        let now ← ask .clockNow
        if pastRetention svc now signingKey then raise Sentinel.signingKeyRetired.error
        else
          match decryptKeyMaterial svc.crypto signingKey.keyMaterialEncrypted svc.encryption with
          | .error _ => raise Sentinel.sessionInvalidCookie.error
          | .ok hmacKey =>
            if computeHMAC svc.crypto parsed.sessionID parsed.signingKeyID hmacKey≠parsed.hmacBytes then
              raise Sentinel.sessionInvalidCookie.error
            else
              match ← ask (.getSession parsed.sessionID) with
              | .error err =>
                if err.is .sessionRowNotFound then raise Sentinel.sessionInvalidCookie.error
                else raise (Sentinel.sessionTransient.because err.text)
              | .ok row => pure (admitRow svc now req row)

/-- The token of a request belongs to its session. -/
def validateCSRF (svc : SessionServer) (headerValue : String) (sess : Session) : Try Unit :=
  if blank headerValue then .error Sentinel.csrfMissing.error
  else if sess.csrfTokenHash="" then .error Sentinel.csrfMismatch.error
  else if hashCSRFToken svc.crypto headerValue≠sess.csrfTokenHash then .error Sentinel.csrfMismatch.error
  else .ok ()

def reported (front : String) : Try Unit→Try Unit
  | .error err => .error (err.wrapped front)
  | .ok () => .ok ()

def updateLastSeen (sessionID : String) : Service (Try Unit) := do
  let done ← ask (.updateLastSeen sessionID)
  pure (reported "session: update_last_seen: " done)

def revoke (sessionID : String) : Service (Try Unit) := do
  let done ← ask (.revokeSession sessionID)
  pure (reported "session: revoke: " done)

def revokeAllForActor (svc : SessionServer) (actorID actorType : String) : Service (Try Unit) := do
  let done ← ask (.revokeAllForActor actorID actorType svc.tenantID)
  pure (reported "session: revoke_all_for_actor: " done)

/-- Give a session another token. -/
def rotateCSRFToken (svc : SessionServer) (sessionID : String) : Service (Try String) := do
  match ← newCSRFToken with
  | .error err => raise (err.wrapped "session: generate csrf token: ")
  | .ok csrfToken =>
    match ← ask (.updateCSRFTokenHash sessionID (hashCSRFToken svc.crypto csrfToken)) with
    | .error uerr => raise (uerr.wrapped "session: update csrf hash: ")
    | .ok () => pure (.ok csrfToken)

def rotationSkips (now : Time) (sess : Session) : Bool :=
  sess.revokedAt≠none || sess.absoluteExpiresAt<now || sess.idleExpiresAt<now

def rotateListed (svc : SessionServer) (now : Time) (rotated : ℕ) (sess : Session) : Service ℕ :=
  if rotationSkips now sess then pure rotated
  else do
    match ← rotateCSRFToken svc sess.id with
    | .error _ => pure rotated
    | .ok _ => pure (rotated+1)

def rotateCSRFTokenForActor (svc : SessionServer) (actorID actorType : String) : Service ℕ := do
  match ← ask (.listByActor actorID actorType svc.tenantID) with
  | .error _ => pure 0
  | .ok rows =>
    let now ← ask .clockNow
    Prog.foldEach rows 0 (rotateListed svc now)

/-- Where the making of a key failed. -/
inductive MintStage where
  | newID
  | material
  | encryption
  | validation
  | insertion

/-- Draw, encrypt and insert a key; the errors are worded by the caller. -/
def mintKey (svc : SessionServer) (failed : MintStage→GoError→GoError) : Service (Try String) := do
  match ← newOpaqueID "sk-" with
  | .error err => raise (failed .newID err)
  | .ok newID =>
    match ← newKeyMaterial with
    | .error err => raise (failed .material err)
    | .ok plaintext =>
      match encryptKeyMaterial svc.crypto plaintext svc.encryption with
      | .error err => raise (failed .encryption err)
      | .ok ciphertext =>
        match validateKey ⟨newID,svc.tenantID,ciphertext,zeroTime,none⟩ with
        | .error verr => raise (failed .validation verr)
        | .ok k =>
          match ← ask (.addKey k) with
          | .error aerr => raise (failed .insertion aerr)
          | .ok () => pure (.ok newID)

def rotationFailed : MintStage→GoError→GoError
  | .newID,err => err.wrapped "session: generate signing key id: "
  | .material,err => err.wrapped "session: generate signing key material: "
  | .encryption,err => err.wrapped "session: encrypt signing key material: "
  | .validation,err => err.wrapped "session: validate new key: "
  | .insertion,err => err.wrapped "session: add new signing key: "

def bootstrapFailed : MintStage→GoError→GoError
  | .newID,err => Sentinel.initialSigningKeyMintFailed.because err.text
  | .material,err => Sentinel.initialSigningKeyMintFailed.because err.text
  | .encryption,err => Sentinel.initialSigningKeyMintFailed.because err.text
  | .validation,err => Sentinel.initialSigningKeyMintFailed.because ("validate: "++err.text)
  | .insertion,err => Sentinel.initialSigningKeyMintFailed.because ("persist: "++err.text)

/-- Add a key and retire the active one. -/
def rotateSigningKey (svc : SessionServer) : Service (Try Unit) := do
  match ← ask (.getActiveKey svc.tenantID) with
  | .error err => raise (err.wrapped "session: get active for rotate: ")
  | .ok currentActive =>
    match ← mintKey svc rotationFailed with
    | .error err => raise err
    | .ok _ =>
      let done ← ask (.retireKey currentActive.id)
      pure (reported "session: retire previous active key: " done)

/-- Add a key unless there is an active one. -/
def ensureInitialSigningKey (svc : SessionServer) : Service (Try Unit) := do
  match ← ask (.getActiveKey svc.tenantID) with
  | .ok _ => pure (.ok ())
  | .error err =>
    if err.is .sessionSigningKeyNotFound=false then raise (err.wrapped "session: probe active signing key: ")
    else
      match ← mintKey svc bootstrapFailed with
      | .error err => raise err
      | .ok _ => pure (.ok ())

/-- Delete one listed key if its retention has passed; a key in use stays. -/
def sweepKey (svc : SessionServer) (now : Time) (stopped : Err) (k : SessionSigningKey) :
    Service Err :=
  match stopped with
  | some err => pure (some err)
  | none =>
    if pastRetention svc now k=false then pure none
    else do
      match ← ask (.deleteKey k.id) with
      | .ok () => pure none
      | .error derr =>
        if derr.is .sessionSigningKeyInUse then pure none
        else pure (some (derr.wrapped ("session: gc delete signing key "++k.id++": ")))

/-- Delete the sessions that have ended and the keys whose retention has passed. -/
def garbageCollect (svc : SessionServer) : Service (ℕ×Err) := do
  match ← ask .garbageCollectExpired with
  | .error err => pure (0,some (err.wrapped "session: gc expired sessions: "))
  | .ok deleted =>
    match ← ask (.listKeys svc.tenantID) with
    | .error listErr => pure (deleted,some (listErr.wrapped "session: gc list keys: "))
    | .ok keys =>
      let now ← ask .clockNow
      let stopped ← Prog.foldEach keys none (sweepKey svc now)
      pure (deleted,stopped)

/-- Sign the cookie of a login under way. -/
def createPreLogin (svc : SessionServer) : Service (Try (String×String)) := do
  match ← ask (.getActiveKey svc.tenantID) with
  | .error err => raise (err.wrapped "pre-login: get active signing key: ")
  | .ok active =>
    match decryptKeyMaterial svc.crypto active.keyMaterialEncrypted svc.encryption with
    | .error err => raise (err.wrapped "pre-login: decrypt active key: ")
    | .ok hmacKey =>
      match ← newOpaqueID "pl-" with
      | .error err => raise (err.wrapped "pre-login: generate id: ")
      | .ok id =>
        match ← ask (.createPreLogin id active.id) with
        | .error err => raise (err.wrapped "pre-login: persist row: ")
        | .ok () => pure (.ok (signCookie svc.crypto id active.id hmacKey,id))

end Certctl.SessionService
