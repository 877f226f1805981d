import Certctl.SessionService

/-!
# The break-glass service

An actor with a break-glass password logs in without the identity provider.
Wrong passwords are counted in the credential and lock it at a threshold.
The login is a program over the tables.
-/

namespace Certctl.BreakglassService

open DomainRecords AuthTables SessionService

/-- When a credential is locked. -/
structure BreakglassConfig where
  enabled : Bool
  lockoutThreshold : ℤ
  /-- How long it stays locked. -/
  lockoutDuration : Time
  /-- Idle time after which the failures are forgotten. -/
  lockoutResetInterval : Time

/-- The service as configured. -/
structure BreakglassServer where
  cfg : BreakglassConfig
  tenantID : String
  sessions : Option SessionServer

/-- The kind of actor that a break-glass session belongs to. -/
def actorTypeUser : String := "User"

/-- What a login returns. -/
structure AuthenticateResult where
  cookieValue : String
  /-- The token against forged requests. -/
  csrfToken : String
deriving DecidableEq

/-- A check against nothing, for the sake of its time. -/
def verifyDummy : Service Unit := do
  let _ ← ask (.readRand 16)
  pure ()

def locked (cred : BreakglassCredential) (now : Time) : Bool := cred.lockedUntil.any (now<·)

def stale (svc : BreakglassServer) (cred : BreakglassCredential) (now : Time) : Bool :=
  (cred.lastFailureAt.any fun failed => svc.cfg.lockoutResetInterval<now-failed) && 0<cred.failureCount

def lockoutSeconds (svc : BreakglassServer) : ℤ := svc.cfg.lockoutDuration.tdiv second

/-- Make a session for an actor whose password was right. -/
def mint (svc : BreakglassServer) (actorID ip userAgent : String) : Service (Try AuthenticateResult) :=
  match svc.sessions with
  | none => pure (.ok ⟨"",""⟩)
  | some minter => do
    match ← create minter actorID actorTypeUser ip userAgent with
    | .error mintErr => raise (mintErr.wrapped "breakglass: session mint: ")
    | .ok result => pure (.ok ⟨result.cookieValue,result.csrfToken⟩)

/-- Check a password and act on the verdict. -/
def judge (svc : BreakglassServer) (actorID plaintext ip userAgent : String) (cred : BreakglassCredential) :
    Service (Try AuthenticateResult) := do
  match ← ask (.verifyPassword plaintext cred.passwordHash) with
  | .ok true =>
    let _ ← ask (.resetFailureCount actorID svc.tenantID)
    mint svc actorID ip userAgent
  | _ =>
    let _ ← ask (.incrementFailure actorID svc.tenantID svc.cfg.lockoutThreshold (lockoutSeconds svc))
    raise Sentinel.breakglassInvalidCredentials.error

def authenticate (svc : BreakglassServer) (actorID plaintext ip userAgent : String) :
    Service (Try AuthenticateResult) :=
  if svc.cfg.enabled=false then raise Sentinel.breakglassDisabled.error
  else do
    match ← ask (.getByActor actorID svc.tenantID) with
    | .error _ =>
      verifyDummy
      raise Sentinel.breakglassInvalidCredentials.error
    | .ok cred =>
      let now ← ask .clockNow
      if locked cred now then
        verifyDummy
        raise Sentinel.breakglassInvalidCredentials.error
      else if stale svc cred now then
        let _ ← ask (.resetFailureCount actorID svc.tenantID)
        judge svc actorID plaintext ip userAgent cred
      else judge svc actorID plaintext ip userAgent cred

end Certctl.BreakglassService
