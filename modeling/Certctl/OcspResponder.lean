import Certctl.ControlPlaneStore
import Certctl.HexNumerals

/-!
# Signing and caching status responses

Live signing reads the revocation of a serial number and has the issuer
sign the status it finds; certificates of short-lived profiles are exempt
and always good. The cache in front of it returns a stored response while
its validity lasts and otherwise signs a new one, once for all concurrent
requests for one key, and stores it. Invalidation deletes the stored
response and does not look at signings in flight.
-/

namespace Certctl.OcspResponder

open AtomicProgram ControlPlaneTables ControlPlaneStore DomainRecords RecordTable

/-- Wiring of the service that signs responses. -/
structure CAOperationsSvc where
  revocationRepo : Bool := true
  certRepo : Bool := true
  profileRepo : Bool := true
  issuerRegistry : Bool := true

/-- The cache as configured. -/
structure OCSPResponseCacheService where
  cacheRepo : Bool := true
  caSvc : CAOperationsSvc := {}
  quote : String→String

def hour : Time := 3600*second

/-- The certificate's profile exempts it from revocation; read errors exempt nothing. -/
def certShortLived (certID : String) : Service Bool := do
  match ← getCertificate certID with
  | .error _ => pure false
  | .ok cert =>
    if cert.certificateProfileID="" then pure false
    else
      match ← getProfile cert.certificateProfileID with
      | .error _ => pure false
      | .ok profile => pure profile.isShortLived

/-- A revocation is stored, but its certificate is exempt. -/
def shortLivedExempt (svc : CAOperationsSvc) (issuerID serialHex : String) : Service Bool :=
  if svc.profileRepo && svc.certRepo then do
    match ← getRevocationByIssuerAndSerial issuerID serialHex with
    | .error _ => pure false
    | .ok rev => certShortLived rev.certificateID
  else pure false

/-- What to sign for a serial number that is not exempt. -/
def currentStatus (svc : CAOperationsSvc) (issuerID serialHex : String) (now : Time)
    (nonce : List UInt8) : Service OCSPSignRequest := do
  let good : OCSPSignRequest :=
    {certSerial := HexNumerals.parse serialHex, certStatus := .good, thisUpdate := now,
      nextUpdate := now+hour, nonce := nonce}
  match ← getRevocationByIssuerAndSerial issuerID serialHex with
  | .ok rev =>
    pure {good with certStatus := .revoked, revokedAt := rev.revokedAt, revocationReason := crlReasonCode rev.reason}
  | .error _ =>
    if svc.certRepo then
      match ← getCertificateByIssuerAndSerial issuerID serialHex with
      | .error _ => pure {good with certStatus := .unknown}
      | .ok _ => pure good
    else pure good

/-- Sign a response for the status that is stored now. -/
def liveSignOCSPResponse (svc : CAOperationsSvc) (issuerID serialHex : String)
    (nonce : List UInt8) : Service (Try OCSPResponse) :=
  if !svc.revocationRepo then raise ⟨"revocation repository not configured",none⟩
  else if !svc.issuerRegistry then raise ⟨"issuer registry not configured",none⟩
  else do
    if !(← getIssuer issuerID) then raise ⟨"issuer not found: "++issuerID,none⟩
    else
      let now ← timeNow
      if ← shortLivedExempt svc issuerID serialHex then
        signOCSPResponse issuerID
          {certSerial := HexNumerals.parse serialHex, certStatus := .good, thisUpdate := now,
            nextUpdate := now+hour, nonce := nonce}
      else
        let content ← currentStatus svc issuerID serialHex now nonce
        signOCSPResponse issuerID content

/-- The key under which concurrent signings are joined. -/
def flightKey (issuerID serialHex : String) : String := issuerID++"|"++serialHex

def storeResponse (issuerID serialHex : String) : Try OCSPResponse→Service Unit
  | .error _ => pure ()
  | .ok der => do
    let now ← timeNow
    let _ ← withinTx [.putOCSPResponse ⟨issuerID,serialHex,der,"good",now,now+hour⟩]
    pure ()

/-- Sign, store and hand the outcome to all who wait for this signing. -/
def leadFlight (svc : OCSPResponseCacheService) (issuerID serialHex : String) (entry : ℕ) :
    Service (Try OCSPResponse) := do
  let der ← liveSignOCSPResponse svc.caSvc issuerID serialHex []
  storeResponse issuerID serialHex der
  flightClose entry der
  flightDelete (flightKey issuerID serialHex)
  pure der

/-- Sign a fresh response, or wait for the signing already in flight. -/
def regenerate (svc : OCSPResponseCacheService) (issuerID serialHex : String) : Service (Try OCSPResponse) := do
  match ← flightLoad (flightKey issuerID serialHex) with
  | some entry => flightWait entry
  | none =>
    let (entry,alreadyInFlight) ← flightLoadOrStore (flightKey issuerID serialHex)
    if alreadyInFlight then flightWait entry
    else leadFlight svc issuerID serialHex entry

/-- Regenerate with the caller's error text. -/
def regenerateForGet (svc : OCSPResponseCacheService) (issuerID serialHex : String) : Service (Try OCSPResponse) := do
  match ← regenerate svc issuerID serialHex with
  | .error err =>
    raise (err.wrapped ("ocsp_response_cache regenerate "++svc.quote issuerID++"/"++svc.quote serialHex++": "))
  | .ok der => pure (.ok der)

/-- The cached response while it is fresh, else a newly signed one. -/
def get (svc : OCSPResponseCacheService) (issuerID serialHex : String) : Service (Try OCSPResponse) :=
  if !svc.cacheRepo then raise ⟨"ocsp_response_cache service: cache repo not configured",none⟩
  else do
    let now ← timeNow
    match ← getOCSPResponse issuerID serialHex with
    | .error err =>
      raise (err.wrapped ("ocsp_response_cache get "++svc.quote issuerID++"/"++svc.quote serialHex++": "))
    | .ok none => regenerateForGet svc issuerID serialHex
    | .ok (some entry) =>
      if !entry.isStale now then pure (.ok entry.responseDER)
      else regenerateForGet svc issuerID serialHex

def invalidateOnRevoke (svc : OCSPResponseCacheService) (issuerID serialHex : String) : Service (Try Unit) :=
  if !svc.cacheRepo then pure (.ok ())
  else withinTx [.deleteOCSPResponse issuerID serialHex]

/-- The profile of a stored certificate exempts it from revocation. -/
def shortLivedCert (db : Db) (certID : String) : Bool :=
  match lookup ManagedCertificate.id certID db.certs with
  | none => false
  | some cert =>
    if cert.certificateProfileID="" then false
    else
      match lookup CertificateProfile.id cert.certificateProfileID db.profiles with
      | none => false
      | some profile => profile.isShortLived

/-- The revocation of the serial number is stored. -/
def HasRow (key : String×String) (db : Db) : Prop := ∃ rev∈db.revocations,revocationKey rev=key

section Reads

theorem certShortLived_reads (certID : String) : Prompt (certShortLived certID) := by
  refine uses_request rfl (onAnswer fun _ => ?_)
  dsimp only
  split
  · trivial
  refine uses_request rfl (onAnswer fun _ => ?_)
  trivial

theorem liveSignOCSPResponse_reads (svc : CAOperationsSvc) (issuerID serialHex : String) (nonce : List UInt8) :
    Prompt (liveSignOCSPResponse svc issuerID serialHex nonce) := by
  have hexempt : Prompt (shortLivedExempt svc issuerID serialHex) := by
    unfold shortLivedExempt
    split
    · refine uses_request rfl (onAnswer fun rev => ?_)
      exact certShortLived_reads rev.certificateID
    · trivial
  have hstatus : ∀ now,Prompt (currentStatus svc issuerID serialHex now nonce) := by
    intro now
    refine uses_request rfl fun r => ?_
    cases r with
    | ok => trivial
    | error =>
      dsimp only
      split
      · refine uses_request rfl (onAnswer fun _ => ?_)
        trivial
      · trivial
  unfold liveSignOCSPResponse
  split
  · trivial
  split
  · trivial
  refine uses_request rfl fun known => ?_
  split
  · trivial
  refine uses_request rfl fun now => ?_
  refine Prog.uses_bind hexempt fun exempt => ?_
  split
  · exact ⟨rfl,fun _ => trivial⟩
  · exact Prog.uses_bind (hstatus now) fun content => ⟨rfl,fun _ => trivial⟩

end Reads

section Sequential

variable {svc : CAOperationsSvc} {issuerID serialHex : String} {db : Db}

theorem always_certShortLived (certID : String) :
    (certShortLived certID).Always faultFree (fun exempt db' => db'=db ∧ exempt=shortLivedCert db certID) db := by
  refine always_read rfl fun c hc => ?_
  simp only [effect,readRow,fallible,hc,shortLivedCert]
  cases lookup ManagedCertificate.id certID db.certs with
  | none => exact ⟨rfl,rfl⟩
  | some cert =>
    dsimp only
    split
    · exact ⟨rfl,rfl⟩
    refine always_read rfl fun c' hc' => ?_
    simp only [effect,readRow,fallible,hc']
    cases lookup CertificateProfile.id cert.certificateProfileID db.profiles with
    | none | some => exact ⟨rfl,rfl⟩

theorem always_liveSignOCSPResponse (nonce : List UInt8) (hrepo : svc.revocationRepo=true)
    (hregistry : svc.issuerRegistry=true) (hissuer : db.issuers.contains issuerID=true)
    (hrow : HasRow (issuerID,serialHex) db) (hlong : ∀ rev∈db.revocations,revocationKey rev=(issuerID,serialHex) →
      shortLivedCert db rev.certificateID=false) :
    (liveSignOCSPResponse svc issuerID serialHex nonce).Always faultFree (fun outcome db' =>
      db'=db ∧ ∃ response,outcome=.ok response ∧ response.content.certStatus=.revoked) db := by
  obtain ⟨rev,hrev⟩ := lookup_isSome hrow
  obtain ⟨hmem,hkey⟩ := lookup_some hrev
  have hexempt := hlong rev hmem hkey
  simp only [liveSignOCSPResponse,hrepo,hregistry,Bool.not_true,Bool.false_eq_true]
  refine always_read rfl fun c hc => ?_
  simp only [effect,hissuer]
  refine always_read rfl fun c hc => ?_
  refine Prog.always_bind.mpr ?_
  have hfirst : (shortLivedExempt svc issuerID serialHex).Always faultFree
      (fun exempt db' => db'=db ∧ exempt=false) db := by
    unfold shortLivedExempt
    split
    · refine always_read rfl fun c hc => ?_
      simp only [effect,readRow,fallible,hc,hrev]
      refine (always_certShortLived rev.certificateID).mono fun exempt db' h => ?_
      exact ⟨h.1,h.2.trans hexempt⟩
    · exact ⟨rfl,rfl⟩
  refine hfirst.mono fun exempt db' h => ?_
  obtain ⟨rfl,rfl⟩ := h
  refine always_read rfl fun c hc => ?_
  simp only [effect,readRow,fallible,hc,hrev]
  refine always_read rfl fun c hc => ?_
  simp only [effect,answer,fallible,hc]
  exact ⟨rfl,_,rfl,rfl⟩

end Sequential

end Certctl.OcspResponder
