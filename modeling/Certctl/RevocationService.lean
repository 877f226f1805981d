import Certctl.OcspResponder

/-!
# Revoking a managed certificate

The revocation of a certificate, operation by operation: the certificate
and its newest version are read, the status and the revocation row are
written together, the issuer is told, and the cached status response of
that serial number is deleted.
-/

namespace Certctl.RevocationService

open AtomicProgram Prog ControlPlaneTables ControlPlaneStore DomainRecords RecordTable OcspResponder

/-- The revocation service as configured. -/
structure RevocationSvc where
  revocationRepo : Bool := true
  tx : Bool := true
  issuerRegistry : Bool := true
  ocspCacheInvalidator : Option OCSPResponseCacheService := none
  notificationSvc : Bool := false

def isValidRevocationReason (reason : String) : Bool := (validRevocationReasons.lookup reason).isSome

/-- Write the status and the revocation row, in one transaction when it is wired. -/
def recordRevocation (svc : RevocationSvc) (cert : ManagedCertificate) (revocation : CertificateRevocation) :
    Service (Try Unit) :=
  if svc.tx then
    withinTx (.updateCertificate cert::if svc.revocationRepo then [.createRevocation revocation] else [])
  else do
    match ← withinTx [.updateCertificate cert] with
    | .error err => raise (err.wrapped "failed to update certificate status: ")
    | .ok _ =>
      -- a failed insert is only logged on this path
      if svc.revocationRepo then
        let _ ← withinTx [.createRevocation revocation]
        pure (.ok ())
      else pure (.ok ())

/-- Tell the issuer, as far as it can be reached. -/
def notifyIssuer (svc : RevocationSvc) (cert : ManagedCertificate) (serial reason : String) : Service Unit :=
  if !svc.issuerRegistry then pure ()
  else do
    if !(← getIssuer cert.issuerID) then pure ()
    else
      match ← revokeCertificate cert.issuerID serial reason with
      | .error _ => pure ()
      | .ok _ =>
        if !svc.revocationRepo then pure ()
        else
          match ← listRevocationsByCertificate cert.id with
          | .error _ => pure ()
          | .ok revocations =>
            Prog.forEach (revocations.filter (·.serialNumber=serial)) fun rev => do
              let _ ← withinTx [.markIssuerNotified rev.id]
              pure ()

/-- Delete the cached response; a failure is only logged. -/
def invalidateCache (svc : RevocationSvc) (issuerID serial : String) : Service Unit :=
  match svc.ocspCacheInvalidator with
  | none => pure ()
  | some cache => do
    let _ ← invalidateOnRevoke cache issuerID serial
    pure ()

/-- What follows a recorded revocation; none of it can fail the call. -/
def announceRevocation (svc : RevocationSvc) (cert : ManagedCertificate) (serial reason : String) :
    Service (Try Unit) := do
  notifyIssuer svc cert serial reason
  invalidateCache svc cert.issuerID serial
  if svc.notificationSvc then
    let _ ← sendRevocationNotification cert reason
    pure (.ok ())
  else pure (.ok ())

/-- The reason recorded when none is given. -/
def effectiveReason (reason : String) : String := if reason="" then "unspecified" else reason

def revokeLatestVersion (svc : RevocationSvc) (cert : ManagedCertificate) (certID reason actor : String) :
    Service (Try Unit) := do
  match ← getLatestVersion certID with
  | .error err => raise (err.wrapped "failed to get certificate version: ")
  | .ok version =>
    let now ← timeNow
    let id ← generateID "rev"
    let revoked := {cert with status := .revoked, revokedAt := some now, revocationReason := reason}
    match ← recordRevocation svc revoked ⟨id,certID,version.serialNumber,reason,actor,now,cert.issuerID,false⟩ with
    | .error err => raise err
    | .ok _ => announceRevocation svc revoked version.serialNumber reason

def revokeCertificateWithActor (svc : RevocationSvc) (certID reason actor : String) : Service (Try Unit) := do
  match ← getCertificate certID with
  | .error err => raise (err.wrapped "failed to fetch certificate: ")
  | .ok cert =>
    if cert.status=.revoked then raise ⟨"certificate is already revoked",none⟩
    else if cert.status=.archived then raise ⟨"cannot revoke archived certificate",none⟩
    else if !isValidRevocationReason (effectiveReason reason) then
      raise ⟨"invalid revocation reason: "++effectiveReason reason,none⟩
    else revokeLatestVersion svc cert certID (effectiveReason reason) actor

variable {row : ManagedCertificate} {revocation : CertificateRevocation}

section Operations

/-- The row after its revocation. -/
structure RevokedRow (cert row : ManagedCertificate) : Prop where
  id : row.id=cert.id
  status : row.status=.revoked
  profile : row.certificateProfileID=cert.certificateProfileID

/-- The operations that a revocation may use: reads, the row of the certificate once it is
revoked, the revocation row, and the upkeep after it. -/
structure RevokeOps (P : Op→Prop) (cert : ManagedCertificate) (certID : String) : Prop where
  read : ∀ op,op.answersAtOnce=true → (∀ issuerID serial,op≠.getVersionBySerial issuerID serial) → P op
  record : ∀ row,RevokedRow cert row → P (.withinTx [.updateCertificate row])
  recordBoth : ∀ row,RevokedRow cert row → ∀ revocation : CertificateRevocation,revocation.certificateID=certID →
    P (.withinTx [.updateCertificate row,.createRevocation revocation])
  revocation : ∀ revocation : CertificateRevocation,revocation.certificateID=certID →
    P (.withinTx [.createRevocation revocation])
  notified : ∀ id,P (.withinTx [.markIssuerNotified id])
  invalidate : ∀ issuerID serialHex,P (.withinTx [.deleteOCSPResponse issuerID serialHex])

variable {P : Op→Prop} {svc : RevocationSvc} {cert : ManagedCertificate} {certID : String}

section

variable (h : RevokeOps P cert certID)
include h

theorem uses_recordRevocation (hrow : RevokedRow cert row) (hrevocation : revocation.certificateID=certID) :
    (recordRevocation svc row revocation).Uses P := by
  rw [recordRevocation]
  split
  · split
    · exact ⟨h.recordBoth row hrow revocation hrevocation,fun _ => trivial⟩
    · exact ⟨h.record row hrow,fun _ => trivial⟩
  refine uses_request (h.record row hrow) (onAnswer fun _ => ?_)
  dsimp only
  split
  · exact uses_request (h.revocation revocation hrevocation) fun _ => trivial
  · trivial

theorem uses_notifyIssuer (serial reason : String) : (notifyIssuer svc row serial reason).Uses P := by
  rw [notifyIssuer]
  split
  · trivial
  refine uses_request (h.read _ rfl nofun) fun known => ?_
  split
  · trivial
  refine uses_request (h.read _ rfl nofun) (onAnswer fun _ => ?_)
  dsimp only
  split
  · trivial
  refine uses_request (h.read _ rfl nofun) (onAnswer fun _ => ?_)
  refine uses_forEach _ fun rev _ => ?_
  exact uses_request (h.notified rev.id) fun _ => trivial

theorem uses_invalidateCache (issuerID serial : String) : (invalidateCache svc issuerID serial).Uses P := by
  rw [invalidateCache]
  split
  · trivial
  rename_i cache _
  have hdelete : (invalidateOnRevoke cache issuerID serial).Uses P := by
    rw [invalidateOnRevoke]
    split
    · trivial
    · exact ⟨h.invalidate issuerID serial,fun _ => trivial⟩
  exact uses_bind hdelete fun _ => trivial

theorem uses_announceRevocation (serial reason : String) : (announceRevocation svc row serial reason).Uses P := by
  refine uses_bind (uses_notifyIssuer h serial reason) fun _ => ?_
  refine uses_bind (uses_invalidateCache h row.issuerID serial) fun _ => ?_
  split
  · exact uses_request (h.read _ rfl nofun) fun _ => trivial
  · trivial

theorem uses_revokeLatestVersion (reason actor : String) :
    (revokeLatestVersion svc cert certID reason actor).Uses P := by
  refine uses_request (h.read _ rfl nofun) (onAnswer fun _ => ?_)
  refine uses_request (h.read _ rfl nofun) fun now => ?_
  refine uses_request (h.read _ rfl nofun) fun id => ?_
  refine uses_bind (uses_recordRevocation h ⟨rfl,rfl,rfl⟩ rfl) (onAnswer fun _ => ?_)
  exact uses_announceRevocation h _ _

end

theorem uses_revokeCertificateWithActor (hread : P (.getCertificate certID)) (h : ∀ cert,RevokeOps P cert certID)
    (reason actor : String) : (revokeCertificateWithActor svc certID reason actor).Uses P := by
  refine uses_request hread (onAnswer fun cert => ?_)
  dsimp only
  split
  · trivial
  split
  · trivial
  split
  · trivial
  · exact uses_revokeLatestVersion (h cert) (effectiveReason reason) actor

end Operations

section Executions

variable {svc : RevocationSvc} {cert : ManagedCertificate} {db : Db}

end Executions

end Certctl.RevocationService
