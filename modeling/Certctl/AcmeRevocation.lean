import Certctl.RevocationService
import Certctl.SerialNumberKeys

/-!
# Revocation on request of an ACME client

A client presents a certificate and signs the request either as an account
or with the key of the certificate. The service looks a stored version up
by the serial number of the presented certificate and revokes the managed
certificate that it is a version of. On the second path it compares the key
that signed with the key of the presented certificate; the key of the stored
version plays no part.
-/

namespace Certctl.AcmeRevocation

open AtomicProgram AtomicInterleaving ControlPlaneTables ControlPlaneStore DomainRecords RecordTable
open List hiding lookup
open RevocationService SerialNumberKeys

variable {Key : Type}

/-- A parsed leaf. -/
structure PresentedCertificate (Key : Type) where
  serialNumber : ℕ
  publicKey : Key

/-- Who signed a revocation request. -/
structure VerifiedRequest (Key : Type) where
  account : Option String
  jwk : Option Key

/-- Wiring of the ACME service, as far as revocation uses it. -/
structure ACMEService (Key : Type) where
  revoker : Option RevocationSvc
  certRepo : Bool := true
  issuerRegistry : Bool := true
  parseCertificate : List UInt8→Option (PresentedCertificate Key)
  jwkThumbprint : Key→Try String

def mapACMERevocationReason : ℤ→String
  | 0 => "unspecified"
  | 1 => "keyCompromise"
  | 2 => "caCompromise"
  | 3 => "affiliationChanged"
  | 4 => "superseded"
  | 5 => "cessationOfOperation"
  | 6 => "certificateHold"
  | 9 => "privilegeWithdrawn"
  | _ => "unspecified"

def jwksThumbprintsEqualSvc (svc : ACMEService Key) (a b : Key) : Try Bool :=
  match svc.jwkThumbprint a with
  | .error err => .error err
  | .ok tA =>
    match svc.jwkThumbprint b with
    | .error err => .error err
    | .ok tB => .ok (tA=tB)

def authorizeRevocation (svc : ACMEService Key) (verified : VerifiedRequest Key) (leaf : PresentedCertificate Key)
    (cert : ManagedCertificate) (serialHex : String) : Service (Try String) :=
  match verified.account,verified.jwk with
  | some accountID,_ => do
    match ← accountOwnsCertificate accountID cert.id with
    | .error err => raise (err.wrapped "acme: revoke-cert ownership lookup: ")
    | .ok owns =>
      if owns then pure (.ok ("acme:"++accountID)) else raise Sentinel.acmeRevocationUnauthorized.error
  | none,some jwk =>
    match jwksThumbprintsEqualSvc svc jwk leaf.publicKey with
    | .error err => raise (err.wrapped "acme: revoke-cert key compare: ")
    | .ok eq =>
      if eq then pure (.ok ("acme-cert-key:"++serialHex))
      else raise Sentinel.acmeRevocationUnauthorized.error
  | none,none => raise Sentinel.acmeRevocationUnauthorized.error

def containsText (text part : String) : Bool := text.toList.tails.any fun tail => part.toList.isPrefixOf tail

def delegateRevocation (revoker : RevocationSvc) (certID actor : String) (reasonCode : ℤ) : Service (Try Unit) := do
  match ← revokeCertificateWithActor revoker certID (mapACMERevocationReason reasonCode) actor with
  | .error err =>
    if containsText err.text "already revoked" then raise Sentinel.acmeRevocationAlreadyRevoked.error
    else raise (err.wrapped "acme: revoke pipeline: ")
  | .ok _ => pure (.ok ())

/-- Revoke the managed certificate of a version that has been looked up. -/
def revokeVersion (svc : ACMEService Key) (revoker : RevocationSvc) (verified : VerifiedRequest Key)
    (leaf : PresentedCertificate Key) (reasonCode : ℤ) (version : CertificateVersion) :
    Service (Try Unit) := do
  match ← getCertificate version.certificateID with
  | .error _ => raise Sentinel.acmeRevocationCertNotFound.error
  | .ok cert =>
    if cert.status=.revoked then raise Sentinel.acmeRevocationAlreadyRevoked.error
    else
      match ← authorizeRevocation svc verified leaf cert (revokeCertSerialHex leaf.serialNumber) with
      | .error err => raise err
      | .ok actor => delegateRevocation revoker cert.id actor reasonCode

def revokePresented (svc : ACMEService Key) (revoker : RevocationSvc) (verified : VerifiedRequest Key)
    (leaf : PresentedCertificate Key) (reasonCode : ℤ) : Service (Try Unit) :=
  if !svc.issuerRegistry then raise Sentinel.acmeRevocationCertNotFound.error
  else do
    match ← firstAvailableIssuer with
    | none => raise Sentinel.acmeRevocationCertNotFound.error
    | some issuerID =>
      match ← getVersionBySerial issuerID (revokeCertSerialHex leaf.serialNumber) with
      | .error _ => raise Sentinel.acmeRevocationCertNotFound.error
      | .ok version => revokeVersion svc revoker verified leaf reasonCode version

def revokeCert (svc : ACMEService Key) (verified : Option (VerifiedRequest Key)) (certDER : List UInt8)
    (reasonCode : ℤ) : Service (Try Unit) :=
  match svc.revoker with
  | none => raise Sentinel.acmeRevocationUnconfigured.error
  | some revoker =>
    if !svc.certRepo then
      raise ⟨"acme: revoke-cert requires SetIssuancePipeline (no certRepo wired)",none⟩
    else
      match verified with
      | none => raise Sentinel.acmeRevocationUnauthorized.error
      | some verified =>
        match svc.parseCertificate certDER with
        | none => raise Sentinel.acmeRevocationBadCSR.error
        | some leaf => revokePresented svc revoker verified leaf reasonCode

theorem mem_versions_of_newest {db : Db} {version : CertificateVersion} {issuerID serial : String}
    (h : version∈newest (versionsWithSerial issuerID serial db)) : version∈db.versions :=
  mem_of_mem_filter (mem_of_mem_filter h)

theorem sample_serialHex : revokeCertSerialHex 31="1f" := by
  rw [revokeCertSerialHex,HexNumerals.toLower_text]
  decide

end Certctl.AcmeRevocation
