import Mathlib.Data.Int.Notation
import Mathlib.Tactic.Common

/-!
# Records of the certificate control plane

Rows and enumerations as the domain package declares them, restricted to
the columns that a modelled function reads or writes. Times are integer
nanoseconds since the Unix epoch, so the zero time of the source is a
negative constant. Errors carry their text and the sentinel that an
error-chain test would find.
-/

namespace Certctl.DomainRecords

/-- A point in time, in nanoseconds since the Unix epoch. -/
abbrev Time := ℤ

def second : Time := 1000000000

def zeroTime : Time := -62135596800*second

/-- Sentinel errors that callers test for. -/
inductive Sentinel where
  | notFound
  | alreadyExists
  | noRows
  | acmeUserActionRequired
  | acmeProfileNotFound
  | acmeOrderNotFound
  | acmeOrderNotReady
  | acmeOrderUnauthorized
  | acmeFinalizeUnconfigured
  | ariCertIDMalformed
  | ariCertIDDecodeAKI
  | ariCertIDDecodeSerial
  | ariCertIDEmpty
  | approvalNotFound
  | approvalAlreadyDecided
  | approveBySameActor
  | selfApproval
  | fileNotExist
  | deployValidateFailed
  | deployReloadFailed
  | deployRollbackFailed
  | deployPlanInvalid
  | acmeRevocationUnconfigured
  | acmeRevocationCertNotFound
  | acmeRevocationUnauthorized
  | acmeRevocationAlreadyRevoked
  | acmeRevocationBadCSR
  | intermediateCANotFound
  | caNotSelfSigned
  | caKeyMismatch
  | parentCANotActive
  | pathLenExceeded
  | nameConstraintExceeded
  | caStillHasActiveChildren
  | invalidCertPEM
  | acmeAccountNotFound
  | acmeAccountDoesNotExist
  | acmeAuthzNotFound
  | acmeCertificateNotFound
  | acmeUnsupportedAuthMode
  | acmeChallengeNotFound
  | acmeChallengePoolUnconfigured
  | acmeKeyRolloverConcurrent
  | acmeKeyRolloverDuplicateKey
  | acmeKeyRolloverInvalid
  | acmeRateLimited
  | acmeConcurrentOrdersExceeded
  | acmeAccountDuplicateThumbprint
  | acmeAccountKeyConcurrentUpdate
  | challengeConnection
  | challengeDNS
  | challengeTLS
  | jwsMalformed
  | jwsWrongType
  | jwsAlgorithmRejected
  | jwsMissingNonce
  | jwsBadNonce
  | jwsMissingURL
  | jwsURLMismatch
  | jwsBothKidAndJWK
  | jwsNeitherKidNorJWK
  | jwsExpectKidGotJWK
  | jwsExpectJWKGotKid
  | jwsInvalidJWK
  | jwsSignatureInvalid
  | jwsPayloadMismatch
  | jwsAccountNotFound
  | jwsAccountInactive
  | authUnauthenticated
  | selfRoleAssignment
  | authReservedActor
  | actorRoleNotFound
  | authDuplicateName
  | sessionRowNotFound
  | sessionSigningKeyNotFound
  | sessionSigningKeyInUse
  | sessionInvalidCookie
  | sessionExpiredIdle
  | sessionExpiredAbsolute
  | sessionRevoked
  | signingKeyNotFound
  | signingKeyRetired
  | sessionIPMismatch
  | sessionUAMismatch
  | sessionTransient
  | csrfMissing
  | csrfMismatch
  | initialSigningKeyMintFailed
  | breakglassNotFound
  | breakglassDisabled
  | breakglassInvalidCredentials
deriving DecidableEq

def Sentinel.text : Sentinel→String
  | notFound => "repository: row not found"
  | alreadyExists => "repository: row already exists"
  | noRows => "sql: no rows in result set"
  | acmeUserActionRequired => "acme: default profile not configured; use /acme/profile/<id>/*"
  | acmeProfileNotFound => "acme: profile not found"
  | acmeOrderNotFound => "acme: order not found"
  | acmeOrderNotReady => "acme: order not in ready state"
  | acmeOrderUnauthorized => "acme: account does not own this resource"
  | acmeFinalizeUnconfigured => "acme: finalize pipeline not wired (call SetIssuancePipeline)"
  | ariCertIDMalformed => "acme ari: cert-id is not <aki>.<serial>"
  | ariCertIDDecodeAKI => "acme ari: cert-id AKI is not valid base64url"
  | ariCertIDDecodeSerial => "acme ari: cert-id serial is not valid base64url"
  | ariCertIDEmpty => "acme ari: cert-id has empty AKI or serial"
  | approvalNotFound => "approval request not found"
  | approvalAlreadyDecided => "approval request already decided"
  | approveBySameActor => "approver cannot be the same as requester (two-person integrity)"
  | selfApproval => "self-approval forbidden: actor is the owner of the certificate"
  | fileNotExist => "file does not exist"
  | deployValidateFailed => "deploy: validate (PreCommit) failed"
  | deployReloadFailed => "deploy: reload (PostCommit) failed; rolled back"
  | deployRollbackFailed => "deploy: reload failed AND rollback also failed; manual intervention required"
  | deployPlanInvalid => "deploy: plan is invalid"
  | acmeRevocationUnconfigured => "acme: revocation delegate not wired (call SetRevocationDelegate)"
  | acmeRevocationCertNotFound => "acme: revocation target certificate not found"
  | acmeRevocationUnauthorized => "acme: account or signing key does not authorize revocation of this certificate"
  | acmeRevocationAlreadyRevoked => "acme: certificate is already revoked"
  | acmeRevocationBadCSR => "acme: revoke-cert payload `certificate` is malformed"
  | intermediateCANotFound => "intermediate CA not found"
  | caNotSelfSigned => "supplied root cert is not self-signed"
  | caKeyMismatch => "supplied CA key does not match the supplied cert"
  | parentCANotActive => "parent CA is not in active state"
  | pathLenExceeded => "requested path length exceeds parent's PathLenConstraint"
  | nameConstraintExceeded => "child name constraints not a subset of parent's"
  | caStillHasActiveChildren => "CA cannot retire: active children still issuing"
  | invalidCertPEM => "invalid cert PEM"
  | acmeAccountNotFound => "acme: account not found"
  | acmeAccountDoesNotExist => "acme: account does not exist for this JWK"
  | acmeAuthzNotFound => "acme: authz not found"
  | acmeCertificateNotFound => "acme: certificate not found"
  | acmeUnsupportedAuthMode => "acme: unsupported auth mode on profile"
  | acmeChallengeNotFound => "acme: challenge not found"
  | acmeChallengePoolUnconfigured => "acme: validator pool not wired (call SetValidatorPool)"
  | acmeKeyRolloverConcurrent => "acme: account key was rotated concurrently; retry"
  | acmeKeyRolloverDuplicateKey => "acme: new account key already registered against this profile"
  | acmeKeyRolloverInvalid => "acme: key rollover request rejected"
  | acmeRateLimited => "acme: rate limit exceeded"
  | acmeConcurrentOrdersExceeded => "acme: concurrent orders limit exceeded"
  | acmeAccountDuplicateThumbprint => "acme: account already exists for this profile + JWK thumbprint"
  | acmeAccountKeyConcurrentUpdate => "acme: account key was rotated concurrently; re-fetch and retry"
  | challengeConnection => "acme: connection-level failure during challenge validation"
  | challengeDNS => "acme: DNS-level failure during challenge validation"
  | challengeTLS => "acme: TLS-level failure during challenge validation"
  | jwsMalformed => "acme jws: malformed"
  | jwsWrongType => "acme jws: protected header `typ` must be `application/jose+json` or absent"
  | jwsAlgorithmRejected => "acme jws: signature algorithm not in \x7bRS256, ES256, EdDSA\x7d"
  | jwsMissingNonce => "acme jws: protected header `nonce` is required"
  | jwsBadNonce => "acme jws: nonce missing, replayed, or expired"
  | jwsMissingURL => "acme jws: protected header `url` is required"
  | jwsURLMismatch => "acme jws: protected header `url` does not match request URL"
  | jwsBothKidAndJWK => "acme jws: protected header MUST contain exactly one of `kid` or `jwk`"
  | jwsNeitherKidNorJWK => "acme jws: protected header MUST contain exactly one of `kid` or `jwk`"
  | jwsExpectKidGotJWK => "acme jws: this endpoint requires `kid` (registered account); got `jwk`"
  | jwsExpectJWKGotKid => "acme jws: this endpoint requires `jwk` (new account); got `kid`"
  | jwsInvalidJWK => "acme jws: embedded JWK is invalid"
  | jwsSignatureInvalid => "acme jws: signature did not verify"
  | jwsPayloadMismatch => "acme jws: post-verify payload differs from pre-verify payload"
  | jwsAccountNotFound => "acme jws: kid points at unknown account"
  | jwsAccountInactive => "acme jws: account status is not `valid`"
  | authUnauthenticated => "auth: no actor in context"
  | selfRoleAssignment => "auth: caller lacks auth.role.assign on target role"
  | authReservedActor => "auth: reserved system actor cannot be modified"
  | actorRoleNotFound => "auth: no actor_role row matches the requested scope"
  | authDuplicateName => "auth: duplicate name"
  | sessionRowNotFound => "session: not found"
  | sessionSigningKeyNotFound => "session: signing key not found"
  | sessionSigningKeyInUse => "session: signing key still referenced by active sessions"
  | sessionInvalidCookie => "session: invalid cookie"
  | sessionExpiredIdle => "session: idle timeout exceeded"
  | sessionExpiredAbsolute => "session: absolute timeout exceeded"
  | sessionRevoked => "session: revoked"
  | signingKeyNotFound => "session: signing key not found"
  | signingKeyRetired => "session: signing key retired beyond retention window"
  | sessionIPMismatch => "session: client IP does not match session-bound IP"
  | sessionUAMismatch => "session: User-Agent does not match session-bound User-Agent"
  | sessionTransient => "session: transient backend error"
  | csrfMissing => "session: CSRF token missing"
  | csrfMismatch => "session: CSRF token mismatch"
  | initialSigningKeyMintFailed => "session: initial signing key mint failed"
  | breakglassNotFound => "breakglass: credential not found"
  | breakglassDisabled => "breakglass: service disabled"
  | breakglassInvalidCredentials => "breakglass: invalid credentials"

/-- An error value: its text and the sentinel it wraps, if any. -/
structure GoError where
  /-- The text the caller would print. -/
  text : String
  /-- The sentinel an error-chain test finds. -/
  wraps : Option Sentinel := none
deriving DecidableEq

/-- The error that a call returns, none if it succeeds. -/
abbrev Err := Option GoError

/-- The result of a call that may return an error. -/
abbrev Try : Type→Type := Except GoError

/-- Return an error. -/
abbrev raise {m : Type→Type} [Pure m] {ε α : Type} (err : ε) : m (Except ε α) := pure (.error err)

theorem bind_ok {ε α β : Type} {x : Except ε α} {f : α→Except ε β} {b : β} :
    (x>>=f)=.ok b ↔ ∃ a,x=.ok a ∧ f a=.ok b := by
  cases x with
  | error | ok => simp [bind,Except.bind]

def Sentinel.error (sentinel : Sentinel) : GoError := ⟨sentinel.text,some sentinel⟩

def Sentinel.because (sentinel : Sentinel) (detail : String) : GoError := ⟨sentinel.text++": "++detail,some sentinel⟩

def GoError.wrapped (front : String) (err : GoError) : GoError := ⟨front++err.text,err.wraps⟩

def GoError.is (err : GoError) (sentinel : Sentinel) : Bool := decide (err.wraps=some sentinel)

/-- The states of an order. -/
inductive OrderStatus where
  | pending
  | ready
  | processing
  | valid
  | invalid
deriving DecidableEq

def OrderStatus.text : OrderStatus→String
  | pending => "pending"
  | ready => "ready"
  | processing => "processing"
  | valid => "valid"
  | invalid => "invalid"

/-- A name that an order asks for. -/
structure Identifier where
  /-- The identifier type, in practice the text dns. -/
  type : String
  value : String
deriving DecidableEq

/-- A problem document as stored on an order. -/
structure Problem where
  type : String
  /-- The explanation shown to the client. -/
  detail : String
  status : ℕ
deriving DecidableEq

/-- A row of the ACME orders table. -/
structure Order where
  orderID : String
  accountID : String
  /-- Names the certificate is ordered for. -/
  identifiers : List Identifier
  status : OrderStatus
  /-- The stored problem of a failed order. -/
  error : Option Problem := none
  /-- The request of a finalized order. -/
  csrPEM : String := ""
  /-- The managed certificate of a finalized order. -/
  certificateID : String := ""
  expiresAt : Time := zeroTime
deriving DecidableEq

/-- The states of an account. -/
inductive AccountStatus where
  | valid
  | deactivated
  | revoked
deriving DecidableEq

def AccountStatus.text : AccountStatus→String
  | valid => "valid"
  | deactivated => "deactivated"
  | revoked => "revoked"

/-- A row of the ACME accounts table. -/
structure Account where
  accountID : String
  jwkThumbprint : String
  jwkPEM : String
  contact : List String := []
  status : AccountStatus
  profileID : String
deriving DecidableEq

/-- The states of an authorization. -/
inductive AuthzStatus where
  | pending
  | valid
  | invalid
  | deactivated
  | expired
  | revoked
deriving DecidableEq

/-- A row of the ACME authorizations table. -/
structure Authorization where
  authzID : String
  orderID : String
  identifier : Identifier
  status : AuthzStatus
  expiresAt : Time := zeroTime
  wildcard : Bool := false
  createdAt : Time := zeroTime
deriving DecidableEq

/-- The ways to show control. -/
inductive ChallengeType where
  | http01
  | dns01
  | tlsAlpn01
deriving DecidableEq

def ChallengeType.text : ChallengeType→String
  | http01 => "http-01"
  | dns01 => "dns-01"
  | tlsAlpn01 => "tls-alpn-01"

/-- The states of a challenge. -/
inductive ChallengeStatus where
  | pending
  | processing
  | valid
  | invalid
deriving DecidableEq

/-- A row of the ACME challenges table. -/
structure Challenge where
  challengeID : String
  authzID : String
  /-- How control of the identifier is shown. -/
  type : ChallengeType
  status : ChallengeStatus
  token : String
  validatedAt : Option Time := none
  /-- The stored problem of a failed challenge. -/
  error : Option Problem := none
  createdAt : Time := zeroTime
deriving DecidableEq

/-- A stored nonce. -/
structure NonceRow where
  nonce : String
  expiresAt : Time
  used : Bool := false
deriving DecidableEq

/-- The states of a certificate. -/
inductive CertificateStatus where
  | pending
  | active
  | expiring
  | expired
  | renewalInProgress
  | failed
  | revoked
  | archived
deriving DecidableEq

/-- How a managed certificate came to be. -/
inductive CertificateSource where
  | unspecified
  | est
  | scep
  | api
  | agent
  | acme
deriving DecidableEq

/-- A certificate under management. -/
structure ManagedCertificate where
  id : String
  name : String := ""
  commonName : String := ""
  sans : List String := []
  /-- The owner whom self-approval checks compare with. -/
  ownerID : String := ""
  teamID : String := ""
  issuerID : String := ""
  renewalPolicyID : String := ""
  targetIDs : List String := []
  /-- The profile that bounds issuance, empty when there is none. -/
  certificateProfileID : String := ""
  status : CertificateStatus
  expiresAt : Time := zeroTime
  lastRenewalAt : Option Time := none
  revokedAt : Option Time := none
  revocationReason : String := ""
  source : CertificateSource := .unspecified
  createdAt : Time := zeroTime
deriving DecidableEq

abbrev ManagedCertificate.inRenewal (cert : ManagedCertificate) : ManagedCertificate :=
  {cert with status := .renewalInProgress}

/-- One issuance of a certificate. -/
structure CertificateVersion where
  id : String := ""
  certificateID : String
  /-- Serial number as the issuer connector reported it. -/
  serialNumber : String
  notBefore : Time := zeroTime
  notAfter : Time := zeroTime
  fingerprintSHA256 : String := ""
  pemChain : String := ""
  /-- The request it was issued for. -/
  csrPEM : String := ""
  /-- Row creation time, the zero time when the writer leaves it unset. -/
  createdAt : Time := zeroTime
deriving DecidableEq

/-- What certificates of a profile may be. -/
structure CertificateProfile where
  id : String
  /-- Longest validity the profile allows, in seconds. -/
  maxTTLSeconds : ℤ := 0
  /-- Extended key usages the profile allows. -/
  allowedEKUs : List String := []
  /-- Whether the short-lived revocation exemption may apply. -/
  allowShortLived : Bool := false
  mustStaple : Bool := false
  /-- Whether issuance waits for a second person. -/
  requiresApproval : Bool := false
  /-- How ACME orders under the profile are authorised. -/
  acmeAuthMode : String := ""
deriving DecidableEq

/-- The extended key usages used when a profile names none. -/
def defaultEKUs : List String := ["serverAuth"]

/-- A profile whose certificates expire too soon to need revocation. -/
def CertificateProfile.isShortLived (profile : CertificateProfile) : Bool :=
  profile.allowShortLived && decide (0<profile.maxTTLSeconds) && decide (profile.maxTTLSeconds<3600)

def validRevocationReasons : List (String×ℤ) :=
  [("unspecified",0),("keyCompromise",1),("caCompromise",2),("affiliationChanged",3),("superseded",4),
    ("cessationOfOperation",5),("certificateHold",6),("privilegeWithdrawn",9)]

def crlReasonCode (reason : String) : ℤ := (validRevocationReasons.lookup reason).getD 0

/-- A recorded revocation. -/
structure CertificateRevocation where
  id : String
  certificateID : String
  serialNumber : String
  reason : String
  revokedBy : String := ""
  revokedAt : Time := zeroTime
  issuerID : String
  issuerNotified : Bool := false
deriving DecidableEq

/-- Certificate statuses of a status response. -/
inductive OCSPStatus where
  | good
  | revoked
  | unknown
deriving DecidableEq

/-- What a status response is signed over. -/
structure OCSPSignRequest where
  /-- The serial number, absent when its text is no numeral. -/
  certSerial : Option ℤ
  certStatus : OCSPStatus
  revokedAt : Time := zeroTime
  revocationReason : ℤ := 0
  thisUpdate : Time
  nextUpdate : Time
  /-- Echoed nonce, empty when there is none. -/
  nonce : List UInt8 := []
deriving DecidableEq

/-- A signed response: the issuer whose connector signed, and what it signed. -/
structure OCSPResponse where
  issuerID : String
  content : OCSPSignRequest
deriving DecidableEq

/-- An entry of a revocation list. -/
structure CRLEntry where
  /-- The serial number, absent when its text is no numeral. -/
  serialNumber : Option ℤ
  revokedAt : Time
  reasonCode : ℤ
deriving DecidableEq

/-- A signed revocation list: the issuer whose connector signed, and what it signed. -/
structure RevocationList where
  issuerID : String
  entries : List CRLEntry
deriving DecidableEq

/-- A stored answer. -/
structure OCSPResponseCacheEntry where
  issuerID : String
  serialHex : String
  responseDER : OCSPResponse
  /-- The status column, which the service always sets to good. -/
  certStatus : String
  thisUpdate : Time
  nextUpdate : Time
deriving DecidableEq

def OCSPResponseCacheEntry.isStale (entry : OCSPResponseCacheEntry) (now : Time) : Bool :=
  !decide (now<entry.nextUpdate)

/-- What an issuer connector returns on success. -/
structure IssuanceResult where
  certPEM : String := ""
  chainPEM : String := ""
  serial : String
  notBefore : Time := zeroTime
  notAfter : Time := zeroTime
deriving DecidableEq

/-- What a job does. -/
inductive JobType where
  | issuance
  | renewal
  | deployment
  | validation
deriving DecidableEq

/-- The states of a job. -/
inductive JobStatus where
  | pending
  | awaitingCSR
  | awaitingApproval
  | running
  | completed
  | failed
  | cancelled
deriving DecidableEq

def JobStatus.text : JobStatus→String
  | pending => "Pending"
  | awaitingCSR => "AwaitingCSR"
  | awaitingApproval => "AwaitingApproval"
  | running => "Running"
  | completed => "Completed"
  | failed => "Failed"
  | cancelled => "Cancelled"

/-- A row of the jobs table. -/
structure Job where
  id : String
  type : JobType
  certificateID : String
  targetID : Option String := none
  agentID : Option String := none
  status : JobStatus
  attempts : ℤ := 0
  maxAttempts : ℤ := 0
  lastError : Option String := none
  scheduledAt : Time := zeroTime
  createdAt : Time := zeroTime
deriving DecidableEq

/-- What an approval is for. -/
inductive ApprovalKind where
  | certIssuance
  | profileEdit
deriving DecidableEq

/-- The states of a request. -/
inductive ApprovalState where
  | pending
  | approved
  | rejected
  | expired
deriving DecidableEq

/-- A decided request never changes again. -/
def ApprovalState.isTerminal : ApprovalState→Bool
  | pending => false
  | approved => true
  | rejected => true
  | expired => true

/-- A request for a second person. -/
structure ApprovalRequest where
  id : String
  kind : ApprovalKind := .certIssuance
  /-- The certificate of a gated job, empty for profile edits. -/
  certificateID : String := ""
  /-- The gated job, empty for profile edits. -/
  jobID : String := ""
  profileID : String
  requestedBy : String
  state : ApprovalState := .pending
  decidedBy : Option String := none
  decidedAt : Option Time := none
  /-- The reason given, empty when there is none. -/
  decisionNote : String := ""
  /-- The pending profile of a profile edit, as stored text. -/
  payload : String := ""
  createdAt : Time := zeroTime
deriving DecidableEq

/-- Who is told about a certificate. -/
structure Owner where
  id : String
  name : String
  email : String
deriving DecidableEq

/-- Where certificates are deployed. -/
structure DeploymentTarget where
  id : String
  /-- The agent that deploys to it, empty when there is none. -/
  agentID : String := ""
  createdAt : Time := zeroTime
deriving DecidableEq

/-- An agent that deploys. -/
structure Agent where
  id : String
  lastHeartbeatAt : Option Time := none
  retiredAt : Option Time := none
deriving DecidableEq

end Certctl.DomainRecords
