import Certctl.AtomicInterleaving
import Certctl.ControlPlaneTables
import Mathlib.Data.Finset.Max

/-!
# The shared store of the control plane

Reads, transactions and the calls that leave the process, as the atomic
operations of one store. Every repository or connector call may fail with
an arbitrary error, chosen by the environment together with the clock,
fresh identifiers, the row or the order of rows where a query leaves it
open, and the issuer's answer. Waiting for a signing in flight blocks until
it is done, and taking a permit blocks until one is free.
-/

namespace Certctl.ControlPlaneStore

open AtomicProgram AtomicInterleaving ControlPlaneTables DomainRecords RecordTable
open List hiding lookup

variable {α σ : Type} {c : Choice} {db db' : Db} {writes : List Write} {missing : GoError}

/-- Selection of managed certificates; an empty text selects all. -/
structure CertificateFilter where
  ownerID : String := ""
  teamID : String := ""
  issuerID : String := ""
  agentID : String := ""
  profileID : String := ""
  perPage : ℕ := 0

/-- Atomic operations of the control plane. -/
inductive Op where
  | getOrderByID (orderID : String)
  /-- Look for an order of an account that produced a certificate. -/
  | accountOwnsCertificate (accountID certificateID : String)
  | getProfile (profileID : String)
  | getCertificate (id : String)
  /-- Read the managed certificate that has a version with a serial number. -/
  | getCertificateByIssuerAndSerial (issuerID serial : String)
  /-- Read the newest version of a managed certificate. -/
  | getLatestVersion (certID : String)
  /-- Read the newest version with a serial number among the certificates of an issuer. -/
  | getVersionBySerial (issuerID serial : String)
  | getRevocationByIssuerAndSerial (issuerID serial : String)
  | listRevocationsByCertificate (certID : String)
  /-- Read the revocations of an issuer, oldest first. -/
  | listRevocationsByIssuer (issuerID : String)
  | getOCSPResponse (issuerID serialHex : String)
  | getExpiringCertificates (before : Time)
  /-- Read a page of managed certificates. -/
  | listCertificates (filter : CertificateFilter)
  | getJob (id : String)
  | listJobsByStatus (status : JobStatus)
  | listJobsByCertificate (certID : String)
  /-- Read the jobs that have waited too long for a request or an approval. -/
  | listTimedOutAwaitingJobs (csrCutoff approvalCutoff : Time)
  /-- Read the running jobs whose agent has not been heard of since a time. -/
  | listJobsWithOfflineAgents (agentCutoff : Time)
  /-- Read pending jobs and mark them as running, in one transaction. -/
  | claimPendingJobs (jobType : Option JobType) (limit : ℤ)
  | getApproval (id : String)
  | listApprovals (state : ApprovalState) (perPage : ℕ)
  /-- Record the decision on a request if it is pending, and count the rows changed. -/
  | decideApproval (id : String) (state : ApprovalState) (decidedBy : String) (decidedAt : Time) (note : String)
  /-- Expire the pending requests created up to a time, and count them. -/
  | expireStaleApprovals (before : Time)
  | getOwner (id : String)
  | getTarget (id : String)
  /-- Read the deployment targets of a managed certificate. -/
  | listTargetsByCertificate (certID : String)
  | getAgent (id : String)
  | withinTx (writes : List Write)
  /-- Look an issuer connector up in the registry. -/
  | getIssuer (issuerID : String)
  /-- Take any registered issuer connector. -/
  | firstAvailableIssuer
  | issueCertificate (issuerID commonName : String) (sans : List String) (csrPEM : String)
      (ekus : List String) (maxTTLSeconds : ℤ) (mustStaple : Bool)
  | renewCertificate (issuerID commonName : String) (sans : List String) (csrPEM : String)
      (ekus : List String) (maxTTLSeconds : ℤ) (mustStaple : Bool)
  /-- Ask an issuer when a certificate should be renewed. -/
  | getRenewalInfo (issuerID pemChain : String)
  | generateKey
  | createCertificateRequest (commonName : String) (dnsNames emailAddresses : List String) (key : String)
  | revokeCertificate (issuerID serial reason : String)
  | signOCSPResponse (issuerID : String) (content : OCSPSignRequest)
  | generateCRL (issuerID : String) (entries : List CRLEntry)
  /-- Evaluate the policy rules on a certificate. -/
  | validateCertificate (cert : ManagedCertificate)
  | sendRevocationNotification (cert : ManagedCertificate) (reason : String)
  | sendRenewalNotification (cert : ManagedCertificate) (success : Bool)
  | sendDeploymentNotification (cert : ManagedCertificate) (target : DeploymentTarget) (reason : String)
  | sendThresholdAlerts (cert : ManagedCertificate) (untilExpiry : Time)
  | flightLoad (key : String)
  /-- Find the signing in flight for a key, or begin one. -/
  | flightLoadOrStore (key : String)
  /-- Wait until a signing is done and read its outcome. -/
  | flightWait (entry : ℕ)
  /-- Record the outcome of a signing and wake its waiters. -/
  | flightClose (entry : ℕ) (outcome : Try OCSPResponse)
  /-- Take the signing for a key out of the map. -/
  | flightDelete (key : String)
  | timeNow
  /-- Draw a process-wide unique identifier. -/
  | generateID (front : String)
  /-- Draw a random identifier suffix. -/
  | randIDSuffix
  | newUUID
  | newSemaphore (capacity : ℕ)
  /-- Take a permit, or give up when the caller is cancelled. -/
  | semAcquire (sem : ℕ)
  | semRelease (sem : ℕ)
  /-- Let the runtime choose which of two routines runs next. -/
  | schedule
  /-- Write the log line of a job that is being worked on. -/
  | logProcessingJob (jobID : String) (jobType : JobType) (certificateID : String)

def Res : Op→Type
  | .getOrderByID _ => Try Order
  | .accountOwnsCertificate _ _ => Try Bool
  | .getProfile _ => Try CertificateProfile
  | .getCertificate _ => Try ManagedCertificate
  | .getCertificateByIssuerAndSerial _ _ => Try ManagedCertificate
  | .getLatestVersion _ => Try CertificateVersion
  | .getVersionBySerial _ _ => Try CertificateVersion
  | .getRevocationByIssuerAndSerial _ _ => Try CertificateRevocation
  | .listRevocationsByCertificate _ => Try (List CertificateRevocation)
  | .listRevocationsByIssuer _ => Try (List CertificateRevocation)
  | .getOCSPResponse _ _ => Try (Option OCSPResponseCacheEntry)
  | .getExpiringCertificates _ => Try (List ManagedCertificate)
  | .listCertificates _ => Try (List ManagedCertificate)
  | .getJob _ => Try Job
  | .listJobsByStatus _ => Try (List Job)
  | .listJobsByCertificate _ => Try (List Job)
  | .listTimedOutAwaitingJobs _ _ => Try (List Job)
  | .listJobsWithOfflineAgents _ => Try (List Job)
  | .claimPendingJobs _ _ => Try (List Job)
  | .getApproval _ => Try ApprovalRequest
  | .listApprovals _ _ => Try (List ApprovalRequest)
  | .decideApproval _ _ _ _ _ => Try ℕ
  | .expireStaleApprovals _ => Try ℕ
  | .getOwner _ => Try Owner
  | .getTarget _ => Try DeploymentTarget
  | .listTargetsByCertificate _ => Try (List DeploymentTarget)
  | .getAgent _ => Try Agent
  | .withinTx _ => Try Unit
  | .getIssuer _ => Bool
  | .firstAvailableIssuer => Option String
  | .issueCertificate _ _ _ _ _ _ _ => Try IssuanceResult
  | .renewCertificate _ _ _ _ _ _ _ => Try IssuanceResult
  | .getRenewalInfo _ _ => Try (Option Time)
  | .generateKey => Try String
  | .createCertificateRequest _ _ _ _ => Try String
  | .revokeCertificate _ _ _ => Try Unit
  | .signOCSPResponse _ _ => Try OCSPResponse
  | .generateCRL _ _ => Try RevocationList
  | .validateCertificate _ => Try Unit
  | .sendRevocationNotification _ _ => Try Unit
  | .sendRenewalNotification _ _ => Try Unit
  | .sendDeploymentNotification _ _ _ => Try Unit
  | .sendThresholdAlerts _ _ => Unit
  | .flightLoad _ => Option ℕ
  | .flightLoadOrStore _ => ℕ×Bool
  | .flightWait _ => Try OCSPResponse
  | .flightClose _ _ => Unit
  | .flightDelete _ => Unit
  | .timeNow => Time
  | .generateID _ => String
  | .randIDSuffix => String
  | .newUUID => String
  | .newSemaphore _ => ℕ
  | .semAcquire _ => Try Unit
  | .semRelease _ => Unit
  | .schedule => Bool
  | .logProcessingJob _ _ _ => Unit

/-- A call that fails when the environment says so and changes nothing then. -/
def fallible {α σ : Type} (c : Choice) (db : σ) (out : Try (α×σ)) : Try α×σ :=
  match c.fault with
  | some err => (.error err,db)
  | none =>
    match out with
    | .error err => (.error err,db)
    | .ok (a,db') => (.ok a,db')

/-- A call that changes nothing and returns a value unless it fails. -/
def answer {α σ : Type} (c : Choice) (db : σ) (a : α) : Try α×σ := fallible c db (.ok (a,db))

def readRow {α σ : Type} (c : Choice) (db : σ) (row : Option α) (missing : GoError) : Try α×σ :=
  fallible c db (match row with | none => .error missing | some a => .ok (a,db))

def pickOne {α : Type} (c : Choice) (entries : List α) : Option α := entries[c.pick%entries.length]?

/-- The rows with the greatest creation time. -/
def newest (versions : List CertificateVersion) : List CertificateVersion :=
  versions.filter fun v => versions.all fun w => w.createdAt≤v.createdAt

def versionsOf (certID : String) (db : Db) : List CertificateVersion := db.versions.filter (·.certificateID=certID)

/-- The managed certificates of an issuer with a version of the serial number. -/
def certsWithSerial (issuerID serial : String) (db : Db) : List ManagedCertificate :=
  db.certs.filter fun cert =>
    cert.issuerID=issuerID && (versionsOf cert.id db).any fun v => v.serialNumber=serial

/-- The versions with a serial number whose certificate belongs to an issuer. -/
def versionsWithSerial (issuerID serial : String) (db : Db) : List CertificateVersion :=
  db.versions.filter fun v =>
    v.serialNumber=serial && db.certs.any fun cert => cert.id=v.certificateID && cert.issuerID=issuerID

def noRows (front : String) : GoError := Sentinel.noRows.error.wrapped front

/-- Rows in the order of a time column; rows with equal times stand as the environment puts them. -/
def orderBy {ρ : Type} (c : Choice) (time : ρ→Time) (rows : List ρ) : List ρ :=
  (rows.zipIdx.insertionSort fun a b =>
    time a.1<time b.1 ∨ (time a.1=time b.1 ∧ c.rank a.2≤c.rank b.2)).map Prod.fst

def scanProfile (readsApprovalFlag : Bool) (row : CertificateProfile) : CertificateProfile :=
  {row with requiresApproval := readsApprovalFlag && row.requiresApproval}

def CertificateFilter.selects (filter : CertificateFilter) (db : Db) (cert : ManagedCertificate) : Bool :=
  (filter.ownerID="" || cert.ownerID=filter.ownerID) && (filter.teamID="" || cert.teamID=filter.teamID) &&
    (filter.issuerID="" || cert.issuerID=filter.issuerID) &&
    (filter.profileID="" || cert.certificateProfileID=filter.profileID) &&
    (filter.agentID="" ||
      db.targets.any fun target => target.agentID=filter.agentID && cert.targetIDs.contains target.id)

/-- The page size in force; a size out of range is replaced, not cut down. -/
def CertificateFilter.pageSize (filter : CertificateFilter) : ℕ :=
  if filter.perPage=0 ∨ 500<filter.perPage then 50 else filter.perPage

/-- A page of approval requests; a size out of range is replaced, not cut down. -/
def approvalPageSize (perPage : ℕ) : ℕ := if perPage=0 ∨ 500<perPage then 50 else perPage

/-- The pending jobs that a claim takes; a limit that is not positive is no limit. -/
def claimable (c : Choice) (db : Db) (jobType : Option JobType) (limit : ℤ) : List Job :=
  let rows := orderBy c Job.scheduledAt
    (db.jobs.filter fun job => job.status=.pending && jobType.all fun type => job.type=type)
  if 0<limit then rows.take limit.toNat else rows

def timedOutAwaiting (csrCutoff approvalCutoff : Time) (job : Job) : Bool :=
  (job.status=.awaitingCSR && job.createdAt<csrCutoff) || (job.status=.awaitingApproval && job.createdAt<approvalCutoff)

def agentOffline (db : Db) (agentCutoff : Time) (job : Job) : Bool :=
  job.status=.running &&
    db.agents.any fun agent => job.agentID=some agent.id && agent.lastHeartbeatAt.any (·<agentCutoff)

/-- Change the permits taken of a semaphore. -/
def setHeld (f : ℕ→ℕ) (sem : Semaphore) : Semaphore := {sem with held := f sem.held}

def hasPermit (db : Db) (sem : ℕ) : Bool := (db.semaphores[sem]?).any fun entry => entry.held<entry.capacity

def effect (c : Choice) (db : Db) : (op : Op)→Res op×Db
  | .getOrderByID orderID =>
    readRow c db (lookup Order.orderID orderID db.orders) (Sentinel.notFound.error.wrapped "order not found: ")
  | .accountOwnsCertificate accountID certificateID =>
    answer c db (db.orders.any fun order => order.accountID=accountID && order.certificateID=certificateID)
  | .getProfile profileID =>
    -- the scan wraps the missing row here too
    readRow c db ((lookup CertificateProfile.id profileID db.profiles).map (scanProfile db.readsApprovalFlag))
      (noRows "failed to query profile: failed to scan profile: ")
  | .getCertificate id =>
    -- the scan wraps the missing row, so the test for it in the query never fires
    readRow c db (lookup ManagedCertificate.id id db.certs)
      (noRows "failed to query certificate: failed to scan certificate: ")
  | .getCertificateByIssuerAndSerial issuerID serial =>
    readRow c db (pickOne c (certsWithSerial issuerID serial db)) (noRows "")
  | .getLatestVersion certID =>
    readRow c db (pickOne c (newest (versionsOf certID db))) (noRows "failed to get latest certificate version: ")
  | .getVersionBySerial issuerID serial =>
    readRow c db (pickOne c (newest (versionsWithSerial issuerID serial db))) (noRows "")
  | .getRevocationByIssuerAndSerial issuerID serial =>
    readRow c db (lookup revocationKey (issuerID,serial) db.revocations)
      (noRows "failed to get revocation by issuer and serial: ")
  | .listRevocationsByCertificate certID => answer c db (db.revocations.filter (·.certificateID=certID))
  | .listRevocationsByIssuer issuerID =>
    answer c db (orderBy c CertificateRevocation.revokedAt (db.revocations.filter (·.issuerID=issuerID)))
  | .getOCSPResponse issuerID serialHex => answer c db (lookup cacheKey (issuerID,serialHex) db.ocspCache)
  | .getExpiringCertificates before =>
    answer c db (orderBy c ManagedCertificate.expiresAt
      (db.certs.filter fun cert => cert.expiresAt<before && cert.status≠.archived))
  | .listCertificates filter =>
    answer c db ((orderBy c ManagedCertificate.createdAt (db.certs.filter (filter.selects db))).take filter.pageSize)
  | .getJob id => readRow c db (lookup Job.id id db.jobs) (noRows "failed to query job: failed to scan job: ")
  | .listJobsByStatus status => answer c db (orderBy c (fun job => -job.createdAt) (db.jobs.filter (·.status=status)))
  | .listJobsByCertificate certID =>
    answer c db (orderBy c (fun job => -job.createdAt) (db.jobs.filter (·.certificateID=certID)))
  | .listTimedOutAwaitingJobs csrCutoff approvalCutoff =>
    answer c db (orderBy c Job.createdAt (db.jobs.filter (timedOutAwaiting csrCutoff approvalCutoff)))
  | .listJobsWithOfflineAgents agentCutoff =>
    -- in the order of a column that nothing here reads
    answer c db (orderBy c (fun _ => 0) (db.jobs.filter (agentOffline db agentCutoff)))
  | .claimPendingJobs jobType limit =>
    let rows := claimable c db jobType limit
    fallible c db (.ok (rows.map claimedJob,written c db (.claimJobs (rows.map (·.id)))))
  | .getApproval id => readRow c db (lookup ApprovalRequest.id id db.approvals) Sentinel.notFound.error
  | .listApprovals state perPage =>
    answer c db ((orderBy c (fun req => -req.createdAt)
      (db.approvals.filter (·.state=state))).take (approvalPageSize perPage))
  | .decideApproval id state decidedBy decidedAt note =>
    let rows := db.approvals.filter fun req => req.id=id && req.state=.pending
    fallible c db (.ok (rows.length,written c db (.decideApproval id state decidedBy decidedAt note)))
  | .expireStaleApprovals before =>
    let rows := db.approvals.filter fun req => req.state=.pending && req.createdAt≤before
    fallible c db (.ok (rows.length,written c db (.expireApprovals before c.now)))
  | .getOwner id => readRow c db (lookup Owner.id id db.owners) (Sentinel.notFound.error.wrapped "owner not found: ")
  | .getTarget id =>
    readRow c db (lookup DeploymentTarget.id id db.targets) (Sentinel.notFound.error.wrapped "target not found: ")
  | .listTargetsByCertificate certID =>
    answer c db (orderBy c (fun target => -target.createdAt)
      (db.targets.filter fun target => db.certs.any fun cert => cert.id=certID && cert.targetIDs.contains target.id))
  | .getAgent id =>
    readRow c db (lookup Agent.id id db.agents) (noRows "failed to query agent: failed to scan agent: ")
  | .withinTx writes => fallible c db ((applyWrites c db writes).map fun db' => ((),db'))
  | .getIssuer issuerID => (db.issuers.contains issuerID,db)
  | .firstAvailableIssuer => (pickOne c db.issuers,db)
  | .issueCertificate _ _ _ _ _ _ _ => answer c db c.issuance
  | .renewCertificate _ _ _ _ _ _ _ => answer c db c.issuance
  | .getRenewalInfo _ _ => answer c db (if c.pick=0 then none else some c.now)
  | .generateKey => answer c db c.fresh
  | .createCertificateRequest _ _ _ _ => answer c db c.fresh
  | .revokeCertificate _ _ _ => answer c db ()
  | .signOCSPResponse issuerID content => answer c db ⟨issuerID,content⟩
  | .generateCRL issuerID entries => answer c db ⟨issuerID,entries⟩
  | .validateCertificate _ => answer c db ()
  | .sendRevocationNotification _ _ => answer c db ()
  | .sendRenewalNotification _ _ => answer c db ()
  | .sendDeploymentNotification _ _ _ => answer c db ()
  | .sendThresholdAlerts _ _ => ((),db)
  | .flightLoad key => (db.flight.load key,db)
  | .flightLoadOrStore key =>
    let out := db.flight.loadOrStore key
    (out.1,{db with flight := out.2})
  | .flightWait entry =>
    -- a blocked wait has no effect; the error below is never handed out
    ((db.flight.outcome entry).getD (.error ⟨"",none⟩),db)
  | .flightClose entry outcome => ((),{db with flight := db.flight.close entry outcome})
  | .flightDelete key => ((),{db with flight := db.flight.delete key})
  | .timeNow => (c.now,db)
  | .generateID front => (front++"-"++c.fresh,db)
  | .randIDSuffix => (c.fresh,db)
  | .newUUID => (c.fresh,db)
  | .newSemaphore capacity => (db.semaphores.length,{db with semaphores := db.semaphores++[⟨capacity,0⟩]})
  | .semAcquire sem =>
    -- a cancelled caller gives up, whether or not a permit is left
    fallible c db (.ok ((),{db with semaphores := db.semaphores.modify sem (setHeld (·+1))}))
  | .semRelease sem => ((),{db with semaphores := db.semaphores.modify sem (setHeld (·-1))})
  | .schedule => (decide (c.pick=0),db)
  | .logProcessingJob _ _ _ => ((),db)

/-- Waiting for a signing whose outcome is not known yet blocks, and so does
taking a permit where none is left, unless the caller is cancelled. -/
def blocked (c : Choice) (db : Db) : Op→Bool
  | .flightWait entry => (db.flight.outcome entry).isNone
  | .semAcquire sem => c.fault.isNone && !hasPermit db sem
  | _ => false

abbrev controlPlane : Store where
  Op := Op
  Res := Res
  State := Db
  Choice := Choice
  perform := fun op c db => if blocked c db op then none else some (effect c db op)

abbrev Service (α : Type) := Prog controlPlane α

/-- One operation of the control plane as a program. -/
def request (op : Op) : Service (Res op) := Prog.perform (S := controlPlane) op

def getOrderByID (orderID : String) : Service (Try Order) := request (Op.getOrderByID orderID)

def getProfile (profileID : String) : Service (Try CertificateProfile) := request (Op.getProfile profileID)

def getCertificate (id : String) : Service (Try ManagedCertificate) := request (Op.getCertificate id)

def getCertificateByIssuerAndSerial (issuerID serial : String) : Service (Try ManagedCertificate) :=
  request (Op.getCertificateByIssuerAndSerial issuerID serial)

def getLatestVersion (certID : String) : Service (Try CertificateVersion) := request (Op.getLatestVersion certID)

def getVersionBySerial (issuerID serial : String) : Service (Try CertificateVersion) :=
  request (Op.getVersionBySerial issuerID serial)

def getRevocationByIssuerAndSerial (issuerID serial : String) : Service (Try CertificateRevocation) :=
  request (Op.getRevocationByIssuerAndSerial issuerID serial)

def listRevocationsByCertificate (certID : String) : Service (Try (List CertificateRevocation)) :=
  request (Op.listRevocationsByCertificate certID)

def queryOrderOf (accountID certificateID : String) : Service (Try Bool) :=
  request (Op.accountOwnsCertificate accountID certificateID)

/-- Some order of the account produced the certificate; an empty identifier owns nothing. -/
def accountOwnsCertificate (accountID certificateID : String) : Service (Try Bool) :=
  if accountID="" ∨ certificateID="" then pure (.ok false) else queryOrderOf accountID certificateID

def listRevocationsByIssuer (issuerID : String) : Service (Try (List CertificateRevocation)) :=
  request (Op.listRevocationsByIssuer issuerID)

def generateCRL (issuerID : String) (entries : List CRLEntry) : Service (Try RevocationList) :=
  request (Op.generateCRL issuerID entries)

def getOCSPResponse (issuerID serialHex : String) : Service (Try (Option OCSPResponseCacheEntry)) :=
  request (Op.getOCSPResponse issuerID serialHex)

def getExpiringCertificates (before : Time) : Service (Try (List ManagedCertificate)) :=
  request (Op.getExpiringCertificates before)

def listCertificates (filter : CertificateFilter) : Service (Try (List ManagedCertificate)) :=
  request (Op.listCertificates filter)

def getJob (id : String) : Service (Try Job) := request (Op.getJob id)

def listJobsByStatus (status : JobStatus) : Service (Try (List Job)) := request (Op.listJobsByStatus status)

def listJobsByCertificate (certID : String) : Service (Try (List Job)) := request (Op.listJobsByCertificate certID)

def listTimedOutAwaitingJobs (csrCutoff approvalCutoff : Time) : Service (Try (List Job)) :=
  request (Op.listTimedOutAwaitingJobs csrCutoff approvalCutoff)

def listJobsWithOfflineAgents (agentCutoff : Time) : Service (Try (List Job)) :=
  request (Op.listJobsWithOfflineAgents agentCutoff)

def claimPendingJobs (jobType : Option JobType) (limit : ℤ) : Service (Try (List Job)) :=
  request (Op.claimPendingJobs jobType limit)

def updateJobStatus (id : String) (status : JobStatus) (errMsg : String) : Service (Try Unit) :=
  request (Op.withinTx [.updateJobStatus id status errMsg])

def getApproval (id : String) : Service (Try ApprovalRequest) := request (Op.getApproval id)

def listApprovals (state : ApprovalState) (perPage : ℕ) : Service (Try (List ApprovalRequest)) :=
  request (Op.listApprovals state perPage)

def decideApproval (id : String) (state : ApprovalState) (decidedBy : String) (decidedAt : Time)
    (note : String) : Service (Try ℕ) :=
  request (Op.decideApproval id state decidedBy decidedAt note)

def expireStaleApprovals (before : Time) : Service (Try ℕ) := request (Op.expireStaleApprovals before)

def getOwner (id : String) : Service (Try Owner) := request (Op.getOwner id)

def getTarget (id : String) : Service (Try DeploymentTarget) := request (Op.getTarget id)

def listTargetsByCertificate (certID : String) : Service (Try (List DeploymentTarget)) :=
  request (Op.listTargetsByCertificate certID)

def getAgent (id : String) : Service (Try Agent) := request (Op.getAgent id)

def withinTx (writes : List Write) : Service (Try Unit) := request (Op.withinTx writes)

def getIssuer (issuerID : String) : Service Bool := request (Op.getIssuer issuerID)

def firstAvailableIssuer : Service (Option String) := request Op.firstAvailableIssuer

def issueCertificate (issuerID commonName : String) (sans : List String) (csrPEM : String)
    (ekus : List String) (maxTTLSeconds : ℤ) (mustStaple : Bool) : Service (Try IssuanceResult) :=
  request (Op.issueCertificate issuerID commonName sans csrPEM ekus maxTTLSeconds mustStaple)

def renewCertificate (issuerID commonName : String) (sans : List String) (csrPEM : String)
    (ekus : List String) (maxTTLSeconds : ℤ) (mustStaple : Bool) : Service (Try IssuanceResult) :=
  request (Op.renewCertificate issuerID commonName sans csrPEM ekus maxTTLSeconds mustStaple)

def getRenewalInfo (issuerID pemChain : String) : Service (Try (Option Time)) :=
  request (Op.getRenewalInfo issuerID pemChain)

def generateKey : Service (Try String) := request Op.generateKey

def createCertificateRequest (commonName : String) (dnsNames emailAddresses : List String) (key : String) :
    Service (Try String) :=
  request (Op.createCertificateRequest commonName dnsNames emailAddresses key)

def revokeCertificate (issuerID serial reason : String) : Service (Try Unit) :=
  request (Op.revokeCertificate issuerID serial reason)

def signOCSPResponse (issuerID : String) (content : OCSPSignRequest) : Service (Try OCSPResponse) :=
  request (Op.signOCSPResponse issuerID content)

def validateCertificate (cert : ManagedCertificate) : Service (Try Unit) := request (Op.validateCertificate cert)

def sendRevocationNotification (cert : ManagedCertificate) (reason : String) : Service (Try Unit) :=
  request (Op.sendRevocationNotification cert reason)

def sendRenewalNotification (cert : ManagedCertificate) (success : Bool) : Service (Try Unit) :=
  request (Op.sendRenewalNotification cert success)

def sendDeploymentNotification (cert : ManagedCertificate) (target : DeploymentTarget) (reason : String) :
    Service (Try Unit) :=
  request (Op.sendDeploymentNotification cert target reason)

def sendThresholdAlerts (cert : ManagedCertificate) (untilExpiry : Time) : Service Unit :=
  request (Op.sendThresholdAlerts cert untilExpiry)

def flightLoad (key : String) : Service (Option ℕ) := request (Op.flightLoad key)

def flightLoadOrStore (key : String) : Service (ℕ×Bool) := request (Op.flightLoadOrStore key)

def flightWait (entry : ℕ) : Service (Try OCSPResponse) := request (Op.flightWait entry)

def flightClose (entry : ℕ) (outcome : Try OCSPResponse) : Service Unit := request (Op.flightClose entry outcome)

def flightDelete (key : String) : Service Unit := request (Op.flightDelete key)

def timeNow : Service Time := request Op.timeNow

def generateID (front : String) : Service String := request (Op.generateID front)

def randIDSuffix : Service String := request Op.randIDSuffix

def newUUID : Service String := request Op.newUUID

def newSemaphore (capacity : ℕ) : Service ℕ := request (Op.newSemaphore capacity)

def semAcquire (sem : ℕ) : Service (Try Unit) := request (Op.semAcquire sem)

def semRelease (sem : ℕ) : Service Unit := request (Op.semRelease sem)

def logProcessingJob (job : Job) : Service Unit := request (Op.logProcessingJob job.id job.type job.certificateID)

def forEffect {α : Type} (p : Service α) : Service Unit := do
  let _ ← p
  pure ()

variable {P : Op→Prop}

theorem uses_request {op : Op} {k : Res op→Service α} (hop : P op)
    (hk : ∀ r,(k r).Uses P) : ((request op).bind k).Uses P :=
  ⟨hop,hk⟩

variable {p : Service α}

theorem uses_forEffect (hp : p.Uses P) : (forEffect p).Uses P := Prog.uses_bind hp fun _ => trivial

variable {out : Try (α×σ)} {a : α}

theorem fallible_ok {db db' : σ} (h : fallible c db out=(.ok a,db')) : c.fault=none ∧ out=.ok (a,db') := by
  unfold fallible at h
  split at h
  · cases h
  rename_i hfault
  split at h
  · cases h
  cases h
  exact ⟨hfault,rfl⟩

theorem fallible_error {db db' : σ} {err : GoError} (h : fallible c db out=(.error err,db')) : db'=db := by
  unfold fallible at h
  split at h
  · cases h
    rfl
  split at h
  · cases h
    rfl
  · cases h

theorem fallible_cases {db db₁ db' : σ} {r : Try α}
    (h : fallible c db (.ok (a,db₁))=(r,db')) : (r=.ok a ∧ db'=db₁) ∨ ∃ err,r=.error err ∧ db'=db := by
  cases r with
  | error err => exact .inr ⟨err,rfl,fallible_error h⟩
  | ok =>
    have hout := (fallible_ok h).2
    cases hout
    exact .inl ⟨rfl,rfl⟩

theorem withinTx_ok {u : Unit}
    (h : effect c db (.withinTx writes)=(Except.ok u,db')) : applyWrites c db writes=.ok db' := by
  obtain ⟨-,hout⟩ := fallible_ok h
  cases hw : applyWrites c db writes with
  | error =>
    rw [hw] at hout
    cases hout
  | ok =>
    rw [hw] at hout
    cases hout
    rfl

variable {row : Option α}

theorem readRow_ok {db db' : σ} (h : readRow c db row missing=(.ok a,db')) : row=some a ∧ db'=db := by
  obtain ⟨-,hout⟩ := fallible_ok h
  cases row with
  | none => cases hout
  | some =>
    cases hout
    exact ⟨rfl,rfl⟩

variable {b : α}

theorem answer_ok {db db' : σ} (h : answer c db a=(.ok b,db')) : b=a ∧ db'=db := by
  obtain ⟨-,hout⟩ := fallible_ok h
  cases hout
  exact ⟨rfl,rfl⟩

theorem readRow_fst {db : σ} (h : (readRow c db row missing).1=.ok a) : row=some a := (readRow_ok (Prod.ext h rfl)).1

theorem answer_fst {db : σ} (h : (answer c db a).1=.ok b) : b=a := (answer_ok (Prod.ext h rfl)).1

theorem fallible_keeps {db : σ} {P : σ→Prop}
    (hdb : P db) (h : ∀ a db',out=.ok (a,db') → P db') : P (fallible c db out).2 := by
  unfold fallible
  split
  · exact hdb
  split
  · exact hdb
  · exact h _ _ rfl

theorem fallible_same {db : σ} (h : ∀ a db',out=.ok (a,db')→db'=db) : (fallible c db out).2=db :=
  fallible_keeps (P := fun b => b=db) rfl h

theorem readRow_same {db : σ} : (readRow c db row missing).2=db := by
  refine fallible_same fun a db' h => ?_
  cases row with
  | none => cases h
  | some =>
    cases h
    rfl

theorem answer_same {db : σ} : (answer c db a).2=db := by
  refine fallible_same fun b db' h => ?_
  cases h
  rfl

/-- Operations that change no table, registry or map. -/
def Op.readOnly : Op→Bool
  | .withinTx _ => false
  | .claimPendingJobs _ _ => false
  | .decideApproval _ _ _ _ _ => false
  | .expireStaleApprovals _ => false
  | .newSemaphore _ => false
  | .semAcquire _ => false
  | .semRelease _ => false
  | .flightLoadOrStore _ => false
  | .flightClose _ _ => false
  | .flightDelete _ => false
  | _ => true

variable {op : Op}

theorem effect_readOnly (c : Choice) (db : Db) (hop : op.readOnly=true) : (effect c db op).2=db := by
  cases op with
  | withinTx | claimPendingJobs | decideApproval | expireStaleApprovals | newSemaphore | semAcquire | semRelease
  | flightLoadOrStore | flightClose | flightDelete => cases hop
  | getExpiringCertificates | listCertificates | listJobsByStatus | listJobsByCertificate | listTimedOutAwaitingJobs
  | listJobsWithOfflineAgents | listApprovals | listTargetsByCertificate | renewCertificate | getRenewalInfo
  | generateKey | createCertificateRequest | sendRenewalNotification | sendDeploymentNotification
  | accountOwnsCertificate | listRevocationsByCertificate | listRevocationsByIssuer | generateCRL | getOCSPResponse
  | issueCertificate | revokeCertificate | signOCSPResponse | validateCertificate
  | sendRevocationNotification => exact answer_same
  | getJob | getApproval | getOwner | getTarget | getAgent | getOrderByID | getProfile | getCertificate
  | getCertificateByIssuerAndSerial | getLatestVersion | getVersionBySerial
  | getRevocationByIssuerAndSerial => exact readRow_same
  | _ => rfl

/-- Reads that never wait. -/
def Op.answersAtOnce : Op→Bool
  | .flightWait _ => false
  | .logProcessingJob _ _ _ => false
  | op => op.readOnly

theorem readOnly_of_answersAtOnce (h : op.answersAtOnce=true) : op.readOnly=true := by
  cases op with
  | flightWait | logProcessingJob => cases h
  | _ => exact h

theorem not_blocked_of_answersAtOnce (h : op.answersAtOnce=true) (c : Choice) (db : Db) : blocked c db op=false := by
  cases op with
  | flightWait | semAcquire => cases h
  | _ => rfl

variable {r : Res op}

theorem effect_of_perform (h : controlPlane.perform op c db=some (r,db')) : effect c db op=(r,db') := by
  dsimp only [controlPlane] at h
  split at h
  · cases h
  · exact Option.some.inj h

theorem not_blocked_of_perform (h : controlPlane.perform op c db=some (r,db')) : blocked c db op=false := by
  dsimp only [controlPlane] at h
  split at h
  · cases h
  rename_i hopen
  exact Bool.eq_false_iff.mpr hopen

variable {ρ : Type}

theorem perm_orderBy (c : Choice) (time : ρ→Time) (rows : List ρ) : (orderBy c time rows).Perm rows := by
  have hsorted := (perm_insertionSort (fun a b : ρ×ℕ =>
    time a.1<time b.1 ∨ (time a.1=time b.1 ∧ c.rank a.2≤c.rank b.2)) rows.zipIdx).map Prod.fst
  rwa [zipIdx_map_fst] at hsorted

@[simp] theorem mem_orderBy {time : ρ→Time} {rows : List ρ} {row : ρ} : row∈orderBy c time rows ↔ row∈rows :=
  (perm_orderBy c time rows).mem_iff

theorem mem_claimable {jobType : Option JobType} {limit : ℤ} {job : Job}
    (h : job∈claimable c db jobType limit) : job∈db.jobs ∧ job.status=.pending := by
  have hrows : job∈orderBy c Job.scheduledAt
      (db.jobs.filter fun job => job.status=.pending && jobType.all fun type => job.type=type) := by
    simp only [claimable] at h
    split at h
    · exact mem_of_mem_take h
    · exact h
  rw [mem_orderBy,mem_filter,Bool.and_eq_true,decide_eq_true_eq] at hrows
  exact ⟨hrows.1,hrows.2.1⟩

/-- The tables that only transactions write. -/
structure SameTables (db db' : Db) : Prop where
  orders : db'.orders=db.orders
  certs : db'.certs=db.certs
  versions : db'.versions=db.versions
  profiles : db'.profiles=db.profiles
  revocations : db'.revocations=db.revocations
  ocspCache : db'.ocspCache=db.ocspCache
  issuers : db'.issuers=db.issuers

theorem sameTables_of_eq (h : db'=db) : SameTables db db' := by
  rw [h]
  exact ⟨rfl,rfl,rfl,rfl,rfl,rfl,rfl⟩

theorem effect_sameTables (c : Choice) (db : Db) (hop : ∀ writes,op≠.withinTx writes) :
    SameTables db (effect c db op).2 := by
  cases op with
  | withinTx writes => exact absurd rfl (hop writes)
  | claimPendingJobs | decideApproval | expireStaleApprovals | semAcquire =>
    refine fallible_keeps (sameTables_of_eq rfl) fun a db' h => ?_
    cases h
    exact ⟨rfl,rfl,rfl,rfl,rfl,rfl,rfl⟩
  | newSemaphore | semRelease | flightLoadOrStore | flightClose | flightDelete => exact ⟨rfl,rfl,rfl,rfl,rfl,rfl,rfl⟩
  | _ => exact sameTables_of_eq (effect_readOnly c db (by rfl))

theorem withinTx_cases {r : Try Unit} (h : effect c db (.withinTx writes)=(r,db')) :
    (r=.ok () ∧ applyWrites c db writes=.ok db') ∨ (∃ err,r=.error err ∧ db'=db) := by
  cases r with
  | ok => exact .inl ⟨rfl,withinTx_ok h⟩
  | error err => exact .inr ⟨err,rfl,fallible_error h⟩

variable {write : Write}

theorem withinTx_one {r : Try Unit} (h : effect c db (.withinTx [write])=(r,db')) :
    (r=.ok () ∧ violation c db write=none ∧ db'=written c db write) ∨ (∃ err,r=.error err ∧ db'=db) := by
  rcases withinTx_cases h with ⟨hr,hall⟩|hfailed
  · simp only [applyWrites] at hall
    split at hall
    · cases hall
    rename_i hmid
    cases hall
    exact .inl ⟨hr,applyWrite_ok hmid⟩
  · exact .inr hfailed

theorem effect_getCertificate {certID : String} {cert : ManagedCertificate} (hfault : c.fault=none)
    (hcert : lookup ManagedCertificate.id certID db.certs=some cert) :
    effect c db (.getCertificate certID)=(.ok cert,db) := by
  simp only [effect,readRow,fallible,hfault,hcert]
  rfl

theorem effect_withinTx (hfault : c.fault=none) (hfree : violation c db write=none) :
    effect c db (.withinTx [write])=(.ok (),written c db write) := by
  simp only [effect,fallible,hfault,applyWrites,applyWrite,hfree]
  rfl

theorem effect_keeps {P : Db→Prop} (h : effect c db op=(r,db')) (hsame : ∀ a b,SameTables a b → P a → P b)
    (hwrite : ∀ writes,op=.withinTx writes → ∀ w∈writes,∀ a b,P a → applyWrite c a w=.ok b → P b)
    (hdb : P db) : P db' := by
  by_cases hop : ∃ writes,op=.withinTx writes
  · obtain ⟨writes,rfl⟩ := hop
    rcases withinTx_cases h with ⟨-,hall⟩|⟨err,-,rfl⟩
    · exact applyWrites_keeps (hwrite writes rfl) hdb hall
    · exact hdb
  · have htables := effect_sameTables c db fun writes he => hop ⟨writes,he⟩
    rw [h] at htables
    exact hsame db db' htables hdb

theorem effect_orderColumn {β : Type} {col : Order→β}
    (hcol : ∀ order row,col (overwriteOrder order row)=col row) (orderID : String) (h : effect c db op=(r,db')) :
    (lookup Order.orderID orderID db'.orders).map col=(lookup Order.orderID orderID db.orders).map col := by
  refine effect_keeps (P := fun b => (lookup Order.orderID orderID b.orders).map col=
    (lookup Order.orderID orderID db.orders).map col) h (fun a b hsame ha => ?_) ?_ rfl
  · rw [hsame.orders]
    exact ha
  · rintro writes rfl w _ a b ha hw
    exact (applyWrite_orderColumn hcol orderID hw).trans ha

def faultFree : Prog.Allowed controlPlane := fun _ c _ => c.fault=none

theorem perform_of_not_blocked (h : blocked c db op=false) : controlPlane.perform op c db=some (effect c db op) := by
  dsimp only [controlPlane]
  rw [h]
  rfl

variable {ok : Prog.Allowed controlPlane} {k : Res op→Service α}

theorem exec_of_choice (c : Choice) (hfault : c.fault=none) (hopen : blocked c db op=false)
    (h : (k (effect c db op).1).Exec faultFree (effect c db op).2 a db') :
    ((request op).bind k).Exec faultFree db a db' :=
  ⟨c,(effect c db op).1,(effect c db op).2,hfault,perform_of_not_blocked hopen,h⟩

theorem same_of_perform (hop : op.readOnly=true) (h : controlPlane.perform op c db=some (r,db')) : db'=db := by
  have hsame := effect_readOnly c db hop
  rw [effect_of_perform h] at hsame
  exact hsame

/-- A program whose operations all answer at once. -/
abbrev Prompt (p : Service α) : Prop := p.Uses fun op : Op => op.answersAtOnce=true

theorem exec_reads (hp : Prompt p) (h : p.Exec ok db a db') : db'=db := by
  refine Prog.exec_keeps (I := fun s => s=db) (fun op hop c r s s' hperform hs => ?_) hp h rfl
  exact (same_of_perform (readOnly_of_answersAtOnce hop) hperform).trans hs

theorem exec_read (hop : op.readOnly=true) (h : ((request op).bind k).Exec ok db a db') :
    ∃ c r,effect c db op=(r,db) ∧ (k r).Exec ok db a db' := by
  obtain ⟨c,r,s,-,hperform,hrest⟩ := h
  obtain rfl := same_of_perform hop hperform
  exact ⟨c,r,effect_of_perform hperform,hrest⟩

variable {Q : α→Db→Prop}

theorem always_read (hop : op.readOnly=true) (h : ∀ c,c.fault=none → (k (effect c db op).1).Always faultFree Q db) :
    ((request op).bind k).Always faultFree Q db := by
  intro c r db' hok hperform
  obtain rfl := same_of_perform hop hperform
  have hnext := h c hok
  rw [effect_of_perform hperform] at hnext
  exact hnext

theorem along_read {I : Db→Log controlPlane Unit→Prop}
    {Q : α→Db→Log controlPlane Unit→Prop} {log : Log controlPlane Unit} (hop : op.readOnly=true) (hI : I db log)
    (hk : ∀ c r,effect c db op=(r,db) → Along (S := controlPlane) I Q (k r) db (⟨(),op,r⟩::log)) :
    Along (S := controlPlane) I Q ((request op).bind k) db log := by
  refine ⟨hI,fun c r s' hperform => ?_⟩
  obtain rfl := same_of_perform hop hperform
  exact hk c r (effect_of_perform hperform)

theorem total_request (hopen : ∀ c,blocked c db op=false)
    (h : ∀ c,c.fault=none → (k (effect c db op).1).Total faultFree Q (effect c db op).2) :
    ((request op).bind k).Total faultFree Q db := by
  constructor
  · exact ⟨noFault,(effect noFault db op).1,(effect noFault db op).2,rfl,perform_of_not_blocked (hopen noFault)⟩
  · intro c r db' hok hperform
    have hnext := h c hok
    rw [effect_of_perform hperform] at hnext
    exact hnext

theorem total_read (hop : op.readOnly=true) (hopen : ∀ c,blocked c db op=false)
    (h : ∀ c,c.fault=none → (k (effect c db op).1).Total faultFree Q db) :
    ((request op).bind k).Total faultFree Q db := by
  refine total_request hopen fun c hfault => ?_
  rw [effect_readOnly c db hop]
  exact h c hfault

theorem total_of_reads (hp : Prompt p) (h : p.Always faultFree Q db) : p.Total faultFree Q db := by
  refine Prog.total_of_always (fun op hop db => ?_) hp h
  exact ⟨noFault,_,_,rfl,perform_of_not_blocked (not_blocked_of_answersAtOnce hop noFault db)⟩

variable {entries : List α}

theorem pickOne_isSome (c : Choice) (h : entries≠[]) : ∃ a∈entries,pickOne c entries=some a := by
  have hpos : 0<entries.length := length_pos_iff.mpr h
  have hlt : c.pick%entries.length<entries.length := Nat.mod_lt _ hpos
  exact ⟨entries[c.pick%entries.length],getElem_mem hlt,getElem?_eq_getElem hlt⟩

theorem pickOne_mem (h : pickOne c entries=some a) : a∈entries := mem_of_getElem? h

theorem newest_ne_nil {versions : List CertificateVersion} (h : versions≠[]) : newest versions≠[] := by
  obtain ⟨w,hw⟩ := exists_mem_of_ne_nil versions h
  obtain ⟨v,hv,hmax⟩ := versions.toFinset.exists_max_image (·.createdAt) ⟨w,mem_toFinset.mpr hw⟩
  refine ne_nil_of_mem (mem_filter.mpr ⟨mem_toFinset.mp hv,?_⟩)
  simp only [all_eq_true,decide_eq_true_eq]
  exact fun u hu => hmax u (mem_toFinset.mpr hu)

end Certctl.ControlPlaneStore
