import Certctl.ApprovalRequests
import Certctl.RenewalJobs

/-!
# Starting renewals

The three ways in which a renewal of a certificate begins: on request for
one certificate, in bulk, and by the sweep over certificates about to
expire. Each of them decides on its own which certificates are eligible and
in which status the job starts; only the first asks for approval.
-/

namespace Certctl.RenewalTriggers

open AtomicProgram ControlPlaneStore DomainRecords ApprovalRequests RenewalJobs

/-- The certificate service as configured. -/
structure CertificateService where
  jobRepo : Bool := true
  approvalSvc : Option ApprovalService
  profileRepo : Bool := true
  /-- Who makes the private keys, the agent when it says agent. -/
  keygenMode : String := "agent"

def year2000 : Time := 946684800*second

def renewalJobType (cert : ManagedCertificate) : JobType :=
  if cert.expiresAt=zeroTime ∨ cert.expiresAt<year2000 then .issuance else .renewal

/-- The approval service and the profile that a renewal of the certificate has to be approved
under; a profile that cannot be read asks for no approval. -/
def approvalGate (svc : CertificateService) (cert : ManagedCertificate) : Service (Option (ApprovalService×String)) :=
  match svc.approvalSvc with
  | none => pure none
  | some approval =>
    if !svc.profileRepo ∨ cert.certificateProfileID="" then pure none
    else do
      match ← getProfile cert.certificateProfileID with
      | .error _ => pure none
      | .ok profile => if profile.requiresApproval then pure (some (approval,profile.id)) else pure none

def initialStatus (keygenMode : String) : JobStatus := if keygenMode="agent" then .awaitingCSR else .pending

/-- Ask for the approval of a job that has been inserted, and cancel the job if that fails. -/
def gateJob (approval : ApprovalService) (cert : ManagedCertificate) (job : Job) (profileID actor : String) :
    Service (Try Unit) := do
  match ← requestApproval approval (some cert) job.id profileID actor with
  | .error err =>
    let _ ← updateJobStatus job.id .cancelled ("approval request creation failed: "++err.text)
    raise (err.wrapped "failed to create approval request: ")
  | .ok _ => pure (.ok ())

/-- Insert the job of a renewal, waiting for approval where the profile asks for it. -/
def enqueueRenewal (svc : CertificateService) (cert : ManagedCertificate) (actor : String) : Service (Try Unit) := do
  let gate ← approvalGate svc cert
  let status := if gate.isSome then .awaitingApproval else initialStatus svc.keygenMode
  let job ← newJob cert.id (renewalJobType cert) status none none
  match ← withinTx [.createJob job] with
  | .error err => raise (err.wrapped "failed to create renewal job: ")
  | .ok _ =>
    match gate with
    | none => pure (.ok ())
    | some (approval,profileID) => gateJob approval cert job profileID actor

def renewalRefusal (cert : ManagedCertificate) (force : Bool) : Err :=
  if cert.status=.archived then some ⟨"cannot renew archived certificate",none⟩
  else if cert.status=.expired then some ⟨"cannot renew expired certificate; reissue instead",none⟩
  else if cert.status=.renewalInProgress ∧ !force then
    some ⟨"certificate renewal already in progress",none⟩
  else none

def triggerRenewal (svc : CertificateService) (certID actor : String) (force : Bool) : Service (Try Unit) := do
  match ← getCertificate certID with
  | .error err => raise (err.wrapped "failed to fetch certificate: ")
  | .ok cert =>
    match renewalRefusal cert force with
    | some err => raise err
    | none =>
      let started := cert.inRenewal
      match ← withinTx [.updateCertificate started] with
      | .error err => raise (err.wrapped "failed to update certificate status: ")
      | .ok _ => if svc.jobRepo then enqueueRenewal svc started actor else pure (.ok ())

/-- Which certificates to renew. -/
structure BulkRenewalCriteria where
  profileID : String := ""
  ownerID : String := ""
  agentID : String := ""
  issuerID : String := ""
  teamID : String := ""
  certificateIDs : List String := []

/-- Some criterion other than identifiers is given. -/
def BulkRenewalCriteria.hasFilter (criteria : BulkRenewalCriteria) : Bool :=
  criteria.profileID≠"" || criteria.ownerID≠"" || criteria.agentID≠"" || criteria.issuerID≠"" || criteria.teamID≠""

def BulkRenewalCriteria.isEmpty (criteria : BulkRenewalCriteria) : Bool :=
  !criteria.hasFilter && criteria.certificateIDs.isEmpty

/-- What a bulk renewal reports. -/
structure BulkRenewalResult where
  totalMatched : ℕ := 0
  totalEnqueued : ℕ := 0
  /-- Certificates that were not eligible. -/
  totalSkipped : ℕ := 0
  totalFailed : ℕ := 0
  /-- Certificates with the jobs inserted for them. -/
  enqueuedJobs : List (String×String) := []
  /-- Certificates with the errors they failed with. -/
  errors : List (String×String) := []
deriving DecidableEq

def BulkRenewalResult.skip (result : BulkRenewalResult) : BulkRenewalResult :=
  {result with totalSkipped := result.totalSkipped+1}

def BulkRenewalResult.fail (result : BulkRenewalResult) (certID error : String) : BulkRenewalResult :=
  {result with totalFailed := result.totalFailed+1, errors := result.errors++[(certID,error)]}

def BulkRenewalResult.enqueue (result : BulkRenewalResult) (certID jobID : String) : BulkRenewalResult :=
  {result with totalEnqueued := result.totalEnqueued+1, enqueuedJobs := result.enqueuedJobs++[(certID,jobID)]}

/-- The certificates with the given identifiers; missing ones drop out. -/
def getCertificates : List String→Service (List ManagedCertificate)
  | [] => pure []
  | id::rest => do
    let found ← getCertificate id
    let others ← getCertificates rest
    match found with
    | .error _ => pure others
    | .ok cert => pure (cert::others)

def resolveCertificates (criteria : BulkRenewalCriteria) : Service (Try (List ManagedCertificate)) :=
  if !criteria.certificateIDs.isEmpty && !criteria.hasFilter then do
    let certs ← getCertificates criteria.certificateIDs
    pure (.ok certs)
  else do
    match ← listCertificates {
        ownerID := criteria.ownerID, teamID := criteria.teamID, issuerID := criteria.issuerID,
        agentID := criteria.agentID, profileID := criteria.profileID, perPage := 10000 } with
    | .error err => raise err
    | .ok certs =>
      if criteria.certificateIDs.isEmpty then pure (.ok certs)
      else pure (.ok (certs.filter fun cert => criteria.certificateIDs.contains cert.id))

def bulkSkips (status : CertificateStatus) : Bool :=
  status=.archived || status=.revoked || status=.expired || status=.renewalInProgress

def bulkRenewOne (keygenMode : String) (result : BulkRenewalResult) (cert : ManagedCertificate) :
    Service BulkRenewalResult :=
  if bulkSkips cert.status then pure result.skip
  else do
    let started := cert.inRenewal
    match ← withinTx [.updateCertificate started] with
    | .error err => pure (result.fail cert.id ("failed to update certificate status: "++err.text))
    | .ok _ =>
      let job ← newJob cert.id (renewalJobType cert) (initialStatus keygenMode) none none
      match ← withinTx [.createJob job] with
      | .error err => pure (result.fail cert.id ("failed to create renewal job: "++err.text))
      | .ok _ => pure (result.enqueue cert.id job.id)

def bulkRenew (keygenMode : String) (criteria : BulkRenewalCriteria) : Service (Try BulkRenewalResult) :=
  if criteria.isEmpty then raise ⟨"at least one filter criterion is required",none⟩
  else do
    match ← resolveCertificates criteria with
    | .error err => raise (err.wrapped "failed to resolve certificates: ")
    | .ok certs =>
      let result ← Prog.foldEach certs {totalMatched := certs.length} (bulkRenewOne keygenMode)
      pure (.ok result)

def sweepSkips (status : CertificateStatus) : Bool :=
  status=.renewalInProgress || status=.archived || status=.revoked || status=.failed || status=.expired

def expiryFixed (status : CertificateStatus) : Bool := status=.renewalInProgress || status=.archived || status=.revoked

/-- Move a certificate to expiring or expired, as far as it goes; the copy in hand changes in any case. -/
def updateCertExpiryStatus (cert : ManagedCertificate) (untilExpiry : Time) : Service ManagedCertificate :=
  let newStatus := if untilExpiry≤0 then CertificateStatus.expired else .expiring
  if cert.status=newStatus then pure cert
  else if expiryFixed cert.status then pure cert
  else do
    let moved := {cert with status := newStatus}
    let _ ← withinTx [.updateCertificate moved]
    pure moved

/-- The issuer asks to renew later. -/
def renewalNotSuggested (cert : ManagedCertificate) : Service Bool := do
  match ← getLatestVersion cert.id with
  | .error _ => pure false
  | .ok version =>
    if version.pemChain="" then pure false
    else
      match ← getRenewalInfo cert.issuerID version.pemChain with
      | .error _ => pure false
      | .ok none => pure false
      | .ok (some suggestedWindowStart) =>
        let now ← timeNow
        pure (now < suggestedWindowStart)

def activeRenewal (job : Job) : Bool := job.type=.renewal && (job.status=.pending || job.status=.running)

/-- A renewal of the certificate is under way, as far as the jobs can be read. -/
def hasActiveRenewal (certID : String) : Service Bool := do
  match ← listJobsByCertificate certID with
  | .error _ => pure false
  | .ok jobs => pure (jobs.any activeRenewal)

/-- Insert the renewal job of the sweep; failures are only logged. -/
def sweepEnqueue (cert : ManagedCertificate) : Service Unit := do
  let job ← newJob cert.id .renewal .pending none none
  match ← withinTx [.createJob job] with
  | .error _ => pure ()
  | .ok _ =>
    let _ ← withinTx [.updateCertificate cert.inRenewal]
    pure ()

/-- What the sweep does with a certificate once its expiry has been looked at. -/
def sweepRenew (cert : ManagedCertificate) : Service Unit := do
  if !(← getIssuer cert.issuerID) then pure ()
  else if ← renewalNotSuggested cert then pure ()
  else if ← hasActiveRenewal cert.id then pure ()
  else sweepEnqueue cert

def sweepOne (cert : ManagedCertificate) : Service Unit :=
  if sweepSkips cert.status then pure ()
  else do
    let now ← timeNow
    let moved ← updateCertExpiryStatus cert (cert.expiresAt-now)
    sendThresholdAlerts moved (cert.expiresAt-now)
    sweepRenew moved

def day : Time := 86400*second

def checkExpiringCertificates : Service (Try Unit) := do
  let now ← timeNow
  match ← getExpiringCertificates (now+31*day) with
  | .error err => raise (err.wrapped "failed to fetch expiring certificates: ")
  | .ok expiring =>
    Prog.forEach expiring sweepOne
    pure (.ok ())

section Operations

variable {P : Op→Prop} {cert : ManagedCertificate} {svc : CertificateService} {α : Type}

section

variable (hread : ∀ op,op.answersAtOnce=true → P op)
include hread

theorem uses_approvalGate {f : Option (ApprovalService×String)→Service α} (hnone : (f none).Uses P)
    (hsome : ∀ approval profileID,svc.approvalSvc=some approval → (f (some (approval,profileID))).Uses P) :
    ((approvalGate svc cert).bind f).Uses P := by
  rw [approvalGate]
  split
  · exact hnone
  rename_i approval happroval
  split
  · exact hnone
  refine uses_request (hread _ rfl) (onAnswer (fun profile => ?_) fun _ => hnone)
  change Prog.Uses P (Prog.bind
    (if profile.requiresApproval then Prog.ret (some (approval,profile.id)) else Prog.ret none) f)
  split
  · exact hsome approval profile.id happroval
  · exact hnone

variable {actor : String}

theorem uses_gateJob {approval : ApprovalService} {job : Job} {profileID : String}
    (hcreate : ∀ req : ApprovalRequest,req.state=.pending → P (.withinTx [.createApproval req]))
    (hcancel : ∀ errMsg,P (.withinTx [.updateJobStatus job.id .cancelled errMsg]))
    (hbypass : approval.bypassEnabled=true → ∀ id decidedBy note,(approveInternal approval id decidedBy note).Uses P) :
    (gateJob approval cert job profileID actor).Uses P := by
  refine Prog.uses_bind (uses_requestApproval hread hcreate hbypass) fun asked => ?_
  cases asked with
  | error => exact uses_request (hcancel _) fun _ => trivial
  | ok => trivial

theorem uses_enqueueRenewal (hcreate : ∀ new : Job,new.certificateID=cert.id → P (.withinTx [.createJob new]))
    (hgate : ∀ approval,svc.approvalSvc=some approval → ∀ job profileID,
      (gateJob approval cert job profileID actor).Uses P) : (enqueueRenewal svc cert actor).Uses P := by
  refine uses_approvalGate hread ?_ fun approval profileID happroval => ?_
  · refine uses_newJob (aside_of_reads hread) fun job _ _ hcert => ?_
    refine uses_request (hcreate job hcert) (onAnswer fun _ => ?_)
    trivial
  · refine uses_newJob (aside_of_reads hread) fun job _ _ hcert => ?_
    refine uses_request (hcreate job hcert) (onAnswer fun _ => ?_)
    exact hgate approval happroval job profileID

end

def SameButStatus (cert row : ManagedCertificate) : Prop := {row with status := cert.status}=cert

theorem uses_updateCertExpiryStatus {untilExpiry : Time} {k : ManagedCertificate→Service α}
    (hupdate : ∀ row,SameButStatus cert row → P (.withinTx [.updateCertificate row]))
    (hk : ∀ moved,SameButStatus cert moved → (k moved).Uses P) :
    ((updateCertExpiryStatus cert untilExpiry).bind k).Uses P := by
  unfold updateCertExpiryStatus
  generalize (if untilExpiry≤0 then CertificateStatus.expired else .expiring)=newStatus
  dsimp only
  split
  · exact hk cert rfl
  split
  · exact hk cert rfl
  · exact uses_request (hupdate _ rfl) fun _ => hk _ rfl

theorem uses_sweepOne (hread : ∀ op,op.answersAtOnce=true → P op)
    (hupdate : ∀ row,SameButStatus cert row → P (.withinTx [.updateCertificate row]))
    (hcreate : ∀ new : Job,new.type=.renewal → new.status=.pending → new.certificateID=cert.id →
      P (.withinTx [.createJob new])) : (sweepOne cert).Uses P := by
  have hsuggested : ∀ row,(renewalNotSuggested row).Uses P := by
    intro row
    refine uses_request (hread _ rfl) (onAnswer fun version => ?_)
    dsimp only
    split
    · trivial
    refine uses_request (hread _ rfl) (onAnswer fun window => ?_)
    cases window with
    | none => trivial
    | some => exact uses_request (hread _ rfl) fun _ => trivial
  have hactive : ∀ id,(hasActiveRenewal id).Uses P := by
    intro id
    refine uses_request (hread _ rfl) (onAnswer fun _ => ?_)
    trivial
  rw [sweepOne]
  split
  · trivial
  refine uses_request (hread _ rfl) fun now => ?_
  refine uses_updateCertExpiryStatus hupdate fun moved hmoved => ?_
  have hid : moved.id=cert.id := by rw [← hmoved]
  refine uses_request (hread _ rfl) fun _ => ?_
  refine uses_request (hread _ rfl) fun known => ?_
  split
  · trivial
  refine Prog.uses_bind (hsuggested moved) fun later => ?_
  split
  · trivial
  refine Prog.uses_bind (hactive moved.id) fun active => ?_
  split
  · trivial
  refine uses_newJob (aside_of_reads hread) fun new htype hstatus hcert => ?_
  refine uses_request (hcreate new htype hstatus (hcert.trans hid)) (onAnswer fun _ => ?_)
  refine uses_request (hupdate _ ?_) fun _ => trivial
  rw [SameButStatus,← hmoved]

end Operations

end Certctl.RenewalTriggers
