import Certctl.ControlPlaneStore

/-!
# Working on renewal jobs

What a renewal job does once it runs: with keys made by agents it waits for
a certificate request, with keys made by the server it asks the issuer at
once; a submitted request completes the first job that waits for one. Each
of them reads the certificate first, talks to the issuer, and writes the
whole certificate row back from the copy it read.
-/

namespace Certctl.RenewalJobs

open AtomicProgram Prog ControlPlaneStore DomainRecords

/-- The renewal service as configured. -/
structure RenewalService where
  profileRepo : Bool := true
  tx : Bool := true
  targetRepo : Bool := true
  /-- Who makes the private keys, the agent when it says agent. -/
  keygenMode : String := "agent"
  computeCertFingerprint : String→String
  /-- Check of a request against a profile. -/
  validateCSRAgainstProfile : String→Option CertificateProfile→Try Unit

def failJob (job : Job) (errMsg : String) : Service Unit := do
  let _ ← updateJobStatus job.id .failed errMsg
  pure ()

def newJob (certID : String) (type : JobType) (status : JobStatus) (targetID agentID : Option String) :
    Service Job := do
  let id ← generateID "job"
  let scheduledAt ← timeNow
  let createdAt ← timeNow
  pure {
    id := id, type := type, certificateID := certID, targetID := targetID, agentID := agentID,
    status := status, maxAttempts := 3, scheduledAt := scheduledAt, createdAt := createdAt }

/-- A target with the agent that deploys to it, empty when there is none. -/
structure TargetInfo where
  id : String
  agentID : String := ""

/-- The agent of a target, as far as it can be found. -/
def targetInfo (svc : RenewalService) (targetID : String) : Service TargetInfo :=
  if !svc.targetRepo then pure ⟨targetID,""⟩
  else do
    match ← getTarget targetID with
    | .error _ => pure ⟨targetID,""⟩
    | .ok target => pure ⟨targetID,target.agentID⟩

def targetInfos (svc : RenewalService) : List String→Service (List TargetInfo)
  | [] => pure []
  | targetID::rest => do
    let first ← targetInfo svc targetID
    let others ← targetInfos svc rest
    pure (first::others)

/-- The targets of a certificate: those it names, or else those of the mapping table. -/
def deploymentTargets (svc : RenewalService) (cert : ManagedCertificate) : Service (List TargetInfo) :=
  if !cert.targetIDs.isEmpty then targetInfos svc cert.targetIDs
  else if !svc.targetRepo then pure []
  else do
    match ← listTargetsByCertificate cert.id with
    | .error _ => pure []
    | .ok targets => pure (targets.map fun target => ⟨target.id,target.agentID⟩)

/-- Insert a pending deployment job for every target; failures are only logged. -/
def createDeploymentJobs (svc : RenewalService) (cert : ManagedCertificate) : Service Unit := do
  let targets ← deploymentTargets svc cert
  Prog.forEach targets fun target => do
    let agentID := if target.agentID="" then none else some target.agentID
    let job ← newJob cert.id .deployment .pending (some target.id) agentID
    let _ ← withinTx [.createJob job]
    pure ()

def readProfile (profileRepo : Bool) (cert : ManagedCertificate) : Service (Option CertificateProfile) :=
  if cert.certificateProfileID="" ∨ !profileRepo then pure none
  else do
    match ← getProfile cert.certificateProfileID with
    | .error _ => pure none
    | .ok profile => pure (some profile)

/-- The extended key usages a profile allows, none without a profile. -/
def profileEKUs (profile : Option CertificateProfile) : List String := (profile.map (·.allowedEKUs)).getD []

def profileMaxTTL (profile : Option CertificateProfile) : ℤ := (profile.map (·.maxTTLSeconds)).getD 0

def profileMustStaple (profile : Option CertificateProfile) : Bool := (profile.map (·.mustStaple)).getD false

def issuedVersion (fingerprint : String→String) (id certID : String) (result : IssuanceResult)
    (csrPEM : String) (createdAt : Time) : CertificateVersion where
  id := id
  certificateID := certID
  serialNumber := result.serial
  notBefore := result.notBefore
  notAfter := result.notAfter
  fingerprintSHA256 := fingerprint result.certPEM
  pemChain := result.certPEM++"\n"++result.chainPEM
  csrPEM := csrPEM
  createdAt := createdAt

def renewedCertificate (cert : ManagedCertificate) (result : IssuanceResult) (now : Time) : ManagedCertificate :=
  {cert with status := .active, expiresAt := result.notAfter, lastRenewalAt := some now}

/-- Store the version, then the certificate; the job fails with the first failure. -/
def storeSeparately (job : Job) (version : CertificateVersion) (cert : ManagedCertificate) : Service (Try Unit) := do
  match ← withinTx [.createVersion version] with
  | .error err =>
    failJob job ("version creation failed: "++err.text)
    raise (err.wrapped "failed to create certificate version: ")
  | .ok _ =>
    match ← withinTx [.updateCertificate cert] with
    | .error err =>
      failJob job ("cert update failed: "++err.text)
      raise (err.wrapped "failed to update certificate: ")
    | .ok _ => pure (.ok ())

/-- Store the version and the certificate, in one transaction when it is wired. -/
def storeRenewal (svc : RenewalService) (job : Job) (version : CertificateVersion)
    (cert : ManagedCertificate) : Service (Try Unit) :=
  if svc.tx then do
    match ← withinTx [.createVersion version,.updateCertificate cert] with
    | .error err =>
      failJob job err.text
      raise err
    | .ok _ => pure (.ok ())
  else storeSeparately job version cert

def completeJob (svc : RenewalService) (job : Job) (cert : ManagedCertificate) : Service (Try Unit) := do
  match ← updateJobStatus job.id .completed "" with
  | .error err => raise (err.wrapped "failed to update job status: ")
  | .ok _ =>
    createDeploymentJobs svc cert
    let _ ← sendRenewalNotification cert true
    pure (.ok ())

def issuerRefused (job : Job) (cert : ManagedCertificate) (front : String) (err : GoError) : Service (Try Unit) := do
  failJob job (front++err.text)
  let _ ← sendRenewalNotification cert false
  raise (err.wrapped front)

def isMailAddress (san : String) : Bool := san.toList.contains '@'

/-- Renew with a request made by the server, whose private key is stored with the version. -/
def renewWithRequest (svc : RenewalService) (job : Job) (cert : ManagedCertificate) (key csrPEM : String) :
    Service (Try Unit) := do
  let profile ← readProfile svc.profileRepo cert
  match ← renewCertificate cert.issuerID cert.commonName cert.sans csrPEM (profileEKUs profile)
      (profileMaxTTL profile) (profileMustStaple profile) with
  | .error err => issuerRefused job cert "issuer renewal failed: " err
  | .ok result =>
    let id ← generateID "certver"
    let createdAt ← timeNow
    let now ← timeNow
    let version := issuedVersion svc.computeCertFingerprint id job.certificateID result key createdAt
    let renewed := renewedCertificate cert result now
    match ← storeRenewal svc job version renewed with
    | .error err => raise err
    | .ok _ => completeJob svc job renewed

def processRenewalServerKeygen (svc : RenewalService) (job : Job) (cert : ManagedCertificate) : Service (Try Unit) := do
  -- the connector is looked up again, and the answer not looked at
  let _ ← getIssuer cert.issuerID
  match ← generateKey with
  | .error err =>
    failJob job ("key generation failed: "++err.text)
    raise (err.wrapped "failed to generate private key: ")
  | .ok key =>
    let emailAddresses := cert.sans.filter isMailAddress
    let dnsNames := cert.sans.filter fun san => !isMailAddress san
    match ← createCertificateRequest cert.commonName dnsNames emailAddresses key with
    | .error err =>
      failJob job ("CSR generation failed: "++err.text)
      raise (err.wrapped "failed to generate CSR: ")
    | .ok csrPEM => renewWithRequest svc job cert key csrPEM

def processRenewalAgentKeygen (job : Job) (cert : ManagedCertificate) : Service (Try Unit) := do
  match ← updateJobStatus job.id .awaitingCSR "" with
  | .error err => raise (err.wrapped "failed to set job to AwaitingCSR: ")
  | .ok _ =>
    let _ ← withinTx [.updateCertificate cert.inRenewal]
    pure (.ok ())

def renewCertificateOf (svc : RenewalService) (job : Job) (cert : ManagedCertificate) : Service (Try Unit) :=
  if cert.issuerID="" then do
    failJob job "certificate has no issuer assigned"
    raise ⟨"certificate has no issuer assigned",none⟩
  else do
    if !(← getIssuer cert.issuerID) then
      failJob job ("issuer connector not found for "++cert.issuerID)
      raise ⟨"issuer connector not found for "++cert.issuerID,none⟩
    else if svc.keygenMode="agent" then processRenewalAgentKeygen job cert
    else processRenewalServerKeygen svc job cert

def processRenewalJob (svc : RenewalService) (job : Job) : Service (Try Unit) := do
  match ← updateJobStatus job.id .running "" with
  | .error err => raise (err.wrapped "failed to update job status: ")
  | .ok _ =>
    match ← getCertificate job.certificateID with
    | .error err =>
      failJob job ("certificate fetch failed: "++err.text)
      raise (err.wrapped "failed to fetch certificate: ")
    | .ok cert => renewCertificateOf svc job cert

def signSubmitted (svc : RenewalService) (job : Job) (cert : ManagedCertificate) (csrPEM : String)
    (profile : Option CertificateProfile) : Service (Try Unit) := do
  match ← renewCertificate cert.issuerID cert.commonName cert.sans csrPEM (profileEKUs profile)
      (profileMaxTTL profile) (profileMustStaple profile) with
  | .error err => issuerRefused job cert "issuer signing failed: " err
  | .ok result =>
    let id ← generateID "certver"
    let createdAt ← timeNow
    match ← withinTx [.createVersion (issuedVersion svc.computeCertFingerprint id cert.id result csrPEM createdAt)] with
    | .error err =>
      failJob job ("version creation failed: "++err.text)
      raise (err.wrapped "failed to create certificate version: ")
    | .ok _ =>
      let now ← timeNow
      let renewed := renewedCertificate cert result now
      match ← withinTx [.updateCertificate renewed] with
      | .error err =>
        failJob job ("cert update failed: "++err.text)
        raise (err.wrapped "failed to update certificate: ")
      | .ok _ => completeJob svc job renewed

def completeAgentCSRRenewal (svc : RenewalService) (job : Job) (cert : ManagedCertificate) (csrPEM : String) :
    Service (Try Unit) := do
  if !(← getIssuer cert.issuerID) then
    failJob job ("issuer connector not found for "++cert.issuerID)
    raise ⟨"issuer connector not found for "++cert.issuerID,none⟩
  else
    let profile ← readProfile svc.profileRepo cert
    match svc.validateCSRAgainstProfile csrPEM profile with
    | .error err =>
      failJob job ("CSR validation failed: "++err.text)
      raise (err.wrapped "CSR validation failed: ")
    | .ok _ =>
      match ← updateJobStatus job.id .running "" with
      | .error err => raise (err.wrapped "failed to update job status: ")
      | .ok _ => signSubmitted svc job cert csrPEM profile

/-- The jobs of a certificate that wait for a request. -/
def getAwaitingCSRJobs (certID : String) : Service (Try (List Job)) := do
  match ← listJobsByCertificate certID with
  | .error err => raise err
  | .ok jobs => pure (.ok (jobs.filter (·.status=.awaitingCSR)))

/-- The agent service as configured. -/
structure AgentService where
  renewalService : Option RenewalService
  profileRepo : Bool := true
  computeCertFingerprint : String→String
  /-- Check of a request against a profile. -/
  validateCSRAgainstProfile : String→Option CertificateProfile→Try Unit

/-- Have a request signed that no job waits for. -/
def signAdHoc (svc : AgentService) (certID : String) (cert : ManagedCertificate) (csrPEM : String) :
    Service (Try Unit) := do
  if !(← getIssuer cert.issuerID) then pure (.ok ())
  else
    let profile ← readProfile svc.profileRepo cert
    match svc.validateCSRAgainstProfile csrPEM profile with
    | .error err => raise (err.wrapped "CSR validation failed: ")
    | .ok _ =>
      match ← issueCertificate cert.issuerID cert.commonName cert.sans csrPEM (profileEKUs profile)
          (profileMaxTTL profile) (profileMustStaple profile) with
      | .error err => raise (err.wrapped "issuer signing failed: ")
      | .ok result =>
        let id ← generateID "certver"
        let createdAt ← timeNow
        match ← withinTx [.createVersion
            (issuedVersion svc.computeCertFingerprint id certID result csrPEM createdAt)] with
        | .error err => raise (err.wrapped "failed to store certificate version: ")
        | .ok _ =>
          let now ← timeNow
          let _ ← withinTx [.updateCertificate (renewedCertificate cert result now)]
          pure (.ok ())

/-- The first job of a certificate that waits for a request, with the service that completes it. -/
def awaitingJob (svc : AgentService) (certID : String) : Service (Option (RenewalService×Job)) :=
  match svc.renewalService with
  | none => pure none
  | some renewal => do
    match ← getAwaitingCSRJobs certID with
    | .error _ => pure none
    | .ok jobs => pure (jobs.head?.map fun job => (renewal,job))

def submitCSR (svc : AgentService) (agentID certID csrPEM : String) : Service (Try Unit) := do
  match ← getAgent agentID with
  | .error err => raise (err.wrapped "failed to fetch agent: ")
  | .ok _ =>
    if csrPEM="" then raise ⟨"invalid CSR: empty",none⟩
    else if certID="" then pure (.ok ())
    else
      match ← getCertificate certID with
      | .error err => raise (err.wrapped "failed to fetch certificate: ")
      | .ok cert =>
        match ← awaitingJob svc certID with
        | none => signAdHoc svc certID cert csrPEM
        | some (renewal,job) =>
          match ← completeAgentCSRRenewal renewal job cert csrPEM with
          | .error err => raise (err.wrapped "failed to complete agent CSR renewal: ")
          | .ok _ => pure (.ok ())

/-- Put failed renewals with attempts left back to pending; failures are only logged. -/
def RenewalService.retryFailedJobs : Service (Try Unit) := do
  match ← listJobsByStatus .failed with
  | .error err => raise (err.wrapped "failed to fetch failed jobs: ")
  | .ok failedJobs =>
    Prog.forEach failedJobs fun job =>
      if job.type≠.renewal then pure ()
      else if job.maxAttempts≤job.attempts then pure ()
      else do
        let _ ← updateJobStatus job.id .pending ""
        pure ()
    pure (.ok ())

section Operations

/-- The operations that work on a job of a certificate may use: reads, the end of the job,
new versions and deployments, and the row of the certificate. -/
structure WorkOps (P : Op→Prop) (job : Job) (cert : ManagedCertificate) : Prop where
  read : ∀ op,op.answersAtOnce=true → P op
  fail : ∀ errMsg,P (.withinTx [.updateJobStatus job.id .failed errMsg])
  complete : P (.withinTx [.updateJobStatus job.id .completed ""])
  await : P (.withinTx [.updateJobStatus job.id .awaitingCSR ""])
  deploy : ∀ new : Job,new.type=.deployment → new.status=.pending → new.certificateID=cert.id →
    P (.withinTx [.createJob new])
  version : ∀ version,P (.withinTx [.createVersion version])
  update : ∀ row : ManagedCertificate,row.id=cert.id → P (.withinTx [.updateCertificate row])
  store : ∀ version,∀ row : ManagedCertificate,row.id=cert.id →
    P (.withinTx [.createVersion version,.updateCertificate row])

/-- Answers at once, reads no profile and asks no issuer. -/
def Op.aside : Op→Bool
  | .getProfile _ => false
  | .issueCertificate _ _ _ _ _ _ _ => false
  | .renewCertificate _ _ _ _ _ _ _ => false
  | op => op.answersAtOnce

/-- The operations that remain once the issuer has answered. -/
structure FinishOps (P : Op→Prop) (job : Job) (cert : ManagedCertificate) : Prop where
  aside : ∀ op,Op.aside op=true → P op
  fail : ∀ errMsg,P (.withinTx [.updateJobStatus job.id .failed errMsg])
  complete : P (.withinTx [.updateJobStatus job.id .completed ""])
  deploy : ∀ new : Job,new.type=.deployment → new.status=.pending → new.certificateID=cert.id →
    P (.withinTx [.createJob new])
  version : ∀ version,P (.withinTx [.createVersion version])
  update : ∀ row : ManagedCertificate,row.id=cert.id → P (.withinTx [.updateCertificate row])

variable {P : Op→Prop} {job : Job} {cert : ManagedCertificate} {svc : RenewalService}

theorem aside_of_reads (hread : ∀ op,op.answersAtOnce=true → P op) (op : Op) (hop : Op.aside op=true) : P op := by
  refine hread op ?_
  cases op with
  | getProfile | issueCertificate | renewCertificate => cases hop
  | _ => exact hop

theorem WorkOps.finish (h : WorkOps P job cert) : FinishOps P job cert :=
  ⟨aside_of_reads h.read,h.fail,h.complete,h.deploy,h.version,h.update⟩

theorem WorkOps.mono {Q : Op→Prop} (h : WorkOps P job cert) (himp : ∀ op,P op → Q op) : WorkOps Q job cert where
  read := fun op hop => himp op (h.read op hop)
  fail := fun errMsg => himp _ (h.fail errMsg)
  complete := himp _ h.complete
  await := himp _ h.await
  deploy := fun new htype hstatus hcert => himp _ (h.deploy new htype hstatus hcert)
  version := fun version => himp _ (h.version version)
  update := fun row hrow => himp _ (h.update row hrow)
  store := fun version row hrow => himp _ (h.store version row hrow)

variable {α : Type}

theorem uses_failJob {errMsg : String} {k : Service α}
    (hfail : P (.withinTx [.updateJobStatus job.id .failed errMsg])) (hk : k.Uses P) :
    ((failJob job errMsg).bind fun _ => k).Uses P :=
  uses_bind ⟨hfail,fun _ => trivial⟩ fun _ => hk

variable {certID : String}

theorem uses_newJob {type : JobType} {status : JobStatus}
    {targetID agentID : Option String} {k : Job→Service α} (haside : ∀ op,Op.aside op=true → P op)
    (hk : ∀ new : Job,new.type=type → new.status=status → new.certificateID=certID → (k new).Uses P) :
    ((newJob certID type status targetID agentID).bind k).Uses P := by
  refine uses_request (haside _ rfl) fun id => ?_
  refine uses_request (haside _ rfl) fun scheduledAt => ?_
  refine uses_request (haside _ rfl) fun createdAt => ?_
  exact hk _ rfl rfl rfl

theorem uses_deploymentTargets (haside : ∀ op,Op.aside op=true → P op) (cert : ManagedCertificate) :
    (deploymentTargets svc cert).Uses P := by
  have hinfo : ∀ targetID,(targetInfo svc targetID).Uses P := by
    intro targetID
    rw [targetInfo]
    split
    · trivial
    refine uses_request (haside _ rfl) (onAnswer fun _ => ?_)
    trivial
  have hinfos : ∀ targetIDs,(targetInfos svc targetIDs).Uses P := by
    intro targetIDs
    induction targetIDs with
    | nil => trivial
    | cons targetID rest ih =>
      refine uses_bind (hinfo targetID) fun first => ?_
      exact uses_bind ih fun others => trivial
  rw [deploymentTargets]
  split
  · exact hinfos cert.targetIDs
  split
  · trivial
  refine uses_request (haside _ rfl) (onAnswer fun _ => ?_)
  trivial

theorem uses_readProfile (hread : ∀ op,op.answersAtOnce=true → P op) (profileRepo : Bool) (cert : ManagedCertificate) :
    (readProfile profileRepo cert).Uses P := by
  rw [readProfile]
  split
  · trivial
  refine uses_request (hread _ rfl) (onAnswer fun _ => ?_)
  trivial

variable {row : ManagedCertificate}

theorem uses_storeRenewal (h : WorkOps P job cert) (version : CertificateVersion)
    (hrow : row.id=cert.id) : (storeRenewal svc job version row).Uses P := by
  rw [storeRenewal]
  split
  · refine uses_request (h.store _ _ hrow) (onAnswer (fun _ => ?_) fun _ => uses_failJob (h.fail _) trivial)
    trivial
  refine uses_request (h.version _) (onAnswer (fun u => ?_) fun _ => uses_failJob (h.fail _) trivial)
  refine uses_request (h.update _ hrow) (onAnswer (fun _ => ?_) fun _ => uses_failJob (h.fail _) trivial)
  trivial

theorem uses_completeJob (h : FinishOps P job cert) (hrow : row.id=cert.id) : (completeJob svc job row).Uses P := by
  have hdeploy : (createDeploymentJobs svc row).Uses P := by
    refine uses_bind (uses_deploymentTargets h.aside row) fun targets => ?_
    refine uses_forEach targets fun target _ => ?_
    refine uses_newJob h.aside fun new htype hstatus hcert => ?_
    exact uses_request (h.deploy new htype hstatus (hcert.trans hrow)) fun _ => trivial
  refine uses_request h.complete (onAnswer fun _ => ?_)
  refine uses_bind hdeploy fun _ => ?_
  exact uses_request (h.aside _ rfl) fun _ => trivial

theorem uses_issuerRefused (h : FinishOps P job cert) (front : String) (err : GoError) :
    (issuerRefused job cert front err).Uses P :=
  uses_failJob (h.fail _) (uses_request (h.aside _ rfl) fun _ => trivial)

theorem uses_renewWithRequest (h : WorkOps P job cert) (key csrPEM : String) :
    (renewWithRequest svc job cert key csrPEM).Uses P := by
  refine uses_bind (uses_readProfile h.read _ cert) fun profile => ?_
  refine uses_request (h.read _ rfl) (onAnswer (fun _ => ?_) fun err => uses_issuerRefused h.finish _ err)
  refine uses_request (h.read _ rfl) fun id => ?_
  refine uses_request (h.read _ rfl) fun createdAt => ?_
  refine uses_request (h.read _ rfl) fun now => ?_
  refine uses_bind (uses_storeRenewal h _ rfl) (onAnswer fun _ => ?_)
  exact uses_completeJob h.finish rfl

theorem uses_renewCertificateOf (h : WorkOps P job cert) : (renewCertificateOf svc job cert).Uses P := by
  rw [renewCertificateOf]
  split
  · exact uses_failJob (h.fail _) trivial
  refine uses_request (h.read _ rfl) fun known => ?_
  split
  · exact uses_failJob (h.fail _) trivial
  split
  · refine uses_request h.await (onAnswer fun _ => ?_)
    exact uses_request (h.update _ rfl) fun _ => trivial
  refine uses_request (h.read _ rfl) fun _ => ?_
  refine uses_request (h.read _ rfl) (onAnswer (fun key => ?_) fun _ => uses_failJob (h.fail _) trivial)
  refine uses_request (h.read _ rfl) (onAnswer (fun csrPEM => ?_) fun _ => uses_failJob (h.fail _) trivial)
  exact uses_renewWithRequest h key csrPEM

variable {csrPEM : String}

theorem uses_signSubmitted (h : FinishOps P job cert) {profile : Option CertificateProfile}
    (hrenew : P (.renewCertificate cert.issuerID cert.commonName cert.sans csrPEM (profileEKUs profile)
      (profileMaxTTL profile) (profileMustStaple profile))) :
    (signSubmitted svc job cert csrPEM profile).Uses P := by
  refine uses_request hrenew (onAnswer (fun _ => ?_) fun err => uses_issuerRefused h _ err)
  refine uses_request (h.aside _ rfl) fun id => ?_
  refine uses_request (h.aside _ rfl) fun createdAt => ?_
  refine uses_request (h.version _) (onAnswer (fun u => ?_) fun _ => uses_failJob (h.fail _) trivial)
  refine uses_request (h.aside _ rfl) fun now => ?_
  refine uses_request (h.update _ rfl) (onAnswer (fun _ => ?_) fun _ => uses_failJob (h.fail _) trivial)
  exact uses_completeJob h rfl

theorem uses_completeAgentCSRRenewal (h : WorkOps P job cert)
    (hrun : P (.withinTx [.updateJobStatus job.id .running ""])) (csrPEM : String) :
    (completeAgentCSRRenewal svc job cert csrPEM).Uses P := by
  refine uses_request (h.read _ rfl) fun known => ?_
  split
  · exact uses_failJob (h.fail _) trivial
  refine uses_bind (uses_readProfile h.read _ cert) fun profile => ?_
  split
  · exact uses_failJob (h.fail _) trivial
  refine uses_request hrun (onAnswer fun _ => ?_)
  exact uses_signSubmitted h.finish (h.read _ rfl)

variable {agents : AgentService}

theorem uses_signAdHoc (hread : ∀ op,op.answersAtOnce=true → P op)
    (hversion : ∀ version,P (.withinTx [.createVersion version]))
    (hupdate : ∀ row : ManagedCertificate,row.id=cert.id → P (.withinTx [.updateCertificate row])) :
    (signAdHoc agents certID cert csrPEM).Uses P := by
  refine uses_request (hread _ rfl) fun known => ?_
  split
  · trivial
  refine uses_bind (uses_readProfile hread _ cert) fun profile => ?_
  split
  · trivial
  refine uses_request (hread _ rfl) (onAnswer fun _ => ?_)
  refine uses_request (hread _ rfl) fun id => ?_
  refine uses_request (hread _ rfl) fun createdAt => ?_
  refine uses_request (hversion _) (onAnswer fun _ => ?_)
  refine uses_request (hread _ rfl) fun now => ?_
  exact uses_request (hupdate _ rfl) fun _ => trivial

theorem uses_awaitingJob (hread : ∀ op,op.answersAtOnce=true → P op) : (awaitingJob agents certID).Uses P := by
  rw [awaitingJob]
  split
  · trivial
  have hlist : (getAwaitingCSRJobs certID).Uses P := by
    refine uses_request (hread _ rfl) (onAnswer fun _ => ?_)
    trivial
  refine uses_bind hlist (onAnswer fun _ => ?_)
  trivial

end Operations

end Certctl.RenewalJobs
