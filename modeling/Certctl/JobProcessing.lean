import Certctl.RenewalJobs

/-!
# The job service

The sweep that claims pending jobs and works on them, one after the other
or several at a time, the sweeps that fail jobs which waited too long and
that put failed jobs back to pending, and the two calls that release or
cancel a job waiting for approval. All of them set the status of a job
without looking at the status it has by then.
-/

namespace Certctl.JobProcessing

open AtomicProgram Prog ControlPlaneStore DomainRecords RenewalJobs

/-- The job service as configured. -/
structure JobService where
  renewalService : RenewalService
  certRepo : Bool := true
  ownerRepo : Bool := true
  /-- Jobs worked on at a time; one after the other when not positive. -/
  renewalConcurrency : ℤ := 0
  /-- Jobs claimed at a time; all when not positive. -/
  claimLimit : ℤ := 0
  toLower : String→String
  /-- Durations as the formatting library prints them. -/
  durationText : Time→String

def minute : Time := 60*second

def heartbeatStale (agent : Agent) : Service Bool :=
  match agent.lastHeartbeatAt with
  | none => pure false
  | some lastHeartbeatAt => do
    let now ← timeNow
    pure (5*minute<now-lastHeartbeatAt)

/-- Hand a deployment to the agent of its target, if that is in service. -/
def dispatchDeployment (job : Job) (cert : ManagedCertificate) (target : DeploymentTarget) : Service (Try Unit) := do
  match ← getAgent target.agentID with
  | .error err =>
    failJob job ("agent fetch failed: "++err.text)
    raise (err.wrapped "failed to fetch agent: ")
  | .ok agent =>
    if agent.retiredAt.isSome then
      failJob job "assigned agent is retired"
      let _ ← sendDeploymentNotification cert target "agent retired"
      raise ⟨"agent "++target.agentID++" is retired",none⟩
    else if ← heartbeatStale agent then
      failJob job "agent is offline"
      let _ ← sendDeploymentNotification cert target "agent offline"
      raise ⟨"agent "++target.agentID++" is offline",none⟩
    else pure (.ok ())

def processDeploymentJob (job : Job) : Service (Try Unit) := do
  match ← updateJobStatus job.id .running "" with
  | .error err => raise (err.wrapped "failed to update job status: ")
  | .ok _ =>
    match ← getCertificate job.certificateID with
    | .error err =>
      failJob job ("certificate fetch failed: "++err.text)
      raise (err.wrapped "failed to fetch certificate: ")
    | .ok cert =>
      if job.targetID.getD ""="" then
        failJob job "target_id not found in job"
        raise ⟨"target_id not found in job",none⟩
      else
        match ← getTarget (job.targetID.getD "") with
        | .error err =>
          failJob job ("target fetch failed: "++err.text)
          raise (err.wrapped "failed to fetch target: ")
        | .ok target => dispatchDeployment job cert target

def processJob (svc : JobService) (job : Job) : Service (Try Unit) := do
  logProcessingJob job
  match job.type with
  | .renewal => processRenewalJob svc.renewalService job
  | .deployment => processDeploymentJob job
  | .issuance => processRenewalJob svc.renewalService job
  | .validation => raise ⟨"validation job processing not yet implemented",none⟩

/-- Deployments that an agent picks up itself. -/
def shouldSkipJob (job : Job) : Bool := job.type=.deployment && job.agentID.any (·≠"")

def work (svc : JobService) (job : Job) : Service Unit := do
  let _ ← processJob svc job
  pure ()

def processPendingJobsSequential (svc : JobService) (pendingJobs : List Job) : Service Unit :=
  Prog.forEach pendingJobs fun job => if shouldSkipJob job then pure () else work svc job

/-- Two routines side by side, as the runtime schedules them. -/
def go (routine rest : Service Unit) : Service Unit :=
  Prog.fork (S := controlPlane) Op.schedule (fun first : Bool => first) routine rest

/-- Start a routine for every job as permits allow; a cancelled caller starts no more. -/
def dispatchJobs (svc : JobService) (sem : ℕ) : List Job→Service Unit
  | [] => pure ()
  | job::rest =>
    if shouldSkipJob job then dispatchJobs svc sem rest
    else do
      match ← semAcquire sem with
      | .error _ => pure ()
      | .ok _ =>
        go (do
          work svc job
          semRelease sem) (dispatchJobs svc sem rest)

/-- Work on jobs with at most so many routines at a time, and wait for all of them. -/
def boundedFanOut (svc : JobService) (pendingJobs : List Job) (capN : ℕ) : Service Unit := do
  let sem ← newSemaphore capN
  dispatchJobs svc sem pendingJobs

def processPendingJobs (svc : JobService) : Service (Try Unit) := do
  match ← claimPendingJobs none svc.claimLimit with
  | .error err => raise (err.wrapped "failed to claim pending jobs: ")
  | .ok pendingJobs =>
    if pendingJobs.isEmpty then pure (.ok ())
    else if svc.renewalConcurrency≤0 then
      processPendingJobsSequential svc pendingJobs
      pure (.ok ())
    else
      boundedFanOut svc pendingJobs svc.renewalConcurrency.toNat
      pure (.ok ())

/-- Put failed jobs with attempts left back to pending; failures are only logged. -/
def retryFailedJobs : Service (Try Unit) := do
  match ← listJobsByStatus .failed with
  | .error err => raise (err.wrapped "failed to fetch failed jobs: ")
  | .ok failedJobs =>
    Prog.forEach failedJobs fun job =>
      if job.maxAttempts≤job.attempts then pure ()
      else do
        let _ ← updateJobStatus job.id .pending ""
        pure ()
    pure (.ok ())

/-- The error recorded with a job that waited too long, if it was waiting. -/
def timeoutMessage (svc : JobService) (csrTTL approvalTTL : Time) (status : JobStatus) : Option String :=
  match status with
  | .awaitingCSR => some ("timed out in "++status.text++" after "++svc.durationText csrTTL)
  | .awaitingApproval => some ("timed out in "++status.text++" after "++svc.durationText approvalTTL)
  | _ => none

/-- Fail the jobs that have waited too long, writing back the rows as they were read. -/
def reapTimedOutJobs (svc : JobService) (csrTTL approvalTTL : Time) : Service (Try Unit) := do
  let now ← timeNow
  match ← listTimedOutAwaitingJobs (now-csrTTL) (now-approvalTTL) with
  | .error err => raise (err.wrapped "failed to fetch timed-out jobs: ")
  | .ok timedOutJobs =>
    Prog.forEach timedOutJobs fun job =>
      match timeoutMessage svc csrTTL approvalTTL job.status with
      | none => pure ()
      | some errMsg => do
        let _ ← withinTx [.updateJob {job with status := .failed, lastError := some errMsg}]
        pure ()
    pure (.ok ())

/-- Fail the running jobs of agents that are silent, writing back the rows as they were read. -/
def reapJobsWithOfflineAgents (svc : JobService) (agentTTL : Time) : Service (Try Unit) :=
  if agentTTL≤0 then
    raise ⟨"ReapJobsWithOfflineAgents: agentTTL must be positive, got "++svc.durationText agentTTL,none⟩
  else do
    let now ← timeNow
    match ← listJobsWithOfflineAgents (now-agentTTL) with
    | .error err => raise (err.wrapped "list jobs with offline agents: ")
    | .ok staleJobs =>
      Prog.forEach staleJobs fun job => do
        let errMsg := "agent offline (no heartbeat for >"++svc.durationText agentTTL++")"
        let _ ← withinTx [.updateJob {job with status := .failed, lastError := some errMsg}]
        pure ()
      pure (.ok ())

/-- The owner of the certificate of a job may not approve it; what cannot be read does not stand in the way. -/
def checkNotSelf (svc : JobService) (job : Job) (actor : String) : Service (Try Unit) :=
  if actor="" ∨ !svc.certRepo ∨ !svc.ownerRepo ∨ job.certificateID="" then pure (.ok ())
  else do
    match ← getCertificate job.certificateID with
    | .error _ => pure (.ok ())
    | .ok cert =>
      if cert.ownerID="" then pure (.ok ())
      else
        match ← getOwner cert.ownerID with
        | .error _ => pure (.ok ())
        | .ok owner =>
          if svc.toLower owner.name=svc.toLower actor ∨ svc.toLower owner.email=svc.toLower actor then
            raise Sentinel.selfApproval.error
          else pure (.ok ())

def approveJob (svc : JobService) (id actor : String) : Service (Try Unit) := do
  match ← getJob id with
  | .error err => raise (err.wrapped "job not found: ")
  | .ok job =>
    if job.status≠.awaitingApproval then
      raise ⟨"cannot approve job with status "++job.status.text++" (must be AwaitingApproval)",none⟩
    else
      match ← checkNotSelf svc job actor with
      | .error err => raise err
      | .ok _ =>
        match ← updateJobStatus id .pending "" with
        | .error err => raise (err.wrapped "failed to approve job: ")
        | .ok _ => pure (.ok ())

/-- Cancel a job that waits for approval. -/
def rejectJob (id reason : String) : Service (Try Unit) := do
  match ← getJob id with
  | .error err => raise (err.wrapped "job not found: ")
  | .ok job =>
    if job.status≠.awaitingApproval then
      raise ⟨"cannot reject job with status "++job.status.text++" (must be AwaitingApproval)",none⟩
    else
      let errMsg := if reason="" then "rejected by user" else "rejected: "++reason
      match ← updateJobStatus id .cancelled errMsg with
      | .error err => raise (err.wrapped "failed to reject job: ")
      | .ok _ => pure (.ok ())

section Operations

/-- The operations that working on a claimed job may use, its log line apart. -/
structure JobOps (P : Op→Prop) (job : Job) : Prop where
  read : ∀ op,op.answersAtOnce=true → P op
  run : P (.withinTx [.updateJobStatus job.id .running ""])
  fail : ∀ errMsg,P (.withinTx [.updateJobStatus job.id .failed errMsg])
  renew : ∀ cert,WorkOps P job cert

variable {P : Op→Prop} {job : Job}

theorem JobOps.mono {Q : Op→Prop} (h : JobOps P job) (himp : ∀ op,P op → Q op) : JobOps Q job where
  read := fun op hop => himp op (h.read op hop)
  run := himp _ h.run
  fail := fun errMsg => himp _ (h.fail errMsg)
  renew := fun cert => (h.renew cert).mono himp

theorem uses_dispatchDeployment (h : JobOps P job) (cert : ManagedCertificate) (target : DeploymentTarget) :
    (dispatchDeployment job cert target).Uses P := by
  refine uses_request (h.read _ rfl) (onAnswer (fun agent => ?_) fun _ => uses_failJob (h.fail _) trivial)
  have hstale : (heartbeatStale agent).Uses P := by
    rw [heartbeatStale]
    split
    · trivial
    · exact uses_request (h.read _ rfl) fun _ => trivial
  have hnotify : ∀ reason err,((sendDeploymentNotification cert target reason).bind fun _ =>
      (raise err : Service (Try Unit))).Uses P :=
    fun reason err => uses_request (h.read _ rfl) fun _ => trivial
  dsimp only
  split
  · exact uses_failJob (h.fail _) (hnotify _ _)
  refine uses_bind hstale fun stale => ?_
  split
  · exact uses_failJob (h.fail _) (hnotify _ _)
  · trivial

theorem uses_processDeploymentJob (h : JobOps P job) : (processDeploymentJob job).Uses P := by
  refine uses_request h.run (onAnswer fun _ => ?_)
  refine uses_request (h.read _ rfl) (onAnswer (fun cert => ?_) fun _ => uses_failJob (h.fail _) trivial)
  dsimp only
  split
  · exact uses_failJob (h.fail _) trivial
  refine uses_request (h.read _ rfl) (onAnswer (fun target => ?_) fun _ => uses_failJob (h.fail _) trivial)
  exact uses_dispatchDeployment h cert target

theorem uses_processRenewalJob (svc : RenewalService) (h : JobOps P job) : (processRenewalJob svc job).Uses P := by
  refine uses_request h.run (onAnswer fun _ => ?_)
  refine uses_request (h.read _ rfl) (onAnswer (fun cert => ?_) fun _ => uses_failJob (h.fail _) trivial)
  exact uses_renewCertificateOf (h.renew cert)

theorem uses_processByType (svc : JobService) (h : JobOps P job) : (match job.type with
      | .renewal => processRenewalJob svc.renewalService job
      | .deployment => processDeploymentJob job
      | .issuance => processRenewalJob svc.renewalService job
      | .validation => raise ⟨"validation job processing not yet implemented",none⟩ :
      Service (Try Unit)).Uses P := by
  split
  · exact uses_processRenewalJob svc.renewalService h
  · exact uses_processDeploymentJob h
  · exact uses_processRenewalJob svc.renewalService h
  · trivial

theorem uses_work (svc : JobService) (hlog : P (.logProcessingJob job.id job.type job.certificateID))
    (h : JobOps P job) : (work svc job).Uses P := by
  have hprocess : (processJob svc job).Uses P := uses_request hlog fun _ => uses_processByType svc h
  exact uses_bind hprocess fun _ => trivial

variable {jobs : List Job}

theorem uses_processPendingJobsSequential (svc : JobService)
    (hwork : ∀ job∈jobs,shouldSkipJob job=false → (work svc job).Uses P) :
    (processPendingJobsSequential svc jobs).Uses P := by
  refine uses_forEach jobs fun job hjob => ?_
  split
  · trivial
  rename_i hskip
  exact hwork job hjob (Bool.eq_false_iff.mpr hskip)

theorem uses_dispatchJobs (svc : JobService) {sem : ℕ} (hacquire : P (.semAcquire sem))
    (hrelease : P (.semRelease sem)) (hturn : P .schedule)
    (hwork : ∀ job∈jobs,shouldSkipJob job=false → (work svc job).Uses P) : (dispatchJobs svc sem jobs).Uses P := by
  induction jobs with
  | nil => trivial
  | cons job rest ih =>
    have hrest := ih fun x hx => hwork x (List.mem_cons_of_mem _ hx)
    rw [dispatchJobs]
    split
    · exact hrest
    rename_i hskip
    refine uses_request hacquire (onAnswer fun _ => ?_)
    refine uses_fork hturn ?_ hrest
    refine uses_bind (hwork job List.mem_cons_self (Bool.eq_false_iff.mpr hskip)) fun _ => ?_
    exact ⟨hrelease,fun _ => trivial⟩

end Operations

end Certctl.JobProcessing
