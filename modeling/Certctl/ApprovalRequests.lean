import Certctl.ControlPlaneStore

/-!
# The approval service

Requests to approve a gated job or a profile edit, and the decisions on
them, operation by operation. A decision first changes the state of the
request, and only if it is still pending; then it changes the status of the
job, whatever that is. The sweep over old requests reads a page of pending
ones, expires all that are old enough and cancels the jobs of those read.
-/

namespace Certctl.ApprovalRequests

open AtomicProgram ControlPlaneStore DomainRecords

/-- The approval service as configured. -/
structure ApprovalService where
  /-- Every request is approved at once. -/
  bypassEnabled : Bool := false
  profileEditApply : Bool := true
  decodeProfile : String→Try CertificateProfile

/-- Insert a request under a generated identifier, which is returned. -/
def createApproval (req : ApprovalRequest) : Service (Try String) := do
  let uuid ← newUUID
  match ← withinTx [.createApproval {req with id := "ar-"++uuid}] with
  | .error err => raise err
  | .ok _ => pure (.ok ("ar-"++uuid))

/-- Move a pending request to a terminal state; a request that was not there or
not pending is read again to tell the two apart. -/
def updateApprovalState (id : String) (state : ApprovalState) (decidedBy : String) (decidedAt : Time)
    (note : String) : Service (Try Unit) :=
  if !state.isTerminal then
    raise ⟨"UpdateState only accepts terminal states; got \"pending\"",none⟩
  else do
    match ← decideApproval id state decidedBy decidedAt note with
    | .error err => raise err
    | .ok rows =>
      if rows≠0 then pure (.ok ())
      else
        match ← getApproval id with
        | .error err => raise err
        | .ok existing =>
          if existing.state.isTerminal then raise Sentinel.alreadyExists.error
          else raise Sentinel.notFound.error

/-- The error of a failed read of a request. -/
def lookupError (front : String) (err : GoError) : GoError :=
  if err.is .notFound then Sentinel.approvalNotFound.error else err.wrapped front

def decisionError (front : String) (err : GoError) : GoError :=
  if err.is .notFound then Sentinel.approvalNotFound.error
  else if err.is .alreadyExists then Sentinel.approvalAlreadyDecided.error
  else err.wrapped front

def applyProfileEdit (svc : ApprovalService) (req : ApprovalRequest) : Service (Try Unit) :=
  match svc.decodeProfile req.payload with
  | .error err => raise (err.wrapped "decode profile-edit payload: ")
  | .ok profile => do
    match ← withinTx [.updateProfile {profile with id := req.profileID}] with
    | .error err => raise (err.wrapped "apply profile-edit diff: ")
    | .ok _ => pure (.ok ())

def release (svc : ApprovalService) (req : ApprovalRequest) : Service (Try Unit) :=
  match req.kind with
  | .profileEdit =>
    if !svc.profileEditApply then
      raise ⟨"approval: profile-edit apply callback not registered",none⟩
    else do
      match ← applyProfileEdit svc req with
      | .error err => raise (err.wrapped "approval: apply profile edit: ")
      | .ok _ => pure (.ok ())
  | .certIssuance => do
    match ← updateJobStatus req.jobID .pending "" with
    | .error err => raise (err.wrapped "approval: transition job to Pending: ")
    | .ok _ => pure (.ok ())

def approveInternal (svc : ApprovalService) (requestID decidedBy note : String) : Service (Try Unit) := do
  let now ← timeNow
  match ← getApproval requestID with
  | .error err => raise (lookupError "approval: get for transition: " err)
  | .ok req =>
    if req.state.isTerminal then raise Sentinel.approvalAlreadyDecided.error
    else
      match ← updateApprovalState requestID .approved decidedBy now note with
      | .error err => raise (decisionError "approval: update state to approved: " err)
      | .ok _ => release svc req

/-- Ask for the approval of a gated job. -/
def requestApproval (svc : ApprovalService) (cert : Option ManagedCertificate)
    (jobID profileID requestedBy : String) : Service (Try String) :=
  match cert with
  | none => raise ⟨"approval: nil certificate",none⟩
  | some cert =>
    if jobID="" ∨ profileID="" ∨ requestedBy="" then
      raise ⟨"approval: jobID, profileID, requestedBy required",none⟩
    else do
      let now ← timeNow
      let req : ApprovalRequest := {
        id := "", certificateID := cert.id, jobID := jobID, profileID := profileID,
        requestedBy := requestedBy, createdAt := now }
      match ← createApproval req with
      | .error err => raise (err.wrapped "approval: create request: ")
      | .ok id =>
        if svc.bypassEnabled then
          match ← approveInternal svc id "system-bypass" "auto-approved by CERTCTL_APPROVAL_BYPASS — dev/CI mode" with
          | .error err => raise (err.wrapped "approval: bypass auto-approve: ")
          | .ok _ => pure (.ok id)
        else pure (.ok id)

def approve (svc : ApprovalService) (requestID decidedBy note : String) : Service (Try Unit) := do
  match ← getApproval requestID with
  | .error err => raise (lookupError "approval: get for approve: " err)
  | .ok req =>
    if req.state.isTerminal then raise Sentinel.approvalAlreadyDecided.error
    else if decidedBy=req.requestedBy then raise Sentinel.approveBySameActor.error
    else approveInternal svc requestID decidedBy note

def reject (requestID decidedBy note : String) : Service (Try Unit) := do
  match ← getApproval requestID with
  | .error err => raise (lookupError "approval: get for reject: " err)
  | .ok req =>
    if req.state.isTerminal then raise Sentinel.approvalAlreadyDecided.error
    else if decidedBy=req.requestedBy then raise Sentinel.approveBySameActor.error
    else
      let now ← timeNow
      match ← updateApprovalState requestID .rejected decidedBy now note with
      | .error err => raise (decisionError "approval: update state to rejected: " err)
      | .ok _ =>
        match ← updateJobStatus req.jobID .cancelled ("approval rejected: "++note) with
        | .error err => raise (err.wrapped "approval: transition job to Cancelled: ")
        | .ok _ => pure (.ok ())

def cancelJobs (stale : List ApprovalRequest) : Service Unit :=
  Prog.forEach stale fun req => do
    let _ ← updateJobStatus req.jobID .cancelled "approval expired: timed out without review"
    pure ()

/-- Expire the requests that were not decided in time, and count them. -/
def expireStale (before : Time) : Service (Try ℕ) := do
  match ← listApprovals .pending 500 with
  | .error err => raise (err.wrapped "approval: list pending for expiry: ")
  | .ok pending =>
    let stale := pending.filter (·.createdAt≤before)
    if stale.isEmpty then pure (.ok 0)
    else
      match ← expireStaleApprovals before with
      | .error err => raise (err.wrapped "approval: bulk expire: ")
      | .ok count =>
        cancelJobs stale
        pure (.ok count)

section Operations

variable {P : Op→Prop} {svc : ApprovalService} {decidedBy note : String}

theorem uses_updateApprovalState {id : String} {state : ApprovalState} {decidedAt : Time}
    (hread : ∀ op,op.answersAtOnce=true → P op) (hdecide : P (.decideApproval id state decidedBy decidedAt note)) :
    (updateApprovalState id state decidedBy decidedAt note).Uses P := by
  rw [updateApprovalState]
  split
  · trivial
  refine uses_request hdecide (onAnswer fun _ => ?_)
  dsimp only
  split
  · trivial
  refine uses_request (hread _ rfl) (onAnswer fun _ => ?_)
  dsimp only
  split <;> trivial

theorem uses_release {req : ApprovalRequest} (hprofile : ∀ profile,P (.withinTx [.updateProfile profile]))
    (hjob : req.kind=.certIssuance → P (.withinTx [.updateJobStatus req.jobID .pending ""])) :
    (release svc req).Uses P := by
  rw [release]
  split
  · split
    · trivial
    have happly : (applyProfileEdit svc req).Uses P := by
      rw [applyProfileEdit]
      split
      · trivial
      refine uses_request (hprofile _) (onAnswer fun _ => ?_)
      trivial
    refine Prog.uses_bind happly (onAnswer fun _ => ?_)
    trivial
  · rename_i hkind
    refine uses_request (hjob hkind) (onAnswer fun _ => ?_)
    trivial

theorem uses_approveInternal {requestID : String} (hread : ∀ op,op.answersAtOnce=true → P op)
    (hdecide : ∀ id state decidedBy decidedAt note,P (.decideApproval id state decidedBy decidedAt note))
    (hprofile : ∀ profile,P (.withinTx [.updateProfile profile]))
    (hjob : ∀ jobID,P (.withinTx [.updateJobStatus jobID .pending ""])) :
    (approveInternal svc requestID decidedBy note).Uses P := by
  refine uses_request (hread _ rfl) fun now => ?_
  refine uses_request (hread _ rfl) (onAnswer fun req => ?_)
  dsimp only
  split
  · trivial
  refine Prog.uses_bind (uses_updateApprovalState hread (hdecide _ _ _ _ _)) (onAnswer fun _ => ?_)
  exact uses_release hprofile fun _ => hjob req.jobID

theorem uses_requestApproval {cert : Option ManagedCertificate} {jobID profileID requestedBy : String}
    (hread : ∀ op,op.answersAtOnce=true → P op)
    (hcreate : ∀ req : ApprovalRequest,req.state=.pending → P (.withinTx [.createApproval req]))
    (hbypass : svc.bypassEnabled=true → ∀ id decidedBy note,(approveInternal svc id decidedBy note).Uses P) :
    (requestApproval svc cert jobID profileID requestedBy).Uses P := by
  cases cert with
  | none => trivial
  | some =>
    rw [requestApproval]
    split
    · trivial
    refine uses_request (hread _ rfl) fun now => ?_
    have hinsert : ∀ req : ApprovalRequest,req.state=.pending → (createApproval req).Uses P := by
      intro req hpending
      refine uses_request (hread _ rfl) fun uuid => ?_
      refine uses_request (hcreate _ hpending) (onAnswer fun _ => ?_)
      trivial
    refine Prog.uses_bind (hinsert _ rfl) (onAnswer fun _ => ?_)
    dsimp only
    split
    · rename_i hon
      refine Prog.uses_bind (hbypass hon _ _ _) (onAnswer fun _ => ?_)
      trivial
    · trivial

end Operations

end Certctl.ApprovalRequests
