import Certctl.ApprovalGate

/-!
# Runs of the services behind the two-person gate

Ten calls of three services read and write jobs and approval requests side
by side. Most of what they do brings no job to life. An approval does so
after it has been recorded, and the sweep over pending jobs only with jobs
that were let through before. The other two ways back to pending, the
release of a waiting job and the retry of failed ones, do not look at the
request; a condition on what they find makes the gate hold in every run.
-/

namespace Certctl.ApprovalGateRuns

open AtomicProgram Prog AtomicInterleaving RelyGuarantee ControlPlaneTables ControlPlaneStore DomainRecords Bool
open List
open RecordTable ApprovalRequests RenewalJobs RenewalTriggers JobProcessing ApprovalGate

/-- The services that write job statuses. -/
structure Services where
  certificates : CertificateService
  approvals : ApprovalService
  jobs : JobService

/-- The approval bypass is off wherever requests are made. -/
def Services.bypassDisabled (svcs : Services) : Bool :=
  !svcs.approvals.bypassEnabled && svcs.certificates.approvalSvc.all fun svc => !svc.bypassEnabled

/-- The calls that read and write jobs and approval requests. -/
inductive Call where
  | triggerRenewal (certID actor : String) (force : Bool)
  | requestApproval (cert : Option ManagedCertificate) (jobID profileID requestedBy : String)
  | approve (requestID decidedBy note : String)
  | reject (requestID decidedBy note : String)
  | expireStale (before : Time)
  | approveJob (id actor : String)
  | rejectJob (id reason : String)
  | reapTimedOutJobs (csrTTL approvalTTL : Time)
  | retryFailedJobs
  | processPendingJobs

def Services.program (svcs : Services) : Call→Service Unit
  | .triggerRenewal certID actor force => forEffect (triggerRenewal svcs.certificates certID actor force)
  | .requestApproval cert jobID profileID requestedBy =>
    forEffect (requestApproval svcs.approvals cert jobID profileID requestedBy)
  | .approve requestID decidedBy note => forEffect (approve svcs.approvals requestID decidedBy note)
  | .reject requestID decidedBy note => forEffect (reject requestID decidedBy note)
  | .expireStale before => forEffect (expireStale before)
  | .approveJob id actor => forEffect (approveJob svcs.jobs id actor)
  | .rejectJob id reason => forEffect (rejectJob id reason)
  | .reapTimedOutJobs csrTTL approvalTTL => forEffect (reapTimedOutJobs svcs.jobs csrTTL approvalTTL)
  | .retryFailedJobs => forEffect retryFailedJobs
  | .processPendingJobs => forEffect (processPendingJobs svcs.jobs)

variable {α : Type}

section Harmless

theorem read_harmless (op : Op) (hop : op.answersAtOnce=true) : harmless op := by
  cases op with
  | withinTx => cases hop
  | _ => trivial

theorem failing_harmless (job : Job) (errMsg : String) (a : α) :
    ((failJob job errMsg).bind fun _ => Prog.ret a).Uses harmless :=
  uses_failJob rfl trivial

theorem workOps_harmless (job : Job) (cert : ManagedCertificate) : WorkOps harmless job cert where
  read := read_harmless
  fail := fun _ => rfl
  complete := rfl
  await := rfl
  deploy := fun _ _ _ _ => trivial
  version := fun _ => rfl
  update := fun _ _ => rfl
  store := by
    intro version row _ write hwrite
    rcases mem_pair.mp hwrite with rfl|rfl <;> rfl

theorem dispatchDeployment_harmless (job : Job) (cert : ManagedCertificate) (target : DeploymentTarget) :
    (dispatchDeployment job cert target).Uses harmless := by
  have hstale : ∀ agent,(heartbeatStale agent).Uses harmless := by
    intro agent
    rw [heartbeatStale]
    split
    · trivial
    · exact ⟨trivial,fun _ => trivial⟩
  refine uses_request trivial (onAnswer (fun agent => ?_) fun _ => failing_harmless job _ _)
  dsimp only
  split
  · exact uses_failJob rfl ⟨trivial,fun _ => trivial⟩
  refine uses_bind (hstale agent) fun stale => ?_
  split
  · exact uses_failJob rfl ⟨trivial,fun _ => trivial⟩
  · trivial

theorem checkNotSelf_harmless (svc : JobService) (job : Job) (actor : String) :
    (checkNotSelf svc job actor).Uses harmless := by
  rw [checkNotSelf]
  split
  · trivial
  refine uses_request trivial (onAnswer fun cert => ?_)
  dsimp only
  split
  · trivial
  refine uses_request trivial (onAnswer fun _ => ?_)
  dsimp only
  split <;> trivial

theorem reject_harmless (requestID decidedBy note : String) : (reject requestID decidedBy note).Uses harmless := by
  refine uses_request trivial (onAnswer fun req => ?_)
  dsimp only
  split
  · trivial
  split
  · trivial
  refine uses_request trivial fun now => ?_
  refine uses_bind (uses_updateApprovalState read_harmless trivial) (onAnswer fun u => ?_)
  refine uses_request rfl (onAnswer fun _ => ?_)
  trivial

theorem expireStale_harmless (before : Time) : (expireStale before).Uses harmless := by
  refine uses_request trivial (onAnswer fun _ => ?_)
  dsimp only
  split
  · trivial
  refine uses_request trivial (onAnswer fun _ => ?_)
  refine uses_bind ?_ fun _ => trivial
  exact uses_forEach _ fun req _ => ⟨rfl,fun _ => trivial⟩

theorem rejectJob_harmless (id reason : String) : (rejectJob id reason).Uses harmless := by
  refine uses_request trivial (onAnswer fun _ => ?_)
  dsimp only
  split
  · trivial
  refine uses_request rfl (onAnswer fun _ => ?_)
  trivial

theorem reapTimedOutJobs_harmless (svc : JobService) (csrTTL approvalTTL : Time) :
    (reapTimedOutJobs svc csrTTL approvalTTL).Uses harmless := by
  refine uses_request trivial fun now => ?_
  refine uses_request trivial (onAnswer fun timedOutJobs => ?_)
  refine uses_bind (uses_forEach timedOutJobs fun job _ => ?_) fun _ => trivial
  split
  · trivial
  · exact ⟨rfl,fun _ => trivial⟩

/-- Without the bypass the start of a renewal brings no job to life but a new one. -/
theorem triggerRenewal_harmless {svc : CertificateService}
    (hbypass : ∀ approval,svc.approvalSvc=some approval → approval.bypassEnabled=false) (certID actor : String)
    (force : Bool) : (triggerRenewal svc certID actor force).Uses harmless := by
  have hgate : ∀ approval,svc.approvalSvc=some approval → ∀ cert job profileID,
      (gateJob approval cert job profileID actor).Uses harmless := by
    intro approval hsome cert job profileID
    refine uses_gateJob read_harmless (fun req hpending => hpending) (fun _ => rfl) fun hon => ?_
    rw [hbypass approval hsome] at hon
    cases hon
  have henqueue : ∀ cert,(enqueueRenewal svc cert actor).Uses harmless :=
    fun cert => uses_enqueueRenewal read_harmless (fun _ _ => trivial) fun approval hsome => hgate approval hsome cert
  refine uses_request trivial (onAnswer fun _ => ?_)
  dsimp only
  split
  · trivial
  refine uses_request rfl (onAnswer fun _ => ?_)
  dsimp only
  split
  · exact henqueue _
  · trivial

end Harmless

section Guarded

variable {ι : Type} {ok : Admits controlPlane ι} {t : ι} {w : CWorld ι} {waiting ids : List String}
  {reqs : List ApprovalRequest} {db : Db} {c : Choice}

/-- The invariant holds, these jobs are cleared and these requests are on record. -/
structure Knows (waiting ids : List String) (reqs : List ApprovalRequest) (w : CWorld ι) : Prop where
  inv : GateInv waiting w
  cleared : ∀ id∈ids,Cleared waiting w id
  onRecord : ∀ req∈reqs,OnRecord w req

theorem knows_stable (a b : CWorld ι) (h : Follows waiting a b) (ha : Knows waiting ids reqs a) : Knows waiting ids reqs b := by
  obtain ⟨hinv,hcleared,hrecord⟩ := h ha.inv
  exact ⟨hinv,fun id hid => hcleared id (ha.cleared id hid),fun req hreq => hrecord req (ha.onRecord req hreq)⟩

/-- Requests are inserted for jobs that have none. -/
def FirstOnly (ok : Admits controlPlane ι) : Prop := ∀ w op c,ok w op c → requestsFirst w.1 op=true

variable {p : Service α}

theorem guarded_harmless (hfirst : FirstOnly ok) (hp : p.Uses harmless)
    (hw : Knows waiting ids reqs w) : Guarded (Follows waiting) ok t (fun _ w' => Knows waiting ids reqs w') p w := by
  refine guarded_of_uses knows_stable ?_ hp hw
  intro op hop w' c r s hok hperform
  exact follows_harmless hop (hfirst w' op c hok) (effect_of_perform hperform)

theorem safe_harmless (hfirst : FirstOnly ok) (hp : p.Uses harmless) (hw : Knows waiting ids reqs w) : Safe (Follows waiting) ok t p w :=
  (guarded_harmless hfirst hp hw).mono fun _ _ _ => trivial

variable {Q : α→CWorld ι→Prop}

theorem guarded_learn (hfirst : FirstOnly ok) {op : Op} {k : Res op→Service α}
    (hop : harmless op) (hw : Knows waiting ids reqs w)
    (hk : ∀ w₀ c r s,Knows waiting ids reqs w₀ → ok w₀ op c → effect c w₀.1 op=(r,s) → Follows waiting w₀ (s,⟨t,op,r⟩::w₀.2) →
      Knows waiting ids reqs (s,⟨t,op,r⟩::w₀.2) → Guarded (Follows waiting) ok t Q (k r) (s,⟨t,op,r⟩::w₀.2)) :
    Guarded (Follows waiting) ok t Q ((request op).bind k) w := by
  refine guarded_call (Knows waiting ids reqs) knows_stable hw ?_
  intro w₀ c r s hw₀ hok hperform
  have heffect := effect_of_perform hperform
  have hstep : Follows waiting w₀ (s,⟨t,op,r⟩::w₀.2) := follows_harmless hop (hfirst w₀ op c hok) heffect
  exact ⟨hstep,hk w₀ c r s hw₀ hok heffect hstep (knows_stable _ _ hstep hw₀)⟩

variable {id errMsg : String} {status : JobStatus}

theorem follows_release {r : Try Unit} (hcleared : Cleared waiting w id)
    (h : effect c w.1 (.withinTx [.updateJobStatus id status errMsg])=(r,db)) :
    Follows waiting w (db,⟨t,.withinTx [.updateJobStatus id status errMsg],r⟩::w.2) := by
  rcases withinTx_one h with ⟨rfl,-,rfl⟩|⟨err,rfl,rfl⟩
  · refine follows_jobs (fun _ => rfl) rfl rfl (id_of_modified fun old => rfl) ?_
    intro hinv row hrow hlive
    by_cases hid : row.id=id
    · rw [hid]
      exact Or.inr hcleared
    · rw [if_neg hid] at hlive
      exact Or.inl hlive
  · exact follows_same gates_error rfl rfl

theorem guarded_release {k : Try Unit→Service α} (hid : id∈ids) (hw : Knows waiting ids reqs w)
    (hk : ∀ r w',Knows waiting ids reqs w' → Guarded (Follows waiting) ok t Q (k r) w') :
    Guarded (Follows waiting) ok t Q ((updateJobStatus id status errMsg).bind k) w := by
  refine guarded_call (Knows waiting ids reqs) knows_stable hw ?_
  intro w₀ c r s hw₀ _ hperform
  have hstep := follows_release (t := t) (hw₀.cleared id hid) (effect_of_perform hperform)
  exact ⟨hstep,hk r _ (knows_stable _ _ hstep hw₀)⟩

variable {job : Job}

theorem guarded_processRenewalJob (hfirst : FirstOnly ok) (svc : RenewalService) (hid : job.id∈ids)
    (hw : Knows waiting ids reqs w) :
    Guarded (Follows waiting) ok t (fun _ w' => Knows waiting ids reqs w') (processRenewalJob svc job) w := by
  refine guarded_release hid hw fun r w' hw' => guarded_harmless hfirst ?_ hw'
  cases r with
  | error => trivial
  | ok =>
    refine uses_request trivial (onAnswer (fun cert => ?_) fun _ => failing_harmless job _ _)
    exact uses_renewCertificateOf (workOps_harmless job cert)

theorem guarded_processDeploymentJob (hfirst : FirstOnly ok) (hid : job.id∈ids) (hw : Knows waiting ids reqs w) :
    Guarded (Follows waiting) ok t (fun _ w' => Knows waiting ids reqs w') (processDeploymentJob job) w := by
  refine guarded_release hid hw fun r w' hw' => guarded_harmless hfirst ?_ hw'
  cases r with
  | error => trivial
  | ok =>
    refine uses_request trivial (onAnswer (fun cert => ?_) fun _ => failing_harmless job _ _)
    dsimp only
    split
    · exact failing_harmless job _ _
    refine uses_request trivial (onAnswer (fun target => ?_) fun _ => failing_harmless job _ _)
    exact dispatchDeployment_harmless job cert target

theorem guarded_work (hfirst : FirstOnly ok) (svc : JobService) (hid : job.id∈ids)
    (hw : Knows waiting ids reqs w) : Guarded (Follows waiting) ok t (fun _ w' => Knows waiting ids reqs w') (work svc job) w := by
  have hprocess : Guarded (Follows waiting) ok t (fun _ w' => Knows waiting ids reqs w') (processJob svc job) w := by
    refine guarded_learn hfirst trivial hw ?_
    intro w₀ c r s _ _ _ _ hw₁
    split
    · exact guarded_processRenewalJob hfirst svc.renewalService hid hw₁
    · exact guarded_processDeploymentJob hfirst hid hw₁
    · exact guarded_processRenewalJob hfirst svc.renewalService hid hw₁
    · exact hw₁
  rw [work,bind_eq_bind,guarded_bind]
  exact hprocess

variable {jobs : List Job}

theorem cleared_of_claimed {jobType : Option JobType} {limit : ℤ} (hinv : GateInv waiting w)
    (h : effect c w.1 (.claimPendingJobs jobType limit)=(.ok jobs,db)) (hjob : job∈jobs) : Cleared waiting w job.id := by
  simp only [effect] at h
  have hrows := (fallible_ok h).2
  cases hrows
  obtain ⟨row,hrow,rfl⟩ := mem_map.mp hjob
  have hpending := mem_claimable hrow
  refine ⟨⟨row,hpending.1,rfl⟩,fun hgated => ?_⟩
  refine hinv.holds row hpending.1 hgated ?_
  rw [hpending.2]
  rfl

theorem safe_processPendingJobsSequential (hfirst : FirstOnly ok) (svc : JobService)
    (hjobs : ∀ job∈jobs,job.id∈ids) (hw : Knows waiting ids reqs w) :
    Guarded (Follows waiting) ok t (fun _ w' => Knows waiting ids reqs w') (processPendingJobsSequential svc jobs) w := by
  refine guarded_forEach jobs _ (fun job hjob w' hw' => ?_) hw
  split
  · exact hw'
  · exact guarded_work hfirst svc (hjobs job hjob) hw'

theorem safe_dispatchJobs (hfirst : FirstOnly ok) (svc : JobService) (sem : ℕ) (jobs : List Job)
    (hjobs : ∀ job∈jobs,job.id∈ids) (hw : Knows waiting ids reqs w) : Safe (Follows waiting) ok t (dispatchJobs svc sem jobs) w := by
  induction jobs generalizing w with
  | nil => trivial
  | cons job rest ih =>
    have hrest : ∀ x∈rest,x.id∈ids := fun x hx => hjobs x (mem_cons_of_mem _ hx)
    rw [dispatchJobs]
    split
    · exact ih hrest hw
    refine guarded_learn hfirst trivial hw ?_
    intro w₀ c r s _ _ _ _ hw₁
    cases r with
    | error => trivial
    | ok =>
      refine safe_fork ?_ ?_ (ih hrest hw₁)
      · intro w₂ c₂ r₂ s₂ hok₂ hperform₂
        have heffect₂ : effect c₂ w₂.1 .schedule=(r₂,s₂) := effect_of_perform hperform₂
        exact follows_harmless trivial rfl heffect₂
      · refine guarded_bind.mpr ?_
        refine (guarded_work hfirst svc (hjobs job mem_cons_self) hw₁).mono fun _ w₂ hw₂ => ?_
        exact safe_harmless hfirst ⟨trivial,fun _ => trivial⟩ hw₂

theorem safe_processPendingJobs (hfirst : FirstOnly ok) (svc : JobService) (hw : Knows waiting ids reqs w) :
    Safe (Follows waiting) ok t (processPendingJobs svc) w := by
  refine guarded_learn hfirst trivial hw ?_
  intro w₀ c r s hw₀ _ heffect hstep hw₁
  cases r with
  | error => trivial
  | ok jobs =>
    have hknows : Knows waiting (jobs.map (·.id)) reqs (s,⟨t,.claimPendingJobs none svc.claimLimit,.ok jobs⟩::w₀.2) := by
      refine ⟨hw₁.inv,fun id hid => ?_,hw₁.onRecord⟩
      obtain ⟨job,hjob,rfl⟩ := mem_map.mp hid
      exact (hstep hw₀.inv).2.1 job.id (cleared_of_claimed hw₀.inv heffect hjob)
    have hjobs : ∀ job∈jobs,job.id∈jobs.map (·.id) := fun job hjob => mem_map_of_mem hjob
    dsimp only
    split
    · trivial
    split
    · refine guarded_bind.mpr ?_
      exact (safe_processPendingJobsSequential hfirst svc hjobs hknows).mono fun _ _ _ => trivial
    refine guarded_bind.mpr ?_
    refine Guarded.mono (Q := fun _ _ => True) (fun _ _ _ => trivial) ?_
    refine guarded_learn hfirst trivial hknows ?_
    intro w₂ c₂ sem s₂ _ _ _ _ hw₃
    exact safe_dispatchJobs hfirst svc sem jobs hjobs hw₃

variable {row req : ApprovalRequest}

theorem same_of_onRecord (hinv : GateInv waiting w) (hrow : row∈w.1.approvals)
    (hrecord : OnRecord w req) (hid : row.id=req.id) : SameRequest row req := by
  obtain ⟨row',hrow',hsame⟩ := hrecord
  have heq : row=row' := inj_on_of_nodup_map hinv.requestKeys hrow hrow' (hid.trans hsame.id.symm)
  rw [heq]
  exact hsame

variable {decidedBy note : String} {decidedAt : Time}

theorem cleared_of_decided {jobID : String} {count : ℕ} (hinv : GateInv waiting w)
    (hrow : row∈w.1.approvals) (hid : row.id=id) (hpending : row.state=.pending)
    (hother : decidedBy≠row.requestedBy) (hfor : isFor jobID row=true)
    (h : effect c w.1 (.decideApproval id .approved decidedBy decidedAt note)=(.ok count,db)) :
    Cleared waiting (db,⟨t,.decideApproval id .approved decidedBy decidedAt note,.ok count⟩::w.2) jobID := by
  simp only [effect] at h
  have hout := (fallible_ok h).2
  cases hout
  have hdecided : decidedRequest .approved decidedBy decidedAt note row=
      {row with state := .approved, decidedBy := some decidedBy, decidedAt := some decidedAt,
                decisionNote := note} := by
    rw [decidedRequest,if_pos hpending]
  refine ⟨hinv.requestJobs jobID row hrow hfor,fun hgated => approved_iff.mpr ⟨?_,?_⟩⟩
  · refine ⟨decidedRequest .approved decidedBy decidedAt note row,?_,?_,?_⟩
    · refine mem_map.mpr ⟨row,hrow,?_⟩
      rw [if_pos hid]
    · rw [(decidedRequest_keeps _ _ _ _ row).isFor_eq]
      exact hfor
    · rw [hdecided,approvedByOther,and_eq_true,decide_eq_true_eq,decide_eq_true_eq]
      exact ⟨rfl,fun hsame => hother (Option.some.inj hsame)⟩
  intro req hreq hreqfor
  obtain ⟨old,hold,rfl⟩ := mem_map.mp hreq
  have hsame : old=row := by
    refine hinv.oneRequest jobID hgated old hold row hrow ?_ hfor
    split at hreqfor
    · rw [(decidedRequest_keeps _ _ _ _ old).isFor_eq] at hreqfor
      exact hreqfor
    · exact hreqfor
  rw [hsame,if_pos hid,hdecided]
  rfl

theorem guarded_updateApprovalState (hfirst : FirstOnly ok)
    (hother : decidedBy≠req.requestedBy) (hw : Knows waiting ids [req] w) :
    Guarded (Follows waiting) ok t (fun r w' => Knows waiting ids [req] w' ∧
        ∀ u jobID,r=Except.ok u → isFor jobID req=true → Cleared waiting w' jobID)
      (updateApprovalState req.id .approved decidedBy decidedAt note) w := by
  refine guarded_learn hfirst trivial hw ?_
  intro w₀ c r s hw₀ _ heffect _ hw₁
  cases r with
  | error => exact ⟨hw₁,fun u jobID hok => by cases hok⟩
  | ok rows =>
    dsimp only
    split
    · rename_i hrows
      refine ⟨hw₁,fun u jobID _ hfor => ?_⟩
      have hcount : rows=(w₀.1.approvals.filter fun row => row.id=req.id && row.state=.pending).length := by
        simp only [effect] at heffect
        have hout := (fallible_ok heffect).2
        cases hout
        rfl
      have hfound : (w₀.1.approvals.filter fun row => row.id=req.id && row.state=.pending)≠[] := by
        intro hnil
        rw [hcount,hnil] at hrows
        exact hrows rfl
      obtain ⟨row,hrow⟩ := exists_mem_of_ne_nil _ hfound
      rw [mem_filter,and_eq_true,decide_eq_true_eq,decide_eq_true_eq] at hrow
      obtain ⟨hmem,hid,hpending⟩ := hrow
      have hsame : SameRequest row req := same_of_onRecord hw₀.inv hmem (hw₀.onRecord req mem_cons_self) hid
      have hrowother : decidedBy≠row.requestedBy := by
        rw [hsame.requestedBy]
        exact hother
      rw [← hsame.isFor_eq] at hfor
      exact cleared_of_decided hw₀.inv hmem hid hpending hrowother hfor heffect
    · refine guarded_learn hfirst trivial hw₁ ?_
      intro w₂ c₂ r₂ s₂ _ _ _ _ hw₃
      cases r₂ with
      | error => exact ⟨hw₃,fun u jobID hok => by cases hok⟩
      | ok =>
        dsimp only
        split <;> exact ⟨hw₃,fun u jobID hok => by cases hok⟩

theorem safe_release (hfirst : FirstOnly ok) (svc : ApprovalService) (hw : Knows waiting ids reqs w)
    (hcleared : ∀ jobID,isFor jobID req=true → Cleared waiting w jobID) : Safe (Follows waiting) ok t (release svc req) w := by
  rw [release]
  split
  · refine safe_harmless hfirst ?_ hw
    split
    · trivial
    have happly : (applyProfileEdit svc req).Uses harmless := by
      rw [applyProfileEdit]
      split
      · trivial
      refine uses_request rfl (onAnswer fun _ => ?_)
      trivial
    refine uses_bind happly (onAnswer fun _ => ?_)
    trivial
  · rename_i hkind
    have hknows : Knows waiting [req.jobID] reqs w := by
      refine ⟨hw.inv,fun id hid => ?_,hw.onRecord⟩
      rw [mem_singleton.mp hid]
      refine hcleared req.jobID ?_
      rw [isFor,hkind,and_eq_true,decide_eq_true_eq,decide_eq_true_eq]
      exact ⟨rfl,rfl⟩
    refine guarded_release mem_cons_self hknows fun r w' _ => ?_
    cases r with
    | error | ok => trivial

theorem onRecord_of_getApproval {requestID : String}
    (h : effect c w.1 (.getApproval requestID)=(.ok req,db)) : OnRecord w req ∧ req.id=requestID := by
  obtain ⟨hmem,hid⟩ := lookup_some (readRow_ok h).1
  exact ⟨⟨req,hmem,⟨rfl,rfl,rfl,rfl⟩⟩,hid⟩

theorem safe_approve (hfirst : FirstOnly ok) (svc : ApprovalService) (requestID decidedBy note : String)
    (hw : Knows waiting ids [] w) : Safe (Follows waiting) ok t (approve svc requestID decidedBy note) w := by
  refine guarded_learn hfirst trivial hw ?_
  intro w₀ c r s hw₀ _ heffect hstep hw₁
  cases r with
  | error => trivial
  | ok req =>
    dsimp only
    split
    · trivial
    split
    · trivial
    rename_i hother
    obtain ⟨hrecord,hid⟩ := onRecord_of_getApproval heffect
    have hknows : Knows waiting ids [req] (s,⟨t,.getApproval requestID,.ok req⟩::w₀.2) := by
      exact ⟨hw₁.inv,hw₁.cleared,forall_mem_singleton.mpr ((hstep hw₀.inv).2.2 req hrecord)⟩
    refine guarded_learn hfirst trivial hknows ?_
    intro w₂ c₂ now s₂ _ _ _ _ hw₃
    refine guarded_learn hfirst trivial hw₃ ?_
    intro w₄ c₄ r₄ s₄ hw₄ _ heffect₄ hstep₄ hw₅
    cases r₄ with
    | error => trivial
    | ok again =>
      dsimp only
      split
      · trivial
      obtain ⟨hrecord₄,hid₄⟩ := onRecord_of_getApproval heffect₄
      have hsame : SameRequest again req := by
        obtain ⟨row,hrow,hrowsame⟩ := hrecord₄
        have hkey : row.id=req.id := hrowsame.id.trans (hid₄.trans hid.symm)
        have hrowreq := same_of_onRecord hw₄.inv hrow (hw₄.onRecord req mem_cons_self) hkey
        exact hrowsame.symm.trans hrowreq
      have hagain : decidedBy≠again.requestedBy := by
        rw [hsame.requestedBy]
        exact hother
      have hknows₅ : Knows waiting ids [again] (s₄,⟨t,.getApproval requestID,.ok again⟩::w₄.2) := by
        exact ⟨hw₅.inv,hw₅.cleared,forall_mem_singleton.mpr ((hstep₄ hw₄.inv).2.2 again hrecord₄)⟩
      subst hid₄
      refine guarded_bind.mpr ?_
      refine (guarded_updateApprovalState hfirst hagain hknows₅).mono fun decided w₆ hw₆ => ?_
      cases decided with
      | error => trivial
      | ok u => exact safe_release hfirst svc hw₆.1 fun jobID hfor => hw₆.2 u jobID rfl hfor

/-- The job is not gated, or it was approved. -/
def releasable (waiting : List String) (w : CWorld ι) (id : String) : Bool := !gated waiting w.2 id || approved w.1 id

theorem cleared_of_releasable {row : Job} (hrow : row∈w.1.jobs) (h : releasable waiting w row.id=true) : Cleared waiting w row.id := by
  refine ⟨⟨row,hrow,rfl⟩,fun hgated => ?_⟩
  rw [releasable,hgated] at h
  exact h

/-- A call for the release of a job finds no waiting one that may not be released. -/
def ReleasesApproved (waiting : List String) (ok : Admits controlPlane ι) : Prop :=
  ∀ w id c,ok w (.getJob id) c → ∀ row∈w.1.jobs,row.id=id → row.status=.awaitingApproval → releasable waiting w row.id=true

theorem safe_approveJob (hfirst : FirstOnly ok) (hrelease : ReleasesApproved waiting ok) (svc : JobService) (id actor : String)
    (hw : Knows waiting ids reqs w) : Safe (Follows waiting) ok t (approveJob svc id actor) w := by
  refine guarded_learn hfirst trivial hw ?_
  intro w₀ c r s hw₀ hok heffect hstep hw₁
  cases r with
  | error => trivial
  | ok job =>
    dsimp only
    split
    · trivial
    rename_i hwaiting
    obtain ⟨hmem,hid⟩ := lookup_some (readRow_ok heffect).1
    have hcleared : Cleared waiting w₀ job.id :=
      cleared_of_releasable hmem (hrelease w₀ id c hok job hmem hid (not_not.mp hwaiting))
    have hknows : Knows waiting [id] reqs (s,⟨t,.getJob id,.ok job⟩::w₀.2) := by
      refine ⟨hw₁.inv,fun x hx => ?_,hw₁.onRecord⟩
      rw [mem_singleton.mp hx,← hid]
      exact (hstep hw₀.inv).2.1 job.id hcleared
    refine guarded_bind.mpr ?_
    refine (guarded_harmless hfirst (checkNotSelf_harmless svc job actor) hknows).mono fun checked w₂ hw₂ => ?_
    cases checked with
    | error => trivial
    | ok u =>
      refine guarded_release mem_cons_self hw₂ fun r w₃ _ => ?_
      cases r with
      | error | ok => trivial

/-- A sweep over the jobs of a status finds none with attempts left that may not be released. -/
def RetriesApproved (waiting : List String) (ok : Admits controlPlane ι) : Prop :=
  ∀ w status c,ok w (.listJobsByStatus status) c →
    ∀ row∈w.1.jobs,row.status=status → row.attempts<row.maxAttempts → releasable waiting w row.id=true

theorem safe_retryFailedJobs (hfirst : FirstOnly ok) (hretry : RetriesApproved waiting ok) (hw : Knows waiting ids reqs w) :
    Safe (Follows waiting) ok t retryFailedJobs w := by
  refine guarded_learn hfirst trivial hw ?_
  intro w₀ c r s hw₀ hok heffect hstep hw₁
  cases r with
  | error => trivial
  | ok jobs =>
    have hrows : jobs=orderBy c (fun job => -job.createdAt) (w₀.1.jobs.filter (·.status=.failed)) :=
      (answer_ok heffect).1
    have hknows : Knows waiting ((jobs.filter fun job => job.attempts<job.maxAttempts).map (·.id)) reqs
        (s,⟨t,.listJobsByStatus .failed,.ok jobs⟩::w₀.2) := by
      refine ⟨hw₁.inv,fun id hid => ?_,hw₁.onRecord⟩
      obtain ⟨job,hjob,rfl⟩ := mem_map.mp hid
      obtain ⟨hmem,hleft⟩ := mem_filter.mp hjob
      rw [hrows,mem_orderBy,mem_filter,decide_eq_true_eq] at hmem
      have hmay := hretry w₀ .failed c hok job hmem.1 hmem.2 (of_decide_eq_true hleft)
      exact (hstep hw₀.inv).2.1 job.id (cleared_of_releasable hmem.1 hmay)
    refine guarded_bind.mpr ?_
    refine Guarded.mono (fun _ _ _ => trivial) (guarded_forEach jobs _ (fun job hjob w' hw' => ?_) hknows)
    split
    · exact hw'
    rename_i hleft
    have hmem : job.id∈(jobs.filter fun job => job.attempts<job.maxAttempts).map (·.id) :=
      mem_map_of_mem (mem_filter.mpr ⟨hjob,decide_eq_true (not_le.mp hleft)⟩)
    exact guarded_release hmem hw' fun r w'' hw'' => hw''

end Guarded

/-- The condition on the operations of a call: requests are inserted for jobs that have
none, and a release or a retry finds no job of its kind that is gated and not approved. -/
def gateKept {ι : Type} (waiting : List String) (call : Call) (w : CWorld ι) (op : Op) : Bool :=
  requestsFirst w.1 op &&
    match call,op with
    | .approveJob _ _,.getJob id =>
      w.1.jobs.all fun row => row.id≠id || row.status≠.awaitingApproval || releasable waiting w row.id
    | .retryFailedJobs,.listJobsByStatus status =>
      w.1.jobs.all fun row => row.status≠status || row.maxAttempts≤row.attempts || releasable waiting w row.id
    | _,_ => true

def gateStep {ι : Type} (waiting : List String) (calls : ι→Call) : StepCondition controlPlane ι Unit :=
  fun cfg t op _ => gateKept waiting (calls t) (worldOf cfg) op=true

/-- The rows a run starts from: keys are unique, requests refer to jobs, and a job that waits has at most one. -/
structure WellKept (db : Db) : Prop where
  jobKeys : (db.jobs.map (·.id)).Nodup
  requestKeys : (db.approvals.map (·.id)).Nodup
  requestJobs : ∀ req∈db.approvals,req.kind=.certIssuance → ∃ row∈db.jobs,row.id=req.jobID
  oneRequest : ∀ row∈db.jobs,row.status=.awaitingApproval → ∀ a∈db.approvals,∀ b∈db.approvals,
    isFor row.id a=true → isFor row.id b=true → a=b

/-- The jobs that wait for approval at the start. -/
def waitingJobs (db : Db) : List String := (db.jobs.filter (·.status=.awaitingApproval)).map (·.id)

variable {ι : Type}

theorem waiting_of_gated {db : Db} {id : String} (h : gated (ι := ι) (waitingJobs db) [] id=true) :
    ∃ row∈db.jobs,row.status=.awaitingApproval ∧ row.id=id := by
  rw [gated,any_nil,Bool.or_false,contains_iff_mem] at h
  obtain ⟨row,hrow,hid⟩ := mem_map.mp h
  obtain ⟨hmem,hwaiting⟩ := mem_filter.mp hrow
  exact ⟨row,hmem,of_decide_eq_true hwaiting,hid⟩

theorem gateInv_initial {db : Db} (h : WellKept db) : GateInv (waitingJobs db) ((db,[]) : CWorld ι) where
  requestKeys := h.requestKeys
  requestJobs := by
    intro id req hreq hfor
    rw [isFor,and_eq_true,decide_eq_true_eq,decide_eq_true_eq] at hfor
    rw [← hfor.2]
    exact h.requestJobs req hreq hfor.1
  gatedJobs := by
    intro id hgated
    obtain ⟨row,hrow,-,hid⟩ := waiting_of_gated hgated
    exact ⟨row,hrow,hid⟩
  oneRequest := by
    intro id hgated
    obtain ⟨row,hrow,hwaiting,rfl⟩ := waiting_of_gated hgated
    exact h.oneRequest row hrow hwaiting
  holds := by
    intro row hrow hgated hlive
    obtain ⟨row',hrow',hwaiting,hid⟩ := waiting_of_gated hgated
    rw [← inj_on_of_nodup_map h.jobKeys hrow' hrow hid,hwaiting] at hlive
    cases hlive

theorem safe_program {svcs : Services} (hbypass : svcs.bypassDisabled=true) {t : ι} {waiting : List String}
    (call : Call) {w : CWorld ι} (hw : Knows waiting [] [] w) :
    Safe (Follows waiting) (fun w op _ => gateKept waiting call w op=true) t (svcs.program call) w := by
  have hfirst : FirstOnly (fun (w : CWorld ι) op _ => gateKept waiting call w op=true) :=
    fun w op c hok => (and_eq_true_iff.mp hok).1
  rw [Services.bypassDisabled,and_eq_true,not_eq_true'] at hbypass
  have hwired : ∀ approval,svcs.certificates.approvalSvc=some approval → approval.bypassEnabled=false := by
    intro approval hsome
    have hoff := hbypass.2
    rw [hsome,Option.all_some,not_eq_true'] at hoff
    exact hoff
  have hquiet : ∀ {α : Type} {p : Service α},p.Uses harmless →
      Safe (Follows waiting) (fun w op _ => gateKept waiting call w op=true) t (forEffect p) w :=
    fun hp => safe_harmless hfirst (uses_forEffect hp) hw
  have hloud : ∀ {α : Type} {p : Service α},Safe (Follows waiting) (fun w op _ => gateKept waiting call w op=true) t p w →
      Safe (Follows waiting) (fun w op _ => gateKept waiting call w op=true) t (forEffect p) w :=
    fun hp => guarded_bind.mpr (Guarded.mono (fun _ _ _ => trivial) hp)
  cases call with
  | triggerRenewal certID actor force => exact hquiet (triggerRenewal_harmless hwired certID actor force)
  | requestApproval cert jobID profileID requestedBy =>
    refine hquiet (uses_requestApproval read_harmless (fun req hpending => hpending) fun hon => ?_)
    rw [hbypass.1] at hon
    cases hon
  | approve requestID decidedBy note => exact hloud (safe_approve hfirst svcs.approvals requestID decidedBy note hw)
  | reject requestID decidedBy note => exact hquiet (reject_harmless requestID decidedBy note)
  | expireStale before => exact hquiet (expireStale_harmless before)
  | approveJob id actor =>
    refine hloud (safe_approveJob hfirst ?_ svcs.jobs id actor hw)
    intro w' key c hok row hrow hid hwaiting
    have hall := all_eq_true.mp (and_eq_true_iff.mp hok).2 row hrow
    simpa [hid,hwaiting] using hall
  | rejectJob id reason => exact hquiet (rejectJob_harmless id reason)
  | reapTimedOutJobs csrTTL approvalTTL => exact hquiet (reapTimedOutJobs_harmless svcs.jobs csrTTL approvalTTL)
  | retryFailedJobs =>
    refine hloud (safe_retryFailedJobs hfirst ?_ hw)
    intro w' status c hok row hrow hstatus hleft
    have hall := all_eq_true.mp (and_eq_true_iff.mp hok).2 row hrow
    simpa [hstatus,not_le.mpr hleft] using hall
  | processPendingJobs => exact hloud (safe_processPendingJobs hfirst svcs.jobs hw)

/-- With the bypass off, in every run of any number of calls that meets the condition, no job that waits for
approval at the start or is inserted so is pending or running unless its request was approved by someone
other than the requester, and not rejected or expired. -/
theorem approvalGate_holds {ι : Type} [DecidableEq ι] {svcs : Services} (hbypass : svcs.bypassDisabled=true)
    {db : Db} (hdb : WellKept db) (calls : ι→Call) {cfg : Config controlPlane ι Unit}
    (hreach : Reach (gateStep (waitingJobs db) calls) (initial (fun t => svcs.program (calls t)) db) cfg) :
    GateHolds (waitingJobs db) (worldOf cfg) := by
  have hstart : Knows (waitingJobs db) [] [] ((db,[]) : CWorld ι) :=
    ⟨gateInv_initial hdb,forall_mem_nil _,forall_mem_nil _⟩
  have hrun := reach_guarded (R := Follows (waitingJobs db)) (fun t => safe_program hbypass (calls t) hstart) hreach
  exact (kept_of_rely knows_stable hrun hstart).inv.holds

instance {ι : Type} (waiting : List String) (calls : ι→Call) (cfg : Config controlPlane ι Unit) (t : ι) (op : Op)
    (c : Choice) : Decidable (gateStep waiting calls cfg t op c) :=
  inferInstanceAs (Decidable (gateKept waiting (calls t) (worldOf cfg) op=true))

section Samples

def sampleServices : Services where
  certificates := {approvalSvc := some {decodeProfile := fun _ => .error ⟨"",none⟩}}
  approvals := {decodeProfile := fun _ => .error ⟨"",none⟩}
  jobs := {
    renewalService := {computeCertFingerprint := id, validateCSRAgainstProfile := fun _ _ => .ok ()},
    toLower := id, durationText := fun _ => ""}

/-- The certificate of a job that waits for approval, as the demonstration data have one. -/
def sampleCertificate : ManagedCertificate where
  id := "mc-auth-prod"
  issuerID := "iss-local"
  certificateProfileID := "prof-1"
  status := .active
  expiresAt := 2000000000*second

def sampleDb : Db where
  certs := [sampleCertificate]
  profiles := [{id := "prof-1", requiresApproval := true}]
  issuers := ["iss-local"]
  jobs := [{
    id := "job-approval-01", type := .renewal, certificateID := "mc-auth-prod", status := .awaitingApproval,
    maxAttempts := 3 }]

theorem sampleDb_wellKept : WellKept sampleDb where
  jobKeys := nodup_singleton _
  requestKeys := nodup_nil
  requestJobs := forall_mem_nil _
  oneRequest := fun _ _ _ => forall_mem_nil _

/-- Somebody asks for the approval of the job, and another person approves it. -/
def sampleCalls : Bool→Call
  | true => .requestApproval (some sampleCertificate) "job-approval-01" "prof-1" "alice"
  | false => .approve "ar-1" "bob" ""

/-- Some gated job is pending or running, and some such job was not approved. -/
def gateView {ι : Type} (cfg : Config controlPlane ι Unit) : Bool×Bool :=
  (cfg.state.jobs.any fun row => gated (waitingJobs sampleDb) cfg.log row.id && live row.status,
    cfg.state.jobs.any fun row =>
      gated (waitingJobs sampleDb) cfg.log row.id && live row.status && !approved cfg.state row.id)

/-- The job waits for approval, and becomes pending once the other person has approved it. -/
theorem approvalGate_holds_sample : ∃ cfg,Reach (gateStep (waitingJobs sampleDb) sampleCalls)
      (initial (fun t => sampleServices.program (sampleCalls t)) sampleDb) cfg ∧
    (∃ row∈cfg.state.jobs,gated (waitingJobs sampleDb) cfg.log row.id=true ∧ live row.status=true) ∧
    GateHolds (waitingJobs sampleDb) (worldOf cfg) := by
  refine reaches_view (List.replicate 3 (true,{fresh := "1"})++List.replicate 5 (false,noFault)) gateView (true,false)
    (by decide) fun cfg hreach hview => ?_
  obtain ⟨row,hrow,hlive⟩ := any_eq_true.mp (congrArg Prod.fst hview)
  rw [and_eq_true] at hlive
  exact ⟨⟨row,hrow,hlive⟩,approvalGate_holds rfl sampleDb_wellKept sampleCalls hreach⟩

/-- The sweep over jobs that waited too long, and the retry of failed ones. -/
def reapedCalls : Bool→Call
  | true => .reapTimedOutJobs (24*3600*second) (168*3600*second)
  | false => .retryFailedJobs

/-- A job that waits and that nobody has approved is failed by one sweep and made pending by the next. -/
theorem approvalGate_broken :
    sampleServices.bypassDisabled=true ∧ WellKept sampleDb ∧ sampleDb.readsApprovalFlag=false ∧
    ∃ cfg,Reach anyStep (initial (fun t => sampleServices.program (reapedCalls t)) sampleDb) cfg ∧
      ¬GateHolds (waitingJobs sampleDb) (worldOf cfg) := by
  refine ⟨rfl,sampleDb_wellKept,rfl,?_⟩
  refine reaches_view (List.replicate 3 (true,{now := 1})++List.replicate 2 (false,noFault)) gateView (true,true)
    (by decide) fun cfg _ hview hholds => ?_
  obtain ⟨row,hrow,hbad⟩ := any_eq_true.mp (congrArg Prod.snd hview)
  rw [and_eq_true,and_eq_true,not_eq_true'] at hbad
  have happroved := hholds row hrow hbad.1.1 hbad.1.2
  have hnot : approved cfg.state row.id=false := hbad.2
  exact false_ne_true (hnot.symm.trans happroved)

end Samples

end Certctl.ApprovalGateRuns
