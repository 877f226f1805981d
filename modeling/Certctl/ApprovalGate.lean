import Certctl.RelyGuarantee
import Certctl.JobProcessing
import Certctl.RenewalTriggers

/-!
# The two-person gate on jobs

A job that waits for approval at the start of a run, or is inserted so, is
gated. What it takes to let it run is recorded in the requests table, and every decision there is
final; the statuses in the jobs table are set by six services that do not
look. One relation between worlds says what a single operation may change
so that no gated job is pending or running unless its request was approved
by someone other than the requester, and each write is checked against it.
-/

namespace Certctl.ApprovalGate

open AtomicInterleaving RelyGuarantee ControlPlaneTables ControlPlaneStore DomainRecords
open List
open RecordTable

variable {ι : Type} {a b req : ApprovalRequest} {f : Job→Job} {id decidedBy note : String} {write : Write}
  {writes : List Write} {state : ApprovalState} {decidedAt : Time}

/-- A world of the control plane. -/
abbrev CWorld (ι : Type) := World controlPlane ι

/-- The write inserts the job as waiting for approval. -/
def createsGated (id : String) : Write→Bool
  | .createJob job => job.id=id && job.status=.awaitingApproval
  | _ => false

/-- The recorded operation inserted the job as waiting for approval. -/
def gates (id : String) : Event controlPlane ι→Bool
  | ⟨_,.withinTx writes,.ok _⟩ => writes.any (createsGated id)
  | _ => false

/-- The job was waiting for approval at the start, or was inserted so since. -/
def gated (waiting : List String) (log : Log controlPlane ι) (id : String) : Bool :=
  waiting.contains id || log.any (gates id)

/-- A job in this status is about to be worked on, or is being worked on. -/
def live (status : JobStatus) : Bool := status=.pending || status=.running

def approvedByOther (req : ApprovalRequest) : Bool := req.state=.approved && req.decidedBy≠some req.requestedBy

def refused (req : ApprovalRequest) : Bool := req.state=.rejected || req.state=.expired

def isFor (id : String) (req : ApprovalRequest) : Bool := req.kind=.certIssuance && req.jobID=id

/-- A request for the job was approved by another person, and none was rejected or has expired. -/
def approved (db : Db) (id : String) : Bool :=
  (db.approvals.any fun req => isFor id req && approvedByOther req) &&
    db.approvals.all fun req => !isFor id req || !refused req

/-- No gated job is pending or running unless it was approved. -/
def GateHolds (waiting : List String) (w : CWorld ι) : Prop :=
  ∀ row∈w.1.jobs,gated waiting w.2 row.id=true → live row.status=true → approved w.1 row.id=true

/-- The job exists, and if it is gated it was approved. -/
def Cleared (waiting : List String) (w : CWorld ι) (id : String) : Prop :=
  (∃ row∈w.1.jobs,row.id=id) ∧ (gated waiting w.2 id=true → approved w.1 id=true)

/-- What holds in every world of a run: the keys of requests are unique, requests
refer to jobs, gated jobs exist and have one request each, and the gate holds. -/
structure GateInv (waiting : List String) (w : CWorld ι) : Prop where
  requestKeys : (w.1.approvals.map (·.id)).Nodup
  requestJobs : ∀ id,∀ req∈w.1.approvals,isFor id req=true → ∃ row∈w.1.jobs,row.id=id
  gatedJobs : ∀ id,gated waiting w.2 id=true → ∃ row∈w.1.jobs,row.id=id
  oneRequest : ∀ id,gated waiting w.2 id=true → ∀ a∈w.1.approvals,∀ b∈w.1.approvals,isFor id a=true → isFor id b=true → a=b
  holds : GateHolds waiting w

/-- The columns that no decision changes agree. -/
structure SameRequest (a b : ApprovalRequest) : Prop where
  id : a.id=b.id
  kind : a.kind=b.kind
  jobID : a.jobID=b.jobID
  requestedBy : a.requestedBy=b.requestedBy

theorem SameRequest.isFor_eq (h : SameRequest a b) (id : String) : isFor id a=isFor id b := by
  rw [isFor,h.kind,h.jobID,isFor]

theorem SameRequest.symm (h : SameRequest a b) : SameRequest b a :=
  ⟨h.id.symm,h.kind.symm,h.jobID.symm,h.requestedBy.symm⟩

theorem SameRequest.trans {c : ApprovalRequest} (h : SameRequest a b) (h' : SameRequest b c) : SameRequest a c :=
  ⟨h.id.trans h'.id,h.kind.trans h'.kind,h.jobID.trans h'.jobID,h.requestedBy.trans h'.requestedBy⟩

def OnRecord (w : CWorld ι) (req : ApprovalRequest) : Prop := ∃ row∈w.1.approvals,SameRequest row req

/-- What a run of operations may change: the invariant stays, cleared jobs stay
cleared and requests on record stay on record. -/
def Follows (waiting : List String) (w w' : CWorld ι) : Prop :=
  GateInv waiting w → GateInv waiting w' ∧ (∀ id,Cleared waiting w id → Cleared waiting w' id) ∧ ∀ req,OnRecord w req → OnRecord w' req

section Steps

variable {waiting : List String} {w : CWorld ι} {db : Db} {e : Event controlPlane ι}

theorem gated_cons_of_not (he : ∀ id,gates id e=false) (id : String) : gated waiting (e::w.2) id=gated waiting w.2 id := by
  rw [gated,any_cons,he,Bool.false_or,gated]

theorem approved_congr (h : db.approvals=w.1.approvals) (id : String) : approved db id=approved w.1 id := by
  rw [approved,h,approved]

theorem follows_rows (happrovals : db.approvals=w.1.approvals)
    (hkept : ∀ id,(∃ row∈w.1.jobs,row.id=id) → ∃ row∈db.jobs,row.id=id)
    (hsplit : ∀ id,gated waiting (e::w.2) id=true → gated waiting w.2 id=true ∨ (∃ row∈db.jobs,row.id=id) ∧ ∀ row∈w.1.jobs,row.id≠id)
    (hlive : GateInv waiting w → ∀ row∈db.jobs,gated waiting (e::w.2) row.id=true → live row.status=true → approved w.1 row.id=true) :
    Follows waiting w (db,e::w.2) := by
  intro hinv
  refine ⟨⟨?_,?_,?_,?_,?_⟩,?_,?_⟩
  · rw [happrovals]
    exact hinv.requestKeys
  · intro id req hreq hfor
    rw [happrovals] at hreq
    exact hkept id (hinv.requestJobs id req hreq hfor)
  · intro id hgated
    rcases hsplit id hgated with hold|⟨hnew,-⟩
    · exact hkept id (hinv.gatedJobs id hold)
    · exact hnew
  · intro id hgated a ha b hb hida hidb
    rw [happrovals] at ha hb
    rcases hsplit id hgated with hold|⟨-,hfree⟩
    · exact hinv.oneRequest id hold a ha b hb hida hidb
    obtain ⟨row,hrow,hid⟩ := hinv.requestJobs id a ha hida
    exact absurd hid (hfree row hrow)
  · intro row hrow hgated hrunning
    rw [approved_congr happrovals]
    exact hlive hinv row hrow hgated hrunning
  · rintro id ⟨⟨row,hrow,hid⟩,hcleared⟩
    refine ⟨hkept id ⟨row,hrow,hid⟩,fun hgated => ?_⟩
    rw [approved_congr happrovals]
    rcases hsplit id hgated with hold|⟨-,hfree⟩
    · exact hcleared hold
    · exact absurd hid (hfree row hrow)
  · intro req hrecord
    rw [OnRecord,happrovals]
    exact hrecord

theorem follows_jobs (he : ∀ id,gates id e=false) (happrovals : db.approvals=w.1.approvals)
    (hjobs : db.jobs=w.1.jobs.map f) (hid : ∀ row,(f row).id=row.id)
    (hlive : GateInv waiting w → ∀ row∈w.1.jobs,live (f row).status=true → live row.status=true ∨ Cleared waiting w row.id) :
    Follows waiting w (db,e::w.2) := by
  refine follows_rows happrovals ?_ (fun id hgated => .inl ?_) fun hinv row' hrow' hgated hlive' => ?_
  · rintro id ⟨row,hrow,rfl⟩
    refine ⟨f row,?_,hid row⟩
    rw [hjobs]
    exact mem_map_of_mem hrow
  · rw [gated_cons_of_not he] at hgated
    exact hgated
  · rw [gated_cons_of_not he] at hgated
    rw [hjobs] at hrow'
    obtain ⟨row,hrow,rfl⟩ := mem_map.mp hrow'
    rw [hid] at hgated ⊢
    rcases hlive hinv row hrow hlive' with hbefore|hcleared
    · exact hinv.holds row hrow hgated hbefore
    · exact hcleared.2 hgated

theorem follows_same (he : ∀ id,gates id e=false) (hjobs : db.jobs=w.1.jobs)
    (happrovals : db.approvals=w.1.approvals) : Follows waiting w (db,e::w.2) := by
  refine follows_jobs he happrovals (f := id) ?_ (fun _ => rfl) fun _ row _ hlive => .inl hlive
  rw [hjobs,map_id]

theorem follows_createJob {job : Job} (hfree : ∀ row∈w.1.jobs,row.id≠job.id)
    (he : ∀ id,gates id e=(decide (job.id=id) && decide (job.status=.awaitingApproval)))
    (happrovals : db.approvals=w.1.approvals) (hjobs : db.jobs=w.1.jobs++[job]) : Follows waiting w (db,e::w.2) := by
  have hsplit : ∀ id,gated waiting (e::w.2) id=true → gated waiting w.2 id=true ∨ (job.id=id ∧ job.status=.awaitingApproval) := by
    intro id hgated
    rw [gated,any_cons,he,Bool.or_left_comm,Bool.or_eq_true,Bool.and_eq_true,decide_eq_true_eq,decide_eq_true_eq] at hgated
    exact hgated.symm
  refine follows_rows happrovals ?_ (fun id hgated => ?_) fun hinv row hrow hgated hlive => ?_
  · rintro id ⟨row,hrow,rfl⟩
    rw [hjobs]
    exact ⟨row,mem_append_left _ hrow,rfl⟩
  · refine (hsplit id hgated).imp_right ?_
    rintro ⟨rfl,-⟩
    rw [hjobs]
    exact ⟨⟨job,mem_append_right _ mem_cons_self,rfl⟩,hfree⟩
  · rw [hjobs] at hrow
    rcases mem_append_row.mp hrow with hold|rfl
    · rcases hsplit row.id hgated with hbefore|⟨hsame,-⟩
      · exact hinv.holds row hold hbefore hlive
      · exact absurd hsame.symm (hfree row hold)
    rcases hsplit row.id hgated with hbefore|⟨-,hwaiting⟩
    · obtain ⟨row',hrow',hid⟩ := hinv.gatedJobs row.id hbefore
      exact absurd hid (hfree row' hrow')
    · rw [hwaiting] at hlive
      cases hlive

theorem approved_iff : approved db id=true ↔ (∃ req∈db.approvals,isFor id req=true ∧ approvedByOther req=true) ∧
      ∀ req∈db.approvals,isFor id req=true → refused req=false := by
  simp only [approved,Bool.and_eq_true,any_eq_true,all_eq_true,Bool.or_eq_true,Bool.not_eq_true',
    imp_iff_not_or,Bool.not_eq_true]

theorem terminal_of_approvedByOther (h : approvedByOther req=true) : req.state.isTerminal=true := by
  rw [approvedByOther,Bool.and_eq_true,decide_eq_true_eq] at h
  rw [h.1]
  rfl

theorem follows_approvals (he : ∀ id,gates id e=false) (hjobs : db.jobs=w.1.jobs)
    {f : ApprovalRequest→ApprovalRequest} (happrovals : db.approvals=w.1.approvals.map f)
    (hsame : ∀ req,SameRequest (f req) req) (hfinal : ∀ req,req.state.isTerminal=true → f req=req) : Follows waiting w (db,e::w.2) := by
  intro hinv
  have horigin : ∀ req∈db.approvals,∃ old∈w.1.approvals,f old=req := by
    intro req hreq
    rw [happrovals] at hreq
    exact mem_map.mp hreq
  have hstill : ∀ id,gated waiting w.2 id=true → approved w.1 id=true → approved db id=true := by
    intro id hgated happroved
    obtain ⟨⟨req,hreq,hreqid,hother⟩,hnone⟩ := approved_iff.mp happroved
    have hfixed : f req=req := hfinal req (terminal_of_approvedByOther hother)
    refine approved_iff.mpr ⟨⟨req,?_,hreqid,hother⟩,?_⟩
    · rw [happrovals,← hfixed]
      exact mem_map_of_mem hreq
    intro req' hreq' hid'
    obtain ⟨old,hold,rfl⟩ := horigin req' hreq'
    rw [(hsame old).isFor_eq] at hid'
    rw [hinv.oneRequest id hgated old hold req hreq hid' hreqid,hfixed]
    exact hnone req hreq hreqid
  refine ⟨⟨?_,?_,?_,?_,?_⟩,?_,?_⟩
  · have hkeys : db.approvals.map (·.id)=w.1.approvals.map (·.id) := by
      rw [happrovals,map_map]
      exact map_congr_left fun req _ => (hsame req).id
    rw [hkeys]
    exact hinv.requestKeys
  · intro id req hreq hfor
    obtain ⟨old,hold,rfl⟩ := horigin req hreq
    rw [(hsame old).isFor_eq] at hfor
    rw [hjobs]
    exact hinv.requestJobs id old hold hfor
  · intro id hgated
    rw [gated_cons_of_not he] at hgated
    rw [hjobs]
    exact hinv.gatedJobs id hgated
  · intro id hgated a ha b hb hida hidb
    rw [gated_cons_of_not he] at hgated
    obtain ⟨a₀,ha₀,rfl⟩ := horigin a ha
    obtain ⟨b₀,hb₀,rfl⟩ := horigin b hb
    rw [(hsame _).isFor_eq] at hida hidb
    rw [hinv.oneRequest id hgated a₀ ha₀ b₀ hb₀ hida hidb]
  · intro row hrow hgated hlive
    rw [gated_cons_of_not he] at hgated
    rw [hjobs] at hrow
    exact hstill row.id hgated (hinv.holds row hrow hgated hlive)
  · intro id hcleared
    refine ⟨?_,fun hgated => ?_⟩
    · rw [hjobs]
      exact hcleared.1
    · rw [gated_cons_of_not he] at hgated
      exact hstill id hgated (hcleared.2 hgated)
  · rintro req ⟨row,hrow,hrowsame⟩
    refine ⟨f row,?_,(hsame row).trans hrowsame⟩
    rw [happrovals]
    exact mem_map_of_mem hrow

theorem follows_createApproval (he : ∀ id,gates id e=false)
    (hjobs : db.jobs=w.1.jobs) (happrovals : db.approvals=w.1.approvals++[req]) (hpending : req.state=.pending)
    (hfresh : ∀ row∈w.1.approvals,row.id≠req.id) (hjob : ∀ id,isFor id req=true → ∃ row∈w.1.jobs,row.id=id)
    (hfirst : ∀ id,isFor id req=true → ∀ row∈w.1.approvals,isFor id row=false) : Follows waiting w (db,e::w.2) := by
  intro hinv
  have hstill : ∀ id,approved w.1 id=true → approved db id=true := by
    intro id happroved
    obtain ⟨⟨old,hold,holdid,hother⟩,hnone⟩ := approved_iff.mp happroved
    rw [approved_iff,happrovals]
    refine ⟨⟨old,mem_append_left _ hold,holdid,hother⟩,?_⟩
    intro req' hreq' hid'
    rcases mem_append_row.mp hreq' with hbefore|rfl
    · exact hnone req' hbefore hid'
    rw [refused,hpending]
    rfl
  refine ⟨⟨?_,?_,?_,?_,?_⟩,?_,?_⟩
  · rw [happrovals]
    exact keys_append hinv.requestKeys hfresh
  · intro id req' hreq' hfor
    rw [happrovals] at hreq'
    rw [hjobs]
    rcases mem_append_row.mp hreq' with hbefore|rfl
    · exact hinv.requestJobs id req' hbefore hfor
    · exact hjob id hfor
  · intro id hgated
    rw [gated_cons_of_not he] at hgated
    rw [hjobs]
    exact hinv.gatedJobs id hgated
  · intro id hgated a ha b hb hida hidb
    rw [gated_cons_of_not he] at hgated
    rw [happrovals] at ha hb
    rcases mem_append_row.mp ha with holda|rfl
    · rcases mem_append_row.mp hb with holdb|rfl
      · exact hinv.oneRequest id hgated a holda b holdb hida hidb
      rw [hfirst id hidb a holda] at hida
      cases hida
    · rcases mem_append_row.mp hb with holdb|hnewb
      · rw [hfirst id hida b holdb] at hidb
        cases hidb
      · exact hnewb.symm
  · intro row hrow hgated hlive
    rw [gated_cons_of_not he] at hgated
    rw [hjobs] at hrow
    exact hstill row.id (hinv.holds row hrow hgated hlive)
  · intro id hcleared
    refine ⟨?_,fun hgated => ?_⟩
    · rw [hjobs]
      exact hcleared.1
    · rw [gated_cons_of_not he] at hgated
      exact hstill id (hcleared.2 hgated)
  · rintro req' ⟨row,hrow,hsame⟩
    refine ⟨row,?_,hsame⟩
    rw [happrovals]
    exact mem_append_left _ hrow

end Steps

section Operations

variable {waiting : List String} {w : CWorld ι} {db : Db} {c : Choice} {t : ι}

def touches : Write→Bool
  | .createJob _ => true
  | .updateJob _ => true
  | .updateJobStatus _ _ _ => true
  | .claimJobs _ => true
  | .createApproval _ => true
  | .decideApproval _ _ _ _ _ => true
  | .expireApprovals _ _ => true
  | _ => false

/-- Single writes that bring no job to life. -/
def harmlessWrite : Write→Prop
  | .updateJob job => live job.status=false
  | .updateJobStatus _ status _ => live status=false
  | .createJob _ => True
  | .createApproval req => req.state=.pending
  | write => touches write=false

/-- Operations that bring no job to life, except for the claim of pending jobs. -/
def harmless : Op→Prop
  | .withinTx [write] => harmlessWrite write
  | .withinTx writes => ∀ write∈writes,touches write=false
  | _ => True

/-- A request is inserted only for a job that has none. -/
def requestsFirst (db : Db) : Op→Bool
  | .withinTx [.createApproval req] => db.approvals.all fun row => !isFor req.jobID row
  | _ => true

theorem untouched_write {a b : Db} (hwrite : touches write=false)
    (h : applyWrite c a write=.ok b) : b.jobs=a.jobs ∧ b.approvals=a.approvals := by
  obtain ⟨-,rfl⟩ := applyWrite_ok h
  cases write with
  | createRevocation =>
    simp only [written]
    split <;> exact ⟨rfl,rfl⟩
  | createJob | updateJob | updateJobStatus | claimJobs | createApproval | decideApproval
  | expireApprovals => cases hwrite
  | _ => exact ⟨rfl,rfl⟩

theorem createsGated_of_untouched (hwrite : touches write=false) (id : String) : createsGated id write=false := by
  cases write with
  | createJob => cases hwrite
  | _ => rfl

theorem gates_error {err : GoError} (id : String) :
    gates id (⟨t,.withinTx writes,(.error err : Try Unit)⟩ : Event controlPlane ι)=false := rfl

theorem gates_ok (id : String) : gates id (⟨t,.withinTx writes,(.ok () : Try Unit)⟩ : Event controlPlane ι)=
      writes.any (createsGated id) := rfl

variable {r : Try Unit}

theorem follows_untouched (hwrites : ∀ write∈writes,touches write=false) (h : effect c w.1 (.withinTx writes)=(r,db)) :
    Follows waiting w (db,⟨t,.withinTx writes,r⟩::w.2) := by
  rcases withinTx_cases h with ⟨rfl,hall⟩|⟨err,rfl,rfl⟩
  · have hsame : db.jobs=w.1.jobs ∧ db.approvals=w.1.approvals := by
      refine applyWrites_keeps (P := fun b => b.jobs=w.1.jobs ∧ b.approvals=w.1.approvals) ?_ ⟨rfl,rfl⟩ hall
      intro write hmem a b ha hab
      have hstep := untouched_write (hwrites write hmem) hab
      exact ⟨hstep.1.trans ha.1,hstep.2.trans ha.2⟩
    refine follows_same (fun id => ?_) hsame.1 hsame.2
    rw [gates_ok,any_eq_false]
    intro write hmem
    rw [createsGated_of_untouched (hwrites write hmem)]
    exact Bool.false_ne_true
  · exact follows_same gates_error rfl rfl

theorem live_of_modified {row : Job} (hf : ∀ old,live (f old).status=false)
    (hlive : live (if row.id=id then f row else row).status=true) : live row.status=true := by
  split at hlive
  · rw [hf] at hlive
    cases hlive
  · exact hlive

theorem id_of_modified (hf : ∀ old,(f old).id=old.id) (row : Job) : (if row.id=id then f row else row).id=row.id := by
  split
  · exact hf row
  · rfl

theorem follows_write (hwrite : harmlessWrite write)
    (hfirst : requestsFirst w.1 (.withinTx [write])=true) (h : effect c w.1 (.withinTx [write])=(r,db)) :
    Follows waiting w (db,⟨t,.withinTx [write],r⟩::w.2) := by
  rcases withinTx_one h with ⟨rfl,hfree,rfl⟩|⟨err,rfl,rfl⟩
  · have hone : applyWrite c w.1 write=.ok (written c w.1 write) := by rw [applyWrite,hfree]
    have hsingle : ∀ id,gates id (⟨t,.withinTx [write],(.ok () : Try Unit)⟩ : Event controlPlane ι)=
        createsGated id write := by
      intro id
      rw [gates_ok,any_cons,any_nil,Bool.or_false]
    cases write with
    | createJob job =>
      refine follows_createJob ?_ hsingle rfl rfl
      intro row hrow hid
      have hany : (w.1.jobs.any fun old => old.id=job.id)=true := any_eq_true.mpr ⟨row,hrow,decide_eq_true hid⟩
      simp only [violation,hany,Bool.true_or,if_true,reduceCtorEq] at hfree
    | updateJob job =>
      have hdead : ∀ old,live (overwriteJob job old).status=false := fun _ => hwrite
      refine follows_jobs hsingle rfl rfl (id_of_modified fun old => rfl) ?_
      exact fun _ row _ hlive => .inl (live_of_modified hdead hlive)
    | updateJobStatus id status errMsg =>
      have hdead : ∀ old,live (statusJob status errMsg old).status=false := fun _ => hwrite
      refine follows_jobs hsingle rfl rfl (id_of_modified fun old => rfl) ?_
      exact fun _ row _ hlive => .inl (live_of_modified hdead hlive)
    | createApproval req =>
      simp only [violation] at hfree
      split at hfree
      · cases hfree
      rename_i hconsistent
      split at hfree
      · cases hfree
      rename_i hunique
      split at hfree
      · rename_i hrefs
        refine follows_createApproval hsingle rfl rfl hwrite ?_ ?_ ?_
        · intro row hrow hid
          refine hunique ?_
          rw [Bool.or_eq_true]
          exact .inl (any_eq_true.mpr ⟨row,hrow,decide_eq_true hid⟩)
        · intro id hfor
          rw [isFor,Bool.and_eq_true,decide_eq_true_eq,decide_eq_true_eq] at hfor
          have hnamed : req.jobID≠"" := by
            have hkind := hconsistent
            simp only [approvalKindConsistent,hfor.1,Bool.not_eq_true',Bool.not_eq_false,Bool.and_eq_true,
              decide_eq_true_eq] at hkind
            exact hkind.2
          simp only [approvalReferences,Bool.and_eq_true,Bool.or_eq_true,decide_eq_true_eq,hnamed,false_or,
            any_eq_true] at hrefs
          rw [← hfor.2]
          exact hrefs.2
        · intro id hfor row hrow
          rw [isFor,Bool.and_eq_true,decide_eq_true_eq,decide_eq_true_eq] at hfor
          have hnone := all_eq_true.mp hfirst row hrow
          rw [Bool.not_eq_true',hfor.2] at hnone
          exact hnone
      · cases hfree
    | claimJobs | decideApproval | expireApprovals => cases hwrite
    | _ =>
      have hsame := untouched_write rfl hone
      exact follows_same (fun id => (hsingle id).trans rfl) hsame.1 hsame.2
  · exact follows_same gates_error rfl rfl

theorem follows_claim {jobType : Option JobType} {limit : ℤ} {r : Try (List Job)}
    (h : effect c w.1 (.claimPendingJobs jobType limit)=(r,db)) :
    Follows waiting w (db,⟨t,.claimPendingJobs jobType limit,r⟩::w.2) := by
  rcases fallible_cases h with ⟨rfl,rfl⟩|⟨err,rfl,rfl⟩
  · refine follows_jobs (fun _ => rfl) rfl rfl ?_ ?_
    · intro row
      split <;> rfl
    intro hinv row hrow hlive
    split at hlive
    · rename_i hclaimed
      obtain ⟨job,hjob,hid⟩ := mem_map.mp (contains_iff_mem.mp hclaimed)
      have hpending := mem_claimable hjob
      refine .inr ⟨⟨row,hrow,rfl⟩,fun hgated => ?_⟩
      rw [← hid] at hgated ⊢
      exact hinv.holds job hpending.1 hgated (by rw [hpending.2]; rfl)
    · exact .inl hlive
  · exact follows_same (fun _ => rfl) rfl rfl

theorem decidedRequest_final (h : req.state.isTerminal=true) :
    decidedRequest state decidedBy decidedAt note req=req := by
  rw [decidedRequest,if_neg]
  intro hpending
  rw [hpending] at h
  cases h

theorem decidedRequest_keeps (state : ApprovalState) (decidedBy note : String) (decidedAt : Time)
    (req : ApprovalRequest) : SameRequest (decidedRequest state decidedBy decidedAt note req) req := by
  rw [decidedRequest]
  split <;> exact ⟨rfl,rfl,rfl,rfl⟩

theorem follows_decisions {e : Event controlPlane ι} (he : ∀ id,gates id e=false) (hjobs : db.jobs=w.1.jobs)
    {applies : ApprovalRequest→Prop} [DecidablePred applies] (happrovals : db.approvals=w.1.approvals.map fun req =>
      if applies req then decidedRequest state decidedBy decidedAt note req else req) :
    Follows waiting w (db,e::w.2) := by
  refine follows_approvals he hjobs happrovals ?_ ?_
  · intro req
    split
    · exact decidedRequest_keeps state decidedBy note decidedAt req
    · exact ⟨rfl,rfl,rfl,rfl⟩
  · intro req hterminal
    split
    · exact decidedRequest_final hterminal
    · rfl

theorem follows_harmless {op : Op} {r : Res op} (hop : harmless op) (hfirst : requestsFirst w.1 op=true)
    (h : effect c w.1 op=(r,db)) : Follows waiting w (db,⟨t,op,r⟩::w.2) := by
  have hread : op.readOnly=true → (∀ id,gates id (⟨t,op,r⟩ : Event controlPlane ι)=false) →
      Follows waiting w (db,⟨t,op,r⟩::w.2) := by
    intro hro he
    have hsame := effect_readOnly c w.1 hro
    rw [h] at hsame
    exact follows_same he (congrArg Db.jobs hsame) (congrArg Db.approvals hsame)
  cases op with
  | withinTx writes =>
    match writes with
    | [] => exact follows_untouched (forall_mem_nil _) h
    | [write] => exact follows_write hop hfirst h
    | first::second::rest => exact follows_untouched hop h
  | claimPendingJobs => exact follows_claim h
  | decideApproval | expireStaleApprovals =>
    rcases fallible_cases h with ⟨rfl,rfl⟩|⟨err,rfl,rfl⟩
    · exact follows_decisions (fun _ => rfl) rfl rfl
    · exact follows_same (fun _ => rfl) rfl rfl
  | newSemaphore | semRelease | flightLoadOrStore | flightClose | flightDelete =>
    cases h
    exact follows_same (fun _ => rfl) rfl rfl
  | semAcquire => rcases fallible_cases h with ⟨rfl,rfl⟩|⟨err,rfl,rfl⟩ <;> exact follows_same (fun _ => rfl) rfl rfl
  | _ => exact hread rfl fun _ => rfl

end Operations

end Certctl.ApprovalGate
