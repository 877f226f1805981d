import Certctl.ApprovalRequests
import Mathlib.Data.List.Lemmas

/-!
# Completeness of approval decisions and of the sweep over old requests

The sweep reads one page of pending requests, newest first, to learn whose
jobs it has to cancel; the update that expires requests goes by creation
time alone. The two sets agree only while the old requests fit on the page.
A decision changes the state of its request first and carries out what was
decided afterwards, so that a failure in between leaves a decided request
without its effect.
-/

namespace Certctl.ApprovalDecisions

open AtomicProgram Prog RecordTable ControlPlaneTables ControlPlaneStore DomainRecords ApprovalRequests
open List hiding lookup modify

variable {c : Choice} {now : Time}

section Sweep

/-- A pending request that is as old as the cutoff. -/
def overdue (before : Time) (req : ApprovalRequest) : Bool := req.state=.pending && req.createdAt≤before

/-- The page of pending requests that a sweep reads; the environment orders rows of one time. -/
def firstPage (c : Choice) (db : Db) : List ApprovalRequest :=
  (orderBy c (fun req => -req.createdAt) (db.approvals.filter (·.state=.pending))).take 500

def expiredBy (db db' : Db) (req : ApprovalRequest) : Prop :=
  ∃ (i : ℕ) (req' : ApprovalRequest),db.approvals[i]?=some req ∧ req.state=.pending ∧ db'.approvals[i]?=some req' ∧ req'.state=.expired

/-- What a complete sweep has done. -/
structure Swept (before : Time) (db db' : Db) : Prop where
  /-- No old request is pending any more. -/
  none_left : ∀ req∈db'.approvals,overdue before req=false
  /-- The jobs of the certificate requests that were expired are cancelled. -/
  jobs_cancelled : ∀ req,expiredBy db db' req → req.kind=.certIssuance →
    ∀ job∈db'.jobs,job.id=req.jobID → job.status=.cancelled
  /-- A job that changed is the job of a request that was expired. -/
  others_kept : ∀ (i : ℕ) (job : Job),db.jobs[i]?=some job → db'.jobs[i]?≠some job →
    ∃ req,expiredBy db db' req ∧ req.jobID=job.id

/-- No request is old, or one on the page is and so is, on the page, a request for
every job of an old certificate request that is not cancelled already. -/
def Covered (before : Time) (page : List ApprovalRequest) (db : Db) : Prop :=
  (∀ req∈db.approvals,overdue before req=false) ∨
    ((∃ req∈page,overdue before req=true) ∧ ∀ req∈db.approvals,overdue before req=true → req.kind=.certIssuance →
      ∀ job∈db.jobs,job.id=req.jobID → job.status=.cancelled ∨ ∃ q∈page,overdue before q=true ∧ q.jobID=job.id)

/-- The error text of a job whose request was not decided in time. -/
def timedOut : String := "approval expired: timed out without review"

/-- The jobs after those of the given requests were cancelled one by one. -/
def cancelEach (stale : List ApprovalRequest) (jobs : List Job) : List Job :=
  stale.foldl (fun jobs req => modify Job.id req.jobID (statusJob .cancelled timedOut) jobs) jobs

theorem cancelEach_eq (stale : List ApprovalRequest) (jobs : List Job) : cancelEach stale jobs=jobs.map fun job =>
    if (stale.any fun req => req.jobID=job.id) then statusJob .cancelled timedOut job else job := by
  induction stale generalizing jobs with
  | nil => exact (map_id jobs).symm
  | cons req rest ih =>
    rw [cancelEach,foldl_cons]
    refine (ih _).trans ?_
    rw [RecordTable.modify,map_map]
    refine map_congr_left fun job _ => ?_
    by_cases hid : job.id=req.jobID
    · simp only [Function.comp,any_cons,hid,if_true]
      split <;> rfl
    · have hne : ¬req.jobID=job.id := fun h => hid h.symm
      simp only [Function.comp,if_neg hid,any_cons,hne,decide_false,Bool.false_or]

theorem always_cancelJobs (stale : List ApprovalRequest) (db : Db) : (cancelJobs stale).Always faultFree
    (fun _ db' => db'.approvals=db.approvals ∧ db'.jobs=cancelEach stale db.jobs) db := by
  rw [cancelJobs,forEach_eq_foldEach]
  -- what is still to be cancelled leads from the jobs so far to the same end
  refine always_foldEach (S := controlPlane) (I := fun rest _ (s : Db) =>
    s.approvals=db.approvals ∧ cancelEach rest s.jobs=cancelEach stale db.jobs) ?_ ⟨rfl,rfl⟩
  intro req rest _ s hs c r s' hfault hperform
  have heff : effect c s (.withinTx [.updateJobStatus req.jobID .cancelled timedOut])=(r,s') := effect_of_perform hperform
  have hstep : s'.approvals=s.approvals ∧ s'.jobs=modify Job.id req.jobID (statusJob .cancelled timedOut) s.jobs := by
    cases hfound : lookup Job.id req.jobID s.jobs with
    | some =>
      rw [effect_withinTx hfault (by simp only [violation,hfound,Option.isSome_some,if_true])] at heff
      cases heff
      exact ⟨rfl,rfl⟩
    | none =>
      have hsame : s'=s := by
        rcases withinTx_one heff with ⟨-,hfree,-⟩|⟨err,-,hsame⟩
        · simp only [violation,hfound] at hfree
          cases hfree
        · exact hsame
      subst hsame
      exact ⟨rfl,(modify_of_lookup_none hfound _).symm⟩
  refine ⟨hstep.1.trans hs.1,?_⟩
  rw [hstep.2]
  exact hs.2

/-- How a sweep that has read a page ends. -/
def Outcome (before : Time) (page : List ApprovalRequest) (db : Db) (r : Try ℕ) (db' : Db) : Prop :=
  (∃ n,r=.ok n) ∧ (((∀ req∈page,overdue before req=false) ∧ db'=db) ∨ ((∃ req∈page,overdue before req=true) ∧
      ∃ now,db'.approvals=db.approvals.map (expiredRequest before now) ∧
        db'.jobs=cancelEach (page.filter (overdue before)) db.jobs))

theorem total_afterPage (before : Time) (page : List ApprovalRequest) (db : Db)
    (hpending : ∀ req∈page,req.state=.pending) : Prog.Total (S := controlPlane) faultFree (Outcome before page db)
      (let stale := page.filter (·.createdAt≤before)
       if stale.isEmpty then pure (.ok 0)
       else do
        match ← expireStaleApprovals before with
        | .error err => raise (err.wrapped "approval: bulk expire: ")
        | .ok count =>
          cancelJobs stale
          pure (.ok count)) db := by
  have hstale : page.filter (·.createdAt≤before)=page.filter (overdue before) := by
    refine filter_congr fun req hreq => ?_
    simp only [overdue,hpending req hreq,decide_true,Bool.true_and]
  dsimp only
  rw [hstale]
  split
  · rename_i hnone
    refine ⟨⟨0,rfl⟩,.inl ⟨fun req hreq => ?_,rfl⟩⟩
    have hnil := isEmpty_iff.mp hnone
    rw [filter_eq_nil_iff] at hnil
    exact Bool.eq_false_iff.mpr (hnil req hreq)
  rename_i hsome
  obtain ⟨req,hreq⟩ := exists_mem_of_ne_nil _ fun h => hsome (isEmpty_iff.mpr h)
  refine total_request (fun _ => rfl) fun c hfault => ?_
  simp only [effect,fallible,hfault]
  refine total_bind.mpr (Prog.Total.mono ?_ (total_of_always (U := fun op : Op =>
    ∃ jobID,op=.withinTx [.updateJobStatus jobID .cancelled timedOut]) ?_ ?_ (always_cancelJobs _ _)))
  · intro _ db' h
    exact ⟨⟨_,rfl⟩,.inr ⟨⟨req,mem_filter.mp hreq⟩,c.now,h.1,h.2⟩⟩
  · rintro op ⟨jobID,rfl⟩ s
    exact ⟨noFault,_,_,rfl,perform_of_not_blocked rfl⟩
  · exact uses_forEach _ fun q _ => ⟨⟨q.jobID,rfl⟩,fun _ => trivial⟩

variable {db : Db} {req : ApprovalRequest}

theorem mem_firstPage (h : req∈firstPage c db) : req∈db.approvals ∧ req.state=.pending := by
  have hrow := mem_filter.mp (mem_orderBy.mp (mem_of_mem_take h))
  exact ⟨hrow.1,of_decide_eq_true hrow.2⟩

theorem effect_firstPage (hfault : c.fault=none) (db : Db) :
    effect c db (.listApprovals .pending 500)=(.ok (firstPage c db),db) := by
  simp only [effect,answer,fallible]
  rw [hfault]
  rfl

variable {before : Time} {r : Try ℕ} {db' : Db}

theorem outcome_of_exec (h : (expireStale before).Exec faultFree db r db') :
    ∃ c : Choice,c.fault=none ∧ Outcome before (firstPage c db) db r db' := by
  obtain ⟨c,r₁,s,hfault,hperform,hrest⟩ := h
  cases (effect_firstPage hfault db).symm.trans (effect_of_perform hperform)
  exact ⟨c,hfault,(total_afterPage before (firstPage c db) db fun req hreq => (mem_firstPage hreq).2).of_exec hrest⟩

theorem exists_sweep (before : Time) (db : Db) (hfault : c.fault=none) :
    ∃ n db',(expireStale before).Exec faultFree db (.ok n) db' ∧ Outcome before (firstPage c db) db (.ok n) db' := by
  obtain ⟨r,db',hexec,hout⟩ := (total_afterPage before (firstPage c db) db fun req hreq => (mem_firstPage hreq).2).exists_exec
  obtain ⟨n,rfl⟩ := hout.1
  refine ⟨n,db',exec_of_choice c hfault rfl ?_,hout⟩
  rw [effect_firstPage hfault]
  exact hexec

theorem expiredBy_iff (h : db'.approvals=db.approvals.map (expiredRequest before now)) :
    expiredBy db db' req ↔ req∈db.approvals ∧ overdue before req=true := by
  simp only [overdue,Bool.and_eq_true,decide_eq_true_eq]
  constructor
  · rintro ⟨i,req',hi,hpending,hi',hexpired⟩
    rw [h,getElem?_map,hi] at hi'
    cases hi'
    refine ⟨mem_of_getElem? hi,hpending,?_⟩
    by_contra hlate
    rw [expiredRequest,if_neg hlate,hpending] at hexpired
    cases hexpired
  · rintro ⟨hreq,hpending,hold⟩
    obtain ⟨i,hi⟩ := getElem?_of_mem hreq
    refine ⟨i,expiredRequest before now req,hi,hpending,by rw [h,getElem?_map,hi,Option.map_some],?_⟩
    rw [expiredRequest,if_pos hold,decidedRequest,if_pos hpending]

theorem swept_of_outcome {page : List ApprovalRequest}
    (hpage : ∀ req∈page,req∈db.approvals) (h : Outcome before page db r db') :
    Swept before db db' ↔ Covered before page db := by
  rcases h.2 with ⟨hnone,rfl⟩|⟨⟨old,hold,hdue⟩,now,happrovals,hjobs⟩
  · have hunmoved : ∀ req,¬expiredBy db' db' req := by
      rintro req ⟨i,req',hi,hpending,hi',hexpired⟩
      cases hi.symm.trans hi'
      cases hpending.symm.trans hexpired
    constructor
    · exact fun hswept => .inl hswept.none_left
    · rintro (hclear|⟨⟨req,hreq,hdue⟩,-⟩)
      · exact ⟨hclear,fun req hmoved => absurd hmoved (hunmoved req),fun i job hi hne => absurd hi hne⟩
      · exact absurd (hnone req hreq) (Bool.eq_false_iff.not.mpr (not_not.mpr hdue))
  rw [cancelEach_eq] at hjobs
  constructor
  · refine fun hswept => .inr ⟨⟨old,hold,hdue⟩,fun req hreq hover hkind job hjob hid => ?_⟩
    by_cases hany : ((page.filter (overdue before)).any fun q => q.jobID=job.id)=true
    · obtain ⟨q,hq,hsame⟩ := any_eq_true.mp hany
      have hq := mem_filter.mp hq
      exact .inr ⟨q,hq.1,hq.2,of_decide_eq_true hsame⟩
    have hkept : job∈db'.jobs := by
      rw [hjobs]
      exact mem_map.mpr ⟨job,hjob,if_neg hany⟩
    exact .inl (hswept.jobs_cancelled req ((expiredBy_iff happrovals).mpr ⟨hreq,hover⟩) hkind job hkept hid)
  · rintro (hclear|⟨-,hcover⟩)
    · rw [hclear old (hpage old hold)] at hdue
      cases hdue
    refine ⟨fun req hreq => ?_,fun req hmoved hkind job hjob hid => ?_,fun i job hi hne => ?_⟩
    · rw [happrovals] at hreq
      obtain ⟨row,-,rfl⟩ := mem_map.mp hreq
      by_cases hlate : row.createdAt≤before
      · by_cases hpending : row.state=.pending
        · simp only [expiredRequest,if_pos hlate,decidedRequest,if_pos hpending]
          rfl
        · simp only [expiredRequest,if_pos hlate,decidedRequest,if_neg hpending,overdue,decide_eq_false hpending,Bool.false_and]
      · simp only [expiredRequest,if_neg hlate,overdue,decide_eq_false hlate,Bool.and_false]
    · obtain ⟨hreq,hover⟩ := (expiredBy_iff happrovals).mp hmoved
      rw [hjobs] at hjob
      obtain ⟨row,hrow,rfl⟩ := mem_map.mp hjob
      split
      · rfl
      rename_i hany
      rw [if_neg hany] at hid
      rcases hcover req hreq hover hkind row hrow hid with hdone|⟨q,hq,hqover,hqid⟩
      · exact hdone
      · exact absurd (any_eq_true.mpr ⟨q,mem_filter.mpr ⟨hq,hqover⟩,decide_eq_true hqid⟩) hany
    · by_cases hany : ((page.filter (overdue before)).any fun q => q.jobID=job.id)=true
      · obtain ⟨q,hq,hsame⟩ := any_eq_true.mp hany
        have hq := mem_filter.mp hq
        exact ⟨q,(expiredBy_iff happrovals).mpr ⟨hpage q hq.1,hq.2⟩,of_decide_eq_true hsame⟩
      · rw [hjobs,getElem?_map,hi,Option.map_some,if_neg hany] at hne
        exact absurd rfl hne

/-- Every sweep without errors is complete exactly if each page it may read covers
the old requests. -/
theorem expireStale_complete_iff (before : Time) (db : Db) :
    (∀ n db',(expireStale before).Exec faultFree db (.ok n) db' → Swept before db db') ↔
      ∀ c : Choice,c.fault=none → Covered before (firstPage c db) db := by
  constructor
  · intro h c hfault
    obtain ⟨n,db',hexec,hout⟩ := exists_sweep before db hfault
    exact (swept_of_outcome (fun req hreq => (mem_firstPage hreq).1) hout).mp (h n db' hexec)
  · intro h n db' hexec
    obtain ⟨c,hfault,hout⟩ := outcome_of_exec hexec
    exact (swept_of_outcome (fun req hreq => (mem_firstPage hreq).1) hout).mpr (h c hfault)

/-- The names of the jobs of a crowded table. -/
def crowdedID (i : ℕ) : String := String.ofList (List.replicate i 'j')

def crowdedRequest (i : ℕ) : ApprovalRequest :=
  { id := crowdedID i, certificateID := "c", jobID := crowdedID i, profileID := "p", requestedBy := "u" }

/-- Pending requests of one age, each with its own waiting job. -/
def crowded (count : ℕ) : Db := {
  approvals := (List.range count).map crowdedRequest
  jobs := (List.range count).map fun i =>
    { id := crowdedID i, type := .renewal, certificateID := "c", status := .awaitingApproval } }

theorem sweep_incomplete {count : ℕ} (hcount : 500<count) : ∃ n db',
    (expireStale zeroTime).Exec faultFree (crowded count) (.ok n) db' ∧ ¬Swept zeroTime (crowded count) db' := by
  obtain ⟨n,db',hexec,hout⟩ := exists_sweep zeroTime (crowded count) (c := noFault) rfl
  refine ⟨n,db',hexec,fun hswept => ?_⟩
  have hrow : ∀ i<count,crowdedRequest i∈(crowded count).approvals := fun i hi => mem_map.mpr ⟨i,mem_range.mpr hi,rfl⟩
  rcases (swept_of_outcome (fun req hreq => (mem_firstPage hreq).1) hout).mp hswept with hclear|⟨-,hcover⟩
  · have hold : overdue zeroTime (crowdedRequest 0)=false := hclear _ (hrow 0 (by omega))
    exact absurd hold (by decide)
  -- five hundred requests cannot name more jobs
  have hsub : (List.range count).map crowdedID⊆(firstPage noFault (crowded count)).map (·.jobID) := by
    intro id hid
    obtain ⟨i,hi,rfl⟩ := mem_map.mp hid
    rcases hcover _ (hrow i (mem_range.mp hi)) rfl rfl _ (mem_map.mpr ⟨i,hi,rfl⟩) rfl with hdone|⟨q,hq,-,hqid⟩
    · cases hdone
    · exact mem_map.mpr ⟨q,hq,hqid⟩
  have hnodup : ((List.range count).map crowdedID).Nodup := by
    refine List.Nodup.map (fun i j h => ?_) nodup_range
    have hlen := congrArg (fun id : String => id.toList.length) h
    simp only [crowdedID,String.toList_ofList,length_replicate] at hlen
    exact hlen
  have hle := (hnodup.subperm hsub).length_le
  have htake : (firstPage noFault (crowded count)).length ≤ 500 := length_take_le _ _
  rw [length_map,length_range,length_map] at hle
  omega

/-- One request more than a page is left as it was. -/
theorem crowded_sweep_incomplete : ∃ n db',
    (expireStale zeroTime).Exec faultFree (crowded 501) (.ok n) db' ∧ ¬Swept zeroTime (crowded 501) db' :=
  sweep_incomplete (by omega)

end Sweep

section Decisions

/-- The two decisions on a request. -/
inductive Verdict where
  | approve
  | reject
deriving DecidableEq

def Verdict.state : Verdict→ApprovalState
  | .approve => .approved
  | .reject => .rejected

def decision (svc : ApprovalService) (v : Verdict) (requestID decidedBy note : String) : Service (Try Unit) :=
  match v with
  | .approve => approve svc requestID decidedBy note
  | .reject => reject requestID decidedBy note

def effectWrite (svc : ApprovalService) (v : Verdict) (req : ApprovalRequest) (note : String) : Option Write :=
  match v,req.kind with
  | .approve,.certIssuance => some (.updateJobStatus req.jobID .pending "")
  | .approve,.profileEdit =>
    if svc.profileEditApply then
      (svc.decodeProfile req.payload).toOption.map fun profile => .updateProfile {profile with id := req.profileID}
    else none
  -- rejecting goes to the job for either kind
  | .reject,_ => some (.updateJobStatus req.jobID .cancelled ("approval rejected: "++note))

/-- Calls fail only where the pattern has them fail. -/
def failing (faulty : Op→Bool) : Prog.Allowed controlPlane := fun op c _ => c.fault=none ∨ faulty op=true

/-- An approved profile edit changes no column that the profile update leaves out. -/
def KeepsFlags (svc : ApprovalService) (v : Verdict) (req : ApprovalRequest) (db : Db) : Prop :=
  v=.approve → req.kind=.profileEdit → ∀ profile row,svc.decodeProfile req.payload=.ok profile →
    lookup CertificateProfile.id req.profileID db.profiles=some row →
      profile.requiresApproval=row.requiresApproval ∧ profile.acmeAuthMode=row.acmeAuthMode

/-- The write that carries out the decision exists, finds its row, does not fail and stores all columns. -/
def Ready (svc : ApprovalService) (v : Verdict) (req : ApprovalRequest) (note : String) (faulty : Op→Bool)
    (db : Db) : Prop :=
  KeepsFlags svc v req db ∧
    ∃ w,effectWrite svc v req note=some w ∧ faulty (.withinTx [w])=false ∧ violation noFault db w=none

/-- What was decided has taken place. -/
def Done (svc : ApprovalService) (v : Verdict) (req : ApprovalRequest) (db db' : Db) : Prop :=
  match v,req.kind with
  | .approve,.certIssuance => (lookup Job.id req.jobID db'.jobs).map (·.status)=some .pending
  | .approve,.profileEdit => ∃ profile,svc.decodeProfile req.payload=.ok profile ∧
      lookup CertificateProfile.id req.profileID db'.profiles=some {profile with id := req.profileID}
  | .reject,.certIssuance => (lookup Job.id req.jobID db'.jobs).map (·.status)=some .cancelled
  | .reject,.profileEdit => db'.profiles=db.profiles

/-- A decision that returned no error took place as a whole, one that did left the request as it was. -/
def AllOrNothing (svc : ApprovalService) (v : Verdict) (req : ApprovalRequest) (db : Db)
    (r : Try Unit) (db' : Db) : Prop :=
  match r with
  | .ok _ => (lookup ApprovalRequest.id req.id db'.approvals).map (·.state)=some v.state ∧ Done svc v req db db'
  | .error _ => lookup ApprovalRequest.id req.id db'.approvals=some req

/-- The tables once the state of a request is changed. -/
def decided (v : Verdict) (requestID decidedBy note : String) (now : Time) (db : Db) : Db :=
  {db with approvals := modify ApprovalRequest.id requestID (decidedRequest v.state decidedBy now note) db.approvals}

/-- What a decision does after it has changed the state. -/
def carryOut (svc : ApprovalService) (v : Verdict) (req : ApprovalRequest) (note : String) : Service (Try Unit) :=
  match v with
  | .approve => release svc req
  | .reject => do
    match ← updateJobStatus req.jobID .cancelled ("approval rejected: "++note) with
    | .error err => raise (err.wrapped "approval: transition job to Cancelled: ")
    | .ok _ => pure (.ok ())

theorem carryOut_eq (svc : ApprovalService) (v : Verdict) (req : ApprovalRequest) (note : String) :
    match effectWrite svc v req note with
    | none => ∃ err,carryOut svc v req note=.ret (.error err)
    | some w => ∃ front : GoError→GoError,
        carryOut svc v req note=(request (.withinTx [w])).bind fun r => .ret (Except.mapError front r) := by
  have hcall : ∀ (w : Write) (front : GoError→GoError) (k : Try Unit→Service (Try Unit)),
      (∀ r,k r=.ret (Except.mapError front r)) →
        (request (.withinTx [w])).bind k=(request (.withinTx [w])).bind fun r => .ret (Except.mapError front r) := by
    intro w front k hk
    exact congrArg _ (funext hk)
  cases v with
  | reject => exact ⟨_,hcall _ (GoError.wrapped "approval: transition job to Cancelled: ") _ fun r => by cases r <;> rfl⟩
  | approve =>
    cases hkind : req.kind with
    | certIssuance =>
      simp only [effectWrite,carryOut,release,hkind]
      exact ⟨_,hcall _ (GoError.wrapped "approval: transition job to Pending: ") _ fun r => by cases r <;> rfl⟩
    | profileEdit =>
      simp only [effectWrite,carryOut,release,hkind]
      by_cases happly : svc.profileEditApply=true
      · simp only [happly,applyProfileEdit]
        cases hdecode : svc.decodeProfile req.payload with
        | error => exact ⟨_,rfl⟩
        | ok profile =>
          exact ⟨_,hcall _ (fun err => (err.wrapped "apply profile-edit diff: ").wrapped "approval: apply profile edit: ") _
            fun r => by cases r <;> rfl⟩
      · simp only [happly]
        exact ⟨_,rfl⟩

variable {svc : ApprovalService} {v : Verdict} {req : ApprovalRequest} {decidedBy note : String} {faulty : Op→Bool}
  {db db' : Db} {w : Write}

theorem effectWrite_same (db : Db) (hw : effectWrite svc v req note=some w) (c : Choice) :
    (∀ rows,violation c {db with approvals := rows} w=violation noFault db w) ∧
      written c db w=written noFault db w ∧ (written c db w).approvals=db.approvals := by
  have hkind : (∃ id status err,w=.updateJobStatus id status err) ∨ ∃ profile,w=.updateProfile profile := by
    unfold effectWrite at hw
    split at hw
    · cases hw
      exact .inl ⟨_,_,_,rfl⟩
    · split at hw
      · obtain ⟨profile,-,rfl⟩ := Option.map_eq_some_iff.mp hw
        exact .inr ⟨_,rfl⟩
      · cases hw
    · cases hw
      exact .inl ⟨_,_,_,rfl⟩
  rcases hkind with ⟨id,status,err,rfl⟩|⟨profile,rfl⟩ <;> exact ⟨fun _ => rfl,rfl,rfl⟩

theorem jobStatus_written {id errMsg : String} {status : JobStatus}
    (hfree : violation noFault db (.updateJobStatus id status errMsg)=none) :
    (lookup Job.id id (written noFault db (.updateJobStatus id status errMsg)).jobs).map (·.status)=some status := by
  have hfound : (lookup Job.id id db.jobs).isSome=true := by
    by_contra hnone
    simp only [violation,hnone] at hfree
    cases hfree
  obtain ⟨row,hrow⟩ := Option.isSome_iff_exists.mp hfound
  dsimp only [written]
  rw [lookup_modify_self (f := statusJob status errMsg) (fun _ => rfl),hrow]
  rfl

/-- The write of a decision does all of it exactly when it leaves no column out. -/
theorem done_written (hw : effectWrite svc v req note=some w) (hfree : violation noFault db w=none) :
    Done svc v req db (written noFault db w) ↔ KeepsFlags svc v req db := by
  cases v with
  | reject =>
    cases hw
    refine ⟨nofun,fun _ => ?_⟩
    cases hkind : req.kind with
    | certIssuance =>
      simp only [Done,hkind]
      exact jobStatus_written hfree
    | profileEdit =>
      simp only [Done,hkind]
      rfl
  | approve =>
    cases hkind : req.kind with
    | certIssuance =>
      simp only [effectWrite,hkind] at hw
      cases hw
      refine ⟨fun _ _ h => (nomatch hkind.symm.trans h),fun _ => ?_⟩
      simp only [Done,hkind]
      exact jobStatus_written hfree
    | profileEdit =>
      simp only [effectWrite,hkind] at hw
      split at hw
      · cases hdecode : svc.decodeProfile req.payload with
        | error =>
          rw [hdecode] at hw
          cases hw
        | ok profile =>
          rw [hdecode] at hw
          cases hw
          obtain ⟨row,hrow⟩ : ∃ row,lookup CertificateProfile.id req.profileID db.profiles=some row := by
            refine Option.isSome_iff_exists.mp ?_
            by_contra hnone
            simp only [violation,hnone] at hfree
            cases hfree
          have hafter : lookup CertificateProfile.id req.profileID
              (written noFault db (.updateProfile {profile with id := req.profileID})).profiles=
                some (overwriteProfile {profile with id := req.profileID} row) := by
            dsimp only [written]
            rw [lookup_modify_self (f := overwriteProfile _) (fun _ => rfl),hrow]
            rfl
          have hid : row.id=req.profileID := (lookup_some hrow).2
          simp only [Done,hkind,hdecode,hafter,KeepsFlags,hrow,forall_const]
          constructor
          · rintro ⟨p,hp,heq⟩ profile' row' hprofile hrow'
            cases hp
            cases hprofile
            cases hrow'
            have heq := Option.some.inj heq
            exact ⟨(congrArg CertificateProfile.requiresApproval heq).symm,
              (congrArg CertificateProfile.acmeAuthMode heq).symm⟩
          · intro h
            obtain ⟨hflag,hmode⟩ := h profile row rfl rfl
            refine ⟨profile,rfl,?_⟩
            rw [overwriteProfile,← hflag,← hmode,hid]
      · cases hw

theorem always_carryOut (hw : effectWrite svc v req note=some w) : (carryOut svc v req note).Always (failing faulty)
    (fun r s => (r=.ok () ∧ violation noFault db w=none ∧ s=written noFault db w) ∨
      ((∃ err,r=.error err) ∧ s=db ∧ (violation noFault db w≠none ∨ faulty (.withinTx [w])=true))) db := by
  have hshape := carryOut_eq svc v req note
  rw [hw] at hshape
  obtain ⟨front,hshape⟩ := hshape
  rw [hshape]
  intro c r s hok hperform
  have hsame := effectWrite_same db hw c
  have hsame' : violation c db w=violation noFault db w := hsame.1 db.approvals
  rcases withinTx_one (effect_of_perform hperform) with ⟨rfl,hfree,rfl⟩|⟨err,rfl,rfl⟩
  · exact .inl ⟨rfl,hsame'.symm.trans hfree,hsame.2.1⟩
  refine .inr ⟨⟨_,rfl⟩,rfl,or_iff_not_imp_left.mpr fun hfree => hok.resolve_left fun hfault => ?_⟩
  have heff := effect_withinTx hfault (hsame'.trans (not_not.mp hfree))
  cases heff.symm.trans (effect_of_perform hperform)

section Front

theorem faulty_of_error {α : Type} {op : Op} {a : α} {err : GoError} {s s' : Db}
    (hok : failing faulty op c s) (h : fallible c db (.ok (a,s'))=(.error err,db')) : ∃ op,faulty op=true := by
  refine ⟨op,hok.resolve_left fun hfault => ?_⟩
  rw [fallible,hfault] at h
  cases h

variable {Q : Try Unit→Db→Prop} (hrow : lookup ApprovalRequest.id req.id db.approvals=some req)
  (hpending : req.state=.pending)

include hrow in
theorem always_getApproval {k : Try ApprovalRequest→Service (Try Unit)}
    (herror : (∃ op,faulty op=true) → ∀ err,(k (.error err)).Always (failing faulty) Q db) :
    ((getApproval req.id).bind k).Always (failing faulty) Q db ↔ (k (.ok req)).Always (failing faulty) Q db := by
  have heff : ∀ c : Choice,effect c db (.getApproval req.id)=fallible c db (.ok (req,db)) := by
    intro c
    simp only [effect,hrow]
    rfl
  constructor
  · exact fun h => h noFault _ _ (.inl rfl) (perform_of_not_blocked rfl |>.trans (congrArg some (heff noFault)))
  · intro hfound c r s hok hperform
    have hout := (heff c).symm.trans (effect_of_perform hperform)
    rcases fallible_cases hout with ⟨rfl,rfl⟩|⟨err,rfl,rfl⟩
    · exact hfound
    · exact herror (faulty_of_error hok hout) err

theorem always_timeNow {k : Time→Service (Try Unit)} :
    (timeNow.bind k).Always (failing faulty) Q db ↔ ∀ now,(k now).Always (failing faulty) Q db := by
  constructor
  · exact fun h now => h {now := now} now db (.inl rfl) rfl
  · intro h c now s _ hperform
    cases effect_of_perform hperform
    exact h _

include hrow hpending in
theorem always_updateApprovalState {k : Try Unit→Service (Try Unit)}
    (herror : (∃ op,faulty op=true) → ∀ err,(k (.error err)).Always (failing faulty) Q db) :
    ((updateApprovalState req.id v.state decidedBy now note).bind k).Always (failing faulty) Q db ↔
      (k (.ok ())).Always (failing faulty) Q (decided v req.id decidedBy note now db) := by
  have hterminal : (!v.state.isTerminal)=false := by
    cases v with
    | approve | reject => rfl
  have hcount : (db.approvals.filter fun row => row.id=req.id && row.state=.pending).length≠0 := by
    have hmem : req∈db.approvals.filter fun row => row.id=req.id && row.state=.pending := by
      refine mem_filter.mpr ⟨(lookup_some hrow).1,?_⟩
      simp only [hpending,decide_true,Bool.and_self]
    exact fun hzero => absurd (eq_nil_of_length_eq_zero hzero) (ne_nil_of_mem hmem)
  rw [updateApprovalState,hterminal]
  constructor
  · intro h
    have hnext := h noFault _ _ (.inl rfl) (perform_of_not_blocked rfl)
    simp only [noFault,Prog.bind,if_pos hcount] at hnext
    exact hnext
  · intro hdone c r s hok hperform
    have hout := effect_of_perform hperform
    rcases fallible_cases hout with ⟨rfl,rfl⟩|⟨err,rfl,rfl⟩
    · simp only [Prog.bind,if_pos hcount]
      exact hdone
    · exact herror (faulty_of_error hok hout) err

include hrow hpending in
/-- All runs of a decision by a second person end well if those of what carries it out do. -/
theorem always_decision (hby : decidedBy≠req.requestedBy) (herror : (∃ op,faulty op=true) → ∀ err,Q (.error err) db) :
    (decision svc v req.id decidedBy note).Always (failing faulty) Q db ↔
      ∀ now,(carryOut svc v req note).Always (failing faulty) Q (decided v req.id decidedBy note now db) := by
  have hopen : req.state.isTerminal=false := by
    rw [hpending]
    rfl
  -- both decisions read the request and the clock first; an approval then reads the request once more
  cases v
  all_goals
    refine (always_getApproval hrow ?_).trans ?_
    · exact fun h _ => herror h _
    dsimp only
    rw [hopen,if_neg Bool.false_ne_true,if_neg hby]
    refine always_timeNow.trans (forall_congr' fun now => ?_)
  case approve =>
    refine (always_getApproval hrow ?_).trans ?_
    · exact fun h _ => herror h _
    dsimp only
    rw [hopen,if_neg Bool.false_ne_true]
    exact always_updateApprovalState (v := .approve) hrow hpending fun h _ => herror h _
  case reject => exact always_updateApprovalState (v := .reject) hrow hpending fun h _ => herror h _

include hrow hpending in
/-- Decisions on a pending request are all or nothing, and a second person can
reject a profile edit, exactly if the request's own requester asks or the write
that carries the decision out goes through and stores all of it. -/
theorem decision_all_or_nothing_iff :
    (∀ r db',(decision svc v req.id decidedBy note).Exec (failing faulty) db r db' →
      AllOrNothing svc v req db r db' ∧ ((∀ op,faulty op=false) → v=.reject → req.kind=.profileEdit →
        decidedBy≠req.requestedBy → r=.ok ())) ↔
      (decidedBy=req.requestedBy ∨ Ready svc v req note faulty db) := by
  rw [← always_iff_exec]
  by_cases hby : decidedBy=req.requestedBy
  · subst hby
    refine iff_of_true ?_ (.inl rfl)
    have hopen : req.state.isTerminal=false := by
      rw [hpending]
      rfl
    cases v with
    | approve | reject =>
      refine (always_getApproval hrow ?_).mpr ?_
      · exact fun _ _ => ⟨hrow,fun _ _ _ h => absurd rfl h⟩
      dsimp only
      rw [hopen,if_neg Bool.false_ne_true,if_pos rfl]
      exact ⟨hrow,fun _ _ _ h => absurd rfl h⟩
  refine (always_decision hrow hpending hby ?_).trans ?_
  · rintro ⟨op,hop⟩ err
    refine ⟨hrow,fun hnone => ?_⟩
    rw [hnone op] at hop
    cases hop
  have hstate : ∀ now,lookup ApprovalRequest.id req.id (decided v req.id decidedBy note now db).approvals=
      some {req with state := v.state, decidedBy := some decidedBy, decidedAt := some now, decisionNote := note} := by
    intro now
    dsimp only [decided]
    rw [lookup_modify_self (f := decidedRequest v.state decidedBy now note) (fun row => ?_),hrow]
    · rw [Option.map_some,decidedRequest,if_pos hpending]
    unfold decidedRequest
    split <;> rfl
  -- an error after the change of state is the failure
  have hlost : ∀ now err,¬AllOrNothing svc v req db (.error err) (decided v req.id decidedBy note now db) := by
    intro now err h
    have hsame := congrArg ApprovalRequest.state (Option.some.inj ((hstate now).symm.trans h))
    rw [hpending] at hsame
    cases v with
    | approve | reject => cases hsame
  constructor
  · intro h
    refine .inr ?_
    have h := h zeroTime
    have hshape := carryOut_eq svc v req note
    cases hw : effectWrite svc v req note with
    | none =>
      rw [hw] at hshape
      obtain ⟨err,hshape⟩ := hshape
      rw [hshape] at h
      exact absurd h.1 (hlost zeroTime err)
    | some w =>
      rw [hw] at hshape
      obtain ⟨front,hshape⟩ := hshape
      rw [hshape] at h
      have hsame := effectWrite_same db hw noFault
      have hclean : faulty (.withinTx [w])=false := by
        by_contra hfaulty
        have hfail := h {fault := some ⟨"",none⟩} _ _ (.inr (Bool.eq_true_of_not_eq_false hfaulty)) (perform_of_not_blocked rfl)
        exact hlost zeroTime _ hfail.1
      obtain ⟨r,s,heff⟩ : ∃ r s,effect noFault (decided v req.id decidedBy note zeroTime db) (.withinTx [w])=(r,s) := ⟨_,_,rfl⟩
      have hnext := h noFault r s (.inl rfl) ((perform_of_not_blocked rfl).trans (congrArg some heff))
      rcases withinTx_one heff with ⟨rfl,hviolation,rfl⟩|⟨err,rfl,rfl⟩
      · exact ⟨(done_written hw hviolation).mp hnext.1.2,w,hw,hclean,(hsame.1 _).symm.trans hviolation⟩
      · exact absurd hnext.1 (hlost zeroTime _)
  · rintro (hsame|⟨hflags,w,hw,hclean,hfree⟩) now
    · exact absurd hsame hby
    refine (always_carryOut hw).mono ?_
    have hviolation : violation noFault (decided v req.id decidedBy note now db) w=none :=
      ((effectWrite_same db hw noFault).1 _).trans hfree
    rintro r s (⟨rfl,-,rfl⟩|⟨-,-,hviolated|hfaulty⟩)
    · refine ⟨⟨?_,(done_written hw hviolation).mpr hflags⟩,fun _ _ _ _ => rfl⟩
      rw [(effectWrite_same _ hw noFault).2.2,hstate]
      rfl
    · exact absurd hviolation hviolated
    · rw [hclean] at hfaulty
      cases hfaulty

end Front

/-- A pending edit of a profile with an approver other than its requester. -/
def sampleEdit : ApprovalRequest :=
  { id := "ar-1", kind := .profileEdit, profileID := "p", requestedBy := "alice", payload := "edit" }

def sampleTables : Db := { approvals := [sampleEdit], profiles := [{ id := "p" }] }

def sampleService : ApprovalService := { decodeProfile := fun _ => .ok { id := "p", maxTTLSeconds := 3600 } }

theorem sample_exec {v : Verdict} {r : Try Unit} {db' : Db}
    (h : (decision sampleService v "ar-1" "bob" "").run (List.replicate 5 noFault) sampleTables=some (r,db')) :
    (decision sampleService v "ar-1" "bob" "").Exec (failing fun _ => false) sampleTables r db' := by
  refine exec_of_run (fun c hc op s => .inl ?_) h
  rw [eq_of_mem_replicate hc]
  rfl

/-- A second person approves a profile edit, which changes the longest validity. -/
theorem decision_all_or_nothing_sample : Ready sampleService .approve sampleEdit "" (fun _ => false) sampleTables ∧
    ∃ db',(decision sampleService .approve "ar-1" "bob" "").Exec (failing fun _ => false) sampleTables (.ok ()) db' ∧
      AllOrNothing sampleService .approve sampleEdit sampleTables (.ok ()) db' ∧
      db'.profiles=[{ id := "p", maxTTLSeconds := 3600 }] := by
  have hready : Ready sampleService .approve sampleEdit "" (fun _ => false) sampleTables := by
    refine ⟨fun _ _ profile row hdecode hrow => ?_,_,rfl,rfl,rfl⟩
    cases hdecode
    cases hrow
    exact ⟨rfl,rfl⟩
  have hiff := @decision_all_or_nothing_iff sampleService .approve sampleEdit "bob" "" (fun _ => false) sampleTables rfl rfl
  have hrun : ∃ db',(decision sampleService .approve "ar-1" "bob" "").run (List.replicate 5 noFault) sampleTables=
      some (.ok (),db') ∧ db'.profiles=[{ id := "p", maxTTLSeconds := 3600 }] := ⟨_,rfl,rfl⟩
  obtain ⟨db',hrun,hprofiles⟩ := hrun
  exact ⟨hready,db',sample_exec hrun,(hiff.mpr (.inr hready) _ _ (sample_exec hrun)).1,hprofiles⟩

/-- A second person rejects a profile edit, nothing fails, and the call returns
an error with the request rejected. -/
theorem rejected_edit_errs : ∃ err db',(decision sampleService .reject "ar-1" "bob" "").Exec (failing fun _ => false)
    sampleTables (.error err) db' ∧ (lookup ApprovalRequest.id "ar-1" db'.approvals).map (·.state)=some .rejected := by
  have hrun : ∃ err db',(decision sampleService .reject "ar-1" "bob" "").run (List.replicate 5 noFault) sampleTables=
      some (.error err,db') ∧ (lookup ApprovalRequest.id "ar-1" db'.approvals).map (·.state)=some .rejected :=
    ⟨_,_,rfl,rfl⟩
  obtain ⟨err,db',hrun,hstate⟩ := hrun
  exact ⟨err,db',sample_exec hrun,hstate⟩

end Decisions

end Certctl.ApprovalDecisions
