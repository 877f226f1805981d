import Certctl.JobProcessing
import Certctl.ProgramPaths

/-!
# Handing out pending jobs

The sweep flips pending jobs of every type to running, leaves out the
deployments that an agent is to pick up, and works on the others one after
the other or by routines that a cancelled caller no longer starts. The
agent's own claim takes pending deployments only. A run strands no job
exactly when no such deployment is within reach of the claim and the caller
is not cancelled before every claimed job has its permit.
-/

namespace Certctl.JobDispatch

open AtomicProgram AtomicInterleaving ProgramPaths ControlPlaneTables ControlPlaneStore DomainRecords Option
open List
open RecordTable JobProcessing

variable {ρ : Type} {c : Choice} {n sem : ℕ} {limit : ℤ} {job : Job} {op : Op}
  {events : Log controlPlane Unit} {jobs : List Job} {r : Try Unit} {id : String}
  {cfg : Config controlPlane Unit (Try Unit)}

/-- Pending deployments that name the agent. -/
def directJobs (agentID : String) (db : Db) : List Job :=
  db.jobs.filter fun job => job.agentID=some agentID && job.status=.pending && job.type=.deployment

/-- Pending deployments without an agent whose target belongs to the agent. -/
def fallbackJobs (agentID : String) (db : Db) : List Job :=
  db.jobs.filter fun job => job.agentID=none && job.status=.pending && job.type=.deployment &&
    db.targets.any fun target => job.targetID=some target.id && target.agentID=agentID

/-- Renewals and issuances that wait for a request of the agent. -/
def csrJobs (agentID : String) (db : Db) : List Job :=
  db.jobs.filter fun job => job.status=.awaitingCSR && (job.type=.renewal || job.type=.issuance) &&
    db.targets.any fun target => target.agentID=agentID &&
      db.certs.any fun cert => cert.id=job.certificateID && cert.targetIDs.contains target.id

/-- The claim of an agent: its pending deployments, flipped to running, then what waits for its requests. -/
def claimPendingByAgentID (c : Choice) (db : Db) (agentID : String) : Try (List Job)×Db :=
  let pendingJobs := orderBy c Job.createdAt (directJobs agentID db)++orderBy c Job.createdAt (fallbackJobs agentID db)
  fallible c db (.ok (pendingJobs.map claimedJob++orderBy c Job.createdAt (csrJobs agentID db),
    written c db (.claimJobs (pendingJobs.map (·.id)))))

def permits : (op : Op)→Res op→ℕ
  | .semAcquire _,.ok _ => 1
  | _,_ => 0

/-- A permit was refused, since the caller is cancelled. -/
def refused : (op : Op)→Res op→Bool
  | .semAcquire _,.error _ => true
  | _,_ => false

/-- The jobs that an operation flipped from pending to running. -/
def flips : (op : Op)→Res op→List Job
  | .claimPendingJobs _ _,.ok jobs => jobs
  | _,_ => []

/-- The jobs that a run flipped from pending to running. -/
def flipped (log : Log controlPlane Unit) : List Job := log.flatMap fun e => flips e.op e.res

/-- The job that an operation finds being worked on. -/
def handedID : Op→Option String
  | .logProcessingJob jobID _ _ => some jobID
  | _ => none

def Handed (log : Log controlPlane Unit) (job : Job) : Prop :=
  ∃ e∈log,e.op=.logProcessingJob job.id job.type job.certificateID

def AgentClaims (db : Db) (agentID jobID : String) : Prop :=
  ∀ c : Choice,c.fault=none → ∃ jobs db',claimPendingByAgentID c db agentID=(.ok jobs,db') ∧
    ∃ row∈jobs,row.id=jobID ∧ row.status=.running

/-- The operation asks for a permit. -/
def acquires : Op→Bool
  | .semAcquire _ => true
  | _ => false

/-- A caller that is cancelled after some permits is refused every further one, and no other. -/
def cancels (cancel : Option ℕ) (granted : ℕ) (op : Op) (c : Choice) : Prop :=
  acquires op=true → c.fault.isSome=cancel.any (·≤granted)

instance (cancel : Option ℕ) (granted : ℕ) (op : Op) (c : Choice) : Decidable (cancels cancel granted op c) :=
  inferInstanceAs (Decidable (_ → _))

/-- Runs of a caller that is cancelled after so many permits, or never. -/
def cancelledAfter (cancel : Option ℕ) : StepCondition controlPlane Unit (Try Unit) :=
  fun cfg _ op c => cancels cancel (weight permits cfg.log) op c

instance (cancel : Option ℕ) (cfg : Config controlPlane Unit (Try Unit)) (t : Unit) (op : Op) (c : Choice) :
    Decidable (cancelledAfter cancel cfg t op c) := inferInstanceAs (Decidable (cancels _ _ _ _))

/-- No job is stranded at the end of a run: what was flipped was handed out, and the
deployments of agents that were pending can be claimed by them. -/
structure NoneStranded (db : Db) (cfg : Config controlPlane Unit (Try Unit)) : Prop where
  handed : ∀ job∈flipped cfg.log,Handed cfg.log job
  claimable : ∀ job∈db.jobs,job.status=.pending → shouldSkipJob job=true →
    ∀ agentID,job.agentID=some agentID → AgentClaims cfg.state agentID job.id

def pendingJobs (db : Db) : List Job := db.jobs.filter (·.status=.pending)

/-- How many jobs a claim takes. -/
def claimCount (db : Db) (limit : ℤ) : ℕ :=
  if 0<limit then min limit.toNat (pendingJobs db).length else (pendingJobs db).length

/-- A claim may take the job: it has no limit, or fewer pending jobs are scheduled earlier. -/
def mayClaim (db : Db) (limit : ℤ) (job : Job) : Bool :=
  limit≤0 || (pendingJobs db).countP (fun other => other.scheduledAt<job.scheduledAt)<limit.toNat

/-- The condition under which no job is stranded: no deployment of an agent is within reach of the claim,
and the caller is not cancelled before each claimed job can have a permit. -/
structure AllHandedOut (svc : JobService) (cancel : Option ℕ) (db : Db) : Prop where
  serverOnly : ∀ job∈pendingJobs db,mayClaim db svc.claimLimit job=true → shouldSkipJob job=false
  inTime : 0 < svc.renewalConcurrency → ∀ k∈cancel,claimCount db svc.claimLimit≤k

section Order

/-- One row comes before another: by its time, or by the environment's order among equal times. -/
def precedes {ρ : Type} (c : Choice) (time : ρ→Time) (a b : ρ×ℕ) : Prop :=
  time a.1<time b.1 ∨ (time a.1=time b.1 ∧ c.rank a.2≤c.rank b.2)

instance {ρ : Type} (c : Choice) (time : ρ→Time) : DecidableRel (precedes c time) :=
  fun a b => inferInstanceAs (Decidable (time a.1<time b.1 ∨ (time a.1=time b.1 ∧ c.rank a.2≤c.rank b.2)))

theorem orderBy_eq (c : Choice) (time : ρ→Time) (rows : List ρ) :
    ∃ numbered : List (ρ×ℕ),orderBy c time rows=numbered.map Prod.fst ∧ numbered.Perm rows.zipIdx ∧
      numbered.Pairwise (precedes c time) := by
  have hlex (a b : ρ×ℕ) : precedes c time a b ↔
      Prod.Lex (·<·) (·≤·) (time a.1,c.rank a.2) (time b.1,c.rank b.2) := by rw [Prod.lex_def,precedes]
  have htotal : Std.Total (precedes c time (ρ := ρ)) := by
    refine ⟨fun a b => ?_⟩
    rw [hlex,hlex]
    exact total_of _ _ _
  have htrans : IsTrans (ρ×ℕ) (precedes c time) := by
    refine ⟨fun a b d hab hbd => ?_⟩
    rw [hlex] at hab hbd ⊢
    exact hab.trans hbd
  exact ⟨rows.zipIdx.insertionSort (precedes c time),rfl,perm_insertionSort _ _,
    pairwise_insertionSort (precedes c time) _⟩

theorem countP_orderBy (c : Choice) (time : ρ→Time) (rows : List ρ) (p : ρ→Bool) (j : ℕ) :
    rows.countP p=((orderBy c time rows).take j).countP p+((orderBy c time rows).drop j).countP p := by
  rw [← countP_append,take_append_drop,(perm_orderBy c time rows).countP_eq]

variable {time : ρ→Time} {rows : List ρ} {row : ρ}

/-- A row among the first of an ordered query has fewer rows with an earlier time. -/
theorem earlier_of_take (h : row∈(orderBy c time rows).take n) : rows.countP (fun other => time other<time row)<n := by
  obtain ⟨numbered,heq,-,hsorted⟩ := orderBy_eq c time rows
  rw [heq] at h
  obtain ⟨j,hj,hrow⟩ := mem_take_iff_getElem.mp h
  have hlen : j<(numbered.map Prod.fst).length := by omega
  have hnone : ((numbered.map Prod.fst).drop j).countP (fun other => time other<time row)=0 := by
    refine countP_eq_zero.mpr fun other hother => ?_
    obtain ⟨i,hi,hget⟩ := mem_drop_iff_getElem.mp hother
    rw [length_map] at hi hlen
    rw [decide_eq_true_eq,← hget,← hrow,getElem_map,getElem_map]
    rcases Nat.eq_zero_or_pos i with rfl|hpos
    · exact lt_irrefl _
    have hlater := pairwise_iff_getElem.mp hsorted j (j+i) hlen (by omega) (by omega)
    rcases hlater with hlt|⟨heq,-⟩
    · exact not_lt.mpr hlt.le
    · exact heq.not_gt
  have hsplit := countP_orderBy c time rows (fun other => time other<time row) j
  have hle : ((numbered.map Prod.fst).take j).countP (fun other => time other<time row)≤j :=
    countP_le_length.trans (length_take_le _ _)
  rw [heq] at hsplit
  omega

theorem exists_take (hrow : row∈rows) (h : rows.countP (fun other => time other<time row)<n) :
    ∃ c : Choice,c.fault=none ∧ row∈(orderBy c time rows).take n := by
  obtain ⟨i,hi,hget⟩ := getElem_of_mem hrow
  let c : Choice := {rank := fun k => if k=i then 0 else 1}
  refine ⟨c,rfl,?_⟩
  obtain ⟨numbered,heq,hperm,hsorted⟩ := orderBy_eq c time rows
  have hmem : (row,i)∈numbered := by
    refine hperm.mem_iff.mpr ?_
    rw [mem_zipIdx_iff_getElem?,getElem?_eq_getElem hi,hget]
  have hnodup : (numbered.map Prod.snd).Nodup := by
    refine (hperm.map Prod.snd).nodup_iff.mpr ?_
    rw [zipIdx_map_snd]
    exact nodup_range'
  obtain ⟨j,hj,hat⟩ := getElem_of_mem hmem
  have hearlier : ∀ other∈(numbered.map Prod.fst).take j,decide (time other<time row)=true := by
    intro other hother
    obtain ⟨k,hk,hother⟩ := mem_take_iff_getElem.mp hother
    have hklen : k<numbered.length := by omega
    have hkj : k<j := by omega
    have hbefore := pairwise_iff_getElem.mp hsorted k j hklen hj hkj
    have hother' : numbered[k].1=other := by rw [← hother,getElem_map]
    have hindex : numbered[k].2≠i := by
      intro hsame
      have hjmap : j<(numbered.map Prod.snd).length := by rwa [length_map]
      have hnumber : (numbered.map Prod.snd)[k]=(numbered.map Prod.snd)[j] := by
        rw [getElem_map,getElem_map,hat,hsame]
      have hplace := (List.Nodup.getElem_inj_iff hnodup).mp hnumber
      omega
    rw [hat] at hbefore
    simp only [precedes,hother',c,if_neg hindex,if_true] at hbefore
    rw [decide_eq_true_eq]
    exact hbefore.resolve_right (by omega)
  have hcount : j≤rows.countP (fun other => time other<time row) := by
    have hfirst : ((numbered.map Prod.fst).take j).countP (fun other => decide (time other<time row))=j := by
      rw [countP_eq_length.mpr hearlier,length_take,length_map]
      omega
    rw [countP_orderBy c time rows _ j,heq]
    omega
  rw [heq]
  refine mem_take_iff_getElem.mpr ⟨j,?_,?_⟩
  · simp only [length_map]
    omega
  · rw [getElem_map,hat]
theorem claimable_none (c : Choice) (db : Db) (limit : ℤ) : claimable c db none limit=
    if 0<limit then (orderBy c Job.scheduledAt (pendingJobs db)).take limit.toNat
    else orderBy c Job.scheduledAt (pendingJobs db) := by
  simp only [claimable,pendingJobs,all_none,Bool.and_true]

theorem length_claimable (c : Choice) (db : Db) (limit : ℤ) :
    (claimable c db none limit).length=claimCount db limit := by
  have hall := (perm_orderBy c Job.scheduledAt (pendingJobs db)).length_eq
  rw [claimable_none,claimCount]
  split
  · rw [length_take,hall]
  · exact hall

variable {db : Db}

theorem mayClaim_of_claimable (h : job∈claimable c db none limit) :
    job∈pendingJobs db ∧ mayClaim db limit job=true := by
  have hpending := mem_claimable h
  refine ⟨mem_filter.mpr ⟨hpending.1,decide_eq_true hpending.2⟩,?_⟩
  rw [claimable_none] at h
  rw [mayClaim,Bool.or_eq_true,decide_eq_true_eq,decide_eq_true_eq]
  split at h
  · exact .inr (earlier_of_take h)
  · exact .inl (by omega)

theorem exists_claimable (hjob : job∈pendingJobs db)
    (hmay : mayClaim db limit job=true) : ∃ c : Choice,c.fault=none ∧ job∈claimable c db none limit := by
  rw [mayClaim,Bool.or_eq_true,decide_eq_true_eq,decide_eq_true_eq] at hmay
  by_cases hlimit : 0<limit
  · obtain ⟨c,hfault,hmem⟩ := exists_take hjob (hmay.resolve_left (by omega))
    refine ⟨c,hfault,?_⟩
    rw [claimable_none,if_pos hlimit]
    exact hmem
  · refine ⟨noFault,rfl,?_⟩
    rw [claimable_none,if_neg hlimit]
    exact mem_orderBy.mpr hjob

theorem claimable_nodup (hkeys : (db.jobs.map (·.id)).Nodup) (c : Choice) (limit : ℤ) :
    ((claimable c db none limit).map (·.id)).Nodup := by
  have hpending : ((pendingJobs db).map (·.id)).Nodup := hkeys.sublist (filter_sublist.map _)
  have hall : ((orderBy c Job.scheduledAt (pendingJobs db)).map (·.id)).Nodup :=
    ((perm_orderBy c Job.scheduledAt (pendingJobs db)).map _).nodup_iff.mpr hpending
  rw [claimable_none]
  split
  · exact hall.sublist ((take_sublist _ _).map _)
  · exact hall

end Order

section Paths

/-- Operations that neither claim, hand out nor ask for a permit. -/
def quiet : Op→Bool
  | .claimPendingJobs _ _ => false
  | .logProcessingJob _ _ _ => false
  | .semAcquire _ => false
  | _ => true

theorem quiet_of_answersAtOnce (h : op.answersAtOnce=true) : quiet op=true := by
  cases op with
  | claimPendingJobs | logProcessingJob | semAcquire => cases h
  | _ => rfl

theorem jobOps_quiet (job : Job) : JobOps (fun op => quiet op=true) job where
  read := fun _ => quiet_of_answersAtOnce
  run := rfl
  fail := fun _ => rfl
  renew := fun _ => ⟨fun _ => quiet_of_answersAtOnce,fun _ => rfl,rfl,rfl,fun _ _ _ _ => rfl,fun _ => rfl,
    fun _ _ => rfl,fun _ _ _ => rfl⟩

theorem permits_of_quiet (h : quiet op=true) (r : Res op) : permits op r=0 := by
  cases op with
  | semAcquire => cases h
  | _ => rfl

def handedIDs (events : Log controlPlane Unit) : List String := events.filterMap fun e => handedID e.op

theorem handedIDs_of_quiet (h : ∀ e∈events,quiet e.op=true) : handedIDs events=[] := by
  refine filterMap_eq_nil_iff.mpr fun e he => ?_
  have hquiet := h e he
  cases hop : e.op with
  | logProcessingJob =>
    rw [hop] at hquiet
    cases hquiet
  | _ => rfl

variable {svc : JobService}

theorem path_work (h : Path (work svc job) events ()) :
    ∃ rest,events=⟨(),.logProcessingJob job.id job.type job.certificateID,()⟩::rest ∧ ∀ e∈rest,quiet e.op=true := by
  obtain ⟨r,before,after,rfl,hbefore,hafter⟩ := path_bind.mp h
  obtain ⟨u,rest,rfl,hrest⟩ := hbefore
  have hquiet := path_uses (uses_processByType svc (jobOps_quiet job)) hrest
  obtain ⟨rfl,-⟩ := hafter
  exact ⟨rest,append_nil _,hquiet⟩

theorem path_routine (h : Path ((work svc job).bind fun _ => semRelease sem) events ()) :
    handedIDs events=[job.id] ∧ weight permits events=0 ∧ Handed events job := by
  obtain ⟨u,before,after,rfl,hbefore,hafter⟩ := path_bind.mp h
  obtain ⟨rest,rfl,hquiet⟩ := path_work hbefore
  obtain ⟨r,after',rfl,rfl,-⟩ := hafter
  have hlast : ∀ e∈rest++[(⟨(),.semRelease sem,r⟩ : Event controlPlane Unit)],quiet e.op=true := by
    exact forall_mem_append.mpr ⟨hquiet,forall_mem_singleton.mpr rfl⟩
  refine ⟨?_,?_,⟨_,mem_cons_self,rfl⟩⟩
  · have hnone := handedIDs_of_quiet hlast
    simp only [handedIDs,cons_append,filterMap_cons,handedID] at hnone ⊢
    rw [hnone]
  · rw [cons_append,weight_cons,weight_eq_zero fun e he => permits_of_quiet (hlast e he) e.res]
    rfl

/-- What the paths of a fan-out have in common: permits are taken to hand out jobs, and all jobs
are handed out unless a permit is refused before. -/
theorem path_dispatchJobs (h : Path (dispatchJobs svc sem jobs) events ()) :
    (handedIDs events).length=weight permits events ∧ ((∀ job∈jobs,shouldSkipJob job=false → Handed events job) ∨
        ((∃ e∈events,refused e.op e.res=true) ∧ weight permits events<jobs.length)) := by
  induction jobs generalizing events with
  | nil =>
    obtain ⟨rfl,-⟩ := h
    exact ⟨rfl,.inl fun job hjob => (not_mem_nil hjob).elim⟩
  | cons job rest ih =>
    rw [dispatchJobs] at h
    split at h
    · rename_i hskip
      obtain ⟨hcount,hall|⟨hrefused,hfew⟩⟩ := ih h
      · refine ⟨hcount,.inl fun x hx hserver => ?_⟩
        rcases mem_cons.mp hx with rfl|hlater
        · rw [hskip] at hserver
          cases hserver
        · exact hall x hlater hserver
      · refine ⟨hcount,.inr ⟨hrefused,?_⟩⟩
        rw [length_cons]
        omega
    obtain ⟨r,later,rfl,hlater⟩ := h
    cases r with
    | error =>
      obtain ⟨rfl,-⟩ := hlater
      refine ⟨rfl,.inr ⟨⟨_,mem_cons_self,rfl⟩,?_⟩⟩
      exact Nat.succ_pos _
    | ok u =>
      obtain ⟨left,right,turns,hperm,hturns,hleft,hright⟩ := path_fork hlater
      obtain ⟨hone,hfree,hhanded⟩ := path_routine hleft
      have hquiet : ∀ e∈turns,quiet e.op=true := by
        intro e he
        rw [hturns e he]
        rfl
      have hweight : weight permits ((⟨(),.semAcquire sem,.ok u⟩ : Event controlPlane Unit)::later)=
          weight permits right+1 := by
        rw [weight_cons,weight_perm permits hperm,weight_append,weight_append,
          weight_eq_zero fun e he => permits_of_quiet (hquiet e he) e.res]
        simp only [permits]
        omega
      have hids : (handedIDs (⟨(),.semAcquire sem,.ok u⟩::later)).length=(handedIDs right).length+1 := by
        have hlength := (hperm.filterMap fun e => handedID e.op).length_eq
        have hnone := handedIDs_of_quiet hquiet
        simp only [handedIDs,filterMap_append,filterMap_cons,handedID,length_append] at hlength hone hnone ⊢
        rw [hlength,hone,hnone]
        simp only [length_cons,length_nil]
        omega
      have hinto : ∀ x,(∃ e∈left++right++turns,e.op=.logProcessingJob x.id x.type x.certificateID) →
          Handed (⟨(),.semAcquire sem,.ok u⟩::later) x := by
        rintro x ⟨e,he,hop⟩
        exact ⟨e,mem_cons_of_mem _ (hperm.mem_iff.mpr he),hop⟩
      obtain ⟨hcount,hrest⟩ := ih hright
      refine ⟨by rw [hids,hweight,hcount],?_⟩
      rcases hrest with hall|⟨⟨e,he,hrefused⟩,hfew⟩
      · refine .inl fun x hx hserver => hinto x ?_
        rcases mem_cons.mp hx with rfl|hlater
        · obtain ⟨e,he,hop⟩ := hhanded
          exact ⟨e,mem_append_left _ (mem_append_left _ he),hop⟩
        · obtain ⟨e,he,hop⟩ := hall x hlater hserver
          exact ⟨e,mem_append_left _ (mem_append_right _ he),hop⟩
      · have hmem : e∈left++right++turns := mem_append_left _ (mem_append_right _ he)
        refine .inr ⟨⟨e,mem_cons_of_mem _ (hperm.mem_iff.mpr hmem),hrefused⟩,?_⟩
        rw [length_cons]
        omega

/-- What follows a claim. -/
def handOut (svc : JobService) (jobs : List Job) : Service (Try Unit) :=
  if jobs.isEmpty then pure (.ok ())
  else if svc.renewalConcurrency≤0 then do
    processPendingJobsSequential svc jobs
    pure (.ok ())
  else do
    boundedFanOut svc jobs svc.renewalConcurrency.toNat
    pure (.ok ())

theorem uses_handOut {P : Op→Prop} (svc : JobService) (hnew : ∀ n,P (.newSemaphore n))
    (hacquire : ∀ sem,P (.semAcquire sem)) (hrelease : ∀ sem,P (.semRelease sem)) (hturn : P .schedule)
    (hwork : ∀ job∈jobs,shouldSkipJob job=false → (work svc job).Uses P) : (handOut svc jobs).Uses P := by
  rw [handOut]
  split
  · trivial
  split
  · exact Prog.uses_bind (uses_processPendingJobsSequential svc hwork) fun _ => trivial
  have hfan : (boundedFanOut svc jobs svc.renewalConcurrency.toNat).Uses P := uses_request (hnew _) fun sem =>
      uses_dispatchJobs svc (hacquire sem) (hrelease sem) hturn hwork
  exact Prog.uses_bind hfan fun _ => trivial

theorem path_processPendingJobs (h : Path (processPendingJobs svc) events r) :
    (∃ err,events=[⟨(),.claimPendingJobs none svc.claimLimit,.error err⟩]) ∨
      ∃ jobs rest,events=⟨(),.claimPendingJobs none svc.claimLimit,.ok jobs⟩::rest ∧ Path (handOut svc jobs) rest r := by
  obtain ⟨answer,rest,rfl,hrest⟩ := h
  cases answer with
  | error err =>
    obtain ⟨rfl,-⟩ := hrest
    exact .inl ⟨err,rfl⟩
  | ok jobs => exact .inr ⟨jobs,rest,rfl,hrest⟩

theorem uses_handOut_flips (svc : JobService) (jobs : List Job) :
    (handOut svc jobs).Uses fun op => ∀ r : Res op,flips op r=[] := by
  have hquiet : ∀ op : Op,quiet op=true → ∀ r : Res op,flips op r=[] := by
    intro op hop r
    cases op with
    | claimPendingJobs => cases hop
    | _ => rfl
  refine uses_handOut svc (fun _ _ => rfl) (fun _ _ => rfl) (fun _ _ => rfl) (fun _ => rfl) fun job _ _ => ?_
  exact uses_work svc (fun _ => rfl) ((jobOps_quiet job).mono hquiet)

variable (h : Path (handOut svc jobs) events r)
include h

theorem flips_handOut : flipped events=[] := by
  exact flatMap_eq_nil_iff.mpr fun e he => path_uses (uses_handOut_flips svc jobs) h e he e.res

theorem handedIDs_handOut (hid : id∈handedIDs events) : ∃ job∈jobs,shouldSkipJob job=false ∧ job.id=id := by
  have hnamed : (handOut svc jobs).Uses fun op =>
      ∀ id,handedID op=some id → ∃ job∈jobs,shouldSkipJob job=false ∧ job.id=id := by
    have hquiet : ∀ op : Op,quiet op=true → ∀ id,handedID op=some id → ∃ job∈jobs,shouldSkipJob job=false ∧ job.id=id := by
      intro op hop id hid
      cases op with
      | logProcessingJob => cases hop
      | _ => cases hid
    refine uses_handOut svc (by rintro _ _ ⟨⟩) (by rintro _ _ ⟨⟩) (by rintro _ _ ⟨⟩) (by rintro _ ⟨⟩)
      fun job hjob hserver => ?_
    refine uses_work svc (fun id hid => ?_) ((jobOps_quiet job).mono hquiet)
    exact ⟨job,hjob,hserver,Option.some.inj hid⟩
  obtain ⟨e,he,hop⟩ := mem_filterMap.mp hid
  exact path_uses hnamed h e he id hop

theorem path_handOut : (0 < svc.renewalConcurrency → (handedIDs events).length=weight permits events) ∧
      ((∀ job∈jobs,shouldSkipJob job=false → Handed events job) ∨
        (0 < svc.renewalConcurrency ∧ (∃ e∈events,refused e.op e.res=true) ∧ weight permits events<jobs.length)) := by
  rw [handOut] at h
  split at h
  · rename_i hempty
    obtain ⟨rfl,-⟩ := h
    rw [List.isEmpty_iff] at hempty
    subst hempty
    exact ⟨fun _ => rfl,.inl fun job hjob => (not_mem_nil hjob).elim⟩
  split at h
  · rename_i hseq
    obtain ⟨u,before,after,rfl,hbefore,rfl,-⟩ := path_bind.mp h
    refine ⟨fun hconc => absurd hconc (not_lt.mpr hseq),.inl fun job hjob hserver => ?_⟩
    obtain ⟨part,hpart,hsub⟩ := path_forEach hbefore hjob
    rw [hserver] at hpart
    obtain ⟨rest,rfl,-⟩ := path_work hpart
    exact ⟨_,mem_append_left _ (hsub _ mem_cons_self),rfl⟩
  rename_i hconc
  obtain ⟨u,before,after,rfl,⟨sem,later,rfl,hlater⟩,rfl,-⟩ := path_bind.mp h
  rw [append_nil]
  obtain ⟨hcount,hall|⟨⟨e,he,hrefused⟩,hfew⟩⟩ := path_dispatchJobs hlater
  · refine ⟨fun _ => ?_,.inl fun job hjob hserver => ?_⟩
    · rw [weight_cons,← hcount]
      exact (Nat.zero_add _).symm
    · obtain ⟨e,he,hop⟩ := hall job hjob hserver
      exact ⟨e,mem_cons_of_mem _ he,hop⟩
  · refine ⟨fun _ => ?_,.inr ⟨not_le.mp hconc,⟨e,mem_cons_of_mem _ he,hrefused⟩,?_⟩⟩
    · rw [weight_cons,← hcount]
      exact (Nat.zero_add _).symm
    · exact (Nat.zero_add _).trans_lt hfew

end Paths

variable {db' : Db}

section Cancellation

variable {cancel : Option ℕ} {db : Db}

theorem permits_step {granted : ℕ} {r : Res op} (hok : cancels cancel granted op c) (h : effect c db op=(r,db')) :
    (permits op r=0 ∨ ∀ k∈cancel,granted+permits op r≤k) ∧ (refused op r=true → ∃ k∈cancel,k≤granted) := by
  cases op with
  | semAcquire =>
    have hfault : c.fault.isSome=cancel.any (·≤granted) := hok rfl
    cases r with
    | error =>
      have hsome : c.fault.isSome=true := by
        rw [isSome_iff_ne_none]
        intro hnone
        simp only [effect,fallible,hnone] at h
        cases h
      obtain ⟨k,hk,hle⟩ := (any_eq_true _ _).mp (hfault.symm.trans hsome)
      exact ⟨.inl rfl,fun _ => ⟨k,hk,of_decide_eq_true hle⟩⟩
    | ok =>
      simp only [effect] at h
      refine ⟨.inr fun k hk => ?_,fun hrefused => by cases hrefused⟩
      have hnot : ¬k≤granted := by
        intro hle
        rw [(fallible_ok h).1,(any_eq_true _ _).mpr ⟨k,hk,decide_eq_true hle⟩] at hfault
        cases hfault
      simp only [permits]
      omega
  | _ => exact ⟨.inl rfl,fun hrefused => by cases hrefused⟩

theorem permits_le {p : Service (Try Unit)}
    (hreach : Reach (cancelledAfter cancel) (initial (fun _ => p) db) cfg) : (∀ k∈cancel,weight permits cfg.log≤k) ∧
      ((∃ e∈cfg.log,refused e.op e.res=true) → ∃ k∈cancel,k≤weight permits cfg.log) := by
  refine reach_invariant (I := fun mid => (∀ k∈cancel,weight permits mid.log≤k) ∧
    ((∃ e∈mid.log,refused e.op e.res=true) → ∃ k∈cancel,k≤weight permits mid.log)) ?_ ?_ hreach
  · exact ⟨fun k _ => Nat.zero_le k,fun ⟨e,he,_⟩ => (not_mem_nil he).elim⟩
  rintro a _ ha ⟨-,hok,hperform⟩
  obtain ⟨hle,hrefused⟩ := permits_step hok (effect_of_perform hperform)
  simp only [Config.advance,weight_cons]
  constructor
  · intro k hk
    have hbefore := ha.1 k hk
    rcases hle with hzero|hmore
    · omega
    have := hmore k hk
    omega
  · rintro ⟨e,he,hrefuse⟩
    rcases mem_cons.mp he with rfl|hold
    · obtain ⟨k,hk,hkle⟩ := hrefused hrefuse
      exact ⟨k,hk,by omega⟩
    · obtain ⟨k,hk,hkle⟩ := ha.2 ⟨e,hold,hrefuse⟩
      exact ⟨k,hk,by omega⟩

end Cancellation

section Tables

def sparesJob (id : String) : Write→Prop
  | .updateJob job => job.id≠id
  | .updateJobStatus jobID _ _ => jobID≠id
  | .claimJobs ids => id∉ids
  | _ => True

/-- An operation leaves the row of a job alone. -/
def Spares (id : String) (op : Op) : Prop := ∀ c db,∀ job∈db.jobs,job.id=id → job∈(effect c db op).2.jobs

variable {db : Db}

theorem mem_written {w : Write} (hw : sparesJob job.id w) (hjob : job∈db.jobs) : job∈(written c db w).jobs := by
  cases w with
  | createJob => exact mem_append_left _ hjob
  | updateJob | updateJobStatus => exact mem_modify.mpr (.inl ⟨hjob,Ne.symm hw⟩)
  | claimJobs =>
    refine mem_map.mpr ⟨job,hjob,if_neg ?_⟩
    rw [contains_iff_mem]
    exact hw
  | createRevocation =>
    simp only [written]
    split <;> exact hjob
  | _ => exact hjob

theorem withinTx_keeps {P : Db→Prop} {writes : List Write} (hstep : ∀ w∈writes,∀ a,P a → P (written c a w))
    (hdb : P db) : P (effect c db (.withinTx writes)).2 := by
  rcases withinTx_cases (Prod.mk.eta (p := effect c db (.withinTx writes))).symm with ⟨-,hall⟩|⟨_,-,hsame⟩
  · refine applyWrites_keeps (fun w hw a b ha happly => ?_) hdb hall
    obtain ⟨-,rfl⟩ := applyWrite_ok happly
    exact hstep w hw a ha
  · exact hsame.symm ▸ hdb

theorem spares_withinTx {writes : List Write} (h : ∀ w∈writes,sparesJob id w) : Spares id (.withinTx writes) := by
  intro c db job hjob hid
  exact withinTx_keeps (P := fun a => job∈a.jobs) (fun w hw a ha => mem_written (hid ▸ h w hw) ha) hjob

theorem spares_readOnly (hop : op.readOnly=true) : Spares id op := by
  intro c db job hjob _
  rw [effect_readOnly c db hop]
  exact hjob

theorem jobOps_spares (hid : job.id≠id) : JobOps (Spares id) job := by
  have hread : ∀ op : Op,op.answersAtOnce=true → Spares id op :=
    fun op hop => spares_readOnly (readOnly_of_answersAtOnce hop)
  have hone : ∀ w,sparesJob id w → Spares id (.withinTx [w]) :=
    fun w hw => spares_withinTx fun x hx => mem_singleton.mp hx ▸ hw
  refine ⟨hread,hone _ hid,fun _ => hone _ hid,fun cert => ?_⟩
  refine ⟨hread,fun _ => hone _ hid,hone _ hid,hone _ hid,fun _ _ _ _ => hone _ trivial,fun _ => hone _ trivial,
    fun _ _ => hone _ trivial,fun version row _ => spares_withinTx fun x hx => ?_⟩
  rcases mem_cons.mp hx with rfl|hlast
  · trivial
  rw [mem_singleton.mp hlast]
  trivial

variable {svc : JobService}

theorem spares_handOut (hid : ∀ job∈jobs,job.id≠id) : (handOut svc jobs).Uses (Spares id) := by
  refine uses_handOut svc (fun n c db job hjob _ => hjob) (fun sem c db job hjob _ => ?_)
    (fun sem c db job hjob _ => hjob) (spares_readOnly rfl) fun job hjob _ => ?_
  · refine fallible_keeps (P := fun (a : Db) => job∈a.jobs) hjob fun u db' hout => ?_
    cases hout
    exact hjob
  · exact uses_work svc (spares_readOnly rfl) (jobOps_spares (hid job hjob))

theorem effect_claimPendingJobs (h : effect c db (.claimPendingJobs none limit)=(.ok jobs,db')) :
    jobs=(claimable c db none limit).map claimedJob ∧
      db'=written c db (.claimJobs ((claimable c db none limit).map (·.id))) := by
  simp only [effect] at h
  have hout := (fallible_ok h).2
  cases hout
  exact ⟨rfl,rfl⟩

theorem along_processPendingJobs (hkeys : (db.jobs.map (·.id)).Nodup)
    (hjob : job∈db.jobs) (hnot : ∀ c,job∉claimable c db none svc.claimLimit) :
    Along (fun _ _ => True) (fun _ (s : Db) _ => job∈s.jobs) (processPendingJobs svc) db [] := by
  have hapart : ∀ c,∀ row∈claimable c db none svc.claimLimit,row.id≠job.id := by
    intro c row hrow hid
    have hsame : row=job := inj_on_of_nodup_map hkeys (mem_claimable hrow).1 hjob hid
    exact hnot c (hsame ▸ hrow)
  refine ⟨trivial,fun c r s' hperform => ?_⟩
  have heffect : effect c db (.claimPendingJobs none svc.claimLimit)=(r,s') := effect_of_perform hperform
  cases r with
  | error =>
    simp only [effect] at heffect
    rw [fallible_error heffect]
    exact hjob
  | ok jobs =>
    obtain ⟨rfl,rfl⟩ := effect_claimPendingJobs heffect
    have hstays : job∈(written c db (.claimJobs ((claimable c db none svc.claimLimit).map (·.id)))).jobs := by
      refine mem_written (fun hmem => ?_) hjob
      obtain ⟨row,hrow,hid⟩ := mem_map.mp hmem
      exact hapart c row hrow hid
    have hids : ∀ row∈(claimable c db none svc.claimLimit).map claimedJob,row.id≠job.id := by
      intro row hrow
      obtain ⟨old,hold,rfl⟩ := mem_map.mp hrow
      exact hapart c old hold
    refine Along.mono (fun _ _ _ => trivial) (fun _ _ _ hmem => hmem)
      (along_of_uses (I := fun (s : Db) _ => job∈s.jobs) ?_ (spares_handOut hids) hstays)
    intro op hop c' r' s₁ s₂ log hperform' hmem
    have hkept := hop c' s₁ job hmem rfl
    rw [effect_of_perform hperform'] at hkept
    exact hkept

theorem agentClaims_of_mem {agentID : String} (hjob : job∈db.jobs) (hpending : job.status=.pending)
    (hroute : shouldSkipJob job=true) (hagent : job.agentID=some agentID) : AgentClaims db agentID job.id := by
  intro c hfault
  have htype : job.type=.deployment := by
    rw [shouldSkipJob,Bool.and_eq_true,decide_eq_true_eq] at hroute
    exact hroute.1
  have hdirect : job∈directJobs agentID db := by
    refine mem_filter.mpr ⟨hjob,?_⟩
    simp only [hagent,hpending,htype,decide_true,Bool.and_self]
  simp only [claimPendingByAgentID,fallible,hfault]
  refine ⟨_,_,rfl,claimedJob job,?_,rfl,rfl⟩
  refine mem_append_left _ (mem_map_of_mem (mem_append_left _ ?_))
  exact mem_orderBy.mpr hdirect

end Tables

section Driving

/-- The permits taken and the jobs flipped so far. -/
def tally (g : ℕ×List Job) (op : Op) (r : Res op) : ℕ×List Job := (permits op r+g.1,flips op r++g.2)

/-- A semaphore that has permits, all of them free. -/
def AllFree (sem : ℕ) (db : Db) : Prop := ∃ others,db.semaphores[sem]?=some ⟨others+1,0⟩

/-- Operations that never wait, take no permit, flip nothing and leave the semaphores as they are. -/
structure Steady (op : Op) : Prop where
  opens : ∀ c db,blocked c db op=false
  admitted : ∀ cancel granted c,cancels cancel granted op c
  uncounted : ∀ g r,tally g op r=g
  semaphores : ∀ c db,(effect c db op).2.semaphores=db.semaphores

theorem steady_of_answersAtOnce (h : op.answersAtOnce=true) : Steady op where
  opens := not_blocked_of_answersAtOnce h
  admitted := by
    intro cancel granted c hacquire
    cases op with
    | semAcquire => cases h
    | _ => cases hacquire
  uncounted := by
    intro g r
    cases op with
    | semAcquire | claimPendingJobs => cases h
    | _ => simp only [tally,permits,flips,Nat.zero_add,nil_append]
  semaphores := fun c db => by rw [effect_readOnly c db (readOnly_of_answersAtOnce h)]

theorem steady_withinTx (writes : List Write) : Steady (.withinTx writes) where
  opens := fun _ _ => rfl
  admitted := fun _ _ _ => nofun
  uncounted := fun g r => by simp only [tally,permits,flips,Nat.zero_add,nil_append]
  semaphores := by
    intro c db
    refine withinTx_keeps (P := fun a => a.semaphores=db.semaphores) (fun w _ a ha => ?_) rfl
    rw [← ha]
    cases w with
    | createRevocation =>
      simp only [written]
      split <;> rfl
    | _ => rfl

theorem uses_work_steady (svc : JobService) (job : Job) : (work svc job).Uses Steady := by
  have hlog : Steady (.logProcessingJob job.id job.type job.certificateID) :=
    ⟨fun _ _ => rfl,fun _ _ _ => nofun,
      fun g r => by simp only [tally,permits,flips,Nat.zero_add,nil_append],fun _ _ => rfl⟩
  have hread : ∀ op : Op,op.answersAtOnce=true → Steady op := fun _ => steady_of_answersAtOnce
  refine uses_work svc hlog ⟨hread,steady_withinTx _,fun _ => steady_withinTx _,fun cert => ?_⟩
  exact ⟨hread,fun _ => steady_withinTx _,steady_withinTx _,steady_withinTx _,fun _ _ _ _ => steady_withinTx _,
    fun _ => steady_withinTx _,fun _ _ => steady_withinTx _,fun _ _ _ => steady_withinTx _⟩

variable {cancel : Option ℕ}

theorem can_steady {α : Type} {p : Service α} (hp : p.Uses Steady) (g : ℕ×List Job) (db : Db) :
    Can tally (fun g _ op c => cancels cancel g.1 op c) (fun _ g' (s : Db) => g'=g ∧ s.semaphores=db.semaphores) p g db := by
  refine can_of_uses (I := fun g' (s : Db) => g'=g ∧ s.semaphores=db.semaphores) (fun op hop g' s hs => ?_) hp ⟨rfl,rfl⟩
  obtain ⟨rfl,hsame⟩ := hs
  refine ⟨noFault,(effect noFault s op).1,(effect noFault s op).2,hop.admitted _ _ _,
    perform_of_not_blocked (hop.opens noFault s),hop.uncounted _ _,?_⟩
  rw [hop.semaphores]
  exact hsame

theorem can_turn (g : ℕ×List Job) (db : Db) :
    ∃ c r,cancels cancel g.1 .schedule c ∧ controlPlane.perform .schedule c db=some (r,db) ∧ r=true ∧
      tally g .schedule r=g :=
  ⟨noFault,true,nofun,perform_of_not_blocked rfl,rfl, by simp only [tally,permits,flips,Nat.zero_add,nil_append]⟩

theorem can_dispatchJobs (svc : JobService) {fl : List Job} {db : Db} (hfree : AllFree sem db) :
    Can tally (fun g _ op c => cancels cancel g.1 op c) (fun _ g' _ => g'.2=fl) (dispatchJobs svc sem jobs) (n,fl) db := by
  induction jobs generalizing n db with
  | nil => exact rfl
  | cons job rest ih =>
    rw [dispatchJobs]
    split
    · exact ih hfree
    obtain ⟨others,hentry⟩ := hfree
    by_cases hcancel : cancel.any (·≤n)=true
    · let c : Choice := {fault := some ⟨"context canceled",none⟩}
      have hrefuse : controlPlane.perform (.semAcquire sem) c db=some (.error ⟨"context canceled",none⟩,db) :=
        perform_of_not_blocked rfl
      exact ⟨c,.error ⟨"context canceled",none⟩,db,fun _ => hcancel.symm,hrefuse,rfl⟩
    have hpermit : blocked noFault db (.semAcquire sem)=false := by
      simp only [blocked,hasPermit,hentry,any_some,Nat.zero_lt_succ,decide_true,Bool.not_true,Bool.and_false]
    have hgrant := perform_of_not_blocked hpermit
    refine ⟨noFault,.ok (),_,fun _ => (Bool.eq_false_iff.mpr hcancel).symm,hgrant,?_⟩
    refine can_fork can_turn (can_bind ((can_steady (uses_work_steady svc job) _ _).mono ?_))
    intro u g' s' hs'
    obtain ⟨rfl,hsame⟩ := hs'
    refine ⟨noFault,(),_,(absurd · Bool.false_ne_true),perform_of_not_blocked rfl,ih ⟨others,?_⟩⟩
    have hheld : s'.semaphores[sem]?=some ⟨others+1,1⟩ := by
      rw [hsame]
      simp only [getElem?_modify,hentry,if_true]
      rfl
    simp only [getElem?_modify,hheld,if_true]
    rfl

theorem can_handOut (svc : JobService) (jobs : List Job) (n : ℕ) (fl : List Job) (db : Db) :
    Can tally (fun g _ op c => cancels cancel g.1 op c) (fun _ g' _ => g'.2=fl) (handOut svc jobs) (n,fl) db := by
  rw [handOut]
  split
  · exact rfl
  split
  · have hsteady := uses_processPendingJobsSequential svc fun job (_ : job∈jobs) _ => uses_work_steady svc job
    refine can_bind ((can_steady hsteady (n,fl) db).mono fun u g' s hs => ?_)
    exact congrArg Prod.snd hs.1
  refine can_bind ?_
  refine ⟨noFault,db.semaphores.length,_,nofun, perform_of_not_blocked rfl,?_⟩
  refine can_dispatchJobs svc ⟨svc.renewalConcurrency.toNat-1,?_⟩
  have hcapacity : svc.renewalConcurrency.toNat-1+1=svc.renewalConcurrency.toNat := by omega
  rw [hcapacity]
  exact getElem?_concat_length

theorem exists_run (svc : JobService) (cancel : Option ℕ) (db : Db) (hfault : c.fault=none) :
    ∃ cfg r,Reach (cancelledAfter cancel) (initial (fun _ => processPendingJobs svc) db) cfg ∧
      cfg.threads ()=.ret r ∧ flipped cfg.log=(claimable c db none svc.claimLimit).map claimedJob := by
  have hclaim : controlPlane.perform (.claimPendingJobs none svc.claimLimit) c db=
      some (.ok ((claimable c db none svc.claimLimit).map claimedJob),
        written c db (.claimJobs ((claimable c db none svc.claimLimit).map (·.id)))) := by
    simp only [effect,fallible,hfault]
    rfl
  have hcan : Can tally (fun g _ op c => cancels cancel g.1 op c)
      (fun _ g _ => g.2=(claimable c db none svc.claimLimit).map claimedJob)
      ((initial (fun _ : Unit => processPendingJobs svc) db).threads ()) (0,[]) db := by
    refine ⟨c,_,_,(absurd · Bool.false_ne_true),hclaim,?_⟩
    simp only [tally,append_nil]
    exact can_handOut svc _ _ _ _
  obtain ⟨cfg,r,hreach,hret,hflipped⟩ :=
    reach_of_can (fun log => (weight permits log,flipped log)) (fun op r log => rfl) hcan
  exact ⟨cfg,r,hreach,hret,hflipped⟩

end Driving

theorem along_flipped (svc : JobService) (db : Db) : Along (fun _ _ => True)
    (fun _ (_ : Db) log => flipped log=[] ∨ ∃ c,flipped log=(claimable c db none svc.claimLimit).map claimedJob)
    (processPendingJobs svc) db [] := by
  refine ⟨trivial,fun c r s' hperform => ?_⟩
  have heffect : effect c db (.claimPendingJobs none svc.claimLimit)=(r,s') := effect_of_perform hperform
  cases r with
  | error => exact .inl rfl
  | ok =>
    obtain ⟨rfl,-⟩ := effect_claimPendingJobs heffect
    refine Along.mono (fun _ _ _ => trivial) (fun _ _ log hlog => .inr ⟨c,hlog⟩)
      (along_of_uses (I := fun _ log => flipped log=(claimable c db none svc.claimLimit).map claimedJob)
        (fun op hop c' r' s₁ s₂ log _ hlog => ?_) (uses_handOut_flips svc _) ?_)
    · rw [flipped,flatMap_cons,hop r']
      exact hlog
    · exact append_nil _

theorem run_cases {svc : JobService} {cancel : Option ℕ} {db : Db}
    (hreach : Reach (cancelledAfter cancel) (initial (fun _ => processPendingJobs svc) db) cfg)
    (hret : cfg.threads ()=.ret r) :
    flipped cfg.log=[] ∨ ∃ c rest,flipped cfg.log=(claimable c db none svc.claimLimit).map claimedJob ∧
      Path (handOut svc (flipped cfg.log)) rest r ∧ weight permits cfg.log=weight permits rest ∧
      (∀ e∈rest,e∈cfg.log) ∧ ∀ e∈cfg.log,e∈rest ∨ e.op=.claimPendingJobs none svc.claimLimit := by
  have hany : Reach anyStep (initial (fun _ => processPendingJobs svc) db) cfg :=
    Reach.mono (fun _ _ _ _ _ => trivial) hreach
  have hfrom := reach_along (along_flipped svc db) hany
  rw [Config.At,hret] at hfrom
  rcases hfrom with hnone|⟨c,hclaimed⟩
  · exact .inl hnone
  rcases path_processPendingJobs (path_of_reach hreach hret) with ⟨err,hlog⟩|⟨jobs,rest,hlog,hrest⟩
  · rw [reverse_eq_iff] at hlog
    rw [hlog]
    exact .inl rfl
  rw [reverse_eq_iff,reverse_cons] at hlog
  have hsilent : flipped rest.reverse=[] := by
    refine flatMap_eq_nil_iff.mpr fun e he => ?_
    exact flatMap_eq_nil_iff.mp (flips_handOut hrest) e (mem_reverse.mp he)
  have hjobs : flipped cfg.log=jobs := by
    rw [hlog,flipped,flatMap_append]
    exact (congrArg (·++_) hsilent).trans (append_nil jobs)
  refine .inr ⟨c,rest,hclaimed,hjobs ▸ hrest,?_,fun e he => ?_,fun e he => ?_⟩
  · rw [hlog,weight_append,weight_perm permits rest.reverse_perm]
    rfl
  · rw [hlog]
    exact mem_append_left _ (mem_reverse.mpr he)
  rw [hlog,mem_append,mem_reverse,mem_singleton] at he
  exact he.imp_right (congrArg Event.op)

variable {svc : JobService} {cancel : Option ℕ} {db : Db}

theorem noneStranded_of_allHandedOut (hkeys : (db.jobs.map (·.id)).Nodup) (hcond : AllHandedOut svc cancel db)
    (hreach : Reach (cancelledAfter cancel) (initial (fun _ => processPendingJobs svc) db) cfg)
    (hret : cfg.threads ()=.ret r) : NoneStranded db cfg := by
  have hserver : ∀ c,∀ job∈claimable c db none svc.claimLimit,shouldSkipJob job=false := by
    intro c job hjob
    obtain ⟨hpending,hmay⟩ := mayClaim_of_claimable hjob
    exact hcond.serverOnly job hpending hmay
  constructor
  · intro job hjob
    rcases run_cases hreach hret with hnone|⟨c,rest,hflipped,hrest,hweight,hinto,-⟩
    · rw [hnone] at hjob
      cases hjob
    rcases (path_handOut hrest).2 with hall|⟨hconc,⟨e,he,hrefused⟩,hfew⟩
    · have hnot : shouldSkipJob job=false := by
        rw [hflipped] at hjob
        obtain ⟨old,hold,rfl⟩ := mem_map.mp hjob
        exact hserver c old hold
      obtain ⟨e,he,hop⟩ := hall job hjob hnot
      exact ⟨e,hinto e he,hop⟩
    · obtain ⟨k,hk,hle⟩ := (permits_le hreach).2 ⟨e,hinto e he,hrefused⟩
      have hcount := hcond.inTime hconc k hk
      rw [hflipped,length_map,length_claimable] at hfew
      omega
  · intro job hjob hpending hroute agentID hagent
    have hnot : ∀ c,job∉claimable c db none svc.claimLimit := by
      intro c hclaimed
      rw [hserver c job hclaimed] at hroute
      cases hroute
    have hany : Reach anyStep (initial (fun _ => processPendingJobs svc) db) cfg :=
      Reach.mono (fun _ _ _ _ _ => trivial) hreach
    have hstays := reach_along (along_processPendingJobs hkeys hjob hnot) hany
    rw [Config.At,hret] at hstays
    exact agentClaims_of_mem hstays hpending hroute hagent

theorem handed_later {rest : Log controlPlane Unit} (h : Handed cfg.log job)
    (hsplit : ∀ e∈cfg.log,e∈rest ∨ e.op=.claimPendingJobs none svc.claimLimit) : job.id∈handedIDs rest := by
  obtain ⟨e,he,hop⟩ := h
  rcases hsplit e he with hlater|hclaim
  · exact mem_filterMap.mpr ⟨e,hlater,by rw [hop]; rfl⟩
  rw [hop] at hclaim
  cases hclaim

section

variable (hkeys : (db.jobs.map (·.id)).Nodup)
  (h : ∀ cfg r,Reach (cancelledAfter cancel) (initial (fun _ => processPendingJobs svc) db) cfg → cfg.threads ()=.ret r → NoneStranded db cfg)
include hkeys h

theorem serverOnly_of_noneStranded (hjob : job∈pendingJobs db)
    (hmay : mayClaim db svc.claimLimit job=true) : shouldSkipJob job=false := by
  obtain ⟨c,hfault,hclaimed⟩ := exists_claimable hjob hmay
  obtain ⟨cfg,r,hreach,hret,hflipped⟩ := exists_run svc cancel db hfault
  have hmem : claimedJob job∈flipped cfg.log := by
    rw [hflipped]
    exact mem_map_of_mem hclaimed
  rcases run_cases hreach hret with hnone|⟨c',rest,-,hrest,-,-,hsplit⟩
  · rw [hnone] at hmem
    cases hmem
  have hid : job.id∈handedIDs rest := handed_later ((h cfg r hreach hret).handed (claimedJob job) hmem) hsplit
  obtain ⟨other,hother,hserver,hsame⟩ := handedIDs_handOut hrest hid
  rw [hflipped] at hother
  obtain ⟨row,hrow,rfl⟩ := mem_map.mp hother
  have hrowjob : row=job := inj_on_of_nodup_map hkeys (mem_claimable hrow).1 (mem_claimable hclaimed).1 hsame
  rw [← hrowjob]
  exact hserver

theorem inTime_of_noneStranded (hconc : 0 < svc.renewalConcurrency) {k : ℕ} (hk : k∈cancel) :
    claimCount db svc.claimLimit≤k := by
  obtain ⟨cfg,r,hreach,hret,hflipped⟩ := exists_run svc cancel db (rfl : noFault.fault=none)
  rcases run_cases hreach hret with hnone|⟨c',rest,-,hrest,hweight,-,hsplit⟩
  · have hzero : claimCount db svc.claimLimit=0 := by
      rw [← length_claimable noFault,← length_map claimedJob,← hflipped,hnone]
      rfl
    omega
  have hsub : (claimable noFault db none svc.claimLimit).map (·.id)⊆handedIDs rest := by
    intro id hid
    obtain ⟨row,hrow,rfl⟩ := mem_map.mp hid
    have hmem : claimedJob row∈flipped cfg.log := by
      rw [hflipped]
      exact mem_map_of_mem hrow
    exact handed_later ((h cfg r hreach hret).handed (claimedJob row) hmem) hsplit
  have hle := ((claimable_nodup hkeys noFault svc.claimLimit).subperm hsub).length_le
  have hcount := (path_handOut hrest).1 hconc
  have hbound := (permits_le hreach).1 k hk
  rw [length_map,length_claimable] at hle
  omega

end

/-- A sweep strands no job, wherever its caller is cancelled, exactly when no deployment of an agent is
within reach of its claim and the caller is not cancelled before every claimed job has its permit. -/
theorem noneStranded_iff (svc : JobService) (cancel : Option ℕ) {db : Db} (hkeys : (db.jobs.map (·.id)).Nodup) :
    (∀ cfg r,Reach (cancelledAfter cancel) (initial (fun _ => processPendingJobs svc) db) cfg →
      cfg.threads ()=.ret r → NoneStranded db cfg) ↔ AllHandedOut svc cancel db := by
  constructor
  · intro h
    exact ⟨fun job hjob hmay => serverOnly_of_noneStranded hkeys h hjob hmay,
      fun hconc k hk => inTime_of_noneStranded hkeys h hconc hk⟩
  · intro hcond cfg r hreach hret
    exact noneStranded_of_allHandedOut hkeys hcond hreach hret

/-- A job service wired as the server does, with library functions that the samples do not reach. -/
def sampleService : JobService where
  renewalService := {computeCertFingerprint := fun pem => pem, validateCSRAgainstProfile := fun _ _ => .ok ()}
  renewalConcurrency := 25
  claimLimit := 1000
  toLower := fun text => text
  durationText := fun _ => ""

def renewalDb : Db where
  jobs := [{id := "j-1", type := .renewal, certificateID := "mc-1", status := .pending}]

/-- A renewal is handed out even if the caller is cancelled right after its permit. -/
theorem noneStranded_iff_renewal : AllHandedOut sampleService (some 1) renewalDb ∧
    ∀ cfg r,Reach (cancelledAfter (some 1)) (initial (fun _ => processPendingJobs sampleService) renewalDb) cfg →
      cfg.threads ()=.ret r → NoneStranded renewalDb cfg := by
  have hcond : AllHandedOut sampleService (some 1) renewalDb := by
    refine ⟨by decide,fun _ k hk => ?_⟩
    cases hk
    decide
  have hkeys : (renewalDb.jobs.map (·.id)).Nodup := by decide
  exact ⟨hcond,(noneStranded_iff sampleService (some 1) hkeys).mpr hcond⟩

def deploymentDb : Db where
  jobs := [{
    id := "j-1", type := .deployment, certificateID := "mc-1", targetID := some "t-1", agentID := some "a-1",
    status := .pending }]

def agentJobs (db : Db) (agentID : String) : List Job := ((claimPendingByAgentID noFault db agentID).1.toOption).getD []

/-- Whether a run returned, what it flipped, what it handed out and what is left for the agent. -/
def sweepView (cfg : Config controlPlane Unit (Try Unit)) : Bool×List Job×List String×List Job :=
  ((cfg.threads ()).result?.isSome,flipped cfg.log,handedIDs cfg.log,agentJobs cfg.state "a-1")

/-- The sweep flips the deployment of an agent to running and hands it to nobody; the agent cannot claim it any more. -/
theorem deployment_stranded : (deploymentDb.jobs.map (·.id)).Nodup ∧
    ∃ cfg r,Reach (cancelledAfter none) (initial (fun _ => processPendingJobs sampleService) deploymentDb) cfg ∧
      cfg.threads ()=.ret r ∧ (∃ job∈flipped cfg.log,¬Handed cfg.log job) ∧
      ∃ job∈deploymentDb.jobs,job.status=.pending ∧ shouldSkipJob job=true ∧ job.agentID=some "a-1" ∧
        ¬AgentClaims cfg.state "a-1" job.id := by
  refine ⟨by decide,?_⟩
  have hrun : (((initial (fun _ => processPendingJobs sampleService) deploymentDb).runSchedule (cancelledAfter none)
      [((),noFault),((),noFault)]).map sweepView)=some (true,deploymentDb.jobs.map claimedJob,[],[]) := by decide
  obtain ⟨cfg,hreach,hview⟩ := reach_of_view hrun
  simp only [sweepView,Prod.mk.injEq] at hview
  obtain ⟨hdone,hflipped,hhanded,hagent⟩ := hview
  obtain ⟨r,hresult⟩ := isSome_iff_exists.mp hdone
  refine ⟨cfg,r,hreach,Prog.eq_ret_of_result? hresult,?_,?_⟩
  · refine ⟨_,by rw [hflipped]; exact mem_cons_self,fun hjob => ?_⟩
    obtain ⟨e,he,hop⟩ := hjob
    have hid := (filterMap_eq_nil_iff.mp hhanded) e he
    rw [hop] at hid
    cases hid
  refine ⟨_,mem_cons_self,rfl,by decide,rfl,fun hclaims => ?_⟩
  obtain ⟨jobs,db',hclaim,row,hrow,-,-⟩ := hclaims noFault rfl
  rw [agentJobs,hclaim] at hagent
  have hempty : jobs=[] := hagent
  rw [hempty] at hrow
  cases hrow

end Certctl.JobDispatch
