import Certctl.JobProcessing

/-!
# Retries of failed jobs

The sweeps that work on jobs, fail those that waited too long or whose agent
is silent, and put failed jobs with attempts left back to pending, run side
by side. How often each job goes from failed back to pending is counted as a
history of the run. The retry compares two columns of the row that nothing
ever advances, so the count stays below the limit only while the column
happens to keep up with it.
-/

namespace Certctl.JobRetries

open AtomicProgram Prog AtomicInterleaving ControlPlaneTables ControlPlaneStore DomainRecords
open List hiding lookup
open RecordTable RenewalJobs JobProcessing

variable {allowed : String→Prop} {jobs : List Job} {job : Job} {op : Op} {id : String} {α : Type}

/-- The calls of the scheduler that touch jobs. -/
inductive Call where
  | processPendingJobs
  | processRenewalJob (job : Job)
  | processDeploymentJob (job : Job)
  /-- Fail the jobs that have waited too long. -/
  | reapTimedOutJobs (csrTTL approvalTTL : Time)
  | reapJobsWithOfflineAgents (agentTTL : Time)
  | retryFailedJobs
  | retryFailedRenewals

def program (svc : JobService) : Call→Service Unit
  | .processPendingJobs => forEffect (processPendingJobs svc)
  | .processRenewalJob job => forEffect (processRenewalJob svc.renewalService job)
  | .processDeploymentJob job => forEffect (processDeploymentJob job)
  | .reapTimedOutJobs csrTTL approvalTTL => forEffect (reapTimedOutJobs svc csrTTL approvalTTL)
  | .reapJobsWithOfflineAgents agentTTL => forEffect (reapJobsWithOfflineAgents svc agentTTL)
  | .retryFailedJobs => forEffect retryFailedJobs
  | .retryFailedRenewals => forEffect RenewalService.retryFailedJobs

def jobStatus (id : String) (db : Db) : Option JobStatus := (lookup Job.id id db.jobs).map (·.status)

def movedBack (id : String) (before after : Db) : Bool :=
  jobStatus id before=some .failed && jobStatus id after=some .pending

/-- How often each job has moved from failed back to pending. -/
def countMoves (moves : String→ℕ) (before after : Db) (id : String) : ℕ :=
  if movedBack id before after then moves id+1 else moves id

/-- The operation puts a job back to pending. -/
def resets (id : String) : Op→Bool
  | .withinTx [.updateJobStatus jobID .pending _] => jobID=id
  | _ => false

/-- The condition on steps: when a job is put back to pending, its attempts have counted the moves so far. -/
def attemptsKeepUp {ι : Type} (moves : String→ℕ) : StepCondition controlPlane ι Unit :=
  fun cfg _ op _ => ∀ job∈cfg.state.jobs,resets job.id op=true → (moves job.id : ℤ)≤job.attempts

instance {ι : Type} (moves : String→ℕ) (cfg : Config controlPlane ι Unit) (t : ι) (op : Op) (c : Choice) :
    Decidable (attemptsKeepUp moves cfg t op c) := List.decidableBAll _ _

/-- The job rows an answer contains. -/
def jobCopies : (op : Op)→Res op→List Job
  | .listJobsByStatus _,.ok jobs => jobs
  | .listTimedOutAwaitingJobs _ _,.ok jobs => jobs
  | .listJobsWithOfflineAgents _,.ok jobs => jobs
  | _,_ => []

def takeCopies (copies : List Job) (op : Op) (r : Res op) : List Job := jobCopies op r++copies

/-- The counters of two rows agree. -/
structure SameCounters (a b : Job) : Prop where
  id : a.id=b.id
  attempts : a.attempts=b.attempts
  maxAttempts : a.maxAttempts=b.maxAttempts

theorem SameCounters.trans {a b c : Job} (h : SameCounters a b) (h' : SameCounters b c) : SameCounters a c :=
  ⟨h.id.trans h'.id,h.attempts.trans h'.attempts,h.maxAttempts.trans h'.maxAttempts⟩

/-- A write of a call that keeps the counters of jobs, and puts a job back to pending only if the call has read
that it has attempts left. -/
def sparing (copies : List Job) : Write→Prop
  | .updateJob job => job.status≠.pending ∧ ∃ copy∈copies,SameCounters copy job
  | .updateJobStatus id status _ => status=.pending → ∃ copy∈copies,copy.id=id ∧ copy.attempts<copy.maxAttempts
  | _ => True

def sparesJobs : Write→Prop
  | .createJob _ => False
  | .updateJob _ => False
  | .updateJobStatus _ _ _ => False
  | .claimJobs _ => False
  | _ => True

/-- An operation of a call keeps to the rules for writes on jobs. -/
def follows (copies : List Job) : Op→Prop
  | .withinTx [w] => sparing copies w
  | .withinTx writes => ∀ w∈writes,sparesJobs w
  | _ => True

variable {r : Res op}

section Steps

variable {c : Choice} {db db' : Db}

/-- What one operation may do to the jobs table: rows keep their counters and become pending only when
allowed, and added rows are new. -/
structure JobsStep (allowed : String→Prop) (jobs jobs' : List Job) : Prop where
  keep : ∀ row∈jobs,∃ row'∈jobs',SameCounters row row'
  source : ∀ row'∈jobs',(∀ row∈jobs,row.id≠row'.id) ∨
    ∃ row∈jobs,SameCounters row row' ∧ (row'.status=.pending → row.status=.pending ∨ allowed row.id)
  keys : (jobs.map (·.id)).Nodup → (jobs'.map (·.id)).Nodup

theorem jobsStep_same (h : db'.jobs=db.jobs) : JobsStep allowed db.jobs db'.jobs := by
  rw [h]
  exact ⟨fun row hrow => ⟨row,hrow,rfl,rfl,rfl⟩,fun row hrow => .inr ⟨row,hrow,⟨rfl,rfl,rfl⟩,Or.inl⟩,fun h => h⟩

theorem jobsStep_map {f : Job→Job} (hsame : ∀ row∈jobs,SameCounters row (f row))
    (hstatus : ∀ row∈jobs,(f row).status=.pending → row.status=.pending ∨ allowed row.id) :
    JobsStep allowed jobs (jobs.map f) := by
  refine ⟨fun row hrow => ⟨f row,mem_map_of_mem hrow,hsame row hrow⟩,fun row' hrow' => ?_,fun hkeys => ?_⟩
  · obtain ⟨row,hrow,rfl⟩ := mem_map.mp hrow'
    exact .inr ⟨row,hrow,hsame row hrow,hstatus row hrow⟩
  have hids : (jobs.map f).map (·.id)=jobs.map (·.id) := by
    rw [map_map]
    exact map_congr_left fun row hrow => (hsame row hrow).id.symm
  rw [hids]
  exact hkeys

theorem jobsStep_append (hnew : ∀ row∈jobs,row.id≠job.id) : JobsStep allowed jobs (jobs++[job]) := by
  refine ⟨fun row hrow => ⟨row,mem_append_left _ hrow,rfl,rfl,rfl⟩,fun row' hrow' => ?_,
    fun hkeys => keys_append hkeys hnew⟩
  rcases mem_append_row.mp hrow' with hold|rfl
  · exact .inr ⟨row',hold,⟨rfl,rfl,rfl⟩,Or.inl⟩
  · exact .inl hnew

/-- The rows a call has read are still there, with the same counters. -/
def Known (copies jobs : List Job) : Prop := ∀ copy∈copies,∃ row∈jobs,SameCounters copy row

variable {copies : List Job}

theorem jobsStep_write {w : Write}
    (hkeys : (db.jobs.map (·.id)).Nodup) (hknown : Known copies db.jobs) (hw : sparing copies w)
    (hallowed : ∀ id errMsg,w=.updateJobStatus id .pending errMsg → allowed id) (hfree : violation c db w=none) :
    JobsStep allowed db.jobs (written c db w).jobs := by
  cases w with
  | createJob job =>
    refine jobsStep_append fun row hrow hid => ?_
    have hclash : (db.jobs.any fun old => old.id=job.id)=true := any_eq_true.mpr ⟨row,hrow,decide_eq_true hid⟩
    simp only [violation,hclash,Bool.true_or,if_true,reduceCtorEq] at hfree
  | updateJob job =>
    obtain ⟨hnot,copy,hcopy,hsame⟩ := hw
    obtain ⟨known,hmem,hcounters⟩ := hknown copy hcopy
    refine jobsStep_map (fun row hrow => ?_) fun row hrow hpending => ?_
    · split
      · rename_i hid
        have hrowknown : row=known := inj_on_of_nodup_map hkeys hrow hmem (hid.trans (hsame.id.symm.trans hcounters.id))
        refine ⟨rfl,?_,?_⟩
        · rw [hrowknown,← hcounters.attempts,hsame.attempts]
          rfl
        · rw [hrowknown,← hcounters.maxAttempts,hsame.maxAttempts]
          rfl
      · exact ⟨rfl,rfl,rfl⟩
    · split at hpending
      · exact absurd hpending hnot
      · exact .inl hpending
  | updateJobStatus id status errMsg =>
    refine jobsStep_map (fun row _ => ?_) fun row hrow hpending => ?_
    · split <;> exact ⟨rfl,rfl,rfl⟩
    split at hpending
    · rename_i hid
      have hstatus : status=.pending := hpending
      rw [hid]
      exact .inr (hallowed id errMsg (by rw [hstatus]))
    · exact .inl hpending
  | claimJobs ids =>
    refine jobsStep_map (fun row _ => ?_) fun row hrow hpending => ?_
    · split <;> exact ⟨rfl,rfl,rfl⟩
    split at hpending
    · cases hpending
    · exact .inl hpending
  | createRevocation =>
    refine jobsStep_same ?_
    simp only [written]
    split <;> rfl
  | _ => exact jobsStep_same rfl

theorem jobs_of_spares {writes : List Write} (hwrites : ∀ w∈writes,sparesJobs w)
    (h : applyWrites c db writes=.ok db') : db'.jobs=db.jobs := by
  refine applyWrites_keeps (P := fun b => b.jobs=db.jobs) (fun w hw a b ha happly => ?_) rfl h
  obtain ⟨-,rfl⟩ := applyWrite_ok happly
  have hspares := hwrites w hw
  rw [← ha]
  cases w with
  | createJob | updateJob | updateJobStatus | claimJobs => exact hspares.elim
  | createRevocation =>
    simp only [written]
    split <;> rfl
  | _ => rfl

theorem jobsStep_op (hkeys : (db.jobs.map (·.id)).Nodup) (hknown : Known copies db.jobs) (hop : follows copies op)
    (hallowed : ∀ id,resets id op=true → allowed id) (h : effect c db op=(r,db')) :
    JobsStep allowed db.jobs db'.jobs := by
  have hsnd : (effect c db op).2=db' := congrArg Prod.snd h
  cases op with
  | withinTx writes =>
    rcases withinTx_cases h with ⟨-,hall⟩|⟨err,-,rfl⟩
    · match writes,hop,hallowed,hall with
      | [],_,_,hall =>
        cases hall
        exact jobsStep_same rfl
      | [w],hop,hallowed,hall =>
        simp only [applyWrites] at hall
        split at hall
        · cases hall
        rename_i hmid
        cases hall
        obtain ⟨hfree,rfl⟩ := applyWrite_ok hmid
        refine jobsStep_write hkeys hknown hop (fun id errMsg hw => hallowed id ?_) hfree
        rw [hw]
        exact decide_eq_true rfl
      | w::w'::rest,hop,_,hall => exact jobsStep_same (jobs_of_spares hop hall)
    · exact jobsStep_same rfl
  | claimPendingJobs =>
    rcases fallible_cases h with ⟨-,rfl⟩|⟨err,-,rfl⟩
    · exact jobsStep_write hkeys hknown trivial (fun id errMsg hw => by cases hw) rfl
    · exact jobsStep_same rfl
  | decideApproval | expireStaleApprovals | semAcquire =>
    rcases fallible_cases h with ⟨-,rfl⟩|⟨err,-,rfl⟩ <;> exact jobsStep_same rfl
  | newSemaphore | semRelease | flightLoadOrStore | flightClose | flightDelete => exact jobsStep_same (hsnd ▸ rfl)
  | _ => exact jobsStep_same (congrArg Db.jobs (hsnd.symm.trans (effect_readOnly c db (by rfl))))

variable {copy : Job}

theorem mem_of_query {time : Job→Time} {selects : Job→Bool}
    (h : answer c db (orderBy c time (db.jobs.filter selects))=(.ok jobs,db')) (hcopy : copy∈jobs) :
    copy∈db.jobs := by
  rw [(answer_ok h).1,mem_orderBy] at hcopy
  exact mem_of_mem_filter hcopy

theorem mem_of_jobCopies (h : effect c db op=(r,db')) (hcopy : copy∈jobCopies op r) : copy∈db.jobs := by
  cases op with
  | listJobsByStatus | listTimedOutAwaitingJobs | listJobsWithOfflineAgents =>
    cases r with
    | error => cases hcopy
    | ok => exact mem_of_query h hcopy
  | _ => cases hcopy

theorem Known.later (hknown : Known copies jobs) {jobs' : List Job} (hstep : JobsStep allowed jobs jobs') :
    Known copies jobs' := by
  intro copy hcopy
  obtain ⟨row,hrow,hsame⟩ := hknown copy hcopy
  obtain ⟨row',hrow',hsame'⟩ := hstep.keep row hrow
  exact ⟨row',hrow',hsame.trans hsame'⟩

theorem known_step (hknown : Known copies db.jobs)
    (hstep : JobsStep allowed db.jobs db'.jobs) (h : effect c db op=(r,db')) : Known (takeCopies copies op r) db'.jobs := by
  intro copy hcopy
  rcases mem_append.mp hcopy with hnew|hold
  · exact hstep.keep copy (mem_of_jobCopies h hnew)
  · exact hknown.later hstep copy hold

end Steps

section Calls

variable {copies : List Job}

/-- Operations that keep to the rules whatever a call has read. -/
def AlwaysFollows (op : Op) : Prop := ∀ copies,follows copies op

theorem alwaysFollows_of_answersAtOnce (h : op.answersAtOnce=true) : AlwaysFollows op := by
  intro copies
  cases op with
  | withinTx => cases h
  | _ => trivial

theorem alwaysFollows_status {errMsg : String} {status : JobStatus} (h : status≠.pending) :
    AlwaysFollows (.withinTx [.updateJobStatus id status errMsg]) :=
  fun _ hpending => absurd hpending h

theorem jobOps_follows (job : Job) : JobOps AlwaysFollows job := by
  have hread : ∀ op : Op,op.answersAtOnce=true → AlwaysFollows op := fun _ => alwaysFollows_of_answersAtOnce
  refine ⟨hread,alwaysFollows_status (by decide),fun _ => alwaysFollows_status (by decide),fun cert => ?_⟩
  refine ⟨hread,fun _ => alwaysFollows_status (by decide),alwaysFollows_status (by decide),
    alwaysFollows_status (by decide),fun _ _ _ _ _ => trivial,fun _ _ => trivial,fun _ _ _ => trivial,
    fun version row _ _ w hw => ?_⟩
  rcases mem_cons.mp hw with rfl|hlast
  · trivial
  rw [mem_singleton.mp hlast]
  trivial

theorem uses_processPendingJobs_follows (svc : JobService) : (processPendingJobs svc).Uses AlwaysFollows := by
  have hwork : ∀ job,(work svc job).Uses AlwaysFollows := fun job =>
    uses_work svc (fun _ => trivial) (jobOps_follows job)
  refine uses_request (fun _ => trivial) (onAnswer fun jobs => ?_)
  dsimp only
  split
  · trivial
  split
  · refine uses_bind (uses_processPendingJobsSequential svc fun job _ _ => hwork job) fun _ => trivial
  have hfan : (boundedFanOut svc jobs svc.renewalConcurrency.toNat).Uses AlwaysFollows :=
    uses_request (fun _ => trivial) fun sem =>
      uses_dispatchJobs svc (fun _ => trivial) (fun _ => trivial) (fun _ => trivial) fun job _ _ => hwork job
  exact uses_bind hfan fun _ => trivial

abbrev KeepsRules {α : Type} (p : Service α) (copies : List Job) : Prop :=
  p.Tracked (fun _ _ => True) (fun copies op _ => follows copies op) takeCopies (fun _ _ => True) copies

theorem keepsRules_of_uses {p : Service α} (hp : p.Uses AlwaysFollows) : KeepsRules p copies :=
  tracked_of_uses (fun copies _ _ _ hop => ⟨hop copies,trivial⟩) hp trivial

/-- Operations that keep to the rules for a call that has read some rows. -/
def FollowsHaving (jobs : List Job) (op : Op) : Prop := ∀ copies,(∀ job∈jobs,job∈copies) → follows copies op

theorem keepsRules_request {op : Op} {k : Res op→Service α} (hop : follows copies op)
    (hk : ∀ r,KeepsRules (k r) (takeCopies copies op r)) : KeepsRules ((request op).bind k) copies :=
  fun r _ => ⟨hop,hk r⟩

theorem keepsRules_rows {a : α} {body : Job→Service Unit} (hbody : ∀ job∈jobs,(body job).Uses (FollowsHaving jobs)) :
    KeepsRules ((Prog.forEach jobs body).bind fun _ => (pure a : Service α)) (jobs++copies) := by
  have huses : ((Prog.forEach jobs body).bind fun _ => (pure a : Service α)).Uses (FollowsHaving jobs) :=
    uses_bind (uses_forEach jobs hbody) fun _ => trivial
  refine (tracked_of_uses (I := fun copies => ∀ job∈jobs,job∈copies) (fun copies op r hcopies hop => ?_) huses
    fun job => mem_append_left _).mono fun _ _ _ => trivial
  exact ⟨hop copies hcopies,fun job hjob => mem_append_right _ (hcopies job hjob)⟩

theorem uses_retry (hjob : job∈jobs) (hleft : ¬job.maxAttempts≤job.attempts) :
    (forEffect (updateJobStatus job.id .pending "")).Uses (FollowsHaving jobs) :=
  uses_request (fun _ hcopies _ => ⟨job,hcopies job hjob,rfl,not_le.mp hleft⟩) fun _ => trivial

theorem uses_fail (hjob : job∈jobs) (errMsg : Option String) :
    (forEffect (withinTx [.updateJob {job with status := .failed, lastError := errMsg}])).Uses (FollowsHaving jobs) := by
  have hnot : JobStatus.failed≠JobStatus.pending := by decide
  exact uses_request (fun _ hcopies => ⟨hnot,job,hcopies job hjob,rfl,rfl,rfl⟩) fun _ => trivial

theorem keepsRules_retryFailedJobs : KeepsRules retryFailedJobs copies := by
  refine keepsRules_request trivial (onAnswer fun _ => ?_)
  refine keepsRules_rows fun job hjob => ?_
  split
  · trivial
  rename_i hleft
  exact uses_retry hjob hleft

theorem keepsRules_retryFailedRenewals : KeepsRules RenewalService.retryFailedJobs copies := by
  refine keepsRules_request trivial (onAnswer fun _ => ?_)
  refine keepsRules_rows fun job hjob => ?_
  split
  · trivial
  split
  · trivial
  rename_i hleft
  exact uses_retry hjob hleft

theorem keepsRules_reapTimedOutJobs (svc : JobService) (csrTTL approvalTTL : Time) :
    KeepsRules (reapTimedOutJobs svc csrTTL approvalTTL) copies := by
  refine keepsRules_request trivial fun (now : Time) => ?_
  refine keepsRules_request trivial (onAnswer fun _ => ?_)
  refine keepsRules_rows fun job hjob => ?_
  split
  · trivial
  · exact uses_fail hjob _

theorem keepsRules_reapJobsWithOfflineAgents (svc : JobService) (agentTTL : Time) :
    KeepsRules (reapJobsWithOfflineAgents svc agentTTL) copies := by
  rw [reapJobsWithOfflineAgents]
  split
  · trivial
  refine keepsRules_request trivial fun (now : Time) => ?_
  refine keepsRules_request trivial (onAnswer fun _ => ?_)
  refine keepsRules_rows fun job hjob => ?_
  exact uses_fail hjob _

theorem keepsRules_program (svc : JobService) (call : Call) : KeepsRules (program svc call) [] := by
  have heffect : ∀ {α : Type} {p : Service α},KeepsRules p [] → KeepsRules (forEffect p) [] := by
    intro α p hp
    exact tracked_seq hp fun _ _ _ => trivial
  cases call with
  | processPendingJobs => exact heffect (keepsRules_of_uses (uses_processPendingJobs_follows svc))
  | processRenewalJob job =>
    exact heffect (keepsRules_of_uses (uses_processRenewalJob svc.renewalService (jobOps_follows job)))
  | processDeploymentJob job => exact heffect (keepsRules_of_uses (uses_processDeploymentJob (jobOps_follows job)))
  | reapTimedOutJobs csrTTL approvalTTL => exact heffect (keepsRules_reapTimedOutJobs svc csrTTL approvalTTL)
  | reapJobsWithOfflineAgents agentTTL => exact heffect (keepsRules_reapJobsWithOfflineAgents svc agentTTL)
  | retryFailedJobs => exact heffect keepsRules_retryFailedJobs
  | retryFailedRenewals => exact heffect keepsRules_retryFailedRenewals

end Calls

section Runs

variable {ι : Type} [DecidableEq ι]

/-- What holds along every run in which the attempts keep up. -/
structure RetryInv (moves : String→ℕ) (cfg : Config controlPlane ι Unit) : Prop where
  keys : (cfg.state.jobs.map (·.id)).Nodup
  bounded : ∀ job∈cfg.state.jobs,moves job.id≤job.maxAttempts.toNat
  absent : ∀ id,(∀ job∈cfg.state.jobs,job.id≠id) → moves id=0
  known : ∀ t,Known (ghost takeCopies [] t cfg.log) cfg.state.jobs

variable {db : Db}

theorem jobStatus_of_mem (hkeys : (db.jobs.map (·.id)).Nodup) (hjob : job∈db.jobs) :
    jobStatus job.id db=some job.status := by
  rw [jobStatus,lookup_of_mem hkeys hjob]
  rfl

theorem jobStatus_of_absent (h : ∀ job∈db.jobs,job.id≠id) : jobStatus id db=none := by
  rw [jobStatus,Option.map_eq_none_iff]
  exact lookup_eq_none.mpr h

variable {db' : Db}

theorem moved_allowed (hkeys : (db.jobs.map (·.id)).Nodup)
    (hstep : JobsStep allowed db.jobs db'.jobs) (hjob : job∈db.jobs) (hmoved : movedBack job.id db db'=true) :
    allowed job.id := by
  rw [movedBack,Bool.and_eq_true,decide_eq_true_eq,decide_eq_true_eq,jobStatus_of_mem hkeys hjob] at hmoved
  obtain ⟨row',hrow',hpending⟩ := Option.map_eq_some_iff.mp hmoved.2
  obtain ⟨hmem,hid⟩ := lookup_some hrow'
  rcases hstep.source row' hmem with hnew|⟨row,hrow,hsame,hallowed⟩
  · exact absurd hid.symm (hnew job hjob)
  have hrowjob : row=job := inj_on_of_nodup_map hkeys hrow hjob (hsame.id.trans hid)
  rcases hallowed hpending with hwas|hallow
  · rw [hrowjob,Option.some.inj hmoved.1] at hwas
    cases hwas
  · exact hrowjob ▸ hallow

variable {moves : String→ℕ} {copies : List Job}

theorem bounded_step (hkeys : (db.jobs.map (·.id)).Nodup) (hbounded : ∀ job∈db.jobs,moves job.id≤job.maxAttempts.toNat)
    (habsent : ∀ id,(∀ job∈db.jobs,job.id≠id) → moves id=0) (hknown : Known copies db.jobs)
    (hkeep : ∀ job∈db.jobs,resets job.id op=true → (moves job.id : ℤ)≤job.attempts)
    (hstep : JobsStep (fun id => resets id op=true ∧ ∃ copy∈copies,copy.id=id ∧ copy.attempts<copy.maxAttempts)
      db.jobs db'.jobs) (hjob : job∈db'.jobs) :
    countMoves moves db db' job.id≤job.maxAttempts.toNat := by
  rcases hstep.source job hjob with hnew|⟨row,hrow,hsame,-⟩
  · have hstay : movedBack job.id db db'=false := by
      rw [movedBack,jobStatus_of_absent hnew]
      rfl
    rw [countMoves,hstay,habsent job.id hnew]
    exact Nat.zero_le _
  have hle := hbounded row hrow
  rw [countMoves,← hsame.id,← hsame.maxAttempts]
  split
  · rename_i hmoved
    obtain ⟨hreset,copy,hcopy,hid,hleft⟩ := moved_allowed hkeys hstep hrow hmoved
    obtain ⟨known,hmem,hcounters⟩ := hknown copy hcopy
    have hsamerow : known=row := inj_on_of_nodup_map hkeys hmem hrow (hcounters.id.symm.trans hid)
    have hcount := hkeep row hrow hreset
    have hattempts := hcounters.attempts
    have hmax := hcounters.maxAttempts
    rw [hsamerow] at hattempts hmax
    omega
  · exact hle

theorem copies_of_resets (hop : follows copies op) (hreset : resets id op=true) :
    ∃ copy∈copies,copy.id=id ∧ copy.attempts<copy.maxAttempts := by
  revert hop
  unfold resets at hreset
  split at hreset
  · intro hop
    rw [← of_decide_eq_true hreset]
    exact hop rfl
  · cases hreset

/-- One step of a call that keeps to the rules keeps the invariant. -/
theorem retryInv_step {cfg : Config controlPlane ι Unit} {t : ι} {c : Choice}
    {s' : Db} {next : Service Unit} (hcfg : RetryInv moves cfg) (hok : attemptsKeepUp moves cfg t op c)
    (heffect : effect c cfg.state op=(r,s')) (hop : follows (ghost takeCopies [] t cfg.log) op) :
    RetryInv (countMoves moves cfg.state s') (cfg.advance t op r next s') := by
  have hstep : JobsStep (fun id => resets id op=true ∧
      ∃ copy∈ghost takeCopies [] t cfg.log,copy.id=id ∧ copy.attempts<copy.maxAttempts) cfg.state.jobs s'.jobs :=
    jobsStep_op hcfg.keys (hcfg.known t) hop (fun id hreset => ⟨hreset,copies_of_resets hop hreset⟩) heffect
  refine ⟨hstep.keys hcfg.keys,?_,?_,?_⟩
  · intro job hjob
    exact bounded_step hcfg.keys hcfg.bounded hcfg.absent (hcfg.known t) hok hstep hjob
  · intro id hnone
    have hbefore : ∀ job∈cfg.state.jobs,job.id≠id := by
      intro job hjob hid
      obtain ⟨row',hrow',hsame⟩ := hstep.keep job hjob
      exact hnone row' hrow' (hsame.id.symm.trans hid)
    rw [countMoves,movedBack,jobStatus_of_absent hbefore]
    exact hcfg.absent id hbefore
  intro u
  by_cases hu : u=t
  · subst hu
    simp only [Config.advance,ghost_cons_self]
    exact known_step (hcfg.known u) hstep heffect
  simp only [Config.advance,ghost_cons_of_ne (S := controlPlane) takeCopies [] (Ne.symm hu)]
  exact (hcfg.known u).later hstep

/-- In every run of the scheduler's calls in which a job is put back to pending only when its attempts have
counted the moves so far, no job moves from failed back to pending more often than it has attempts. -/
theorem retries_bounded (svc : JobService) (calls : ι→Call) {db : Db} (hkeys : (db.jobs.map (·.id)).Nodup)
    {moves : String→ℕ} {cfg : Config controlPlane ι Unit}
    (hreach : HistoryReach countMoves attemptsKeepUp
      (fun _ => 0,initial (fun t => program svc (calls t)) db) (moves,cfg)) {job : Job} (hjob : job∈cfg.state.jobs) :
    moves job.id≤job.maxAttempts.toNat := by
  have hstart : RetryInv (fun _ => 0) (initial (fun t => program svc (calls t)) db) :=
    ⟨hkeys,fun _ _ => Nat.zero_le _,fun _ _ => rfl,fun _ _ hcopy => (not_mem_nil hcopy).elim⟩
  have hpool : AllTracked (fun _ _ => True) (fun copies op _ => follows copies op) takeCopies (fun _ _ => True)
      (fun _ : ι => []) (initial (fun t => program svc (calls t)) db) := fun t => keepsRules_program svc (calls t)
  have hcan : ∀ moves,Admitted (ι := ι) (α := Unit) (fun _ _ => True) (attemptsKeepUp moves)
      (RetryInv moves) := fun _ _ _ _ _ _ _ _ _ _ => trivial
  have hinv := (history_tracked hcan (fun moves cfg t op c r s' hcfg _ hok hperform hpre k _ =>
    retryInv_step hcfg hok (effect_of_perform hperform) hpre) hstart hpool hreach).1
  exact hinv.bounded job hjob

end Runs

def sampleService : JobService where
  renewalService := {computeCertFingerprint := fun pem => pem, validateCSRAgainstProfile := fun _ _ => .ok ()}
  renewalConcurrency := 25
  claimLimit := 1000
  toLower := fun text => text
  durationText := fun _ => ""

def failedDb : Db where
  jobs := [{id := "j-1", type := .renewal, certificateID := "mc-1", status := .failed, maxAttempts := 1}]

def retryCalls : Fin 3→Call
  | 0 => .retryFailedJobs
  | 1 => .processPendingJobs
  | 2 => .retryFailedJobs

/-- How often the job moved back, and the attempts allowed to the jobs. -/
def retryView (a : (String→ℕ)×Config controlPlane (Fin 3) Unit) : ℕ×List (String×ℤ) :=
  (a.1 "j-1",a.2.state.jobs.map fun job => (job.id,job.maxAttempts))

/-- The first retry is within the limit. -/
theorem retries_bounded_first : ∃ moves cfg,
    HistoryReach countMoves attemptsKeepUp (fun _ => 0,initial (fun t => program sampleService (retryCalls t)) failedDb)
      (moves,cfg) ∧ moves "j-1"=1 ∧ ∃ job∈cfg.state.jobs,moves job.id≤job.maxAttempts.toNat := by
  have hrun : (runHistory countMoves attemptsKeepUp
      (fun _ => 0,initial (fun t => program sampleService (retryCalls t)) failedDb)
        (List.replicate 2 (0,noFault)++List.replicate 8 (1,noFault))).map retryView=some (1,[("j-1",1)]) := by decide
  obtain ⟨⟨moves,cfg⟩,hcfg,hview⟩ := Option.map_eq_some_iff.mp hrun
  simp only [retryView,Prod.mk.injEq] at hview
  obtain ⟨hmoves,hjobs⟩ := hview
  have hreach := reach_of_runHistory hcfg
  obtain ⟨job,hjob,-⟩ := mem_map.mp (hjobs ▸ mem_cons_self)
  exact ⟨moves,cfg,hreach,hmoves,job,hjob,retries_bounded sampleService retryCalls (by decide) hreach hjob⟩

/-- A job that may be tried once is put back to pending twice. -/
theorem retries_unbounded : ∃ moves cfg,
    HistoryReach countMoves (fun _ => anyStep)
      (fun _ => 0,initial (fun t => program sampleService (retryCalls t)) failedDb) (moves,cfg) ∧
      ∃ job∈cfg.state.jobs,job.maxAttempts=1 ∧ moves job.id=2 := by
  have hrun : (runHistory countMoves (fun _ => anyStep)
      (fun _ => 0,initial (fun t => program sampleService (retryCalls t)) failedDb)
        (List.replicate 2 (0,noFault)++List.replicate 8 (1,noFault)++List.replicate 2 (2,noFault))).map
          retryView=some (2,[("j-1",1)]) := by decide
  obtain ⟨⟨moves,cfg⟩,hcfg,hview⟩ := Option.map_eq_some_iff.mp hrun
  simp only [retryView,Prod.mk.injEq] at hview
  obtain ⟨hmoves,hjobs⟩ := hview
  obtain ⟨job,hjob,hrow⟩ := mem_map.mp (hjobs ▸ mem_cons_self)
  rw [Prod.mk.injEq] at hrow
  exact ⟨moves,cfg,reach_of_runHistory hcfg,job,hjob,hrow.2,hrow.1 ▸ hmoves⟩

end Certctl.JobRetries
