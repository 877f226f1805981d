import Certctl.RenewalTriggers

/-!
# The gates of the three ways to start a renewal

For every certificate it is worked out which of the three entry points can
insert a job for it when no repository fails, and in which status. The
request for one certificate and the bulk agree on certificates that no
approval is asked for; the sweep inserts pending jobs whatever the keygen
mode; a revoked certificate is turned away by the bulk and the sweep only.
-/

namespace Certctl.RenewalGates

open AtomicProgram Prog ControlPlaneTables ControlPlaneStore DomainRecords RecordTable
open List hiding lookup
open ApprovalRequests RenewalJobs RenewalTriggers

def insertsJob (certID : String) (status : JobStatus) : (op : Op)→Res op→Prop
  | .withinTx [.createJob job],.ok _ => job.certificateID=certID ∧ job.status=status
  | _,_ => False

/-- Some run of the call in which no repository fails inserts a job for the certificate in the status. -/
def Creates {α : Type} (p : Service α) (db : Db) (certID : String) (status : JobStatus) : Prop :=
  p.Calls faultFree (insertsJob certID status) db

def insertsNone : Op→Prop
  | .withinTx [.createJob _] => False
  | _ => True

section Rules

variable {α : Type} {db : Db} {certID : String} {status : JobStatus} {op : Op}

theorem not_insertsJob {r : Res op} (hop : insertsNone op) : ¬insertsJob certID status op r := by
  intro h
  unfold insertsJob at h
  split at h
  · exact hop
  · exact h

theorem not_creates {p : Service α} (hp : p.Uses insertsNone) : ¬Creates p db certID status :=
  not_calls_of_uses (fun _ _ hop => not_insertsJob hop) hp

variable {k : Res op→Service α}

theorem creates_request (h : Creates ((request op).bind k) db certID status) :
    ∃ c,c.fault=none ∧ (insertsJob certID status op (effect c db op).1 ∨
      Creates (k (effect c db op).1) (effect c db op).2 certID status) := by
  obtain ⟨c,r,db',hok,hperform,hcase⟩ := h
  have heffect := effect_of_perform hperform
  refine ⟨c,hok,?_⟩
  rw [heffect]
  exact hcase

theorem creates_read (hop : op.readOnly=true) (h : Creates ((request op).bind k) db certID status) :
    ∃ c,c.fault=none ∧ Creates (k (effect c db op).1) db certID status := by
  obtain ⟨c,hfault,hcase⟩ := creates_request h
  rw [effect_readOnly c db hop] at hcase
  have hnone : insertsNone op := by
    cases op with
    | withinTx => cases hop
    | _ => trivial
  exact ⟨c,hfault,hcase.resolve_left (not_insertsJob hnone)⟩

theorem creates_of_choice (c : Choice) (hfault : c.fault=none)
    (hopen : blocked c db op=false) (h : insertsJob certID status op (effect c db op).1 ∨
      Creates (k (effect c db op).1) (effect c db op).2 certID status) :
    Creates ((request op).bind k) db certID status :=
  ⟨c,(effect c db op).1,(effect c db op).2,hfault,perform_of_not_blocked hopen,h⟩

theorem creates_read_iff {R : Prop} (op : Op) {k : Res op→Service α} (hop : op.answersAtOnce=true)
    (h : ∀ c,c.fault=none → (Creates (k (effect c db op).1) db certID status ↔ R)) :
    Creates ((request op).bind k) db certID status ↔ R := by
  have hread := readOnly_of_answersAtOnce hop
  constructor
  · intro hcreates
    obtain ⟨c,hfault,hlater⟩ := creates_read hread hcreates
    exact (h c hfault).mp hlater
  · intro hr
    refine creates_of_choice noFault rfl (not_blocked_of_answersAtOnce hop _ _) (.inr ?_)
    rw [effect_readOnly noFault db hread]
    exact (h noFault rfl).mpr hr

theorem creates_write_iff {R : Prop} {write : Write} {k : Try Unit→Service α}
    (hwrite : insertsNone (.withinTx [write])) (hopen : ∀ c,violation c db write=none)
    (h : ∀ c,Creates (k (.ok ())) (written c db write) certID status ↔ R) :
    Creates ((withinTx [write]).bind k) db certID status ↔ R := by
  constructor
  · intro hcreates
    obtain ⟨c,hfault,hnow|hlater⟩ := creates_request hcreates
    · exact absurd hnow (not_insertsJob hwrite)
    rw [effect_withinTx hfault (hopen c)] at hlater
    exact (h c).mp hlater
  · intro hr
    refine creates_of_choice noFault rfl rfl (.inr ?_)
    rw [effect_withinTx rfl (hopen noFault)]
    exact (h noFault).mpr hr

variable {type : JobType} {start : JobStatus} {job : Job}

theorem exec_newJob {db' : Db} (h : (newJob certID type start none none).Exec faultFree db job db') :
    db'=db ∧ job.certificateID=certID ∧ job.status=start := by
  have hall : (newJob certID type start none none).Always faultFree
      (fun job db' => db'=db ∧ job.certificateID=certID ∧ job.status=start) db := by
    refine always_read rfl fun c _ => ?_
    refine always_read rfl fun c _ => ?_
    refine always_read rfl fun c _ => ?_
    exact ⟨rfl,rfl,rfl⟩
  exact (always_iff_exec _ _ _).mp hall job db' h

theorem createJob_free {c : Choice} (hunused : ∀ row∈db.jobs,row.id≠job.id)
    (hrow : ∃ row∈db.certs,row.id=job.certificateID) (htarget : job.targetID=none) (hagent : job.agentID=none) :
    violation c db (.createJob job)=none := by
  have hkey : (db.jobs.any fun row => row.id=job.id)=false := by
    rw [any_eq_false]
    exact fun row hmem hid => hunused row hmem (of_decide_eq_true hid)
  obtain ⟨row,hmem,hid⟩ := hrow
  have hrefs : (db.certs.any fun cert => cert.id=job.certificateID)=true :=
    any_eq_true.mpr ⟨row,hmem,decide_eq_true hid⟩
  simp only [violation,jobReferences,hkey,hrefs,htarget,hagent,Option.all_none,Bool.and_self,Bool.not_true,
    Bool.or_self,Bool.false_eq_true,if_false]

variable {jobCert : String}

theorem of_creates_newJob {k : Job→Try Unit→Service α} (hk : ∀ job r,(k job r).Uses insertsNone)
    (h : Creates ((newJob jobCert type start none none).bind fun job =>
      (withinTx [.createJob job]).bind (k job)) db certID status) : jobCert=certID ∧ start=status := by
  have hdraw : (newJob jobCert type start none none).Uses insertsNone :=
    ⟨trivial,fun _ => ⟨trivial,fun _ => ⟨trivial,fun _ => trivial⟩⟩⟩
  rcases calls_bind.mp h with hdrawing|⟨job,db',hexec,hinsert⟩
  · exact absurd hdrawing (not_creates hdraw)
  obtain ⟨-,hcert,hstart⟩ := exec_newJob hexec
  obtain ⟨c,-,hnow|hlater⟩ := creates_request hinsert
  · unfold insertsJob at hnow
    split at hnow
    · rename_i heq _
      cases heq
      exact ⟨hcert.symm.trans hnow.1,hstart.symm.trans hnow.2⟩
    · exact hnow.elim
  · exact absurd hlater (not_creates (hk job _))

theorem creates_newJob {k : Job→Try Unit→Service α} (hk : ∀ job r,(k job r).Uses insertsNone)
    (hrow : ∃ row∈db.certs,row.id=jobCert) : Creates ((newJob jobCert type start none none).bind fun job =>
      (withinTx [.createJob job]).bind (k job)) db certID status ↔ jobCert=certID ∧ start=status := by
  refine ⟨of_creates_newJob hk,?_⟩
  rintro ⟨rfl,rfl⟩
  obtain ⟨fresh,hfresh⟩ := exists_fresh (db.jobs.map (·.id)) ("job"++"-")
  refine creates_of_choice {fresh := fresh} rfl rfl (.inr ?_)
  refine creates_of_choice noFault rfl rfl (.inr ?_)
  refine creates_of_choice noFault rfl rfl (.inr ?_)
  refine creates_of_choice noFault rfl rfl (.inl ?_)
  rw [effect_withinTx rfl]
  · exact ⟨rfl,rfl⟩
  refine createJob_free (fun row hmem hid => ?_) hrow rfl rfl
  exact hfresh (mem_map.mpr ⟨row,hmem,hid⟩)

end Rules

section Trigger

variable {db : Db} {certID actor : String} {status : JobStatus} {cert : ManagedCertificate}
  {svc : CertificateService} {force : Bool}

def approvalNeeded (svc : CertificateService) (db : Db) (cert : ManagedCertificate) : Bool :=
  svc.approvalSvc.isSome && svc.profileRepo && cert.certificateProfileID≠"" &&
    (lookup CertificateProfile.id cert.certificateProfileID db.profiles).any fun profile =>
      db.readsApprovalFlag && profile.requiresApproval

def startStatus (svc : CertificateService) (db : Db) (cert : ManagedCertificate) : JobStatus :=
  if approvalNeeded svc db cert then .awaitingApproval else initialStatus svc.keygenMode

theorem total_approvalGate (svc : CertificateService) (db : Db) (cert : ManagedCertificate) :
    (approvalGate svc cert).Total faultFree (fun gate db' => db'=db ∧ gate.isSome=approvalNeeded svc db cert) db := by
  rw [approvalGate]
  split
  · rename_i hnone
    refine ⟨rfl,?_⟩
    rw [approvalNeeded,hnone]
    rfl
  rename_i hsome
  split
  · rename_i hunset
    refine ⟨rfl,?_⟩
    rcases hunset with hrepo|hempty
    · rw [Bool.not_eq_true'] at hrepo
      rw [approvalNeeded,hrepo,Bool.and_false,Bool.false_and]
      rfl
    · simp only [approvalNeeded,hempty,ne_eq,not_true_eq_false,decide_false,Bool.and_false,Bool.false_and,
        Option.isSome_none]
  rename_i hset
  rw [not_or,Bool.not_eq_true'] at hset
  refine total_read rfl (fun _ => rfl) fun c hfault => ?_
  have hneeded : approvalNeeded svc db cert=
      (lookup CertificateProfile.id cert.certificateProfileID db.profiles).any fun profile =>
        db.readsApprovalFlag && profile.requiresApproval := by
    simp only [approvalNeeded,hsome,Option.isSome_some,hset.1,hset.2,ne_eq,not_false_eq_true,decide_true,Bool.true_and]
  rw [hneeded]
  cases hprofile : lookup CertificateProfile.id cert.certificateProfileID db.profiles with
  | none =>
    simp only [effect,readRow,fallible,hfault,hprofile]
    exact ⟨rfl,rfl⟩
  | some profile =>
    simp only [effect,readRow,fallible,hfault,hprofile,Option.map_some,scanProfile]
    cases hflag : db.readsApprovalFlag && profile.requiresApproval with
    | false | true => exact ⟨rfl,hflag.symm⟩

theorem read_insertsNone (op : Op) (hop : op.answersAtOnce=true) : insertsNone op := by
  cases op with
  | withinTx => cases hop
  | _ => trivial

theorem row_of_updateCertificate {c : Choice} {row : ManagedCertificate} (hrow : row∈db.certs) :
    ∃ row'∈(written c db (.updateCertificate cert)).certs,row'.id=row.id := by
  refine ⟨if row.id=cert.id then overwriteCertificate cert row else row,mem_map_of_mem hrow,?_⟩
  split <;> rfl

theorem creates_triggerRenewal (hkeys : CertificateKeys db)
    (hcert : lookup ManagedCertificate.id certID db.certs=some cert) :
    Creates (triggerRenewal svc certID actor force) db certID status ↔
      renewalRefusal cert force=none ∧ svc.jobRepo=true ∧ status=startStatus svc db cert := by
  obtain ⟨hmem,hid⟩ := lookup_some hcert
  have hopen : ∀ c,violation c db (.updateCertificate cert.inRenewal)=none :=
    fun c => updateCertificate_free hkeys hmem rfl rfl
  have henqueue : ∀ c,Creates (enqueueRenewal svc cert.inRenewal actor)
      (written c db (.updateCertificate cert.inRenewal)) certID status ↔ status=startStatus svc db cert := by
    intro c
    have hgate := total_approvalGate svc (written c db (.updateCertificate cert.inRenewal))
      cert.inRenewal
    have hrow : ∃ row∈(written c db (.updateCertificate cert.inRenewal)).certs,
        row.id=cert.id := row_of_updateCertificate hmem
    refine calls_bind_of_total (not_creates ?_) hgate ?_
    · rw [← bind_ret (approvalGate svc _)]
      exact uses_approvalGate read_insertsNone trivial fun _ _ _ => trivial
    rintro gate db' ⟨rfl,hsome⟩
    refine (creates_newJob (fun job r => ?_) hrow).trans ?_
    · cases r with
      | error => trivial
      | ok =>
        cases gate with
        | none => trivial
        | some gate =>
          refine uses_gateJob read_insertsNone (fun _ _ => trivial) (fun _ => trivial) fun _ id decidedBy note => ?_
          exact uses_approveInternal read_insertsNone (fun _ _ _ _ _ => trivial) (fun _ => trivial) fun _ => trivial
    · rw [hsome]
      exact ⟨fun h => h.2.symm,fun h => ⟨hid,h.symm⟩⟩
  refine creates_read_iff (.getCertificate certID) rfl fun c hfault => ?_
  rw [effect_getCertificate hfault hcert]
  dsimp only
  cases renewalRefusal cert force with
  | some => exact ⟨fun h => h.elim,fun h => nomatch h.1⟩
  | none =>
    refine creates_write_iff trivial hopen fun c' => ?_
    cases svc.jobRepo with
    | false => exact ⟨fun h => h.elim,fun h => nomatch h.2.1⟩
    | true => exact (henqueue c').trans ⟨fun h => ⟨rfl,rfl,h⟩,fun h => h.2.2⟩

end Trigger

section Bulk

variable {db : Db} {certID mode : String} {status : JobStatus} {cert : ManagedCertificate}

theorem always_resolveCertificates (criteria : BulkRenewalCriteria) (db : Db) :
    (resolveCertificates criteria).Always faultFree
      (fun r db' => db'=db ∧ ∀ certs,r=.ok certs → ∀ cert∈certs,cert∈db.certs) db := by
  have hget : ∀ ids,(getCertificates ids).Always faultFree
      (fun certs db' => db'=db ∧ ∀ cert∈certs,cert∈db.certs) db := by
    intro ids
    induction ids with
    | nil => exact ⟨rfl,forall_mem_nil _⟩
    | cons id rest ih =>
      refine always_read rfl fun c hfault => ?_
      refine always_bind.mpr (ih.mono ?_)
      rintro others db' ⟨rfl,hothers⟩
      cases hfound : (effect c db' (.getCertificate id)).1 with
      | error => exact ⟨rfl,hothers⟩
      | ok =>
        have hrow := (lookup_some (readRow_fst hfound)).1
        exact ⟨rfl,forall_mem_cons.mpr ⟨hrow,hothers⟩⟩
  rw [resolveCertificates]
  split
  · refine always_bind.mpr ((hget criteria.certificateIDs).mono ?_)
    rintro certs db' ⟨rfl,hcerts⟩
    exact ⟨rfl,fun certs' hsame => by cases hsame; exact hcerts⟩
  refine always_read rfl fun c hfault => ?_
  cases hfound : (effect c db (.listCertificates _)).1 with
  | error => exact ⟨rfl,fun certs hsame => by cases hsame⟩
  | ok rows =>
    have hrows : ∀ row∈rows,row∈db.certs := by
      intro row hrow
      rw [answer_fst hfound] at hrow
      exact (mem_filter.mp (mem_orderBy.mp (mem_of_mem_take hrow))).1
    dsimp only
    split
    · exact ⟨rfl,fun certs hsame => by cases hsame; exact hrows⟩
    refine ⟨rfl,fun certs hsame => ?_⟩
    cases hsame
    exact fun row hrow => hrows row (mem_filter.mp hrow).1

/-- What is resolved comes from reads. -/
theorem resolveCertificates_insertsNone (criteria : BulkRenewalCriteria) :
    (resolveCertificates criteria).Uses insertsNone := by
  have hget : ∀ ids,(getCertificates ids).Uses insertsNone := by
    intro ids
    induction ids with
    | nil => trivial
    | cons id rest ih =>
      refine uses_request trivial fun found => ?_
      refine uses_bind ih fun others => ?_
      cases found with
      | error | ok => trivial
  rw [resolveCertificates]
  split
  · exact uses_bind (hget _) fun certs => trivial
  refine uses_request trivial (onAnswer fun _ => ?_)
  dsimp only
  split <;> trivial

theorem of_creates_bulkRenewOne {result : BulkRenewalResult}
    (h : Creates (bulkRenewOne mode result cert) db certID status) :
    bulkSkips cert.status=false ∧ cert.id=certID ∧ status=initialStatus mode := by
  rw [bulkRenewOne] at h
  split at h
  · exact h.elim
  rename_i hskip
  obtain ⟨c,-,hnow|hlater⟩ := creates_request h
  · exact absurd hnow (not_insertsJob trivial)
  revert hlater
  cases (effect c db (.withinTx [.updateCertificate cert.inRenewal])).1 with
  | error => exact fun hlater => hlater.elim
  | ok =>
    intro hlater
    obtain ⟨hcert,hstart⟩ := of_creates_newJob (fun job r => by cases r <;> trivial) hlater
    exact ⟨Bool.eq_false_iff.mpr hskip,hcert,hstart.symm⟩

theorem of_creates_bulkRenew {criteria : BulkRenewalCriteria} (hkeys : CertificateKeys db)
    (h : Creates (bulkRenew mode criteria) db certID status) :
    ∃ cert,lookup ManagedCertificate.id certID db.certs=some cert ∧ bulkSkips cert.status=false ∧
      status=initialStatus mode := by
  rw [bulkRenew] at h
  split at h
  · exact h.elim
  rcases calls_bind.mp h with hresolving|⟨r,db',hexec,hlater⟩
  · exact absurd hresolving (not_creates (resolveCertificates_insertsNone criteria))
  obtain ⟨rfl,hrows⟩ := (always_iff_exec _ _ _).mp (always_resolveCertificates criteria db) r db' hexec
  cases r with
  | error => exact hlater.elim
  | ok certs =>
    rcases calls_bind.mp hlater with hloop|⟨result,db₂,-,hend⟩
    · obtain ⟨before,item,rest,hcerts,acc,db₂,-,hone⟩ := calls_foldEach.mp hloop
      obtain ⟨hskip,rfl,hstatus⟩ := of_creates_bulkRenewOne hone
      have hitem : item∈db'.certs := by
        refine hrows certs rfl item ?_
        rw [hcerts]
        exact mem_append_right _ mem_cons_self
      exact ⟨item,lookup_of_mem hkeys.ids hitem,hskip,hstatus⟩
    · exact hend.elim

theorem creates_bulkRenew (hkeys : CertificateKeys db)
    (hcert : lookup ManagedCertificate.id certID db.certs=some cert) (hskip : bulkSkips cert.status=false) :
    Creates (bulkRenew mode {certificateIDs := [certID]}) db certID (initialStatus mode) := by
  obtain ⟨hmem,hid⟩ := lookup_some hcert
  have hread : controlPlane.perform (.getCertificate certID) noFault db=some (.ok cert,db) :=
    congrArg some (effect_getCertificate rfl hcert)
  have hresolve : (resolveCertificates {certificateIDs := [certID]}).Exec faultFree db (.ok [cert]) db :=
    ⟨noFault,.ok cert,db,rfl,hread,rfl,rfl⟩
  refine calls_bind.mpr (.inr ⟨_,_,hresolve,?_⟩)
  refine calls_bind.mpr (.inl ?_)
  refine calls_foldEach.mpr ⟨[],cert,[],rfl,_,_,⟨rfl,rfl⟩,?_⟩
  rw [bulkRenewOne,hskip]
  refine creates_of_choice noFault rfl rfl (.inr ?_)
  have hopen : violation noFault db (.updateCertificate cert.inRenewal)=none :=
    updateCertificate_free hkeys hmem rfl rfl
  rw [effect_withinTx rfl hopen]
  exact (creates_newJob (fun job r => by cases r <;> trivial) (row_of_updateCertificate (c := noFault) hmem)).mpr
    ⟨hid,rfl⟩

end Bulk

section Sweep

variable {db : Db} {certID : String} {status : JobStatus} {cert : ManagedCertificate}

def noActiveRenewal (db : Db) (certID : String) : Bool :=
  db.jobs.all fun job => job.certificateID≠certID || !activeRenewal job

def sweepEligible (db : Db) (cert : ManagedCertificate) : Bool :=
  !sweepSkips cert.status && db.issuers.contains cert.issuerID && noActiveRenewal db cert.id

def sparesJobs (certID : String) : Op→Prop
  | .withinTx [.updateCertificate _] => True
  | .withinTx [.createJob job] => job.certificateID≠certID
  | op => op.answersAtOnce=true

/-- Nothing of the certificate changed. -/
structure Spared (certID : String) (db db' : Db) : Prop where
  issuers : db'.issuers=db.issuers
  jobs : ∀ job,job.certificateID=certID → (job∈db'.jobs ↔ job∈db.jobs)
  row : (∃ row∈db.certs,row.id=certID) → ∃ row∈db'.certs,row.id=certID

theorem read_sparesJobs (op : Op) (hop : op.answersAtOnce=true) : sparesJobs certID op := by
  cases op with
  | withinTx => cases hop
  | _ => exact hop

variable {op : Op}

/-- Each such operation leaves it as it is. -/
theorem spared_of_perform (hop : sparesJobs certID op) {start db' : Db} {c : Choice} {r : Res op}
    (hperform : controlPlane.perform op c db=some (r,db')) (h : Spared certID start db) : Spared certID start db' := by
  have heffect := effect_of_perform hperform
  unfold sparesJobs at hop
  split at hop
  · rcases withinTx_one heffect with ⟨-,-,rfl⟩|⟨err,-,rfl⟩
    · refine ⟨h.issuers,h.jobs,fun hrow => ?_⟩
      obtain ⟨old,hold,rfl⟩ := h.row hrow
      exact row_of_updateCertificate hold
    · exact h
  · rcases withinTx_one heffect with ⟨-,-,rfl⟩|⟨err,-,rfl⟩
    · refine ⟨h.issuers,fun other hother => ?_,h.row⟩
      rw [← h.jobs other hother]
      refine mem_append.trans ⟨fun hcase => hcase.resolve_right fun hnew => ?_,Or.inl⟩
      rw [mem_singleton.mp hnew] at hother
      exact hop hother
    · exact h
  · have hsame := effect_readOnly c db (readOnly_of_answersAtOnce hop)
    rw [heffect] at hsame
    rw [show db'=db from hsame]
    exact h

theorem total_updateCertExpiryStatus (certID : String) (cert : ManagedCertificate) (untilExpiry : Time) (db : Db) :
    (updateCertExpiryStatus cert untilExpiry).Total faultFree
      (fun moved db' => moved.id=cert.id ∧ moved.issuerID=cert.issuerID ∧ Spared certID db db') db := by
  have hsame : Spared certID db db := ⟨rfl,fun _ _ => Iff.rfl,fun hrow => hrow⟩
  have hupdate : ∀ row : ManagedCertificate,∀ c,Spared certID db (effect c db (.withinTx [.updateCertificate row])).2 :=
    fun row c => @spared_of_perform db certID (.withinTx [.updateCertificate row]) trivial db _ c _ rfl hsame
  unfold updateCertExpiryStatus
  generalize (if untilExpiry≤0 then CertificateStatus.expired else .expiring)=newStatus
  dsimp only
  split
  · exact ⟨rfl,rfl,hsame⟩
  split
  · exact ⟨rfl,rfl,hsame⟩
  refine total_request (fun _ => rfl) fun c _ => ?_
  exact ⟨rfl,rfl,hupdate _ c⟩

theorem sweepOne_spares (hne : cert.id≠certID) : (sweepOne cert).Uses (sparesJobs certID) := by
  refine uses_sweepOne read_sparesJobs (fun _ _ => trivial) fun new _ _ hcert => ?_
  change new.certificateID≠certID
  rw [hcert]
  exact hne

theorem total_hasActiveRenewal (certID : String) (db : Db) :
    (hasActiveRenewal certID).Total faultFree (fun b db' => db'=db ∧ b=!noActiveRenewal db certID) db := by
  refine total_read rfl (fun _ => rfl) fun c hfault => ?_
  have hvalue : (effect c db (.listJobsByCertificate certID)).1=
      .ok (orderBy c (fun job => -job.createdAt) (db.jobs.filter (·.certificateID=certID))) := by
    simp only [effect,answer,fallible,hfault]
    rfl
  rw [hvalue]
  refine ⟨rfl,?_⟩
  rw [Bool.eq_iff_iff,any_eq_true,Bool.not_eq_true',noActiveRenewal,all_eq_false]
  simp only [mem_orderBy,mem_filter,Bool.or_eq_true,Bool.not_eq_true',decide_eq_true_eq]
  constructor
  · rintro ⟨job,⟨hmem,hcert⟩,hactive⟩
    refine ⟨job,hmem,?_⟩
    rintro (hother|hinactive)
    · exact hother hcert
    rw [hactive] at hinactive
    cases hinactive
  · rintro ⟨job,hmem,hboth⟩
    rw [not_or,not_not,Bool.not_eq_false] at hboth
    exact ⟨job,⟨hmem,hboth.1⟩,hboth.2⟩

theorem renewalNotSuggested_reads (cert : ManagedCertificate) : Prompt (renewalNotSuggested cert) := by
  refine uses_request rfl (onAnswer fun version => ?_)
  dsimp only
  split
  · trivial
  refine uses_request rfl (onAnswer fun window => ?_)
  cases window with
  | none => trivial
  | some => exact uses_request rfl fun _ => trivial

theorem exists_suggested (cert : ManagedCertificate) (db : Db) :
    (renewalNotSuggested cert).Exec faultFree db false db := by
  have hperform : ∀ op : Op,op.readOnly=true → blocked noFault db op=false →
      controlPlane.perform op noFault db=some ((effect noFault db op).1,db) := by
    intro op hop hopen
    have hpair : effect noFault db op=((effect noFault db op).1,db) := Prod.ext rfl (effect_readOnly noFault db hop)
    exact (perform_of_not_blocked hopen).trans (congrArg some hpair)
  refine ⟨noFault,(effect noFault db (.getLatestVersion cert.id)).1,db,rfl,hperform _ rfl rfl,?_⟩
  cases (effect noFault db (.getLatestVersion cert.id)).1 with
  | error => exact ⟨rfl,rfl⟩
  | ok version =>
    change Prog.Exec faultFree (if version.pemChain="" then _ else _) db false db
    split
    · exact ⟨rfl,rfl⟩
    · exact ⟨noFault,.ok none,db,rfl,hperform (.getRenewalInfo cert.issuerID version.pemChain) rfl rfl,rfl,rfl⟩

theorem creates_sweepRenew (hrow : ∃ row∈db.certs,row.id=cert.id) : Creates (sweepRenew cert) db certID status ↔
      (db.issuers.contains cert.issuerID=true ∧ noActiveRenewal db cert.id=true) ∧ cert.id=certID ∧
        JobStatus.pending=status := by
  have henqueue : Creates (sweepEnqueue cert) db certID status ↔ cert.id=certID ∧ JobStatus.pending=status := by
    refine creates_newJob (fun job r => ?_) hrow
    cases r with
    | error => trivial
    | ok => exact ⟨trivial,fun _ => trivial⟩
  have hactive : Creates (do if ← hasActiveRenewal cert.id then pure () else sweepEnqueue cert) db certID status ↔
      noActiveRenewal db cert.id=true ∧ cert.id=certID ∧ JobStatus.pending=status := by
    refine calls_bind_of_total (not_creates ?_) (total_hasActiveRenewal cert.id db) ?_
    · refine uses_request trivial (onAnswer fun _ => ?_)
      trivial
    rintro b db' ⟨rfl,rfl⟩
    cases noActiveRenewal db' cert.id with
    | false => exact ⟨fun h => h.elim,fun h => absurd h.1 Bool.false_ne_true⟩
    | true => exact henqueue.trans ⟨fun h => ⟨rfl,h⟩,fun h => h.2⟩
  refine creates_read_iff (.getIssuer cert.issuerID) rfl fun c _ => ?_
  cases hknown : db.issuers.contains cert.issuerID with
  | false =>
    simp only [effect,hknown]
    exact ⟨fun h => h.elim,fun h => absurd h.1.1 Bool.false_ne_true⟩
  | true =>
    simp only [effect,hknown]
    refine ⟨fun hlater => ?_,fun h => ?_⟩
    · rcases calls_bind.mp hlater with hasking|⟨later,db',hexec,hrest⟩
      · exact absurd hasking (not_calls_of_uses
          (fun op r hop => not_insertsJob (read_insertsNone op hop)) (renewalNotSuggested_reads cert))
      rw [exec_reads (renewalNotSuggested_reads cert) hexec] at hrest
      cases later with
      | true => exact hrest.elim
      | false =>
        have hdone := hactive.mp hrest
        exact ⟨⟨trivial,hdone.1⟩,hdone.2⟩
    · exact calls_bind.mpr (.inr ⟨false,db,exists_suggested cert db,hactive.mpr ⟨h.1.2,h.2⟩⟩)

theorem sweepEligible_congr {db' : Db} (h : Spared cert.id db db') : sweepEligible db' cert=sweepEligible db cert := by
  have hnone : noActiveRenewal db' cert.id=noActiveRenewal db cert.id := by
    rw [Bool.eq_iff_iff,noActiveRenewal,noActiveRenewal,all_eq_true,all_eq_true]
    have hone : ∀ a b : Db,(∀ job : Job,job.certificateID=cert.id → job∈b.jobs → job∈a.jobs) →
        (∀ job∈a.jobs,(decide (job.certificateID≠cert.id) || !activeRenewal job)=true) →
          ∀ job∈b.jobs,(decide (job.certificateID≠cert.id) || !activeRenewal job)=true := by
      intro a b hsub hall job hjob
      by_cases hcert : job.certificateID=cert.id
      · exact hall job (hsub job hcert hjob)
      · rw [decide_eq_true hcert,Bool.true_or]
    exact ⟨hone db' db fun job hcert => (h.jobs job hcert).mpr,hone db db' fun job hcert => (h.jobs job hcert).mp⟩
  rw [sweepEligible,h.issuers,hnone,sweepEligible]

theorem creates_sweepOne (hrow : ∃ row∈db.certs,row.id=cert.id) : Creates (sweepOne cert) db certID status ↔
      sweepEligible db cert=true ∧ cert.id=certID ∧ JobStatus.pending=status := by
  rw [sweepOne]
  cases hskip : sweepSkips cert.status with
  | true =>
    refine ⟨fun h => h.elim,fun h => ?_⟩
    rw [sweepEligible,hskip] at h
    exact absurd h.1 Bool.false_ne_true
  | false =>
    refine creates_read_iff .timeNow rfl fun c _ => ?_
    refine calls_bind_of_total (not_creates ?_) (total_updateCertExpiryStatus cert.id cert _ db) ?_
    · rw [← bind_ret (updateCertExpiryStatus _ _)]
      exact uses_updateCertExpiryStatus (fun _ _ => trivial) fun _ _ => trivial
    rintro moved db' ⟨hid,hissuer,hspared⟩
    refine creates_read_iff (.sendThresholdAlerts _ _) rfl fun c' _ => ?_
    have hrow' : ∃ row∈db'.certs,row.id=moved.id := by
      rw [hid]
      exact hspared.row hrow
    refine (creates_sweepRenew hrow').trans ?_
    have hsame := sweepEligible_congr hspared
    rw [sweepEligible,sweepEligible,hskip,Bool.not_false,Bool.true_and,Bool.true_and] at hsame
    rw [sweepEligible,hskip,Bool.not_false,Bool.true_and,← hsame,hid,hissuer,Bool.and_eq_true]

theorem sparesJobs_performs (hop : sparesJobs certID op) (db : Db) :
    ∃ c r db',faultFree op c db ∧ controlPlane.perform op c db=some (r,db') := by
  have hopen : blocked noFault db op=false := by
    unfold sparesJobs at hop
    split at hop
    · rfl
    · rfl
    · exact not_blocked_of_answersAtOnce hop noFault db
  exact ⟨noFault,(effect noFault db op).1,(effect noFault db op).2,rfl,perform_of_not_blocked hopen⟩

theorem ids_ne_of_nodup {before rest : List ManagedCertificate}
    (h : ((before++cert::rest).map (·.id)).Nodup) : ∀ other∈before,other.id≠cert.id := by
  intro other hother hid
  rw [map_append,nodup_append] at h
  exact h.2.2 other.id (mem_map_of_mem hother) cert.id (mem_map_of_mem mem_cons_self) hid

theorem creates_checkExpiringCertificates (hkeys : CertificateKeys db)
    (hcert : lookup ManagedCertificate.id certID db.certs=some cert) :
    Creates checkExpiringCertificates db certID status ↔ sweepEligible db cert=true ∧ JobStatus.pending=status := by
  obtain ⟨hmem,hid⟩ := lookup_some hcert
  have hquery : ∀ (c : Choice) (before : Time),c.fault=none → (effect c db (.getExpiringCertificates before)).1=
      .ok (orderBy c ManagedCertificate.expiresAt
        (db.certs.filter fun cert => cert.expiresAt<before && cert.status≠.archived)) := by
    intro c before hfault
    simp only [effect,answer,fallible,hfault]
    rfl
  -- the certificates that the sweep takes up before an item are others, and leave its jobs alone
  have hne : ∀ {c : Choice} {time : Time} {before item rest},orderBy c ManagedCertificate.expiresAt
      (db.certs.filter fun cert => cert.expiresAt<time && cert.status≠.archived)=before++item::rest →
        ∀ other∈before,other.id≠item.id := by
    intro c time before item rest hitems
    have hnodup : ((before++item::rest).map (·.id)).Nodup := by
      rw [← hitems]
      exact ((perm_orderBy c _ _).map ManagedCertificate.id).nodup_iff.mpr (hkeys.ids.sublist (filter_sublist.map _))
    exact ids_ne_of_nodup hnodup
  have hbody : ∀ before : List ManagedCertificate,∀ id,(∀ other∈before,other.id≠id) →
      (Prog.foldEach before () fun _ item => sweepOne item).Uses (sparesJobs id) :=
    fun before id hne => uses_foldEach (fun item hitem _ => sweepOne_spares (hne item hitem)) ()
  have hkept : ∀ {before : List ManagedCertificate} {id u db₃},(∀ other∈before,other.id≠id) →
      (Prog.foldEach before () fun _ item => sweepOne item).Exec faultFree db u db₃ → Spared id db db₃ :=
    fun hne hexec => exec_keeps (fun op hop c r s s' hperform hs => spared_of_perform hop hperform hs)
      (hbody _ _ hne) hexec ⟨rfl,fun _ _ => Iff.rfl,fun hrow => hrow⟩
  constructor
  · intro h
    obtain ⟨c₁,-,h₁⟩ := creates_read rfl h
    obtain ⟨c₂,hfault,h₂⟩ := creates_read rfl h₁
    rw [hquery c₂ _ hfault] at h₂
    rcases calls_bind.mp h₂ with hloop|⟨u,db₃,-,hend⟩
    · rw [forEach_eq_foldEach] at hloop
      obtain ⟨before,item,rest,hitems,acc,db₃,hexec,hone⟩ := calls_foldEach.mp hloop
      have hitem : item∈db.certs := by
        have hin : item∈before++item::rest := mem_append_right _ mem_cons_self
        rw [← hitems,mem_orderBy] at hin
        exact (mem_filter.mp hin).1
      have hspared : Spared item.id db db₃ := hkept (hne hitems) hexec
      obtain ⟨heligible,hitemid,hstatus⟩ := (creates_sweepOne (hspared.row ⟨item,hitem,rfl⟩)).mp hone
      have hsame : item=cert := inj_on_of_nodup_map hkeys.ids hitem hmem (hitemid.trans hid.symm)
      rw [sweepEligible_congr hspared,hsame] at heligible
      exact ⟨heligible,hstatus⟩
    · exact hend.elim
  · rintro ⟨heligible,hstatus⟩
    refine creates_of_choice {now := cert.expiresAt} rfl rfl (.inr ?_)
    refine creates_of_choice noFault rfl rfl (.inr ?_)
    have hlisted : cert∈orderBy noFault ManagedCertificate.expiresAt
        (db.certs.filter fun row => row.expiresAt<cert.expiresAt+31*day && row.status≠.archived) := by
      rw [mem_orderBy,mem_filter,Bool.and_eq_true,decide_eq_true_eq,decide_eq_true_eq]
      refine ⟨hmem,?_,?_⟩
      · exact Int.lt_add_of_pos_right _ (by decide)
      intro harchived
      rw [sweepEligible,harchived] at heligible
      exact absurd heligible Bool.false_ne_true
    obtain ⟨before,rest,hitems⟩ := append_of_mem hlisted
    obtain ⟨u,db₃,hexec⟩ : ∃ u db₃,(Prog.foldEach before () fun _ item => sweepOne item).Exec faultFree db u db₃ :=
      exists_exec_of_uses (fun op hop s => sparesJobs_performs hop s) (hbody before cert.id (hne hitems)) db
    have hspared : Spared cert.id db db₃ := hkept (hne hitems) hexec
    refine calls_bind.mpr (.inl ?_)
    rw [forEach_eq_foldEach]
    refine calls_foldEach.mpr ⟨before,cert,rest,hitems,u,db₃,hexec,?_⟩
    refine (creates_sweepOne (hspared.row ⟨cert,hmem,rfl⟩)).mpr ⟨?_,hid,hstatus⟩
    rw [sweepEligible_congr hspared]
    exact heligible

end Sweep

section Gates

def requiresApproval (db : Db) (cert : ManagedCertificate) : Bool :=
  cert.certificateProfileID≠"" &&
    (lookup CertificateProfile.id cert.certificateProfileID db.profiles).any (·.requiresApproval)

def certificateService (approval : ApprovalService) (keygenMode : String) : CertificateService where
  approvalSvc := some approval
  keygenMode := keygenMode

/-- An entry point inserts a job for the certificate only in the one status in which a
renewal on request inserts it. -/
def SameGate {α : Type} (p : Service α) (approval : ApprovalService) (keygenMode actor : String) (db : Db)
    (certID : String) : Prop :=
  ∀ status,Creates p db certID status →
    ∀ status',Creates (triggerRenewal (certificateService approval keygenMode) certID actor false) db certID status' ↔
      status'=status

/-- None of the three entry points inserts a job for the certificate in the status. -/
structure NoneCreates (approval : ApprovalService) (keygenMode actor : String) (db : Db) (certID : String)
    (status : JobStatus) : Prop where
  trigger : ¬Creates (triggerRenewal (certificateService approval keygenMode) certID actor false) db certID status
  bulk : ∀ criteria : BulkRenewalCriteria,criteria.certificateIDs.contains certID=true →
    ¬Creates (bulkRenew keygenMode criteria) db certID status
  sweep : ¬Creates checkExpiringCertificates db certID status

/-- All three entry points apply the same gate to the certificate: bulk and sweep insert a job
only where a renewal on request does, in the same status; under a profile that requires
approval none of them inserts one that is pending or waits for a request; and none of them
inserts one when the certificate is revoked. -/
structure SameGates (approval : ApprovalService) (keygenMode actor : String) (db : Db)
    (cert : ManagedCertificate) : Prop where
  bulk : ∀ criteria : BulkRenewalCriteria,criteria.certificateIDs.contains cert.id=true →
    SameGate (bulkRenew keygenMode criteria) approval keygenMode actor db cert.id
  sweep : SameGate checkExpiringCertificates approval keygenMode actor db cert.id
  gated : requiresApproval db cert=true → ∀ status,status=.pending ∨ status=.awaitingCSR →
    NoneCreates approval keygenMode actor db cert.id status
  revoked : cert.status=.revoked → ∀ status,NoneCreates approval keygenMode actor db cert.id status

/-- When the three gates agree: the certificate is not revoked, no approval is required for it
unless the bulk skips it, and the sweep does not take it up while agents make the keys. -/
def gatesAgree (keygenMode : String) (db : Db) (cert : ManagedCertificate) : Bool :=
  cert.status≠.revoked && (bulkSkips cert.status || !requiresApproval db cert) &&
    (!sweepEligible db cert || keygenMode≠"agent")

variable {approval : ApprovalService} {keygenMode : String} {db : Db} {cert : ManagedCertificate}

theorem creates_trigger {actor : String} {status : JobStatus} (hkeys : CertificateKeys db) (hmem : cert∈db.certs) :
    Creates (triggerRenewal (certificateService approval keygenMode) cert.id actor false) db cert.id status ↔
      renewalRefusal cert false=none ∧ status=startStatus (certificateService approval keygenMode) db cert := by
  refine (creates_triggerRenewal hkeys (lookup_of_mem hkeys.ids hmem)).trans ?_
  exact ⟨fun h => ⟨h.1,h.2.2⟩,fun h => ⟨h.1,rfl,h.2⟩⟩

theorem startStatus_of_not_requiresApproval (h : requiresApproval db cert=false) :
    startStatus (certificateService approval keygenMode) db cert=initialStatus keygenMode := by
  have hneeded : approvalNeeded (certificateService approval keygenMode) db cert=false := by
    rw [requiresApproval,Bool.and_eq_false_iff] at h
    rw [approvalNeeded,Bool.and_eq_false_iff,Bool.and_eq_false_iff]
    rcases h with hempty|hflag
    · exact .inl (.inr hempty)
    refine .inr ?_
    cases hprofile : lookup CertificateProfile.id cert.certificateProfileID db.profiles with
    | none => rfl
    | some profile =>
      rw [hprofile] at hflag
      have hoff : profile.requiresApproval=false := hflag
      rw [Option.any_some,hoff,Bool.and_false]
  rw [startStatus,hneeded]
  rfl

theorem not_refused_of_not_bulkSkips (h : bulkSkips cert.status=false) : renewalRefusal cert false=none := by
  unfold bulkSkips at h
  cases hstatus : cert.status <;> simp_all [renewalRefusal]

theorem not_bulkSkips_of_sweepEligible (h : sweepEligible db cert=true) : bulkSkips cert.status=false := by
  rw [sweepEligible,Bool.and_eq_true,Bool.and_eq_true] at h
  have hskip := h.1.1
  unfold sweepSkips at hskip
  cases hstatus : cert.status <;> simp_all [bulkSkips]

theorem refused_of_bulkSkips (h : bulkSkips cert.status=true) (hlive : cert.status≠.revoked) :
    ∃ err,renewalRefusal cert false=some err := by
  unfold bulkSkips at h
  cases hstatus : cert.status <;> simp_all [renewalRefusal]

/-- The three entry points apply the same gate to a certificate exactly when it is not revoked, no
approval is required for it unless the bulk skips it, and the sweep does not take it up while
agents make the keys. -/
theorem sameGates_iff {approval : ApprovalService} {keygenMode actor : String} {db : Db} {cert : ManagedCertificate}
    (hkeys : CertificateKeys db) (hmem : cert∈db.certs) :
    SameGates approval keygenMode actor db cert ↔ gatesAgree keygenMode db cert=true := by
  have hlookup := lookup_of_mem hkeys.ids hmem
  have hsweep : ∀ status,Creates checkExpiringCertificates db cert.id status ↔
      sweepEligible db cert=true ∧ JobStatus.pending=status :=
    fun status => creates_checkExpiringCertificates hkeys hlookup
  have hbulk : ∀ criteria status,Creates (bulkRenew keygenMode criteria) db cert.id status →
      bulkSkips cert.status=false ∧ status=initialStatus keygenMode := by
    intro criteria status h
    obtain ⟨found,hfound,hskip,hstatus⟩ := of_creates_bulkRenew hkeys h
    rw [hlookup] at hfound
    cases hfound
    exact ⟨hskip,hstatus⟩
  have hself : [cert.id].contains cert.id=true := contains_iff_mem.mpr mem_cons_self
  rw [gatesAgree,Bool.and_eq_true,Bool.and_eq_true,decide_eq_true_eq,Bool.or_eq_true,Bool.or_eq_true,
    Bool.not_eq_true',Bool.not_eq_true',decide_eq_true_eq]
  constructor
  · intro h
    have hlive : cert.status≠.revoked := by
      intro hrevoked
      refine (h.revoked hrevoked _).trigger ((creates_trigger hkeys hmem).mpr ⟨?_,rfl⟩)
      simp only [renewalRefusal,hrevoked,reduceCtorEq,if_false,false_and]
    have hungated : bulkSkips cert.status=true ∨ requiresApproval db cert=false := by
      by_contra hboth
      rw [not_or,Bool.not_eq_true,Bool.not_eq_false] at hboth
      have hstart : initialStatus keygenMode=.pending ∨ initialStatus keygenMode=.awaitingCSR := by
        rw [initialStatus]
        split
        · exact .inr rfl
        · exact .inl rfl
      exact (h.gated hboth.2 _ hstart).bulk _ hself (creates_bulkRenew hkeys hlookup hboth.1)
    refine ⟨⟨hlive,hungated⟩,?_⟩
    by_contra hboth
    rw [not_or,Bool.not_eq_false,not_not] at hboth
    have hskip := not_bulkSkips_of_sweepEligible hboth.1
    have hfree : requiresApproval db cert=false := hungated.resolve_left (Bool.eq_false_iff.mp hskip)
    have hsame := (h.sweep .pending ((hsweep .pending).mpr ⟨hboth.1,rfl⟩) .awaitingCSR).mp
    have hcsr : JobStatus.awaitingCSR=.pending := by
      refine hsame ((creates_trigger hkeys hmem).mpr ⟨not_refused_of_not_bulkSkips hskip,?_⟩)
      rw [startStatus_of_not_requiresApproval hfree,hboth.2]
      rfl
    cases hcsr
  · rintro ⟨⟨hlive,hungated⟩,hagent⟩
    have htrigger : bulkSkips cert.status=false → ∀ status',
        Creates (triggerRenewal (certificateService approval keygenMode) cert.id actor false) db cert.id status' ↔
          status'=initialStatus keygenMode := by
      intro hskip status'
      have hfree : requiresApproval db cert=false := hungated.resolve_left (Bool.eq_false_iff.mp hskip)
      rw [creates_trigger hkeys hmem,startStatus_of_not_requiresApproval hfree]
      exact ⟨fun h => h.2,fun h => ⟨not_refused_of_not_bulkSkips hskip,h⟩⟩
    refine ⟨?_,?_,?_,fun hrevoked => absurd hrevoked hlive⟩
    · intro criteria _ status hcreates status'
      obtain ⟨hskip,rfl⟩ := hbulk criteria status hcreates
      exact htrigger hskip status'
    · intro status hcreates status'
      obtain ⟨heligible,rfl⟩ := (hsweep status).mp hcreates
      have hmode : keygenMode≠"agent" := hagent.resolve_left (Bool.not_eq_false _ ▸ heligible)
      rw [htrigger (not_bulkSkips_of_sweepEligible heligible) status',initialStatus,if_neg hmode]
    intro hrequires status _
    have hskip : bulkSkips cert.status=true := by
      refine hungated.resolve_right ?_
      rw [hrequires]
      exact Bool.noConfusion
    refine ⟨fun hcreates => ?_,fun criteria _ hcreates => ?_,fun hcreates => ?_⟩
    · obtain ⟨err,hrefused⟩ := refused_of_bulkSkips hskip hlive
      rw [creates_trigger hkeys hmem,hrefused] at hcreates
      cases hcreates.1
    · rw [(hbulk criteria status hcreates).1] at hskip
      cases hskip
    · rw [not_bulkSkips_of_sweepEligible ((hsweep status).mp hcreates).1] at hskip
      cases hskip

def sampleCertificate : ManagedCertificate where
  id := "mc-1"
  issuerID := "iss-local"
  certificateProfileID := "prof-1"
  status := .active

/-- The tables of the sample certificate, whose profile requires approval or not. -/
def sampleDb (approval : Bool) : Db where
  certs := [sampleCertificate]
  profiles := [{id := "prof-1", requiresApproval := approval}]
  issuers := ["iss-local"]

def sampleApproval : ApprovalService := {decodeProfile := fun _ => .error ⟨"",none⟩}

theorem sampleDb_keys (approval : Bool) : CertificateKeys (sampleDb approval) := ⟨nodup_singleton _,nodup_singleton _⟩

/-- Without approval and with keys of the server the three entry points agree. -/
theorem sameGates_iff_sample :
    CertificateKeys (sampleDb false) ∧ sampleCertificate∈(sampleDb false).certs ∧
    SameGates sampleApproval "server" "operator" (sampleDb false) sampleCertificate :=
  ⟨sampleDb_keys false,mem_cons_self,(sameGates_iff (sampleDb_keys false) mem_cons_self).mpr (by decide)⟩

/-- Under a profile that requires approval the bulk inserts a job that does not wait for it. -/
theorem bulkRenew_ungated :
    requiresApproval (sampleDb true) sampleCertificate=true ∧
    Creates (bulkRenew "agent" {certificateIDs := ["mc-1"]}) (sampleDb true) "mc-1" .awaitingCSR ∧
    ¬SameGates sampleApproval "agent" "operator" (sampleDb true) sampleCertificate := by
  have hfound : lookup ManagedCertificate.id "mc-1" (sampleDb true).certs=some sampleCertificate := by decide
  have hbulk : Creates (bulkRenew "agent" {certificateIDs := ["mc-1"]}) (sampleDb true) "mc-1" .awaitingCSR :=
    creates_bulkRenew (sampleDb_keys true) hfound rfl
  refine ⟨by decide,hbulk,fun h => ?_⟩
  exact (h.gated (by decide) .awaitingCSR (.inr rfl)).bulk _ (by decide) hbulk

end Gates

end Certctl.RenewalGates
