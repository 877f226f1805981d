import Certctl.RevocationService
import Certctl.RenewalTriggers

/-!
# Whether revocation is final

Seven calls write the status of a managed certificate, each from a copy of
the row that it read before. Two of those that renew look at the copy and
pass over revoked certificates; the others do not look at all, and none of
them looks at the row again when it writes. A revocation is final in every
run in which the calls that do not look find no revoked certificate, and in
which nobody holds an older copy when a revocation is written.
-/

namespace Certctl.RevokedCertificates

open AtomicProgram Prog AtomicInterleaving ControlPlaneTables ControlPlaneStore DomainRecords RecordTable
open List
open ApprovalRequests RenewalJobs RenewalTriggers RevocationService

/-- The services that write the status of certificates. -/
structure Services where
  revocation : RevocationSvc
  /-- Starts renewals, one at a time. -/
  certificates : CertificateService
  /-- Who makes the private keys in bulk renewals. -/
  keygenMode : String
  renewal : RenewalService
  agents : AgentService

/-- The calls that write the status of certificates. -/
inductive Call where
  | revokeCertificateWithActor (certID reason actor : String)
  | triggerRenewal (certID actor : String) (force : Bool)
  | bulkRenew (criteria : BulkRenewalCriteria)
  | checkExpiringCertificates
  | processRenewalJob (job : Job)
  | completeAgentCSRRenewal (job : Job) (cert : ManagedCertificate) (csrPEM : String)
  | submitCSR (agentID certID csrPEM : String)

def Services.program (svcs : Services) : Call→Service Unit
  | .revokeCertificateWithActor certID reason actor =>
    forEffect (revokeCertificateWithActor svcs.revocation certID reason actor)
  | .triggerRenewal certID actor force => forEffect (triggerRenewal svcs.certificates certID actor force)
  | .bulkRenew criteria => forEffect (bulkRenew svcs.keygenMode criteria)
  | .checkExpiringCertificates => forEffect checkExpiringCertificates
  | .processRenewalJob job => forEffect (processRenewalJob svcs.renewal job)
  | .completeAgentCSRRenewal job cert csrPEM => forEffect (completeAgentCSRRenewal svcs.renewal job cert csrPEM)
  | .submitCSR agentID certID csrPEM => forEffect (submitCSR svcs.agents agentID certID csrPEM)

/-- How a call comes by the copy of a certificate that it writes back. -/
inductive Regard where
  | revokes
  /-- It reads the certificate and passes over it if it is revoked. -/
  | checks
  /-- It reads the certificate and does not look. -/
  | trusts
  /-- It was handed the certificate. -/
  | carries
deriving DecidableEq

def Call.regard (certID : String) : Call→Regard
  | .revokeCertificateWithActor _ _ _ => .revokes
  | .bulkRenew _ => .checks
  | .checkExpiringCertificates => .checks
  | .completeAgentCSRRenewal _ cert _ => if cert.id=certID then .carries else .checks
  | .triggerRenewal _ _ _ => .trusts
  | .processRenewalJob _ => .trusts
  | .submitCSR _ _ _ => .trusts

/-- The operation with which a call takes up the certificate without looking whether it is
revoked: the read of it, or the first operation of a call that was handed it. -/
def takesUp (certID : String) : Regard→Op→Bool
  | .trusts,.getCertificate id => id=certID
  | .carries,.getIssuer _ => true
  | _,_ => false

def copies : (op : Op)→Res op→List ManagedCertificate
  | .getCertificate _,.ok cert => [cert]
  | .listCertificates _,.ok certs => certs
  | .getExpiringCertificates _,.ok certs => certs
  | _,_ => []

/-- What a call has of the certificate in question. -/
structure Holding where
  /-- How it comes by it. -/
  regard : Regard
  /-- It has a copy that it may write back with another status. -/
  held : Bool := false
deriving DecidableEq

/-- What a call has after an operation. -/
def takeCopy (certID : String) (g : Holding) (op : Op) (r : Res op) : Holding :=
  {g with held := g.held || takesUp certID g.regard op ||
    (g.regard=.checks && (copies op r).any fun cert => cert.id=certID && cert.status≠.revoked)}

def holding {ι : Type} [DecidableEq ι] (certID : String) (calls : ι→Call) (t : ι)
    (log : Log controlPlane ι) : Holding :=
  ghost (takeCopy certID) ⟨(calls t).regard certID,false⟩ t log

def marksRevoked (certID : String) : Op→Bool
  | .withinTx writes => writes.any fun w => w.certStatus? certID=some .revoked
  | _ => false

/-- The condition on steps: a call that does not look takes up the certificate only while it is
not revoked, and it is revoked only while no call that goes on has a copy of it. -/
def noStaleCopy {ι : Type} [DecidableEq ι] (certID : String) (calls : ι→Call) : StepCondition controlPlane ι Unit :=
  fun cfg t op _ =>
    (takesUp certID ((calls t).regard certID) op=true → certStatus certID cfg.state≠some .revoked) ∧
    (marksRevoked certID op=true → ∀ u,(cfg.threads u).done=false → (holding certID calls u cfg.log).held=false)

/-- The operation writes no other status to the certificate than revoked. -/
def spares (certID : String) : Op→Prop
  | .withinTx writes => ∀ w∈writes,w.certStatus? certID=none ∨ w.certStatus? certID=some .revoked
  | _ => True

variable {cert : ManagedCertificate}

section Tables

variable {certID : String} {c : Choice} {db db' : Db} {op : Op} {r : Res op}

theorem revoked_of_spares (hop : spares certID op) (h : effect c db op=(r,db'))
    (hrevoked : certStatus certID db=some .revoked) : certStatus certID db'=some .revoked := by
  refine effect_keeps (P := fun a => certStatus certID a=some .revoked) h ?_ ?_ hrevoked
  · intro a b hsame ha
    rw [certStatus,hsame.certs]
    exact ha
  rintro writes rfl w hw a b ha happly
  rw [applyWrite_certStatus certID happly]
  rcases hop w hw with hnone|hsome
  · rw [hnone]
    exact ha
  · rw [hsome,Option.some_or]

theorem notRevoked_of_marks (hop : marksRevoked certID op=false) (h : effect c db op=(r,db'))
    (hnot : certStatus certID db≠some .revoked) : certStatus certID db'≠some .revoked := by
  refine effect_keeps (P := fun a => certStatus certID a≠some .revoked) h ?_ ?_ hnot
  · intro a b hsame ha
    rw [certStatus,hsame.certs]
    exact ha
  rintro writes rfl w hw a b ha happly
  have hother : ¬w.certStatus? certID=some .revoked := by simpa using any_eq_false.mp hop w hw
  rw [applyWrite_certStatus certID happly]
  cases hset : w.certStatus? certID with
  | none => exact ha
  | some =>
    rw [hset] at hother
    exact hother

theorem effect_certIDs (h : effect c db op=(r,db')) (hids : (db.certs.map (·.id)).Nodup) :
    (db'.certs.map (·.id)).Nodup := by
  refine effect_keeps (P := fun a => (a.certs.map (·.id)).Nodup) h ?_ ?_ hids
  · intro a b hsame ha
    rw [hsame.certs]
    exact ha
  · intro writes _ w _ a b ha happly
    exact applyWrite_certIDs happly ha

theorem mem_of_copies (h : effect c db op=(r,db')) (hcert : cert∈copies op r) : cert∈db.certs := by
  have hfst : (effect c db op).1=r := congrArg Prod.fst h
  unfold copies at hcert
  split at hcert
  · rw [mem_singleton.mp hcert]
    exact (lookup_some (readRow_fst hfst)).1
  · have hrows := answer_fst hfst
    rw [hrows] at hcert
    exact mem_of_mem_filter (mem_orderBy.mp (mem_of_mem_take hcert))
  · have hrows := answer_fst hfst
    rw [hrows] at hcert
    exact mem_of_mem_filter (mem_orderBy.mp hcert)
  · cases hcert

theorem certStatus_of_copies (hids : (db.certs.map (·.id)).Nodup) (h : effect c db op=(r,db'))
    (hcert : cert∈copies op r) : certStatus cert.id db=some cert.status := by
  rw [certStatus,lookup_of_mem hids (mem_of_copies h hcert)]
  rfl

theorem marksRevoked_of_takesUp {regard : Regard} (h : takesUp certID regard op=true) :
    marksRevoked certID op=false := by
  unfold takesUp at h
  split at h
  · rfl
  · rfl
  · cases h

theorem marksRevoked_of_copies (h : cert∈copies op r) : marksRevoked certID op=false := by
  unfold copies at h
  split at h
  · rfl
  · rfl
  · rfl
  · cases h

end Tables

section Calls

variable {α : Type} {certID : String} {g : Holding}

/-- An operation is made by a call that has a copy, or spares the certificate. -/
def mayWrite (certID : String) (g : Holding) (op : Op) (_ : Res op) : Prop := g.held=true ∨ spares certID op

/-- What a call does on its own, for all answers of the store. -/
abbrev Held (certID : String) (Q : α→Holding→Prop) (p : Service α) (g : Holding) : Prop :=
  p.Tracked controlPlane.CanAnswer (mayWrite certID) (takeCopy certID) Q g

theorem held_of_copy (p : Service α) (hg : g.held=true) : Held certID (fun _ _ => True) p g := by
  refine Tracked.mono (fun _ _ _ => trivial) (tracked_of_uses (I := fun g' : Holding => g'.held=true) ?_ (uses_any p) hg)
  intro g op r hheld _
  refine ⟨.inl hheld,?_⟩
  rw [takeCopy,hheld,Bool.true_or,Bool.true_or]

theorem held_of_spares {p : Service α} (hp : p.Uses (spares certID)) (g : Holding) :
    Held certID (fun _ _ => True) p g :=
  tracked_of_uses (fun _ _ _ _ hop => ⟨.inr hop,trivial⟩) hp trivial

theorem held_request {Q : α→Holding→Prop} {op : Op} {k : Res op→Service α} (hop : spares certID op)
    (hk : ∀ r,controlPlane.CanAnswer op r → Held certID Q (k r) (takeCopy certID g op r)) :
    Held certID Q ((request op).bind k) g :=
  fun r hr => ⟨.inr hop,hk r hr⟩

theorem read_spares (op : Op) (hop : op.answersAtOnce=true) : spares certID op := by
  cases op with
  | withinTx => cases hop
  | _ => trivial

theorem write_spares {w : Write} (hw : w.certStatus? certID=none ∨ w.certStatus? certID=some .revoked) :
    spares certID (.withinTx [w]) := by
  intro w' hw'
  rw [mem_singleton.mp hw']
  exact hw

theorem update_spares (hcert : cert.id≠certID) : spares certID (.withinTx [.updateCertificate cert]) :=
  write_spares (.inl (if_neg hcert))

theorem held_trusting {id : String} {k : Try ManagedCertificate→Service α} (hg : g.regard=.trusts)
    (herror : ∀ err,(k (.error err)).Uses (spares certID))
    (hother : ∀ cert : ManagedCertificate,cert.id≠certID → (k (.ok cert)).Uses (spares certID)) :
    Held certID (fun _ _ => True) ((getCertificate id).bind k) g := by
  refine held_request trivial fun r hr => ?_
  by_cases hid : id=certID
  · have hheld : (takeCopy certID g (.getCertificate id) r).held=true := by
      simp only [takeCopy,hg,takesUp,hid,decide_true,Bool.or_true,Bool.true_or]
    exact held_of_copy _ hheld
  refine held_of_spares ?_ _
  cases r with
  | error err => exact herror err
  | ok cert =>
    obtain ⟨c,db,db',hperform⟩ := hr
    have hread : (effect c db (.getCertificate id)).1=.ok cert := congrArg Prod.fst (effect_of_perform hperform)
    have hcert : cert.id=id := (lookup_some (readRow_fst hread)).2
    exact hother cert (hcert ▸ hid)

theorem workOps_spares {job : Job} (hcert : cert.id≠certID) : WorkOps (spares certID) job cert where
  read := read_spares
  fail := fun _ => write_spares (.inl rfl)
  complete := write_spares (.inl rfl)
  await := write_spares (.inl rfl)
  deploy := fun _ _ _ _ => write_spares (.inl rfl)
  version := fun _ => write_spares (.inl rfl)
  update := fun row hrow => update_spares (hrow ▸ hcert)
  store := by
    intro version row hrow write hwrite
    rcases mem_pair.mp hwrite with rfl|rfl
    · exact .inl rfl
    · exact .inl (if_neg (hrow ▸ hcert))

theorem enqueueRenewal_spares (svc : CertificateService) (cert : ManagedCertificate) (actor : String) :
    (enqueueRenewal svc cert actor).Uses (spares certID) := by
  refine uses_enqueueRenewal read_spares (fun _ _ => write_spares (.inl rfl)) fun approval _ job profileID => ?_
  refine uses_gateJob read_spares (fun _ _ => write_spares (.inl rfl)) (fun _ => write_spares (.inl rfl)) ?_
  intro _ id decidedBy note
  exact uses_approveInternal read_spares (fun _ _ _ _ _ => trivial) (fun _ => write_spares (.inl rfl))
    fun _ => write_spares (.inl rfl)

theorem held_triggerRenewal (svc : CertificateService) (id actor : String) (force : Bool) (hg : g.regard=.trusts) :
    Held certID (fun _ _ => True) (triggerRenewal svc id actor force) g := by
  refine held_trusting hg (fun _ => trivial) fun cert hcert => ?_
  dsimp only
  split
  · trivial
  refine uses_request (update_spares hcert) fun r => ?_
  cases r with
  | error => trivial
  | ok =>
    dsimp only
    split
    · exact enqueueRenewal_spares svc _ actor
    · trivial

theorem held_processRenewalJob (svc : RenewalService) (job : Job) (hg : g.regard=.trusts) :
    Held certID (fun _ _ => True) (processRenewalJob svc job) g := by
  refine held_request (write_spares (.inl rfl)) fun r _ => ?_
  cases r with
  | error => trivial
  | ok =>
    refine held_trusting hg (fun err => ?_) fun cert hcert => uses_renewCertificateOf (workOps_spares hcert)
    exact uses_failJob (write_spares (.inl rfl)) trivial

theorem held_completeAgentCSRRenewal (svc : RenewalService) (job : Job) (cert : ManagedCertificate) (csrPEM : String)
    (hg : cert.id=certID → g.regard=.carries) :
    Held certID (fun _ _ => True) (completeAgentCSRRenewal svc job cert csrPEM) g := by
  by_cases hcert : cert.id=certID
  · refine held_request trivial fun known _ => ?_
    have hheld : (takeCopy certID g (.getIssuer cert.issuerID) known).held=true := by
      simp only [takeCopy,hg hcert,takesUp,Bool.or_true,Bool.true_or]
    exact held_of_copy _ hheld
  · exact held_of_spares (uses_completeAgentCSRRenewal (workOps_spares hcert) (write_spares (.inl rfl)) csrPEM) g

theorem held_submitCSR (svc : AgentService) (agentID id csrPEM : String) (hg : g.regard=.trusts) :
    Held certID (fun _ _ => True) (submitCSR svc agentID id csrPEM) g := by
  refine held_request trivial fun r _ => ?_
  cases r with
  | error => trivial
  | ok =>
    dsimp only
    split
    · trivial
    split
    · trivial
    refine held_trusting hg (fun _ => trivial) fun cert hcert => ?_
    refine uses_bind (uses_awaitingJob read_spares) fun waiting => ?_
    cases waiting with
    | none =>
      exact uses_signAdHoc read_spares (fun _ => write_spares (.inl rfl)) fun row hrow => update_spares (hrow ▸ hcert)
    | some entry =>
      have hcomplete : (completeAgentCSRRenewal entry.1 entry.2 cert csrPEM).Uses (spares certID) :=
        uses_completeAgentCSRRenewal (workOps_spares hcert) (write_spares (.inl rfl)) csrPEM
      refine uses_bind hcomplete (onAnswer fun _ => ?_)
      trivial

theorem revoked_spares (hstatus : cert.status=.revoked) : (Write.updateCertificate cert).certStatus? certID=none ∨
      (Write.updateCertificate cert).certStatus? certID=some .revoked := by
  by_cases hid : cert.id=certID
  · exact .inr ((if_pos hid).trans (congrArg some hstatus))
  · exact .inl (if_neg hid)

theorem revokeOps_spares (id : String) (cert : ManagedCertificate) : RevokeOps (spares certID) cert id where
  read := fun op hop _ => read_spares op hop
  record := fun _ hrow => write_spares (revoked_spares hrow.status)
  recordBoth := by
    intro row hrow revocation _ w hw
    rcases mem_pair.mp hw with rfl|rfl
    · exact revoked_spares hrow.status
    · exact .inl rfl
  revocation := fun _ _ => write_spares (.inl rfl)
  notified := fun _ => write_spares (.inl rfl)
  invalidate := fun _ _ => write_spares (.inl rfl)

/-- A call that looks has a copy of the certificate, or those it read of it were revoked. -/
def Informed (certID : String) (certs : List ManagedCertificate) (g : Holding) : Prop :=
  g.held=true ∨ ∀ cert∈certs,cert.id=certID → cert.status=.revoked

theorem informed_of_copies (certID : String) (hg : g.regard=.checks) (op : Op) (r : Res op) :
    Informed certID (copies op r) (takeCopy certID g op r) := by
  by_cases hany : ((copies op r).any fun cert => cert.id=certID && cert.status≠.revoked)=true
  · refine .inl ?_
    simp only [takeCopy,hg,hany,decide_true,Bool.and_true,Bool.or_true]
  refine .inr fun cert hcert hid => ?_
  rw [Bool.not_eq_true,any_eq_false] at hany
  have hone := hany cert hcert
  rw [Bool.and_eq_true,decide_eq_true_eq,decide_eq_true_eq,not_and,not_not] at hone
  exact hone hid

theorem Informed.later {certs : List ManagedCertificate} (h : Informed certID certs g) (op : Op) (r : Res op) :
    Informed certID certs (takeCopy certID g op r) := by
  rcases h with hheld|hall
  · refine .inl ?_
    rw [takeCopy,hheld,Bool.true_or,Bool.true_or]
  · exact .inr hall

theorem held_getCertificates (ids : List String) {known : List ManagedCertificate} (hg : g.regard=.checks)
    (hknown : Informed certID known g) :
    Held certID (fun certs g' => Informed certID (certs++known) g') (getCertificates ids) g := by
  induction ids generalizing g known with
  | nil => exact hknown
  | cons id rest ih =>
    refine held_request trivial fun r _ => ?_
    have hnow := informed_of_copies certID hg (.getCertificate id) r
    have hbefore := hknown.later (.getCertificate id) r
    have hchecks : (takeCopy certID g (.getCertificate id) r).regard=.checks := hg
    cases r with
    | error =>
      refine tracked_seq (ih hchecks hbefore) fun others g' hothers => ?_
      exact hothers
    | ok cert =>
      have hboth : Informed certID (cert::known) (takeCopy certID g (.getCertificate id) (.ok cert)) := by
        rcases hnow with hheld|hone
        · exact .inl hheld
        rcases hbefore with hheld|hall
        · exact .inl hheld
        refine .inr fun x hx => ?_
        rcases mem_cons.mp hx with rfl|hx
        · exact hone x (mem_singleton_self x)
        · exact hall x hx
      refine tracked_seq (ih hchecks hboth) fun others g' hothers => ?_
      rcases hothers with hheld|hall
      · exact .inl hheld
      refine .inr fun x hx => hall x ?_
      have hmove : x∈cert::(others++known) := hx
      simp only [mem_cons,mem_append] at hmove ⊢
      tauto

theorem held_resolveCertificates (criteria : BulkRenewalCriteria) (hg : g.regard=.checks) :
    Held certID (fun r g' => ∀ certs,r=.ok certs → Informed certID certs g') (resolveCertificates criteria) g := by
  rw [resolveCertificates]
  split
  · have hnone : Informed certID [] g := .inr fun cert hcert => absurd hcert not_mem_nil
    refine tracked_seq (held_getCertificates _ hg hnone) fun found g' hfound => ?_
    intro certs hcerts
    cases hcerts
    rw [← append_nil found]
    exact hfound
  refine held_request trivial fun r _ => ?_
  have hnow := informed_of_copies certID hg (.listCertificates {
    ownerID := criteria.ownerID, teamID := criteria.teamID, issuerID := criteria.issuerID,
    agentID := criteria.agentID, profileID := criteria.profileID, perPage := 10000 }) r
  cases r with
  | error =>
    intro certs hcerts
    cases hcerts
  | ok =>
    dsimp only
    split
    · intro certs hcerts
      cases hcerts
      exact hnow
    · intro certs hcerts
      cases hcerts
      exact hnow.imp_right fun hall cert hcert => hall cert (mem_of_mem_filter hcert)

theorem bulkRenewOne_spares (mode : String) (result : BulkRenewalResult)
    (hcert : cert.id=certID → cert.status=.revoked) : (bulkRenewOne mode result cert).Uses (spares certID) := by
  rw [bulkRenewOne]
  split
  · trivial
  rename_i hskip
  have hid : cert.id≠certID := by
    intro hid
    rw [hcert hid] at hskip
    exact hskip rfl
  refine uses_request (update_spares hid) fun r => ?_
  cases r with
  | error => trivial
  | ok =>
    refine uses_newJob (aside_of_reads read_spares) fun job _ _ _ => ?_
    refine uses_request (write_spares (.inl rfl)) (onAnswer fun _ => ?_)
    trivial

theorem sweepOne_spares (hcert : cert.id=certID → cert.status=.revoked) : (sweepOne cert).Uses (spares certID) := by
  by_cases hid : cert.id=certID
  · have hskip : sweepSkips cert.status=true := by
      rw [hcert hid]
      rfl
    rw [sweepOne,if_pos hskip]
    trivial
  · refine uses_sweepOne read_spares (fun row hrow => update_spares ?_) fun _ _ _ _ => write_spares (.inl rfl)
    have hsame : row.id=cert.id := by rw [← hrow]
    rw [hsame]
    exact hid

theorem held_bulkRenew (mode : String) (criteria : BulkRenewalCriteria) (hg : g.regard=.checks) :
    Held certID (fun _ _ => True) (bulkRenew mode criteria) g := by
  rw [bulkRenew]
  split
  · trivial
  refine tracked_seq (held_resolveCertificates criteria hg) fun r g' hknown => ?_
  cases r with
  | error => trivial
  | ok certs =>
    rcases hknown certs rfl with hheld|hall
    · exact held_of_copy _ hheld
    have hloop : ∀ init,(Prog.foldEach certs init (bulkRenewOne mode)).Uses (spares certID) := by
      refine uses_foldEach fun cert hcert acc => ?_
      exact bulkRenewOne_spares mode acc (hall cert hcert)
    refine held_of_spares ?_ g'
    exact uses_bind (hloop _) fun _ => trivial

theorem held_checkExpiringCertificates (hg : g.regard=.checks) :
    Held certID (fun _ _ => True) checkExpiringCertificates g := by
  refine held_request trivial fun (now : Time) _ => ?_
  have hchecks : (takeCopy certID g .timeNow now).regard=.checks := hg
  refine held_request trivial fun r _ => ?_
  have hnow := informed_of_copies certID hchecks (.getExpiringCertificates (now+31*day)) r
  cases r with
  | error => trivial
  | ok expiring =>
    rcases hnow with hheld|hall
    · exact held_of_copy _ hheld
    have hloop : (Prog.forEach expiring sweepOne).Uses (spares certID) :=
      uses_forEach expiring fun cert hcert => sweepOne_spares (hall cert hcert)
    refine held_of_spares ?_ _
    exact uses_bind hloop fun _ => trivial

theorem held_program (svcs : Services) (certID : String) (call : Call) :
    Held certID (fun _ _ => True) (svcs.program call) ⟨call.regard certID,false⟩ := by
  have heffect : ∀ {α : Type} {p : Service α},Held certID (fun _ _ => True) p ⟨call.regard certID,false⟩ →
      Held certID (fun _ _ => True) (forEffect p) ⟨call.regard certID,false⟩ :=
    fun hp => tracked_seq hp fun _ _ _ => trivial
  cases call with
  | revokeCertificateWithActor id reason actor =>
    exact heffect (held_of_spares (uses_revokeCertificateWithActor trivial (revokeOps_spares id) reason actor) _)
  | triggerRenewal id actor force => exact heffect (held_triggerRenewal svcs.certificates id actor force rfl)
  | bulkRenew criteria => exact heffect (held_bulkRenew svcs.keygenMode criteria rfl)
  | checkExpiringCertificates => exact heffect (held_checkExpiringCertificates rfl)
  | processRenewalJob job => exact heffect (held_processRenewalJob svcs.renewal job rfl)
  | completeAgentCSRRenewal job cert csrPEM =>
    exact heffect (held_completeAgentCSRRenewal svcs.renewal job cert csrPEM fun hid => if_pos hid)
  | submitCSR agentID id csrPEM => exact heffect (held_submitCSR svcs.agents agentID id csrPEM rfl)

end Calls

section Runs

variable {ι : Type} [DecidableEq ι] {certID : String} {calls : ι→Call}

/-- Nobody has a copy of a certificate that is revoked. -/
structure NoCopies (certID : String) (calls : ι→Call) (cfg : Config controlPlane ι Unit) : Prop where
  ids : (cfg.state.certs.map (·.id)).Nodup
  copies : ∀ t,(cfg.threads t).done=false → (holding certID calls t cfg.log).held=true →
    certStatus certID cfg.state≠some .revoked

theorem holding_regard (t : ι) (log : Log controlPlane ι) :
    (holding certID calls t log).regard=(calls t).regard certID := by
  refine ghost_keeps (P := fun g : Holding => g.regard=(calls t).regard certID) ?_ ?_ t log
  · rfl
  intro g op r h
  exact h

variable {cfg : Config controlPlane ι Unit} {t : ι} {op : Op} {c : Choice} {r : Res op} {db' : Db}

theorem notRevoked_of_takeCopy (hids : (cfg.state.certs.map (·.id)).Nodup) (hok : noStaleCopy certID calls cfg t op c)
    (heff : effect c cfg.state op=(r,db')) (hbefore : (holding certID calls t cfg.log).held=false)
    (hafter : (takeCopy certID (holding certID calls t cfg.log) op r).held=true) :
    certStatus certID db'≠some .revoked := by
  simp only [takeCopy,hbefore,holding_regard,Bool.false_or,Bool.or_eq_true,Bool.and_eq_true] at hafter
  rcases hafter with htaken|⟨-,hread⟩
  · exact notRevoked_of_marks (marksRevoked_of_takesUp htaken) heff (hok.1 htaken)
  obtain ⟨cert,hcert,hone⟩ := any_eq_true.mp hread
  rw [Bool.and_eq_true,decide_eq_true_eq,decide_eq_true_eq] at hone
  obtain ⟨rfl,hstatus⟩ := hone
  refine notRevoked_of_marks (marksRevoked_of_copies hcert) heff ?_
  rw [certStatus_of_copies hids heff hcert]
  exact fun hrevoked => hstatus (Option.some_inj.mp hrevoked)

/-- A step that meets the condition leaves nobody with a copy of a revoked certificate. -/
theorem noCopies_step
    {k : Res op→Service Unit} (h : NoCopies certID calls cfg) (hok : noStaleCopy certID calls cfg t op c)
    (heff : effect c cfg.state op=(r,db')) (hthread : cfg.threads t=.call op k) :
    NoCopies certID calls (cfg.advance t op r (k r) db') := by
  have hold : ∀ u,(cfg.threads u).done=false → (holding certID calls u cfg.log).held=true →
      certStatus certID db'≠some .revoked := by
    intro u hu hheld
    refine notRevoked_of_marks ?_ heff (h.copies u hu hheld)
    refine Bool.eq_false_iff.mpr fun hmarks => ?_
    rw [hok.2 hmarks u hu] at hheld
    cases hheld
  refine ⟨effect_certIDs heff h.ids,fun u hu hheld => ?_⟩
  by_cases htu : u=t
  · subst htu
    have hlive : (cfg.threads u).done=false := by
      rw [hthread]
      rfl
    have hafter : (takeCopy certID (holding certID calls u cfg.log) op r).held=true := by
      rw [← hheld,holding,holding,Config.advance,ghost_cons_self]
    cases hbefore : (holding certID calls u cfg.log).held with
    | true => exact hold u hlive hbefore
    | false => exact notRevoked_of_takeCopy h.ids hok heff hbefore hafter
  · refine hold u ?_ ?_
    · simpa only [Config.advance,Function.update_of_ne htu] using hu
    · rw [← hheld,holding,holding,Config.advance,ghost_cons_of_ne _ _ (Ne.symm htu)]

/-- In every run that meets the condition, a certificate that is once stored as revoked stays
revoked: no call ever makes it active or puts it into renewal again. -/
theorem revoked_final (svcs : Services) (calls : ι→Call) (certID : String) {db : Db}
    (hids : (db.certs.map (·.id)).Nodup) {mid cfg : Config controlPlane ι Unit}
    (hmid : Reach (noStaleCopy certID calls) (initial (fun t => svcs.program (calls t)) db) mid)
    (hrevoked : certStatus certID mid.state=some .revoked) (hreach : Reach (noStaleCopy certID calls) mid cfg) :
    certStatus certID cfg.state=some .revoked := by
  have hpool : ∀ t,Held certID (fun _ _ => True) (svcs.program (calls t)) ⟨(calls t).regard certID,false⟩ :=
    fun t => held_program svcs certID (calls t)
  have hstart : NoCopies certID calls (initial (fun t => svcs.program (calls t)) db) :=
    ⟨hids,fun t _ hheld => by cases hheld⟩
  obtain ⟨hnow,hall⟩ := reach_tracked (I := NoCopies certID calls) (admitted_canAnswer _ _) hmid hpool
    hstart fun cfg t op c r s' h _ hok hperform _ k hthread => noCopies_step h hok (effect_of_perform hperform) hthread
  refine (reach_tracked (I := fun a => NoCopies certID calls a ∧ certStatus certID a.state=some .revoked)
    (admitted_canAnswer _ _) hreach hall ⟨hnow,hrevoked⟩ ?_).1.2
  rintro cfg t op c r s' ⟨h,hstored⟩ _ hok hperform hpre k hthread
  have heff := effect_of_perform hperform
  refine ⟨noCopies_step h hok heff hthread,?_⟩
  rcases hpre with hheld|hspares
  · have hlive : (cfg.threads t).done=false := by
      rw [hthread]
      rfl
    exact absurd hstored (h.copies t hlive hheld)
  · exact revoked_of_spares hspares heff hstored

instance [Fintype ι] (cfg : Config controlPlane ι Unit) (t : ι) (op : Op) (c : Choice) :
    Decidable (noStaleCopy certID calls cfg t op c) := inferInstanceAs (Decidable (_ ∧ _))

end Runs

section Samples

def sampleServices : Services where
  revocation := {}
  certificates := {approvalSvc := none}
  keygenMode := "agent"
  renewal := {computeCertFingerprint := id, validateCSRAgainstProfile := fun _ _ => .ok ()}
  agents := {
    renewalService := none, computeCertFingerprint := id, validateCSRAgainstProfile := fun _ _ => .ok ()}

def sampleDb : Db where
  certs := [{id := "mc-1", issuerID := "iss-local", status := .active, expiresAt := 2000000000*second}]
  versions := [{id := "cv-1", certificateID := "mc-1", serialNumber := "01"}]
  issuers := ["iss-local"]

/-- A revocation beside a renewal in bulk and one on request, of the same certificate. -/
def sampleCalls : Fin 3→Call
  | 0 => .revokeCertificateWithActor "mc-1" "keyCompromise" "alice"
  | 1 => .bulkRenew {certificateIDs := ["mc-1"]}
  | 2 => .triggerRenewal "mc-1" "bob" false

/-- The bulk renewal reads the certificate after it was revoked, and leaves it so. -/
theorem revoked_final_bulk :
    ∃ mid cfg,Reach (noStaleCopy "mc-1" sampleCalls)
        (initial (fun t => sampleServices.program (sampleCalls t)) sampleDb) mid ∧
      certStatus "mc-1" mid.state=some .revoked ∧ Reach (noStaleCopy "mc-1" sampleCalls) mid cfg ∧
      (cfg.threads 1).done=true ∧ certStatus "mc-1" cfg.state=some .revoked := by
  have hfirst : ((initial (fun t => sampleServices.program (sampleCalls t)) sampleDb).runSchedule
      (noStaleCopy "mc-1" sampleCalls) (List.replicate 5 (0,noFault))).map (fun mid =>
        (certStatus "mc-1" mid.state,(mid.runSchedule (noStaleCopy "mc-1" sampleCalls) [(1,noFault)]).map
          fun cfg => (cfg.threads 1).done))=some (some .revoked,some true) := by decide
  obtain ⟨mid,hreach,hview⟩ := reach_of_view hfirst
  have hrevoked : certStatus "mc-1" mid.state=some .revoked := congrArg Prod.fst hview
  obtain ⟨cfg,hcfg,hdone⟩ := Option.map_eq_some_iff.mp (congrArg Prod.snd hview)
  have hlater := reach_of_runSchedule hcfg
  have hids : (sampleDb.certs.map (·.id)).Nodup := by decide
  exact ⟨mid,cfg,hreach,hrevoked,hlater,hdone,
    revoked_final sampleServices sampleCalls "mc-1" hids hreach hrevoked hlater⟩

/-- The renewal on request reads the revoked certificate and writes it as being renewed. -/
theorem revoked_reopened :
    ∃ mid cfg,Reach anyStep (initial (fun t => sampleServices.program (sampleCalls t)) sampleDb) mid ∧
      certStatus "mc-1" mid.state=some .revoked ∧ Reach anyStep mid cfg ∧
      certStatus "mc-1" cfg.state=some .renewalInProgress := by
  have hfirst : ((initial (fun t => sampleServices.program (sampleCalls t)) sampleDb).runSchedule anyStep
      (List.replicate 5 (0,noFault))).map (fun mid =>
        (certStatus "mc-1" mid.state,(mid.runSchedule anyStep (List.replicate 2 (2,noFault))).map
          fun cfg => certStatus "mc-1" cfg.state))=some (some .revoked,some (some .renewalInProgress)) := by decide
  obtain ⟨mid,hreach,hview⟩ := reach_of_view hfirst
  obtain ⟨cfg,hcfg,hstatus⟩ := Option.map_eq_some_iff.mp (congrArg Prod.snd hview)
  exact ⟨mid,cfg,hreach,congrArg Prod.fst hview,reach_of_runSchedule hcfg,hstatus⟩

end Samples

end Certctl.RevokedCertificates
