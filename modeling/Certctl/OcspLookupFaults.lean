import Certctl.OcspResponder

/-!
# Status responses when lookups fail

Live signing asks for the revocation of a serial number and takes a failed
lookup for an absent row. It then asks whether the certificate is known and
signs good if it is. A revoked certificate is therefore reported as good
exactly when the deciding lookup of its revocation fails and the lookup of
the certificate does not.
-/

namespace Certctl.OcspLookupFaults

open AtomicProgram AtomicInterleaving ControlPlaneTables ControlPlaneStore DomainRecords RecordTable OcspResponder
  Option

/-- The operations of one signing, newest first. -/
abbrev Trace := Log controlPlane Unit

def revocationAnswer : (op : Op)→Res op→Option (Try CertificateRevocation)
  | .getRevocationByIssuerAndSerial _ _,r => some r
  | _,_ => none

def inventoryAnswer : (op : Op)→Res op→Option (Try ManagedCertificate)
  | .getCertificateByIssuerAndSerial _ _,r => some r
  | _,_ => none

/-- The issuer is asked to sign the status good. -/
def asksGood : Op→Bool
  | .signOCSPResponse _ content => content.certStatus=.good
  | _ => false

def latest {α : Type} (answerOf : (op : Op)→Res op→Option α) (log : Trace) : Option α :=
  (log.filterMap fun e => answerOf e.op e.res).head?

def failed {α : Type} : Try α→Bool
  | .ok _ => false
  | .error _ => true

/-- The latest revocation lookup failed, and the certificate was found or not looked for. -/
def failsOpen (svc : CAOperationsSvc) (log : Trace) : Bool :=
  (latest revocationAnswer log).any failed && (!svc.certRepo || (latest inventoryAnswer log).any fun r => !failed r)

/-- The status good was not signed: an error is returned, or a response that says something else. -/
def NotGood (outcome : Try OCSPResponse) (log : Trace) : Prop :=
  (∀ e∈log,asksGood e.op=false) ∧ ∀ response,outcome=.ok response →
    response.content.certStatus=.revoked ∨ response.content.certStatus=.unknown

/-- Nothing was asked but for revocations, certificates and profiles. -/
def Looking (log : Trace) : Prop := (∀ e∈log,asksGood e.op=false) ∧ latest inventoryAnswer log=none

section Logs

variable {log : Trace}

theorem asksGood_cons (hlog : ∀ e∈log,asksGood e.op=false) (op : Op) (r : Res op) (hop : asksGood op=false) :
    ∀ e∈(⟨(),op,r⟩ : Event controlPlane Unit)::log,asksGood e.op=false := by
  exact List.forall_mem_cons.mpr ⟨hop,hlog⟩

theorem latest_cons {α : Type} (answerOf : (op : Op)→Res op→Option α) (op : Op) (r : Res op) (log : Trace) :
    latest answerOf (⟨(),op,r⟩::log)=(answerOf op r).or (latest answerOf log) := by
  unfold latest
  rw [List.filterMap_cons]
  cases answerOf op r with
  | none | some => rfl

theorem Looking.cons (h : Looking log) (op : Op) (r : Res op) (hop : asksGood op=false) (hother : inventoryAnswer op r=none) :
    Looking (⟨(),op,r⟩::log) := by
  refine ⟨asksGood_cons h.1 op r hop,?_⟩
  rw [latest_cons,hother,h.2]
  rfl

end Logs

section Signing

variable {svc : CAOperationsSvc} {issuerID serialHex : String} {db : Db} {log : Trace}

abbrev anyPoint : Db→Trace→Prop := fun _ _ => True

theorem along_certShortLived {certID : String} (hlong : shortLivedCert db certID=false) (hlog : Looking log) :
    Along (S := controlPlane) anyPoint (fun exempt s log' => exempt=false ∧ s=db ∧ Looking log')
      (certShortLived certID) db log := by
  refine along_read rfl trivial fun c r heff => ?_
  have hlog₁ : Looking (⟨(),.getCertificate certID,r⟩::log) := hlog.cons _ _ rfl rfl
  cases r with
  | error => exact ⟨rfl,rfl,hlog₁⟩
  | ok cert =>
    have hcert : lookup ManagedCertificate.id certID db.certs=some cert := readRow_fst (congrArg Prod.fst heff)
    dsimp only
    split
    · exact ⟨rfl,rfl,hlog₁⟩
    rename_i hnamed
    refine along_read rfl trivial fun c' r' heff' => ?_
    have hlog₂ := hlog₁.cons (.getProfile cert.certificateProfileID) r' rfl rfl
    cases r' with
    | error => exact ⟨rfl,rfl,hlog₂⟩
    | ok profile =>
      have hprofile : (lookup CertificateProfile.id cert.certificateProfileID db.profiles).map
          (scanProfile db.readsApprovalFlag)=some profile := readRow_fst (congrArg Prod.fst heff')
      obtain ⟨row,hrow,rfl⟩ := map_eq_some_iff.mp hprofile
      refine ⟨?_,rfl,hlog₂⟩
      simp only [shortLivedCert,hcert,if_neg hnamed,hrow] at hlong
      exact hlong

variable (hlong : ∀ rev∈db.revocations,revocationKey rev=(issuerID,serialHex) →
  shortLivedCert db rev.certificateID=false)
include hlong

theorem along_shortLivedExempt (hlog : Looking log) :
    Along (S := controlPlane) anyPoint (fun exempt s log' => exempt=false ∧ s=db ∧ Looking log')
      (shortLivedExempt svc issuerID serialHex) db log := by
  unfold shortLivedExempt
  split
  · refine along_read rfl trivial fun c r heff => ?_
    have hlog₁ := hlog.cons (.getRevocationByIssuerAndSerial issuerID serialHex) r rfl rfl
    cases r with
    | error => exact ⟨rfl,rfl,hlog₁⟩
    | ok rev =>
      have hrev : lookup revocationKey (issuerID,serialHex) db.revocations=some rev :=
        readRow_fst (congrArg Prod.fst heff)
      obtain ⟨hmem,hkey⟩ := lookup_some hrev
      exact along_certShortLived (hlong rev hmem hkey) hlog₁
  · exact ⟨rfl,rfl,hlog⟩

omit hlong

theorem along_currentStatus {now : Time} {nonce : List UInt8} (hlog : Looking log) :
    Along (S := controlPlane) anyPoint (fun content s log' => s=db ∧ (∀ e∈log',asksGood e.op=false) ∧
      (content.certStatus=.good ↔ failsOpen svc log'=true)) (currentStatus svc issuerID serialHex now nonce) db log := by
  refine along_read rfl trivial fun c r heff => ?_
  have hlog₁ := hlog.cons (.getRevocationByIssuerAndSerial issuerID serialHex) r rfl rfl
  have hfirst : failsOpen svc (⟨(),.getRevocationByIssuerAndSerial issuerID serialHex,r⟩::log)=
      (failed r && !svc.certRepo) := by
    rw [failsOpen,hlog₁.2,any_none,Bool.or_false]
    rfl
  have hsecond : ∀ r',failsOpen svc (⟨(),.getCertificateByIssuerAndSerial issuerID serialHex,r'⟩::
      ⟨(),.getRevocationByIssuerAndSerial issuerID serialHex,r⟩::log)=(failed r && (!svc.certRepo || !failed r')) := by
    intro r'
    rfl
  cases r with
  | ok => exact ⟨rfl,hlog₁.1,nofun,fun hopen => (nomatch hfirst.symm.trans hopen)⟩
  | error =>
    dsimp only
    split
    · rename_i hwired
      rw [hwired] at hsecond
      refine along_read rfl trivial fun c' r' heff' => ?_
      have hgood := asksGood_cons hlog₁.1 (.getCertificateByIssuerAndSerial issuerID serialHex) r' rfl
      cases r' with
      | error => exact ⟨rfl,hgood,nofun,fun hopen => (nomatch (hsecond _).symm.trans hopen)⟩
      | ok => exact ⟨rfl,hgood,fun _ => hsecond _,fun _ => rfl⟩
    · rename_i hwired
      rw [Bool.eq_false_of_not_eq_true hwired] at hfirst
      exact ⟨rfl,hlog₁.1,fun _ => hfirst,fun _ => rfl⟩

theorem along_sign {content : OCSPSignRequest} (hlog : ∀ e∈log,asksGood e.op=false)
    (hcontent : content.certStatus=.good ↔ failsOpen svc log=true) :
    Along (S := controlPlane) anyPoint (fun outcome _ log' => NotGood outcome log' ↔ failsOpen svc log'=false)
      (signOCSPResponse issuerID content) db log := by
  refine along_read rfl trivial fun c r heff => ?_
  have hsame : failsOpen svc (⟨(),.signOCSPResponse issuerID content,r⟩::log)=failsOpen svc log := by rfl
  change NotGood r _ ↔ _
  rw [hsame]
  by_cases hopen : failsOpen svc log=true
  · rw [hopen]
    refine ⟨fun hnot => ?_,nofun⟩
    have hasked := hnot.1 _ List.mem_cons_self
    exact absurd (hcontent.mpr hopen) (of_decide_eq_false hasked)
  have hne : content.certStatus≠.good := fun hgood => hopen (hcontent.mp hgood)
  rw [Bool.eq_false_of_not_eq_true hopen]
  refine ⟨fun _ => rfl,fun _ => ⟨asksGood_cons hlog _ _ (decide_eq_false hne),?_⟩⟩
  rintro response rfl
  have hresponse : response=⟨issuerID,content⟩ := answer_fst (congrArg Prod.fst heff)
  rw [hresponse]
  cases hstatus : content.certStatus with
  | good => exact absurd hstatus hne
  | revoked => exact Or.inl rfl
  | unknown => exact Or.inr rfl

include hlong in
theorem along_liveSignOCSPResponse (nonce : List UInt8) :
    Along (S := controlPlane) anyPoint (fun outcome _ log => NotGood outcome log ↔ failsOpen svc log=false)
      (liveSignOCSPResponse svc issuerID serialHex nonce) db [] := by
  have hstart : Looking [] := ⟨List.forall_mem_nil _,rfl⟩
  have herror : ∀ (err : GoError) (log : Trace),Looking log → failsOpen svc log=false →
      (NotGood (.error err) log ↔ failsOpen svc log=false) :=
    fun err log hlog hclosed => ⟨fun _ => hclosed,fun _ => ⟨hlog.1,nofun⟩⟩
  unfold liveSignOCSPResponse
  split
  · exact herror _ _ hstart rfl
  split
  · exact herror _ _ hstart rfl
  refine along_read rfl trivial fun c known heff => ?_
  have hlog₁ := hstart.cons (.getIssuer issuerID) known rfl rfl
  split
  · exact herror _ _ hlog₁ rfl
  refine along_read rfl trivial fun c' now heff' => ?_
  have hlog₂ := hlog₁.cons .timeNow now rfl rfl
  refine (along_bind _ _ _ _ _).mpr ?_
  refine Along.mono (fun _ _ h => h) ?_ (along_shortLivedExempt hlong hlog₂)
  rintro exempt s log ⟨rfl,rfl,hlog⟩
  rw [if_neg Bool.false_ne_true]
  refine (along_bind _ _ _ _ _).mpr ?_
  refine Along.mono (fun _ _ h => h) ?_ (along_currentStatus hlog)
  rintro content s log' ⟨rfl,hgood,hcontent⟩
  exact along_sign hgood hcontent

end Signing

/-- A signing of a status for a serial number whose certificate is not exempt always comes to an end, whichever lookups
fail. It returns an error, or a response that says revoked or unknown, if and only if the latest revocation lookup
succeeds or the lookup of the certificate does not. -/
theorem liveSign_good_iff_fails_open (svc : CAOperationsSvc) (issuerID serialHex : String) (nonce : List UInt8) (db : Db)
    (hlong : ∀ rev∈db.revocations,revocationKey rev=(issuerID,serialHex) → shortLivedCert db rev.certificateID=false)
    (cfg : Config controlPlane Unit (Try OCSPResponse))
    (hreach : Reach anyStep (initial (fun _ => liveSignOCSPResponse svc issuerID serialHex nonce) db) cfg) :
    (∃ cfg' outcome,Reach anyStep cfg cfg' ∧ cfg'.threads ()=.ret outcome) ∧
      ∀ outcome,cfg.threads ()=.ret outcome → (NotGood outcome cfg.log ↔ failsOpen svc cfg.log=false) := by
  constructor
  · have huses : Prompt (cfg.threads ()) :=
      reach_invariant (I := fun b : Config controlPlane Unit _ => (b.threads ()).Uses fun op : Op =>
        op.answersAtOnce=true) (liveSignOCSPResponse_reads svc issuerID serialHex nonce) (uses_step ()) hreach
    refine reach_return_of_uses (fun b op hop => ?_) huses
    exact ⟨noFault,_,_,trivial,perform_of_not_blocked (not_blocked_of_answersAtOnce hop noFault b.state)⟩
  · intro outcome hret
    have hend := reach_along (along_liveSignOCSPResponse hlong nonce) hreach
    rw [Config.At,hret] at hend
    exact hend

def sampleRevocation : CertificateRevocation :=
  {id := "rev-1", certificateID := "mc-1", serialNumber := "0a", reason := "keyCompromise", issuerID := "iss-local"}

def sampleDb : Db where
  certs := [{id := "mc-1", issuerID := "iss-local", status := .revoked}]
  versions := [{id := "v-1", certificateID := "mc-1", serialNumber := "0a"}]
  revocations := [sampleRevocation]
  issuers := ["iss-local"]

def sampleStart : Config controlPlane Unit (Try OCSPResponse) :=
  initial (fun _ => liveSignOCSPResponse {} "iss-local" "0a" []) sampleDb

/-- What a sample run shows: the status signed and whether lookups failed open. -/
def sampleView (cfg : Config controlPlane Unit (Try OCSPResponse)) : Option (Option OCSPStatus×Bool) :=
  (cfg.threads ()).result?.map fun outcome =>
    (outcome.toOption.map fun response => response.content.certStatus,failsOpen {} cfg.log)

theorem of_sampleView {cfg : Config controlPlane Unit (Try OCSPResponse)} {status : OCSPStatus} {opened : Bool}
    (h : sampleView cfg=some (some status,opened)) : failsOpen {} cfg.log=opened ∧
      ∃ response,cfg.threads ()=.ret (.ok response) ∧ response.content.certStatus=status := by
  obtain ⟨outcome,houtcome,hview⟩ := map_eq_some_iff.mp h
  obtain ⟨hstatus,hopened⟩ := Prod.mk.inj hview
  refine ⟨hopened,?_⟩
  cases outcome with
  | error => cases hstatus
  | ok response => exact ⟨response,Prog.eq_ret_of_result? houtcome,Option.some.inj hstatus⟩

/-- Without faults the revocation is reported. -/
theorem liveSign_good_iff_fails_open_sample : HasRow ("iss-local","0a") sampleDb ∧
    ∃ cfg outcome,Reach anyStep sampleStart cfg ∧ cfg.threads ()=.ret outcome ∧ NotGood outcome cfg.log := by
  have hrun : (sampleStart.runSchedule anyStep (List.replicate 6 ((),noFault))).bind sampleView=
      some (some .revoked,false) := by decide
  obtain ⟨cfg,hcfg,hview⟩ := bind_eq_some_iff.mp hrun
  obtain ⟨hclosed,response,hret,-⟩ := of_sampleView hview
  have hreach := reach_of_runSchedule hcfg
  have hiff := (liveSign_good_iff_fails_open {} "iss-local" "0a" [] sampleDb (by decide) cfg hreach).2 _ hret
  exact ⟨⟨sampleRevocation,List.mem_singleton_self _,rfl⟩,cfg,_,hreach,hret,hiff.mpr hclosed⟩

/-- The second revocation lookup fails and the certificate is found, so a revoked certificate is signed as good. -/
theorem revoked_signed_good : HasRow ("iss-local","0a") sampleDb ∧ shortLivedCert sampleDb "mc-1"=false ∧
    ∃ cfg response,Reach anyStep sampleStart cfg ∧ cfg.threads ()=.ret (.ok response) ∧
      response.content.certStatus=.good := by
  have hrun : (sampleStart.runSchedule anyStep (List.replicate 4 ((),noFault)++
      [((),{fault := some ⟨"connection reset",none⟩})]++List.replicate 2 ((),noFault))).bind sampleView=
      some (some .good,true) := by decide
  obtain ⟨cfg,hcfg,hview⟩ := bind_eq_some_iff.mp hrun
  obtain ⟨-,response,hret,hstatus⟩ := of_sampleView hview
  exact ⟨⟨sampleRevocation,List.mem_singleton_self _,rfl⟩,by decide,cfg,response,reach_of_runSchedule hcfg,hret,hstatus⟩

end Certctl.OcspLookupFaults
