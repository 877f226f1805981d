import Certctl.ProgramPaths
import Certctl.RenewalJobs

/-!
# Profile policy at enrollment

Three paths have a request signed under a profile: enrollment over SCEP,
over EST, and the request of an agent for a renewal. Each reads the profile,
checks the request against it and passes its usages and longest validity to
the issuer. When the profile cannot be read, the check runs without one and
accepts every key, and the issuer is asked without bounds.
-/

namespace Certctl.EnrollmentPolicy

open AtomicProgram AtomicInterleaving ProgramPaths ControlPlaneStore DomainRecords RenewalJobs
open List

/-- What a certificate request names. -/
structure ParsedCSR where
  commonName : String
  dnsNames : List String := []
  ipAddresses : List String := []
  emailAddresses : List String := []
  uris : List String := []

/-- Reading of requests, and the key rules of a profile. -/
structure RequestLibrary where
  /-- Decoding, parsing and the check of the signature. -/
  parseCSR : String→Try ParsedCSR
  /-- Algorithm and size of the key. -/
  extractCSRKeyInfo : String→Try (String×ℤ)
  /-- Allowed algorithms with their smallest size; none for no restriction. -/
  allowedKeyAlgorithms : CertificateProfile→List (String×ℤ)
  mismatch : CertificateProfile→String×ℤ→GoError

def validateCSRAgainstProfile (lib : RequestLibrary) (csrPEM : String) : Option CertificateProfile→Try Unit
  | none => (lib.extractCSRKeyInfo csrPEM).map fun _ => ()
  | some profile =>
    match lib.extractCSRKeyInfo csrPEM with
    | .error err => .error err
    | .ok key =>
      let rules := lib.allowedKeyAlgorithms profile
      if rules.isEmpty || rules.any (fun rule => rule.1=key.1 && rule.2 ≤ key.2) then .ok ()
      else .error (lib.mismatch profile key)

/-- Wiring of an enrollment service. -/
structure EnrollmentService where
  issuerID : String
  profileID : String
  profileRepo : Bool := true

def loadProfile (profileRepo : Bool) (profileID : String) : Service (Option CertificateProfile) :=
  if profileID="" ∨ !profileRepo then pure none
  else do
    match ← getProfile profileID with
    | .error _ => pure none
    | .ok profile => pure (some profile)

/-- The enrollment that both protocols share, up to the front of one error. -/
def processEnrollment (lib : RequestLibrary) (svc : EnrollmentService) (rejected csrPEM : String) :
    Service (Try (String×String)) :=
  match lib.parseCSR csrPEM with
  | .error err => raise err
  | .ok csr =>
    if csr.commonName="" then raise ⟨"CSR must include a Common Name",none⟩
    else do
      let profile ← loadProfile svc.profileRepo svc.profileID
      match validateCSRAgainstProfile lib csrPEM profile with
      | .error err => raise (err.wrapped rejected)
      | .ok _ =>
        let sans := csr.dnsNames++csr.ipAddresses++csr.emailAddresses++csr.uris
        match ← issueCertificate svc.issuerID csr.commonName sans csrPEM (profileEKUs profile)
            (profileMaxTTL profile) (profileMustStaple profile) with
        | .error err => raise (err.wrapped "certificate issuance failed: ")
        | .ok result => pure (.ok (result.certPEM,result.chainPEM))

/-- The paths on which a request is signed under a profile. -/
inductive Enrollment where
  | scep (svc : EnrollmentService) (csrPEM : String)
  | est (svc : EnrollmentService) (csrPEM : String)
  | agent (svc : RenewalService) (job : Job) (cert : ManagedCertificate) (csrPEM : String)

def Enrollment.program (lib : RequestLibrary) : Enrollment→Service Unit
  | .scep svc csrPEM => forEffect (processEnrollment lib svc "SCEP enrollment rejected: " csrPEM)
  | .est svc csrPEM => forEffect (processEnrollment lib svc "EST enrollment rejected: " csrPEM)
  | .agent svc job cert csrPEM => forEffect
      (completeAgentCSRRenewal {svc with validateCSRAgainstProfile := validateCSRAgainstProfile lib} job cert csrPEM)

def Enrollment.profileID : Enrollment→String
  | .scep svc _ => svc.profileID
  | .est svc _ => svc.profileID
  | .agent _ _ cert _ => cert.certificateProfileID

def Enrollment.profileRepo : Enrollment→Bool
  | .scep svc _ => svc.profileRepo
  | .est svc _ => svc.profileRepo
  | .agent svc _ _ _ => svc.profileRepo

def Enrollment.csrPEM : Enrollment→String
  | .scep _ csrPEM => csrPEM
  | .est _ csrPEM => csrPEM
  | .agent _ _ _ csrPEM => csrPEM

/-- The usages and the longest validity that an issuer is asked for. -/
def issuerAsked : Op→Option (List String×ℤ)
  | .issueCertificate _ _ _ _ ekus maxTTLSeconds _ => some (ekus,maxTTLSeconds)
  | .renewCertificate _ _ _ _ ekus maxTTLSeconds _ => some (ekus,maxTTLSeconds)
  | _ => none

/-- Calls and answers of one enrollment, oldest first. -/
abbrev Events := Log controlPlane Unit

/-- The repository answers every read of a profile by the function. -/
def AnsweredBy (profiles : String→Try CertificateProfile) (events : Events) : Prop :=
  ∀ id r,⟨(),.getProfile id,r⟩∈events → r=profiles id

def Loaded (call : Enrollment) (events : Events) (profile : CertificateProfile) : Prop :=
  ⟨(),.getProfile call.profileID,.ok profile⟩∈events

/-- The issuer is asked only after a profile was loaded that accepts the request, and within its bounds. -/
def FailsClosed (lib : RequestLibrary) (call : Enrollment) (events : Events) : Prop :=
  ∀ front e rest,events=front++e::rest → ∀ asked,issuerAsked e.op=some asked →
    ∃ profile,Loaded call front profile ∧ validateCSRAgainstProfile lib call.csrPEM (some profile)=.ok () ∧
      asked=(profile.allowedEKUs,profile.maxTTLSeconds)

/-- The request is read and names a subject. -/
def RequestLibrary.Names (lib : RequestLibrary) (csrPEM : String) : Prop :=
  ∃ csr,lib.parseCSR csrPEM=.ok csr ∧ csr.commonName≠""

/-- What is asked of the request before the profile is looked up; an agent's request is not read by itself. -/
def Enrollment.Readable (lib : RequestLibrary) : Enrollment→Prop
  | .scep _ csrPEM => lib.Names csrPEM
  | .est _ csrPEM => lib.Names csrPEM
  | .agent _ _ _ _ => True

/-- The request passes what is checked of it without a profile. -/
def Enrollment.WellFormed (lib : RequestLibrary) (call : Enrollment) : Prop :=
  call.Readable lib ∧ ∃ key,lib.extractCSRKeyInfo call.csrPEM=.ok key

section Walks

/-- Reads no profile, and asks an issuer only within the bounds of the profile. -/
def InBounds (profile : Option CertificateProfile) (op : Op) : Prop :=
  (∀ id,op≠.getProfile id) ∧ ∀ asked,issuerAsked op=some asked → asked=(profileEKUs profile,profileMaxTTL profile)

variable {lib : RequestLibrary} {events : Events} {profile : Option CertificateProfile}

theorem of_aside {op : Op} (hop : Op.aside op=true) : (∀ id,op≠.getProfile id) ∧ issuerAsked op=none := by
  cases op with
  | getProfile | issueCertificate | renewCertificate => cases hop
  | _ => exact ⟨nofun,rfl⟩

theorem finishOps_inBounds (job : Job) (cert : ManagedCertificate) : FinishOps (InBounds profile) job cert where
  aside := fun _ hop => ⟨(of_aside hop).1,fun _ hasked => nomatch (of_aside hop).2.symm.trans hasked⟩
  fail := fun _ => ⟨nofun,nofun⟩
  complete := ⟨nofun,nofun⟩
  deploy := fun _ _ _ _ => ⟨nofun,nofun⟩
  version := fun _ => ⟨nofun,nofun⟩
  update := fun _ _ => ⟨nofun,nofun⟩

variable {profileRepo : Bool} {profileID : String}

theorem path_loadProfile (h : Path (loadProfile profileRepo profileID) events profile) :
    (¬(profileRepo=true ∧ profileID≠"") ∧ events=[] ∧ profile=none) ∨
      (profileRepo=true ∧ profileID≠"") ∧ ∃ r : Try CertificateProfile,
        events=[⟨(),.getProfile profileID,r⟩] ∧ profile=r.toOption := by
  unfold loadProfile at h
  split at h
  · rename_i hunread
    obtain ⟨rfl,rfl⟩ := h
    refine .inl ⟨?_,rfl,rfl⟩
    rintro ⟨rfl,hne⟩
    rcases hunread with hempty|hunset
    · exact hne hempty
    · cases hunset
  rename_i hread
  obtain ⟨hne,hset⟩ := not_or.mp hread
  obtain ⟨r,rest,rfl,hrest⟩ := h
  refine .inr ⟨⟨by simpa using hset,hne⟩,r,?_⟩
  cases r with
  | error | ok =>
    obtain ⟨rfl,rfl⟩ := hrest
    exact ⟨rfl,rfl⟩

/-- The issuer was not asked, or it was asked after the request was read, the profile looked up and the request
accepted. -/
def Checked (lib : RequestLibrary) (readable : Prop) (profileRepo : Bool) (profileID csrPEM : String)
    (events : Events) : Prop :=
  (∀ e∈events,issuerAsked e.op=none) ∨ readable ∧ ∃ profile before reads after,events=before++(reads++after) ∧
    (∀ e∈before,Op.aside e.op=true) ∧ Path (loadProfile profileRepo profileID) reads profile ∧
    validateCSRAgainstProfile lib csrPEM profile=.ok () ∧ ∀ e∈after,InBounds profile e.op

theorem quiet_loadProfile
    (h : Path (loadProfile profileRepo profileID) events profile) : ∀ e∈events,issuerAsked e.op=none := by
  rcases path_loadProfile h with ⟨-,rfl,-⟩|⟨-,r,rfl,-⟩
  · exact fun e he => (not_mem_nil he).elim
  · exact forall_mem_singleton.mpr rfl

variable {csrPEM : String}

theorem checked_processEnrollment {svc : EnrollmentService} {rejected : String}
    {out : Try (String×String)} (h : Path (processEnrollment lib svc rejected csrPEM) events out) :
    Checked lib (lib.Names csrPEM) svc.profileRepo svc.profileID csrPEM events := by
  have hnone : Checked lib (lib.Names csrPEM) svc.profileRepo svc.profileID csrPEM [] :=
    .inl fun e he => (not_mem_nil he).elim
  unfold processEnrollment at h
  split at h
  · exact h.1 ▸ hnone
  rename_i csr hparse
  split at h
  · exact h.1 ▸ hnone
  rename_i hname
  obtain ⟨profile,reads,after,rfl,hreads,hafter⟩ := path_bind.mp h
  split at hafter
  · rw [hafter.1,append_nil]
    exact .inl (quiet_loadProfile hreads)
  rename_i hvalid
  refine .inr ⟨⟨csr,hparse,hname⟩,profile,[],reads,after,rfl,fun e he => (not_mem_nil he).elim,hreads,hvalid,?_⟩
  refine path_uses ?_ hafter
  refine uses_request ⟨nofun,fun asked hasked => ?_⟩ fun r => ?_
  · exact (Option.some.inj hasked).symm
  cases r with
  | error | ok => trivial

section Agent

variable {svc : RenewalService} {job : Job} {cert : ManagedCertificate} {out : Try Unit}

theorem signSubmitted_inBounds : (signSubmitted svc job cert csrPEM profile).Uses (InBounds profile) := by
  refine uses_signSubmitted (finishOps_inBounds job cert) ⟨nofun,fun asked hasked => ?_⟩
  exact (Option.some.inj hasked).symm

theorem checked_completeAgentCSRRenewal (h : Path (completeAgentCSRRenewal svc job cert csrPEM) events out)
    (hvalidate : svc.validateCSRAgainstProfile=validateCSRAgainstProfile lib) :
    Checked lib True svc.profileRepo cert.certificateProfileID csrPEM events := by
  have hfail : ∀ {errMsg : String} {err : GoError} {part : Events},
      Path ((failJob job errMsg).bind fun _ => .ret (.error err)) part out → ∀ e∈part,issuerAsked e.op=none := by
    intro errMsg err part hpart
    have huses : ((failJob job errMsg).bind fun _ => (.ret (.error err) : Service (Try Unit))).Uses
        fun op => issuerAsked op=none := uses_failJob rfl trivial
    exact path_uses huses hpart
  obtain ⟨known,rest,rfl,hrest⟩ := path_perform.mp h
  split at hrest
  · exact .inl (forall_mem_cons.mpr ⟨rfl,hfail hrest⟩)
  obtain ⟨profile,reads,after,rfl,hreads,hafter⟩ := path_bind.mp hrest
  rw [hvalidate] at hafter
  split at hafter
  · exact .inl (forall_mem_cons.mpr ⟨rfl,forall_mem_append.mpr ⟨quiet_loadProfile hreads,hfail hafter⟩⟩)
  rename_i hvalid
  refine .inr ⟨trivial,profile,[_],reads,after,rfl,fun e he => mem_singleton.mp he ▸ rfl,hreads,hvalid,?_⟩
  refine path_uses ?_ hafter
  exact uses_request ⟨nofun,nofun⟩ (onAnswer fun _ => signSubmitted_inBounds)

end Agent

variable {call : Enrollment}

theorem checked_program (h : Path (call.program lib) events ()) :
    Checked lib (call.Readable lib) call.profileRepo call.profileID call.csrPEM events := by
  cases call with
  | scep | est =>
    obtain ⟨out,before,after,rfl,hbefore,rfl,-⟩ := path_bind.mp h
    exact (append_nil before).symm ▸ checked_processEnrollment hbefore
  | agent =>
    obtain ⟨out,before,after,rfl,hbefore,rfl,-⟩ := path_bind.mp h
    have hchecked := checked_completeAgentCSRRenewal hbefore rfl
    exact (append_nil before).symm ▸ hchecked

/-- An event that asks the issuer stands behind those that do not. -/
theorem front_of_asked {before after front rest : Events} {e : Event controlPlane Unit} {asked : List String×ℤ}
    (hquiet : ∀ x∈before,issuerAsked x.op=none) (hasked : issuerAsked e.op=some asked)
    (hevents : before++after=front++e::rest) : ∃ mid,front=before++mid ∧ after=mid++e::rest := by
  rcases append_eq_append_iff.mp hevents with hbehind|⟨mid,hbefore,hrest⟩
  · exact hbehind
  cases mid with
  | nil => exact ⟨[],by simpa using hbefore.symm,hrest.symm⟩
  | cons =>
    obtain ⟨rfl,-⟩ := List.cons.inj hrest
    rw [hquiet e (hbefore ▸ mem_append_right _ mem_cons_self)] at hasked
    cases hasked

theorem key_of_valid (h : validateCSRAgainstProfile lib csrPEM profile=.ok ()) :
    ∃ key,lib.extractCSRKeyInfo csrPEM=.ok key := by
  cases hkey : lib.extractCSRKeyInfo csrPEM with
  | ok key => exact ⟨key,rfl⟩
  | error => cases profile <;> simp [validateCSRAgainstProfile,hkey,Except.map] at h

/-- The issuer is asked without a profile: what precedes and follows the lookup reads none. -/
structure AsksWithout (call : Enrollment) (lib : RequestLibrary) (before reads after : Events) : Prop where
  path : Path (call.program lib) (before++(reads++after)) ()
  before_aside : ∀ e∈before,Op.aside e.op=true
  after_inBounds : ∀ e∈after,InBounds none e.op
  asks : ∃ e∈after,∃ asked,issuerAsked e.op=some asked

theorem processEnrollment_unchecked {svc : EnrollmentService} (rejected : String) (hnames : lib.Names csrPEM)
    (hvalid : validateCSRAgainstProfile lib csrPEM none=.ok ())
    (hreads : Path (loadProfile svc.profileRepo svc.profileID) events none) :
    ∃ e out,Path (processEnrollment lib svc rejected csrPEM) (events++[e]) out ∧ InBounds none e.op ∧
      ∃ asked,issuerAsked e.op=some asked := by
  obtain ⟨csr,hparse,hname⟩ := hnames
  refine ⟨⟨(),.issueCertificate svc.issuerID csr.commonName
    (csr.dnsNames++csr.ipAddresses++csr.emailAddresses++csr.uris) csrPEM [] 0 false,.error ⟨"refused",none⟩⟩,
    .error ⟨"certificate issuance failed: refused",none⟩,?_,⟨nofun,fun asked hasked => (Option.some.inj hasked).symm⟩,_,rfl⟩
  rw [processEnrollment,hparse]
  dsimp only
  rw [if_neg hname]
  refine path_bind.mpr ⟨none,events,_,rfl,hreads,?_⟩
  rw [hvalid]
  exact ⟨_,[],rfl,rfl,rfl⟩

/-- When the lookup comes to no profile, a well formed request reaches the issuer. -/
theorem asks_without_profile (hform : call.WellFormed lib)
    (hreads : Path (loadProfile call.profileRepo call.profileID) events none) :
    ∃ before after,AsksWithout call lib before events after := by
  obtain ⟨hreadable,key,hkey⟩ := hform
  have hvalid : validateCSRAgainstProfile lib call.csrPEM none=.ok () := by
    rw [validateCSRAgainstProfile,hkey]
    rfl
  cases call with
  | scep | est =>
    obtain ⟨e,out,hpath,hbounds,hasked⟩ := processEnrollment_unchecked _ hreadable hvalid hreads
    refine ⟨[],[e],⟨?_,fun e he => (not_mem_nil he).elim,forall_mem_singleton.mpr hbounds,e,mem_cons_self,hasked⟩⟩
    exact path_bind.mpr ⟨out,_,[],(append_nil _).symm,hpath,rfl,rfl⟩
  | agent svc job cert csrPEM =>
    obtain ⟨rest,out,hrest⟩ := exists_path (S := controlPlane) (fun op => ⟨(effect {} {} op).1⟩)
      (signSubmitted {svc with validateCSRAgainstProfile := validateCSRAgainstProfile lib} job cert csrPEM none)
    refine ⟨[⟨(),.getIssuer cert.issuerID,true⟩],⟨(),.withinTx [.updateJobStatus job.id .running ""],.ok ()⟩::rest,
      ⟨?_,forall_mem_singleton.mpr rfl,forall_mem_cons.mpr ⟨⟨nofun,nofun⟩,path_uses signSubmitted_inBounds hrest⟩,?_⟩⟩
    · refine path_bind.mpr ⟨out,_,[],(append_nil _).symm,?_,rfl,rfl⟩
      refine path_perform.mpr ⟨true,_,rfl,?_⟩
      rw [if_neg (by decide)]
      refine path_bind.mpr ⟨none,events,_,rfl,hreads,?_⟩
      dsimp only [Enrollment.csrPEM] at hvalid ⊢
      rw [hvalid]
      exact ⟨.ok (),rest,rfl,hrest⟩
    · obtain ⟨r,rest',rfl,-⟩ := hrest
      exact ⟨_,mem_cons_of_mem _ mem_cons_self,_,rfl⟩

/-- Where no profile is to be had, the lookup comes to none. -/
theorem loadProfile_none {profiles : String→Try CertificateProfile}
    (h : ¬((profileRepo=true ∧ profileID≠"") ∧ ∃ profile,profiles profileID=.ok profile)) :
    ∃ events,Path (loadProfile profileRepo profileID) events none ∧
      ∀ id r,⟨(),.getProfile id,r⟩∈events → r=profiles id ∧ ∀ profile,r≠.ok profile := by
  by_cases hset : profileID="" ∨ !profileRepo
  · refine ⟨[],?_,fun id r hr => (not_mem_nil hr).elim⟩
    rw [loadProfile,if_pos hset]
    exact ⟨rfl,rfl⟩
  have hwired : profileRepo=true ∧ profileID≠"" := by simpa [and_comm] using hset
  cases hanswer : profiles profileID with
  | ok profile => exact absurd ⟨hwired,profile,hanswer⟩ h
  | error err =>
    refine ⟨[⟨(),.getProfile profileID,.error err⟩],?_,fun id r hr => ?_⟩
    · rw [loadProfile,if_neg hset]
      exact ⟨.error err,[],rfl,rfl,rfl⟩
    · cases mem_singleton.mp hr
      exact ⟨hanswer.symm,nofun⟩

end Walks

/-- The repository is set, a profile is configured and the repository has it: exactly then every path of a well
formed request fails closed, however the other calls are answered. -/
theorem profile_policy_enforced (lib : RequestLibrary) (call : Enrollment)
    (profiles : String→Try CertificateProfile) :
    (∀ events,Path (call.program lib) events () → AnsweredBy profiles events → FailsClosed lib call events) ↔
      (call.WellFormed lib → (call.profileRepo=true ∧ call.profileID≠"") ∧
        ∃ profile,profiles call.profileID=.ok profile) := by
  constructor
  · intro hall hform
    by_contra hnone
    obtain ⟨reads,hreads,hanswers⟩ := loadProfile_none hnone
    obtain ⟨before,after,hasks⟩ := asks_without_profile hform hreads
    have hread : ∀ id r,⟨(),.getProfile id,r⟩∈before++(reads++after) → ⟨(),.getProfile id,r⟩∈reads := by
      intro id r hr
      rcases mem_append.mp hr with hearly|hr
      · cases hasks.before_aside _ hearly
      · exact (mem_append.mp hr).resolve_right fun hlate => (hasks.after_inBounds _ hlate).1 id rfl
    have hclosed := hall _ hasks.path fun id r hr => (hanswers id r (hread id r hr)).1
    obtain ⟨e,he,asked,hasked⟩ := hasks.asks
    obtain ⟨front,rest,hsplit⟩ := append_of_mem (mem_append_right before (mem_append_right reads he))
    obtain ⟨profile,hloaded,-⟩ := hclosed front e rest hsplit asked hasked
    have hmem := hread _ _ (hsplit ▸ mem_append_left _ hloaded)
    exact (hanswers _ _ hmem).2 profile rfl
  · intro hset events hpath hrepo front e rest hevents asked hasked
    rcases checked_program hpath with hquiet|⟨hreadable,profile,before,reads,after,rfl,hbefore,hreads,hvalid,hafter⟩
    · rw [hquiet e (hevents ▸ mem_append_right _ mem_cons_self)] at hasked
      cases hasked
    obtain ⟨hwired,found,hfound⟩ := hset ⟨hreadable,key_of_valid hvalid⟩
    rcases path_loadProfile hreads with ⟨hunread,-⟩|⟨-,r,rfl,rfl⟩
    · exact absurd hwired hunread
    obtain rfl : r=.ok found := (hrepo _ r (mem_append_right _ mem_cons_self)).trans hfound
    rw [← append_assoc] at hevents
    obtain ⟨mid,rfl,rfl⟩ := front_of_asked (forall_mem_append.mpr
      ⟨fun x hx => (of_aside (hbefore x hx)).2,quiet_loadProfile hreads⟩) hasked hevents
    have hbounds := (hafter e (mem_append_right _ mem_cons_self)).2 asked hasked
    exact ⟨found,mem_append_left _ (mem_append_right _ mem_cons_self),hvalid,hbounds⟩

/-- Requests for a device with a small key, and profiles that ask for a large one. -/
def sampleLibrary : RequestLibrary where
  parseCSR := fun _ => .ok {commonName := "device"}
  extractCSRKeyInfo := fun csrPEM => .ok ("RSA",if csrPEM="small" then 1024 else 2048)
  allowedKeyAlgorithms := fun _ => [("RSA",2048)]
  mismatch := fun _ _ => ⟨"key does not match the profile",none⟩

def sampleCall (csrPEM : String) : Enrollment := .scep ⟨"iss","prof",true⟩ csrPEM

def sampleProfile : CertificateProfile := {id := "prof", maxTTLSeconds := 3600, allowedEKUs := ["clientAuth"]}

/-- A read of the profile with the answer, and the request to the issuer that follows it. -/
def sampleEvents (csrPEM : String) (r : Try CertificateProfile) : Events :=
  [⟨(),.getProfile "prof",r⟩,⟨(),.issueCertificate "iss" "device" [] csrPEM (profileEKUs r.toOption)
    (profileMaxTTL r.toOption) (profileMustStaple r.toOption),.ok ⟨"cert","chain","01",0,0⟩⟩]

/-- The read of the profile fails, and a key that the profile rules out is certified without its bounds. -/
theorem profile_policy_skipped : ∃ err : GoError,
    Path ((sampleCall "small").program sampleLibrary) (sampleEvents "small" (.error err)) () ∧
      validateCSRAgainstProfile sampleLibrary "small" (some sampleProfile)≠.ok () ∧
      ¬FailsClosed sampleLibrary (sampleCall "small") (sampleEvents "small" (.error err)) := by
  have hrefused : validateCSRAgainstProfile sampleLibrary "small" (some sampleProfile)≠.ok () := by
    simp [validateCSRAgainstProfile,sampleLibrary]
  refine ⟨⟨"connection reset",none⟩,⟨_,_,rfl,_,_,rfl,rfl,rfl⟩,hrefused,fun hclosed => ?_⟩
  obtain ⟨profile,hloaded,-⟩ := hclosed [_] _ [] rfl _ rfl
  cases mem_singleton.mp hloaded

end Certctl.EnrollmentPolicy
