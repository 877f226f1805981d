import Certctl.AcmeRevocation
import Certctl.OcspFreshness

/-!
# Where a revocation is published

A revocation of a managed certificate records the serial number of its
newest version. Status responses and revocation lists are made from the
recorded serial numbers, so they speak of that version; certificates of
short-lived profiles are left out of both. An ACME client that presents an
older version has the newest one revoked.
-/

namespace Certctl.RevocationPublication

open AtomicProgram Prog ControlPlaneTables ControlPlaneStore DomainRecords RecordTable
open List hiding lookup
open OcspResponder OcspRequestTracking OcspFreshness RevocationService SerialNumberKeys AcmeRevocation

/-- `none` stands for a text that is no numeral, whose number the code leaves undefined. -/
def crlEntry (rev : CertificateRevocation) : CRLEntry :=
  ⟨HexNumerals.parse rev.serialNumber,rev.revokedAt,crlReasonCode rev.reason⟩

def crlExempt (svc : CAOperationsSvc) (rev : CertificateRevocation) : Service Bool :=
  if svc.profileRepo && svc.certRepo then certShortLived rev.certificateID else pure false

def crlEntries (svc : CAOperationsSvc) : List CertificateRevocation→Service (List CRLEntry)
  | [] => pure []
  | rev::rest => do
    let exempt ← crlExempt svc rev
    let entries ← crlEntries svc rest
    if exempt then pure entries else pure (crlEntry rev::entries)

def generateDERCRL (svc : CAOperationsSvc) (issuerID : String) : Service (Try RevocationList) :=
  if !svc.revocationRepo then raise ⟨"revocation repository not configured",none⟩
  else if !svc.issuerRegistry then raise ⟨"issuer registry not configured",none⟩
  else do
    if !(← getIssuer issuerID) then raise ⟨"issuer not found: "++issuerID,none⟩
    else
      match ← listRevocationsByIssuer issuerID with
      | .error err => raise (err.wrapped ("failed to list revocations for issuer "++issuerID++": "))
      | .ok revocations =>
        let entries ← crlEntries svc revocations
        generateCRL issuerID entries

section Lists

variable {svc : CAOperationsSvc} {issuerID serial : String} {db : Db}

def exemptRow (svc : CAOperationsSvc) (db : Db) (rev : CertificateRevocation) : Bool :=
  svc.profileRepo && svc.certRepo && shortLivedCert db rev.certificateID

theorem total_crlEntries (revocations : List CertificateRevocation) :
    (crlEntries svc revocations).Total faultFree (fun entries db' => db'=db ∧
      entries=(revocations.filter fun rev => !exemptRow svc db rev).map crlEntry) db := by
  induction revocations with
  | nil => exact ⟨rfl,rfl⟩
  | cons head rest ih =>
    have hexempt : (crlExempt svc head).Total faultFree (fun exempt db' => db'=db ∧ exempt=exemptRow svc db head) db := by
      unfold crlExempt exemptRow
      split
      · rename_i hwired
        rw [hwired]
        exact total_of_reads (certShortLived_reads head.certificateID) (always_certShortLived head.certificateID)
      · rename_i hwired
        rw [Bool.eq_false_iff.mpr hwired]
        exact ⟨rfl,rfl⟩
    refine total_bind.mpr (hexempt.mono ?_)
    rintro exempt db' ⟨rfl,rfl⟩
    refine total_bind.mpr (ih.mono ?_)
    rintro entries db' ⟨rfl,rfl⟩
    cases hhead : exemptRow svc db' head with
    | true | false =>
      refine ⟨rfl,?_⟩
      rw [filter_cons,hhead]
      rfl

theorem total_generateDERCRL (hrepo : svc.revocationRepo=true) (hregistry : svc.issuerRegistry=true)
    (hissuer : db.issuers.contains issuerID=true) :
    (generateDERCRL svc issuerID).Total faultFree (fun outcome _ => ∃ list,outcome=.ok list ∧
      list.issuerID=issuerID ∧ list.entries.Perm
        ((db.revocations.filter fun rev => !exemptRow svc db rev && rev.issuerID=issuerID).map crlEntry)) db := by
  simp only [generateDERCRL,hrepo,hregistry,Bool.not_true,Bool.false_eq_true]
  refine total_read rfl (fun _ => rfl) fun c hc => ?_
  simp only [effect,hissuer]
  refine total_read rfl (fun _ => rfl) fun c hc => ?_
  simp only [effect,answer,fallible,hc]
  refine total_bind.mpr ((total_crlEntries _).mono ?_)
  rintro entries db' ⟨rfl,rfl⟩
  refine total_read rfl (fun _ => rfl) fun c hc => ?_
  simp only [effect,answer,fallible,hc]
  refine ⟨_,rfl,rfl,?_⟩
  rw [← filter_filter]
  exact ((perm_orderBy _ _ _).filter _).map _

/-- Responses and lists made from the tables say that the serial number is revoked. -/
structure Published (svc : CAOperationsSvc) (issuerID serial : String) (db : Db) : Prop where
  ocsp : ∀ nonce,(liveSignOCSPResponse svc issuerID serial nonce).Total faultFree
    (fun outcome _ => ∃ response,outcome=.ok response ∧ response.content.certStatus=.revoked) db
  crl : (generateDERCRL svc issuerID).Total faultFree (fun outcome _ => ∃ list,outcome=.ok list ∧
    list.issuerID=issuerID ∧ ∃ entry∈list.entries,entry.serialNumber=HexNumerals.parse serial) db

theorem published_of_row (hrepo : svc.revocationRepo=true) (hregistry : svc.issuerRegistry=true)
    (hissuer : db.issuers.contains issuerID=true) (hrow : HasRow (issuerID,serial) db)
    (hlong : ∀ rev∈db.revocations,revocationKey rev=(issuerID,serial) → shortLivedCert db rev.certificateID=false) :
    Published svc issuerID serial db where
  ocsp := by
    intro nonce
    have halways := always_liveSignOCSPResponse nonce hrepo hregistry hissuer hrow hlong
    refine (total_of_reads (liveSignOCSPResponse_reads svc issuerID serial nonce) halways).mono ?_
    exact fun outcome db' h => h.2
  crl := by
    obtain ⟨rev,hrev,hkey⟩ := hrow
    refine (total_generateDERCRL hrepo hregistry hissuer).mono ?_
    rintro outcome _ ⟨list,rfl,hlist,hentries⟩
    refine ⟨list,rfl,hlist,crlEntry rev,hentries.mem_iff.mpr (mem_map.mpr ⟨rev,mem_filter.mpr ⟨hrev,?_⟩,rfl⟩),?_⟩
    · have hissued : rev.issuerID=issuerID := congrArg Prod.fst hkey
      rw [exemptRow,hlong rev hrev hkey,Bool.and_false,decide_eq_true hissued]
      rfl
    · exact congrArg HexNumerals.parse (congrArg Prod.snd hkey)

/-- The connectors that sign revocation lists. -/
inductive CRLConnector where
  | localCA
  | openssl
deriving DecidableEq

/-- The text by which a connector reports the serial number of a certificate that it issued. -/
def CRLConnector.serialText : CRLConnector→ℕ→String
  | .localCA => generateCertificateSerial
  | .openssl => HexNumerals.decimal

/-- The serial numbers of the revoked certificates of an issuer that are not short-lived. -/
def revokedSerials (serial : CertificateRevocation→ℕ) (issuerID : String) (db : Db) : List (Option ℤ) :=
  (db.revocations.filter fun rev => !shortLivedCert db rev.certificateID && rev.issuerID=issuerID).map
    fun rev => some (serial rev : ℤ)

theorem parse_serialText (kind : CRLConnector) (n : ℕ) : ∃ m : ℕ,HexNumerals.parse (kind.serialText n)=some (m : ℤ) ∧
    n ≤ m ∧ (m=n ↔ kind=.localCA ∨ n<10) := by
  cases kind with
  | localCA => exact ⟨n,HexNumerals.parse_padded 40 n,le_rfl,by simp only [true_or]⟩
  | openssl =>
    obtain ⟨hle,hlt⟩ := HexNumerals.le_ofDigits_decimal n
    refine ⟨_,HexNumerals.parse_padded_numeral (by omega) (by omega) n 0,hle,fun h => ?_,fun h => ?_⟩
    · omega
    have hsmall : n<10 := h.resolve_left nofun
    have hvalue : ∀ n<10,Nat.ofDigits 16 (Nat.digits 10 n)=n := by decide
    exact hvalue n hsmall

/-- A list without errors carries exactly the serial numbers of the revoked certificates if and
only if the connector writes them in the base in which they are read, or they have one digit. -/
theorem crl_lists_revoked_iff (kind : CRLConnector) (serial : CertificateRevocation→ℕ)
    (hrepo : svc.revocationRepo=true) (hregistry : svc.issuerRegistry=true) (hwired : (svc.profileRepo && svc.certRepo)=true)
    (hissuer : db.issuers.contains issuerID=true) (hissued : ∀ rev∈db.revocations,rev.issuerID=issuerID →
      0<serial rev ∧ rev.serialNumber=kind.serialText (serial rev)) :
    (generateDERCRL svc issuerID).Total faultFree (fun outcome _ => ∃ list,outcome=.ok list ∧
      list.issuerID=issuerID ∧ (list.entries.map (·.serialNumber)).Perm (revokedSerials serial issuerID db)) db ↔
        (kind=.localCA ∨ ∀ rev∈db.revocations,rev.issuerID=issuerID → shortLivedCert db rev.certificateID=false →
          serial rev<10) := by
  have hrows : (db.revocations.filter fun rev => !exemptRow svc db rev && rev.issuerID=issuerID)=
      db.revocations.filter fun rev => !shortLivedCert db rev.certificateID && rev.issuerID=issuerID := by
    simp only [exemptRow,hwired,Bool.true_and]
  have hlist := @total_generateDERCRL svc issuerID db hrepo hregistry hissuer
  rw [hrows] at hlist
  -- what is read back of a row is never below its serial number
  have hread : ∀ rev∈db.revocations,rev.issuerID=issuerID → ∃ m : ℕ,(crlEntry rev).serialNumber=some (m : ℤ) ∧
      serial rev ≤ m ∧ (m=serial rev ↔ kind=.localCA ∨ serial rev<10) := by
    intro rev hrev hissuer
    obtain ⟨m,hm⟩ := parse_serialText kind (serial rev)
    refine ⟨m,?_,hm.2⟩
    rw [← hm.1,← (hissued rev hrev hissuer).2]
    rfl
  have hmem : ∀ rev∈db.revocations.filter fun rev => !shortLivedCert db rev.certificateID && rev.issuerID=issuerID,
      rev∈db.revocations ∧ shortLivedCert db rev.certificateID=false ∧ rev.issuerID=issuerID := by
    intro rev hrev
    obtain ⟨hrev,hkind⟩ := mem_filter.mp hrev
    rw [Bool.and_eq_true,Bool.not_eq_true',decide_eq_true_eq] at hkind
    exact ⟨hrev,hkind⟩
  constructor
  · intro h
    obtain ⟨outcome,db',hexec,list,rfl,-,hserials⟩ := h.exists_exec
    obtain ⟨list',hsame,-,hentries⟩ := hlist.of_exec hexec
    cases hsame
    refine or_iff_not_imp_left.mpr fun hkind rev hrev hissuer hlong => ?_
    by_contra hlarge
    have hperm := ((hentries.map (·.serialNumber)).symm.trans hserials).map fun n => n.getD 0
    rw [revokedSerials,map_map,map_map,map_map] at hperm
    refine absurd hperm.sum_eq.symm (sum_lt_sum _ _ (fun row hrow => ?_) ⟨rev,?_,?_⟩).ne
    · obtain ⟨hrow,-,hissued⟩ := hmem row hrow
      obtain ⟨m,hm,hle,-⟩ := hread row hrow hissued
      simp only [Function.comp,hm,Option.getD_some,Nat.cast_le]
      exact hle
    · refine mem_filter.mpr ⟨hrev,?_⟩
      rw [hlong,decide_eq_true hissuer]
      rfl
    · obtain ⟨m,hm,hle,heq⟩ := hread rev hrev hissuer
      have hne : m≠serial rev := fun h => (heq.mp h).elim hkind hlarge
      simp only [Function.comp,hm,Option.getD_some]
      omega
  · intro h
    refine hlist.mono ?_
    rintro outcome _ ⟨list,rfl,hissuer,hentries⟩
    refine ⟨list,rfl,hissuer,(hentries.map _).trans (List.Perm.of_eq ?_)⟩
    rw [map_map]
    refine map_congr_left fun rev hrev => ?_
    obtain ⟨hrev,hlong,hissued⟩ := hmem rev hrev
    obtain ⟨m,hm,-,heq⟩ := hread rev hrev hissued
    have hvalue : m=serial rev := heq.mpr (h.imp id fun hsmall => hsmall rev hrev hissued hlong)
    rw [← hvalue]
    exact hm

/-- One revoked certificate of an issuer, under the text that its connector gives. -/
def listedOne (kind : CRLConnector) (n : ℕ) : Db where
  issuers := ["iss"]
  revocations := [{ id := "rev", certificateID := "mc", serialNumber := kind.serialText n, reason := "", issuerID := "iss" }]

/-- A certificate of the local authority. -/
theorem crl_lists_revoked_sample : (generateDERCRL {} "iss").Total faultFree (fun outcome _ => ∃ list,outcome=.ok list ∧
    list.issuerID="iss" ∧ (list.entries.map (·.serialNumber)).Perm [some (255 : ℤ)]) (listedOne .localCA 255) := by
  refine (@crl_lists_revoked_iff {} "iss" (listedOne .localCA 255) .localCA (fun _ => 255) rfl rfl rfl rfl ?_).mpr (Or.inl rfl)
  intro rev hrev _
  cases mem_singleton.mp hrev
  exact ⟨by decide,rfl⟩

/-- A certificate with serial number ten, issued by the script connector and revoked, is listed as number sixteen. -/
theorem openssl_serial_misread : (generateDERCRL {} "iss").Total faultFree (fun outcome _ => ∃ list,outcome=.ok list ∧
    list.entries.map (·.serialNumber)=[some 16]) (listedOne .openssl 10) := by
  have hlist := @total_generateDERCRL {} "iss" (listedOne .openssl 10) rfl rfl rfl
  refine hlist.mono ?_
  rintro outcome _ ⟨list,rfl,-,hentries⟩
  refine ⟨list,rfl,perm_singleton.mp ((hentries.map _).trans (List.Perm.of_eq ?_))⟩
  decide

open AtomicInterleaving in
/-- Whatever runs on the control plane, in any order and with any failures, a serial number whose revocation is on record
stays published as revoked, unless its certificate comes under a short-lived profile. -/
theorem revocation_stays_published {ι α : Type} [DecidableEq ι] {ok : StepCondition controlPlane ι α}
    {a b : Config controlPlane ι α} (hreach : Reach ok a b) (hrow : HasRow (issuerID,serial) a.state)
    (hrepo : svc.revocationRepo=true) (hregistry : svc.issuerRegistry=true)
    (hissuer : b.state.issuers.contains issuerID=true)
    (hlong : ∀ rev∈b.state.revocations,revocationKey rev=(issuerID,serial) →
      shortLivedCert b.state rev.certificateID=false) : Published svc issuerID serial b.state := by
  have hkept := reach_invariant (I := fun cfg => HasRow (issuerID,serial) cfg.state) hrow ?_ hreach
  · exact published_of_row hrepo hregistry hissuer hkept hlong
  rintro cfg _ hcfg ⟨-,-,hperform⟩
  exact hasRow_step hcfg (effect_of_perform hperform)

open AtomicInterleaving in
/-- While another list is generated. -/
theorem revocation_stays_published_sample : ∃ cfg,Reach anyStep (initial (fun _ : Unit => generateDERCRL {} "iss")
    (listedOne .openssl 10)) cfg ∧ cfg.log.length=2 ∧ Published {} "iss" "10" cfg.state := by
  refine reaches_view [((),noFault),((),noFault)] (fun cfg => (cfg.log.length,cfg.state)) (2,listedOne .openssl 10)
    (by rfl) fun cfg hreach hview => ?_
  obtain ⟨hlength,hstate⟩ := Prod.mk.inj hview
  refine ⟨hlength,revocation_stays_published hreach ⟨_,mem_cons_self,by decide⟩ rfl rfl ?_ ?_⟩
  · rw [hstate]
    decide
  · rw [hstate]
    decide

end Lists

section Records

variable {svc : RevocationSvc} {ok : Prog.Allowed controlPlane} {cert : ManagedCertificate} {db db' : Db}
  {certID reason actor : String}

/-- The operation keeps the tables that responses and lists are made from, the recorded rows apart. -/
def keepsTables (key : String×String) (db : Db) : Op→Prop
  | .withinTx writes => ∀ w∈writes,allowed key db {} w
  | _ => True

variable {key : String×String} {op : Op} {c : Choice} {r : Res op}

section

variable (hcert : lookup ManagedCertificate.id cert.id db.certs=some cert)
include hcert

theorem allowed_row {row : ManagedCertificate} (hrow : RevokedRow cert row) :
    allowed key db {} (.updateCertificate row) := by
  change (lookup ManagedCertificate.id row.id db.certs).map (·.certificateProfileID)=some row.certificateProfileID
  rw [hrow.id,hrow.profile,hcert]
  rfl

theorem revokeOps_keepsTables
    (hlong : shortLivedCert db certID=false) : RevokeOps (keepsTables key db) cert certID where
  read := by
    intro op hop _
    cases op with
    | withinTx => cases hop
    | _ => trivial
  record := by
    intro row hrow
    exact forall_mem_singleton.mpr (allowed_row hcert hrow)
  recordBoth := by
    intro row hrow revocation hid w hw
    rcases mem_pair.mp hw with rfl|rfl
    · exact allowed_row hcert hrow
    · exact fun _ => hid.symm ▸ hlong
  revocation := by
    intro revocation hid
    exact forall_mem_singleton.mpr (fun _ => hid.symm ▸ hlong)
  notified := by
    intro id
    exact forall_mem_singleton.mpr trivial
  invalidate := by
    intro issuerID serialHex
    exact forall_mem_singleton.mpr trivial

end

theorem shortLivedCert_of_kept (h : TablesKept key db db') (id : String) :
    shortLivedCert db' id=shortLivedCert db id := by
  have hprofile := h.certs id
  unfold shortLivedCert
  rw [h.profiles]
  -- both rows are missing or have the same profile
  cases hnow : lookup ManagedCertificate.id id db'.certs with
  | none | some => cases hold : lookup ManagedCertificate.id id db.certs with
    | none | some => simp_all

theorem exec_revoke_inv (h : (revokeCertificateWithActor svc certID reason actor).Exec ok db (.ok ()) db') :
    ∃ cert,lookup ManagedCertificate.id certID db.certs=some cert ∧
      (revokeLatestVersion svc cert certID (effectiveReason reason) actor).Exec ok db (.ok ()) db' := by
  obtain ⟨c,r,heff,hrest⟩ := exec_read rfl h
  cases r with
  | error => cases hrest.1
  | ok cert =>
    refine ⟨cert,readRow_fst (congrArg Prod.fst heff),?_⟩
    dsimp only at hrest
    split at hrest
    · cases hrest.1
    split at hrest
    · cases hrest.1
    split at hrest
    · cases hrest.1
    · exact hrest

theorem recorded_of_revokeLatestVersion (htx : svc.tx=true) (hrepo : svc.revocationRepo=true)
    (h : (revokeLatestVersion svc cert certID reason actor).Exec ok db (.ok ()) db') :
    ∃ version∈newest (versionsOf certID db),HasRow (cert.issuerID,version.serialNumber) db' := by
  obtain ⟨c,r,heff,hrest⟩ := exec_read rfl h
  cases r with
  | error => cases hrest.1
  | ok version =>
    refine ⟨version,pickOne_mem (readRow_fst (congrArg Prod.fst heff)),?_⟩
    obtain ⟨-,now,-,hrest⟩ := exec_read rfl hrest
    obtain ⟨-,id,-,hrest⟩ := exec_read rfl hrest
    obtain ⟨r,db₁,hrecord,hannounce⟩ := exec_bind.mp hrest
    cases r with
    | error => cases hannounce.1
    | ok =>
      have hrow : HasRow (cert.issuerID,version.serialNumber) db₁ := by
        simp only [recordRevocation,htx,hrepo] at hrecord
        obtain ⟨c,r,s,-,hperform,hr,hs⟩ := hrecord
        subst hs
        subst hr
        have hall := withinTx_ok (effect_of_perform hperform)
        refine applyWrites_reaches (fun w _ a b ha happly => hasRow_write ha happly)
          (mem_cons_of_mem _ mem_cons_self) (fun a b happly => hasRow_revokes ?_ happly) hall
        exact decide_eq_true rfl
      refine exec_keeps (I := HasRow (cert.issuerID,version.serialNumber)) ?_ (uses_any _) hannounce hrow
      exact fun op _ c r s s' hperform hs => hasRow_step hs (effect_of_perform hperform)

theorem kept_of_revokeLatestVersion (hcert : lookup ManagedCertificate.id certID db.certs=some cert)
    (hlong : shortLivedCert db certID=false)
    (hrows : ∀ rev∈db.revocations,revocationKey rev=key → shortLivedCert db rev.certificateID=false)
    (h : (revokeLatestVersion svc cert certID reason actor).Exec ok db (.ok ()) db') : TablesKept key db db' := by
  have hid : cert.id=certID := (lookup_some hcert).2
  have hops : RevokeOps (keepsTables key db) cert certID := revokeOps_keepsTables (hid.symm ▸ hcert) hlong
  refine exec_keeps (I := TablesKept key db) ?_ (uses_revokeLatestVersion hops reason actor) h ?_
  · intro op hop c r s s' hperform hs
    refine tablesKept_effect (g := {}) hs (fun writes hwrites => ?_) (effect_of_perform hperform)
    subst hwrites
    exact hop
  · exact ⟨rfl,rfl,fun _ => rfl,hrows⟩

end Records

section Publication

variable {Key : Type} {svc : ACMEService Key} {ok : Prog.Allowed controlPlane} {db db' : Db}

theorem authorizeRevocation_reads (svc : ACMEService Key) (verified : VerifiedRequest Key)
    (leaf : PresentedCertificate Key) (cert : ManagedCertificate) (serialHex : String) :
    Prompt (authorizeRevocation svc verified leaf cert serialHex) := by
  unfold authorizeRevocation
  split
  · rename_i accountID _
    have hlookup : Prompt (accountOwnsCertificate accountID cert.id) := by
      unfold accountOwnsCertificate
      split
      · trivial
      · exact ⟨rfl,fun _ => trivial⟩
    refine uses_bind hlookup (onAnswer fun _ => ?_)
    dsimp only
    split <;> trivial
  · split
    · trivial
    · split <;> trivial
  · trivial

variable {revoker : RevocationSvc}

theorem exec_revokeCert_inv {verified : Option (VerifiedRequest Key)} {certDER : List UInt8} {reasonCode : ℤ}
    {leaf : PresentedCertificate Key} (hrevoker : svc.revoker=some revoker)
    (hparse : svc.parseCertificate certDER=some leaf)
    (h : (revokeCert svc verified certDER reasonCode).Exec ok db (.ok ()) db') :
    ∃ version∈db.versions,version.serialNumber=revokeCertSerialHex leaf.serialNumber ∧
      ∃ reason actor,(revokeCertificateWithActor revoker version.certificateID reason actor).Exec ok db (.ok ()) db' := by
  simp only [revokeCert,hrevoker,hparse] at h
  split at h
  · cases h.1
  split at h
  · cases h.1
  rename_i request
  rw [revokePresented] at h
  split at h
  · cases h.1
  obtain ⟨-,r,-,h⟩ := exec_read rfl h
  cases r with
  | none => cases h.1
  | some =>
    obtain ⟨c,r,heff,h⟩ := exec_read rfl h
    cases r with
    | error => cases h.1
    | ok version =>
      have hversion := pickOne_mem (readRow_fst (congrArg Prod.fst heff))
      have hserial := of_mem_filter (mem_of_mem_filter hversion)
      rw [Bool.and_eq_true,decide_eq_true_eq] at hserial
      refine ⟨version,mem_versions_of_newest hversion,hserial.1,mapACMERevocationReason reasonCode,?_⟩
      obtain ⟨c,r,heff,h⟩ := exec_read rfl h
      cases r with
      | error => cases h.1
      | ok cert =>
        have hid : cert.id=version.certificateID := (lookup_some (readRow_fst (congrArg Prod.fst heff))).2
        dsimp only at h
        split at h
        · cases h.1
        obtain ⟨r,db₁,hauthorize,h⟩ := exec_bind.mp h
        have hsame := exec_reads (authorizeRevocation_reads svc request leaf cert _) hauthorize
        subst hsame
        cases r with
        | error => cases h.1
        | ok actor =>
          obtain ⟨r,db₂,hrevoke,h⟩ := exec_bind.mp h
          cases r with
          | error =>
            dsimp only at h
            split at h <;> cases h.1
          | ok =>
            obtain ⟨-,rfl⟩ := h
            exact ⟨actor,hid ▸ hrevoke⟩

/-- The revocation of a version is on record, and published unless its certificate, or that of a
revocation recorded under the same serial number before, is exempt. -/
structure Reported (ca : CAOperationsSvc) (cert : ManagedCertificate) (serial : String) (db db' : Db) : Prop where
  recorded : HasRow (cert.issuerID,serial) db'
  published : db.issuers.contains cert.issuerID=true → shortLivedCert db cert.id=false →
    (∀ rev∈db.revocations,revocationKey rev=(cert.issuerID,serial) → shortLivedCert db rev.certificateID=false) →
    Published ca cert.issuerID serial db'

theorem reported_of_revoke {ca : CAOperationsSvc} {cert : ManagedCertificate}
    {certID serial reason actor : String} (hca : ca.revocationRepo=true) (hregistry : ca.issuerRegistry=true)
    (htx : revoker.tx=true) (hrepo : revoker.revocationRepo=true)
    (hcert : lookup ManagedCertificate.id certID db.certs=some cert)
    (hlatest : ∀ w∈newest (versionsOf certID db),w.serialNumber=serial)
    (h : (revokeCertificateWithActor revoker certID reason actor).Exec ok db (.ok ()) db') :
    Reported ca cert serial db db' := by
  obtain ⟨row,hrow,hrevoke⟩ := exec_revoke_inv h
  have hsame : row=cert := Option.some_inj.mp (hrow.symm.trans hcert)
  subst hsame
  have hid : row.id=certID := (lookup_some hcert).2
  obtain ⟨version,hversion,hrecorded⟩ := recorded_of_revokeLatestVersion htx hrepo hrevoke
  rw [hlatest version hversion] at hrecorded
  refine ⟨hrecorded,fun hissuer hlong hrows => ?_⟩
  have hkept := kept_of_revokeLatestVersion hcert (hid ▸ hlong) hrows hrevoke
  refine published_of_row hca hregistry ?_ hrecorded fun rev hrev hkey => ?_
  · rw [hkept.issuers]
    exact hissuer
  · rw [shortLivedCert_of_kept hkept]
    exact hkept.rows rev hrev hkey

/-- Revoking a certificate by its identifier reports its newest version, and so does an ACME
request that presents a certificate with the serial number of that version, if no other
certificate has a version with it. -/
theorem revocation_reports_newest {ca : CAOperationsSvc} {revoker : RevocationSvc} (hca : ca.revocationRepo=true)
    (hregistry : ca.issuerRegistry=true) (htx : revoker.tx=true) (hrepo : revoker.revocationRepo=true)
    {cert : ManagedCertificate} {v : CertificateVersion}
    (hcert : lookup ManagedCertificate.id v.certificateID db.certs=some cert)
    (hlatest : ∀ w∈newest (versionsOf v.certificateID db),w.serialNumber=v.serialNumber) :
    (∀ ok reason actor db',(revokeCertificateWithActor revoker v.certificateID reason actor).Exec ok db (.ok ()) db' →
      Reported ca cert v.serialNumber db db') ∧
    ∀ svc : ACMEService Key,svc.revoker=some revoker → ∀ certDER leaf,svc.parseCertificate certDER=some leaf →
      revokeCertSerialHex leaf.serialNumber=v.serialNumber →
      (∀ w∈db.versions,w.serialNumber=v.serialNumber → w.certificateID=v.certificateID) →
      ∀ ok verified reasonCode db',(revokeCert svc verified certDER reasonCode).Exec ok db (.ok ()) db' →
        Reported ca cert v.serialNumber db db' := by
  refine ⟨fun ok reason actor db' h => reported_of_revoke hca hregistry htx hrepo hcert hlatest h,?_⟩
  intro svc hrevoker certDER leaf hparse hserial honly ok verified reasonCode db' h
  obtain ⟨w,hw,hwserial,reason,actor,hrevoke⟩ := exec_revokeCert_inv hrevoker hparse h
  have hsame : w.certificateID=v.certificateID := honly w hw (hwserial.trans hserial)
  rw [hsame] at hrevoke
  exact reported_of_revoke hca hregistry htx hrepo hcert hlatest hrevoke

end Publication

section Samples

/-- A service that takes every byte string for a certificate with serial number 31. -/
def sampleACME : ACMEService String where
  revoker := some {}
  parseCertificate := fun _ => some ⟨31,"holder"⟩
  jwkThumbprint := .ok

def sampleDb (versions : List CertificateVersion) : Db where
  orders := [{orderID := "o-1", accountID := "acc-1", identifiers := [], status := .valid, certificateID := "mc-1"}]
  certs := [{id := "mc-1", issuerID := "iss-local", certificateProfileID := "prof-1", status := .active}]
  profiles := [{id := "prof-1", maxTTLSeconds := 86400}]
  versions := versions
  issuers := ["iss-local"]

def firstVersion : CertificateVersion := {id := "v-1", certificateID := "mc-1", serialNumber := "1f", createdAt := 1}

def secondVersion : CertificateVersion := {id := "v-2", certificateID := "mc-1", serialNumber := "2e", createdAt := 2}

def renewedDb : Db := sampleDb [firstVersion,secondVersion]

theorem exec_of_noFault {α : Type} {p : Service α} {n : ℕ} {db db' : Db} {a : α}
    (h : p.run (List.replicate n noFault) db=some (a,db')) : p.Exec faultFree db a db' := by
  refine exec_of_run (fun c hc op db => ?_) h
  rw [eq_of_mem_replicate hc]
  rfl

/-- A renewed certificate, revoked by its identifier, is reported under the newer serial number. -/
theorem revocation_reports_newest_sample :
    ∃ db',(revokeCertificateWithActor {} "mc-1" "" "operator").Exec faultFree renewedDb (.ok ()) db' ∧
      Published {} "iss-local" "2e" db' := by
  have hrun : (((revokeCertificateWithActor {} "mc-1" "" "operator").run (List.replicate 12 noFault)
      renewedDb).map fun out => out.1.isOk)=some true := by decide
  obtain ⟨⟨r,db'⟩,hout,hok⟩ := Option.map_eq_some_iff.mp hrun
  cases r with
  | error => cases hok
  | ok =>
    have hexec := exec_of_noFault hout
    refine ⟨db',hexec,?_⟩
    have hlatest : ∀ w∈newest (versionsOf secondVersion.certificateID renewedDb),
        w.serialNumber=secondVersion.serialNumber := by decide
    have hreported := (@revocation_reports_newest String renewedDb {} {} rfl rfl rfl rfl _
      secondVersion rfl hlatest).1 faultFree "" "operator" db' hexec
    exact hreported.published (by decide) (by decide) fun rev hrev => absurd hrev not_mem_nil

def shortProfile : CertificateProfile := {id := "prof-1", maxTTLSeconds := 600, allowShortLived := true}

/-- An ACME client that presents the first of two versions has the second one recorded in its
place; and a revoked certificate of a short-lived profile is reported as good and left out of the list. -/
theorem revocation_not_reported :
    (∃ db',(revokeCert sampleACME (some ⟨some "acc-1",none⟩) [1] 1).Exec faultFree
        renewedDb (.ok ()) db' ∧ ¬HasRow ("iss-local",firstVersion.serialNumber) db') ∧
    ∃ db',(revokeCertificateWithActor {} "mc-1" "" "operator").Exec faultFree
        {sampleDb [firstVersion] with profiles := [shortProfile]} (.ok ()) db' ∧
      HasRow ("iss-local",firstVersion.serialNumber) db' ∧ ¬Published {} "iss-local" firstVersion.serialNumber db' := by
  constructor
  · have hprogram : revokeCert sampleACME (some ⟨some "acc-1",none⟩) [1] 1=
        revokePresented sampleACME {} ⟨some "acc-1",none⟩ ⟨31,"holder"⟩ 1 := rfl
    have hrun : ((revokeCert sampleACME (some ⟨some "acc-1",none⟩) [1] 1).run (List.replicate 14 noFault)
        renewedDb).map (fun out => (out.1.isOk,out.2.revocations.map revocationKey))=
          some (true,[("iss-local","2e")]) := by
      rw [hprogram,revokePresented]
      simp only [sample_serialHex]
      decide
    obtain ⟨⟨r,db'⟩,hout,hview⟩ := Option.map_eq_some_iff.mp hrun
    have hkeys : db'.revocations.map revocationKey=[("iss-local","2e")] := congrArg Prod.snd hview
    cases r with
    | error => cases congrArg Prod.fst hview
    | ok =>
      refine ⟨db',exec_of_noFault hout,?_⟩
      rintro ⟨rev,hrev,hkey⟩
      have hmem : ("iss-local",firstVersion.serialNumber)∈db'.revocations.map revocationKey :=
        mem_map.mpr ⟨rev,hrev,hkey⟩
      rw [hkeys] at hmem
      revert hmem
      decide
  · have hrun : ((revokeCertificateWithActor {} "mc-1" "" "operator").run (List.replicate 12 noFault)
        {sampleDb [firstVersion] with profiles := [shortProfile]}).map (fun out =>
          (out.1.isOk,out.2.revocations.any fun rev => revocationKey rev=("iss-local",firstVersion.serialNumber),
            ((liveSignOCSPResponse {} "iss-local" firstVersion.serialNumber []).run (List.replicate 8 noFault) out.2).map
              fun reply => reply.1.toOption.map (·.content.certStatus)))=some (true,true,some (some .good)) := by decide
    obtain ⟨⟨r,db'⟩,hout,hview⟩ := Option.map_eq_some_iff.mp hrun
    obtain ⟨rev,hrev,hkey⟩ := any_eq_true.mp (congrArg (fun out => out.2.1) hview)
    obtain ⟨⟨reply,db₂⟩,hreply,hgood⟩ := Option.map_eq_some_iff.mp (congrArg (fun out => out.2.2) hview)
    cases r with
    | error => cases congrArg Prod.fst hview
    | ok =>
      refine ⟨db',exec_of_noFault hout,⟨rev,hrev,of_decide_eq_true hkey⟩,fun hpublished => ?_⟩
      obtain ⟨response,rfl,hrevoked⟩ := (hpublished.ocsp []).of_exec (exec_of_noFault hreply)
      have hstatus : response.content.certStatus=.good := Option.some_inj.mp hgood
      rw [hrevoked] at hstatus
      cases hstatus

end Samples

end Certctl.RevocationPublication
