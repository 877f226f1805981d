import Certctl.AcmeChallenges
import Certctl.LocalIssuer

/-!
# Names of certificates issued for ACME orders

A finalize call compares the common name and the DNS names of the request
with the identifiers of the order, without regard to letter case, and asks
the issuer for the names of the order. The local issuer then takes its names
from the request as well. What the comparison covers is authorised by the
order; addresses and e-mail addresses of the request are not compared with
anything.
-/

namespace Certctl.AcmeIssuedNames

open AtomicInterleaving ControlPlaneTables ControlPlaneStore DomainRecords RecordTable
open List hiding lookup
open AcmeOrders LocalIssuer

variable {ι Ip : Type} {svc : ACMEService} {identifiers : List Identifier} {name : String} {csr : CertificateRequest}

/-- A name is the value of an identifier of the order, up to letter case. -/
def Authorised (svc : ACMEService) (identifiers : List Identifier) (name : String) : Prop :=
  ∃ id∈identifiers,id.type="dns" ∧ svc.toLower id.value=svc.toLower name

def CarriedOver (conn : Connector Ip) (csr : ParsedRequest Ip) (name : String) : Prop :=
  name∈csr.ipAddresses.map conn.addressText ∨ name∈csr.emailAddresses

/-- The names of a certificate are authorised by the order, apart from addresses and e-mail
addresses of the request. -/
structure NamesAuthorised (svc : ACMEService) (conn : Connector Ip) (csr : ParsedRequest Ip)
    (identifiers : List Identifier) (cert : Certificate Ip) : Prop where
  commonName : cert.commonName="" ∨ Authorised svc identifiers cert.commonName
  names : ∀ name∈cert.dnsNames++cert.emailAddresses,Authorised svc identifiers name ∨ CarriedOver conn csr name
  addresses : ∀ ip∈cert.ipAddresses,
    ∃ name,parseIP conn name=some ip ∧ (Authorised svc identifiers name ∨ CarriedOver conn csr name)
  uris : cert.uris=[]

theorem mem_orderNames :
    name∈orderNames svc identifiers ↔ ∃ id∈identifiers,id.type="dns" ∧ svc.toLower id.value=name := by
  rw [orderNames,mem_dedup,mem_map]
  constructor
  · rintro ⟨id,hid,hname⟩
    obtain ⟨hmem,htype⟩ := mem_filter.mp hid
    exact ⟨id,hmem,of_decide_eq_true htype,hname⟩
  · rintro ⟨id,hmem,htype,hname⟩
    exact ⟨id,mem_filter.mpr ⟨hmem,decide_eq_true htype⟩,hname⟩

section

variable (h : csrMatchesIdentifiers svc csr identifiers=none)
include h

/-- A matching request names nothing that the order does not: the names of the order are among
those of the request, and there are as many. -/
theorem csrNames_subset : csrNames svc csr⊆orderNames svc identifiers := by
  unfold csrMatchesIdentifiers at h
  dsimp only at h
  split at h
  · cases h
  rename_i hlength
  have hlength : (csrNames svc csr).length=(orderNames svc identifiers).length := not_not.mp hlength
  split at h
  · cases h
  rename_i hmissing
  have hsubset : orderNames svc identifiers⊆csrNames svc csr := by
    intro name hname
    have hfound := find?_eq_none.mp hmissing name hname
    simpa using hfound
  have hnodup : (orderNames svc identifiers).Nodup := nodup_dedup _
  have hperm := (subperm_of_subset hnodup hsubset).perm_of_length_le (Nat.le_of_eq hlength)
  exact hperm.symm.subset

theorem authorised_commonName (hname : csr.commonName≠"") : Authorised svc identifiers csr.commonName := by
  refine mem_orderNames.mp (csrNames_subset h ?_)
  rw [csrNames,mem_dedup,if_neg hname]
  exact mem_append_left _ (mem_singleton_self _)

theorem authorised_dnsName (hname : name∈csr.dnsNames) : Authorised svc identifiers name := by
  refine mem_orderNames.mp (csrNames_subset h ?_)
  rw [csrNames,mem_dedup]
  exact mem_append_right _ (mem_map_of_mem hname)

end

theorem authorised_dnsValue (h : name∈dnsValues identifiers) : Authorised svc identifiers name := by
  obtain ⟨id,hid,rfl⟩ := mem_map.mp h
  obtain ⟨hmem,htype⟩ := mem_filter.mp hid
  exact ⟨id,hmem,of_decide_eq_true htype,rfl⟩

theorem namesAuthorised_of_issued {conn : Connector Ip} {env : Surroundings}
    {csr : ParsedRequest Ip} {csrPEM : String} {ekus : List String}
    {maxTTLSeconds : ℤ} {mustStaple : Bool} {cert : Certificate Ip} (hparse : conn.parseRequest csrPEM=.ok csr)
    (hmatch : csrMatchesIdentifiers svc csr.toCertificateRequest identifiers=none)
    (hissued : issueCertificate conn env (dnsValues identifiers) csrPEM ekus maxTTLSeconds mustStaple=.ok cert) :
    NamesAuthorised svc conn csr identifiers cert := by
  obtain ⟨csr',hcsr',hmade⟩ := issueCertificate_ok hissued
  rw [hparse] at hcsr'
  cases hcsr'
  obtain ⟨hcommon,huris,hnames,haddresses⟩ := generateCertificate_names hmade
  have hall : ∀ name∈sanSet conn csr (dnsValues identifiers),
      Authorised svc identifiers name ∨ CarriedOver conn csr name := by
    intro name hname
    rcases mem_sanSet hname with hdns|hip|hemail|hvalue
    · exact .inl (authorised_dnsName hmatch hdns)
    · exact .inr (.inl hip)
    · exact .inr (.inr hemail)
    · exact .inl (authorised_dnsValue hvalue)
  refine ⟨?_,fun name hname => hall name (hnames name hname),fun ip hip => ?_,huris⟩
  · rw [hcommon]
    by_cases hempty : csr.commonName=""
    · exact .inl hempty
    · exact .inr (authorised_commonName hmatch hempty)
  · obtain ⟨name,hname,hparsed⟩ := haddresses ip hip
    exact ⟨name,hparsed,hall name hname⟩

section Runs

def readsIdentifiers (orderID : String) (identifiers : List Identifier) : controlPlane.Obs Prop
  | .getOrderByID id,r => ∀ order,r=.ok order → id=orderID → order.identifiers=identifiers
  | _,_ => True

/-- The issuer is asked with the request of the call, which matches the identifiers, for their values. -/
def AsksFor (svc : ACMEService) (identifiers : List Identifier) (call : FinalizeCall) : controlPlane.Obs Prop
  | .issueCertificate _ _ sans csrPEM _ _ _,_ =>
    csrPEM=call.csrPEM ∧ sans=dnsValues identifiers ∧ csrMatchesIdentifiers svc call.csr identifiers=none
  | _,_ => True

theorem finalizeRules_asksFor (svc : ACMEService) (orderID : String) (identifiers : List Identifier)
    (call : FinalizeCall) : FinalizeRules svc call.accountID orderID call.profileID call.csr call.csrPEM
      (readsIdentifiers orderID identifiers) (AsksFor svc identifiers) (fun g _ _ => g) (fun g => g=call)
      (fun order g => g=call ∧ order.identifiers=identifiers)
      (fun order _ g => g=call ∧ order.identifiers=identifiers ∧
        csrMatchesIdentifiers svc call.csr identifiers=none) (fun _ _ _ => True) where
  quiet := by
    intro g op r hop
    cases op with
    | issueCertificate => exact hop.elim
    | _ => exact ⟨trivial,rfl⟩
  read := by
    intro g r hg hcan
    exact ⟨trivial,fun order hr _ _ => ⟨hg,hcan order hr rfl⟩⟩
  reject := fun _ _ _ _ _ _ => trivial
  mark := by
    intro g order profile r hfound hmatch _
    obtain ⟨hg,hids⟩ := hfound
    rw [hids] at hmatch
    exact ⟨trivial,fun _ => ⟨hg,hids,hmatch⟩⟩
  issue := by
    intro g order profile issuerID r hmarked
    obtain ⟨hg,hids,hmatch⟩ := hmarked
    subst hg
    refine ⟨⟨rfl,?_,hmatch⟩,trivial⟩
    rw [hids]
  fail := fun _ _ _ _ _ _ => trivial
  complete := fun _ _ _ _ _ _ _ => trivial

/-- What an issuer is asked for. -/
structure Asked where
  sans : List String
  csrPEM : String
  ekus : List String
  maxTTLSeconds : ℤ
  mustStaple : Bool
deriving DecidableEq

def asked (log : Log controlPlane ι) : List Asked :=
  log.filterMap fun e =>
    match e.op with
    | .issueCertificate _ _ sans csrPEM ekus maxTTLSeconds mustStaple =>
      some ⟨sans,csrPEM,ekus,maxTTLSeconds,mustStaple⟩
    | _ => none

theorem exists_of_asked {log : Log controlPlane ι} {a : Asked} (h : a∈asked log) : ∃ t issuerID commonName r,
      ⟨t,.issueCertificate issuerID commonName a.sans a.csrPEM a.ekus a.maxTTLSeconds a.mustStaple,r⟩∈log := by
  obtain ⟨⟨t,op,r⟩,he,hop⟩ := mem_filterMap.mp h
  cases op with
  | issueCertificate issuerID commonName =>
    cases hop
    exact ⟨t,issuerID,commonName,r,he⟩
  | _ => cases hop

def sampleServer : AcmeChallenges.AcmeServer Unit :=
  {toLower := fun s => String.ofList (s.toList.map Char.toLower), quote := id, thumbprint := fun _ => .ok []}

def sampleState : AcmeServerStore.AcmeState :=
  ({profiles := [{id := "prof-1"}], issuers := ["iss-local"]},
    {accounts := [{accountID := "acme-acc-1", jwkThumbprint := "th", jwkPEM := "pem", contact := [], status := .valid, profileID := "prof-1"}]})

def sampleRequest : ParsedRequest ℕ := {commonName := "", dnsNames := ["Example.com"]}

def sampleConnector : Connector ℕ :=
  {validityDays := 90, parseAddress := fun s => if s="10.0.0.1" then some 1 else none,
    addressText := fun _ => "10.0.0.1", loopback := 0, parseRequest := fun _ => .ok sampleRequest,
    validateUnicodeSafe := fun _ => none, quote := id}

def sampleOrder : Order := ⟨"acme-ord-1","acme-acc-1",[⟨"dns","example.com"⟩],.ready,none,"","",AcmeChallenges.day⟩

def sampleCall : FinalizeCall := ⟨"acme-acc-1","prof-1",sampleRequest.toCertificateRequest,"csr"⟩

def sampleStored : Db := {sampleState.1 with orders := [sampleOrder]}

def sampleCertificate : Certificate ℕ :=
  ⟨"",["Example.com","example.com"],[],[],[],0,90*(86400*second),[.serverAuth],{keyEncipherment := true},[],false⟩

def sampleStart : Config controlPlane Unit (Try FinalizeOrderResult) :=
  initial (finalizeCalls sampleServer.toACMEService "acme-ord-1" fun _ => sampleCall) sampleStored

def sampleAsked : Asked := ⟨["example.com"],"csr",["serverAuth"],0,false⟩

theorem sample_asked : ∃ cfg,Reach anyStep sampleStart cfg ∧ asked cfg.log=[sampleAsked] := by
  refine reaches_view (List.replicate 6 ((),noFault)) (fun cfg => asked cfg.log) [sampleAsked] (by decide)
    fun cfg _ hout => ?_
  exact hout

variable [DecidableEq ι]

/-- In every run of finalize calls for an order, whenever one of them asks the local issuer, and
the issuer makes a certificate, the names of the certificate are authorised by the order, apart
from addresses and e-mail addresses of the request. -/
theorem issued_names_authorised (conn : Connector Ip) (svc : ACMEService) (orderID : String) (calls : ι→FinalizeCall)
    (db : Db) (order : Order) (horder : lookup Order.orderID orderID db.orders=some order)
    (cfg : Config controlPlane ι (Try FinalizeOrderResult))
    (hreach : Reach anyStep (initial (finalizeCalls svc orderID calls) db) cfg)
    (t : ι) (csr : ParsedRequest Ip) (hparse : conn.parseRequest (calls t).csrPEM=.ok csr)
    (hcsr : csr.toCertificateRequest=(calls t).csr) (issuerID commonName csrPEM : String) (sans ekus : List String)
    (maxTTLSeconds : ℤ) (mustStaple : Bool) (r : Try IssuanceResult)
    (hasked : ⟨t,.issueCertificate issuerID commonName sans csrPEM ekus maxTTLSeconds mustStaple,r⟩∈cfg.log)
    (env : Surroundings) (cert : Certificate Ip)
    (hissued : issueCertificate conn env sans csrPEM ekus maxTTLSeconds mustStaple=.ok cert) :
    NamesAuthorised svc conn csr order.identifiers cert := by
  have hcol : ∀ (new row : Order),(overwriteOrder new row).identifiers=row.identifiers := fun _ _ => rfl
  have htracked : ∀ t,(finalizeCalls svc orderID calls t).Tracked (readsIdentifiers orderID order.identifiers)
      (AsksFor svc order.identifiers) (fun g _ _ => g) (fun _ _ => True) (calls t) :=
    fun t => tracked_finalize (finalizeRules_asksFor svc orderID order.identifiers (calls t)) rfl
  have hrun := (reach_tracked (I := fun b : Config controlPlane ι (Try FinalizeOrderResult) =>
      (lookup Order.orderID orderID b.state.orders).map Order.identifiers=some order.identifiers ∧
        ∀ e∈b.log,AsksFor svc order.identifiers (calls e.thread) e.op e.res) ?_ hreach htracked ?_ ?_).1
  · obtain ⟨rfl,rfl,hmatch⟩ : csrPEM=(calls t).csrPEM ∧ sans=dnsValues order.identifiers ∧
        csrMatchesIdentifiers svc (calls t).csr order.identifiers=none := hrun.2 _ hasked
    rw [← hcsr] at hmatch
    exact namesAuthorised_of_issued hparse hmatch hissued
  · intro b t op c r s' hb _ hperform
    cases op with
    | getOrderByID =>
      intro row hr hid
      subst hid hr
      have hread := (readRow_ok (effect_of_perform hperform)).1
      have hids := hb.1
      rw [hread] at hids
      exact Option.some.inj hids
    | _ => trivial
  · refine ⟨?_,forall_mem_nil _⟩
    change (lookup Order.orderID orderID db.orders).map Order.identifiers=_
    rw [horder]
    rfl
  · intro b t op c r s' hb _ _ hperform hpre k _
    have hghost : ghost (fun (g : FinalizeCall) (_ : controlPlane.Op) _ => g) (calls t) t b.log=calls t :=
      ghost_keeps (P := fun g => g=calls t) rfl (fun g _ _ hg => hg) t b.log
    rw [hghost] at hpre
    refine ⟨(effect_orderColumn hcol orderID (effect_of_perform hperform)).trans hb.1,fun e he => ?_⟩
    rcases mem_cons.mp he with rfl|hold
    · exact hpre
    · exact hb.2 e hold

/-- The issuer is asked for the sample order, and the names of its certificate are authorised. -/
theorem issued_names_authorised_sample :
    ∃ cfg,Reach anyStep sampleStart cfg ∧ asked cfg.log=[sampleAsked] ∧
      NamesAuthorised sampleServer.toACMEService sampleConnector sampleRequest sampleOrder.identifiers
        sampleCertificate := by
  obtain ⟨cfg,hreach,hasked⟩ := sample_asked
  have hmem : sampleAsked∈asked cfg.log := by
    rw [hasked]
    exact mem_singleton_self _
  obtain ⟨t,issuerID,commonName,r,he⟩ := exists_of_asked hmem
  refine ⟨cfg,hreach,hasked,?_⟩
  exact issued_names_authorised sampleConnector sampleServer.toACMEService "acme-ord-1" (fun _ => sampleCall)
    sampleStored sampleOrder rfl cfg hreach t sampleRequest rfl rfl issuerID commonName "csr" ["example.com"]
    ["serverAuth"] 0 false r he ⟨0,none,none,none,none⟩ sampleCertificate rfl

/-- An order for the name in small letters is accepted, and the issuer is asked with a request for the name in
capitals. The certificate carries that spelling, which is not the value of an identifier. -/
theorem issued_names_beyond_order :
    validateIdentifiers sampleServer.toACMEService [⟨"dns","example.com"⟩]=[] ∧
    ((AcmeChallenges.createOrder sampleServer "acme-acc-1" "prof-1" [⟨"dns","example.com"⟩]).run
      (List.replicate 8 {fresh := "1"}) sampleState).map (fun out => (out.1.toOption,out.2.1.orders))=
        some (some sampleOrder,sampleStored.orders) ∧
    ∃ cfg,Reach anyStep sampleStart cfg ∧ asked cfg.log=[sampleAsked] ∧
      issueCertificate sampleConnector ⟨0,none,none,none,none⟩ ["example.com"] "csr" ["serverAuth"] 0 false=
        .ok sampleCertificate ∧
      "Example.com"∈sampleCertificate.dnsNames ∧ ∀ id∈sampleOrder.identifiers,id.value≠"Example.com" := by
  obtain ⟨cfg,hreach,hasked⟩ := sample_asked
  exact ⟨by decide,by decide,cfg,hreach,hasked,rfl,by decide,by decide⟩

end Runs

end Certctl.AcmeIssuedNames
