import Certctl.ControlPlaneStore

/-!
# Finalizing ACME orders

The finalize call of the ACME service, operation by operation: the order
lookup, the move to processing, the issuer call, the certificate insert and
the move to valid. Calls interleave at these operations. The status check
reads the order long before the move to processing is written, and the
write does not look at the status again, so the number of issued
certificates of one order is bounded only under a condition on that write.
-/

namespace Certctl.AcmeOrders

open AtomicProgram AtomicInterleaving ControlPlaneTables ControlPlaneStore DomainRecords RecordTable

/-- Wiring of the ACME service and the library functions it calls. -/
structure ACMEService where
  certService : Bool := true
  certRepo : Bool := true
  issuerRegistry : Bool := true
  tx : Bool := true
  auditService : Bool := true
  /-- The profile used when a request names none. -/
  defaultProfileID : String := ""
  toLower : String→String
  quote : String→String

/-- The names in a request. -/
structure CertificateRequest where
  commonName : String
  dnsNames : List String

/-- What a finalize returns. -/
structure FinalizeOrderResult where
  order : Order
  certID : String

def csrNames (svc : ACMEService) (csr : CertificateRequest) : List String :=
  ((if csr.commonName="" then [] else [svc.toLower csr.commonName])++ csr.dnsNames.map svc.toLower).dedup

def orderNames (svc : ACMEService) (identifiers : List Identifier) : List String :=
  ((identifiers.filter (·.type="dns")).map fun id => svc.toLower id.value).dedup

/-- The check of the identifiers of a new order: what is wrong with them, and with which of them. -/
def validateIdentifiers (svc : ACMEService) (ids : List Identifier) : List (Problem×Option Identifier) :=
  let rejected := fun (id : Identifier) (detail : String) =>
    (Problem.mk "urn:ietf:params:acme:error:rejectedIdentifier" detail 400,some id)
  if ids=[] then
    [(⟨"urn:ietf:params:acme:error:malformed","new-order requires at least one identifier",400⟩,none)]
  else ids.filterMap fun id =>
    if svc.toLower id.type="dns" then
      if id.value="" then some (rejected id "identifier value is empty") else none
    else some (rejected id ("identifier type "++svc.quote id.type++" is not supported (Phase 2: dns only)"))

def csrMatchesIdentifiers (svc : ACMEService) (csr : CertificateRequest)
    (identifiers : List Identifier) : Option Problem :=
  let csrSet := csrNames svc csr
  let orderSet := orderNames svc identifiers
  if csrSet.length≠orderSet.length then
    some ⟨"urn:ietf:params:acme:error:badCSR",
      "CSR identifier count ("++toString csrSet.length++") differs from order identifier count ("++
        toString orderSet.length++")",400⟩
  else
    match orderSet.find? (fun k => !csrSet.contains k) with
    | some k => some ⟨"urn:ietf:params:acme:error:badCSR", "CSR is missing the order identifier "++svc.quote k,400⟩
    | none => none

def lookupOrder (orderID accountID : String) : Service (Try Order) := do
  match ← getOrderByID orderID with
  | .error err =>
    if err.is .notFound then raise Sentinel.acmeOrderNotFound.error
    else raise (err.wrapped "acme: lookup order: ")
  | .ok order =>
    if order.accountID≠accountID then raise Sentinel.acmeOrderUnauthorized.error
    else pure (.ok order)

/-- The profile of a request, the default one if it names none. -/
def resolvedID (svc : ACMEService) (profileID : String) : String :=
  if profileID="" then svc.defaultProfileID else profileID

/-- Resolve the profile of a request, and find out whether it exists. -/
def resolveProfile (svc : ACMEService) (profileID : String) : Service (Try String) :=
  if profileID="" ∧ svc.defaultProfileID="" then raise Sentinel.acmeUserActionRequired.error
  else do
    match ← getProfile (resolvedID svc profileID) with
    | .error err =>
      if err.is .notFound then raise Sentinel.acmeProfileNotFound.error
      else raise (err.wrapped "acme: lookup profile: ")
    | .ok _ => pure (.ok (resolvedID svc profileID))

def certificateIDChar (ch : Char) : Bool :=
  ('A' ≤ ch && ch ≤ 'Z') || ('a' ≤ ch && ch ≤ 'z') || ('0' ≤ ch && ch ≤ '9') || ch = '.' || ch = '_' || ch = '-'

/-- Shape check on certificate identifiers. -/
def validateCertificateID (svc : ACMEService) (id : String) : Err :=
  if id="" then some ⟨"certificate_id is required",none⟩
  else if id.utf8ByteSize>128 then
    some ⟨"certificate_id length "++toString id.utf8ByteSize++" exceeds 128",none⟩
  else if !id.toList.all certificateIDChar then
    some ⟨"certificate_id "++svc.quote id++ " contains disallowed characters; allowed: A-Z a-z 0-9 . _ -",none⟩
  else if id=".." ∨ id="." then
    some ⟨"certificate_id "++svc.quote id++" is a relative-path token",none⟩
  else none

def create (svc : ACMEService) (cert : ManagedCertificate) : Service (Try Unit) :=
  if cert.id="" ∨ cert.commonName="" ∨ cert.issuerID="" then
    raise ⟨"invalid certificate: missing required fields",none⟩
  else
    match validateCertificateID svc cert.id with
    | some err => raise (err.wrapped "invalid certificate id: ")
    | none => do
      match ← validateCertificate cert with
      | .error err => raise (err.wrapped "policy validation failed: ")
      | .ok _ => withinTx [.createCertificate cert]

/-- Persist the version and move the order to valid. -/
def completeOrder (order : Order) (csrPEM : String) (cert : ManagedCertificate)
    (issuance : IssuanceResult) : Service (Try FinalizeOrderResult) := do
  let version : CertificateVersion := ⟨"",cert.id,issuance.serial,issuance.notBefore,issuance.notAfter,
    "",issuance.certPEM++issuance.chainPEM,csrPEM,zeroTime⟩
  let done := {order with status := .valid, csrPEM := csrPEM, certificateID := cert.id, error := none}
  match ← withinTx [.createVersion version,.updateOrder done] with
  | .error err => raise err
  | .ok _ => pure (.ok ⟨done,cert.id⟩)

/-- The common name that is asked for: that of the request, or else the first identifier. -/
def commonNameOf (order : Order) (csr : CertificateRequest) : String :=
  if csr.commonName="" then (order.identifiers.head?.map (·.value)).getD "" else csr.commonName

/-- The alternative names that are asked for. -/
def dnsValues (identifiers : List Identifier) : List String := (identifiers.filter (·.type="dns")).map (·.value)

/-- The extended key usages that are asked for. -/
def ekusOf (profile : CertificateProfile) : List String :=
  if profile.allowedEKUs=[] then defaultEKUs else profile.allowedEKUs

def issueForOrder (svc : ACMEService) (order : Order) (profile : CertificateProfile)
    (csr : CertificateRequest) (csrPEM : String) : Service (Try FinalizeOrderResult) := do
  let commonName := commonNameOf order csr
  let sans := dnsValues order.identifiers
  match ← firstAvailableIssuer with
  | none => raise ⟨"acme: no issuer available in registry",none⟩
  | some issuerID =>
    match ← issueCertificate issuerID commonName sans csrPEM (ekusOf profile) profile.maxTTLSeconds
        profile.mustStaple with
    | .error err =>
      let problem : Problem :=
        ⟨"urn:ietf:params:acme:error:serverInternal","issuer rejected the CSR",500⟩
      let _ ← withinTx [.updateOrder {order with status := .invalid, error := some problem}]
      raise (err.wrapped "acme: issuer issuance: ")
    | .ok issuance =>
      let suffix ← randIDSuffix
      let cert : ManagedCertificate :=
        {id := "mc-acme-"++suffix, name := "acme-"++order.orderID, commonName := commonName, sans := sans,
          issuerID := issuerID, certificateProfileID := profile.id, status := .active,
          expiresAt := issuance.notAfter, source := .acme}
      match ← create svc cert with
      | .error err => raise (err.wrapped "acme: cert insert: ")
      | .ok _ => completeOrder order csrPEM cert issuance

def processOrder (svc : ACMEService) (order : Order) (profileID : String)
    (csr : CertificateRequest) (csrPEM : String) : Service (Try FinalizeOrderResult) := do
  match ← resolveProfile svc profileID with
  | .error err => raise err
  | .ok resolvedProfileID =>
    match ← getProfile resolvedProfileID with
    | .error err => raise (err.wrapped "acme: lookup profile: ")
    | .ok profile =>
      let processing := {order with status := .processing}
      match ← withinTx [.updateOrder processing] with
      | .error err => raise err
      | .ok _ => issueForOrder svc processing profile csr csrPEM

def finalizeOrder (svc : ACMEService) (accountID orderID profileID : String)
    (csr : CertificateRequest) (csrPEM : String) : Service (Try FinalizeOrderResult) :=
  if !svc.certService || !svc.certRepo || !svc.issuerRegistry then
    raise Sentinel.acmeFinalizeUnconfigured.error
  else if !svc.tx || !svc.auditService then
    raise ⟨"acme: finalize requires SetTransactor + SetAuditService",none⟩
  else do
    match ← lookupOrder orderID accountID with
    | .error err => raise err
    | .ok order =>
      if order.status≠.ready ∧ order.status≠.processing then
        raise ⟨Sentinel.acmeOrderNotReady.text++": status="++order.status.text, some .acmeOrderNotReady⟩
      -- a valid order never gets here, since the check above has refused it
      else if order.status=.valid ∧ order.certificateID≠"" then
        pure (.ok ⟨order,order.certificateID⟩)
      else
        match csrMatchesIdentifiers svc csr order.identifiers with
        | some problem => do
          let _ ← withinTx [.updateOrder {order with status := .invalid, error := some problem}]
          raise ⟨"acme: csr mismatch: "++problem.detail,none⟩
        | none => processOrder svc order profileID csr csrPEM

/-- One finalize request: who asks, under which profile, with which request. -/
structure FinalizeCall where
  accountID : String
  /-- The profile of the endpoint, empty for the default one. -/
  profileID : String
  csr : CertificateRequest
  csrPEM : String

def finalizeCalls {ι : Type} (svc : ACMEService) (orderID : String) (calls : ι→FinalizeCall) :
    ι→Service (Try FinalizeOrderResult) :=
  fun t => finalizeOrder svc (calls t).accountID orderID (calls t).profileID (calls t).csr (calls t).csrPEM

def issued : controlPlane.Obs ℕ
  | .issueCertificate _ _ _ _ _ _ _,.ok _ => 1
  | _,_ => 0

def marksProcessing (orderID : String) : Op→Bool
  | .withinTx writes => writes.any fun w => w.orderStatus? orderID=some .processing
  | _ => false

/-- One for every committed move of the order to processing. -/
def claimed (orderID : String) : controlPlane.Obs ℕ
  | .withinTx writes,.ok _ => if marksProcessing orderID (.withinTx writes) then 1 else 0
  | _,_ => 0

def neverReady (orderID : String) : Op→Prop
  | .withinTx writes => ∀ w∈writes,w.orderStatus? orderID≠some .ready
  | _ => True

/-- What every operation of a finalize call satisfies: a certificate is issued
only after an own move to processing, and the order is never made ready. -/
def FinalizeStep (orderID : String) (n : ℕ) (op : controlPlane.Op) (r : controlPlane.Res op) : Prop :=
  affordable issued (claimed orderID) n op r ∧ neverReady orderID op

abbrev FinalizeTracked {α : Type} (orderID : String) (Q : α→ℕ→Prop) (p : Service α) (n : ℕ) : Prop :=
  p.Tracked controlPlane.CanAnswer (FinalizeStep orderID) (credit issued (claimed orderID)) Q n

variable {writes : List Write} {order : Order}

section Rules

variable {G : Type}

/-- Operations of a finalize call that touch no order and issue nothing. -/
def quietOp : Op→Prop
  | .getProfile _ => True
  | .firstAvailableIssuer => True
  | .randIDSuffix => True
  | .validateCertificate _ => True
  | .withinTx writes => ∃ cert,writes=[.createCertificate cert]
  | _ => False

/-- What a condition on operations and a ghost value have to meet for a finalize call to
be tracked: one clause for each operation that reads or writes the order or issues. -/
structure FinalizeRules (svc : ACMEService) (accountID orderID profileID : String) (csr : CertificateRequest)
    (csrPEM : String) (can : controlPlane.Obs Prop)
    (pre : G→controlPlane.Obs Prop) (upd : G→controlPlane.Obs G)
    (Begun : G→Prop) (Found : Order→G→Prop) (Marked Issued : Order→CertificateProfile→G→Prop) : Prop where
  /-- Other operations are admitted and leave the ghost value alone. -/
  quiet : ∀ g op r,quietOp op → pre g op r ∧ upd g op r=g
  /-- The order is read, and goes on if the account owns it and it can be finalized. -/
  read : ∀ g (r : Try Order),Begun g → can (.getOrderByID orderID) r → pre g (.getOrderByID orderID) r ∧
    ∀ order,r=.ok order → order.accountID=accountID → order.status=.ready ∨ order.status=.processing →
      Found order (upd g (.getOrderByID orderID) r)
  /-- An order that the request does not match is failed. -/
  reject : ∀ g order problem (r : Try Unit),Found order g →
    csrMatchesIdentifiers svc csr order.identifiers=some problem →
      pre g (.withinTx [.updateOrder {order with status := .invalid, error := some problem}]) r
  /-- A matching order is moved to processing, under a profile that was read. -/
  mark : ∀ g order profile (r : Try Unit),Found order g → csrMatchesIdentifiers svc csr order.identifiers=none →
    can (.getProfile (resolvedID svc profileID)) (Except.ok profile) →
      pre g (.withinTx [.updateOrder {order with status := .processing}]) r ∧
        (r=.ok () → Marked {order with status := .processing} profile
          (upd g (.withinTx [.updateOrder {order with status := .processing}]) r))
  /-- The issuer is asked for the names of the order under the profile. -/
  issue : ∀ g order profile issuerID (r : Try IssuanceResult),Marked order profile g →
    pre g (.issueCertificate issuerID (commonNameOf order csr) (dnsValues order.identifiers) csrPEM (ekusOf profile)
      profile.maxTTLSeconds profile.mustStaple) r ∧
    Issued order profile (upd g (.issueCertificate issuerID (commonNameOf order csr) (dnsValues order.identifiers) csrPEM
      (ekusOf profile) profile.maxTTLSeconds profile.mustStaple) r)
  fail : ∀ g order profile problem (r : Try Unit),Issued order profile g →
    pre g (.withinTx [.updateOrder {order with status := .invalid, error := some problem}]) r
  complete : ∀ g order profile version certID (r : Try Unit),Issued order profile g →
    pre g (.withinTx [.createVersion version,.updateOrder
      {order with status := .valid, csrPEM := csrPEM, certificateID := certID, error := none}]) r

variable {svc : ACMEService} {accountID orderID profileID csrPEM : String} {csr : CertificateRequest}
  {can : controlPlane.Obs Prop} {pre : G→controlPlane.Obs Prop}
  {upd : G→controlPlane.Obs G} {Begun : G→Prop} {Found : Order→G→Prop}
  {Marked Issued : Order→CertificateProfile→G→Prop} {α : Type} {Q : α→G→Prop} {g : G}

theorem tracked_op {op : Op} {k : Res op→Service α}
    (h : ∀ r,can op r → pre g op r ∧ (k r).Tracked can pre upd Q (upd g op r)) :
    ((request op).bind k).Tracked can pre upd Q g := h

theorem tracked_quiet (hquiet : ∀ g op r,quietOp op → pre g op r ∧ upd g op r=g) (op : Op) (hop : quietOp op)
    {k : Res op→Service α} (hk : ∀ r,can op r → (k r).Tracked can pre upd Q g) :
    ((request op).bind k).Tracked can pre upd Q g := by
  refine tracked_op fun r hr => ?_
  obtain ⟨hpre,hupd⟩ := hquiet g op r hop
  refine ⟨hpre,?_⟩
  rw [hupd]
  exact hk r hr

theorem tracked_lookupOrder {Q : Try Order→G→Prop}
    (hrules : FinalizeRules svc accountID orderID profileID csr csrPEM can pre upd Begun Found Marked Issued)
    (hg : Begun g) (herr : ∀ err g',Q (.error err) g') (hok : ∀ order g',order.accountID=accountID →
      (order.status=.ready ∨ order.status=.processing → Found order g') → Q (.ok order) g') :
    (lookupOrder orderID accountID).Tracked can pre upd Q g := by
  refine tracked_op fun r hr => ?_
  have hread := hrules.read g r hg hr
  refine ⟨hread.1,?_⟩
  cases r with
  | error =>
    dsimp only
    split <;> exact herr _ _
  | ok order =>
    dsimp only
    split
    · exact herr _ _
    rename_i howner
    have howner : order.accountID=accountID := not_not.mp howner
    exact hok order _ howner (hread.2 order rfl howner)

theorem tracked_resolveProfile {Q : Try String→G→Prop} (hget : ∀ r,pre g (.getProfile (resolvedID svc profileID)) r)
    (hnone : resolvedID svc profileID="" → ∀ err,Q (.error err) g)
    (herr : ∀ err err',Q (.error err') (upd g (.getProfile (resolvedID svc profileID)) (.error err)))
    (hok : ∀ profile,Q (.ok (resolvedID svc profileID)) (upd g (.getProfile (resolvedID svc profileID)) (.ok profile))) :
    (resolveProfile svc profileID).Tracked can pre upd Q g := by
  unfold resolveProfile
  split
  · rename_i hempty
    refine hnone ?_ _
    rw [resolvedID,if_pos hempty.1]
    exact hempty.2
  refine tracked_op fun r _ => ⟨hget r,?_⟩
  cases r with
  | error err =>
    dsimp only
    split <;> exact herr err _
  | ok profile => exact hok profile

theorem tracked_create {cert : ManagedCertificate} {Q : Try Unit→G→Prop}
    (hquiet : ∀ g op r,quietOp op → pre g op r ∧ upd g op r=g) (hall : ∀ r,Q r g) :
    (create svc cert).Tracked can pre upd Q g := by
  unfold create
  split
  · exact hall _
  split
  · exact hall _
  refine tracked_quiet hquiet (.validateCertificate cert) trivial fun r _ => ?_
  cases r with
  | error => exact hall _
  | ok => exact tracked_quiet hquiet (.withinTx [.createCertificate cert]) ⟨cert,rfl⟩ fun r _ => hall r

theorem tracked_last {β : Type} {k : Try Unit→Service β}
    (hpre : ∀ r,pre g (.withinTx writes) r) (hk : ∀ r,∃ b,k r=.ret b) :
    ((withinTx writes).bind k).Tracked can pre upd (fun _ _ => True) g := by
  refine tracked_op fun r _ => ⟨hpre r,?_⟩
  obtain ⟨b,hb⟩ := hk r
  rw [hb]
  trivial

section

variable (hrules : FinalizeRules svc accountID orderID profileID csr csrPEM can pre upd Begun Found Marked Issued)
include hrules

theorem tracked_issueForOrder {profile : CertificateProfile} (hg : Marked order profile g) :
    (issueForOrder svc order profile csr csrPEM).Tracked can pre upd (fun _ _ => True) g := by
  refine tracked_quiet hrules.quiet .firstAvailableIssuer trivial fun r _ => ?_
  cases r with
  | none => trivial
  | some issuerID =>
    refine tracked_op fun r _ => ?_
    obtain ⟨hpre,hissued⟩ := hrules.issue g order profile issuerID r hg
    refine ⟨hpre,?_⟩
    cases r with
    | error => exact tracked_last (fun r => hrules.fail _ order profile _ r hissued) fun r => ⟨_,rfl⟩
    | ok =>
      refine tracked_quiet hrules.quiet .randIDSuffix trivial fun suffix _ => ?_
      refine Prog.tracked_bind.mpr (tracked_create hrules.quiet fun r => ?_)
      cases r with
      | error => trivial
      | ok =>
        refine tracked_last (fun r => hrules.complete _ order profile _ _ r hissued)
          (onAnswer (fun _ => ?_) fun _ => ⟨_,rfl⟩)
        exact ⟨_,rfl⟩

theorem tracked_processOrder (hg : Found order g) (hmatch : csrMatchesIdentifiers svc csr order.identifiers=none) :
    (processOrder svc order profileID csr csrPEM).Tracked can pre upd (fun _ _ => True) g := by
  have hget := fun r => hrules.quiet g (.getProfile (resolvedID svc profileID)) r trivial
  refine Prog.tracked_bind.mpr (tracked_resolveProfile (fun r => (hget r).1) (fun _ _ => trivial) (fun _ _ => trivial) ?_)
  intro profile
  rw [(hget (Except.ok profile)).2]
  refine tracked_quiet hrules.quiet (.getProfile _) trivial fun r hr => ?_
  cases r with
  | error => trivial
  | ok profile =>
    refine tracked_op fun r _ => ?_
    obtain ⟨hpre,hmarked⟩ := hrules.mark g order profile r hg hmatch hr
    refine ⟨hpre,?_⟩
    cases r with
    | error => trivial
    | ok => exact tracked_issueForOrder hrules (hmarked rfl)

theorem tracked_finalize (hg : Begun g) :
    (finalizeOrder svc accountID orderID profileID csr csrPEM).Tracked can pre upd (fun _ _ => True) g := by
  unfold finalizeOrder
  split
  · trivial
  split
  · trivial
  refine Prog.tracked_bind.mpr (tracked_lookupOrder hrules hg (fun err g' => trivial) ?_)
  intro order g' howner hfound
  dsimp only
  split
  · trivial
  rename_i hstatus
  have hready : order.status=.ready ∨ order.status=.processing := by
    by_contra hno
    exact hstatus (not_or.mp hno)
  split
  · trivial
  split
  · rename_i problem hproblem
    exact tracked_last (fun r => hrules.reject _ order problem r (hfound hready) hproblem) fun r => ⟨_,rfl⟩
  · rename_i hmatch
    exact tracked_processOrder hrules (hfound hready) hmatch

end

end Rules

section Tracking

variable {orderID : String}

theorem claimed_final {r : Try Unit}
    (hset : ∀ w∈writes,∀ status,w.orderStatus? orderID=some status → status=.valid ∨ status=.invalid) :
    claimed orderID (.withinTx writes) r=0 ∧ neverReady orderID (.withinTx writes) := by
  have hmarks : ¬marksProcessing orderID (.withinTx writes)=true := by
    simp only [marksProcessing,List.any_eq_true,decide_eq_true_eq,not_exists,not_and]
    intro w hw hp
    rcases hset w hw _ hp with h|h <;> cases h
  refine ⟨?_,?_⟩
  · cases r with
    | error => rfl
    | ok => exact if_neg hmarks
  · intro w hw hready
    rcases hset w hw _ hready with h|h <;> cases h

theorem updateOrder_final (h : order.status=.valid ∨ order.status=.invalid)
    (status : OrderStatus) (hs : (Write.updateOrder order).orderStatus? orderID=some status) :
    status=.valid ∨ status=.invalid := by
  simp only [Write.orderStatus?] at hs
  split at hs
  · cases hs
    exact h
  · cases hs

theorem finalizeStep_final (n : ℕ) (r : Try Unit)
    (hset : ∀ w∈writes,∀ status,w.orderStatus? orderID=some status → status=.valid ∨ status=.invalid) :
    FinalizeStep orderID n (.withinTx writes) r ∧ credit issued (claimed orderID) n (.withinTx writes) r=n := by
  obtain ⟨hclaimed,hnever⟩ := claimed_final (r := r) hset
  refine ⟨⟨Nat.zero_le _,hnever⟩,?_⟩
  simp only [credit,hclaimed,issued,Nat.add_zero,Nat.sub_zero]

/-- A finalize call earns the one certificate by its own move to processing. -/
theorem finalizeRules_credit (svc : ACMEService) (accountID profileID : String) (csr : CertificateRequest)
    (csrPEM : String) : FinalizeRules svc accountID orderID profileID csr csrPEM controlPlane.CanAnswer
      (FinalizeStep orderID) (credit issued (claimed orderID)) (fun n => n=0)
      (fun order n => order.orderID=orderID ∧ n=0) (fun _ _ n => n=1) (fun _ _ _ => True) where
  quiet := by
    intro n op r hop
    cases op with
    | withinTx =>
      obtain ⟨cert,rfl⟩ := hop
      refine finalizeStep_final n r fun w hw status hs => ?_
      rw [List.mem_singleton.mp hw] at hs
      cases hs
    | getProfile | firstAvailableIssuer | randIDSuffix | validateCertificate => exact ⟨⟨Nat.zero_le _,trivial⟩,rfl⟩
    | _ => exact hop.elim
  read := by
    intro n r hn hr
    refine ⟨⟨Nat.zero_le _,trivial⟩,fun order hok _ _ => ⟨?_,hn⟩⟩
    subst hok
    obtain ⟨c,db,db',hanswer⟩ := hr
    exact (lookup_some (readRow_ok (effect_of_perform hanswer)).1).2
  reject := by
    intro n order problem r hfound _
    refine (finalizeStep_final n r fun w hw status hs => ?_).1
    rw [List.mem_singleton.mp hw] at hs
    exact updateOrder_final (.inr rfl) status hs
  mark := by
    intro n order profile r hfound _ _
    obtain ⟨horder,rfl⟩ := hfound
    have hset : (Write.updateOrder {order with status := .processing}).orderStatus? orderID=
        some .processing := if_pos horder
    have hnever : neverReady orderID (.withinTx [.updateOrder {order with status := .processing}]) := by
      intro w hw
      rw [List.mem_singleton.mp hw,hset]
      exact nofun
    refine ⟨⟨Nat.zero_le _,hnever⟩,?_⟩
    rintro rfl
    have hclaimed : claimed orderID (.withinTx [.updateOrder {order with status := .processing}]) (.ok ())=1 := by
      simp only [claimed,marksProcessing,List.any_cons,hset,decide_true,Bool.true_or,if_true]
    unfold credit
    rw [hclaimed]
    rfl
  issue := by
    intro n order profile issuerID r hn
    subst hn
    refine ⟨⟨?_,trivial⟩,trivial⟩
    refine onAnswer (fun issuance => ?_) (fun _ => Nat.zero_le _) r
    exact Nat.le_refl 1
  fail := by
    intro n order profile problem r _
    refine (finalizeStep_final n r fun w hw status hs => ?_).1
    rw [List.mem_singleton.mp hw] at hs
    exact updateOrder_final (.inr rfl) status hs
  complete := by
    intro n order profile version certID r _
    refine (finalizeStep_final n r fun w hw status hs => ?_).1
    rcases List.mem_cons.mp hw with rfl|hw
    · cases hs
    rw [List.mem_singleton.mp hw] at hs
    exact updateOrder_final (.inl rfl) status hs

end Tracking

section Runs

variable {ι : Type} [DecidableEq ι]

/-- Every committed move to processing finds the order still stored as ready. -/
def processingFromReady (orderID : String) : StepCondition controlPlane ι (Try FinalizeOrderResult) :=
  fun cfg _ op c =>
    marksProcessing orderID op=true → c.fault=none → orderStatus orderID cfg.state=some .ready

instance (orderID : String) (cfg : Config controlPlane ι (Try FinalizeOrderResult)) (t : ι)
    (op : controlPlane.Op) (c : controlPlane.Choice) : Decidable (processingFromReady orderID cfg t op c) :=
  inferInstanceAs (Decidable (marksProcessing orderID op=true → c.fault=none →
    orderStatus orderID cfg.state=some .ready))

def claimable (orderID : String) (db : Db) : ℕ := if orderStatus orderID db=some .ready then 1 else 0

theorem claimable_le_one (orderID : String) (db : Db) : claimable orderID db≤1 := by
  unfold claimable
  split <;> omega

variable {c : Choice} {db db' : Db} {orderID : String}

theorem claimed_withinTx {u : Unit} (hnever : neverReady orderID (.withinTx writes))
    (hready : marksProcessing orderID (.withinTx writes)=true → orderStatus orderID db=some .ready)
    (hwrites : applyWrites c db writes=.ok db') :
    claimed orderID (.withinTx writes) (.ok u)+claimable orderID db'≤claimable orderID db := by
  by_cases hafter : orderStatus orderID db'=some .ready
  · obtain ⟨hbefore,hnone⟩ := ready_of_applyWrites hnever hwrites hafter
    have hmarks : marksProcessing orderID (.withinTx writes)=false := by
      simp only [marksProcessing,List.any_eq_false]
      intro w hw
      rw [hnone w hw]
      exact nofun
    simp only [claimed,hmarks,claimable,hafter,hbefore,Bool.false_eq_true,if_false]
    omega
  · by_cases hmarks : marksProcessing orderID (.withinTx writes)=true
    · simp only [claimed,claimable,if_pos hmarks,if_pos (hready hmarks),if_neg hafter]
      omega
    · simp only [claimed,claimable,if_neg hmarks,if_neg hafter]
      omega

/-- Every admitted operation uses up the claim it makes. -/
theorem claimed_add_claimable {op : Op} {r : Res op} (hnever : neverReady orderID op)
    (hready : marksProcessing orderID op=true → c.fault=none → orderStatus orderID db=some .ready)
    (h : effect c db op=(r,db')) : claimed orderID op r+claimable orderID db'≤claimable orderID db := by
  by_cases hop : ∃ writes,op=.withinTx writes
  · obtain ⟨writes,rfl⟩ := hop
    cases r with
    | error =>
      rw [fallible_error h]
      exact Nat.le_of_eq (Nat.zero_add _)
    | ok =>
      have hfault := (fallible_ok h).1
      exact claimed_withinTx hnever (fun hmarks => hready hmarks hfault) (withinTx_ok h)
  have horders := (effect_sameTables c db fun writes he => hop ⟨writes,he⟩).orders
  simp only [h] at horders
  have hzero : claimed orderID op r=0 := by
    cases op with
    | withinTx writes => exact absurd ⟨writes,rfl⟩ hop
    | _ => rfl
  have hstatus : orderStatus orderID db'=orderStatus orderID db := by simp only [orderStatus,horders]
  have hsame : claimable orderID db'=claimable orderID db := by simp only [claimable,hstatus]
  omega

/-- In every run whose moves to processing all find the order ready, any
number of finalize calls obtain at most one certificate for the order. -/
theorem finalizeOrder_issues_at_most_once (svc : ACMEService) (orderID : String)
    (calls : ι→FinalizeCall) (db : Db)
    (cfg : Config controlPlane ι (Try FinalizeOrderResult))
    (hreach : Reach (processingFromReady orderID) (initial (finalizeCalls svc orderID calls) db) cfg) :
    weight issued cfg.log≤1 := by
  have htracked : ∀ t,FinalizeTracked orderID (fun _ _ => True) (finalizeCalls svc orderID calls t) 0 :=
    fun t => tracked_finalize (finalizeRules_credit svc _ _ _ _) rfl
  have hissued : weight issued cfg.log≤ weight (claimed orderID) cfg.log :=
    reach_affordable (fun t => (htracked t).weaken fun _ _ _ h => h.1) hreach
  have hclaimed : weight (claimed orderID) cfg.log+claimable orderID cfg.state≤1 := by
    refine (reach_tracked (I := fun b => weight (claimed orderID) b.log+claimable orderID b.state≤1)
      (admitted_canAnswer _ _) hreach htracked ?_ ?_).1
    · have hone := claimable_le_one orderID db
      simp only [initial,weight_nil]
      omega
    intro a t op c r db' ha hall hok hperform hpre k hthread
    have hstep := claimed_add_claimable hpre.2 hok (effect_of_perform hperform)
    simp only [Config.advance,weight_cons]
    omega
  omega

def sampleService : ACMEService := {toLower := id, quote := id}

/-- An order and what its certificate refers to, which has neither owner nor team nor renewal policy. -/
def sampleDb : Db where
  orders := [⟨"acme-ord-1","acme-acc-1",[⟨"dns","example.com"⟩],.ready,none,"","",zeroTime⟩]
  profiles := [{id := "prof-1"}]
  issuers := ["iss-local"]
  issuerRows := ["iss-local"]
  owners := [⟨"","",""⟩]
  teams := [""]
  renewalPolicies := [""]

def sampleCall : FinalizeCall := ⟨"acme-acc-1","prof-1",⟨"example.com",[]⟩,"csr"⟩

def samplePool : Bool→Service (Try FinalizeOrderResult) := finalizeCalls sampleService "acme-ord-1" fun _ => sampleCall

/-- The first call obtains its certificate and completes the order, so that the second one is refused. -/
theorem finalizeOrder_issues_at_most_once_sample :
    ∃ cfg,Reach (processingFromReady "acme-ord-1") (initial samplePool sampleDb) cfg ∧
      weight issued cfg.log=1 ∧ (cfg.threads false).result?.map (·.isOk)=some false ∧
      weight issued cfg.log≤1 := by
  refine reaches_view (List.replicate 10 (true,{fresh := "v1"})++[(false,noFault)]) (fun cfg =>
    (weight issued cfg.log,(cfg.threads false).result?.map (·.isOk))) (1,some false) (by decide)
    fun cfg hreach hout => ?_
  refine ⟨congrArg Prod.fst hout,congrArg Prod.snd hout,?_⟩
  exact finalizeOrder_issues_at_most_once sampleService "acme-ord-1" (fun _ => sampleCall) sampleDb cfg hreach

/-- Two overlapping calls of the owner both read the order as ready, and both
obtain a certificate for it. -/
theorem finalizeOrder_issues_twice :
    ∃ cfg,Reach anyStep (initial samplePool sampleDb) cfg ∧
      weight issued cfg.log=2 := by
  refine reaches_view ([(true,noFault),(false,noFault)]++List.replicate 5 (true,noFault)++
    List.replicate 5 (false,noFault)) (fun cfg => weight issued cfg.log) 2 (by decide) fun cfg _ hout => ?_
  exact hout

end Runs

end Certctl.AcmeOrders
