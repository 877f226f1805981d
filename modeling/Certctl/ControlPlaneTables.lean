import Certctl.SingleFlight
import Certctl.DomainRecords
import Mathlib.Data.Set.Finite.Basic

/-!
# The tables of the control plane

The database tables, the registry of issuer connectors and the in-process
map of response signings in flight, with the row writes that services
make. A write violates a constraint or changes one table; a transaction is
a list of writes that all happen or none does. Audit rows are not kept: a
failed audit insert is a failed transaction.
-/

namespace Certctl.ControlPlaneTables

open DomainRecords RecordTable SingleFlight Option

/-- The slots of the workers. -/
structure Semaphore where
  capacity : ℕ
  held : ℕ := 0

/-- The tables, the issuer registry and the synchronisation objects of the process. -/
structure Db where
  orders : List Order := []
  certs : List ManagedCertificate := []
  versions : List CertificateVersion := []
  profiles : List CertificateProfile := []
  revocations : List CertificateRevocation := []
  ocspCache : List OCSPResponseCacheEntry := []
  jobs : List Job := []
  approvals : List ApprovalRequest := []
  owners : List Owner := []
  /-- Identifiers of the rows of three tables that are looked at for foreign keys only. -/
  teams : List String := []
  issuerRows : List String := []
  renewalPolicies : List String := []
  targets : List DeploymentTarget := []
  agents : List Agent := []
  /-- The profile repository hands out the approval flag of a profile. The
  Postgres queries leave that column out, so there it is false. -/
  readsApprovalFlag : Bool := false
  /-- Identifiers of the registered issuer connectors. -/
  issuers : List String := []
  /-- Signings of status responses in flight. -/
  flight : Flights String (Try OCSPResponse) := {}
  /-- Semaphores of fan-outs, by number. -/
  semaphores : List Semaphore := []

/-- A row write inside a transaction. -/
inductive Write where
  /-- Overwrite the mutable columns of an order. -/
  | updateOrder (order : Order)
  | createCertificate (cert : ManagedCertificate)
  | updateCertificate (cert : ManagedCertificate)
  | createVersion (version : CertificateVersion)
  /-- Insert a revocation unless its issuer and serial number are there. -/
  | createRevocation (revocation : CertificateRevocation)
  /-- Record that the issuer knows of a revocation. -/
  | markIssuerNotified (id : String)
  /-- Insert or overwrite a cached response. -/
  | putOCSPResponse (entry : OCSPResponseCacheEntry)
  | deleteOCSPResponse (issuerID serialHex : String)
  /-- Overwrite the columns of a profile that the repository knows. -/
  | updateProfile (profile : CertificateProfile)
  | createJob (job : Job)
  /-- Overwrite all columns of a job but its creation time. -/
  | updateJob (job : Job)
  | updateJobStatus (id : String) (status : JobStatus) (errMsg : String)
  | claimJobs (ids : List String)
  | createApproval (req : ApprovalRequest)
  /-- Record the decision on a request, if it is pending. -/
  | decideApproval (id : String) (state : ApprovalState) (decidedBy : String) (decidedAt : Time) (note : String)
  /-- Expire the pending requests created up to a time. -/
  | expireApprovals (before now : Time)
deriving DecidableEq

/-- What the environment decides at one operation. -/
structure Choice where
  fault : Err := none
  now : Time := 0
  fresh : String := ""
  /-- Which of several equally good rows or map entries is taken. -/
  pick : ℕ := 0
  /-- Where the environment puts the rows that a query leaves in either order. -/
  rank : ℕ→ℕ := fun _ => 0
  issuance : IssuanceResult := ⟨"","","",zeroTime,zeroTime⟩

/-- The choice of an environment in which nothing fails. -/
def noFault : Choice := {}

def overwriteOrder (order row : Order) : Order :=
  {row with status := order.status,error := order.error,csrPEM := order.csrPEM,certificateID := order.certificateID}

/-- Overwrite a certificate row. The targets live in a table of their own. -/
def overwriteCertificate (cert row : ManagedCertificate) : ManagedCertificate :=
  {cert with id := row.id, targetIDs := row.targetIDs, createdAt := row.createdAt}

/-- Overwrite a profile row. The update names neither the approval flag nor the ACME auth mode. -/
def overwriteProfile (profile row : CertificateProfile) : CertificateProfile :=
  {profile with id := row.id, requiresApproval := row.requiresApproval, acmeAuthMode := row.acmeAuthMode}

def overwriteJob (job row : Job) : Job := {job with id := row.id, createdAt := row.createdAt}

/-- A job row with a new status and error; an empty error is stored as none. -/
def statusJob (status : JobStatus) (errMsg : String) (row : Job) : Job :=
  {row with status := status, lastError := if errMsg="" then none else some errMsg}

def claimedJob (row : Job) : Job := {row with status := .running}

def decidedRequest (state : ApprovalState) (decidedBy : String) (decidedAt : Time) (note : String)
    (row : ApprovalRequest) : ApprovalRequest :=
  if row.state=.pending then
    {row with state := state, decidedBy := some decidedBy, decidedAt := some decidedAt, decisionNote := note}
  else row

def expiredRequest (before now : Time) (row : ApprovalRequest) : ApprovalRequest :=
  if row.createdAt≤before then
    decidedRequest .expired "system-reaper" now
      "auto-expired by scheduler reaper at CERTCTL_JOB_AWAITING_APPROVAL_TIMEOUT" row
  else row

/-- The rows that a certificate refers to exist; an empty identifier counts but for the profile's. -/
def certificateReferences (db : Db) (cert : ManagedCertificate) : Bool :=
  (db.owners.any fun owner => owner.id=cert.ownerID) && db.teams.contains cert.teamID &&
    db.issuerRows.contains cert.issuerID && db.renewalPolicies.contains cert.renewalPolicyID &&
    (cert.certificateProfileID="" || db.profiles.any fun profile => profile.id=cert.certificateProfileID)

def jobReferences (db : Db) (job : Job) : Bool :=
  (db.certs.any fun cert => cert.id=job.certificateID) &&
    (job.targetID.all fun id => db.targets.any fun target => target.id=id) &&
    job.agentID.all fun id => db.agents.any fun agent => agent.id=id

/-- The rows that a request refers to exist; an empty identifier is stored as no reference. -/
def approvalReferences (db : Db) (req : ApprovalRequest) : Bool :=
  (db.profiles.any fun profile => profile.id=req.profileID) &&
    (req.certificateID="" || db.certs.any fun cert => cert.id=req.certificateID) &&
    (req.jobID="" || db.jobs.any fun job => job.id=req.jobID)

def approvalKindConsistent (req : ApprovalRequest) : Bool :=
  match req.kind with
  | .certIssuance => req.certificateID≠"" && req.jobID≠""
  | .profileEdit => req.payload≠""

/-- A version row as inserted, with a generated key when none is given. -/
def versionRow (c : Choice) (version : CertificateVersion) : CertificateVersion :=
  {version with id := if version.id="" then c.fresh else version.id}

def revocationKey (revocation : CertificateRevocation) : String×String := (revocation.issuerID,revocation.serialNumber)

def notifiedRow (row : CertificateRevocation) : CertificateRevocation := {row with issuerNotified := true}

def cacheKey (entry : OCSPResponseCacheEntry) : String×String := (entry.issuerID,entry.serialHex)

/-- The error of a row write that violates a constraint or finds no row. -/
def violation (c : Choice) (db : Db) : Write→Err
  | .updateOrder order =>
    if (lookup Order.orderID order.orderID db.orders).isSome then none
    else some (Sentinel.notFound.error.wrapped "order not found: ")
  | .createCertificate cert =>
    -- the primary key, the unique name column and the foreign keys
    if (db.certs.any fun row => row.id=cert.id || row.name=cert.name) || !certificateReferences db cert then
      some ⟨"failed to create certificate: failed to create certificate: constraint violation",none⟩
    else none
  | .updateCertificate cert =>
    -- the callers write the references back that they have read
    if db.certs.any fun row => row.id≠cert.id && row.name=cert.name then
      some ⟨"failed to update certificate: duplicate key",none⟩
    else if (lookup ManagedCertificate.id cert.id db.certs).isSome then none
    else some (Sentinel.notFound.error.wrapped "certificate not found: ")
  | .createVersion version =>
    let row := versionRow c version
    -- the primary key, the unique fingerprint column and the foreign key
    if (db.versions.any fun old => old.id=row.id || old.fingerprintSHA256=row.fingerprintSHA256) ||
        !db.certs.any fun cert => cert.id=row.certificateID then
      some ⟨"failed to create certificate version: constraint violation",none⟩
    else none
  | .createRevocation revocation =>
    -- a row with the same issuer and serial number ends the insert before the other constraints
    if (lookup revocationKey (revocationKey revocation) db.revocations).isSome then none
    else if (db.revocations.any fun old => old.id=revocation.id) ||
        !db.certs.any fun cert => cert.id=revocation.certificateID then
      some ⟨"failed to create revocation record: constraint violation",none⟩
    else none
  | .markIssuerNotified id =>
    if (lookup CertificateRevocation.id id db.revocations).isSome then none
    else some (Sentinel.notFound.error.wrapped "revocation not found: ")
  | .putOCSPResponse _ => none
  | .deleteOCSPResponse _ _ => none
  | .updateProfile profile =>
    if (lookup CertificateProfile.id profile.id db.profiles).isSome then none
    else some (Sentinel.notFound.error.wrapped "profile not found: ")
  | .createJob job =>
    if (db.jobs.any fun row => row.id=job.id) || !jobReferences db job then
      some ⟨"failed to create job: constraint violation",none⟩
    else none
  | .updateJob job =>
    if !(lookup Job.id job.id db.jobs).isSome then some (Sentinel.notFound.error.wrapped "job not found: ")
    else if jobReferences db job then none
    else some ⟨"failed to update job: constraint violation",none⟩
  | .updateJobStatus id _ _ =>
    if (lookup Job.id id db.jobs).isSome then none
    else some (Sentinel.notFound.error.wrapped "job not found: ")
  | .claimJobs _ => none
  | .createApproval req =>
    if !approvalKindConsistent req then some ⟨"insert approval request: constraint violation",none⟩
    -- the primary key and the index on pending requests of one job
    else if (db.approvals.any fun row => row.id=req.id) || (req.state=.pending && req.jobID≠"" &&
          db.approvals.any fun row => row.state=.pending && row.jobID=req.jobID) then
      some Sentinel.alreadyExists.error
    else if approvalReferences db req then none
    else some ⟨"insert approval request: constraint violation",none⟩
  | .decideApproval _ _ _ _ _ => none
  | .expireApprovals _ _ => none

/-- The tables after a row write that goes through. -/
def written (c : Choice) (db : Db) : Write→Db
  | .updateOrder order => {db with orders := modify Order.orderID order.orderID (overwriteOrder order) db.orders}
  | .createCertificate cert => {db with certs := db.certs++[cert]}
  | .updateCertificate cert =>
    {db with certs := modify ManagedCertificate.id cert.id (overwriteCertificate cert) db.certs}
  | .createVersion version => {db with versions := db.versions++[versionRow c version]}
  | .createRevocation revocation =>
    if (lookup revocationKey (revocationKey revocation) db.revocations).isSome then db
    else {db with revocations := db.revocations++[revocation]}
  | .markIssuerNotified id => {db with revocations := modify CertificateRevocation.id id notifiedRow db.revocations}
  | .putOCSPResponse entry => {db with ocspCache := upsert cacheKey entry db.ocspCache}
  | .deleteOCSPResponse issuerID serialHex => {db with ocspCache := remove cacheKey (issuerID,serialHex) db.ocspCache}
  | .updateProfile profile =>
    {db with profiles := modify CertificateProfile.id profile.id (overwriteProfile profile) db.profiles}
  | .createJob job => {db with jobs := db.jobs++[job]}
  | .updateJob job => {db with jobs := modify Job.id job.id (overwriteJob job) db.jobs}
  | .updateJobStatus id status errMsg => {db with jobs := modify Job.id id (statusJob status errMsg) db.jobs}
  | .claimJobs ids => {db with jobs := db.jobs.map fun row => if ids.contains row.id then claimedJob row else row}
  | .createApproval req => {db with approvals := db.approvals++[req]}
  | .decideApproval id state decidedBy decidedAt note =>
    let decide := decidedRequest state decidedBy decidedAt note
    {db with approvals := modify ApprovalRequest.id id decide db.approvals}
  | .expireApprovals before now => {db with approvals := db.approvals.map (expiredRequest before now)}

def applyWrite (c : Choice) (db : Db) (w : Write) : Try Db :=
  match violation c db w with
  | some err => .error err
  | none => .ok (written c db w)

/-- The writes of a transaction, in order; the first failure rolls back. -/
def applyWrites (c : Choice) (db : Db) : List Write→Try Db
  | [] => .ok db
  | w::ws =>
    match applyWrite c db w with
    | .error err => .error err
    | .ok db' => applyWrites c db' ws

variable {c : Choice} {db db' : Db} {w : Write}

theorem applyWrite_ok (h : applyWrite c db w=.ok db') : violation c db w=none ∧ db'=written c db w := by
  unfold applyWrite at h
  split at h
  · cases h
  rename_i hfree
  cases h
  exact ⟨hfree,rfl⟩

variable {P : Db→Prop} {writes : List Write}

theorem applyWrites_keeps (hstep : ∀ w∈writes,∀ a b,P a→applyWrite c a w=.ok b→P b) (hdb : P db)
    (h : applyWrites c db writes=.ok db') : P db' := by
  induction writes generalizing db with
  | nil =>
    cases h
    exact hdb
  | cons w ws ih =>
    simp only [applyWrites] at h
    split at h
    · cases h
    rename_i mid hw
    have hmid := hstep w List.mem_cons_self db mid hdb hw
    exact ih (fun x hx => hstep x (List.mem_cons_of_mem _ hx)) hmid h

theorem applyWrites_reaches {w₀ : Write}
    (hstep : ∀ w∈writes,∀ a b,P a → applyWrite c a w=.ok b → P b) (hmem : w₀∈writes)
    (hmake : ∀ a b,applyWrite c a w₀=.ok b → P b) (h : applyWrites c db writes=.ok db') : P db' := by
  induction writes generalizing db with
  | nil => cases hmem
  | cons w ws ih =>
    simp only [applyWrites] at h
    split at h
    · cases h
    rename_i hw
    have hrest := fun x hx => hstep x (List.mem_cons_of_mem w hx)
    rcases List.mem_cons.mp hmem with rfl|hlater
    · exact applyWrites_keeps hrest (hmake _ _ hw) h
    · exact ih hrest hlater h

def orderStatus (orderID : String) (db : Db) : Option OrderStatus :=
  (lookup Order.orderID orderID db.orders).map (·.status)

def Write.orderStatus? (orderID : String) : Write→Option OrderStatus
  | .updateOrder order => if order.orderID=orderID then some order.status else none
  | _ => none

theorem applyWrite_orderStatus (orderID : String) (h : applyWrite c db w=.ok db') :
    orderStatus orderID db'=(w.orderStatus? orderID).or (orderStatus orderID db) := by
  obtain ⟨hfree,rfl⟩ := applyWrite_ok h
  cases w with
  | updateOrder order =>
    have hkey : ∀ row,(overwriteOrder order row).orderID=row.orderID := fun _ => rfl
    by_cases hid : order.orderID=orderID
    · subst hid
      simp only [violation,ite_eq_left_iff,reduceCtorEq,imp_false,not_not,isSome_iff_exists] at hfree
      obtain ⟨row,hrow⟩ := hfree
      simp only [orderStatus,written,Write.orderStatus?,lookup_modify_self hkey,hrow]
      rfl
    · simp only [orderStatus,written,Write.orderStatus?,if_neg hid,none_or,lookup_modify_of_ne hkey (Ne.symm hid)]
  | createRevocation =>
    simp only [written,Write.orderStatus?]
    split <;> rfl
  | _ => rfl

theorem applyWrite_orderColumn {β : Type} {col : Order→β}
    (hcol : ∀ order row,col (overwriteOrder order row)=col row) (orderID : String) (h : applyWrite c db w=.ok db') :
    (lookup Order.orderID orderID db'.orders).map col=(lookup Order.orderID orderID db.orders).map col := by
  obtain ⟨-,rfl⟩ := applyWrite_ok h
  cases w with
  | updateOrder order => exact column_modify_same (fun _ => rfl) (hcol order)
  | createRevocation =>
    simp only [written]
    split <;> rfl
  | _ => rfl

/-- If no write of a transaction makes an order ready, an order that is ready
afterwards was ready before and was not written at all. -/
theorem ready_of_applyWrites {orderID : String} (hnever : ∀ w∈writes,w.orderStatus? orderID≠some .ready)
    (h : applyWrites c db writes=.ok db') (hready : orderStatus orderID db'=some .ready) :
    orderStatus orderID db=some .ready ∧ ∀ w∈writes,w.orderStatus? orderID=none := by
  induction writes generalizing db with
  | nil =>
    cases h
    exact ⟨hready,List.forall_mem_nil _⟩
  | cons w ws ih =>
    simp only [applyWrites] at h
    split at h
    · cases h
    rename_i hw
    obtain ⟨hmid,hrest⟩ := ih (fun x hx => hnever x (List.mem_cons_of_mem _ hx)) h
    have hstatus := applyWrite_orderStatus orderID hw
    have hnot := hnever w List.mem_cons_self
    cases hset : w.orderStatus? orderID with
    | some =>
      rw [hset] at hstatus
      rw [hset] at hnot
      exact absurd (hstatus.symm.trans hmid) hnot
    | none =>
      rw [hset] at hstatus
      exact ⟨hstatus.symm.trans hmid,List.forall_mem_cons.mpr ⟨hset,hrest⟩⟩

def certStatus (certID : String) (db : Db) : Option CertificateStatus :=
  (lookup ManagedCertificate.id certID db.certs).map (·.status)

/-- The status a row write gives to a certificate, if it writes that certificate. -/
def Write.certStatus? (certID : String) : Write→Option CertificateStatus
  | .createCertificate cert => if cert.id=certID then some cert.status else none
  | .updateCertificate cert => if cert.id=certID then some cert.status else none
  | _ => none

/-- A row write sets the status of the certificate it names and keeps all others. -/
theorem applyWrite_certStatus (certID : String) (h : applyWrite c db w=.ok db') :
    certStatus certID db'=(w.certStatus? certID).or (certStatus certID db) := by
  obtain ⟨hfree,rfl⟩ := applyWrite_ok h
  cases w with
  | createCertificate cert =>
    simp only [certStatus,written,Write.certStatus?,lookup_append]
    by_cases hid : cert.id=certID
    · have hnew : lookup ManagedCertificate.id certID db.certs=none := by
        simp only [violation,ite_eq_right_iff,reduceCtorEq,imp_false,List.any_eq_true,not_exists,not_and,
          Bool.or_eq_true,decide_eq_true_eq,not_or] at hfree
        exact lookup_eq_none.mpr fun row hrow => hid ▸ (hfree.1 row hrow).1
      rw [hnew,if_pos hid,if_pos hid]
      rfl
    · rw [if_neg hid,if_neg hid,or_none,none_or]
  | updateCertificate cert =>
    have hkey : ∀ row,(overwriteCertificate cert row).id=row.id := fun _ => rfl
    by_cases hid : cert.id=certID
    · subst hid
      have hfound : (lookup ManagedCertificate.id cert.id db.certs).isSome=true := by
        simp only [violation] at hfree
        split at hfree
        · cases hfree
        split at hfree
        · assumption
        · cases hfree
      obtain ⟨row,hrow⟩ := isSome_iff_exists.mp hfound
      simp only [certStatus,written,Write.certStatus?,lookup_modify_self hkey,hrow]
      rfl
    · simp only [certStatus,written,Write.certStatus?,if_neg hid,none_or,lookup_modify_of_ne hkey (Ne.symm hid)]
  | createRevocation =>
    simp only [written,Write.certStatus?]
    split <;> rfl
  | _ => rfl

/-- A row write keeps the identifiers of certificates apart. -/
theorem applyWrite_certIDs (h : applyWrite c db w=.ok db')
    (hids : (db.certs.map (·.id)).Nodup) : (db'.certs.map (·.id)).Nodup := by
  obtain ⟨hfree,rfl⟩ := applyWrite_ok h
  cases w with
  | createCertificate =>
    simp only [violation,ite_eq_right_iff,reduceCtorEq,imp_false,List.any_eq_true,not_exists,not_and,
      Bool.or_eq_true,decide_eq_true_eq,not_or] at hfree
    exact keys_append hids fun row hrow => (hfree.1 row hrow).1
  | updateCertificate cert =>
    have hkey : ∀ row,(overwriteCertificate cert row).id=row.id := fun _ => rfl
    simp only [written]
    rw [map_modify hkey]
    exact hids
  | createRevocation =>
    simp only [written]
    split <;> exact hids
  | _ => exact hids

/-- The unique columns of certificates. -/
structure CertificateKeys (db : Db) : Prop where
  ids : (db.certs.map (·.id)).Nodup
  names : (db.certs.map (·.name)).Nodup

theorem updateCertificate_free {cert row : ManagedCertificate} (hkeys : CertificateKeys db)
    (hrow : row∈db.certs) (hid : cert.id=row.id) (hname : cert.name=row.name) :
    violation c db (.updateCertificate cert)=none := by
  have hnames : (db.certs.any fun other => other.id≠cert.id && other.name=cert.name)=false := by
    rw [List.any_eq_false]
    intro other hother hclash
    rw [Bool.and_eq_true,decide_eq_true_eq,decide_eq_true_eq] at hclash
    have hsame : other=row := List.inj_on_of_nodup_map hkeys.names hother hrow (hclash.2.trans hname)
    exact hclash.1 (hsame ▸ hid.symm)
  have hfound : (lookup ManagedCertificate.id cert.id db.certs).isSome=true := by
    rw [hid,lookup_of_mem hkeys.ids hrow]
    rfl
  simp only [violation,hnames,hfound,Bool.false_eq_true,if_false,if_true]

theorem exists_fresh (used : List String) (front : String) : ∃ fresh : String,front++fresh∉used := by
  have hinj : Function.Injective fun n : ℕ => front++String.ofList (List.replicate n 'a') := by
    intro m n h
    have hlength := congrArg String.length h
    simp only [String.length_append,String.length_ofList,List.length_replicate] at hlength
    omega
  obtain ⟨text,⟨n,rfl⟩,hnot⟩ := (Set.infinite_range_of_injective hinj).exists_notMem_finset used.toFinset
  exact ⟨_,fun hmem => hnot (List.mem_toFinset.mpr hmem)⟩

end Certctl.ControlPlaneTables
