import Certctl.ParentLinks
import Certctl.DomainRecords
import Mathlib.Data.List.Sort
import Mathlib.Algebra.Group.Nat.Defs

/-!
# The hierarchy of certificate authorities

Authorities are rows that name their parent. A root is registered with a
certificate that the operator supplies, a child is signed under an active
parent, and an authority is retired in two steps. Parsing, signing and the
key driver are library functions; each call brings its own surroundings,
which decide on outages, the clock and fresh identifiers. Every call either
fails and leaves the table alone, appends one row or moves one state.
-/

namespace Certctl.CaHierarchy

open DomainRecords RecordTable ParentLinks
open List hiding lookup modify

/-- The life of an authority. -/
inductive IntermediateCAState where
  | active
  /-- No new children; existing ones go on. -/
  | retiring
  | retired
deriving DecidableEq

/-- Permitted and excluded subtrees of DNS names. -/
structure NameConstraint where
  permitted : List String := []
  excluded : List String := []
deriving DecidableEq

/-- A row of the authorities' table. -/
structure IntermediateCA where
  id : String
  owningIssuerID : String
  parentCAID : Option String
  /-- The operator's label, unique for one issuer. -/
  name : String
  subject : String
  state : IntermediateCAState
  certPEM : String
  keyDriverID : String
  notBefore : Time
  notAfter : Time
  /-- The recorded path length, absent for no constraint. -/
  pathLenConstraint : Option ℤ
  nameConstraints : List NameConstraint
  /-- Responder address for issued certificates. -/
  ocspResponderURL : String
  metadata : List (String×String)
  createdAt : Time
deriving DecidableEq

abbrev Table := List IntermediateCA

/-- The fields of a parsed certificate that are read. A public key is given by
its serialization, absent when it has none. -/
structure Certificate where
  subject : String := ""
  basicConstraintsValid : Bool := true
  /-- Whether the certificate is one of an authority. -/
  isCA : Bool := true
  /-- The path length as the library reports it. -/
  maxPathLen : ℤ
  /-- Whether a reported zero is a constraint. -/
  maxPathLenZero : Bool
  notBefore : Time
  notAfter : Time
  publicKey : Option (List UInt8)
  permittedDNSDomains : List String := []
  excludedDNSDomains : List String := []

/-- What a new certificate is made from. -/
structure Template where
  serialNumber : ℕ
  subject : String
  notBefore : Time
  notAfter : Time
  keyUsage : ℕ
  basicConstraintsValid : Bool
  /-- Whether the certificate is one of an authority. -/
  isCA : Bool
  maxPathLen : ℤ
  /-- Whether a requested zero is a constraint. -/
  maxPathLenZero : Bool
  permittedDNSDomains : List String
  excludedDNSDomains : List String
  permittedDNSDomainsCritical : Bool
  ocspServer : List String

/-- A key held by the driver. -/
structure Signer where
  publicKey : Option (List UInt8)

/-- Library functions on certificates and texts. -/
structure X509Library where
  /-- The content of the first block of a text. -/
  pemDecode : String→Option (List UInt8)
  pemEncode : List UInt8→String
  parseCertificate : List UInt8→Try Certificate
  /-- The error of a signature check of the first certificate by the second. -/
  checkSignatureFrom : Certificate→Certificate→Err
  /-- Sign a template under a parent, with some randomness. -/
  createCertificate : Template→Certificate→Option (List UInt8)→Signer→ℕ→Try (List UInt8)
  /-- The path-length constraint that a certificate carries. -/
  pathLength : List UInt8→Option ℕ
  quote : String→String

/-- How parsing reports a constraint: an absent one as minus one, and a flag on zero. -/
def reportedPathLen : Option ℕ→ℤ×Bool
  | none => (-1,false)
  | some p => (p,decide (p=0))

/-- The constraint that a template asks for: none for minus one and for an unflagged zero. -/
def requestedPathLen (maxPathLen : ℤ) (maxPathLenZero : Bool) : Option ℕ :=
  if maxPathLen=-1 ∨ (maxPathLen=0 ∧ maxPathLenZero=false) then none else some maxPathLen.toNat

/-- What the library documents. -/
structure X509Library.Documented (lib : X509Library) : Prop where
  /-- A certificate written as text is read back. -/
  pem_roundTrip : ∀ der,lib.pemDecode (lib.pemEncode der)=some der
  /-- The flag of an authority stands in the basic constraints. -/
  isCA_basicConstraints : ∀ der cert,lib.parseCertificate der=.ok cert → cert.isCA=true →
    cert.basicConstraintsValid=true
  /-- Parsing reports the constraint that the basic constraints carry. -/
  parse_pathLength : ∀ der cert,lib.parseCertificate der=.ok cert → cert.basicConstraintsValid=true →
    (cert.maxPathLen,cert.maxPathLenZero)=reportedPathLen (lib.pathLength der)
  /-- A certificate carries the constraint that its template asks for. -/
  create_pathLength : ∀ template parent key signer entropy der,
    lib.createCertificate template parent key signer entropy=.ok der → -1≤template.maxPathLen →
    lib.pathLength der=requestedPathLen template.maxPathLen template.maxPathLenZero

/-- What the environment decides during one call. -/
structure Surroundings where
  getFault : Err := none
  /-- The key driver's answer for a reference. -/
  load : String→Try Signer
  /-- The key driver's new key for an algorithm, with its reference. -/
  generate : String→Try (Signer×String)
  now : Time
  serial : Try ℕ
  entropy : ℕ := 0
  uuid : String
  insertedAt : Time := now
  listFault : Err := none
  /-- Outage of the insert, or a missing issuer. -/
  insertFault : Err := none
  updateFault : Err := none

def refuse (condition : Prop) [Decidable condition] (err : GoError) : Try Unit :=
  if condition then .error err else .ok ()

/-- A step that answers nothing or fails. -/
def fails (fault : Err) : Try Unit :=
  match fault with
  | some err => .error err
  | none => .ok ()

/-- A failure gets a text in front. -/
def wrapping {α : Type} (front : String) (x : Try α) : Try α := x.mapError (·.wrapped front)

/-- Read a row by its key. -/
def get (env : Surroundings) (id : String) (rows : Table) : Try IntermediateCA := do
  fails env.getFault
  match lookup IntermediateCA.id id rows with
  | none => .error Sentinel.notFound.error
  | some ca => .ok ca

/-- The direct children, oldest first. -/
def listChildren (env : Surroundings) (parentCAID : String) (rows : Table) : Try Table := do
  fails env.listFault
  return (rows.filter (·.parentCAID=some parentCAID)).insertionSort fun a b => a.createdAt≤b.createdAt

def violation (rows : Table) (ca : IntermediateCA) : Err :=
  if ca.notAfter≤ca.notBefore ∨ ca.parentCAID=some ca.id then
    some ⟨"insert intermediate CA: constraint violation",none⟩
  -- the primary key, the name within one issuer, and the index on active roots
  else if rows.any fun row => row.id=ca.id || (row.owningIssuerID=ca.owningIssuerID && row.name=ca.name) ||
      (ca.parentCAID=none && ca.state=.active &&
        row.parentCAID=none && row.state=.active && row.owningIssuerID=ca.owningIssuerID) then
    some Sentinel.alreadyExists.error
  else if ca.parentCAID.all fun id => rows.any fun row => row.id=id then none
  else some ⟨"insert intermediate CA: constraint violation",none⟩

/-- Insert a row; an empty key is replaced by a generated one. -/
def create (env : Surroundings) (ca : IntermediateCA) (rows : Table) : Try (String×Table) := do
  let row := {ca with id := if ca.id="" then "ica-"++env.uuid else ca.id,createdAt := env.insertedAt}
  fails env.insertFault
  fails (violation rows row)
  return (row.id,rows++[row])

def withState (state : IntermediateCAState) (ca : IntermediateCA) : IntermediateCA := {ca with state := state}

/-- Move a row to a lifecycle state. -/
def updateState (env : Surroundings) (id : String) (state : IntermediateCAState) (rows : Table) : Try Table := do
  fails env.updateFault
  match lookup IntermediateCA.id id rows with
  | none => .error Sentinel.notFound.error
  | some _ => .ok (modify IntermediateCA.id id (withState state) rows)

def parseCertPEM (lib : X509Library) (certPEM : String) : Try Certificate :=
  match lib.pemDecode certPEM with
  | none => .error (Sentinel.invalidCertPEM.because "no PEM block in cert")
  | some block => lib.parseCertificate block

/-- Two keys that serialize to the same bytes. -/
def publicKeysEqual : Option (List UInt8)→Option (List UInt8)→Bool
  | some a,some b => a=b
  | _,_ => false

def pathLenFromCert (cert : Certificate) : Option ℤ :=
  if cert.basicConstraintsValid=false then none
  else if cert.maxPathLen=0 ∧ cert.maxPathLenZero=false then none
  else some cert.maxPathLen

def nameConstraintsFromCert (cert : Certificate) : List NameConstraint :=
  if cert.permittedDNSDomains=[] ∧ cert.excludedDNSDomains=[] then []
  else [⟨cert.permittedDNSDomains,cert.excludedDNSDomains⟩]

def flattenPermitted (ncs : List NameConstraint) : List String := ncs.flatMap (·.permitted)

def flattenExcluded (ncs : List NameConstraint) : List String := ncs.flatMap (·.excluded)

def hasSuffix (text ending : String) : Bool := ending.toList.isSuffixOf text.toList

def isPermittedUnderParent (candidate : String) (parentSet : List String) : Bool :=
  parentSet.any fun p => candidate=p || hasSuffix candidate ("."++p)

def isExcludedByChild (parentExcluded : String) (childSet : List String) : Bool :=
  childSet.any fun c => parentExcluded=c || hasSuffix parentExcluded ("."++c)

/-- The check of a child's name constraints against its parent's: permitted
subtrees stay within the parent's if it has any, excluded ones stay excluded. -/
def validateNameConstraintsSubset (quote : String→String) (parent child : List NameConstraint) : Try Unit :=
  let widening :=
    if flattenPermitted parent=[] then none
    else (flattenPermitted child).find? fun p => !isPermittedUnderParent p (flattenPermitted parent)
  match widening with
  | some p =>
    .error (Sentinel.nameConstraintExceeded.because ("child permitted "++quote p++" not under parent permitted set"))
  | none =>
    match (flattenExcluded parent).find? fun pe => !isExcludedByChild pe (flattenExcluded child) with
    | some pe =>
      .error (Sentinel.nameConstraintExceeded.because ("parent excluded "++quote pe++" not preserved in child"))
    | none => .ok ()

/-- The path length of a child: below a constrained parent's, and by default one less, but not below zero. -/
def childPathLen (parent requested : Option ℤ) : Try (Option ℤ) :=
  match parent with
  | none => .ok requested
  | some p =>
    match requested with
    | some v => if v≥p then .error Sentinel.pathLenExceeded.error else .ok (some v)
    | none => .ok (some (if p-1<0 then 0 else p-1))

/-- What a root is registered with besides its certificate. -/
structure CreateRootOptions where
  ocspResponderURL : String := ""
  metadata : List (String×String) := []

/-- What a new child is to be. -/
structure CreateChildOptions where
  subject : String := ""
  algorithm : String := ""
  /-- Validity; the default stands for any that is not positive. -/
  ttl : Time := 0
  pathLenConstraint : Option ℤ := none
  nameConstraints : List NameConstraint := []
  ocspResponderURL : String := ""
  metadata : List (String×String) := []

/-- Read an authority for a service call. -/
def fetch (front : String) (env : Surroundings) (id : String) (rows : Table) : Try IntermediateCA :=
  match get env id rows with
  | .error err => if err.is .notFound then .error Sentinel.intermediateCANotFound.error else .error (err.wrapped front)
  | .ok ca => .ok ca

def createRoot (lib : X509Library) (env : Surroundings) (issuerID name rootCertPEM keyDriverID : String)
    (options : Option CreateRootOptions) (rows : Table) : Try (String×Table) := do
  let opts := options.getD {}
  refuse (keyDriverID="") ⟨"CreateRoot: keyDriverID required",none⟩
  let cert ← wrapping "CreateRoot: " (parseCertPEM lib rootCertPEM)
  refuse (cert.isCA=false)
    ((Sentinel.caNotSelfSigned.because "cert lacks BasicConstraints CA:TRUE").wrapped "CreateRoot: ")
  fails ((lib.checkSignatureFrom cert cert).map fun err =>
    (Sentinel.caNotSelfSigned.because err.text).wrapped "CreateRoot: ")
  let rootSigner ← wrapping "CreateRoot: load key: " (env.load keyDriverID)
  refuse (publicKeysEqual rootSigner.publicKey cert.publicKey=false) Sentinel.caKeyMismatch.error
  wrapping "CreateRoot: " (create env
    {id := "",owningIssuerID := issuerID,parentCAID := none,name := name,subject := cert.subject,
      state := .active,certPEM := rootCertPEM,keyDriverID := keyDriverID,notBefore := cert.notBefore,
      notAfter := cert.notAfter,pathLenConstraint := pathLenFromCert cert,
      nameConstraints := nameConstraintsFromCert cert,ocspResponderURL := opts.ocspResponderURL,
      metadata := opts.metadata,createdAt := zeroTime} rows)

def defaultChildTTL : Time := 5*365*24*3600*second

/-- The end of a child's validity, at most its parent's. -/
def childNotAfter (now ttl parentNotAfter : Time) : Time :=
  let notAfter := now+(if ttl≤0 then defaultChildTTL else ttl)
  if parentNotAfter<notAfter then parentNotAfter else notAfter

def childTemplate (opts : CreateChildOptions) (serial : ℕ) (notBefore notAfter : Time) (pathLen : Option ℤ) : Template :=
  {serialNumber := serial,subject := opts.subject,notBefore := notBefore,notAfter := notAfter,
    keyUsage := 2^5+2^6,basicConstraintsValid := true,isCA := true,maxPathLen := pathLen.getD 0,
    maxPathLenZero := decide (pathLen=some 0),permittedDNSDomains := flattenPermitted opts.nameConstraints,
    excludedDNSDomains := flattenExcluded opts.nameConstraints,
    permittedDNSDomainsCritical := decide (opts.nameConstraints≠[]),
    ocspServer := if opts.ocspResponderURL="" then [] else [opts.ocspResponderURL]}

def createChild (lib : X509Library) (env : Surroundings) (parentCAID name : String)
    (options : Option CreateChildOptions) (rows : Table) : Try (String×Table) := do
  let opts ← match options with
    | none => .error ⟨"CreateChild: opts required",none⟩
    | some opts => .ok opts
  let parent ← fetch "CreateChild: get parent: " env parentCAID rows
  refuse (parent.state≠.active) Sentinel.parentCANotActive.error
  let parentCert ← wrapping "CreateChild: parent cert: " (parseCertPEM lib parent.certPEM)
  let pathLen ← childPathLen parent.pathLenConstraint opts.pathLenConstraint
  validateNameConstraintsSubset lib.quote parent.nameConstraints opts.nameConstraints
  let (childSigner,keyDriverID) ← wrapping "CreateChild: generate key: " (env.generate opts.algorithm)
  let parentSigner ← wrapping "CreateChild: load parent signer: " (env.load parent.keyDriverID)
  let notAfter := childNotAfter env.now opts.ttl parentCert.notAfter
  let serial ← wrapping "CreateChild: serial: " env.serial
  let childDER ← wrapping "CreateChild: sign cert: " (lib.createCertificate
    (childTemplate opts serial env.now notAfter pathLen) parentCert childSigner.publicKey parentSigner env.entropy)
  wrapping "CreateChild: create row: " (create env
    {id := "",owningIssuerID := parent.owningIssuerID,parentCAID := some parent.id,name := name,
      subject := opts.subject,state := .active,certPEM := lib.pemEncode childDER,keyDriverID := keyDriverID,
      notBefore := env.now,notAfter := notAfter,pathLenConstraint := pathLen,
      nameConstraints := opts.nameConstraints,ocspResponderURL := opts.ocspResponderURL,
      metadata := opts.metadata,createdAt := zeroTime} rows)

/-- The state that a retirement moves an authority to. -/
def retireTo (env : Surroundings) (caID : String) (confirm : Bool) (rows : Table) :
    IntermediateCAState→Try IntermediateCAState
  | .active => .ok .retiring
  | .retiring => do
    refuse (confirm=false) ⟨"Retire: already retiring; pass confirm=true to terminalize",none⟩
    let children ← wrapping "Retire: list children: " (listChildren env caID rows)
    refuse (∃ child∈children,child.state=.active) Sentinel.caStillHasActiveChildren.error
    return .retired
  | .retired => .error ⟨"Retire: already retired",none⟩

/-- Retire an authority: the first call drains it, the second one, confirmed, ends it. -/
def retire (env : Surroundings) (caID : String) (confirm : Bool) (rows : Table) : Try Table := do
  let ca ← fetch "Retire: get: " env caID rows
  let newState ← retireTo env caID confirm rows ca.state
  wrapping "Retire: update state: " (updateState env caID newState rows)

/-- The calls of the service that change the hierarchy. -/
inductive Call where
  | createRoot (issuerID name rootCertPEM keyDriverID : String) (options : Option CreateRootOptions)
  | createChild (parentCAID name : String) (options : Option CreateChildOptions)
  | retire (caID : String) (confirm : Bool)

def after (lib : X509Library) (rows : Table) (step : Call×Surroundings) : Table :=
  match step.1 with
  | .createRoot issuerID name rootCertPEM keyDriverID options =>
    match createRoot lib step.2 issuerID name rootCertPEM keyDriverID options rows with
    | .ok (_,rows') => rows'
    | .error _ => rows
  | .createChild parentCAID name options =>
    match createChild lib step.2 parentCAID name options rows with
    | .ok (_,rows') => rows'
    | .error _ => rows
  | .retire caID confirm =>
    match retire step.2 caID confirm rows with
    | .ok rows' => rows'
    | .error _ => rows

def runCalls (lib : X509Library) (rows : Table) (history : List (Call×Surroundings)) : Table :=
  history.foldl (after lib) rows

def Along (lib : X509Library) (ok : Table→Call→Prop) : Table→List (Call×Surroundings)→Prop
  | _,[] => True
  | rows,step::history => ok rows step.1 ∧ Along lib ok (after lib rows step) history

instance Along.decidable (lib : X509Library) (ok : Table→Call→Prop) [∀ rows call,Decidable (ok rows call)] :
    (rows : Table)→(history : List (Call×Surroundings))→Decidable (Along lib ok rows history)
  | _,[] => isTrue trivial
  | rows,step::history => @instDecidableAnd _ _ inferInstance (Along.decidable lib ok (after lib rows step) history)

variable {front : String}

section Inversion

variable {α : Type} {x : Try α} {a : α} {u : Unit}

theorem refuse_ok {condition : Prop} [Decidable condition] {err : GoError} :
    refuse condition err=.ok u ↔ ¬condition := by
  unfold refuse
  split <;> simp_all

theorem fails_ok {fault : Err} : fails fault=.ok u ↔ fault=none := by
  cases fault with
  | none | some => simp [fails]

theorem wrapping_ok : wrapping front x=.ok a ↔ x=.ok a := by
  cases x with
  | error | ok => simp [wrapping,Except.mapError]

end Inversion

variable {rootCertPEM : String} {ok : Table→Call→Prop} {history : List (Call×Surroundings)}

section Outcomes

variable {lib : X509Library} {env : Surroundings} {rows rows' : Table} {id : String} {ca : IntermediateCA}

theorem fetch_ok (h : fetch front env id rows=.ok ca) : lookup IntermediateCA.id id rows=some ca := by
  unfold fetch at h
  split at h
  · split at h <;> cases h
  rename_i hget
  cases h
  obtain ⟨-,-,hrow⟩ := bind_ok.mp hget
  split at hrow
  · cases hrow
  · cases hrow
    assumption

theorem violation_none (h : violation rows ca=none) :
    ca.id∉rows.map IntermediateCA.id ∧ ∀ k,ca.parentCAID=some k → k∈rows.map IntermediateCA.id := by
  unfold violation at h
  split_ifs at h with hcheck hunique hparent
  constructor
  · intro hmem
    obtain ⟨row,hrow,hid⟩ := mem_map.mp hmem
    exact hunique (any_eq_true.mpr ⟨row,hrow,by simp [hid]⟩)
  · intro k hk
    rw [hk,Option.all_some,any_eq_true] at hparent
    obtain ⟨row,hrow,hid⟩ := hparent
    exact mem_map.mpr ⟨row,hrow,of_decide_eq_true hid⟩

theorem create_ok (h : create env ca rows=.ok (id,rows')) :
    rows'=rows++[{ca with id := id,createdAt := env.insertedAt}] ∧ id∉rows.map IntermediateCA.id ∧
      ∀ k,ca.parentCAID=some k → k∈rows.map IntermediateCA.id := by
  simp only [create,bind_ok,fails_ok,exists_const] at h
  obtain ⟨-,hfree,rfl,rfl⟩ := h
  exact ⟨rfl,violation_none hfree⟩

/-- The row of a registered root. -/
structure RootRow (lib : X509Library) (rootCertPEM : String) (row : IntermediateCA) : Prop where
  parentless : row.parentCAID=none
  certificate : row.certPEM=rootCertPEM
  /-- The constraints are read off the certificate, which is one of an authority. -/
  recorded : ∃ der cert,lib.pemDecode rootCertPEM=some der ∧ lib.parseCertificate der=.ok cert ∧
    cert.isCA=true ∧ row.pathLenConstraint=pathLenFromCert cert ∧
    row.nameConstraints=nameConstraintsFromCert cert

/-- What a signed child records, and what was checked against its parent. -/
structure ChildRow (lib : X509Library) (opts : CreateChildOptions) (parent row : IntermediateCA) : Prop where
  issuing : parent.state=.active
  below : row.parentCAID=some parent.id
  /-- The path length was checked against the parent's. -/
  pathLen : childPathLen parent.pathLenConstraint opts.pathLenConstraint=.ok row.pathLenConstraint
  /-- The name constraints were checked against the parent's. -/
  names : validateNameConstraintsSubset lib.quote parent.nameConstraints opts.nameConstraints=.ok ()
  recorded : row.nameConstraints=opts.nameConstraints
  /-- The certificate was signed for the recorded path length. -/
  signed : ∃ serial notBefore notAfter parentCert key signer entropy der,
    lib.createCertificate (childTemplate opts serial notBefore notAfter row.pathLenConstraint)
      parentCert key signer entropy=.ok der ∧ row.certPEM=lib.pemEncode der

variable {name : String}

theorem createRoot_ok {issuerID keyDriverID : String} {options : Option CreateRootOptions}
    (h : createRoot lib env issuerID name rootCertPEM keyDriverID options rows=.ok (id,rows')) :
    ∃ row,RootRow lib rootCertPEM row ∧ rows'=rows++[row] ∧ row.id∉rows.map IntermediateCA.id := by
  simp only [createRoot,bind_ok,refuse_ok,fails_ok,wrapping_ok,exists_const,Bool.not_eq_false] at h
  obtain ⟨-,cert,hparse,hca,-,-,-,-,hcreate⟩ := h
  obtain ⟨happend,hfresh,-⟩ := create_ok hcreate
  unfold parseCertPEM at hparse
  split at hparse
  · cases hparse
  rename_i der hder
  exact ⟨_,⟨rfl,rfl,der,cert,hder,hparse,hca,rfl,rfl⟩,happend,hfresh⟩

theorem createChild_ok {parentCAID : String} {options : Option CreateChildOptions}
    (h : createChild lib env parentCAID name options rows=.ok (id,rows')) :
    ∃ opts parent row,options=some opts ∧ lookup IntermediateCA.id parentCAID rows=some parent ∧
      ChildRow lib opts parent row ∧ rows'=rows++[row] ∧ row.id∉rows.map IntermediateCA.id := by
  cases options with
  | none => cases h
  | some opts =>
    simp only [createChild,bind_ok,refuse_ok,wrapping_ok,exists_const,Except.ok.injEq,exists_eq_left',not_not] at h
    obtain ⟨parent,hfetch,hactive,parentCert,-,pathLen,hpathLen,⟨⟩,hnames,⟨childSigner,keyDriverID⟩,-,
      parentSigner,-,serial,-,der,hder,hcreate⟩ := h
    obtain ⟨happend,hfresh,-⟩ := create_ok hcreate
    exact ⟨opts,parent,_,rfl,fetch_ok hfetch,
      ⟨hactive,rfl,hpathLen,hnames,rfl,⟨serial,env.now,_,parentCert,_,parentSigner,env.entropy,der,hder,rfl⟩⟩,
      happend,hfresh⟩

/-- The moves of a retirement: to draining, or from there to the end once no child is active. -/
def Retires (rows : Table) (ca : IntermediateCA) (newState : IntermediateCAState) : Prop :=
  (ca.state=.active ∧ newState=.retiring) ∨
    (ca.state=.retiring ∧ newState=.retired ∧ ∀ child∈rows,child.parentCAID=some ca.id → child.state≠.active)

/-- A retirement moves the state of one authority on record. -/
theorem retire_ok {caID : String} {confirm : Bool} (h : retire env caID confirm rows=.ok rows') :
    ∃ ca newState,lookup IntermediateCA.id caID rows=some ca ∧ Retires rows ca newState ∧
      rows'=modify IntermediateCA.id caID (withState newState) rows := by
  simp only [retire,bind_ok,wrapping_ok] at h
  obtain ⟨ca,hfetch,newState,hnew,hupdate⟩ := h
  have hfound := fetch_ok hfetch
  have hrows : rows'=modify IntermediateCA.id caID (withState newState) rows := by
    simp only [updateState,bind_ok,hfound,Except.ok.injEq] at hupdate
    obtain ⟨-,-,hrows⟩ := hupdate
    exact hrows.symm
  refine ⟨ca,newState,hfound,?_,hrows⟩
  cases hstate : ca.state with
  | active =>
    rw [hstate,retireTo,Except.ok.injEq] at hnew
    exact .inl ⟨hstate,hnew.symm⟩
  | retiring =>
    simp only [hstate,retireTo,bind_ok,refuse_ok,wrapping_ok,exists_const,listChildren,fails_ok,
      pure,Except.pure,Except.ok.injEq] at hnew
    obtain ⟨-,children,⟨-,hchildren⟩,hnone,hnew⟩ := hnew
    refine .inr ⟨hstate,hnew.symm,fun child hchild hparent hactive => hnone ⟨child,?_,hactive⟩⟩
    have hid : ca.id=caID := (lookup_some hfound).2
    rw [← hchildren,mem_insertionSort,mem_filter]
    exact ⟨hchild,decide_eq_true (hid ▸ hparent)⟩
  | retired =>
    rw [hstate] at hnew
    cases hnew

/-- What a call does to the table. -/
inductive Change (lib : X509Library) (rows : Table) : Call→Table→Prop where
  | failed (call : Call) : Change lib rows call rows
  | root {issuerID name rootCertPEM keyDriverID : String} {options : Option CreateRootOptions}
      {row : IntermediateCA} : RootRow lib rootCertPEM row → row.id∉rows.map IntermediateCA.id →
      Change lib rows (.createRoot issuerID name rootCertPEM keyDriverID options) (rows++[row])
  | child {parentCAID name : String} {opts : CreateChildOptions} {parent row : IntermediateCA} :
      lookup IntermediateCA.id parentCAID rows=some parent → ChildRow lib opts parent row →
      row.id∉rows.map IntermediateCA.id →
      Change lib rows (.createChild parentCAID name (some opts)) (rows++[row])
  /-- An authority went on to its next state. -/
  | moved {caID : String} {confirm : Bool} {ca : IntermediateCA} {newState : IntermediateCAState} :
      lookup IntermediateCA.id caID rows=some ca → Retires rows ca newState →
      Change lib rows (.retire caID confirm) (modify IntermediateCA.id caID (withState newState) rows)

/-- A call does one of these things. -/
theorem change_after (lib : X509Library) (rows : Table) (step : Call×Surroundings) :
    Change lib rows step.1 (after lib rows step) := by
  obtain ⟨call,env⟩ := step
  cases call with
  | createRoot issuerID name rootCertPEM keyDriverID options =>
    cases hcall : createRoot lib env issuerID name rootCertPEM keyDriverID options rows with
    | error =>
      simp only [after,hcall]
      exact .failed _
    | ok =>
      obtain ⟨row,hrow,happend,hfresh⟩ := createRoot_ok hcall
      simp only [after,hcall,happend]
      exact .root hrow hfresh
  | createChild parentCAID name options =>
    cases hcall : createChild lib env parentCAID name options rows with
    | error =>
      simp only [after,hcall]
      exact .failed _
    | ok =>
      obtain ⟨opts,parent,row,rfl,hparent,hrow,happend,hfresh⟩ := createChild_ok hcall
      simp only [after,hcall,happend]
      exact .child hparent hrow hfresh
  | retire caID confirm =>
    cases hcall : retire env caID confirm rows with
    | error =>
      simp only [after,hcall]
      exact .failed _
    | ok =>
      obtain ⟨ca,newState,hfound,hmove,rfl⟩ := retire_ok hcall
      simp only [after,hcall]
      exact .moved hfound hmove

theorem along_any (lib : X509Library) (rows : Table) (history : List (Call×Surroundings)) :
    Along lib (fun _ _ => True) rows history := by
  induction history generalizing rows with
  | nil => trivial
  | cons step history ih => exact ⟨trivial,ih _⟩

theorem runCalls_keeps {I : Table→Prop}
    (hstep : ∀ rows call rows',I rows → ok rows call → Change lib rows call rows' → I rows')
    (hrows : I rows) (halong : Along lib ok rows history) : I (runCalls lib rows history) := by
  induction history generalizing rows with
  | nil => exact hrows
  | cons step history ih =>
    obtain ⟨hok,hrest⟩ := halong
    exact ih (hstep rows step.1 _ hrows hok (change_after lib rows step)) hrest

end Outcomes

section Links

variable {lib : X509Library} {rows rows' : Table} {call : Call}

abbrev Hierarchy (rows : Table) : Prop := Forest IntermediateCA.id IntermediateCA.parentCAID rows

/-- One authority directly above another. -/
abbrev Parent (rows : Table) (above below : IntermediateCA) : Prop :=
  Linked IntermediateCA.id IntermediateCA.parentCAID rows above below

/-- One authority above another at a distance. -/
abbrev Above (rows : Table) (d : ℕ) (above below : IntermediateCA) : Prop :=
  Below IntermediateCA.id IntermediateCA.parentCAID rows d above below

variable {row : IntermediateCA}

theorem RootRow.parents (h : RootRow lib rootCertPEM row)
    (k : String) (hk : row.parentCAID=some k) : k∈rows.map IntermediateCA.id := by
  rw [h.parentless] at hk
  cases hk

variable {opts : CreateChildOptions} {parent : IntermediateCA}

theorem ChildRow.parents (h : ChildRow lib opts parent row)
    (hparent : parent∈rows) (k : String) (hk : row.parentCAID=some k) : k∈rows.map IntermediateCA.id := by
  rw [h.below,Option.some.injEq] at hk
  exact hk ▸ mem_map_of_mem hparent

theorem hierarchy_change (h : Hierarchy rows) (hchange : Change lib rows call rows') : Hierarchy rows' := by
  cases hchange with
  | failed => exact h
  | root hrow hfresh => exact h.append hfresh hrow.parents
  | child hparent hrow hfresh => exact h.append hfresh (hrow.parents (lookup_some hparent).1)
  | moved => exact h.modify (fun _ => rfl) fun _ => rfl

theorem hierarchy_runCalls (lib : X509Library) (history : List (Call×Surroundings)) :
    Hierarchy (runCalls lib [] history) :=
  runCalls_keeps (fun _ _ _ h _ hchange => hierarchy_change h hchange) (forest_nil _ _) (along_any lib [] history)

/-- Authorities after a call: those before it, up to their state, and the new one. -/
theorem mem_change (hchange : Change lib rows call rows') (hrow : row∈rows') :
    (∃ old∈rows,row=withState row.state old) ∨ (∃ issuerID name rootCertPEM keyDriverID options,
      call=.createRoot issuerID name rootCertPEM keyDriverID options ∧ RootRow lib rootCertPEM row) ∨
    (∃ parentCAID name opts parent,call=.createChild parentCAID name (some opts) ∧
      lookup IntermediateCA.id parentCAID rows=some parent ∧ ChildRow lib opts parent row) := by
  cases hchange with
  | failed => exact .inl ⟨row,hrow,rfl⟩
  | root hroot =>
    rcases mem_append_row.mp hrow with hold|rfl
    · exact .inl ⟨row,hold,rfl⟩
    · exact .inr (.inl ⟨_,_,_,_,_,rfl,hroot⟩)
  | child hparent hchild =>
    rcases mem_append_row.mp hrow with hold|rfl
    · exact .inl ⟨row,hold,rfl⟩
    · exact .inr (.inr ⟨_,_,_,_,rfl,hparent,hchild⟩)
  | moved =>
    rcases mem_modify.mp hrow with ⟨hold,-⟩|⟨old,hold,-,rfl⟩
    · exact .inl ⟨row,hold,rfl⟩
    · exact .inl ⟨old,hold,rfl⟩

variable {above below : IntermediateCA}

theorem parent_root (h : Hierarchy rows)
    (hroot : RootRow lib rootCertPEM row) (hfresh : row.id∉rows.map IntermediateCA.id)
    (hlink : Parent (rows++[row]) above below) : Parent rows above below := by
  rcases h.linked_append hfresh hroot.parents hlink with hold|⟨-,-,hnames⟩
  · exact hold
  rw [hroot.parentless] at hnames
  cases hnames

theorem parent_child (h : Hierarchy rows)
    (hparent : parent∈rows) (hchild : ChildRow lib opts parent row) (hfresh : row.id∉rows.map IntermediateCA.id)
    (hlink : Parent (rows++[row]) above below) : Parent rows above below ∨ (above=parent ∧ below=row) := by
  rcases h.linked_append hfresh (hchild.parents hparent) hlink with hold|⟨hrow,habove,hnames⟩
  · exact .inl hold
  rw [hchild.below,Option.some.injEq] at hnames
  exact .inr ⟨inj_on_of_nodup_map h.keys habove hparent hnames.symm,hrow⟩

theorem parent_change (h : Hierarchy rows) (hchange : Change lib rows call rows') (hlink : Parent rows' above below) :
    (∃ above' below',Parent rows above' below' ∧ above=withState above.state above' ∧
      below=withState below.state below') ∨
    (∃ parentCAID name opts,call=.createChild parentCAID name (some opts) ∧
      lookup IntermediateCA.id parentCAID rows=some above ∧ ChildRow lib opts above below) := by
  cases hchange with
  | failed => exact .inl ⟨above,below,hlink,rfl,rfl⟩
  | root hroot hfresh => exact .inl ⟨above,below,parent_root h hroot hfresh hlink,rfl,rfl⟩
  | child hparent hchild hfresh =>
    rcases parent_child h (lookup_some hparent).1 hchild hfresh hlink with hold|⟨rfl,rfl⟩
    · exact .inl ⟨above,below,hold,rfl,rfl⟩
    · exact .inr ⟨_,_,_,rfl,hparent,hchild⟩
  | moved =>
    obtain ⟨above',below',hold,habove,hbelow⟩ := linked_modify (f := withState _) (fun _ => rfl) (fun _ => rfl) hlink
    have hstate : ∀ {row row' : IntermediateCA} {caID : String} {newState : IntermediateCAState},
        row=(if row'.id=caID then withState newState row' else row') → row=withState row.state row' := by
      intro row row' caID newState hrow
      split at hrow
      · rw [hrow]
        rfl
      · rw [hrow]
        rfl
    exact .inl ⟨above',below',hold,hstate habove,hstate hbelow⟩

/-- Constraint rule: what new authorities satisfy, and what new children satisfy with their
parents, holds after every sequence of allowed calls, as long as it does not speak of states. -/
theorem runCalls_links {P : IntermediateCA→Prop} {R : IntermediateCA→IntermediateCA→Prop}
    (hP : ∀ state row,P row → P (withState state row))
    (hR : ∀ state state' above below,R above below → R (withState state above) (withState state' below))
    (hroot : ∀ rows issuerID name rootCertPEM keyDriverID options row,
      ok rows (.createRoot issuerID name rootCertPEM keyDriverID options) → RootRow lib rootCertPEM row → P row)
    (hchild : ∀ rows parentCAID name opts parent row,ok rows (.createChild parentCAID name (some opts)) →
      lookup IntermediateCA.id parentCAID rows=some parent → P parent → ChildRow lib opts parent row →
      P row ∧ R parent row)
    (halong : Along lib ok [] history) : (∀ row∈runCalls lib [] history,P row) ∧
      ∀ above below,Parent (runCalls lib [] history) above below → R above below := by
  have hinv : Hierarchy (runCalls lib [] history) ∧ (∀ row∈runCalls lib [] history,P row) ∧
      ∀ above below,Parent (runCalls lib [] history) above below → R above below := by
    refine runCalls_keeps (I := fun rows => Hierarchy rows ∧ (∀ row∈rows,P row) ∧
      ∀ above below,Parent rows above below → R above below) ?_
      ⟨forest_nil _ _,forall_mem_nil _,fun _ _ hlink => absurd hlink.1 not_mem_nil⟩ halong
    rintro rows call rows' ⟨hforest,hrows,hlinks⟩ hok hchange
    refine ⟨hierarchy_change hforest hchange,fun row hrow => ?_,fun above below hlink => ?_⟩
    · rcases mem_change hchange hrow with ⟨old,hold,heq⟩|⟨_,_,_,_,_,rfl,hnew⟩|⟨_,_,_,parent,rfl,hparent,hnew⟩
      · rw [heq]
        exact hP _ _ (hrows old hold)
      · exact hroot _ _ _ _ _ _ _ hok hnew
      · exact (hchild _ _ _ _ _ _ hok hparent (hrows _ (lookup_some hparent).1) hnew).1
    · rcases parent_change hforest hchange hlink with
        ⟨above',below',hold,habove,hbelow⟩|⟨_,_,_,rfl,hparent,hnew⟩
      · rw [habove,hbelow]
        exact hR _ _ _ _ (hlinks above' below' hold)
      · exact (hchild _ _ _ _ _ _ hok hparent (hrows _ (lookup_some hparent).1) hnew).2
  exact hinv.2

end Links

section Sample

/-- A small library: a certificate is one byte longer than the path length it carries, and empty
when it carries none. -/
def sampleLibrary : X509Library where
  pemDecode text := some (text.toList.map fun c => UInt8.ofNat c.toNat)
  pemEncode der := String.ofList (der.map fun b => Char.ofNat b.toNat)
  pathLength der := match der with
    | [] => none
    | _::rest => some rest.length
  parseCertificate der :=
    let reported := reportedPathLen (match der with
      | [] => none
      | _::rest => some rest.length)
    .ok {maxPathLen := reported.1,maxPathLenZero := reported.2,notBefore := 0,notAfter := 100,publicKey := some []}
  checkSignatureFrom _ _ := none
  createCertificate template _ _ _ _ :=
    if template.maxPathLen < -1 then .error ⟨"x509: invalid MaxPathLen",none⟩
    else .ok (match requestedPathLen template.maxPathLen template.maxPathLenZero with
      | none => []
      | some p => List.replicate (p+1) 120)
  quote := id

/-- Surroundings in which nothing fails, with a given fresh identifier. -/
def sampleEnv (uuid : String) : Surroundings where
  load _ := .ok ⟨some []⟩
  generate _ := .ok (⟨some []⟩,"key")
  now := 1
  serial := .ok 1
  uuid := uuid

def sampleRoot (certPEM : String) : Call×Surroundings := (.createRoot "iss" "root" certPEM "key" none,sampleEnv "r")

def sampleChild (parentCAID name : String) (opts : CreateChildOptions) : Call×Surroundings :=
  (.createChild parentCAID name (some opts),sampleEnv name)

end Sample

end Certctl.CaHierarchy
