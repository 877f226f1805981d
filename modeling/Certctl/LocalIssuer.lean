import Certctl.AcmeOrders

/-!
# The local issuer

The connector that signs with a key of its own. It reads the certificate
request a second time, collects the names of the request and the names it
was asked for in one set, and sorts every name of the set by its shape: an
address, an e-mail address or a DNS name. The subject is the subject of the
request. Parsing, signing and the address syntax belong to libraries and
are parameters.
-/

namespace Certctl.LocalIssuer

open DomainRecords AcmeOrders

variable {Ip : Type}

/-- A request as it is parsed. -/
structure ParsedRequest (Ip : Type) extends CertificateRequest where
  ipAddresses : List Ip := []
  emailAddresses : List String := []
  uris : List String := []

/-- The extended usages that have names. -/
inductive ExtKeyUsage where
  | serverAuth
  | clientAuth
  | codeSigning
  | emailProtection
  | timeStamping
  deriving DecidableEq, Repr

/-- The usage bits that are set. -/
structure KeyUsage where
  digitalSignature : Bool := true
  keyEncipherment : Bool := false
  contentCommitment : Bool := false
  deriving DecidableEq, Repr

/-- The parts of an issued certificate that a relying party reads. -/
structure Certificate (Ip : Type) where
  commonName : String
  dnsNames : List String
  ipAddresses : List Ip
  emailAddresses : List String
  uris : List String
  notBefore : Time
  notAfter : Time
  extKeyUsage : List ExtKeyUsage
  keyUsage : KeyUsage
  /-- Where revocation lists are published. -/
  crlDistributionPoints : List String
  mustStaple : Bool

/-- Configuration of the connector and the library functions it calls. -/
structure Connector (Ip : Type) where
  validityDays : ℤ
  /-- Revocation list addresses put into every certificate. -/
  crlDistributionPointURLs : List String := []
  /-- The address that a text denotes, in its short form. -/
  parseAddress : String→Option Ip
  addressText : Ip→String
  loopback : Ip
  /-- Decoding of a request, with the check of its own signature. -/
  parseRequest : String→Try (ParsedRequest Ip)
  /-- The check of a name for misleading characters. -/
  validateUnicodeSafe : String→Err
  quote : String→String

/-- What the connector meets when it is called: the time, and what fails. -/
structure Surroundings where
  now : Time
  /-- The key of the authority cannot be loaded. -/
  caError : Err := none
  serialError : Err := none
  signError : Err := none
  chainError : Err := none

def ekuNameToX509 : List (String×ExtKeyUsage) :=
  [("serverAuth",.serverAuth),("clientAuth",.clientAuth),("codeSigning",.codeSigning),
    ("emailProtection",.emailProtection),("timeStamping",.timeStamping)]

/-- Usages of a certificate for which none is asked. -/
def defaultUsages : List ExtKeyUsage×KeyUsage := ([.serverAuth,.clientAuth],{keyEncipherment := true})

/-- The usages asked for, without unknown names, and the key usage they need. -/
def resolveEKUsAndKeyUsage (ekus : List String) : List ExtKeyUsage×KeyUsage :=
  let resolved := ekus.filterMap fun name => List.lookup name ekuNameToX509
  if ekus=[] then defaultUsages
  else if resolved=[] then defaultUsages
  else (resolved,{keyEncipherment := ekus.contains "serverAuth" || ekus.contains "clientAuth", contentCommitment := ekus.contains "emailProtection"})

/-- The address that a name is taken for. -/
def parseIP (conn : Connector Ip) (s : String) : Option Ip :=
  if s="localhost" then some conn.loopback else conn.parseAddress s

/-- A name with an at sign is taken for an e-mail address. -/
def isEmail (s : String) : Bool := s.toList.contains '@'

def firstUnsafe (conn : Connector Ip) (what : String) : List String→Err
  | [] => none
  | name::rest =>
    match conn.validateUnicodeSafe name with
    | some err => some (err.wrapped (what++" entry "++conn.quote name++" rejected: "))
    | none => firstUnsafe conn what rest

/-- Check the names that end up in the certificate for misleading characters. -/
def validateCSRUnicode (conn : Connector Ip) (csr : ParsedRequest Ip) (additionalSANs : List String) : Err :=
  match conn.validateUnicodeSafe csr.commonName with
  | some err => some (err.wrapped "CSR Subject.CommonName rejected: ")
  | none =>
    ((firstUnsafe conn "CSR DNSNames" csr.dnsNames).or (firstUnsafe conn "CSR EmailAddresses" csr.emailAddresses)).or
        (firstUnsafe conn "request SANs" additionalSANs)

def sanSet (conn : Connector Ip) (csr : ParsedRequest Ip) (additionalSANs : List String) : List String :=
  (csr.dnsNames++csr.ipAddresses.map conn.addressText++csr.emailAddresses++additionalSANs).dedup

def addressNames (conn : Connector Ip) (names : List String) : List String :=
  names.filter fun san => (parseIP conn san).isSome

/-- Names that are taken for e-mail addresses. -/
def emailNames (conn : Connector Ip) (names : List String) : List String :=
  names.filter fun san => (parseIP conn san).isNone && isEmail san

def hostNames (conn : Connector Ip) (names : List String) : List String :=
  names.filter fun san => (parseIP conn san).isNone && !isEmail san

/-- End of validity: the configured days, or the maximum of the profile if that is earlier. -/
def notAfterOf (conn : Connector Ip) (now : Time) (maxTTLSeconds : ℤ) : Time :=
  let notAfter := now+conn.validityDays*(86400*second)
  if maxTTLSeconds>0 ∧ now+maxTTLSeconds*second<notAfter then now+maxTTLSeconds*second else notAfter

def generateCertificate (conn : Connector Ip) (env : Surroundings) (csr : ParsedRequest Ip)
    (additionalSANs ekus : List String) (maxTTLSeconds : ℤ) (mustStaple : Bool) :
    Try (Certificate Ip) :=
  match env.serialError with
  | some err => .error (err.wrapped "failed to generate serial number: ")
  | none =>
    let names := sanSet conn csr additionalSANs
    let usages := resolveEKUsAndKeyUsage ekus
    let template : Certificate Ip :=
      {commonName := csr.commonName, dnsNames := hostNames conn names,
        ipAddresses := (addressNames conn names).filterMap (parseIP conn),
        emailAddresses := emailNames conn names, uris := [], notBefore := env.now,
        notAfter := notAfterOf conn env.now maxTTLSeconds, extKeyUsage := usages.1, keyUsage := usages.2,
        crlDistributionPoints := conn.crlDistributionPointURLs, mustStaple := mustStaple}
    match env.signError with
    | some err => .error (err.wrapped "failed to sign certificate: ")
    | none => .ok template

def issueCertificate (conn : Connector Ip) (env : Surroundings) (sans : List String) (csrPEM : String)
    (ekus : List String) (maxTTLSeconds : ℤ) (mustStaple : Bool) : Try (Certificate Ip) :=
  match env.caError with
  | some err => .error (err.wrapped "CA initialization failed: ")
  | none =>
    match conn.parseRequest csrPEM with
    | .error err => .error err
    | .ok csr =>
      match validateCSRUnicode conn csr sans with
      | some err => .error err
      | none =>
        match generateCertificate conn env csr sans ekus maxTTLSeconds mustStaple with
        | .error err => .error (err.wrapped "certificate generation failed: ")
        | .ok cert =>
          match env.chainError with
          | some err => .error (err.wrapped "chain assembly failed: ")
          | none => .ok cert

variable {conn : Connector Ip} {env : Surroundings} {sans ekus : List String} {maxTTLSeconds : ℤ}
  {mustStaple : Bool} {cert : Certificate Ip}

theorem issueCertificate_ok {csrPEM : String}
    (h : issueCertificate conn env sans csrPEM ekus maxTTLSeconds mustStaple=.ok cert) :
    ∃ csr,conn.parseRequest csrPEM=.ok csr ∧
      generateCertificate conn env csr sans ekus maxTTLSeconds mustStaple=.ok cert := by
  unfold issueCertificate at h
  split at h
  · cases h
  split at h
  · cases h
  rename_i csr hparse
  split at h
  · cases h
  split at h
  · cases h
  rename_i hmade
  split at h
  · cases h
  cases h
  exact ⟨csr,hparse,hmade⟩

variable {csr : ParsedRequest Ip}

/-- Where the names of a certificate come from: each is a name of the set, and an address is what
such a name is taken for. -/
theorem generateCertificate_names (h : generateCertificate conn env csr sans ekus maxTTLSeconds mustStaple=.ok cert) :
    cert.commonName=csr.commonName ∧ cert.uris=[] ∧
      (∀ name∈cert.dnsNames++cert.emailAddresses,name∈sanSet conn csr sans) ∧
      ∀ ip∈cert.ipAddresses,∃ name∈sanSet conn csr sans,parseIP conn name=some ip := by
  unfold generateCertificate at h
  split at h
  · cases h
  split at h
  · cases h
  cases h
  refine ⟨rfl,rfl,?_,?_⟩
  · intro name hname
    rcases List.mem_append.mp hname with hhost|hemail
    · exact (List.mem_filter.mp hhost).1
    · exact (List.mem_filter.mp hemail).1
  · intro ip hip
    obtain ⟨name,hname,hparse⟩ := List.mem_filterMap.mp hip
    exact ⟨name,(List.mem_filter.mp hname).1,hparse⟩

theorem mem_sanSet {name : String} (h : name∈sanSet conn csr sans) :
    name∈csr.dnsNames ∨ name∈csr.ipAddresses.map conn.addressText ∨ name∈csr.emailAddresses ∨ name∈sans := by
  have hall := List.mem_dedup.mp h
  simp only [List.mem_append] at hall
  rcases hall with ((hdns|hip)|hemail)|hsans
  · exact .inl hdns
  · exact .inr (.inl hip)
  · exact .inr (.inr (.inl hemail))
  · exact .inr (.inr (.inr hsans))

end Certctl.LocalIssuer
