import Certctl.Base64Url
import Certctl.OcspResponder

/-!
# Serial numbers as keys

The local issuer records a certificate under its serial number written in
forty hexadecimal digits with leading zeros. The readers write the serial
number of the same certificate without leading zeros: the ACME revocation,
the status request handler, and the renewal-information identifier, which
carries it as bytes. The keys agree exactly when the number fills the
forty digits.
-/

namespace Certctl.SerialNumberKeys

open AtomicProgram ControlPlaneTables ControlPlaneStore DomainRecords OcspResponder

/-- The parts of a parsed certificate that the readers use. -/
structure Leaf where
  /-- The serial number, absent when the library leaves it unset. -/
  serialNumber : Option ℕ
  authorityKeyId : List UInt8

/-- The given functions on certificates. -/
structure X509Library where
  /-- The content of the first block of a text. -/
  pemDecode : String→Option (List UInt8)
  parseCertificate : List UInt8→Try Leaf

/-- The text under which the local issuer records a certificate with this serial number. -/
def generateCertificateSerial (serialNum : ℕ) : String := HexNumerals.padded 40 serialNum

def revokeCertSerialHex (serialNumber : ℕ) : String := (HexNumerals.text serialNumber).toLower

/-- The key by which a status request looks a certificate up. -/
def handleOCSPPostSerialHex (serialNumber : ℕ) : String := HexNumerals.text serialNumber

/-- A decoded renewal identifier. -/
structure ARICertID where
  aki : List UInt8
  /-- The serial number as bytes, most significant first. -/
  serial : List UInt8

/-- The key by which renewal information looks a certificate up. -/
def ARICertID.serialHex (a : ARICertID) : String :=
  if a.serial=[] then ""
  else if HexNumerals.ofBytes a.serial=0 then "0"
  else (HexNumerals.text (HexNumerals.ofBytes a.serial)).toLower

/-- Split a text at every occurrence of a separator. -/
def split (sep : Char) : List Char→List (List Char)
  | [] => [[]]
  | ch::rest =>
    if ch=sep then []::split sep rest
    else
      match split sep rest with
      | [] => [[ch]]
      | part::parts => (ch::part)::parts

def decodePart (sentinel : Sentinel) (part : List Char) : Try (List UInt8) :=
  match Base64Url.decode part with
  | .error pos => .error ⟨sentinel.text++": illegal base64 data at input byte "++toString pos,some sentinel⟩
  | .ok bs => .ok bs

def parseARICertID (certID : String) : Try ARICertID :=
  match split '.' certID.toList with
  | [first,second] =>
    if first=[] ∨ second=[] then .error Sentinel.ariCertIDEmpty.error
    else
      match decodePart .ariCertIDDecodeAKI first with
      | .error err => .error err
      | .ok aki =>
        match decodePart .ariCertIDDecodeSerial second with
        | .error err => .error err
        | .ok serial => if aki=[] ∨ serial=[] then .error Sentinel.ariCertIDEmpty.error else .ok ⟨aki,serial⟩
  | parts =>
    .error ⟨Sentinel.ariCertIDMalformed.text++": got "++toString parts.length++" parts",some .ariCertIDMalformed⟩

def buildARICertID (lib : X509Library) (certPEM : String) : Try String :=
  match lib.pemDecode certPEM with
  | none => .error ⟨"acme ari: pem decode failed",none⟩
  | some block =>
    match lib.parseCertificate block with
    | .error err => .error (err.wrapped "acme ari: parse cert: ")
    | .ok cert =>
      if cert.authorityKeyId=[] then
        .error ⟨"acme ari: certificate has no authorityKeyIdentifier extension",none⟩
      else
        match cert.serialNumber with
        | none => .error ⟨"acme ari: certificate has no serial number",none⟩
        | some n =>
          .ok (String.ofList (Base64Url.encode cert.authorityKeyId++ '.' :: Base64Url.encode (HexNumerals.bytes n)))

variable {sep : Char}

theorem split_of_notMem {text : List Char} (h : sep∉text) : split sep text=[text] := by
  induction text with
  | nil => rfl
  | cons ch rest ih =>
    have hne : ch≠sep := fun heq => h (heq ▸ List.mem_cons_self)
    have hrest := ih fun hmem => h (List.mem_cons_of_mem ch hmem)
    simp only [split,if_neg hne,hrest]

theorem split_append_sep {first : List Char} (hfirst : sep∉first) (rest : List Char) :
    split sep (first++sep::rest)=first::split sep rest := by
  induction first with
  | nil => simp only [List.nil_append,split,if_true]
  | cons ch tail ih =>
    have hne : ch≠sep := fun heq => hfirst (heq ▸ List.mem_cons_self)
    have htail := ih fun hmem => hfirst (List.mem_cons_of_mem ch hmem)
    simp only [List.cons_append,split,if_neg hne,htail]

theorem parseARICertID_encode {aki serial : List UInt8} (haki : aki≠[]) (hserial : serial≠[]) :
    parseARICertID (String.ofList (Base64Url.encode aki++ '.' :: Base64Url.encode serial))=.ok ⟨aki,serial⟩ := by
  have hsplit := split_append_sep (Base64Url.dot_notMem_encode aki) (Base64Url.encode serial)
  rw [split_of_notMem (Base64Url.dot_notMem_encode serial)] at hsplit
  have hparts : ¬(Base64Url.encode aki=[] ∨ Base64Url.encode serial=[]) := by
    rw [Base64Url.encode_eq_nil_iff,Base64Url.encode_eq_nil_iff]
    exact not_or.mpr ⟨haki,hserial⟩
  have hbytes : ¬(aki=[] ∨ serial=[]) := not_or.mpr ⟨haki,hserial⟩
  simp only [parseARICertID,String.toList_ofList,hsplit,if_neg hparts,decodePart,Base64Url.decode_encode, if_neg hbytes]

theorem buildARICertID_eq {lib : X509Library} {certPEM : String} {block : List UInt8} {leaf : Leaf} {n : ℕ}
    (hblock : lib.pemDecode certPEM=some block) (hparse : lib.parseCertificate block=.ok leaf)
    (haki : leaf.authorityKeyId≠[]) (hserial : leaf.serialNumber=some n) : buildARICertID lib certPEM=
      .ok (String.ofList (Base64Url.encode leaf.authorityKeyId++ '.' :: Base64Url.encode (HexNumerals.bytes n))) := by
  simp only [buildARICertID,hblock,hparse,if_neg haki,hserial]

theorem serialHex_bytes {aki : List UInt8} {n : ℕ} (hn : n≠0) :
    ARICertID.serialHex ⟨aki,HexNumerals.bytes n⟩=HexNumerals.text n := by
  have hbytes : HexNumerals.bytes n≠[] := fun h => hn ((HexNumerals.bytes_eq_nil_iff n).mp h)
  simp only [ARICertID.serialHex,if_neg hbytes,HexNumerals.ofBytes_bytes,if_neg hn,HexNumerals.toLower_text]

theorem generateCertificateSerial_eq_text_iff (n : ℕ) : generateCertificateSerial n=HexNumerals.text n ↔ 2^156≤n := by
  have hpow : (2:ℕ)^156=16^39 := by norm_num
  rw [generateCertificateSerial,HexNumerals.padded_eq_text_iff,hpow,← HexNumerals.lt_length_digits_iff (by omega)]
  omega

/-- A version stored under the recorded text is found by a lookup with the key. -/
def FoundBy (recorded key : String) : Prop :=
  ∀ db issuerID c,c.fault=none → versionsWithSerial issuerID recorded db≠[] →
    ∃ v∈versionsWithSerial issuerID recorded db,(effect c db (.getVersionBySerial issuerID key)).1=.ok v

/-- A revocation stored under the recorded text is reported to a status request with the key. -/
def ReportedBy (recorded key : String) : Prop :=
  ∀ (svc : CAOperationsSvc) db issuerID nonce,svc.revocationRepo=true → svc.issuerRegistry=true →
    db.issuers.contains issuerID=true → HasRow (issuerID,recorded) db →
    (∀ rev∈db.revocations,revocationKey rev=(issuerID,recorded) → shortLivedCert db rev.certificateID=false) →
    (liveSignOCSPResponse svc issuerID key nonce).Always faultFree (fun outcome _ =>
      ∃ response,outcome=.ok response ∧ response.content.certStatus=.revoked) db

theorem foundBy_self (recorded : String) : FoundBy recorded recorded := by
  intro db issuerID c hc hstored
  obtain ⟨v,hv,hpick⟩ := pickOne_isSome c (newest_ne_nil hstored)
  refine ⟨v,List.mem_of_mem_filter hv,?_⟩
  simp only [effect,readRow,fallible,hc,hpick]
  rfl

theorem reportedBy_self (recorded : String) : ReportedBy recorded recorded := by
  intro svc db issuerID nonce hrepo hregistry hissuer hrow hlong
  exact (always_liveSignOCSPResponse nonce hrepo hregistry hissuer hrow hlong).mono fun _ _ h => h.2

/-- Every reader's key is the recorded text, and every reader finds what is recorded. -/
structure SerialKeysAgree (lib : X509Library) (certPEM : String) (n : ℕ) : Prop where
  revoke : revokeCertSerialHex n=generateCertificateSerial n
  revokes : FoundBy (generateCertificateSerial n) (revokeCertSerialHex n)
  post : handleOCSPPostSerialHex n=generateCertificateSerial n
  reports : ReportedBy (generateCertificateSerial n) (handleOCSPPostSerialHex n)
  ari : ∃ certID parsed,buildARICertID lib certPEM=.ok certID ∧ parseARICertID certID=.ok parsed ∧
    parsed.serialHex=generateCertificateSerial n ∧ FoundBy (generateCertificateSerial n) parsed.serialHex

/-- For every certificate with a key identifier, whatever its serial number, the readers'
keys agree with the recorded text exactly when the serial number fills forty digits. -/
theorem serialKeys_agree_iff (lib : X509Library) (certPEM : String) (block : List UInt8) (leaf : Leaf) (n : ℕ)
    (hblock : lib.pemDecode certPEM=some block) (hparse : lib.parseCertificate block=.ok leaf)
    (haki : leaf.authorityKeyId≠[]) (hserial : leaf.serialNumber=some n) :
    SerialKeysAgree lib certPEM n ↔ 2^156≤n := by
  constructor
  · intro h
    exact (generateCertificateSerial_eq_text_iff n).mp h.post.symm
  · intro hn
    have hrecorded := (generateCertificateSerial_eq_text_iff n).mpr hn
    have hzero : n≠0 := by omega
    have hbytes : HexNumerals.bytes n≠[] := fun h => hzero ((HexNumerals.bytes_eq_nil_iff n).mp h)
    have hari : ARICertID.serialHex ⟨leaf.authorityKeyId,HexNumerals.bytes n⟩=generateCertificateSerial n :=
      (serialHex_bytes hzero).trans hrecorded.symm
    have hrevoke : revokeCertSerialHex n=generateCertificateSerial n :=
      (HexNumerals.toLower_text n).trans hrecorded.symm
    have hpost : handleOCSPPostSerialHex n=generateCertificateSerial n := hrecorded.symm
    refine ⟨hrevoke,?_,hpost,?_,_,_,buildARICertID_eq hblock hparse haki hserial,
      parseARICertID_encode haki hbytes,hari,?_⟩
    · rw [hrevoke]
      exact foundBy_self _
    · rw [hpost]
      exact reportedBy_self _
    · rw [hari]
      exact foundBy_self _

/-- A library in which every text is a certificate with the given serial number. -/
def sampleLibrary (n : ℕ) : X509Library := ⟨fun _ => some [],fun _ => .ok ⟨some n,[1]⟩⟩

/-- The smallest serial number of forty digits is found by every reader. -/
theorem serialKeys_agree_sample : SerialKeysAgree (sampleLibrary (2^156)) "" (2^156) :=
  (serialKeys_agree_iff (sampleLibrary (2^156)) "" [] ⟨some (2^156),[1]⟩ (2^156) rfl rfl
    nofun rfl).mpr (Nat.le_refl _)

/-- One revoked certificate of the local issuer with serial number one. -/
def sampleDb : Db where
  certs := [{id := "mc-1", issuerID := "iss-local", status := .revoked}]
  versions := [{id := "v-1", certificateID := "mc-1", serialNumber := generateCertificateSerial 1}]
  revocations := [⟨"rev-1","mc-1",generateCertificateSerial 1,"keyCompromise","operator",0,"iss-local",true⟩]
  issuers := ["iss-local"]

/-- A certificate with serial number one is recorded under forty digits, so ACME revocation
and renewal information do not find it, and a status request for it, revoked, is told unknown. -/
theorem serialKeys_disagree :
    ¬SerialKeysAgree (sampleLibrary 1) "" 1 ∧
    HasRow ("iss-local",generateCertificateSerial 1) sampleDb ∧
    (versionsWithSerial "iss-local" (generateCertificateSerial 1) sampleDb).length=1 ∧
    versionsWithSerial "iss-local" (revokeCertSerialHex 1) sampleDb=[] ∧
    (∃ certID parsed,buildARICertID (sampleLibrary 1) ""=.ok certID ∧ parseARICertID certID=.ok parsed ∧
      versionsWithSerial "iss-local" parsed.serialHex sampleDb=[]) ∧
    ∃ response db,(liveSignOCSPResponse {} "iss-local" (handleOCSPPostSerialHex 1) []).Exec faultFree sampleDb
      (.ok response) db ∧ response.content.certStatus=.unknown := by
  have hbytes : HexNumerals.bytes 1≠[] := by decide
  refine ⟨?_,⟨_,List.mem_cons_self,rfl⟩,by decide,?_,?_,?_⟩
  · intro h
    have hle := (generateCertificateSerial_eq_text_iff 1).mp h.post.symm
    revert hle
    decide
  · rw [revokeCertSerialHex,HexNumerals.toLower_text]
    decide
  · refine ⟨_,_,buildARICertID_eq rfl rfl nofun (rfl : (⟨some 1,[1]⟩ : Leaf).serialNumber=some 1),
      parseARICertID_encode nofun hbytes,?_⟩
    rw [serialHex_bytes (by omega)]
    decide
  have hrun : (((liveSignOCSPResponse {} "iss-local" (handleOCSPPostSerialHex 1) []).run
      (List.replicate 6 noFault) sampleDb).map fun out =>
        out.1.toOption.map (·.content.certStatus))=some (some .unknown) := by decide
  obtain ⟨out,hout,hstatus⟩ := Option.map_eq_some_iff.mp hrun
  obtain ⟨outcome,db⟩ := out
  cases outcome with
  | error => cases hstatus
  | ok response =>
    refine ⟨response,db,Prog.exec_of_run ?_ hout,Option.some.inj hstatus⟩
    intro c hc op db'
    rw [List.eq_of_mem_replicate hc]
    rfl

end Certctl.SerialNumberKeys
