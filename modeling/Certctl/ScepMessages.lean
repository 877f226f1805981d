import Certctl.CmsEnvelope
import Mathlib.Data.Nat.Digits.Defs

/-!
# Accepting SCEP requests

The signer information of a signed message and the request parser of the
SCEP handler. Parsers, digests and signature primitives are parameters.
The signature covers the authenticated attributes only; the handler never
compares the message digest attribute with the content it decrypts, so the
checks on the signer and the checks on the content are independent.
-/

namespace Certctl.ScepMessages

open CmsEnvelope

def oidSCEPMessageType : OID := [2,16,840,1,113733,1,9,2]

def oidSCEPSenderNonce : OID := [2,16,840,1,113733,1,9,5]

def oidSCEPTransactionID : OID := [2,16,840,1,113733,1,9,7]

def oidMessageDigest : OID := [1,2,840,113549,1,9,4]

def oidChallengePassword : OID := [1,2,840,113549,1,9,7]

/-- Digest algorithms and signature algorithms by name. -/
def oidSHA1 : OID := [1,3,14,3,2,26]

def oidSHA256 : OID := [2,16,840,1,101,3,4,2,1]

def oidSHA512 : OID := [2,16,840,1,101,3,4,2,3]

def oidRSAWithSHA1 : OID := [1,2,840,113549,1,1,5]

def oidRSAWithSHA256 : OID := [1,2,840,113549,1,1,11]

def oidRSAWithSHA512 : OID := [1,2,840,113549,1,1,13]

def oidECDSAWithSHA256 : OID := [1,2,840,10045,4,3,2]

def oidECDSAWithSHA512 : OID := [1,2,840,10045,4,3,4]

/-- The hashes of signers. -/
inductive Hash where
  | sha1
  | sha256
  | sha512
deriving DecidableEq

/-- A raw element: its tag and the octets of its contents. -/
structure RawValue where
  tag : ℕ
  bytes : Bytes
deriving DecidableEq

/-- A signer of a message. -/
structure SignerInfo where
  /-- The signing certificate found among the message's certificates. -/
  signerCert : Option Certificate
  authAttributes : List (OID×RawValue)
  /-- The attributes as they stand in the message. -/
  rawSignedAttrs : Bytes
  digestAlgorithm : OID
  signatureAlgorithm : OID
  signature : Bytes
deriving DecidableEq

/-- A parsed signed message. -/
structure SignedData where
  encapContent : Bytes
  certificates : List Certificate
  signerInfos : List SignerInfo
deriving DecidableEq

/-- The attributes of a certificate request; a value that is no text is absent. -/
structure CertificateRequest where
  /-- Attribute types with their values. -/
  attributes : List (OID×List (List (Option Bytes)))
deriving DecidableEq

/-- Parsers, digests and signature checks outside the handler. -/
structure MessagePrimitives extends CipherPrimitives where
  parseSignedData : Bytes→Option SignedData
  parseEnvelopedData : Bytes→Option EnvelopedData
  /-- The first element of a byte string, or the parser's complaint. -/
  unmarshal : Bytes→Except String RawValue
  parseCertificateRequest : Bytes→Option CertificateRequest
  sum : Hash→Bytes→Bytes
  verifyPKCS1v15 : Bytes→Hash→Bytes→Bytes→Bool
  verifyASN1 : Bytes→Bytes→Bytes→Bool
  quote : Bytes→String
  /-- The integer parser's complaint about a text. -/
  atoiError : Bytes→String
  /-- Text armour of a certificate request. -/
  encodeRequest : Bytes→Bytes

/-- Big-endian octets of a length, no leading zero. -/
def lengthBytes (length : ℕ) : Bytes := ((Nat.digits 256 length).map UInt8.ofNat).reverse

def asn1EncodeLength (length : ℕ) : Bytes :=
  if length<128 then [UInt8.ofNat length]
  else UInt8.ofNat (128 ||| (lengthBytes length).length)::lengthBytes length

def asn1Wrap (tag : UInt8) (content : Bytes) : Bytes := tag::asn1EncodeLength content.length++content

/-- The digest an algorithm identifier stands for. -/
def hashOfOID (oid : OID) : Option Hash :=
  if oid=oidSHA256 ∨ oid=oidRSAWithSHA256 ∨ oid=oidECDSAWithSHA256 then some .sha256
  else if oid=oidSHA512 ∨ oid=oidRSAWithSHA512 ∨ oid=oidECDSAWithSHA512 then some .sha512
  else if oid=oidSHA1 ∨ oid=oidRSAWithSHA1 then some .sha1
  else none

/-- Signature algorithms accepted with an RSA key. -/
def isRSASigAlg (oid : OID) : Bool :=
  decide (oid=oidRSAWithSHA1 ∨ oid=oidRSAWithSHA256 ∨ oid=oidRSAWithSHA512 ∨ oid=oidRSAEncryption)

/-- Signature algorithms accepted with an ECDSA key. -/
def isECDSASigAlg (oid : OID) : Bool := decide (oid=oidECDSAWithSHA256 ∨ oid=oidECDSAWithSHA512)

/-- The signature check, over the attributes re-encoded as a set. -/
def SignerInfo.verifySignature (P : MessagePrimitives) (s : SignerInfo) : Bool :=
  match s.signerCert with
  | none => false
  | some cert =>
    if s.rawSignedAttrs=[] then false
    else
      let signedAttrsForSig := asn1Wrap 0x31 s.rawSignedAttrs
      match hashOfOID s.digestAlgorithm with
      | none => false
      | some hash =>
        let digest := P.sum hash signedAttrsForSig
        match cert.publicKey with
        | .rsa key => isRSASigAlg s.signatureAlgorithm && P.verifyPKCS1v15 key hash digest s.signature
        | .ecdsa key => isECDSASigAlg s.signatureAlgorithm && P.verifyASN1 key digest s.signature
        | .other => false

def oidText (oid : OID) : String := ".".intercalate (oid.map toString)

def SignerInfo.attrValue (P : MessagePrimitives) (s : SignerInfo) (oid : OID) : Except String RawValue :=
  match s.authAttributes.lookup oid with
  | none => .error ("auth-attr "++oidText oid++" not present")
  | some rv =>
    if rv.bytes=[] then .error ("auth-attr "++oidText oid++": empty value")
    else
      match P.unmarshal rv.bytes with
      | .error err => .error ("auth-attr "++oidText oid++": unmarshal value: "++err)
      | .ok inner => .ok inner

def SignerInfo.attrPrintableString (P : MessagePrimitives) (s : SignerInfo) (oid : OID) : Except String Bytes :=
  match s.attrValue P oid with
  | .error err => .error err
  | .ok inner =>
    if inner.tag=19 ∨ inner.tag=22 ∨ inner.tag=12 then .ok inner.bytes
    else .error ("auth-attr "++oidText oid++": unexpected value tag "++toString inner.tag)

def SignerInfo.attrOctetString (P : MessagePrimitives) (s : SignerInfo) (oid : OID) : Except String Bytes :=
  match s.attrValue P oid with
  | .error err => .error err
  | .ok inner =>
    if inner.tag=4 then .ok inner.bytes
    else .error ("auth-attr "++oidText oid++": unexpected value tag "++toString inner.tag++ " (want OCTET STRING)")

def digitsValue : Bytes→ℕ→Option ℕ
  | [],n => some n
  | ch::rest,n => if 48≤ch.toNat ∧ ch.toNat≤57 then digitsValue rest (10*n+(ch.toNat-48)) else none

/-- Decimal text to a 64-bit integer. -/
def atoi (text : Bytes) : Option ℤ :=
  let negative := decide (text.head?=some 45)
  let digits := if text.head?=some 45 ∨ text.head?=some 43 then text.tail else text
  if digits=[] then none
  else
    match digitsValue digits 0 with
    | none => none
    | some n =>
      let value : ℤ := if negative then -n else n
      if -2^63≤value ∧ value<2^63 then some value else none

def SignerInfo.getMessageType (P : MessagePrimitives) (s : SignerInfo) : Except String ℤ :=
  match s.attrPrintableString P oidSCEPMessageType with
  | .error err => .error err
  | .ok text =>
    match atoi text with
    | none => .error ("messageType: parse "++P.quote text++" as integer: "++P.atoiError text)
    | some mt => .ok mt

def SignerInfo.getTransactionID (P : MessagePrimitives) (s : SignerInfo) : Except String Bytes :=
  s.attrPrintableString P oidSCEPTransactionID

def SignerInfo.getSenderNonce (P : MessagePrimitives) (s : SignerInfo) : Except String Bytes :=
  s.attrOctetString P oidSCEPSenderNonce

def SignerInfo.getMessageDigest (P : MessagePrimitives) (s : SignerInfo) : Except String Bytes :=
  s.attrOctetString P oidMessageDigest

/-- The registration authority's key pair. -/
structure SCEPHandler where
  raCert : Certificate
  raKey : PrivateKey

/-- What the request parser learns about the request. -/
structure SCEPRequestEnvelope where
  messageType : ℤ
  transactionID : Bytes
  senderNonce : Bytes
  signerCert : Bytes
deriving DecidableEq

def extractChallengePasswordFromCSR (csr : CertificateRequest) : Bytes :=
  match csr.attributes.findSome? (fun attr =>
    if attr.1=oidChallengePassword then (attr.2.head?.bind List.head?).bind id else none) with
  | some pwd => pwd
  | none => []

/-- The envelope and the request that a body carries, if every check passes. -/
def tryParseRFC8894 (P : MessagePrimitives) (h : SCEPHandler) (body : Bytes) :
    Option (SCEPRequestEnvelope×Bytes×Bytes) :=
  match P.parseSignedData body with
  | none => none
  | some sd =>
    match sd.signerInfos with
    | [] => none
    | si::_ =>
      if !si.verifySignature P then none
      else
        match si.getMessageType P with
        | .error _ => none
        | .ok mt =>
          match si.getTransactionID P with
          | .error _ => none
          | .ok tid =>
            let nonce := (si.getSenderNonce P).toOption.getD []
            if sd.encapContent=[] then none
            else
              match P.parseEnvelopedData sd.encapContent with
              | none => none
              | some env =>
                match env.decrypt P.toCipherPrimitives h.raKey h.raCert with
                | none => none
                | some csrDER =>
                  match P.parseCertificateRequest csrDER with
                  | none => none
                  | some csr =>
                    some (⟨mt,tid,nonce,(si.signerCert.map (·.raw)).getD []⟩,P.encodeRequest csrDER,
                      extractChallengePasswordFromCSR csr)

/-- The handler takes the body as a full request. -/
def accepts (P : MessagePrimitives) (h : SCEPHandler) (body : Bytes) : Prop := (tryParseRFC8894 P h body).isSome=true

/-- The checks the handler makes on a signer: signature, message type, transaction. -/
def SignerInfo.passes (P : MessagePrimitives) (si : SignerInfo) : Prop :=
  si.verifySignature P=true ∧ (∃ mt,si.getMessageType P=.ok mt) ∧ ∃ tid,si.getTransactionID P=.ok tid

def SignedData.signerPasses (P : MessagePrimitives) (sd : SignedData) : Prop :=
  ∃ si,sd.signerInfos.head?=some si ∧ si.passes P

/-- The content is enveloped data that the authority's key opens to a request. -/
def opens (P : MessagePrimitives) (h : SCEPHandler) (content : Bytes) : Prop :=
  content≠[] ∧ ∃ env csrDER csr,P.parseEnvelopedData content=some env ∧
    env.decrypt P.toCipherPrimitives h.raKey h.raCert=some csrDER ∧
    P.parseCertificateRequest csrDER=some csr

/-- The message digest attribute of the first signer is the digest of the content. -/
def SignedData.bound (P : MessagePrimitives) (sd : SignedData) : Prop :=
  ∃ si hash,sd.signerInfos.head?=some si ∧ hashOfOID si.digestAlgorithm=some hash ∧
    si.getMessageDigest P=.ok (P.sum hash sd.encapContent)

/-- Acceptance splits into checks on the signer and checks on the content. -/
theorem accepts_iff (P : MessagePrimitives) (h : SCEPHandler) {body : Bytes} {sd : SignedData}
    (hparse : P.parseSignedData body=some sd) :
    accepts P h body ↔ sd.signerPasses P ∧ opens P h sd.encapContent := by
  unfold accepts tryParseRFC8894
  simp only [hparse]
  cases hsis : sd.signerInfos with
  | nil =>
    simp only [SignedData.signerPasses,hsis,List.head?_nil,reduceCtorEq,false_and,exists_false,Option.isSome_none]
  | cons si =>
    have hhead : sd.signerPasses P ↔ si.passes P := by
      simp only [SignedData.signerPasses,hsis,List.head?_cons,Option.some.injEq,exists_eq_left']
    rw [hhead]
    dsimp only
    unfold SignerInfo.passes opens
    cases hsig : si.verifySignature P with
    | false => simp only [Bool.not_false,if_true,Option.isSome_none,Bool.false_eq_true,false_and]
    | true =>
      cases hmt : si.getMessageType P with
      | error => simp
      | ok =>
        cases htid : si.getTransactionID P with
        | error => simp
        | ok =>
          by_cases hempty : sd.encapContent=[]
          · simp [hempty]
          cases henv : P.parseEnvelopedData sd.encapContent with
          | none => simp [hempty]
          | some env =>
            cases hder : env.decrypt P.toCipherPrimitives h.raKey h.raCert with
            | none => simp [hder]
            | some der =>
              cases hcsr : P.parseCertificateRequest der with
              | none | some => simp [hder,hcsr]

/-- Where digests do not collide, one attribute is the digest of one content only. -/
theorem bound_content_unique (P : MessagePrimitives) (hsum : ∀ hash,Function.Injective (P.sum hash))
    {sd₁ sd₂ : SignedData} (hsigner : sd₁.signerInfos.head?=sd₂.signerInfos.head?) (h₁ : sd₁.bound P)
    (h₂ : sd₂.bound P) : sd₁.encapContent=sd₂.encapContent := by
  obtain ⟨si,hash,hhead₁,hhash₁,hdigest₁⟩ := h₁
  obtain ⟨si',hash',hhead₂,hhash₂,hdigest₂⟩ := h₂
  obtain rfl : si=si' := Option.some.inj (hhead₁.symm.trans (hsigner.trans hhead₂))
  obtain rfl : hash=hash' := Option.some.inj (hhash₁.symm.trans hhash₂)
  exact hsum hash (Except.ok.inj (hdigest₁.symm.trans hdigest₂))

/-- The content of a message is never bound to its signer: two messages with one signer and different contents
are both accepted whenever the signer and each content by itself pass their checks, although the digest
attribute can belong to one of the contents only. -/
theorem tryParseRFC8894_never_binds (P : MessagePrimitives) (h : SCEPHandler)
    (hsum : ∀ hash,Function.Injective (P.sum hash)) (body₁ body₂ : Bytes) (sd₁ sd₂ : SignedData)
    (hparse₁ : P.parseSignedData body₁=some sd₁) (hparse₂ : P.parseSignedData body₂=some sd₂)
    (hsigner : sd₁.signerInfos.head?=sd₂.signerInfos.head?) (hcontent : sd₁.encapContent≠sd₂.encapContent)
    (hpasses : sd₁.signerPasses P) (hopens₁ : opens P h sd₁.encapContent) (hopens₂ : opens P h sd₂.encapContent) :
    (accepts P h body₁ ∧ accepts P h body₂) ∧
    ¬((accepts P h body₁ → sd₁.bound P) ∧ (accepts P h body₂ → sd₂.bound P)) := by
  have haccepts₁ : accepts P h body₁ := (accepts_iff P h hparse₁).mpr ⟨hpasses,hopens₁⟩
  have haccepts₂ : accepts P h body₂ := by
    refine (accepts_iff P h hparse₂).mpr ⟨?_,hopens₂⟩
    rw [SignedData.signerPasses,← hsigner]
    exact hpasses
  refine ⟨⟨haccepts₁,haccepts₂⟩,fun hbound => hcontent ?_⟩
  exact bound_content_unique P hsum hsigner (hbound.1 haccepts₁) (hbound.2 haccepts₂)

/-- Certificate of the sample device, which is also the sample authority's. -/
def sampleCert : Certificate := ⟨[7],[8],some 9,.rsa [5]⟩

/-- A signer whose digest attribute is the digest of the content with octet one. -/
def sampleSigner : SignerInfo where
  signerCert := some sampleCert
  authAttributes := [(oidSCEPMessageType,⟨19,[49,57]⟩),(oidSCEPTransactionID,⟨19,[116]⟩), (oidMessageDigest,⟨4,[1]⟩)]
  rawSignedAttrs := [3]
  digestAlgorithm := oidSHA256
  signatureAlgorithm := oidRSAWithSHA256
  signature := asn1Wrap 0x31 [3]

def sampleMessage (content : Bytes) : SignedData := ⟨content,[sampleCert],[sampleSigner]⟩

/-- An envelope for the sample authority whose last octet is one octet of padding. -/
def sampleEnvelope (content : Bytes) : EnvelopedData where
  recipientInfos := [⟨[8],some 9,⟨oidRSAEncryption,[]⟩,[]⟩]
  contentEncryptionAlg := ⟨oidAES128CBC,List.replicate 16 0⟩
  encryptedContent := List.replicate 15 (content.headD 0)++[1]

/-- Collision-free digests, a signature that is the signed digest, a body that
is its own content. -/
def samplePrimitives : MessagePrimitives where
  decryptPKCS1v15 := fun _ _ => some (List.replicate 16 0)
  decryptBlock := fun _ _ block => block
  parseSignedData := fun body => some (sampleMessage body)
  parseEnvelopedData := fun content => some (sampleEnvelope content)
  unmarshal := fun bytes => .ok ⟨if bytes=[1] then 4 else 19,bytes⟩
  parseCertificateRequest := fun _ => some ⟨[]⟩
  sum := fun _ data => data
  verifyPKCS1v15 := fun _ _ digest signature => decide (signature=digest)
  verifyASN1 := fun _ _ _ => false
  quote := fun _ => ""
  atoiError := fun _ => ""
  encodeRequest := id

def sampleHandler : SCEPHandler := ⟨sampleCert,.rsa [5]⟩

/-- Two contents under one signature, of which the attribute is the digest of the first. -/
theorem tryParseRFC8894_never_binds_sample :
    (sampleMessage [1]).signerInfos.head?=(sampleMessage [2]).signerInfos.head? ∧
    accepts samplePrimitives sampleHandler [1] ∧ accepts samplePrimitives sampleHandler [2] ∧
    ¬((sampleMessage [1]).bound samplePrimitives ∧ (sampleMessage [2]).bound samplePrimitives) := by
  have hpasses : (sampleMessage [1]).signerPasses samplePrimitives :=
    ⟨sampleSigner,rfl,by decide,⟨19,rfl⟩,⟨[116],rfl⟩⟩
  have hopens : ∀ content,content=[1] ∨ content=[2] → opens samplePrimitives sampleHandler content := by
    rintro content (rfl|rfl)
    · exact ⟨by decide,sampleEnvelope [1],_,⟨[]⟩,rfl,rfl,rfl⟩
    · exact ⟨by decide,sampleEnvelope [2],_,⟨[]⟩,rfl,rfl,rfl⟩
  obtain ⟨⟨hfirst,hsecond⟩,hnot⟩ := tryParseRFC8894_never_binds samplePrimitives sampleHandler (fun _ _ _ heq => heq)
    [1] [2] (sampleMessage [1]) (sampleMessage [2]) rfl rfl rfl (by decide) hpasses (hopens _ (.inl rfl))
    (hopens _ (.inr rfl))
  exact ⟨rfl,hfirst,hsecond,fun hbound => hnot ⟨fun _ => hbound.1,fun _ => hbound.2⟩⟩

/-- The content of an accepted message is replaced under the same signature,
and the result is accepted too, with an attribute that is not its digest. -/
theorem tryParseRFC8894_accepts_replaced_content :
    (∀ hash,Function.Injective (samplePrimitives.sum hash)) ∧
    samplePrimitives.parseSignedData [1]=some (sampleMessage [1]) ∧
    samplePrimitives.parseSignedData [2]=some (sampleMessage [2]) ∧
    (sampleMessage [1]).certificates=(sampleMessage [2]).certificates ∧
    (sampleMessage [1]).signerInfos.head?=(sampleMessage [2]).signerInfos.head? ∧
    (sampleMessage [1]).encapContent≠(sampleMessage [2]).encapContent ∧
    accepts samplePrimitives sampleHandler [1] ∧ accepts samplePrimitives sampleHandler [2] ∧
    (sampleMessage [1]).bound samplePrimitives ∧ ¬(sampleMessage [2]).bound samplePrimitives := by
  refine ⟨fun _ _ _ h => h,rfl,rfl,rfl,rfl,by decide,?_,?_,?_,?_⟩
  · change (tryParseRFC8894 samplePrimitives sampleHandler [1]).isSome=true
    decide
  · change (tryParseRFC8894 samplePrimitives sampleHandler [2]).isSome=true
    decide
  · exact ⟨sampleSigner,.sha256,rfl,by decide,rfl⟩
  rintro ⟨si,hash,hhead,-,hdigest⟩
  cases hhead
  cases hdigest

end Certctl.ScepMessages
