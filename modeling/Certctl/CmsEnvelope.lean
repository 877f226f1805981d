import Mathlib.Algebra.Group.Int.Defs
import Mathlib.Algebra.Group.Nat.Defs
import Mathlib.Tactic.Common

/-!
# Opening CMS enveloped data

The decryption half of the enveloped-data package: the choice of the
recipient, the key transport, the block-cipher chaining and the padding
check, which is the branch-free accumulator of the source. Parsers, the
key-transport primitive and the block ciphers are parameters. Every
failure is the one sentinel of the source, so failing is an absent value.
The padding check is compared with the plain one, and with the paddings of
the two builders.
-/

namespace Certctl.CmsEnvelope

abbrev Bytes := List UInt8

/-- An object identifier by its arcs. -/
abbrev OID := List ℕ

def oidRSAEncryption : OID := [1,2,840,113549,1,1,1]

def oidAES128CBC : OID := [2,16,840,1,101,3,4,1,2]

def oidAES192CBC : OID := [2,16,840,1,101,3,4,1,22]

def oidAES256CBC : OID := [2,16,840,1,101,3,4,1,42]

def oidDESEDE3CBC : OID := [1,2,840,113549,3,7]

/-- The ciphers of contents. -/
inductive BlockCipher where
  | aes
  | tripleDES
deriving DecidableEq

def BlockCipher.blockSize : BlockCipher→ℕ
  | .aes => 16
  | .tripleDES => 8

def BlockCipher.keyLengths : BlockCipher→List ℕ
  | .aes => [16,24,32]
  | .tripleDES => [24]

/-- An algorithm with its parameters. -/
structure AlgorithmIdentifier where
  algorithm : OID
  /-- Contents of the parameters, the initialisation vector here. -/
  parameters : Bytes
deriving DecidableEq

/-- The content key for a recipient. -/
structure KeyTransRecipientInfo where
  issuerRaw : Bytes
  serialNumber : Option ℤ
  keyEncryptionAlg : AlgorithmIdentifier
  encryptedKey : Bytes
deriving DecidableEq

/-- A parsed envelope. -/
structure EnvelopedData where
  recipientInfos : List KeyTransRecipientInfo
  contentEncryptionAlg : AlgorithmIdentifier
  encryptedContent : Bytes
deriving DecidableEq

/-- The kinds of public key. -/
inductive PublicKey where
  | rsa (key : Bytes)
  | ecdsa (key : Bytes)
  | other
deriving DecidableEq

/-- The parts of a certificate that the message layer reads. -/
structure Certificate where
  raw : Bytes
  rawIssuer : Bytes
  serialNumber : Option ℤ
  publicKey : PublicKey
deriving DecidableEq

/-- The kinds of private key. -/
inductive PrivateKey where
  | rsa (key : Bytes)
  | other
deriving DecidableEq

/-- The ciphers as given functions. -/
structure CipherPrimitives where
  /-- Key transport; absent when the padding is malformed. -/
  decryptPKCS1v15 : Bytes→Bytes→Option Bytes
  decryptBlock : BlockCipher→Bytes→Bytes→Bytes

/-- Conversion of a signed number to a byte. -/
def byteOf (x : ℤ) : UInt8 := UInt8.ofNat (x%256).toNat

def xorBytes (a b : Bytes) : Bytes := List.zipWith (·^^^·) a b

def cbcDecrypt (blockSize : ℕ) (decrypt : Bytes→Bytes) : ℕ→Bytes→Bytes→Bytes
  | 0,_,_ => []
  | blocks+1,previous,data =>
    let block := data.take blockSize
    xorBytes (decrypt block) previous++cbcDecrypt blockSize decrypt blocks block (data.drop blockSize)

/-- One bit for a padding length outside the block. -/
def padTooBig (blockSize : ℕ) (pad : UInt8) : UInt8 :=
  (byteOf ((pad.toNat : ℤ)-1) >>> 7) ||| (byteOf (((blockSize : ℤ)-pad.toNat) >>> (31 : ℕ)) &&& 1)

/-- The accumulator of the padding check: zero exactly when nothing is wrong. -/
def padBad (blockSize : ℕ) (plaintext : Bytes) (pad : UInt8) : UInt8 :=
  (List.range (min blockSize plaintext.length)).foldl (fun bad (j : ℕ) =>
    -- all ones while the position counted from the end lies inside the padding
    let inWindow := ~~~byteOf (((pad.toNat : ℤ)-(j+1)) >>> (31 : ℕ))
    let mismatch := plaintext.getD (plaintext.length-(j+1)) 0 ^^^ pad
    bad ||| (inWindow &&& mismatch)) (padTooBig blockSize pad)

def stripPadding (blockSize : ℕ) (plaintext : Bytes) : Option Bytes :=
  match plaintext.getLast? with
  | none => none
  | some pad =>
    if padBad blockSize plaintext pad≠0 then none
    else some (plaintext.take (plaintext.length-pad.toNat))

def cipherOf (algorithm : OID) : Option BlockCipher :=
  if algorithm=oidAES128CBC ∨ algorithm=oidAES192CBC ∨ algorithm=oidAES256CBC then some .aes
  else if algorithm=oidDESEDE3CBC then some .tripleDES
  else none

/-- Content decryption. The key length is checked by the cipher constructor
only, so it need not be the one the algorithm names. -/
def decryptCBC (P : CipherPrimitives) (alg : AlgorithmIdentifier) (key ciphertext : Bytes) : Option Bytes :=
  match cipherOf alg.algorithm with
  | none => none
  | some block =>
    let size := block.blockSize
    if ¬key.length∈block.keyLengths then none
    else if alg.parameters.length≠size then none
    else if ciphertext.length=0 ∨ ciphertext.length%size≠0 then none
    else stripPadding size
      (cbcDecrypt size (P.decryptBlock block key) (ciphertext.length/size) alg.parameters ciphertext)

/-- The recipient entry that names the registration authority's certificate. -/
def matchesRecipient (raCert : Certificate) (recipient : KeyTransRecipientInfo) : Bool :=
  decide (recipient.issuerRaw=raCert.rawIssuer) && recipient.serialNumber.isSome && raCert.serialNumber.isSome &&
    decide (recipient.serialNumber=raCert.serialNumber)

def EnvelopedData.decrypt (P : CipherPrimitives) (e : EnvelopedData) (raKey : PrivateKey)
    (raCert : Certificate) : Option Bytes :=
  match raKey with
  | .other => none
  | .rsa key =>
    match e.recipientInfos.find? (matchesRecipient raCert) with
    | none => none
    | some recipient =>
      if recipient.keyEncryptionAlg.algorithm≠oidRSAEncryption then none
      else
        match P.decryptPKCS1v15 key recipient.encryptedKey with
        | none => none
        | some symKey => decryptCBC P e.contentEncryptionAlg symKey e.encryptedContent

section Padding

open List

def pkcs7Pad (input : Bytes) (blockSize : ℕ) : Bytes :=
  let padLen := blockSize-input.length%blockSize
  -- the copied input, then room that the loop fills
  let out := input++List.replicate padLen 0
  (range' input.length padLen).foldl (fun out i => out.set i (UInt8.ofNat padLen)) out

/-- The padding that `buildEnvelopedDataAES256` appends byte by byte. -/
def paddedAES256 (plaintext : Bytes) : Bytes :=
  let bs := BlockCipher.aes.blockSize
  let padLen := bs-plaintext.length%bs
  (List.range padLen).foldl (fun padded _ => padded++[UInt8.ofNat padLen]) plaintext

variable {blockSize : ℕ} {plaintext : Bytes} {pad : UInt8}

theorem byteOf_sign {x : ℤ} (hlow : -2^31 ≤ x) (hhigh : x<2^31) : byteOf (x >>> (31 : ℕ))=if 0≤x then 0 else 255 := by
  rw [Int.shiftRight_eq_div_pow]
  split
  · have hzero : x/((2^31 : ℕ) : ℤ)=0 := by omega
    rw [hzero]
    decide
  · have hone : x/((2^31 : ℕ) : ℤ)=-1 := by omega
    rw [hone]
    decide

theorem padTooBig_eq_zero (hmax : blockSize≤128) : padTooBig blockSize pad=0 ↔ 1≤pad.toNat ∧ pad.toNat≤blockSize := by
  have hbyte := pad.toNat_lt
  have htop : ∀ n : ℕ,n<256 → (byteOf ((n : ℤ)-1) >>> 7=0 ↔ 1≤n ∧ n≤128) := by decide +kernel
  have hbit : (0 : UInt8) &&& 1=0 ∧ (255 : UInt8) &&& 1≠0 := by decide
  rw [padTooBig,UInt8.or_eq_zero_iff,htop _ hbyte,byteOf_sign (by omega) (by omega)]
  split
  · simp only [hbit.1,and_true]
    omega
  · simp only [hbit.2,and_false,false_iff]
    omega

theorem foldl_or_eq_zero {bits : ℕ→UInt8} {js : List ℕ} {bad : UInt8} :
    js.foldl (fun bad j => bad ||| bits j) bad=0 ↔ bad=0 ∧ ∀ j∈js,bits j=0 := by
  induction js generalizing bad with
  | nil => exact ⟨fun h => ⟨h,forall_mem_nil _⟩,fun h => h.1⟩
  | cons j js ih => rw [foldl_cons,ih,UInt8.or_eq_zero_iff,forall_mem_cons,and_assoc]

/-- The accumulator stays zero just for a length within the block that the last so many bytes carry. -/
theorem padBad_eq_zero (hmax : blockSize≤128) (hlen : blockSize≤plaintext.length) :
    padBad blockSize plaintext pad=0 ↔ (1≤pad.toNat ∧ pad.toNat≤blockSize) ∧
      ∀ j<pad.toNat,plaintext.getD (plaintext.length-(j+1)) 0=pad := by
  have hbyte := pad.toNat_lt
  have hmask : ~~~(0 : UInt8)=-1 ∧ ~~~(255 : UInt8)=0 := by decide
  rw [padBad,foldl_or_eq_zero,padTooBig_eq_zero hmax]
  refine and_congr_right fun hrange => forall_congr' fun j => ?_
  rw [mem_range]
  by_cases hj : j < min blockSize plaintext.length
  · rw [byteOf_sign (by omega) (by omega)]
    split
    · rw [hmask.1,UInt8.neg_one_and,UInt8.xor_eq_zero_iff]
      exact ⟨fun h _ => h hj,fun h _ => h (by omega)⟩
    · rw [hmask.2,UInt8.zero_and]
      exact ⟨fun _ hpad => absurd hpad (by omega),fun _ _ => rfl⟩
  · exact ⟨fun _ hpad => absurd hpad (by omega),fun _ hin => absurd hin hj⟩

theorem stripPadding_some_iff (hmax : blockSize≤128) (hlen : blockSize≤plaintext.length) {out : Bytes} :
    stripPadding blockSize plaintext=some out ↔ ∃ pad∈plaintext.getLast?,(1≤pad.toNat ∧ pad.toNat≤blockSize) ∧
      (∀ j<pad.toNat,plaintext.getD (plaintext.length-(j+1)) 0=pad) ∧
        out=plaintext.take (plaintext.length-pad.toNat) := by
  rw [stripPadding]
  cases plaintext.getLast? with
  | none => simp
  | some pad =>
    simp only [Option.mem_some_iff,exists_eq_left']
    rw [← and_assoc,← padBad_eq_zero hmax hlen]
    split
    · rename_i hbad
      simp only [hbad,false_and,reduceCtorEq]
    · rename_i hgood
      rw [Option.some.injEq,not_not.mp hgood,eq_comm]
      exact ⟨fun h => ⟨rfl,h⟩,fun h => h.2⟩

theorem pkcs7Pad_eq (input : Bytes) (blockSize : ℕ) : pkcs7Pad input blockSize=input++List.replicate
    (blockSize-input.length%blockSize) (UInt8.ofNat (blockSize-input.length%blockSize)) := by
  have hfill : ∀ (b : UInt8) n (front : Bytes),(range' front.length n).foldl (fun out i => out.set i b)
      (front++List.replicate n 0)=front++List.replicate n b := by
    intro b n
    induction n with
    | zero => exact fun _ => rfl
    | succ n ih =>
      intro front
      have hnext := ih (front++[b])
      rw [length_append,append_assoc,append_assoc] at hnext
      rw [range'_succ,foldl_cons,replicate_succ,set_append_right _ _ (Nat.le_refl _),Nat.sub_self]
      exact hnext
  exact hfill _ _ input

theorem paddedAES256_eq (input : Bytes) : paddedAES256 input=pkcs7Pad input 16 := by
  have hfill : ∀ (b : UInt8) n,(List.range n).foldl (fun padded _ => padded++[b]) input=input++List.replicate n b := by
    intro b n
    induction n with
    | zero => exact (append_nil _).symm
    | succ n ih => rw [range_succ,foldl_append,ih,foldl_cons,foldl_nil,append_assoc,replicate_succ']
  rw [pkcs7Pad_eq]
  exact hfill _ _

theorem stripPadding_pkcs7Pad (hpos : 1≤blockSize) (hmax : blockSize≤128) (input : Bytes) :
    stripPadding blockSize (pkcs7Pad input blockSize)=some input := by
  have hmod := Nat.mod_lt input.length hpos
  have hle := Nat.mod_le input.length blockSize
  rw [pkcs7Pad_eq]
  generalize hn : blockSize-input.length%blockSize=n
  have hbyte : (UInt8.ofNat n).toNat=n := UInt8.toNat_ofNat_of_lt' (Nat.lt_of_le_of_lt (by omega : n≤128) (by decide))
  have hlength : (input++List.replicate n (UInt8.ofNat n)).length=input.length+n := by
    rw [length_append,length_replicate]
  refine (stripPadding_some_iff hmax ?_).mpr ⟨UInt8.ofNat n,?_,⟨?_,?_⟩,fun j hj => ?_,?_⟩
  · omega
  · rw [getLast?_append,getLast?_replicate,if_neg (by omega)]
    rfl
  · omega
  · omega
  · rw [getD_eq_getElem?_getD,getElem?_append_right (by omega),getElem?_replicate_of_lt (by omega),Option.getD_some]
  · rw [hlength,hbyte,Nat.add_sub_cancel,take_left]

/-- The branch-free check of the padding is exact for blocks of up to 128 bytes, undoes both paddings of the builders,
and these agree. -/
theorem stripPadding_exact {blockSize : ℕ} (hpos : 1≤blockSize) (hmax : blockSize≤128) :
    (∀ plaintext out : Bytes,plaintext≠[] → blockSize∣plaintext.length →
      (stripPadding blockSize plaintext=some out ↔ ∃ pad∈plaintext.getLast?,(1≤pad.toNat ∧ pad.toNat≤blockSize) ∧
        (∀ j<pad.toNat,plaintext.getD (plaintext.length-(j+1)) 0=pad) ∧
          out=plaintext.take (plaintext.length-pad.toNat))) ∧
    (∀ input,stripPadding blockSize (pkcs7Pad input blockSize)=some input) ∧
    ∀ input,stripPadding 16 (paddedAES256 input)=some input ∧ paddedAES256 input=pkcs7Pad input 16 := by
  refine ⟨fun plaintext out hne hdvd => ?_,stripPadding_pkcs7Pad hpos hmax,fun input => ?_⟩
  · exact stripPadding_some_iff hmax (Nat.le_of_dvd (length_pos_iff.mpr hne) hdvd)
  · rw [paddedAES256_eq]
    exact ⟨stripPadding_pkcs7Pad (by decide) (by decide) input,rfl⟩

/-- For blocks of eight bytes. -/
theorem stripPadding_exact_tripleDES : BlockCipher.tripleDES.blockSize=8 ∧
    ∀ input,stripPadding 8 (pkcs7Pad input 8)=some input :=
  ⟨rfl,(stripPadding_exact (by decide) (by decide)).2.1⟩

end Padding

end Certctl.CmsEnvelope
