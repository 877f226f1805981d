import Certctl.DomainRecords

/-!
# Encrypted configuration at rest

The first layout of a stored secret is what was sealed under one key of the
passphrase; the later two have a marker and the salt of a key of their own in
front. A reader tries the layouts from the latest on and goes on where a
message is not authentic, since an old nonce may begin with a marker.
-/

namespace Certctl.StoredSecrets

open DomainRecords List

abbrev Bytes := List UInt8

abbrev Nonce := {b : Bytes // b.length=12}

abbrev Salt := {b : Bytes // b.length=16}

def v2Magic : UInt8 := 2

def v3Magic : UInt8 := 3

def legacyV1Salt : Bytes := "certctl-config-encryption-v1".toList.map fun ch => ch.toNat.toUInt8

def errEncryptionKeyRequired : GoError :=
  ⟨"crypto: CERTCTL_CONFIG_ENCRYPTION_KEY is required to encrypt or decrypt sensitive config",none⟩

/-- An ideal cipher with the messages that were sealed: it opens nothing else, and what it gave for one of them is not
the end of what it gave for another. -/
structure Gcm (Key : Type) where
  messages : List (Key×Nonce×Bytes)
  sealText : Key×Nonce×Bytes→Bytes
  openText : Key→Nonce→Bytes→Option Bytes
  openText_iff : ∀ key nonce body plaintext,openText key nonce body=some plaintext ↔
    (key,nonce,plaintext)∈messages ∧ sealText (key,nonce,plaintext)=body
  apart : ∀ m∈messages,∀ m'∈messages,sealText m<:+sealText m' → m=m'

variable {Key : Type}

section

variable (pbkdf2 : String×Bytes×ℕ→Key) (gcm : Gcm Key)

def deriveKeyWithSalt (passphrase : String) (salt : Bytes) : Key := pbkdf2 (passphrase,salt,100000)

def deriveKey (passphrase : String) : Key := deriveKeyWithSalt pbkdf2 passphrase legacyV1Salt

def deriveKeyWithSaltV3 (passphrase : String) (salt : Bytes) : Key := pbkdf2 (passphrase,salt,600000)

def encrypt (plaintext : Bytes) (key : Key) (nonce : Nonce) : Bytes := nonce.1++gcm.sealText (key,nonce,plaintext)

def encryptIfKeySet (plaintext : Bytes) (passphrase : String) (salt : Salt) (nonce : Nonce) : Try (Bytes×Bool) :=
  if passphrase="" then .error errEncryptionKeyRequired
  else .ok (v3Magic::salt.1++encrypt gcm plaintext (deriveKeyWithSaltV3 pbkdf2 passphrase salt.1) nonce,true)

def decrypt (ciphertext : Bytes) (key : Key) : Try Bytes :=
  if h : ciphertext.length<12 then .error ⟨"ciphertext too short: "++toString ciphertext.length++" bytes",none⟩
  else
    match gcm.openText key ⟨ciphertext.take 12,length_take_of_le (Nat.not_lt.mp h)⟩ (ciphertext.drop 12) with
    | none => .error ⟨"failed to decrypt: cipher: message authentication failed",none⟩
    | some plaintext => .ok plaintext

/-- Try a layout with a marker and a salt. -/
def openSalted (magic : UInt8) (derive : Bytes→Key) : Bytes→Option Bytes
  | [] => none
  | first::rest =>
    if first=magic ∧ 16+12≤rest.length then
      match decrypt gcm (rest.drop 16) (derive (rest.take 16)) with
      | .ok plaintext => some plaintext
      | .error _ => none
    else none

def decryptIfKeySet (blob : Bytes) (passphrase : String) : Try Bytes :=
  if passphrase="" then .error errEncryptionKeyRequired
  else if blob=[] then .error ⟨"ciphertext is empty",none⟩
  else
    match openSalted gcm v3Magic (deriveKeyWithSaltV3 pbkdf2 passphrase) blob with
    | some plaintext => .ok plaintext
    | none =>
      match openSalted gcm v2Magic (deriveKeyWithSalt pbkdf2 passphrase) blob with
      | some plaintext => .ok plaintext
      | none => decrypt gcm blob (deriveKey pbkdf2 passphrase)

/-- The key and the header of a blob of one of the three layouts. -/
inductive Layout (passphrase : String) : Key→Bytes→Prop where
  | v1 : Layout passphrase (deriveKey pbkdf2 passphrase) []
  | v2 (salt : Salt) : Layout passphrase (deriveKeyWithSalt pbkdf2 passphrase salt.1) (v2Magic::salt.1)
  | v3 (salt : Salt) : Layout passphrase (deriveKeyWithSaltV3 pbkdf2 passphrase salt.1) (v3Magic::salt.1)

/-- A blob is made with a passphrase. -/
def Made (passphrase : String) (plaintext blob : Bytes) : Prop :=
  ∃ key header nonce,Layout pbkdf2 passphrase key header ∧ (key,nonce,plaintext)∈gcm.messages ∧
    header++encrypt gcm plaintext key nonce=blob

end

variable {pbkdf2 : String×Bytes×ℕ→Key} {gcm : Gcm Key} {blob plaintext : Bytes} {passphrase : String}

theorem Layout.key_eq {key : Key} {header : Bytes} (h : Layout pbkdf2 passphrase key header) :
    ∃ rest,key=pbkdf2 (passphrase,rest) := by
  cases h with
  | v1 | v2 | v3 => exact ⟨_,rfl⟩

/-- A blob was made with one passphrase and from one plaintext. -/
theorem made_unique (hkdf : Function.Injective pbkdf2) {passphrase' : String} {plaintext' : Bytes}
    (h : Made pbkdf2 gcm passphrase plaintext blob) (h' : Made pbkdf2 gcm passphrase' plaintext' blob) :
    passphrase=passphrase' ∧ plaintext=plaintext' := by
  obtain ⟨key,header,nonce,hlayout,hmem,hblob⟩ := h
  obtain ⟨key',header',nonce',hlayout',hmem',hblob'⟩ := h'
  have hend : gcm.sealText (key,nonce,plaintext)<:+blob := hblob ▸ (suffix_append _ _).trans (suffix_append _ _)
  have hend' : gcm.sealText (key',nonce',plaintext')<:+blob := hblob' ▸ (suffix_append _ _).trans (suffix_append _ _)
  have hsame : (key,nonce,plaintext)=(key',nonce',plaintext') := by
    rcases suffix_or_suffix_of_suffix hend hend' with h|h
    · exact gcm.apart _ hmem _ hmem' h
    · exact (gcm.apart _ hmem' _ hmem h).symm
  cases hsame
  obtain ⟨rest,rfl⟩ := hlayout.key_eq
  obtain ⟨rest',hkey⟩ := hlayout'.key_eq
  exact ⟨congrArg Prod.fst (hkdf hkey),rfl⟩

theorem decrypt_ok_iff {key : Key} : decrypt gcm blob key=.ok plaintext ↔
    ∃ nonce,(key,nonce,plaintext)∈gcm.messages ∧ encrypt gcm plaintext key nonce=blob := by
  constructor
  · intro h
    unfold decrypt at h
    split at h
    · cases h
    split at h
    · cases h
    rename_i hopen
    cases h
    obtain ⟨hmem,hseal⟩ := (gcm.openText_iff _ _ _ _).mp hopen
    exact ⟨_,hmem,by rw [encrypt,hseal,take_append_drop]⟩
  · rintro ⟨nonce,hmem,rfl⟩
    have hopen := (gcm.openText_iff key nonce _ plaintext).mpr ⟨hmem,rfl⟩
    simp [decrypt,encrypt,take_left' nonce.2,drop_left' nonce.2,hopen,nonce.2]

theorem openSalted_some_iff {magic : UInt8} {derive : Bytes→Key} : openSalted gcm magic derive blob=some plaintext ↔
    ∃ (salt : Salt) (nonce : Nonce),(derive salt.1,nonce,plaintext)∈gcm.messages ∧
      magic::salt.1++encrypt gcm plaintext (derive salt.1) nonce=blob := by
  constructor
  · intro h
    unfold openSalted at h
    split at h
    · cases h
    split_ifs at h with hlong
    obtain ⟨rfl,hlength⟩ := hlong
    split at h
    · rename_i hopen
      cases h
      obtain ⟨nonce,hmem,hrest⟩ := decrypt_ok_iff.mp hopen
      exact ⟨⟨_,length_take_of_le (by omega)⟩,nonce,hmem,by rw [hrest,cons_append,take_append_drop]⟩
    · cases h
  · rintro ⟨salt,nonce,hmem,rfl⟩
    have hopen := decrypt_ok_iff.mpr ⟨nonce,hmem,rfl⟩
    have hlong : 16+12≤(salt.1++encrypt gcm plaintext (derive salt.1) nonce).length := by
      rw [encrypt,length_append,length_append,salt.2,nonce.2]
      omega
    simp only [cons_append,openSalted,hlong,and_self,if_true,take_left' salt.2,drop_left' salt.2,hopen]

theorem made_of_decryptIfKeySet (h : decryptIfKeySet pbkdf2 gcm blob passphrase=.ok plaintext) :
    passphrase≠"" ∧ Made pbkdf2 gcm passphrase plaintext blob := by
  unfold decryptIfKeySet at h
  split_ifs at h with hset
  refine ⟨hset,?_⟩
  split at h
  · rename_i hopen
    cases h
    obtain ⟨salt,nonce,hmem,hblob⟩ := openSalted_some_iff.mp hopen
    exact ⟨_,_,nonce,.v3 salt,hmem,hblob⟩
  split at h
  · rename_i hopen
    cases h
    obtain ⟨salt,nonce,hmem,hblob⟩ := openSalted_some_iff.mp hopen
    exact ⟨_,_,nonce,.v2 salt,hmem,hblob⟩
  obtain ⟨nonce,hmem,hblob⟩ := decrypt_ok_iff.mp h
  exact ⟨_,_,nonce,.v1,hmem,hblob⟩

theorem decryptIfKeySet_of_made (hset : passphrase≠"") (h : Made pbkdf2 gcm passphrase plaintext blob) :
    ∃ plaintext',decryptIfKeySet pbkdf2 gcm blob passphrase=.ok plaintext' := by
  obtain ⟨key,header,nonce,hlayout,hmem,hblob⟩ := h
  have hne : blob≠[] := by
    rintro rfl
    have hnonce := nonce.2
    simp_all [encrypt]
  rw [decryptIfKeySet,if_neg hset,if_neg hne]
  split
  · exact ⟨_,rfl⟩
  rename_i hv3
  split
  · exact ⟨_,rfl⟩
  rename_i hv2
  cases hlayout with
  | v1 => exact ⟨_,decrypt_ok_iff.mpr ⟨nonce,hmem,hblob⟩⟩
  | v2 salt => cases hv2.symm.trans (openSalted_some_iff.mpr ⟨salt,nonce,hmem,hblob⟩)
  | v3 salt => cases hv3.symm.trans (openSalted_some_iff.mpr ⟨salt,nonce,hmem,hblob⟩)

/-- A stored secret opens under the passphrase that it was made with, in whichever layout and whatever its first bytes
are, and under no other; without a passphrase nothing is sealed or opened. -/
theorem decryptIfKeySet_exact (pbkdf2 : String×Bytes×ℕ→Key) (hkdf : Function.Injective pbkdf2) (gcm : Gcm Key)
    (blob plaintext : Bytes) (passphrase : String) :
    (decryptIfKeySet pbkdf2 gcm blob passphrase=.ok plaintext ↔
      passphrase≠"" ∧ Made pbkdf2 gcm passphrase plaintext blob) ∧
    (∀ passphrase' plaintext',Made pbkdf2 gcm passphrase plaintext blob →
      Made pbkdf2 gcm passphrase' plaintext' blob → passphrase=passphrase' ∧ plaintext=plaintext') ∧
    ∀ salt nonce flag,encryptIfKeySet pbkdf2 gcm plaintext passphrase salt nonce=.ok (blob,flag) →
      (deriveKeyWithSaltV3 pbkdf2 passphrase salt.1,nonce,plaintext)∈gcm.messages →
        Made pbkdf2 gcm passphrase plaintext blob := by
  refine ⟨⟨made_of_decryptIfKeySet,fun ⟨hset,hmade⟩ => ?_⟩,fun _ _ => made_unique hkdf,?_⟩
  · obtain ⟨plaintext',hopen⟩ := decryptIfKeySet_of_made hset hmade
    rw [hopen,(made_unique hkdf hmade (made_of_decryptIfKeySet hopen).2).2]
  · intro salt nonce flag hseal hmem
    unfold encryptIfKeySet at hseal
    split_ifs at hseal
    cases hseal
    exact ⟨_,_,nonce,.v3 salt,hmem,rfl⟩

/-- One secret of the first layout, whose nonce begins with the latest marker. -/
def oldSecret (passphrase : String) : Gcm (String×Bytes×ℕ) where
  messages := [((passphrase,legacyV1Salt,100000),⟨replicate 12 v3Magic,rfl⟩,[7])]
  sealText := fun _ => replicate 17 9
  openText := fun key nonce body =>
    if (key,nonce,body)=((passphrase,legacyV1Salt,100000),⟨replicate 12 v3Magic,rfl⟩,replicate 17 9) then some [7] else none
  openText_iff := by
    intro key nonce body plaintext
    split_ifs <;> simp_all [eq_comm]
  apart := by simp

/-- A secret of the first layout that begins like the third. -/
theorem decryptIfKeySet_exact_old :
    decryptIfKeySet id (oldSecret "key") (replicate 12 v3Magic++replicate 17 9) "key"=.ok [7] :=
  (decryptIfKeySet_exact id Function.injective_id (oldSecret "key") _ _ _).1.mpr
    ⟨by decide,_,_,_,.v1,mem_cons_self,rfl⟩

/-- A secret made with the empty passphrase is not opened with it. -/
theorem empty_passphrase_refused :
    Made id (oldSecret "") "" [7] (replicate 12 v3Magic++replicate 17 9) ∧
    decryptIfKeySet id (oldSecret "") (replicate 12 v3Magic++replicate 17 9) ""=.error errEncryptionKeyRequired :=
  ⟨⟨_,_,_,.v1,mem_cons_self,rfl⟩,rfl⟩

end Certctl.StoredSecrets
