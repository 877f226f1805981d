import Certctl.LengthPrefixed
import Certctl.SerialNumberKeys

/-!
# Session cookies

A cookie names a session and a key and carries a tag over both, encoded in
base64. What is signed is written behind its length, so the tag of one pair
is the tag of no other. The decoder of the tag drops line breaks and the
unused low bits of the last character, so several texts carry the same tag;
the one that the encoder writes is the canonical form of all of them.
-/

namespace Certctl.SessionCookies

open DomainRecords SerialNumberKeys
open List

/-- What the service takes from the crypto packages. -/
structure Cryptography where
  /-- HMAC-SHA256 of a text under a key. -/
  hmac : List UInt8→String→List UInt8
  /-- A tag has thirty-two bytes. -/
  hmac_length : ∀ key text,(hmac key text).length=32
  sha256Hex : String→String
  encryptIfKeySet : String→List UInt8→Try (List UInt8)
  decryptIfKeySet : String→List UInt8→Try (List UInt8)
  decrypt_encrypt : ∀ passphrase plaintext blob,encryptIfKeySet passphrase plaintext=.ok blob →
    decryptIfKeySet passphrase blob=.ok plaintext

/-- Encryption of a signing key; without a passphrase it is stored as it is. -/
def encryptKeyMaterial (crypto : Cryptography) (plaintext : List UInt8) (passphrase : String) : Try (List UInt8) :=
  if passphrase="" then .ok plaintext else crypto.encryptIfKeySet passphrase plaintext

def decryptKeyMaterial (crypto : Cryptography) (blob : List UInt8) (passphrase : String) : Try (List UInt8) :=
  if passphrase="" then .ok blob else crypto.decryptIfKeySet passphrase blob

def cookieFormatVersion : String := "v1"

def maxCookieSegmentLen : ℕ := 4096

def hasPrefix (text front : String) : Bool := front.toList.isPrefixOf text.toList

def macInput (sessionID signingKeyID : String) : String :=
  String.ofList (LengthPrefixed.pair sessionID.toList signingKeyID.toList)

def computeHMAC (crypto : Cryptography) (sessionID signingKeyID : String) (hmacKey : List UInt8) : List UInt8 :=
  crypto.hmac hmacKey (macInput sessionID signingKeyID)

def cookieEnding (sessionID signingKeyID : String) (segment : List Char) : String :=
  cookieFormatVersion++"."++sessionID++"."++signingKeyID++"."++String.ofList segment

def cookieText (sessionID signingKeyID : String) (mac : List UInt8) : String :=
  cookieEnding sessionID signingKeyID (Base64Url.encode mac)

def signCookie (crypto : Cryptography) (sessionID signingKeyID : String) (hmacKey : List UInt8) : String :=
  cookieText sessionID signingKeyID (computeHMAC crypto sessionID signingKeyID hmacKey)

/-- The parts of a cookie. -/
structure ParsedCookie where
  sessionID : String
  signingKeyID : String
  hmacBytes : List UInt8
deriving DecidableEq

/-- Position of the first segment over the limit. -/
def overlong (parts : List (List Char)) : Option ℕ :=
  parts.findIdx? fun part => maxCookieSegmentLen<LengthPrefixed.size part

def parseCookie (cookieValue : String) : Try ParsedCookie :=
  if cookieValue="" then .error ⟨"empty cookie",none⟩
  else
    match split '.' cookieValue.toList with
    | [version,sessionID,signingKeyID,mac] =>
      match overlong [version,sessionID,signingKeyID,mac] with
      | some i => .error ⟨"cookie segment "++toString i++" exceeds "++toString maxCookieSegmentLen++"-byte cap",none⟩
      | none =>
        if version≠cookieFormatVersion.toList then .error ⟨"unsupported version prefix",none⟩
        else if sessionID=[] then .error ⟨"session id segment empty",none⟩
        else if "sk-".toList.isPrefixOf signingKeyID=false then .error ⟨"signing key id missing prefix",none⟩
        else
          match Base64Url.decode mac with
          | .error pos => .error ⟨"hmac base64: illegal base64 data at input byte "++toString pos,none⟩
          | .ok bytes =>
            if bytes.length≠32 then .error ⟨"hmac length",none⟩
            else .ok ⟨String.ofList sessionID,String.ofList signingKeyID,bytes⟩
    | _ => .error ⟨"expected 4 segments",none⟩

/-- The cookie with the same parts as the encoder writes it; other texts stay as they are. -/
def canonicalForm (cookieValue : String) : String :=
  match parseCookie cookieValue with
  | .ok p => cookieText p.sessionID p.signingKeyID p.hmacBytes
  | .error _ => cookieValue

variable {sid kid : String}

theorem macInput_injective {sid' kid' : String} (h : macInput sid kid=macInput sid' kid') : sid=sid' ∧ kid=kid' := by
  obtain ⟨hsid,hkid⟩ := LengthPrefixed.pair_injective (String.ofList_inj.mp h)
  exact ⟨String.toList_injective hsid,String.toList_injective hkid⟩

section Segments

/-- A part has no separator. -/
theorem notMem_of_mem_split {sep : Char} {text part : List Char} (h : part∈split sep text) : sep∉part := by
  induction text generalizing part with
  | nil =>
    rw [split,mem_singleton] at h
    rw [h]
    exact not_mem_nil
  | cons ch rest ih =>
    rw [split] at h
    split at h
    · rcases mem_cons.mp h with rfl|hrest
      · exact not_mem_nil
      · exact ih hrest
    rename_i hne
    split at h
    · rw [mem_singleton.mp h,mem_singleton]
      exact fun heq => hne heq.symm
    rename_i first parts hsplit
    rcases mem_cons.mp h with rfl|hrest
    · intro hmem
      rcases mem_cons.mp hmem with heq|hold
      · exact hne heq.symm
      · exact ih (hsplit ▸ mem_cons_self) hold
    · exact ih (hsplit ▸ mem_cons_of_mem first hrest)

theorem utf8Size_of_mem_encode {bs : List UInt8} {ch : Char} (h : ch∈Base64Url.encode bs) : ch.utf8Size=1 := by
  have hall : ∀ v<64,(Base64Url.sextetChar v).utf8Size=1 := by decide
  obtain ⟨v,hv,rfl⟩ := mem_map.mp h
  exact hall v (Base64Url.sextetsOf_lt bs v hv)

theorem length_encode_le (bs : List UInt8) : (Base64Url.encode bs).length≤2*bs.length := by
  rw [Base64Url.encode,length_map]
  fun_induction Base64Url.sextetsOf bs with
  | case1 => exact Nat.zero_le _
  | case2 => exact Nat.le_refl _
  | case3 =>
    simp only [length_cons]
    omega
  | case4 a b c rest ih =>
    simp only [length_cons] at ih ⊢
    omega

theorem size_encode_le (bs : List UInt8) : LengthPrefixed.size (Base64Url.encode bs)≤2*bs.length := by
  have hones : (Base64Url.encode bs).map Char.utf8Size=List.replicate (Base64Url.encode bs).length 1 :=
    map_eq_replicate_iff.mpr fun ch hch => utf8Size_of_mem_encode hch
  have hsum : LengthPrefixed.size (Base64Url.encode bs)=(Base64Url.encode bs).length := by
    rw [LengthPrefixed.size,hones,sum_replicate_nat,Nat.mul_one]
  rw [hsum]
  exact length_encode_le bs

end Segments

/-- Identifiers that a cookie can carry. -/
structure Nameable (sessionID signingKeyID : String) : Prop where
  session_ne : sessionID≠""
  session_dot : '.' ∉ sessionID.toList
  session_size : LengthPrefixed.size sessionID.toList ≤ maxCookieSegmentLen
  key_marked : hasPrefix signingKeyID "sk-"=true
  key_dot : '.' ∉ signingKeyID.toList
  key_size : LengthPrefixed.size signingKeyID.toList ≤ maxCookieSegmentLen

variable {segment : List Char}

theorem split_cookieEnding (h : Nameable sid kid) (hdot : '.' ∉ segment) :
    split '.' (cookieEnding sid kid segment).toList=[cookieFormatVersion.toList,sid.toList,kid.toList,segment] := by
  have htext : (cookieEnding sid kid segment).toList=
      cookieFormatVersion.toList++ '.' :: (sid.toList++ '.' :: (kid.toList++ '.' :: segment)) := by
    simp only [cookieEnding,String.toList_append,String.toList_ofList,append_assoc]
    rfl
  rw [htext,split_append_sep (by decide),split_append_sep h.session_dot,split_append_sep h.key_dot,split_of_notMem hdot]

variable {mac : List UInt8}

/-- A cookie whose last segment decodes to a tag is taken apart. -/
theorem parseCookie_cookieEnding (h : Nameable sid kid) (hdot : '.' ∉ segment)
    (hsize : LengthPrefixed.size segment ≤ maxCookieSegmentLen)
    (hdecode : Base64Url.decode segment=.ok mac) (hmac : mac.length=32) :
    parseCookie (cookieEnding sid kid segment)=.ok ⟨sid,kid,mac⟩ := by
  have hsplit := split_cookieEnding h hdot
  have hne : cookieEnding sid kid segment≠"" := by
    intro heq
    rw [heq] at hsplit
    cases hsplit
  have hsid : sid.toList≠[] := fun heq => h.session_ne (String.toList_eq_nil_iff.mp heq)
  have hshort : overlong [cookieFormatVersion.toList,sid.toList,kid.toList,segment]=none := by
    rw [overlong,findIdx?_eq_none_iff]
    intro part hpart
    simp only [mem_cons,not_mem_nil,or_false] at hpart
    have hcap : LengthPrefixed.size part ≤ maxCookieSegmentLen := by
      rcases hpart with rfl|rfl|rfl|rfl
      · decide
      · exact h.session_size
      · exact h.key_size
      · exact hsize
    exact decide_eq_false (Nat.not_lt.mpr hcap)
  have hmarked : ¬"sk-".toList.isPrefixOf kid.toList=false := by
    rw [show "sk-".toList.isPrefixOf kid.toList=true from h.key_marked]
    decide
  simp only [parseCookie,if_neg hne,hsplit,hshort,ne_eq,not_true_eq_false,if_false,if_neg hsid,if_neg hmarked,hdecode,
    hmac,String.ofList_toList]

theorem parseCookie_cookieText (h : Nameable sid kid) (hmac : mac.length=32) :
    parseCookie (cookieText sid kid mac)=.ok ⟨sid,kid,mac⟩ := by
  have hsize := size_encode_le mac
  rw [hmac] at hsize
  exact parseCookie_cookieEnding h (Base64Url.dot_notMem_encode mac) (hsize.trans (by decide))
    (Base64Url.decode_encode mac) hmac

variable {c : String} {p : ParsedCookie}

/-- The parts of a cookie that was taken apart can be named again. -/
theorem nameable_of_parseCookie (h : parseCookie c=.ok p) :
    Nameable p.sessionID p.signingKeyID ∧ p.hmacBytes.length=32 := by
  unfold parseCookie at h
  split at h
  · cases h
  split at h
  · rename_i version sid kid mac hsplit
    have hmem : ∀ part∈[version,sid,kid,mac],'.' ∉ part := fun part hpart => notMem_of_mem_split (hsplit ▸ hpart)
    split at h
    · cases h
    rename_i hshort
    rw [overlong,findIdx?_eq_none_iff] at hshort
    have hcap : ∀ part∈[version,sid,kid,mac],LengthPrefixed.size part ≤ maxCookieSegmentLen :=
      fun part hpart => Nat.not_lt.mp (of_decide_eq_false (hshort part hpart))
    split at h
    · cases h
    split at h
    · cases h
    rename_i hsid
    split at h
    · cases h
    rename_i hmarked
    split at h
    · cases h
    split at h
    · cases h
    rename_i hlength
    cases h
    have hne : String.ofList sid≠"" := fun heq => hsid (String.ofList_eq_empty_iff.mp heq)
    refine ⟨⟨hne,?_,?_,?_,?_,?_⟩,not_not.mp hlength⟩
    · rw [String.toList_ofList]
      exact hmem sid (by simp)
    · rw [String.toList_ofList]
      exact hcap sid (by simp)
    · have htext : (String.ofList kid).toList=kid := String.toList_ofList
      exact (congrArg ("sk-".toList.isPrefixOf) htext).trans (Bool.eq_true_of_not_eq_false hmarked)
    · rw [String.toList_ofList]
      exact hmem kid (by simp)
    · rw [String.toList_ofList]
      exact hcap kid (by simp)
  · cases h

theorem parseCookie_canonicalForm (h : parseCookie c=.ok p) :
    canonicalForm c=cookieText p.sessionID p.signingKeyID p.hmacBytes ∧ parseCookie (canonicalForm c)=.ok p := by
  obtain ⟨hname,hlength⟩ := nameable_of_parseCookie h
  have hform : canonicalForm c=cookieText p.sessionID p.signingKeyID p.hmacBytes := by rw [canonicalForm,h]
  exact ⟨hform,by rw [hform]; exact parseCookie_cookieText hname hlength⟩

end Certctl.SessionCookies
