import Certctl.SessionLedger

/-!
# Which cookies are accepted

A cookie is accepted if its canonical form is the cookie of a session of the
ledger that is not revoked, has not ended and was used recently, and whose
key is stored and not retired for too long. No other tag verifies, since
what is signed determines the session and the key, and the cookie of a login
under way names no session. A cookie that is not in canonical form was never
handed out, so it is accepted against the rule when its canonical form is.
-/

namespace Certctl.SessionAcceptance

open AtomicProgram Prog DomainRecords RecordTable AuthTables SessionCookies SessionService SessionLedger
open List hiding lookup

/-- The answer of a lookup of a cookie in given tables at a given time. -/
def verdict (svc : SessionServer) (db : AuthDb) (now : Time) (req : ValidateInput) : Try Session :=
  match parseCookie req.cookieValue with
  | .error _ => .error Sentinel.sessionInvalidCookie.error
  | .ok parsed =>
    if hasPrefix parsed.sessionID "ses-"=false then .error Sentinel.sessionInvalidCookie.error
    else
      match lookup SessionSigningKey.id parsed.signingKeyID db.keys with
      | none => .error Sentinel.signingKeyNotFound.error
      | some signingKey =>
        if pastRetention svc now signingKey then .error Sentinel.signingKeyRetired.error
        else
          match decryptKeyMaterial svc.crypto signingKey.keyMaterialEncrypted svc.encryption with
          | .error _ => .error Sentinel.sessionInvalidCookie.error
          | .ok hmacKey =>
            if computeHMAC svc.crypto parsed.sessionID parsed.signingKeyID hmacKey≠parsed.hmacBytes then
              .error Sentinel.sessionInvalidCookie.error
            else
              match lookup Session.id parsed.sessionID db.sessions with
              | none => .error Sentinel.sessionInvalidCookie.error
              | some row => admitRow svc now req row

/-- No operation fails, the clock does not go back, and the service reads a given time from it. -/
def reading (now : Time) : Prog.Allowed store := fun op c db =>
  steady op c db ∧
    match op with
    | .getKey _ => c.now≤now
    | .clockNow => c.now=now
    | _ => True

variable {now : Time}

theorem total_getKey (id : String) {db : AuthDb} (hnow : db.clock≤now) :
    (ask (.getKey id)).Total (reading now) (fun r db' =>
      r=found .sessionSigningKeyNotFound (lookup SessionSigningKey.id id db.keys) ∧ Same db db' ∧ db'.clock≤now) db := by
  refine ⟨⟨{now := now},_,_,⟨⟨hnow,rfl⟩,le_refl _⟩,rfl⟩,fun c r db' hok hperform => ?_⟩
  obtain ⟨rfl,rfl⟩ := answered hok.1.2 hperform
  exact ⟨rfl,same_ticked hok.1.1,hok.2⟩

theorem total_clockNow {db : AuthDb} (hnow : db.clock≤now) :
    (ask .clockNow).Total (reading now) (fun r db' => r=now ∧ Same db db') db := by
  refine ⟨⟨{now := now},_,_,⟨⟨hnow,rfl⟩,rfl⟩,rfl⟩,fun c r db' hok hperform => ?_⟩
  cases hperform
  exact ⟨hok.2,same_ticked hok.1.1⟩

theorem total_getSession (id : String) (db : AuthDb) (now : Time) :
    (ask (.getSession id)).Total (reading now) (fun r _ =>
      r=found .sessionRowNotFound (lookup Session.id id db.sessions)) db := by
  refine ⟨⟨{now := db.clock},_,_,⟨⟨le_refl _,rfl⟩,trivial⟩,rfl⟩,fun c r db' hok hperform => ?_⟩
  obtain ⟨rfl,rfl⟩ := answered hok.1.2 hperform
  rfl

theorem total_validate (svc : SessionServer) (req : ValidateInput) {db : AuthDb} (hnow : db.clock≤now) :
    (validate svc req).Total (reading now) (fun r _ => r=verdict svc db now req) db := by
  unfold validate verdict
  cases parseCookie req.cookieValue with
  | error => rfl
  | ok parsed =>
    dsimp only
    split
    · rfl
    refine total_seq (total_getKey parsed.signingKeyID hnow) fun r db₁ h => ?_
    obtain ⟨rfl,hsame₁,hclock⟩ := h
    cases lookup SessionSigningKey.id parsed.signingKeyID db.keys with
    | none => rfl
    | some signingKey =>
      refine total_seq (total_clockNow hclock) fun t db₂ h => ?_
      obtain ⟨rfl,hsame₂⟩ := h
      dsimp only
      split
      · rfl
      cases decryptKeyMaterial svc.crypto signingKey.keyMaterialEncrypted svc.encryption with
      | error => rfl
      | ok =>
        dsimp only
        split
        · rfl
        refine total_seq (total_getSession parsed.sessionID db₂ _) fun r db₃ h => ?_
        subst h
        rw [hsame₂.sessions,hsame₁.sessions]
        cases lookup Session.id parsed.sessionID db.sessions with
        | none | some => rfl

variable {c : String}

section Acceptance

variable {svc : SessionServer} {db : AuthDb} {log : List Entry}

/-- A row that is found for the parts of a cookie under a key that verifies them. -/
structure Verifies (svc : SessionServer) (db : AuthDb) (now : Time) (parsed : ParsedCookie) (key : SessionSigningKey)
    (hmacKey : List UInt8) (row : Session) : Prop where
  marked : hasPrefix parsed.sessionID "ses-"=true
  stored : lookup SessionSigningKey.id parsed.signingKeyID db.keys=some key
  /-- It was not retired for too long. -/
  retained : pastRetention svc now key=false
  decrypted : decryptKeyMaterial svc.crypto key.keyMaterialEncrypted svc.encryption=.ok hmacKey
  tag : computeHMAC svc.crypto parsed.sessionID parsed.signingKeyID hmacKey=parsed.hmacBytes
  row : lookup Session.id parsed.sessionID db.sessions=some row

variable {req : ValidateInput}

theorem admitRow_eq {row s : Session} (h : admitRow svc now req row=.ok s) : s=row := by
  unfold admitRow at h
  split_ifs at h
  cases h
  rfl

theorem verdict_ok_iff (svc : SessionServer) (db : AuthDb) (now : Time) (req : ValidateInput) (row : Session) :
    verdict svc db now req=.ok row ↔ ∃ parsed key hmacKey,parseCookie req.cookieValue=.ok parsed ∧
      Verifies svc db now parsed key hmacKey row ∧ admitRow svc now req row=.ok row := by
  constructor
  · intro h
    unfold verdict at h
    split at h
    · cases h
    rename_i parsed hparse
    split at h
    · cases h
    rename_i hmarked
    split at h
    · cases h
    rename_i key hkey
    split at h
    · cases h
    rename_i hretained
    split at h
    · cases h
    rename_i hmacKey hdecrypt
    split at h
    · cases h
    rename_i htag
    split at h
    · cases h
    rename_i hrow
    have hfound := admitRow_eq h
    subst hfound
    exact ⟨parsed,key,hmacKey,hparse,⟨Bool.eq_true_of_not_eq_false hmarked,hkey,Bool.eq_false_iff.mpr hretained,
      hdecrypt,not_not.mp htag,hrow⟩,h⟩
  · rintro ⟨parsed,key,hmacKey,hparse,h,halive⟩
    simp only [verdict,hparse,h.marked,h.stored,h.retained,h.decrypted,ne_eq,h.tag,not_true_eq_false,
      Bool.true_eq_false,Bool.false_eq_true,if_false,h.row,halive]

theorem admitRow_ok_iff (hip : svc.cfg.bindIP=false) (hua : svc.cfg.bindUserAgent=false) (now : Time)
    (req : ValidateInput) (row : Session) : admitRow svc now req row=.ok row ↔
      row.revokedAt=none ∧ now<row.absoluteExpiresAt ∧ now<row.lastSeenAt+svc.cfg.idleTimeout := by
  unfold admitRow
  simp only [hip,hua,Bool.false_eq_true,false_and]
  by_cases hrevoked : row.revokedAt=none
  · by_cases habsolute : now<row.absoluteExpiresAt
    · by_cases hidle : now<row.lastSeenAt+svc.cfg.idleTimeout
      · simp only [hrevoked,habsolute,hidle,ne_eq,not_true_eq_false,if_false,and_self]
      · simp [hrevoked,habsolute]
    · simp [hrevoked,habsolute]
  · simp [hrevoked]

/-- An identifier of sixteen bytes behind a mark. -/
def Identifier (front id : String) : Prop := ∃ b : List UInt8,b.length=16 ∧ id=front++String.ofList (Base64Url.encode b)

variable {front id : String}

theorem identifier_of_drawn (h : Drawn front db id) : Identifier front id := by
  obtain ⟨b,-,hlength,hid⟩ := h
  exact ⟨b,hlength,hid⟩

theorem Identifier.toList (h : Identifier front id) :
    ∃ b : List UInt8,b.length=16 ∧ id.toList=front.toList++Base64Url.encode b := by
  obtain ⟨b,hlength,rfl⟩ := h
  exact ⟨b,hlength,by rw [String.toList_append,String.toList_ofList]⟩

theorem Identifier.segment (h : Identifier front id) (hdot : '.' ∉ front.toList)
    (hsize : LengthPrefixed.size front.toList≤64) :
    id≠"" ∧ '.' ∉ id.toList ∧ LengthPrefixed.size id.toList ≤ maxCookieSegmentLen := by
  obtain ⟨b,hlength,hid⟩ := h.toList
  have hencoded : Base64Url.encode b≠[] := by
    rw [Ne,Base64Url.encode_eq_nil_iff]
    intro hnil
    rw [hnil] at hlength
    cases hlength
  have hbytes := size_encode_le b
  refine ⟨?_,?_,?_⟩
  · intro hempty
    rw [hempty] at hid
    exact hencoded (append_eq_nil_iff.mp hid.symm).2
  · rw [hid,mem_append]
    exact not_or.mpr ⟨hdot,Base64Url.dot_notMem_encode b⟩
  · rw [hid,LengthPrefixed.size,map_append,sum_append,maxCookieSegmentLen]
    rw [LengthPrefixed.size] at hsize hbytes
    omega

theorem Identifier.marked (h : Identifier front id) : hasPrefix id front=true := by
  obtain ⟨b,-,hid⟩ := h.toList
  rw [hasPrefix,hid, isPrefixOf_iff_prefix]
  exact ⟨Base64Url.encode b,rfl⟩

variable {sid kid : String}

section

variable (hsid : Identifier front sid) (hdot : '.' ∉ front.toList) (hsize : LengthPrefixed.size front.toList≤64)
  (hkid : Identifier "sk-" kid)
include hsid hdot hsize hkid

theorem nameable : Nameable sid kid := by
  obtain ⟨hne,hsdot,hssize⟩ := hsid.segment hdot hsize
  obtain ⟨-,hkdot,hksize⟩ := hkid.segment (by decide) (by decide)
  exact ⟨hne,hsdot,hssize,hkid.marked,hkdot,hksize⟩

theorem parseCookie_signCookie (hmacKey : List UInt8) :
    parseCookie (signCookie svc.crypto sid kid hmacKey)=.ok ⟨sid,kid,computeHMAC svc.crypto sid kid hmacKey⟩ :=
  parseCookie_cookieText (nameable hsid hdot hsize hkid) (svc.crypto.hmac_length _ _)

end

def handedOut (e : Entry) : Option String :=
  match e.answer with
  | .created result => some result.cookieValue
  | .pending cookieValue _ => some cookieValue
  | _ => none

variable {sessions : List Minted} {m : Minted}

theorem applied_keeps (e : Entry) (hm : m∈sessions) : ∃ m'∈e.applied sessions,m'.result=m.result := by
  unfold Entry.applied
  split
  · exact ⟨m,mem_cons_of_mem _ hm,rfl⟩
  · exact ⟨_,mem_map_of_mem hm,seen_result _ _ m⟩
  · exact ⟨_,mem_map_of_mem hm,revokedIf_result _ m⟩
  · exact ⟨_,mem_map_of_mem hm,revokedIf_result _ m⟩
  · exact ⟨m,hm,rfl⟩

/-- A cookie that was signed for a login under way. -/
def PendingCookie (svc : SessionServer) (cookieValue : String) : Prop :=
  ∃ id kid hmacKey,cookieValue=signCookie svc.crypto id kid hmacKey ∧ Identifier "pl-" id ∧ Identifier "sk-" kid

theorem cookie_of_call {request : SessionCall} {answer : Answer} {db' : AuthDb}
    (hsound : Sound svc sessions db) (hexec : (program svc request).Exec fresh db answer db')
    (hc : handedOut ⟨request,answer,db'.clock⟩=some c) :
    (∃ m∈Entry.applied ⟨request,answer,db'.clock⟩ sessions,m.result.cookieValue=c) ∨ PendingCookie svc c := by
  have hanswer : ∀ {α : Type} {p : Service α} {f : α→Answer},(p.bind fun r => .ret (f r)).Exec fresh db answer db' →
      ∃ r,answer=f r ∧ p.Exec fresh db r db' := by
    intro α p f h
    obtain ⟨r,db₁,hp,hret⟩ := exec_bind.mp h
    obtain ⟨rfl,rfl⟩ := hret
    exact ⟨r,rfl,hp⟩
  have hunit : ∀ r,answer=answerOf r → False := by
    rintro (err|done) rfl
    · cases hc
    · cases hc
  cases request with
  | ensureInitialSigningKey | updateLastSeen | revoke | revokeAllForActor | rotateSigningKey =>
    obtain ⟨r,hr,-⟩ := hanswer hexec
    exact (hunit r hr).elim
  | create =>
    obtain ⟨r,hr,-⟩ := hanswer hexec
    subst hr
    cases r with
    | error => cases hc
    | ok =>
      cases hc
      exact .inl ⟨_,mem_cons_self,rfl⟩
  | createPreLogin =>
    obtain ⟨r,hr,hp⟩ := hanswer hexec
    subst hr
    cases r with
    | error => cases hc
    | ok signed =>
      cases hc
      have hsigned := ((always_iff_exec _ _ _).mp (always_createPreLogin svc db) _ _ hp).2 signed.1 signed.2 rfl
      obtain ⟨k,hk,hmacKey,hcookie,hid⟩ := hsigned
      exact .inr ⟨signed.2,k.id,hmacKey,hcookie,identifier_of_drawn hid,identifier_of_drawn (hsound.keys k hk)⟩
  | garbageCollect =>
    obtain ⟨r,hr,-⟩ := hanswer hexec
    subst hr
    obtain ⟨deleted,stopped⟩ := r
    cases stopped with
    | none | some => cases hc

theorem cookie_of_history (h : History svc log db) {e : Entry} (he : e∈log) (hc : handedOut e=some c) :
    (∃ m∈ledger log,m.result.cookieValue=c) ∨ PendingCookie svc c := by
  induction h with
  | start => exact absurd he not_mem_nil
  | @call log db db' request answer hbefore hexec ih =>
    rcases mem_cons.mp he with rfl|hold
    · exact cookie_of_call (sound_of_history hbefore) hexec hc
    rcases ih hold with ⟨m,hm,hcookie⟩|hpending
    · obtain ⟨m',hm',hresult⟩ := applied_keeps ⟨request,answer,db'.clock⟩ hm
      exact .inl ⟨m',hm',by rw [hresult]; exact hcookie⟩
    · exact .inr hpending

/-- No tag verifies that was not produced for the same bytes: if the tag of a cookie verifies under the stored
key that it names, then some cookie that was handed out carries the tag over the same bytes. -/
def Unforgeable (svc : SessionServer) (log : List Entry) (db : AuthDb) (cookieValue : String) : Prop :=
  ∀ parsed key hmacKey,parseCookie cookieValue=.ok parsed →
    lookup SessionSigningKey.id parsed.signingKeyID db.keys=some key →
    decryptKeyMaterial svc.crypto key.keyMaterialEncrypted svc.encryption=.ok hmacKey →
    computeHMAC svc.crypto parsed.sessionID parsed.signingKeyID hmacKey=parsed.hmacBytes →
      ∃ e∈log,∃ signed original,handedOut e=some signed ∧ parseCookie signed=.ok original ∧
        original.hmacBytes=parsed.hmacBytes ∧
          macInput original.sessionID original.signingKeyID=macInput parsed.sessionID parsed.signingKeyID

/-- The text is the cookie of a session of the ledger that is not revoked, has not ended and was used within the
idle time, and whose key is stored and was not retired for longer than the retention. -/
def Acceptable (svc : SessionServer) (log : List Entry) (db : AuthDb) (now : Time) (cookieValue : String) : Prop :=
  ∃ m∈ledger log,m.result.cookieValue=cookieValue ∧ m.revoked=false ∧ now < m.result.session.absoluteExpiresAt ∧
    now < m.lastSeen+svc.cfg.idleTimeout ∧
      ∃ key,lookup SessionSigningKey.id m.result.session.signingKeyID db.keys=some key ∧ pastRetention svc now key=false

theorem parse_minted (h : Kept svc db m) : ∃ hmacKey,
    parseCookie m.result.cookieValue=.ok ⟨m.result.session.id,m.result.session.signingKeyID,
      computeHMAC svc.crypto m.result.session.id m.result.session.signingKeyID hmacKey⟩ ∧
    m.result.cookieValue=signCookie svc.crypto m.result.session.id m.result.session.signingKeyID hmacKey ∧
    ∀ k∈db.keys,k.id=m.result.session.signingKeyID →
      decryptKeyMaterial svc.crypto k.keyMaterialEncrypted svc.encryption=.ok hmacKey := by
  obtain ⟨hmacKey,hcookie,hverifies⟩ := h.cookie
  have hsid : Identifier "ses-" m.result.session.id := identifier_of_drawn h.session
  refine ⟨hmacKey,?_,hcookie,hverifies⟩
  rw [hcookie]
  exact parseCookie_signCookie hsid (by decide) (by decide) (identifier_of_drawn h.key) hmacKey

theorem PendingCookie.not_marked {parsed : ParsedCookie} (h : PendingCookie svc c)
    (hparse : parseCookie c=.ok parsed) : hasPrefix parsed.sessionID "ses-"=false := by
  obtain ⟨id,kid,hmacKey,rfl,hid,hkid⟩ := h
  rw [parseCookie_signCookie hid (by decide) (by decide) hkid hmacKey] at hparse
  cases hparse
  obtain ⟨b,-,htext⟩ := hid.toList
  rw [hasPrefix,htext]
  rfl

theorem verdict_ok_iff_acceptable (hip : svc.cfg.bindIP=false) (hua : svc.cfg.bindUserAgent=false)
    (h : History svc log db) (hnow : db.clock≤now) (hforge : Unforgeable svc log db req.cookieValue) :
    (∃ s,verdict svc db now req=.ok s) ↔ Acceptable svc log db now (canonicalForm req.cookieValue) := by
  have hsound := sound_of_history h
  constructor
  · rintro ⟨row,hverdict⟩
    obtain ⟨parsed,key,hmacKey,hparse,hverifies,halive⟩ := (verdict_ok_iff svc db now req row).mp hverdict
    rw [admitRow_ok_iff hip hua] at halive
    obtain ⟨hrevoked,habsolute,hidle⟩ := halive
    obtain ⟨e,he,signed,original,hcookie,horiginal,htag,hinput⟩ :=
      hforge parsed key hmacKey hparse hverifies.stored hverifies.decrypted hverifies.tag
    obtain ⟨hsid,hkid⟩ := macInput_injective hinput
    have hsame : original=parsed := by
      obtain ⟨sid,kid,tag⟩ := original
      dsimp only at hsid hkid htag
      rw [hsid,hkid,htag]
    subst hsame
    rcases cookie_of_history h he hcookie with ⟨m,hm,hminted⟩|hpending
    · have hkept := hsound.minted m hm
      obtain ⟨hmacKey',hmparse,hmcookie,-⟩ := parse_minted hkept
      rw [hminted,horiginal] at hmparse
      cases hmparse
      have hrow := hkept.row (some row) hverifies.row
      have hfields := hrow.1
      refine ⟨m,hm,?_,?_,?_,?_,key,hverifies.stored,hverifies.retained⟩
      · rw [(parseCookie_canonicalForm hparse).1]
        exact hmcookie
      · rw [← hrow.2,hrevoked]
        rfl
      · rw [hfields] at habsolute
        exact habsolute
      · rw [hfields] at hidle
        exact hidle
    · have hmarked := hpending.not_marked horiginal
      rw [hverifies.marked] at hmarked
      cases hmarked
  · rintro ⟨m,hm,hcookie,hrevoked,habsolute,hidle,key,hstored,hretained⟩
    have hkept := hsound.minted m hm
    obtain ⟨hmacKey,hmparse,-,hverifies⟩ := parse_minted hkept
    obtain ⟨hkeyMem,hkeyID⟩ := lookup_some hstored
    have hparse : parseCookie req.cookieValue=.ok ⟨m.result.session.id,m.result.session.signingKeyID,
        computeHMAC svc.crypto m.result.session.id m.result.session.signingKeyID hmacKey⟩ := by
      rw [hcookie] at hmparse
      cases hparsed : parseCookie req.cookieValue with
      | error =>
        rw [canonicalForm,hparsed] at hmparse
        rw [← hparsed]
        exact hmparse
      | ok => rw [← (parseCookie_canonicalForm hparsed).2,hmparse]
    cases hlookup : lookup Session.id m.result.session.id db.sessions with
    | none =>
      have hended := hkept.row none hlookup
      exact absurd (lt_of_lt_of_le hended hnow) (not_lt_of_ge habsolute.le)
    | some row =>
      have hrow := hkept.row (some row) hlookup
      have hfields := hrow.1
      have hmarked : hasPrefix m.result.session.id "ses-"=true := (identifier_of_drawn hkept.session).marked
      refine ⟨row,(verdict_ok_iff svc db now req row).mpr ⟨_,key,hmacKey,hparse,
        ⟨hmarked,hstored,hretained,hverifies key hkeyMem hkeyID,rfl,hlookup⟩,?_⟩⟩
      rw [admitRow_ok_iff hip hua]
      refine ⟨?_,?_,?_⟩
      · have hnone := hrow.2
        rw [hrevoked] at hnone
        exact Option.isSome_eq_false_iff.mp hnone |> Option.isNone_iff_eq_none.mp
      · rw [hfields]
        exact habsolute
      · rw [hfields]
        exact hidle

theorem Acceptable.canonical (h : History svc log db) (hc : Acceptable svc log db now c) : canonicalForm c=c := by
  obtain ⟨m,hm,rfl,-⟩ := hc
  obtain ⟨hmacKey,hparse,hcookie,-⟩ := parse_minted ((sound_of_history h).minted m hm)
  rw [canonicalForm,hparse]
  exact hcookie.symm

/-- At every time after a run, with the bindings off, a cookie is accepted exactly if it was handed out for a
session that is not revoked, has not ended and was used within the idle time, and whose key is stored and not
retired for too long, unless the cookie is not in canonical form and its canonical form is acceptable. -/
theorem validate_exact_iff_canonical (hip : svc.cfg.bindIP=false) (hua : svc.cfg.bindUserAgent=false)
    (h : History svc log db) {now : Time} (hnow : db.clock≤now) (req : ValidateInput)
    (hforge : Unforgeable svc log db req.cookieValue) :
    (validate svc req).Total (reading now) (fun r _ =>
      ((∃ s,r=.ok s) ↔ Acceptable svc log db now req.cookieValue) ↔
        (canonicalForm req.cookieValue=req.cookieValue ∨
          ¬Acceptable svc log db now (canonicalForm req.cookieValue))) db := by
  refine (total_validate svc req hnow).mono fun r _ hr => ?_
  subst hr
  rw [verdict_ok_iff_acceptable hip hua h hnow hforge]
  by_cases hform : canonicalForm req.cookieValue=req.cookieValue
  · rw [hform]
    exact ⟨fun _ => .inl rfl,fun _ => Iff.rfl⟩
  have hnot : ¬Acceptable svc log db now req.cookieValue := fun hacc => hform (hacc.canonical h)
  constructor
  · exact fun hexact => .inr fun hacc => hnot (hexact.mp hacc)
  · rintro (hcanonical|hcanonical)
    · exact absurd hcanonical hform
    · exact ⟨fun hacc => absurd hacc hcanonical,fun hacc => absurd hacc hnot⟩

end Acceptance

section Sample

def hexByte (b : UInt8) : List Char := [Nat.digitChar (b.toNat/16),Nat.digitChar (b.toNat%16)]

/-- Simple functions in the place of the crypto packages: a tag is the start of what is signed, and the hash of a
token shows its bytes. -/
def sampleCrypto : Cryptography where
  hmac _ text := ((text.toList.map fun (ch : Char) => UInt8.ofNat ch.toNat)++List.replicate 32 0).take 32
  hmac_length _ text := by
    rw [length_take,length_append,length_replicate]
    omega
  sha256Hex token :=
    match Base64Url.decode token.toList with
    | .ok bytes => String.ofList (bytes.flatMap hexByte)
    | .error _ => ""
  encryptIfKeySet _ plaintext := .ok plaintext
  decryptIfKeySet _ blob := .ok blob
  decrypt_encrypt _ plaintext blob h := by
    cases h
    rfl

def sampleServer : SessionServer where
  crypto := sampleCrypto
  tenantID := defaultTenantID
  cfg := ⟨3600*second,8*3600*second,24*3600*second,false,false⟩
  encryption := "passphrase"
  named := by decide

def emptyDb : AuthDb := ⟨[],[],[],0,[],[]⟩

def sampleKey : SessionSigningKey :=
  ⟨"sk-"++String.ofList (Base64Url.encode (List.replicate 16 1)),defaultTenantID,List.replicate 32 2,0,none⟩

def keyedDb : AuthDb := ⟨[],[sampleKey],[],0,[List.replicate 32 2,List.replicate 16 1],[]⟩

def bootChoices : List Choice := [{},{random := List.replicate 16 1},{random := List.replicate 32 2},{}]

def createChoices : List Choice := [{},{random := List.replicate 16 3},{random := List.replicate 32 4},{},{}]

def sampleSession : Session where
  id := "ses-"++String.ofList (Base64Url.encode (List.replicate 16 3))
  actorID := "alice"
  actorType := "User"
  signingKeyID := sampleKey.id
  isPreLogin := false
  csrfTokenHash := String.ofList ((List.replicate 32 4).flatMap hexByte)
  idleExpiresAt := 3600*second
  absoluteExpiresAt := 8*3600*second
  createdAt := 0
  lastSeenAt := 0
  ipAddress := ""
  userAgent := ""
  revokedAt := none
  tenantID := defaultTenantID

def sampleResult : CreateResult :=
  ⟨sampleSession,signCookie sampleCrypto sampleSession.id sampleKey.id (List.replicate 32 2),
    String.ofList (Base64Url.encode (List.replicate 32 4))⟩

def sessionDb : AuthDb :=
  ⟨[sampleSession],[sampleKey],[],0,
    [List.replicate 32 4,List.replicate 16 3,List.replicate 32 2,List.replicate 16 1],[]⟩

def sampleLog : List Entry :=
  [⟨.create "alice" "User" "" "",.created sampleResult,0⟩,⟨.ensureInitialSigningKey,.done,0⟩]

theorem sample_history : History sampleServer sampleLog sessionDb := by
  have hboot : (program sampleServer .ensureInitialSigningKey).Exec fresh emptyDb .done keyedDb :=
    exec_of_runAllowed (show Prog.runAllowed fresh _ bootChoices _=some (Answer.done,keyedDb) by rfl)
  have hcreate : (program sampleServer (.create "alice" "User" "" "")).Exec fresh keyedDb (.created sampleResult) sessionDb :=
    exec_of_runAllowed (show Prog.runAllowed fresh _ createChoices _=some (Answer.created sampleResult,sessionDb) by rfl)
  exact (History.start rfl rfl).call hboot |>.call hcreate

/-- A key and a session are made. -/
theorem table_refines_ledger_sample : (ledger sampleLog).length=1 ∧
    ∀ row∈sessionDb.sessions,∃ m∈ledger sampleLog,m.result.session.id=row.id :=
  ⟨rfl,(table_refines_ledger sample_history).2.1⟩

/-- The last segment of the cookie with another last character, of which only the unused bits differ. -/
def alteredSegment : List Char := "MjY6c2VzLUF3TURBd01EQXdNREF3TURBd01EQXc6MjV".toList

def alteredCookie : String := cookieEnding sampleSession.id sampleKey.id alteredSegment

theorem sample_unforgeable (hc : parseCookie c=parseCookie sampleResult.cookieValue) :
    Unforgeable sampleServer sampleLog sessionDb c := by
  intro parsed key hmacKey hparse _ _ _
  exact ⟨_,mem_cons_self,sampleResult.cookieValue,parsed,rfl,hc.symm.trans hparse,rfl,rfl⟩

@[irreducible] def sampleRequest : ValidateInput := ⟨sampleResult.cookieValue,"",""⟩

@[irreducible] def alteredRequest : ValidateInput := ⟨alteredCookie,"",""⟩

/-- The cookie that was handed out. -/
theorem validate_exact_iff_canonical_sample :
    History sampleServer sampleLog sessionDb ∧ Unforgeable sampleServer sampleLog sessionDb sampleRequest.cookieValue ∧
      (validate sampleServer sampleRequest).Total (reading 0) (fun r _ =>
        ((∃ s,r=.ok s) ↔ Acceptable sampleServer sampleLog sessionDb 0 sampleRequest.cookieValue) ↔
          (canonicalForm sampleRequest.cookieValue=sampleRequest.cookieValue ∨
            ¬Acceptable sampleServer sampleLog sessionDb 0 (canonicalForm sampleRequest.cookieValue))) sessionDb := by
  have hforge : Unforgeable sampleServer sampleLog sessionDb sampleRequest.cookieValue := by
    rw [sampleRequest]
    exact sample_unforgeable rfl
  have hnow : sessionDb.clock≤0 := by decide
  exact ⟨sample_history,hforge,validate_exact_iff_canonical rfl rfl sample_history hnow sampleRequest hforge⟩

theorem parse_altered : parseCookie alteredCookie=parseCookie sampleResult.cookieValue := by
  have hsid : Identifier "ses-" sampleSession.id := ⟨List.replicate 16 3,rfl,rfl⟩
  have hname := nameable hsid (by decide) (by decide) (⟨List.replicate 16 1,rfl,rfl⟩ : Identifier "sk-" sampleKey.id)
  have hdecode : Base64Url.decode alteredSegment=
      .ok (computeHMAC sampleCrypto sampleSession.id sampleKey.id (List.replicate 32 2)) := by decide +kernel
  have halter := parseCookie_cookieEnding hname (by decide +kernel) (by decide +kernel) hdecode (sampleCrypto.hmac_length _ _)
  exact halter.trans (parseCookie_cookieText hname (sampleCrypto.hmac_length _ _)).symm

/-- The altered cookie is accepted, although it was never handed out. -/
theorem altered_cookie_accepted :
    History sampleServer sampleLog sessionDb ∧ Unforgeable sampleServer sampleLog sessionDb alteredRequest.cookieValue ∧
      (∃ db',(validate sampleServer alteredRequest).Exec (reading 0) sessionDb (.ok sampleSession) db') ∧
        ¬Acceptable sampleServer sampleLog sessionDb 0 alteredRequest.cookieValue := by
  have hverdict : verdict sampleServer sessionDb 0 alteredRequest=.ok sampleSession := by decide +kernel
  have hnow : sessionDb.clock≤0 := by decide
  refine ⟨sample_history,?_,?_,?_⟩
  · rw [alteredRequest]
    exact sample_unforgeable parse_altered
  · obtain ⟨r,db',hexec,hr⟩ := (total_validate sampleServer alteredRequest hnow).exists_exec
    rw [hr,hverdict] at hexec
    exact ⟨db',hexec⟩
  · rintro ⟨m,hm,hcookie,-⟩
    cases mem_singleton.mp hm
    exact absurd hcookie (by decide +kernel)

end Sample

end Certctl.SessionAcceptance
