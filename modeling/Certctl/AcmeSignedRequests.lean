import Certctl.AcmeChallenges

/-!
# Signed requests of the ACME server

Verification of a signed request: its header is checked, its nonce is
redeemed, the key is taken from the account that the header names or from
the header itself, and the signature is checked under that key. A request
reads and writes the store at two points only, the redemption and the
account lookup, and any number of requests, nonce issues, sweeps and account
updates may run in between. Parsing and the check of signatures are given
functions.
-/

namespace Certctl.AcmeSignedRequests

open AtomicProgram Prog AtomicInterleaving ControlPlaneTables ControlPlaneStore DomainRecords RecordTable
open List hiding lookup
open AcmeServerStore

variable {Key ι : Type}

/-- The value of a header field. -/
inductive HeaderValue where
  | text (s : String)
  | null
  /-- Anything else, as it is printed. -/
  | other (shown : String)
deriving DecidableEq

/-- The protected header of a signature. -/
structure SignatureHeader (Key : Type) where
  algorithm : String
  /-- Header fields that the library does not know. -/
  extraHeaders : List (String×HeaderValue)
  nonce : String
  /-- The account, empty if absent. -/
  keyID : String
  jsonWebKey : Option Key

/-- A parsed signed message. -/
structure SignedMessage (Key : Type) where
  signatures : List (SignatureHeader Key)
  payload : String

/-- The given functions on signed messages and keys. -/
structure Jose (Key : Type) where
  parseSigned : String→Try (SignedMessage Key)
  /-- Check a signature under a key and return the payload. -/
  verify : SignedMessage Key→Key→Try String
  valid : Key→Bool
  /-- The key that an account row stores. -/
  parseJWKFromPEM : String→Try Key
  quote : String→String

/-- A request as it reaches the server. -/
structure SignedRequest where
  tls : Bool := true
  host : String
  path : String
  /-- The profile in the path, empty for the short paths. -/
  profileID : String
  body : String

/-- What verification hands over. -/
structure VerifiedRequest (Key : Type) where
  payload : String
  algorithm : String
  url : String
  nonce : String
  /-- The account that signed, if the header names one. -/
  account : Option Account
  /-- The key that signed, if the header embeds one. -/
  jwk : Option Key

def SignedRequest.origin (req : SignedRequest) : String := (if req.tls then "https" else "http")++"://"++req.host

def SignedRequest.requestURL (req : SignedRequest) : String := req.origin++req.path

def SignedRequest.accountKID (req : SignedRequest) (accountID : String) : String :=
  req.origin++(if req.profileID≠"" then "/acme/profile/"++req.profileID else "/acme")++"/account/"++accountID

def allowedSignatureAlgorithms : List String := ["RS256","ES256","EdDSA"]

/-- A text field of the header; an absent field is empty. -/
def extractStringHeader (extra : List (String×HeaderValue)) (name : String) : Try String :=
  match List.lookup name extra with
  | none => .ok ""
  | some (.text s) => .ok s
  | some .null => .error ⟨"acme jws: header is not a string",none⟩
  | some (.other _) => .error ⟨"acme jws: header is not a string",none⟩

/-- The media type field is absent or right. -/
def checkType (jose : Jose Key) (extra : List (String×HeaderValue)) : Try Unit :=
  match List.lookup "typ" extra with
  | none => .ok ()
  | some .null => .ok ()
  | some (.text s) =>
    if s≠"application/jose+json" ∧ s≠"" then .error (Sentinel.jwsWrongType.because ("got "++jose.quote s)) else .ok ()
  | some (.other shown) => .error (Sentinel.jwsWrongType.because ("got "++jose.quote shown))

def checkURL (jose : Jose Key) (requestURL : String) (extra : List (String×HeaderValue)) : Try Unit :=
  match extractStringHeader extra "url" with
  | .error _ => .error Sentinel.jwsMissingURL.error
  | .ok url =>
    if url="" then .error Sentinel.jwsMissingURL.error
    else if url≠requestURL then
      .error (Sentinel.jwsURLMismatch.because ("header="++jose.quote url++" request="++jose.quote requestURL))
    else .ok ()

def checkHeader (jose : Jose Key) (req : SignedRequest) : Try (SignedMessage Key×SignatureHeader Key) :=
  match jose.parseSigned req.body with
  | .error err => .error (Sentinel.jwsMalformed.because err.text)
  | .ok jws =>
    match jws.signatures with
    | [sig] =>
      if sig.algorithm∉allowedSignatureAlgorithms then .error (Sentinel.jwsAlgorithmRejected.because sig.algorithm)
      else
        match checkType jose sig.extraHeaders,checkURL jose req.requestURL sig.extraHeaders with
        | .error err,_ => .error err
        | .ok _,.error err => .error err
        | .ok _,.ok _ => if sig.nonce="" then .error Sentinel.jwsMissingNonce.error else .ok (jws,sig)
    | _ => .error (Sentinel.jwsMalformed.because "multi-signature JWS rejected")

/-- How the key of a request is found. -/
inductive KeySource (Key : Type) where
  /-- From the account that the header names. -/
  | kid (kid : String)
  | jwk (key : Key)

/-- The header names an account or embeds a key, as the endpoint demands. -/
def keySource (expectNewAccount : Bool) (sig : SignatureHeader Key) : Try (KeySource Key) :=
  match sig.jsonWebKey with
  | some key =>
    if sig.keyID≠"" then .error Sentinel.jwsBothKidAndJWK.error
    else if expectNewAccount then .ok (.jwk key)
    else .error Sentinel.jwsExpectKidGotJWK.error
  | none =>
    if sig.keyID="" then .error Sentinel.jwsNeitherKidNorJWK.error
    else if expectNewAccount then .error Sentinel.jwsExpectJWKGotKid.error
    else .ok (.kid sig.keyID)

/-- What follows the last occurrence of a text. -/
def afterLast (sep : List Char) : List Char→Option (List Char)
  | [] => none
  | ch::rest =>
    match afterLast sep rest with
    | some found => some found
    | none => if sep.isPrefixOf (ch::rest) then some ((ch::rest).drop sep.length) else none

/-- The account that a header names, if the name is the URL that the server gave out. -/
def accountIDFromKID (accountKID : String→String) (kid : String) : Try String :=
  match afterLast "/account/".toList kid.toList with
  | none => .error (Sentinel.jwsMalformed.because "kid does not match expected /account/<id> shape")
  | some id =>
    let accountID := String.ofList id
    if accountID="" then .error (Sentinel.jwsMalformed.because "kid has empty account id")
    else if accountKID accountID≠kid then .error (Sentinel.jwsMalformed.because "kid does not match canonical URL")
    else .ok accountID

def verifySignature (jose : Jose Key) (jws : SignedMessage Key) (key : Key) : Try String :=
  match jose.verify jws key with
  | .error err => .error (Sentinel.jwsSignatureInvalid.because err.text)
  | .ok payload => if payload≠jws.payload then .error Sentinel.jwsPayloadMismatch.error else .ok payload

def accountSigningKey (jose : Jose Key) (acct : Account) : Try Key :=
  if acct.status≠.valid then .error (Sentinel.jwsAccountInactive.because ("status="++acct.status.text))
  else
    match jose.parseJWKFromPEM acct.jwkPEM with
    | .error err => .error (Sentinel.jwsInvalidJWK.because err.text)
    | .ok key => .ok key

/-- A request that passed: by the account that was looked up, or by an embedded key. -/
def verifiedBy (jose : Jose Key) (req : SignedRequest) (jws : SignedMessage Key) (sig : SignatureHeader Key)
    (signer : Try Key) (account : Option Account) (jwk : Option Key) :
    Try (VerifiedRequest Key) :=
  match signer with
  | .error err => .error err
  | .ok key =>
    match verifySignature jose jws key with
    | .error err => .error err
    | .ok payload => .ok ⟨payload,sig.algorithm,req.requestURL,sig.nonce,account,jwk⟩

def lookupSigner (accountID : String) : Acme (Try Account) := do
  match ← acme (.getAccountByID accountID) with
  | .error err =>
    if err.is .notFound then raise Sentinel.jwsAccountNotFound.error
    else raise (err.wrapped "acme: lookup account: ")
  | .ok acct => pure (.ok acct)

/-- Find the key of a request whose nonce is redeemed, and check the signature. -/
def verifyRedeemed (jose : Jose Key) (req : SignedRequest) (expectNewAccount : Bool) (jws : SignedMessage Key)
    (sig : SignatureHeader Key) : Acme (Try (VerifiedRequest Key)) :=
  match keySource expectNewAccount sig with
  | .error err => raise err
  | .ok (.kid kid) =>
    match accountIDFromKID req.accountKID kid with
    | .error err => raise err
    | .ok accountID => do
      match ← lookupSigner accountID with
      | .error err => raise err
      | .ok acct => pure (verifiedBy jose req jws sig (accountSigningKey jose acct) (some acct) none)
  | .ok (.jwk key) =>
    pure (verifiedBy jose req jws sig (if !jose.valid key then .error Sentinel.jwsInvalidJWK.error else .ok key)
      none (some key))

def verifyJWS (jose : Jose Key) (req : SignedRequest) (expectNewAccount : Bool) : Acme (Try (VerifiedRequest Key)) :=
  match checkHeader jose req with
  | .error err => raise err
  | .ok (jws,sig) => do
    match ← acme (.consumeNonce sig.nonce) with
    | .error err => raise (Sentinel.jwsBadNonce.because err.text)
    | .ok _ => verifyRedeemed jose req expectNewAccount jws sig

def issueNonce (nonceTTL : Time) : Acme (Try String) := do
  let nonce ← service randIDSuffix
  match ← acme (.issueNonce nonce nonceTTL) with
  | .error err => raise (err.wrapped "acme: persist nonce: ")
  | .ok _ => pure (.ok nonce)

variable {s : AcmeState}

section Nonces

/-- The nonce that an operation has stored, with its lifetime. -/
def issuedNonce : acmeServer.Obs (Option (String×Time))
  | .inr (.issueNonce nonce ttl),.ok _ => some (nonce,ttl)
  | _,_ => none

def consumedNonce : acmeServer.Obs (Option String)
  | .inr (.consumeNonce nonce),.ok _ => some nonce
  | _,_ => none

variable {c : Choice} {s' : AcmeState}

theorem applyAcmeWrites_nonces {writes : List AcmeWrite}
    (h : applyAcmeWrites c s writes=.ok s') : s'.2.nonces=s.2.nonces := by
  refine applyAcmeWrites_keeps (P := fun b => b.2.nonces=s.2.nonces) ?_ rfl h
  intro w _ a b ha hw
  obtain ⟨-,rfl⟩ := applyAcmeWrite_ok hw
  cases w with
  | _ => exact ha

variable {op : acmeServer.Op} {r : acmeServer.Res op}

/-- What one operation does to the nonces: it stores one, redeems one, or does neither and at most
deletes some. -/
theorem nonces_step (h : acmeServer.perform op c s=some (r,s')) :
    (∃ nonce ttl,issuedNonce op r=some (nonce,ttl) ∧ consumedNonce op r=none ∧
      s'.2.nonces=s.2.nonces++[⟨nonce,c.now+ttl,false⟩]) ∨
    (∃ nonce,issuedNonce op r=none ∧ consumedNonce op r=some nonce ∧
      (∃ row∈s.2.nonces,row.nonce=nonce ∧ redeemable c.now row=true) ∧
      s'.2.nonces=s.2.nonces.map (redeemedRow nonce c.now)) ∨
    (issuedNonce op r=none ∧ consumedNonce op r=none ∧ s'.2.nonces.Sublist s.2.nonces) := by
  cases op with
  | inl =>
    obtain ⟨-,htables⟩ := effect_of_acme h
    refine .inr (.inr ⟨rfl,rfl,?_⟩)
    rw [htables]
  | inr op =>
    have heffect := acmeEffect_of_perform h
    cases op with
    | issueNonce nonce ttl =>
      cases r with
      | error =>
        rw [fallible_error heffect]
        exact .inr (.inr ⟨rfl,rfl,List.Sublist.refl _⟩)
      | ok =>
        have hout := (fallible_ok heffect).2
        split at hout
        · cases hout
        cases hout
        exact .inl ⟨nonce,ttl,rfl,rfl,rfl⟩
    | consumeNonce nonce =>
      cases r with
      | error =>
        rw [fallible_error heffect]
        exact .inr (.inr ⟨rfl,rfl,List.Sublist.refl _⟩)
      | ok =>
        have hout := (fallible_ok heffect).2
        split at hout
        · rename_i hany
          cases hout
          obtain ⟨row,hrow,hboth⟩ := any_eq_true.mp hany
          rw [Bool.and_eq_true,decide_eq_true_eq] at hboth
          exact .inr (.inl ⟨nonce,rfl,rfl,⟨row,hrow,hboth⟩,rfl⟩)
        · cases hout
    | gcExpiredNonces =>
      refine .inr (.inr ⟨rfl,rfl,?_⟩)
      rcases fallible_cases heffect with ⟨-,rfl⟩|⟨err,-,rfl⟩
      · exact filter_sublist
      · exact List.Sublist.refl _
    | acmeTx =>
      refine .inr (.inr ⟨rfl,rfl,?_⟩)
      cases r with
      | error => rw [fallible_error heffect]
      | ok => rw [applyAcmeWrites_nonces (acmeTx_ok heffect).2]
    | gcExpireAuthorizations | gcInvalidateExpiredOrders =>
      refine .inr (.inr ⟨rfl,rfl,?_⟩)
      rcases fallible_cases heffect with ⟨-,rfl⟩|⟨err,-,rfl⟩ <;> exact List.Sublist.refl _
    | _ =>
      rw [acmeEffect_reads heffect trivial]
      exact .inr (.inr ⟨rfl,rfl,List.Sublist.refl _⟩)

def redemptions (nonce : String) : acmeServer.Obs ℕ := fun op r => if consumedNonce op r=some nonce then 1 else 0

def issuances (nonce : String) : acmeServer.Obs ℕ := fun op r =>
  if (issuedNonce op r).map Prod.fst=some nonce then 1 else 0

def unredeemed (nonce : String) (row : NonceRow) : Bool := decide (row.nonce=nonce) && !row.used

def outstanding (nonce : String) (s : AcmeState) : ℕ := s.2.nonces.countP (unredeemed nonce)

variable {nonce : String} {now : Time}

theorem unredeemed_redeemedRow {nonce' : String} {row : NonceRow}
    (h : unredeemed nonce (redeemedRow nonce' now row)=true) : unredeemed nonce row=true := by
  unfold redeemedRow at h
  split at h
  · simp only [unredeemed,Bool.not_true,Bool.and_false,Bool.false_eq_true] at h
  · exact h

theorem outstanding_map_le (nonce nonce' : String) (now : Time) (rows : List NonceRow) :
    (rows.map (redeemedRow nonce' now)).countP (unredeemed nonce)≤rows.countP (unredeemed nonce) := by
  rw [countP_map]
  exact countP_mono_left fun row _ hrow => unredeemed_redeemedRow hrow

theorem outstanding_map_redeemedRow {rows : List NonceRow} (h : ∃ row∈rows,row.nonce=nonce ∧ redeemable now row=true) :
    (rows.map (redeemedRow nonce now)).countP (unredeemed nonce)+1≤rows.countP (unredeemed nonce) := by
  induction rows with
  | nil =>
    obtain ⟨row,hrow,-⟩ := h
    cases hrow
  | cons row rest ih =>
    rw [map_cons,countP_cons,countP_cons]
    by_cases hhit : row.nonce=nonce ∧ redeemable now row=true
    · have hused : unredeemed nonce (redeemedRow nonce now row)=false := by
        rw [redeemedRow,if_pos hhit]
        exact Bool.and_false _
      have hlive : unredeemed nonce row=true := by
        have hfree := hhit.2
        rw [redeemable,Bool.and_eq_true] at hfree
        rw [unredeemed,hfree.1,hhit.1,Bool.and_true]
        exact decide_eq_true rfl
      rw [hused,hlive]
      have hrest := outstanding_map_le nonce nonce now rest
      simp only [Bool.false_eq_true,if_false,if_true]
      omega
    · have hrest : ∃ row∈rest,row.nonce=nonce ∧ redeemable now row=true := by
        obtain ⟨old,hold,hboth⟩ := h
        rcases mem_cons.mp hold with rfl|hmem
        · exact absurd hboth hhit
        · exact ⟨old,hmem,hboth⟩
      have hcount := ih hrest
      rw [redeemedRow,if_neg hhit]
      omega

theorem nonce_balance (nonce : String) (h : acmeServer.perform op c s=some (r,s')) :
    redemptions nonce op r+outstanding nonce s' ≤ issuances nonce op r+outstanding nonce s := by
  rcases nonces_step h with ⟨n,ttl,hissued,hconsumed,hrows⟩|⟨n,hissued,hconsumed,hfound,hrows⟩|
    ⟨hissued,hconsumed,hrows⟩
  · simp only [redemptions,issuances,outstanding,hissued,hconsumed,hrows,countP_append,countP_singleton,
      Option.map_some,Option.some.injEq,reduceCtorEq,if_false,unredeemed,Bool.not_false,Bool.and_true,
      decide_eq_true_eq]
    omega
  · by_cases hn : n=nonce
    · subst hn
      have hpaid := outstanding_map_redeemedRow hfound
      simp only [redemptions,outstanding,hconsumed,hrows,if_true]
      omega
    have hle := outstanding_map_le nonce n c.now s.2.nonces
    have hother : ¬some n=some nonce := fun he => hn (Option.some.inj he)
    simp only [redemptions,outstanding,hconsumed,hrows,if_neg hother]
    omega
  · have hle : s'.2.nonces.countP (unredeemed nonce) ≤ s.2.nonces.countP (unredeemed nonce) := hrows.countP_le
    simp only [redemptions,outstanding,hconsumed,reduceCtorEq,if_false]
    omega

variable {α : Type} [DecidableEq ι] {ok : StepCondition acmeServer ι α} {pool : ι→Acme α} {cfg : Config acmeServer ι α}

/-- In every run the redemptions of a nonce, with the rows of it that are left, are paid for by the rows at the start
and those stored since. -/
theorem nonce_supply (nonce : String) (hreach : Reach ok (initial pool s) cfg) :
    weight (redemptions nonce) cfg.log+outstanding nonce cfg.state≤
      weight (issuances nonce) cfg.log+outstanding nonce s := by
  refine reach_invariant (I := fun b : Config acmeServer ι α =>
    weight (redemptions nonce) b.log+outstanding nonce b.state≤
      weight (issuances nonce) b.log+outstanding nonce s) ?_ ?_ hreach
  · simp only [initial,weight_nil,le_refl]
  rintro a _ ha ⟨hthread,hok,hperform⟩
  have hstep := nonce_balance nonce hperform
  simp only [Config.advance,weight_cons]
  omega

theorem exists_issue_moment (hstart : s.2.nonces=[]) (hreach : Reach ok (initial pool s) cfg) :
    ∀ row∈cfg.state.2.nonces,∃ a t op c r s' ttl,Moment ok (initial pool s) cfg a t op c r s' ∧
      issuedNonce op r=some (row.nonce,ttl) ∧ row.expiresAt=c.now+ttl := by
  induction hreach with
  | refl =>
    intro row hrow
    have hnone : row∈s.2.nonces := hrow
    rw [hstart] at hnone
    cases hnone
  | @tail b b' hbefore hlast ih =>
    have hold : ∀ old∈b.state.2.nonces,∃ a t op c r s' ttl,Moment ok (initial pool s) b' a t op c r s' ∧
        issuedNonce op r=some (old.nonce,ttl) ∧ old.expiresAt=c.now+ttl := by
      intro old hmem
      obtain ⟨a,t,op,c,r,s',ttl,hmoment,hrest⟩ := ih old hmem
      exact ⟨a,t,op,c,r,s',ttl,hmoment.later (Relation.ReflTransGen.single hlast),hrest⟩
    intro row hrow
    obtain ⟨hthread,hok,hperform⟩ := hlast
    rename_i t op k c r s'
    have hrow : row∈s'.2.nonces := hrow
    rcases nonces_step hperform with ⟨n,ttl,hissued,-,hrows⟩|⟨n,-,-,-,hrows⟩|⟨-,-,hrows⟩
    · rw [hrows] at hrow
      rcases mem_append_row.mp hrow with hmem|rfl
      · exact hold row hmem
      · exact ⟨b,t,op,c,r,s',ttl,⟨hbefore,hok,hperform,k,hthread,Relation.ReflTransGen.refl⟩,hissued,rfl⟩
    · rw [hrows] at hrow
      obtain ⟨old,hmem,rfl⟩ := mem_map.mp hrow
      have hsame : (redeemedRow n c.now old).nonce=old.nonce ∧ (redeemedRow n c.now old).expiresAt=old.expiresAt := by
        unfold redeemedRow
        split <;> exact ⟨rfl,rfl⟩
      rw [hsame.1,hsame.2]
      exact hold old hmem
    · exact hold row (hrows.subset hrow)

end Nonces

variable {jose : Jose Key} {req : SignedRequest} {v : VerifiedRequest Key} {expectNewAccount : Bool}

section Verification

/-- The header passes every check. -/
structure HeaderChecked (jose : Jose Key) (req : SignedRequest) (jws : SignedMessage Key) (sig : SignatureHeader Key) :
    Prop where
  parsed : jose.parseSigned req.body=.ok jws
  single : jws.signatures=[sig]
  algorithm : sig.algorithm∈allowedSignatureAlgorithms
  url : List.lookup "url" sig.extraHeaders=some (.text req.requestURL)

variable {extra : List (String×HeaderValue)}

theorem lookup_of_extract {name s : String}
    (h : extractStringHeader extra name=.ok s) (hs : s≠"") : List.lookup name extra=some (.text s) := by
  unfold extractStringHeader at h
  split at h
  · cases h
    exact absurd rfl hs
  · rename_i hlookup
    cases h
    exact hlookup
  · cases h
  · cases h

theorem checkURL_ok {requestURL : String}
    (h : checkURL jose requestURL extra=.ok ()) : List.lookup "url" extra=some (.text requestURL) := by
  unfold checkURL at h
  split at h
  · cases h
  rename_i hurl
  split at h
  · cases h
  rename_i hempty
  split at h
  · cases h
  rename_i hsame
  rw [← not_not.mp hsame]
  exact lookup_of_extract hurl hempty

variable {jws : SignedMessage Key} {sig : SignatureHeader Key}

theorem checkHeader_ok (h : checkHeader jose req=.ok (jws,sig)) : HeaderChecked jose req jws sig := by
  unfold checkHeader at h
  split at h
  · cases h
  rename_i hparsed
  split at h
  · rename_i hsingle
    split at h
    · cases h
    rename_i halgorithm
    split at h
    · cases h
    · cases h
    rename_i hurl
    split at h
    · cases h
    cases h
    exact ⟨hparsed,hsingle,not_not.mp halgorithm,checkURL_ok hurl⟩
  · cases h

/-- Verified under the embedded key. -/
structure PassedByKey (jose : Jose Key) (jws : SignedMessage Key) (sig : SignatureHeader Key) (v : VerifiedRequest Key)
    (key : Key) : Prop where
  embedded : sig.jsonWebKey=some key
  unnamed : sig.keyID=""
  usable : jose.valid key=true
  signed : jose.verify jws key=.ok v.payload
  result : v.jwk=some key ∧ v.account=none

/-- Verified under the key of an account. -/
structure PassedByAccount (jose : Jose Key) (req : SignedRequest) (jws : SignedMessage Key)
    (sig : SignatureHeader Key) (v : VerifiedRequest Key) (acct : Account) : Prop where
  bare : sig.jsonWebKey=none
  named : sig.keyID=req.accountKID acct.accountID
  active : acct.status=.valid
  /-- The signature verifies under the key that the account row stores. -/
  signed : ∃ key,jose.parseJWKFromPEM acct.jwkPEM=.ok key ∧ jose.verify jws key=.ok v.payload
  /-- The endpoint gets the account and no key. -/
  result : v.account=some acct ∧ v.jwk=none

def redeemed (nonce : String) : Event acmeServer Unit := ⟨(),.inr (.consumeNonce nonce),Except.ok ()⟩

def readAccount (acct : Account) : Event acmeServer Unit := ⟨(),.inr (.getAccountByID acct.accountID),Except.ok acct⟩

def Passed (jose : Jose Key) (req : SignedRequest) (expectNewAccount : Bool) (v : VerifiedRequest Key)
    (events : Log acmeServer Unit) : Prop :=
  ∃ jws sig,HeaderChecked jose req jws sig ∧ v.url=req.requestURL ∧ v.nonce=sig.nonce ∧
    ((expectNewAccount=true ∧ (∃ key,PassedByKey jose jws sig v key) ∧ events=[redeemed v.nonce]) ∨
      (expectNewAccount=false ∧ ∃ acct,PassedByAccount jose req jws sig v acct ∧
        events=[readAccount acct,redeemed v.nonce]))

abbrev Verifies {α : Type} (Q : α→Log acmeServer Unit→Prop) (p : Acme α) (events : Log acmeServer Unit) :
    Prop := p.Tracked acmeServer.CanAnswer (fun _ _ _ => True) noted Q events

theorem verifies_op {α : Type} {Q : α→Log acmeServer Unit→Prop} {events : Log acmeServer Unit} {op : AcmeOp}
    {k : AcmeRes op→Acme α} (h : ∀ r,acmeServer.CanAnswer (.inr op) r → Verifies Q (k r) (noted events (.inr op) r)) :
    Verifies Q ((acme op).bind k) events := tracked_acme fun r hr => ⟨trivial,h r hr⟩

variable {key : Key}

theorem verifySignature_ok {payload : String}
    (h : verifySignature jose jws key=.ok payload) : jose.verify jws key=.ok payload := by
  unfold verifySignature at h
  split at h
  · cases h
  rename_i hgot
  split at h
  · cases h
  cases h
  exact hgot

theorem verifiedBy_ok {signer : Try Key} {account : Option Account} {jwk : Option Key}
    (h : verifiedBy jose req jws sig signer account jwk=.ok v) :
    ∃ key,signer=.ok key ∧ jose.verify jws key=.ok v.payload ∧ v.url=req.requestURL ∧ v.nonce=sig.nonce ∧
      v.account=account ∧ v.jwk=jwk := by
  unfold verifiedBy at h
  split at h
  · cases h
  rename_i key
  split at h
  · cases h
  rename_i hpayload
  cases h
  exact ⟨key,rfl,verifySignature_ok hpayload,rfl,rfl,rfl,rfl⟩

theorem accountSigningKey_ok {acct : Account} (h : accountSigningKey jose acct=.ok key) :
    acct.status=.valid ∧ jose.parseJWKFromPEM acct.jwkPEM=.ok key := by
  unfold accountSigningKey at h
  split at h
  · cases h
  rename_i hstatus
  split at h
  · cases h
  rename_i hkey
  cases h
  exact ⟨not_not.mp hstatus,hkey⟩

variable {kid : String}

theorem accountIDFromKID_ok {accountKID : String→String} {accountID : String}
    (h : accountIDFromKID accountKID kid=.ok accountID) : accountKID accountID=kid := by
  unfold accountIDFromKID at h
  split at h
  · cases h
  dsimp only at h
  split at h
  · cases h
  split at h
  · cases h
  rename_i hsame
  cases h
  exact not_not.mp hsame

theorem keySource_kid (h : keySource expectNewAccount sig=.ok (.kid kid)) :
    expectNewAccount=false ∧ sig.jsonWebKey=none ∧ sig.keyID=kid := by
  unfold keySource at h
  split at h
  · split at h
    · cases h
    · split at h <;> cases h
  rename_i hbare
  split at h
  · cases h
  split at h
  · cases h
  rename_i hexpect
  cases h
  exact ⟨Bool.eq_false_iff.mpr hexpect,hbare,rfl⟩

theorem keySource_jwk (h : keySource expectNewAccount sig=.ok (.jwk key)) :
    expectNewAccount=true ∧ sig.jsonWebKey=some key ∧ sig.keyID="" := by
  unfold keySource at h
  split at h
  · rename_i hkey
    split at h
    · cases h
    rename_i hunnamed
    split at h
    · rename_i hexpect
      cases h
      exact ⟨hexpect,hkey,not_not.mp hunnamed⟩
    · cases h
  · split at h
    · cases h
    · split at h <;> cases h

theorem verifies_verifyJWS (jose : Jose Key) (req : SignedRequest) (expectNewAccount : Bool) :
    Verifies (fun r events => ∀ v,r=.ok v → Passed jose req expectNewAccount v events)
      (verifyJWS jose req expectNewAccount) [] := by
  unfold verifyJWS
  split
  · rintro v ⟨⟩
  rename_i jws sig hheader
  have hchecked := checkHeader_ok hheader
  refine verifies_op fun r _ => ?_
  cases r with
  | error => rintro v ⟨⟩
  | ok =>
    dsimp only [verifyRedeemed]
    split
    · rintro v ⟨⟩
    · rename_i hsource
      obtain ⟨hexpect,hbare,rfl⟩ := keySource_kid hsource
      split
      · rintro v ⟨⟩
      rename_i accountID hid
      refine tracked_bind.mpr (verifies_op fun r hr => ?_)
      cases r with
      | error =>
        dsimp only
        split <;> rintro v ⟨⟩
      | ok acct =>
        intro v hv
        obtain ⟨key,hkey,hsigned,hurl,hnonce,haccount,hjwk⟩ := verifiedBy_ok hv
        obtain ⟨hactive,hstored⟩ := accountSigningKey_ok hkey
        obtain ⟨c,s,s',hperform⟩ := hr
        have hacct : acct.accountID=accountID := (lookup_some (readRow_ok (acmeEffect_of_perform hperform)).1).2
        subst hacct
        refine ⟨jws,sig,hchecked,hurl,hnonce,.inr ⟨hexpect,acct,?_,?_⟩⟩
        · exact ⟨hbare,(accountIDFromKID_ok hid).symm,hactive,⟨key,hstored,hsigned⟩,haccount,hjwk⟩
        rw [hnonce]
        rfl
    · rename_i key hsource
      obtain ⟨hexpect,hembedded,hunnamed⟩ := keySource_jwk hsource
      intro v hv
      obtain ⟨key',hkey,hsigned,hurl,hnonce,haccount,hjwk⟩ := verifiedBy_ok hv
      split at hkey
      · cases hkey
      rename_i husable
      cases hkey
      refine ⟨jws,sig,hchecked,hurl,hnonce,.inl ⟨hexpect,⟨key,hembedded,hunnamed,?_,hsigned,hjwk,haccount⟩,?_⟩⟩
      · simpa using husable
      rw [hnonce]
      rfl

end Verification

section Runs

variable [DecidableEq ι]

/-- The calls of a run. -/
inductive ServerCall (Key : Type) where
  /-- The verification of a request; the endpoint demands an embedded key or an account. -/
  | verify (req : SignedRequest) (expectNewAccount : Bool)
  /-- Anything else: a nonce issue, a sweep, an account update, the rest of a request. -/
  | other (p : Acme Unit)

def ServerCall.program (jose : Jose Key) : ServerCall Key→Acme (Option (Try (VerifiedRequest Key)))
  | .verify req expectNewAccount => (verifyJWS jose req expectNewAccount).bind fun r => .ret (some r)
  | .other p => p.bind fun _ => .ret none

def serverCalls (jose : Jose Key) (calls : ι→ServerCall Key) : ι→Acme (Option (Try (VerifiedRequest Key))) :=
  fun t => (calls t).program jose

def Returned (jose : Jose Key) (call : ServerCall Key) (out : Option (Try (VerifiedRequest Key)))
    (events : Log acmeServer Unit) : Prop :=
  ∀ req expectNewAccount v,call=.verify req expectNewAccount → out=some (.ok v) →
    Passed jose req expectNewAccount v events

omit [DecidableEq ι] in
theorem verifies_program (jose : Jose Key) (call : ServerCall Key) :
    Verifies (Returned jose call) (call.program jose) [] := by
  cases call with
  | verify req expectNewAccount =>
    refine tracked_bind.mpr ((verifies_verifyJWS jose req expectNewAccount).mono ?_)
    intro r events hpassed req' expect' v hcall hout
    cases hcall
    cases hout
    exact hpassed v rfl
  | other p =>
    refine tracked_bind.mpr ?_
    refine (tracked_of_uses (I := fun _ => True) (fun _ _ _ _ _ => ⟨trivial,trivial⟩) (uses_any p)
      trivial).mono ?_
    intro u events _ req' expect' v hcall
    cases hcall

variable {t : ι}

theorem redeemed_mem_log {log : Log acmeServer ι} (h : Passed jose req expectNewAccount v (ghost noted [] t log)) :
    ⟨t,.inr (.consumeNonce v.nonce),Except.ok ()⟩∈log := by
  obtain ⟨jws,sig,-,-,-,⟨-,-,hevents⟩|⟨-,acct,-,hevents⟩⟩ := h
  · refine mem_log_of_noted ?_
    rw [hevents]
    exact mem_singleton_self _
  · refine mem_log_of_noted ?_
    rw [hevents]
    exact mem_cons_of_mem _ (mem_singleton_self _)

theorem passed_of_accepted {calls : ι→ServerCall Key} {cfg : Config acmeServer ι (Option (Try (VerifiedRequest Key)))}
    (hreach : Reach anyStep (initial (serverCalls jose calls) s) cfg)
    (hcall : calls t=.verify req expectNewAccount) (haccepted : cfg.threads t=.ret (some (.ok v))) :
    Passed jose req expectNewAccount v (ghost noted [] t cfg.log) := by
  have hstart : Verifies (Returned jose (calls t)) (serverCalls jose calls t) [] := verifies_program jose (calls t)
  have htracked := reach_thread_tracked (fun a _ c _ s' _ _ hperform => ⟨c,a.state,s',hperform⟩) hstart hreach
  rw [haccepted] at htracked
  exact htracked req expectNewAccount v hcall rfl

/-- Whenever verification accepts a request in a run from a store without nonces, together with any
other requests, nonce issues, sweeps and account updates: its nonce was stored before and was neither
expired nor redeemed when the call redeemed it, every redemption of a nonce has an issue of its own, so
that no two calls accept a nonce that was issued once, the protected URL is the URL of the request, and the
key was found as the endpoint demands. An account that signed is stored as valid when it is read, which is the
last thing the call does, and the signature verifies under the key stored then. -/
theorem verifyJWS_accepts_soundly (jose : Jose Key) (calls : ι→ServerCall Key) (s : AcmeState)
    (hstart : s.2.nonces=[]) (cfg : Config acmeServer ι (Option (Try (VerifiedRequest Key))))
    (hreach : Reach anyStep (initial (serverCalls jose calls) s) cfg) (t : ι) (req : SignedRequest)
    (expectNewAccount : Bool) (hcall : calls t=.verify req expectNewAccount) (v : VerifiedRequest Key)
    (haccepted : cfg.threads t=.ret (some (.ok v))) :
    (∃ a c s',Moment anyStep (initial (serverCalls jose calls) s) cfg a t (.inr (.consumeNonce v.nonce)) c
        (Except.ok ()) s' ∧
      ∃ row∈a.state.2.nonces,row.nonce=v.nonce ∧ row.used=false ∧ c.now<row.expiresAt ∧
        ∃ b u op c' r s'' ttl,Moment anyStep (initial (serverCalls jose calls) s) a b u op c' r s'' ∧
          issuedNonce op r=some (v.nonce,ttl) ∧ row.expiresAt=c'.now+ttl) ∧
    weight (redemptions v.nonce) cfg.log≤weight (issuances v.nonce) cfg.log ∧
    (weight (issuances v.nonce) cfg.log≤1 → ∀ u req' expect' v',calls u=.verify req' expect' →
      cfg.threads u=.ret (some (.ok v')) → v'.nonce=v.nonce → u=t) ∧
    ∃ jws sig,HeaderChecked jose req jws sig ∧ v.url=req.requestURL ∧ v.nonce=sig.nonce ∧
      ((expectNewAccount=true ∧ ∃ key,PassedByKey jose jws sig v key) ∨
        (expectNewAccount=false ∧ ∃ acct,PassedByAccount jose req jws sig v acct ∧
          ghost noted [] t cfg.log=[readAccount acct,redeemed v.nonce] ∧
          ∃ a c s',Moment anyStep (initial (serverCalls jose calls) s) cfg a t (.inr (.getAccountByID acct.accountID)) c
              (Except.ok acct) s' ∧
            lookup Account.accountID acct.accountID a.state.2.accounts=some acct)) := by
  have hpassed := passed_of_accepted hreach hcall haccepted
  have hredeemed := redeemed_mem_log hpassed
  have hsupply := nonce_supply v.nonce hreach
  have hnone : outstanding v.nonce s=0 := by
    rw [outstanding,hstart]
    rfl
  refine ⟨?_,by omega,?_,?_⟩
  · obtain ⟨a,c,s',hmoment⟩ := exists_moment hreach hredeemed not_mem_nil
    refine ⟨a,c,s',hmoment,?_⟩
    obtain ⟨row,hrow,hnonce,hfree⟩ : ∃ row∈a.state.2.nonces,row.nonce=v.nonce ∧ redeemable c.now row=true := by
      rcases nonces_step hmoment.performed with ⟨n,ttl,hissued,-,-⟩|⟨n,-,hconsumed,hfound,-⟩|⟨-,hconsumed,-⟩
      · cases hissued
      · cases hconsumed
        exact hfound
      · cases hconsumed
    rw [redeemable,Bool.and_eq_true,Bool.not_eq_true',decide_eq_true_eq] at hfree
    obtain ⟨b,u,op,c',r,s'',ttl,hissue,hstored,hexpiry⟩ := exists_issue_moment hstart hmoment.before row hrow
    rw [hnonce] at hstored
    exact ⟨row,hrow,hnonce,hfree.1,hfree.2,b,u,op,c',r,s'',ttl,hissue,hstored,hexpiry⟩
  · intro honce u req' expect' v' hcall' haccepted' hsame
    by_contra hne
    have hother := redeemed_mem_log (passed_of_accepted hreach hcall' haccepted')
    rw [hsame] at hother
    have hone : 1≤redemptions v.nonce (.inr (.consumeNonce v.nonce)) (Except.ok ()) := Nat.le_of_eq (if_pos rfl).symm
    have htwo := two_le_weight hother hredeemed (fun he => hne (congrArg Event.thread he)) hone hone
    omega
  · obtain ⟨jws,sig,hheader,hurl,hnonce,⟨hexpect,hkey,-⟩|⟨hexpect,acct,hacct,hevents⟩⟩ := hpassed
    · exact ⟨jws,sig,hheader,hurl,hnonce,.inl ⟨hexpect,hkey⟩⟩
    have hread : ⟨t,.inr (.getAccountByID acct.accountID),Except.ok acct⟩∈cfg.log := by
      refine mem_log_of_noted ?_
      rw [hevents]
      exact mem_cons_self
    obtain ⟨a,c,s',hmoment⟩ := exists_moment hreach hread not_mem_nil
    refine ⟨jws,sig,hheader,hurl,hnonce,.inr ⟨hexpect,acct,hacct,hevents,a,c,s',hmoment,?_⟩⟩
    exact (readRow_ok (acmeEffect_of_perform hmoment.performed)).1

def sampleRequest : SignedRequest := ⟨true,"ca","/acme/new-order","","body"⟩

/-- A library that parses every body to a message of the sample account. -/
def sampleJose : Jose Unit where
  parseSigned := fun _ => .ok ⟨[⟨"ES256",[("url",.text "https://ca/acme/new-order")],"n1","https://ca/acme/account/acc",none⟩],"p"⟩
  verify := fun jws _ => .ok jws.payload
  valid := fun _ => true
  parseJWKFromPEM := fun _ => .ok ()
  quote := id

def sampleAccount : Account :=
  {accountID := "acc", jwkThumbprint := "th", jwkPEM := "pem", contact := [], status := .valid, profileID := "p"}

def sampleStart : AcmeState := ({},{accounts := [sampleAccount]})

def sampleCalls : Bool→ServerCall Unit :=
  fun t => if t then .verify sampleRequest false else .other ((issueNonce second).bind fun _ => .ret ())

def sampleVerified : VerifiedRequest Unit := ⟨"p","ES256","https://ca/acme/new-order","n1",some sampleAccount,none⟩

/-- A nonce is issued, and the request with it is accepted. -/
theorem verifyJWS_accepts_soundly_sample :
    ∃ cfg,Reach anyStep (initial (serverCalls sampleJose sampleCalls) sampleStart) cfg ∧
      cfg.threads true=.ret (some (.ok sampleVerified)) ∧
      weight (redemptions "n1") cfg.log≤weight (issuances "n1") cfg.log := by
  refine reaches_view [(false,{fresh := "n1"}),(false,{}),(true,{}),(true,{})] (fun cfg => (cfg.threads true).result?)
    (some (some (.ok sampleVerified))) (by rfl) fun cfg hreach hout => ?_
  have haccepted := eq_ret_of_result? hout
  refine ⟨haccepted,?_⟩
  exact (verifyJWS_accepts_soundly sampleJose sampleCalls sampleStart rfl cfg hreach true sampleRequest false rfl
    sampleVerified haccepted).2.1

end Runs

end Certctl.AcmeSignedRequests
