import Certctl.AcmeEndpoints
import Certctl.ProgramPaths

/-!
# Nonces that requests use up

A request redeems its nonce as the first thing that verification does with
the store, before it is known how the request was signed. An endpoint that
has its request verified once therefore redeems the nonce once. The endpoint
that revokes certificates has a request with an embedded key verified twice,
and the second verification looks for a nonce that the first one has used
up: no such request ever gets past verification.
-/

namespace Certctl.AcmeNonceUse

open AtomicProgram Prog AtomicInterleaving ControlPlaneStore DomainRecords StoreExtension
open ProgramPaths AcmeServerStore AcmeChallenges AcmeAccounts AcmeSignedRequests AcmeEndpoints

variable {Key ι : Type} {expectNewAccount : Bool} {jws : SignedMessage Key} {sig : SignatureHeader Key} {α : Type}
  {s : AcmeState} {endpoint : Endpoint} {t : ι} {key : Key}

section Paths

variable {jose : Jose Key} {req : SignedRequest} {events : Log acmeServer Unit}

def Answered (events : Log acmeServer Unit) : Prop := ∀ e∈events,acmeServer.CanAnswer e.op e.res

variable {v : VerifiedRequest Key}

theorem passed_of_path (hanswered : Answered events) (h : Path (verifyJWS jose req expectNewAccount) events (.ok v)) :
    Passed jose req expectNewAccount v events.reverse := by
  have hdone := path_tracked (verifies_verifyJWS jose req expectNewAccount) hanswered h
  rw [List.append_nil] at hdone
  exact hdone v rfl

theorem redemptions_of_passed (h : Passed jose req expectNewAccount v events.reverse) :
    weight (redemptions v.nonce) events=1 := by
  have hperm : weight (redemptions v.nonce) events.reverse=
      weight (redemptions v.nonce) events := weight_perm _ (List.reverse_perm events)
  have hone : redemptions v.nonce (.inr (.consumeNonce v.nonce)) (Except.ok ())=1 := if_pos rfl
  have hread : ∀ acct : Account,redemptions v.nonce (.inr (.getAccountByID acct.accountID)) (Except.ok acct)=0 :=
    fun _ => if_neg (nofun)
  rw [← hperm]
  obtain ⟨jws,sig,-,-,-,⟨-,-,hevents⟩|⟨-,acct,-,hevents⟩⟩ := h
  · rw [hevents,weight_cons]
    exact hone
  rw [hevents,weight_cons,weight_cons,weight_nil]
  have hfirst := hread acct
  simp only [readAccount,redeemed]
  omega

variable {err : GoError}

theorem redeemed_of_failed (hheader : checkHeader jose req=.ok (jws,sig)) (herr : err.wraps≠some .jwsBadNonce)
    (h : Path (verifyJWS jose req expectNewAccount) events (.error err)) :
    redeemed sig.nonce∈events ∧ ∃ rest,Path (verifyRedeemed jose req expectNewAccount jws sig) rest (.error err) := by
  unfold verifyJWS at h
  rw [hheader] at h
  obtain ⟨r,rest,rfl,hrest⟩ := path_perform.mp h
  cases r with
  | error =>
    obtain ⟨-,hret⟩ := hrest
    cases hret
    exact absurd rfl herr
  | ok => exact ⟨List.mem_cons_self,rest,hrest⟩

theorem header_of_passed (h : checkHeader jose req=.ok (jws,sig))
    (hpassed : Passed jose req expectNewAccount v events) : HeaderChecked jose req jws sig ∧ v.nonce=sig.nonce ∧
      ((expectNewAccount=true ∧ ∃ key,PassedByKey jose jws sig v key) ∨
        (expectNewAccount=false ∧ ∃ acct,PassedByAccount jose req jws sig v acct)) := by
  have hchecked := checkHeader_ok h
  obtain ⟨jws',sig',hchecked',-,hnonce,hhow⟩ := hpassed
  have hjws : jws'=jws := Except.ok.inj (hchecked'.parsed.symm.trans hchecked.parsed)
  subst hjws
  have hsig : sig'=sig := List.singleton_inj.mp (hchecked'.single.symm.trans hchecked.single)
  subst hsig
  refine ⟨hchecked,hnonce,?_⟩
  rcases hhow with ⟨hexpect,hkey,-⟩|⟨hexpect,acct,hacct,-⟩
  · exact .inl ⟨hexpect,hkey⟩
  · exact .inr ⟨hexpect,acct,hacct⟩

theorem checked_of_path
    (h : Path (verifyJWS jose req expectNewAccount) events (.ok v)) : ∃ jws sig,checkHeader jose req=.ok (jws,sig) := by
  unfold verifyJWS at h
  cases hheader : checkHeader jose req with
  | error =>
    rw [hheader] at h
    obtain ⟨-,hret⟩ := h
    cases hret
  | ok checked => exact ⟨checked.1,checked.2,rfl⟩

theorem passed_or_twice (hanswered : Answered events) (h : Path (verifyRevocation jose req) events (.ok v)) :
    Passed jose req false v events.reverse ∨ ∃ jws sig,checkHeader jose req=.ok (jws,sig) ∧ v.nonce=sig.nonce ∧
        2≤weight (redemptions v.nonce) events := by
  obtain ⟨first,before,after,rfl,hfirst,hrest⟩ := path_bind.mp h
  cases first with
  | ok =>
    obtain ⟨rfl,hret⟩ := hrest
    cases hret
    rw [List.append_nil] at hanswered ⊢
    exact .inl (passed_of_path hanswered hfirst)
  | error errKid =>
    dsimp only at hrest
    split at hrest
    · rename_i hretry
      have hsecond : Passed jose req true v after.reverse :=
        passed_of_path (fun e he => hanswered e (List.mem_append_right _ he)) hrest
      have hagain := redemptions_of_passed hsecond
      obtain ⟨jws,sig,hheader⟩ := checked_of_path hrest
      have hnonce := (header_of_passed hheader hsecond).2.1
      have hother : errKid.wraps≠some .jwsBadNonce := by
        intro hbad
        simp only [GoError.is,hbad] at hretry
        cases hretry
      have hspent : 1≤weight (redemptions v.nonce) before := by
        refine one_le_weight (redeemed_of_failed hheader hother hfirst).1 ?_
        rw [hnonce]
        exact Nat.le_of_eq (if_pos rfl).symm
      refine .inr ⟨jws,sig,hheader,hnonce,?_⟩
      rw [weight_append]
      omega
    · obtain ⟨-,hret⟩ := hrest
      cases hret

/-- A request with an embedded key that is refused as a request to revoke is refused for its nonce, or redeems it twice. -/
theorem badNonce_or_twice
    (hheader : checkHeader jose req=.ok (jws,sig)) (hkey : sig.jsonWebKey=some key) (hunnamed : sig.keyID="")
    (h : Path (verifyRevocation jose req) events (.error err)) :
    err.wraps=some .jwsBadNonce ∨ 2≤weight (redemptions sig.nonce) events := by
  have hone : redemptions sig.nonce (.inr (.consumeNonce sig.nonce)) (Except.ok ())=1 := if_pos rfl
  obtain ⟨first,before,after,rfl,hfirst,hrest⟩ := path_bind.mp h
  cases first with
  | ok =>
    obtain ⟨-,hret⟩ := hrest
    cases hret
  | error errKid =>
    by_cases hbad : errKid.wraps=some .jwsBadNonce
    · simp only [GoError.is,hbad] at hrest
      obtain ⟨-,hret⟩ := hrest
      cases hret
      exact .inl hbad
    obtain ⟨hredeemed,rest,hfound⟩ := redeemed_of_failed hheader hbad hfirst
    have hspent := one_le_weight hredeemed (Nat.le_of_eq hone.symm)
    dsimp only at hrest
    split at hrest
    · by_cases hagain : err.wraps=some .jwsBadNonce
      · exact .inl hagain
      have hspent' := one_le_weight (redeemed_of_failed hheader hagain hrest).1 (Nat.le_of_eq hone.symm)
      rw [weight_append]
      omega
    rename_i hgiven
    have hdemand : errKid=Sentinel.jwsExpectKidGotJWK.error := by
      have hsource : keySource false sig=.error Sentinel.jwsExpectKidGotJWK.error := by
        unfold keySource
        rw [hkey,hunnamed]
        rfl
      unfold verifyRedeemed at hfound
      rw [hsource] at hfound
      obtain ⟨-,hret⟩ := hfound
      exact (Except.error.inj hret).symm
    rw [hdemand] at hgiven
    exact absurd rfl hgiven

end Paths

section Serving

/-- Operations that redeem no nonce. -/
def Spares : acmeServer.Op→Prop
  | .inr (.consumeNonce _) => False
  | _ => True

theorem redemptions_of_spares {nonce : String} {op : acmeServer.Op} {r : acmeServer.Res op} (h : Spares op) :
    redemptions nonce op r=0 := by
  have hnone : consumedNonce op r=none := by
    cases op with
    | inl => rfl
    | inr op =>
      cases op with
      | consumeNonce => exact h.elim
      | _ => rfl
  rw [redemptions,hnone]
  rfl

theorem spares_service (p : Service α) : (service p).Uses Spares := uses_lift (uses_any p)

theorem spares_of_atOnce {p : Acme α} (h : p.Uses AtOnce) : p.Uses Spares := by
  refine h.mono fun op hop => ?_
  cases op with
  | inl => trivial
  | inr op =>
    cases op with
    | consumeNonce => exact hop
    | _ => trivial

variable {e : Endpoints Key} {req : SignedRequest} {v : VerifiedRequest Key}

theorem spares_nextNonce {answer : String→Acme Response} (h : ∀ nonce,(answer nonce).Uses Spares) :
    ((nextNonce e).bind answer).Uses Spares := uses_bind (uses_nextNonce trivial fun _ => trivial) h

theorem spares_shown (order : Order) (answer : String→OrderResponse→Response) :
    ((nextNonce e).bind fun nonce => (marshalOrderForResponse req order).bind fun shown =>
      .ret (answer nonce shown)).Uses Spares :=
  spares_nextNonce fun _ => uses_bind (uses_marshalOrderForResponse (fun _ => trivial) order) fun _ => trivial

theorem spares_withAccount {rest : Account→Acme Response} (h : ∀ acct,(rest acct).Uses Spares) :
    (withAccount v rest).Uses Spares := by
  unfold withAccount
  split
  · trivial
  · exact h _

theorem spares_createOrder (svc : AcmeServer Key) (accountID profileID : String) (identifiers : List Identifier) :
    (createOrder svc accountID profileID identifiers).Uses Spares := by
  refine uses_of_tracked (fun op => ?_) (tracked_createOrder (fun op r hop => ⟨?_,rfl⟩) fun _ _ _ => ⟨trivial,rfl⟩)
  · cases op with
    | inl => exact .inl trivial
    | inr op =>
      cases op with
      | consumeNonce => exact .inr ⟨.ok ()⟩
      | _ => exact .inl trivial
  · cases op with
    | inl => trivial
    | inr op =>
      cases op with
      | consumeNonce => exact hop
      | _ => trivial

theorem spares_applyAccountUpdate (acct : Account) (update : AccountUpdate) :
    (applyAccountUpdate e acct update).Uses Spares := by
  have hcontact : ∀ current,(updateContact e acct.accountID update.contact current).Uses Spares := by
    intro current
    unfold updateContact
    split
    · trivial
    refine uses_bind (spares_of_atOnce (atOnce_writeAccount _ _ _ _)) fun r => ?_
    cases r <;> trivial
  unfold applyAccountUpdate
  split
  · exact hcontact acct
  split
  · refine uses_bind (spares_of_atOnce (atOnce_writeAccount _ _ _ _)) (onAnswer fun current => ?_)
    exact hcontact current
  · trivial

theorem spares_serve (endpoint : Endpoint) : (endpoint.serve e req v).Uses Spares := by
  cases endpoint with
  | newAccount =>
    dsimp only [Endpoint.serve,AcmeEndpoints.newAccount]
    split
    · trivial
    split
    · trivial
    refine uses_bind (spares_of_atOnce (atOnce_newAccount _ _ _ _ _)) (onAnswer fun _ => ?_)
    exact spares_nextNonce fun _ => trivial
  | account =>
    dsimp only [Endpoint.serve,AcmeEndpoints.account]
    split
    · trivial
    split
    · trivial
    split
    · exact spares_nextNonce fun _ => trivial
    split
    · trivial
    refine uses_bind (spares_applyAccountUpdate _ _) (onAnswer fun _ => ?_)
    exact spares_nextNonce fun _ => trivial
  | newOrder =>
    refine spares_withAccount fun acct => ?_
    split
    · trivial
    split
    · refine uses_bind (spares_createOrder _ _ _ _) (onAnswer fun _ => ?_)
      exact spares_shown _ _
    · trivial
  | order =>
    refine spares_withAccount fun acct => uses_bind (spares_service _) (onAnswer fun _ => ?_)
    exact spares_shown _ _
  | orderFinalize =>
    refine spares_withAccount fun acct => ?_
    split
    · trivial
    refine uses_bind (spares_service _) (onAnswer fun _ => ?_)
    exact spares_shown _ _
  | authz authzID =>
    have hread : (lookupAuthz authzID).Uses Spares := by
      refine uses_op trivial fun r => ?_
      cases r with
      | error =>
        dsimp only
        split <;> trivial
      | ok => trivial
    refine spares_withAccount fun acct => uses_bind hread (onAnswer fun _ => ?_)
    exact spares_nextNonce fun _ => trivial
  | challenge =>
    refine spares_withAccount fun acct => ?_
    split
    · trivial
    refine uses_bind (uses_respondToChallenge (fun _ _ => trivial) (fun _ => trivial) (fun _ => trivial)
      (fun _ => trivial) fun _ => trivial) fun r => ?_
    cases r with
    | error => trivial
    | ok => exact spares_nextNonce fun _ => trivial
  | cert =>
    refine spares_withAccount fun acct => uses_bind (spares_service _) (onAnswer fun _ => ?_)
    exact spares_nextNonce fun _ => trivial
  | keyChange =>
    refine spares_withAccount fun acct => ?_
    split
    · trivial
    split
    · trivial
    refine uses_bind (spares_of_atOnce (atOnce_rotateAccountKey _ _ _)) (onAnswer fun _ => ?_)
    exact spares_nextNonce fun _ => trivial
  | revokeCert =>
    dsimp only [Endpoint.serve,AcmeEndpoints.revokeCert]
    split
    · trivial
    split
    · trivial
    · trivial
    refine uses_bind (spares_service _) (onAnswer fun _ => ?_)
    exact spares_nextNonce fun _ => trivial

end Serving

section Requests

variable [DecidableEq ι] {ok : StepCondition acmeServer ι α} {pool : ι→Acme α} {cfg : Config acmeServer ι α}

theorem answered_noted (hreach : Reach ok (initial pool s) cfg) (t : ι) :
    Answered (ghost noted [] t cfg.log).reverse := by
  intro e he
  exact canAnswer_of_log hreach (mem_log_of_noted (List.mem_reverse.mp he))

/-- A request passed verification: what it has done so far begins with a verification that handed over the result. -/
def Accepted (e : Endpoints Key) (endpoint : Endpoint) (req : SignedRequest) (v : VerifiedRequest Key)
    (events : Log acmeServer Unit) : Prop :=
  ∃ before after,events.reverse=before++after ∧ Path (endpoint.verify e req) before (.ok v)

/-- How often a nonce can be redeemed in a run: the rows at the start and those stored since. -/
def supply {α : Type} (nonce : String) (s : AcmeState) (cfg : Config acmeServer ι α) : ℕ :=
  weight (issuances nonce) cfg.log+outstanding nonce s

theorem own_redemptions_le (hreach : Reach ok (initial pool s) cfg) (nonce : String) (t : ι) :
    weight (redemptions nonce) (ghost noted [] t cfg.log) ≤ supply nonce s cfg := by
  have hown := weight_noted_le (redemptions nonce) t cfg.log
  have hall := nonce_supply nonce hreach
  unfold supply
  omega

variable {resp : Response} {e : Endpoints Key} {req : SignedRequest} {events : Log acmeServer Unit}

theorem path_handle (h : Path (handle e endpoint req) events resp) :
    (maxJWSBodyBytes<req.body.utf8ByteSize ∧ events=[]) ∨ ∃ before after,events=before++after ∧
        ((∃ err,Path (endpoint.verify e req) before (.error err) ∧ resp=problemResponse (mapJWSErrorToProblem err)) ∨
          ∃ v,Path (endpoint.verify e req) before (.ok v) ∧ Path (endpoint.serve e req v) after resp) := by
  unfold handle at h
  split at h
  · rename_i hsize
    exact .inl ⟨hsize,h.1⟩
  obtain ⟨out,before,after,hevents,hverify,hrest⟩ := path_bind.mp h
  refine .inr ⟨before,after,hevents,?_⟩
  cases out with
  | error err => exact .inl ⟨err,hverify,hrest.2.symm⟩
  | ok v => exact .inr ⟨v,hverify,hrest⟩

variable {v : VerifiedRequest Key}

theorem redeems_of_verified (hanswered : Answered events) (h : Path (endpoint.verify e req) events (.ok v)) :
    weight (redemptions v.nonce) events=1 ∨ endpoint=.revokeCert ∧ 2≤weight (redemptions v.nonce) events := by
  have hsingle : ∀ expect,Path (verifyJWS e.jose req expect) events (.ok v) → weight (redemptions v.nonce) events=1 :=
    fun expect hpath => redemptions_of_passed (passed_of_path hanswered hpath)
  cases endpoint with
  | newAccount => exact .inl (hsingle true h)
  | revokeCert =>
    rcases passed_or_twice hanswered h with hpassed|⟨-,-,-,-,htwice⟩
    · exact .inl (redemptions_of_passed hpassed)
    · exact .inr ⟨rfl,htwice⟩
  | _ => exact .inl (hsingle false h)

variable {before after : Log acmeServer Unit}

theorem accepted_answered (hreach : Reach ok (initial pool s) cfg)
    (hevents : (ghost noted [] t cfg.log).reverse=before++after) : Answered before := by
  intro x hx
  refine answered_noted hreach t x ?_
  rw [hevents]
  exact List.mem_append_left _ hx

theorem weight_accepted {log : Log acmeServer ι}
    (nonce : String) (hevents : (ghost noted [] t log).reverse=before++after) :
    weight (redemptions nonce) (ghost noted [] t log)=
      weight (redemptions nonce) before+weight (redemptions nonce) after := by
  rw [← weight_append,← hevents]
  exact weight_perm _ (List.reverse_perm _).symm

/-- A request with an embedded key never passes the verification of the endpoint that revokes certificates, unless
its nonce can be redeemed twice. -/
theorem not_accepted_by_key {pool : ι→Acme Response} {cfg : Config acmeServer ι Response}
    (hreach : Reach anyStep (initial pool s) cfg) (hheader : checkHeader e.jose req=.ok (jws,sig))
    (hkey : sig.jsonWebKey=some key) (hsupply : supply sig.nonce s cfg≤1) (v : VerifiedRequest Key) :
    ¬Accepted e .revokeCert req v (ghost noted [] t cfg.log) := by
  rintro ⟨before,after,hevents,hpath⟩
  rcases passed_or_twice (accepted_answered hreach hevents) hpath with hpassed|⟨jws',sig',hheader',hnonce,htwice⟩
  · obtain ⟨-,-,⟨hexpect,-⟩|⟨-,acct,hacct⟩⟩ := header_of_passed hheader hpassed
    · cases hexpect
    have hbare := hacct.bare
    rw [hkey] at hbare
    cases hbare
  rw [hheader] at hheader'
  cases hheader'
  have hown := own_redemptions_le hreach sig.nonce t
  rw [weight_accepted sig.nonce hevents,← hnonce] at hown
  rw [← hnonce] at hsupply
  omega

theorem redeems_once {pool : ι→Acme Response} {cfg : Config acmeServer ι Response}
    (hreach : Reach anyStep (initial pool s) cfg) (hcall : pool t=handle e endpoint req)
    (hret : cfg.threads t=.ret resp) (haccepted : Accepted e endpoint req v (ghost noted [] t cfg.log))
    (honce : endpoint=.revokeCert → supply v.nonce s cfg≤1) :
    weight (redemptions v.nonce) (ghost noted [] t cfg.log)=1 := by
  obtain ⟨before,after,hevents,hpath⟩ := haccepted
  have hverified := redeems_of_verified (accepted_answered hreach hevents) hpath
  have hwhole := path_of_thread hreach hret
  rw [hcall] at hwhole
  have hparts := weight_accepted v.nonce hevents
  have hrest : weight (redemptions v.nonce) after=0 := by
    rcases path_handle hwhole with ⟨-,hnone⟩|⟨before',after',hevents',⟨err,herr,-⟩|⟨v',hpath',hserve⟩⟩
    · rw [hnone] at hevents
      rw [(List.append_eq_nil_iff.mp hevents.symm).2]
      rfl
    · obtain ⟨-,-,hresult⟩ := path_unique (hevents.symm.trans hevents') hpath herr
      cases hresult
    · obtain ⟨-,rfl,-⟩ := path_unique (hevents.symm.trans hevents') hpath hpath'
      exact weight_eq_zero fun x hx => redemptions_of_spares (path_uses (spares_serve endpoint) hserve x hx)
  rcases hverified with hone|⟨hrevoke,htwice⟩
  · omega
  have hown := own_redemptions_le hreach v.nonce t
  have hbound := honce hrevoke
  omega

/-- Revoking by the key of the certificate is out of reach, and nonces are redeemed once. In every run of any
requests, a well-formed request to revoke with an embedded key, whose nonce is stored at most once, never passes
verification and is answered with the problem of a bad nonce, however good its key, signature, URL and nonce are. At
every endpoint, an accepted request that is answered has redeemed its nonce exactly once; where requests are
verified twice this is for nonces that are stored at most once. -/
theorem revokeCert_by_key_refused (e : Endpoints Key) (pool : ι→Acme Response) (s : AcmeState)
    (cfg : Config acmeServer ι Response) (hreach : Reach anyStep (initial pool s) cfg) :
    (∀ t req jws sig key,pool t=handle e .revokeCert req → checkHeader e.jose req=.ok (jws,sig) →
      sig.jsonWebKey=some key → sig.keyID="" → supply sig.nonce s cfg≤1 →
        (∀ v,¬Accepted e .revokeCert req v (ghost noted [] t cfg.log)) ∧
        (req.body.utf8ByteSize ≤ maxJWSBodyBytes → ∀ resp,cfg.threads t=.ret resp →
          resp=problemResponse (badNonce "nonce missing, replayed, or expired"))) ∧
    ∀ t endpoint req v resp,pool t=handle e endpoint req → cfg.threads t=.ret resp →
      Accepted e endpoint req v (ghost noted [] t cfg.log) → (endpoint=.revokeCert → supply v.nonce s cfg≤1) →
        weight (redemptions v.nonce) (ghost noted [] t cfg.log)=1 := by
  refine ⟨?_,?_⟩
  · intro t req jws sig key hcall hheader hkey hunnamed hsupply
    have hnever := not_accepted_by_key (t := t) hreach hheader hkey hsupply
    refine ⟨hnever,fun hsize resp hret => ?_⟩
    have hwhole := path_of_thread hreach hret
    rw [hcall] at hwhole
    rcases path_handle hwhole with ⟨hlarge,-⟩|⟨before,after,hevents,⟨err,herr,hresp⟩|⟨v,hpath,-⟩⟩
    · omega
    · have hbad : err.wraps=some .jwsBadNonce := by
        rcases badNonce_or_twice hheader hkey hunnamed herr with hbad|htwice
        · exact hbad
        have hown := own_redemptions_le hreach sig.nonce t
        have hparts := weight_accepted sig.nonce hevents
        omega
      rw [hresp,mapJWSErrorToProblem,hbad]
    · exact absurd ⟨before,after,hevents,hpath⟩ (hnever v)
  · intro t endpoint req v resp hcall hret haccepted honce
    exact redeems_once hreach hcall hret haccepted honce

def sampleRequest : SignedRequest := ⟨true,"ca","/acme/revoke-cert","","body"⟩

def sampleHeader : SignatureHeader Unit := ⟨"ES256",[("url",.text "https://ca/acme/revoke-cert")],"n1","",some ()⟩

/-- A server whose key library parses every body to a message with an embedded key and finds every signature good. -/
def sampleEndpoints : Endpoints Unit where
  toLower := id
  quote := id
  thumbprint := fun _ => .ok [1]
  jwkToPEM := fun _ => .ok "key"
  nonceTTL := 100
  jose := ⟨fun _ => .ok ⟨[sampleHeader],"p"⟩,fun _ _ => .ok "p",fun _ => true,fun _ => .ok (),id⟩
  revocation := {revoker := some {}, parseCertificate := fun _ => some ⟨31,()⟩, jwkThumbprint := fun _ => .ok "AQ"}
  decodeNewAccount := fun _ => none
  decodeAccountUpdate := fun _ => none
  decodeNewOrder := fun _ => none
  decodeFinalize := fun _ => none
  decodeRevocation := fun _ => some ("AQ",0)
  parseCertificateRequest := fun _ => none
  encodeRequest := fun _ => ""
  keyChangeInner := fun _ _ _ _ => .error (malformed "")

/-- A certificate on record, which has the serial number of the one that is presented. -/
def sampleDb : ControlPlaneTables.Db where
  certs := [{id := "mc-1", issuerID := "iss-local", status := .active}]
  versions := [{id := "v-1", certificateID := "mc-1", serialNumber := "1f", pemChain := "stored"}]
  issuers := ["iss-local"]

def sampleStart : AcmeState := (sampleDb,{nonces := [⟨"n1",100,false⟩]})

def sampleRun : Config acmeServer Unit Response :=
  initial (fun _ => handle sampleEndpoints .revokeCert sampleRequest) sampleStart

def sampleRefusal : Response := problemResponse (badNonce "nonce missing, replayed, or expired")

theorem sampleRequest_refused : ∃ cfg,Reach anyStep sampleRun cfg ∧
      cfg.threads ()=.ret sampleRefusal ∧ supply "n1" sampleStart cfg≤1 := by
  refine reaches_view [((),{}),((),{})] (fun cfg => ((cfg.threads ()).result?,supply "n1" sampleStart cfg))
    (some sampleRefusal,1) (by rfl) fun cfg _ hview => ?_
  obtain ⟨hout,hsupply⟩ := Prod.mk.inj hview
  exact ⟨eq_ret_of_result? hout,hsupply.le⟩

/-- A run in which a request with an embedded key is refused. -/
theorem revokeCert_by_key_refused_sample : ∃ cfg,
    Reach anyStep sampleRun cfg ∧
      cfg.threads ()=.ret sampleRefusal ∧
      ∀ v,¬Accepted sampleEndpoints .revokeCert sampleRequest v (ghost noted [] () cfg.log) := by
  obtain ⟨cfg,hreach,hret,hsupply⟩ := sampleRequest_refused
  have hrefused := (revokeCert_by_key_refused sampleEndpoints (fun _ : Unit => handle sampleEndpoints .revokeCert sampleRequest)
    sampleStart cfg hreach).1 () sampleRequest ⟨[sampleHeader],"p"⟩ sampleHeader () rfl rfl rfl rfl hsupply
  exact ⟨cfg,hreach,hret,hrefused.1⟩

/-- A well-formed request to revoke, signed by the key it embeds, for the URL it is sent to and with a nonce that is
neither used nor expired, is answered with the problem of a bad nonce and does not pass verification. -/
theorem revokeCert_fresh_nonce_refused : ∃ cfg,
    Reach anyStep sampleRun cfg ∧
      checkHeader sampleEndpoints.jose sampleRequest=.ok (⟨[sampleHeader],"p"⟩,sampleHeader) ∧
      sampleHeader.jsonWebKey=some () ∧ sampleEndpoints.jose.valid ()=true ∧
      sampleEndpoints.jose.verify ⟨[sampleHeader],"p"⟩ ()=.ok "p" ∧
      sampleStart.2.nonces=[⟨sampleHeader.nonce,100,false⟩] ∧ cfg.threads ()=.ret sampleRefusal ∧
      ∀ v,¬Accepted sampleEndpoints .revokeCert sampleRequest v (ghost noted [] () cfg.log) := by
  obtain ⟨cfg,hreach,hret,hsupply⟩ := sampleRequest_refused
  have hheader : checkHeader sampleEndpoints.jose sampleRequest=.ok (⟨[sampleHeader],"p"⟩,sampleHeader) := rfl
  exact ⟨cfg,hreach,hheader,rfl,rfl,rfl,rfl,hret,not_accepted_by_key hreach hheader rfl hsupply⟩

end Requests

end Certctl.AcmeNonceUse
