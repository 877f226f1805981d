import Certctl.RevocationService

/-!
# What one request or revocation does, whatever it is told

Each call that serves a status request, and the call that revokes, is
followed alone: what it has been told by the revocation lookups, the cache
and other calls' signings, which signing it leads, and whether its
revocation row is committed. A request that was never told anything but
revoked returns a response signed as revoked.
-/

namespace Certctl.OcspRequestTracking

open AtomicProgram Prog ControlPlaneTables ControlPlaneStore DomainRecords RecordTable
  SingleFlight OcspResponder RevocationService
open List hiding lookup

def saysRevoked (response : OCSPResponse) : Bool := decide (response.content.certStatus=.revoked)

/-- The signing ended with a response that says revoked. -/
def revokedOutcome : Try OCSPResponse→Bool
  | .ok response => saysRevoked response
  | .error _ => false

/-- What one call has been told and has done so far. -/
structure Watch where
  /-- The call asks for the serial number under revocation. -/
  mine : Bool := false
  revoker : Bool := false
  /-- Revocation lookups made for that serial number. -/
  lookups : ℕ := 0
  /-- The lookup that decides the status found no revocation. -/
  stale : Bool := false
  /-- The cache or another call's signing gave a response that does not say revoked. -/
  misled : Bool := false
  /-- The signing found in the map or begun. -/
  seen : Option ℕ := none
  leads : Option (Lead String) := none
  /-- The call has begun to lead a signing. -/
  led : Bool := false
  /-- The revocation row has been committed. -/
  committed : Bool := false
deriving DecidableEq

def decidingLookup (svc : CAOperationsSvc) : ℕ := if svc.profileRepo && svc.certRepo then 2 else 1

/-- A lookup ended without a row. -/
def foundNone : Try CertificateRevocation→Bool
  | .error _ => true
  | .ok _ => false

/-- A cached row that does not say revoked. -/
def misleading : Try (Option OCSPResponseCacheEntry)→Bool
  | .ok (some entry) => !saysRevoked entry.responseDER
  | _ => false

def revokes (key : String×String) : Write→Bool
  | .createRevocation revocation => revocationKey revocation=key
  | _ => false

section Watching

variable (svc : CAOperationsSvc) (key : String×String)

def watch (g : Watch) : (op : Op)→Res op→Watch
  | .getRevocationByIssuerAndSerial i s,r =>
    if (i,s)=key then
      {g with lookups := g.lookups+1, stale := g.stale || (g.lookups+1==decidingLookup svc && foundNone r)}
    else g
  | .getOCSPResponse i s,r => if (i,s)=key then {g with misled := g.misled || misleading r} else g
  | .flightLoad _,r => {g with seen := r}
  | .flightLoadOrStore k,(entry,loaded) =>
    {g with seen := some entry, leads := if loaded then g.leads else some ⟨k,entry,false⟩, led := g.led || !loaded}
  | .flightWait _,r => {g with misled := g.misled || !revokedOutcome r}
  | .flightClose _ _,_ => {g with leads := g.leads.map fun f => {f with closed := true}}
  | .flightDelete _,_ => {g with leads := none}
  | .withinTx writes,.ok _ => {g with committed := g.committed || writes.any (revokes key)}
  | _,_ => g

variable (db₀ : Db)

/-- What a row write must satisfy: certificates keep their profile, revocations of the
serial number are of a certificate that is not exempt, and a cached response for it
says revoked unless the call has decided otherwise. -/
def allowed (g : Watch) : Write→Prop
  | .updateCertificate cert =>
    (lookup ManagedCertificate.id cert.id db₀.certs).map (·.certificateProfileID)=some cert.certificateProfileID
  | .createRevocation revocation => revocationKey revocation=key → shortLivedCert db₀ revocation.certificateID=false
  | .markIssuerNotified _ => True
  | .putOCSPResponse entry => cacheKey entry=key → saysRevoked entry.responseDER=true ∨ g.stale=true
  | .deleteOCSPResponse _ _ => True
  | _ => False

/-- What every operation satisfies, given what the call has been told. -/
def obeys (g : Watch) : (op : Op)→Res op→Prop
  | .withinTx writes,_ =>
    (∀ w∈writes,allowed key db₀ g w) ∧
    (g.revoker=false → ∃ entry,writes=[.putOCSPResponse entry]) ∧
    (.deleteOCSPResponse key.1 key.2∈writes → g.committed=true)
  | .flightLoad k,_ => g.mine=true → k=flightKey key.1 key.2
  | .flightLoadOrStore k,_ => g.leads=none ∧ g.revoker=false ∧ (g.mine=true → k=flightKey key.1 key.2)
  | .flightWait entry,_ => g.led=false ∧ g.leads=none ∧ g.seen=some entry
  | .flightClose entry outcome,_ =>
    ∃ k,g.leads=some ⟨k,entry,false⟩ ∧ (k=flightKey key.1 key.2 → revokedOutcome outcome=true ∨ g.stale=true)
  | .flightDelete k,_ => ∃ entry,g.leads=some ⟨k,entry,true⟩
  | op,_ => op.readOnly=true

/-- Answers given where no call fails and the exempt certificates are as at the start. -/
def answers : (op : Op)→Res op→Prop
  | .getIssuer i,r => r=db₀.issuers.contains i
  | .getCertificate id,r => ∀ cert,r=.ok cert → cert.id=id ∧
        (lookup ManagedCertificate.id id db₀.certs).map (·.certificateProfileID)=some cert.certificateProfileID
  | .getProfile id,r => ∀ profile,r=.ok profile →
      ∃ row,lookup CertificateProfile.id id db₀.profiles=some row ∧ row.isShortLived=profile.isShortLived
  | .getRevocationByIssuerAndSerial i s,r => ∀ rev,r=.ok rev → (i,s)=key → shortLivedCert db₀ rev.certificateID=false
  | .getOCSPResponse _ _,r => ∃ entry,r=.ok entry
  | .signOCSPResponse i content,r => r=.ok ⟨i,content⟩
  | .withinTx _,r => r=.ok ()
  | _,_ => True

abbrev Watched {α : Type} (Q : α→Watch→Prop) (p : Service α) (g : Watch) : Prop :=
  p.Tracked (answers key db₀) (obeys key db₀) (watch svc key) Q g

end Watching

/-- Two watches that differ at most in what the revocation lookups told. -/
structure Watch.Same (g g' : Watch) : Prop where
  mine : g'.mine=g.mine
  revoker : g'.revoker=g.revoker
  misled : g'.misled=g.misled
  seen : g'.seen=g.seen
  leads : g'.leads=g.leads

theorem Watch.Same.refl (g : Watch) : g.Same g := ⟨rfl,rfl,rfl,rfl,rfl⟩

theorem Watch.Same.trans {g₁ g₂ g₃ : Watch} (h : g₁.Same g₂) (h' : g₂.Same g₃) : g₁.Same g₃ :=
  ⟨h'.mine.trans h.mine,h'.revoker.trans h.revoker,h'.misled.trans h.misled,h'.seen.trans h.seen,
    h'.leads.trans h.leads⟩

variable {certID : String}

section Signing

variable {svc : CAOperationsSvc} {key : String×String} {db₀ : Db} {g : Watch} {i s : String}

theorem watched_request {α : Type} {Q : α→Watch→Prop} {op : Op} {k : Res op→Service α}
    (hobeys : ∀ r,obeys key db₀ g op r)
    (hk : ∀ r,answers key db₀ op r → Watched svc key db₀ Q (k r) (watch svc key g op r)) :
    Watched svc key db₀ Q ((request op).bind k) g :=
  fun r hr => ⟨hobeys r,hk r hr⟩

theorem same_lookup (r : Try CertificateRevocation) :
    g.Same (watch svc key g (.getRevocationByIssuerAndSerial i s) r) := by
  simp only [watch]
  split
  · exact ⟨rfl,rfl,rfl,rfl,rfl⟩
  · exact Watch.Same.refl g

variable {Q : Bool→Watch→Prop}

theorem watched_certShortLived (hQ : ∀ exempt,(shortLivedCert db₀ certID=false → exempt=false) → Q exempt g) :
    Watched svc key db₀ Q (certShortLived certID) g := by
  refine watched_request (fun _ => rfl) ?_
  intro r hr
  cases r with
  | error => exact hQ false fun _ => rfl
  | ok cert =>
    have hcert := (hr cert rfl).2
    obtain ⟨cert₀,hrow,hprofile⟩ := Option.map_eq_some_iff.mp hcert
    dsimp only
    split
    · exact hQ false fun _ => rfl
    rename_i hnamed
    refine watched_request (fun _ => rfl) ?_
    intro r hp
    cases r with
    | error => exact hQ false fun _ => rfl
    | ok profile =>
      refine hQ _ fun hlong => ?_
      obtain ⟨row,hfound,hshort⟩ := hp profile rfl
      rw [← hshort]
      simpa only [shortLivedCert,hrow,hprofile,if_neg hnamed,hfound] using hlong

theorem watched_shortLivedExempt (hfirst : (i,s)=key → g.lookups=0)
    (hQ : ∀ exempt g',g.Same g' → ((i,s)=key → exempt=false ∧ g'.lookups+1=decidingLookup svc) → Q exempt g') :
    Watched svc key db₀ Q (shortLivedExempt svc i s) g := by
  unfold shortLivedExempt
  split
  · rename_i hwired
    have htwo : decidingLookup svc=2 := if_pos hwired
    refine watched_request (fun _ => rfl) ?_
    intro r hr
    have hcount : (i,s)=key →
        (watch svc key g (.getRevocationByIssuerAndSerial i s) r).lookups+1=decidingLookup svc := by
      intro hkey
      simp only [watch,if_pos hkey,hfirst hkey,htwo]
    cases r with
    | error => exact hQ false _ (same_lookup _) fun hkey => ⟨rfl,hcount hkey⟩
    | ok rev =>
      refine watched_certShortLived fun exempt hexempt => ?_
      exact hQ exempt _ (same_lookup _) fun hkey => ⟨hexempt (hr rev rfl hkey),hcount hkey⟩
  · rename_i hwired
    have hone : decidingLookup svc=1 := if_neg hwired
    refine hQ false g (Watch.Same.refl g) fun hkey => ⟨rfl,?_⟩
    rw [hfirst hkey,hone]

variable {nonce : List UInt8}

theorem watched_currentStatus {now : Time} {Q : OCSPSignRequest→Watch→Prop}
    (hlast : (i,s)=key → g.lookups+1=decidingLookup svc)
    (hQ : ∀ content g',g.Same g' → ((i,s)=key → content.certStatus=.revoked ∨ g'.stale=true) → Q content g') :
    Watched svc key db₀ Q (currentStatus svc i s now nonce) g := by
  refine watched_request (fun _ => rfl) ?_
  intro r hr
  cases r with
  | ok => exact hQ _ _ (same_lookup _) fun _ => .inl rfl
  | error err =>
    have hstale : (i,s)=key → (watch svc key g (.getRevocationByIssuerAndSerial i s) (.error err)).stale=true := by
      intro hkey
      simp only [watch,if_pos hkey,hlast hkey,foundNone,beq_self_eq_true,Bool.and_self,Bool.or_true]
    dsimp only
    split
    · refine watched_request (fun _ => rfl) ?_
      intro r _
      cases r with
      | error | ok => exact hQ _ _ (same_lookup _) fun hkey => .inr (hstale hkey)
    · exact hQ _ _ (same_lookup _) fun hkey => .inr (hstale hkey)

theorem watched_liveSignOCSPResponse {Q : Try OCSPResponse→Watch→Prop}
    (hrepo : svc.revocationRepo=true) (hregistry : svc.issuerRegistry=true)
    (hissuer : (i,s)=key → db₀.issuers.contains i=true) (hfirst : (i,s)=key → g.lookups=0)
    (hQ : ∀ outcome g',g.Same g' → ((i,s)=key → revokedOutcome outcome=true ∨ g'.stale=true) → Q outcome g') :
    Watched svc key db₀ Q (liveSignOCSPResponse svc i s nonce) g := by
  simp only [liveSignOCSPResponse,hrepo,hregistry,Bool.not_true,Bool.false_eq_true]
  refine watched_request (fun _ => rfl) ?_
  intro found hfound
  split
  · rename_i hmissing
    refine hQ _ g (Watch.Same.refl g) fun hkey => ?_
    rw [hfound,hissuer hkey] at hmissing
    cases hmissing
  refine watched_request (fun _ => rfl) ?_
  intro now _
  refine tracked_bind.mpr (watched_shortLivedExempt hfirst ?_)
  intro exempt g' hsame hexempt
  cases exempt with
  | true =>
    intro outcome _
    refine ⟨rfl,hQ _ g' hsame fun hkey => ?_⟩
    cases (hexempt hkey).1
  | false =>
    refine tracked_bind.mpr (watched_currentStatus (fun hkey => (hexempt hkey).2) ?_)
    intro content g'' hsame' hcontent outcome houtcome
    refine ⟨rfl,hQ _ g'' (hsame.trans hsame') fun hkey => ?_⟩
    rcases hcontent hkey with hrevoked|hstale
    · left
      rw [houtcome]
      exact decide_eq_true hrevoked
    · exact .inr hstale

end Signing

/-- What a finished call leaves: it leads nothing, and a request for the serial number
returns a response that says revoked unless it was stale or misled. -/
def settled (result : Try (Option OCSPResponse)) (g : Watch) : Prop :=
  g.leads=none ∧
  (g.mine=true → g.stale=true ∨ g.misled=true ∨ ∃ response,result=.ok (some response) ∧ saysRevoked response=true)

/-- What a signing leaves, in the same terms. -/
def signed (outcome : Try OCSPResponse) (g : Watch) : Prop :=
  g.leads=none ∧ (g.mine=true → g.stale=true ∨ g.misled=true ∨ revokedOutcome outcome=true)

section Requests

variable {cache : OCSPResponseCacheService} {key : String×String} {db₀ : Db} {g : Watch} {i s : String}

/-- A request for a serial number begins with an empty watch. -/
structure Asking (key : String×String) (i s : String) (g : Watch) : Prop where
  mine : g.mine=true → (i,s)=key
  revoker : g.revoker=false
  lookups : g.lookups=0
  led : g.led=false
  leads : g.leads=none

/-- What the theorems assume of the wiring, the registry and the keys. -/
structure Served (cache : OCSPResponseCacheService) (key : String×String) (db₀ : Db) (i s : String) : Prop where
  cacheRepo : cache.cacheRepo=true
  revocationRepo : cache.caSvc.revocationRepo=true
  issuerRegistry : cache.caSvc.issuerRegistry=true
  issuer : (i,s)=key → db₀.issuers.contains i=true
  keys : flightKey i s=flightKey key.1 key.2 → (i,s)=key

theorem watched_storeResponse {outcome : Try OCSPResponse} {Q : Unit→Watch→Prop}
    (houtcome : (i,s)=key → revokedOutcome outcome=true ∨ g.stale=true) (hQ : Q () g) :
    Watched cache.caSvc key db₀ Q (storeResponse i s outcome) g := by
  cases outcome with
  | error => exact hQ
  | ok der =>
    refine watched_request (fun _ => rfl) ?_
    intro (now : Time) _
    refine watched_request ?_ ?_
    · intro r
      refine ⟨?_,fun _ => ⟨_,rfl⟩,?_⟩
      · exact forall_mem_singleton.mpr houtcome
      intro hdelete
      cases mem_singleton.mp hdelete
    · intro r hr
      have hkept : watch cache.caSvc key g (.withinTx [.putOCSPResponse ⟨i,s,der,"good",now,now+hour⟩]) r=g := by
        rw [show r=.ok () from hr]
        simp only [watch,any_cons,any_nil,revokes,Bool.or_false]
      exact (congrArg (Q ()) hkept).mpr hQ

variable {entry : ℕ}

theorem watched_leadFlight (hserved : Served cache key db₀ i s)
    (hmine : g.mine=true → (i,s)=key) (hfirst : g.lookups=0) (hleads : g.leads=some ⟨flightKey i s,entry,false⟩) :
    Watched cache.caSvc key db₀ signed (leadFlight cache i s entry) g := by
  refine tracked_bind.mpr (watched_liveSignOCSPResponse hserved.revocationRepo
    hserved.issuerRegistry hserved.issuer (fun _ => hfirst) ?_)
  intro outcome g' hsame houtcome
  have hleads' : g'.leads=some ⟨flightKey i s,entry,false⟩ := hsame.leads.trans hleads
  refine tracked_bind.mpr (watched_storeResponse houtcome ?_)
  refine watched_request ?_ ?_
  · intro r
    exact ⟨flightKey i s,hleads',fun hkey => houtcome (hserved.keys hkey)⟩
  intro r _
  refine watched_request ?_ ?_
  · intro r'
    refine ⟨entry,?_⟩
    simp only [watch,hleads',Option.map_some]
  intro r' _
  refine ⟨rfl,fun hm => ?_⟩
  have hkey : (i,s)=key := hmine (hsame.mine.symm.trans hm)
  rcases houtcome hkey with h|h
  · exact .inr (.inr h)
  · exact .inl h

theorem watched_flightWait (hled : g.led=false) (hleads : g.leads=none) (hseen : g.seen=some entry) :
    Watched cache.caSvc key db₀ signed (flightWait entry) g := by
  intro r _
  refine ⟨⟨hled,hleads,hseen⟩,hleads,fun _ => ?_⟩
  right
  cases hr : revokedOutcome r with
  | true => exact .inr rfl
  | false =>
    left
    simp only [watch,hr,Bool.not_false,Bool.or_true]

theorem watched_regenerate (hserved : Served cache key db₀ i s) (hasking : Asking key i s g) :
    Watched cache.caSvc key db₀ signed (regenerate cache i s) g := by
  have hkey : g.mine=true → flightKey i s=flightKey key.1 key.2 := by
    intro hm
    rw [← hasking.mine hm]
  refine watched_request (fun _ => hkey) ?_
  intro found _
  cases found with
  | some => exact watched_flightWait hasking.led hasking.leads rfl
  | none =>
    refine watched_request (fun _ => ⟨hasking.leads,hasking.revoker,hkey⟩) ?_
    intro r _
    obtain ⟨entry,loaded⟩ := r
    cases loaded with
    | true =>
      refine watched_flightWait ?_ hasking.leads rfl
      simp only [watch,hasking.led,Bool.not_true,Bool.or_false]
    | false => exact watched_leadFlight hserved hasking.mine hasking.lookups rfl

/-- A request of the pool, with the result type shared by all calls. -/
def getCall (cache : OCSPResponseCacheService) (issuerID serialHex : String) : Service (Try (Option OCSPResponse)) := do
  let der ← OcspResponder.get cache issuerID serialHex
  pure (der.map some)

theorem watched_regenerateForGet (hserved : Served cache key db₀ i s) (hasking : Asking key i s g) :
    Watched cache.caSvc key db₀ (fun der => settled (der.map some)) (regenerateForGet cache i s) g := by
  refine tracked_bind.mpr ((watched_regenerate hserved hasking).mono ?_)
  intro outcome g' hsigned
  cases outcome with
  | error =>
    refine ⟨hsigned.1,fun hm => ?_⟩
    rcases hsigned.2 hm with h|h|h
    · exact .inl h
    · exact .inr (.inl h)
    · cases h
  | ok der =>
    refine ⟨hsigned.1,fun hm => ?_⟩
    rcases hsigned.2 hm with h|h|h
    · exact .inl h
    · exact .inr (.inl h)
    · exact .inr (.inr ⟨der,rfl,h⟩)

theorem watched_getCall (hserved : Served cache key db₀ i s) (hasking : Asking key i s g) :
    Watched cache.caSvc key db₀ settled (getCall cache i s) g := by
  refine tracked_bind.mpr ?_
  simp only [OcspResponder.get,hserved.cacheRepo,Bool.not_true,Bool.false_eq_true]
  refine watched_request (fun _ => rfl) ?_
  intro now _
  refine watched_request (fun _ => rfl) ?_
  intro r hr
  have hasking' : Asking key i s (watch cache.caSvc key g (.getOCSPResponse i s) r) := by
    simp only [watch]
    split
    · exact ⟨hasking.mine,hasking.revoker,hasking.lookups,hasking.led,hasking.leads⟩
    · exact hasking
  cases r with
  | error => obtain ⟨entry,hentry⟩ := hr; cases hentry
  | ok found =>
    cases found with
    | none => exact watched_regenerateForGet hserved hasking'
    | some entry =>
      dsimp only
      split
      · refine ⟨hasking'.leads,fun hm => ?_⟩
        have hkey : (i,s)=key := hasking'.mine hm
        right
        cases hsaid : saysRevoked entry.responseDER with
        | true => exact .inr ⟨entry.responseDER,rfl,hsaid⟩
        | false =>
          left
          simp only [watch,if_pos hkey,misleading,hsaid,Bool.not_false,Bool.or_true]
      · exact watched_regenerateForGet hserved hasking'

end Requests

section Revoking

variable {svc : RevocationSvc} {ca : CAOperationsSvc} {key : String×String} {db₀ : Db} {g : Watch}

/-- The revocation after its rows are written, before and after the invalidation. -/
structure Announcing (key : String×String) (i s : String) (g : Watch) : Prop where
  mine : g.mine=false
  revoker : g.revoker=true
  leads : g.leads=none
  committed : (i,s)=key → g.committed=true

variable {i s : String}

theorem announcing_withinTx {writes : List Write} {r : Try Unit}
    (hg : Announcing key i s g) (hr : r=.ok ()) : Announcing key i s (watch ca key g (.withinTx writes) r) := by
  rw [hr]
  refine ⟨hg.mine,hg.revoker,hg.leads,fun hkey => ?_⟩
  simp only [watch,hg.committed hkey,Bool.true_or]

variable {cert : ManagedCertificate} {serial reason : String}

theorem watched_notifyIssuer (hg : Announcing key i s g) :
    Watched ca key db₀ (fun _ g' => Announcing key i s g') (notifyIssuer svc cert serial reason) g := by
  unfold notifyIssuer
  split
  · exact hg
  refine watched_request (fun _ => rfl) fun found _ => ?_
  split
  · exact hg
  refine watched_request (fun _ => rfl) fun r _ => ?_
  cases r with
  | error => exact hg
  | ok =>
    dsimp only
    split
    · exact hg
    refine watched_request (fun _ => rfl) fun r _ => ?_
    cases r with
    | error => exact hg
    | ok =>
      refine tracked_forEach (I := fun g' => Announcing key i s g') _ _ ?_ hg
      intro rev _ g' hg'
      refine watched_request ?_ ?_
      · intro r
        refine ⟨?_,?_,?_⟩
        · exact forall_mem_singleton.mpr trivial
        · intro hrevoker
          rw [hg'.revoker] at hrevoker
          cases hrevoker
        · intro hdelete
          cases mem_singleton.mp hdelete
      · intro r hr
        exact announcing_withinTx hg' hr

theorem watched_invalidateCache (hg : Announcing key i s g) :
    Watched ca key db₀ (fun _ g' => Announcing key i s g') (invalidateCache svc i s) g := by
  unfold invalidateCache
  split
  · exact hg
  unfold invalidateOnRevoke
  split
  · exact hg
  refine watched_request ?_ ?_
  · intro r
    refine ⟨?_,?_,?_⟩
    · exact forall_mem_singleton.mpr trivial
    · intro hrevoker
      rw [hg.revoker] at hrevoker
      cases hrevoker
    intro hdelete
    have hsame := mem_singleton.mp hdelete
    injection hsame with hi hs
    exact hg.committed (Prod.ext hi.symm hs.symm)
  · intro r hr
    exact announcing_withinTx hg hr

theorem watched_announceRevocation (hg : Announcing key cert.issuerID serial g) :
    Watched ca key db₀ (fun _ g' => g'.leads=none ∧ g'.mine=false) (announceRevocation svc cert serial reason) g := by
  refine tracked_bind.mpr ((watched_notifyIssuer hg).mono ?_)
  intro _ g₁ hg₁
  refine tracked_bind.mpr ((watched_invalidateCache hg₁).mono ?_)
  intro _ g₂ hg₂
  split
  · exact watched_request (fun _ => rfl) fun _ _ => ⟨hg₂.leads,hg₂.mine⟩
  · exact ⟨hg₂.leads,hg₂.mine⟩

/-- The call is the revocation. -/
structure Revoking (g : Watch) : Prop where
  mine : g.mine=false
  revoker : g.revoker=true
  leads : g.leads=none

theorem watched_recordRevocation {revocation : CertificateRevocation}
    {Q : Try Unit→Watch→Prop} (hrepo : svc.revocationRepo=true) (hg : Revoking g)
    (hcert : allowed key db₀ g (.updateCertificate cert)) (hrow : allowed key db₀ g (.createRevocation revocation))
    (hQ : ∀ r g',Announcing key revocation.issuerID revocation.serialNumber g' → Q r g') :
    Watched ca key db₀ Q (recordRevocation svc cert revocation) g := by
  have hobeys : ∀ g' writes r,Revoking g' → (∀ w∈writes,w=.updateCertificate cert ∨ w=.createRevocation revocation) →
      obeys key db₀ g' (.withinTx writes) r := by
    intro g' writes r hg' hwrites
    refine ⟨?_,?_,?_⟩
    · intro w hw
      rcases hwrites w hw with rfl|rfl
      · exact hcert
      · exact hrow
    · intro hrevoker
      rw [hg'.revoker] at hrevoker
      cases hrevoker
    · intro hdelete
      rcases hwrites _ hdelete with h|h <;> cases h
  have hcommitted : ∀ g' writes r,Revoking g' → r=.ok () → .createRevocation revocation∈writes →
      Announcing key revocation.issuerID revocation.serialNumber (watch ca key g' (.withinTx writes) r) := by
    intro g' writes r hg' hr hmem
    rw [hr]
    refine ⟨hg'.mine,hg'.revoker,hg'.leads,fun hkey => ?_⟩
    have hany : writes.any (revokes key)=true := any_eq_true.mpr ⟨_,hmem,decide_eq_true hkey⟩
    simp only [watch,hany,Bool.or_true]
  unfold recordRevocation
  split
  · refine watched_request ?_ ?_
    · intro r
      refine hobeys g _ r hg fun w hw => ?_
      simpa only [mem_cons,not_mem_nil,or_false] using hw
    · intro r hr
      exact hQ _ _ (hcommitted g _ r hg hr (mem_cons_of_mem _ mem_cons_self))
  refine watched_request ?_ ?_
  · intro r
    exact hobeys g _ r hg fun w hw => .inl (mem_singleton.mp hw)
  intro r hr
  rw [show r=.ok () from hr]
  have hg₁ : Revoking (watch ca key g (.withinTx [.updateCertificate cert]) (.ok ())) := ⟨hg.mine,hg.revoker,hg.leads⟩
  refine watched_request ?_ ?_
  · intro r'
    exact hobeys _ _ r' hg₁ fun w hw => .inr (mem_singleton.mp hw)
  · intro r' hr'
    exact hQ _ _ (hcommitted _ _ r' hg₁ hr' mem_cons_self)

variable {actor : String}

theorem watched_revokeLatestVersion
    (hrepo : svc.revocationRepo=true) (hlong : shortLivedCert db₀ certID=false) (hg : Revoking g)
    (hcert : ∀ revoked,revoked.id=cert.id → revoked.certificateProfileID=cert.certificateProfileID →
      allowed key db₀ g (.updateCertificate revoked)) :
    Watched ca key db₀ (fun _ g' => g'.leads=none ∧ g'.mine=false)
      (revokeLatestVersion svc cert certID reason actor) g := by
  refine watched_request (fun _ => rfl) fun r _ => ?_
  cases r with
  | error => exact ⟨hg.leads,hg.mine⟩
  | ok =>
    refine watched_request (fun _ => rfl) fun now _ => ?_
    refine watched_request (fun _ => rfl) fun id _ => ?_
    refine tracked_bind.mpr
      (watched_recordRevocation hrepo ⟨hg.mine,hg.revoker,hg.leads⟩ (hcert _ rfl rfl) (fun _ => hlong) ?_)
    intro r g' hg'
    cases r with
    | error => exact ⟨hg'.leads,hg'.mine⟩
    | ok => exact watched_announceRevocation hg'

/-- The revocation of the pool, with the result type shared by all calls. -/
def revokeCall (svc : RevocationSvc) (certID reason actor : String) : Service (Try (Option OCSPResponse)) := do
  let done ← revokeCertificateWithActor svc certID reason actor
  pure (done.map fun _ => none)

theorem watched_revokeCall (hrepo : svc.revocationRepo=true)
    (hlong : shortLivedCert db₀ certID=false) (hg : Revoking g) :
    Watched ca key db₀ settled (revokeCall svc certID reason actor) g := by
  have hdone : ∀ result g',g'.leads=none ∧ g'.mine=false → settled result g' := by
    intro result g' h
    refine ⟨h.1,fun hm => ?_⟩
    rw [h.2] at hm
    cases hm
  refine tracked_bind.mpr ?_
  refine Prog.Tracked.mono (fun done g' h => hdone _ g' h) ?_
  refine watched_request (fun _ => rfl) fun r hr => ?_
  cases r with
  | error => exact ⟨hg.leads,hg.mine⟩
  | ok cert =>
    obtain ⟨hid,hprofile⟩ := hr cert rfl
    dsimp only
    split
    · exact ⟨hg.leads,hg.mine⟩
    split
    · exact ⟨hg.leads,hg.mine⟩
    split
    · exact ⟨hg.leads,hg.mine⟩
    refine watched_revokeLatestVersion hrepo hlong ⟨hg.mine,hg.revoker,hg.leads⟩ ?_
    intro revoked hrevoked hsame
    simp only [allowed,hrevoked,hid,hsame]
    exact hprofile

end Revoking

end Certctl.OcspRequestTracking
