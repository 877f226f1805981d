import Certctl.AcmeEndpoints
import Certctl.AcmeInsertedColumns

/-!
# The profile of an ACME certificate

Registrations, new orders and finalize requests each name a profile in
their URL. An account keeps the profile it was registered under, but it is
looked up by its id alone, an order keeps no profile, and finalizing
applies the policy of the profile in its own URL. The three are one profile
in runs whose orders and finalize requests are sent under the profile of
the account that signs them, and the server does not check that.
-/

namespace Certctl.AcmeProfileBinding

open AtomicProgram Prog AtomicInterleaving ControlPlaneTables ControlPlaneStore DomainRecords RecordTable StoreExtension
open List hiding lookup
open AcmeServerStore AcmeOrders AcmeChallenges AcmeAccounts AcmeSignedRequests AcmeEndpoints AcmeInsertedColumns

variable {Key ι : Type} {orderID accountID profileID : String} {ev : Event acmeServer ι} {op : acmeServer.Op}
  {req : SignedRequest} {t : ι}

/-- The requests of a run. -/
inductive ProfileCall where
  | newAccount (req : SignedRequest)
  | newOrder (req : SignedRequest)
  | finalize (orderID : String) (req : SignedRequest)
  /-- Anything that neither makes accounts or orders, nor changes profiles, nor asks an issuer. -/
  | other (p : Acme Response)

def ProfileCall.program (e : Endpoints Key) : ProfileCall→Acme Response
  | .newAccount req => handle e .newAccount req
  | .newOrder req => handle e .newOrder req
  | .finalize orderID req => handle e (.orderFinalize orderID) req
  | .other p => p

def profileCalls (e : Endpoints Key) (calls : ι→ProfileCall) : ι→Acme Response := fun t => (calls t).program e

def ProfileCall.ordering : ProfileCall→Option SignedRequest
  | .newOrder req => some req
  | .finalize _ req => some req
  | _ => none

/-- Writes of calls that are none of the three requests. -/
def BystanderWrite : AcmeWrite→Prop
  | .createAccount _ => False
  | .createOrder _ => False
  | .row (.updateProfile _) => False
  | _ => True

def asksIssuer : acmeServer.Op→Prop
  | .inl (.issueCertificate _ _ _ _ _ _ _) => True
  | _ => False

/-- Operations of calls that are none of the three requests. -/
def Bystander (op : acmeServer.Op) : Prop := ¬asksIssuer op ∧ ∀ w∈writesOf op,BystanderWrite w

/-- The request is sent under the profile of the account that its signature is checked for. -/
def ownProfile (e : Endpoints Key) (call : ProfileCall) (s : AcmeState) : acmeServer.Op→Bool
  | .inr (.getAccountByID accountID) =>
    match call.ordering,accountProfile accountID s with
    | some req,some profileID => profileID=resolvedID e.toACMEService req.profileID
    | _,_ => true
  | _ => true

/-- New orders and finalize requests are sent under the profile of the account that signs them. -/
def underOwnProfile (e : Endpoints Key) (calls : ι→ProfileCall) : StepCondition acmeServer ι Response :=
  fun cfg t op _ => ownProfile e (calls t) cfg.state op=true

instance (e : Endpoints Key) (calls : ι→ProfileCall) (cfg : Config acmeServer ι Response) (t : ι) (op : acmeServer.Op)
    (c : acmeServer.Choice) : Decidable (underOwnProfile e calls cfg t op c) :=
  inferInstanceAs (Decidable (ownProfile e (calls t) cfg.state op=true))

def AppliesPolicy (db : Db) (profileID : String) (ekus : List String) (maxTTLSeconds : ℤ) (mustStaple : Bool) : Prop :=
  ∃ row,lookup CertificateProfile.id profileID db.profiles=some row ∧ ekus=ekusOf row ∧
    maxTTLSeconds=row.maxTTLSeconds ∧ mustStaple=row.mustStaple

def insertsOrder (orderID : String) : AcmeWrite→Bool
  | .createOrder order => order.orderID=orderID
  | _ => false

def insertsAccount (accountID : String) : AcmeWrite→Bool
  | .createAccount acct => acct.accountID=accountID
  | _ => false

def MadeOrder (orderID : String) (ev : Event acmeServer ι) : Prop :=
  (committedWrites ev.op ev.res).any (insertsOrder orderID)=true

def Registered (accountID : String) (ev : Event acmeServer ι) : Prop :=
  (committedWrites ev.op ev.res).any (insertsAccount accountID)=true

theorem madeOrder_iff :
    MadeOrder orderID ev ↔ ∃ order,AcmeWrite.createOrder order∈committedWrites ev.op ev.res ∧ order.orderID=orderID := by
  rw [MadeOrder,any_eq_true]
  refine ⟨?_,fun ⟨order,hw,hid⟩ => ⟨.createOrder order,hw,decide_eq_true hid⟩⟩
  rintro ⟨w,hw,hinserts⟩
  cases w with
  | createOrder order => exact ⟨order,hw,of_decide_eq_true hinserts⟩
  | _ => cases hinserts

theorem registered_iff : Registered accountID ev ↔
      ∃ acct,AcmeWrite.createAccount acct∈committedWrites ev.op ev.res ∧ acct.accountID=accountID := by
  rw [Registered,any_eq_true]
  refine ⟨?_,fun ⟨acct,hw,hid⟩ => ⟨.createAccount acct,hw,decide_eq_true hid⟩⟩
  rintro ⟨w,hw,hinserts⟩
  cases w with
  | createAccount acct => exact ⟨acct,hw,of_decide_eq_true hinserts⟩
  | _ => cases hinserts

def OrderMadeUnder (e : Endpoints Key) (calls : ι→ProfileCall) (log : Log acmeServer ι)
    (orderID profileID : String) : Prop :=
  (∃ ev∈log,MadeOrder orderID ev) ∧ ∀ ev∈log,MadeOrder orderID ev →
    ∃ req,calls ev.thread=.newOrder req ∧ resolvedID e.toACMEService req.profileID=profileID

def RegisteredUnder (e : Endpoints Key) (calls : ι→ProfileCall) (log : Log acmeServer ι)
    (accountID profileID : String) : Prop :=
  (∃ ev∈log,Registered accountID ev) ∧ ∀ ev∈log,Registered accountID ev →
    ∃ req,calls ev.thread=.newAccount req ∧ resolvedID e.toACMEService req.profileID=profileID

variable {r : acmeServer.Res op} {call : ProfileCall}

section Tracking

/-- What a call has learnt. -/
structure Known where
  call : ProfileCall
  signer : Option Account := none
  order : Option Order := none

def learn (g : Known) : acmeServer.Obs Known
  | .inr (.getAccountByID _),.ok acct => {g with signer := some acct}
  | .inl (.getOrderByID _),.ok order => {g with order := some order}
  | _,_ => g

/-- Accounts are written under the profile of the request, and orders for the account that signs. -/
def WriteBound (e : Endpoints Key) (g : Known) : AcmeWrite→Prop
  | .createAccount acct => ∃ req,g.call=.newAccount req ∧ acct.profileID=resolvedID e.toACMEService req.profileID
  | .createOrder order => ∃ req acct,g.call=.newOrder req ∧ g.signer=some acct ∧ order.accountID=acct.accountID
  | .row (.updateProfile _) => False
  | _ => True

/-- The issuer is asked under the profile of the request, for an order of the account that signs. -/
def IssueBound (e : Endpoints Key) (db : Db) (g : Known) : acmeServer.Op→Prop
  | .inl (.issueCertificate _ _ _ _ ekus maxTTLSeconds mustStaple) =>
    ∃ orderID req acct order,g.call=.finalize orderID req ∧ g.signer=some acct ∧ g.order=some order ∧
      order.orderID=orderID ∧ order.accountID=acct.accountID ∧
      AppliesPolicy db (resolvedID e.toACMEService req.profileID) ekus maxTTLSeconds mustStaple
  | _ => True

/-- What every operation of a call meets. -/
def Bound (e : Endpoints Key) (db : Db) (g : Known) (op : acmeServer.Op) (_ : acmeServer.Res op) : Prop :=
  IssueBound e db g op ∧ ∀ w∈writesOf op,WriteBound e g w

def StoredProfile (db : Db) : acmeServer.Obs Prop
  | .inl (.getProfile id),.ok profile => AppliesPolicy db id (ekusOf profile) profile.maxTTLSeconds profile.mustStaple
  | _,_ => True

def Answers (db : Db) (op : acmeServer.Op) (r : acmeServer.Res op) : Prop :=
  acmeServer.CanAnswer op r ∧ StoredProfile db op r

abbrev BoundCall {α : Type} (e : Endpoints Key) (db : Db) (Q : α→Known→Prop) (p : Acme α) (g : Known) : Prop :=
  p.Tracked (Answers db) (Bound e db) learn Q g

variable {e : Endpoints Key} {db : Db} {g : Known}

theorem bound_bystander (h : Bystander op) : Bound e db g op r := by
  refine ⟨?_,fun w hw => ?_⟩
  · unfold IssueBound
    split
    · exact absurd trivial h.1
    · trivial
  have hplain := h.2 w hw
  unfold WriteBound
  split
  · exact hplain.elim
  · exact hplain.elim
  · exact hplain.elim
  · trivial

theorem bound_of_uses {α : Type} {p : Acme α} (h : p.Uses Bystander) : BoundCall e db (fun _ _ => True) p g := by
  refine tracked_of_uses ?_ h trivial
  intro g' op r _ hop
  exact ⟨bound_bystander hop,trivial⟩

theorem bystander_of_nil (hissuer : ¬asksIssuer op) (hwrites : writesOf op=[]) : Bystander op := by
  refine ⟨hissuer,fun w hw => ?_⟩
  rw [hwrites] at hw
  cases hw

theorem bystander_nextNonce : (nextNonce e).Uses Bystander := by
  refine uses_nextNonce (bystander_of_nil id rfl) fun nonce => ?_
  exact bystander_of_nil id rfl

theorem bystander_shown (order : Order) (answer : String→OrderResponse→Response) :
    ((nextNonce e).bind fun nonce => (marshalOrderForResponse req order).bind fun shown =>
      .ret (answer nonce shown)).Uses Bystander := by
  refine uses_bind bystander_nextNonce fun nonce => ?_
  refine uses_bind (uses_marshalOrderForResponse (fun orderID => ?_) order) fun shown => trivial
  exact bystander_of_nil id rfl

theorem bound_verifyJWS (jose : Jose Key) (req : SignedRequest) (expectNewAccount : Bool) :
    BoundCall e db (fun r g' => g'.call=g.call ∧ ∀ v acct,r=.ok v → v.account=some acct → g'.signer=some acct)
      (verifyJWS jose req expectNewAccount) g := by
  have hread : ∀ op : AcmeOp,writesOf (.inr op)=[] → ∀ g' r,Bound e db g' (.inr op) r :=
    fun op hop g' r => bound_bystander (bystander_of_nil id hop)
  unfold verifyJWS
  split
  · exact ⟨rfl,nofun⟩
  rename_i sig _
  refine tracked_acme fun r _ => ⟨hread (.consumeNonce sig.nonce) rfl _ _,?_⟩
  cases r with
  | error => exact ⟨rfl,nofun⟩
  | ok =>
    dsimp only [verifyRedeemed]
    split
    · exact ⟨rfl,nofun⟩
    · split
      · exact ⟨rfl,nofun⟩
      rename_i accountID _
      refine tracked_bind.mpr (tracked_acme fun r _ => ?_)
      refine ⟨hread (.getAccountByID accountID) rfl _ _,?_⟩
      cases r with
      | error =>
        dsimp only
        split <;> exact ⟨rfl,nofun⟩
      | ok =>
        refine ⟨rfl,fun v acct hv haccount => ?_⟩
        obtain ⟨-,-,-,-,-,hsome,-⟩ := verifiedBy_ok hv
        rw [hsome] at haccount
        exact haccount
    · refine ⟨rfl,fun v acct hv haccount => ?_⟩
      obtain ⟨-,-,-,-,-,hnone,-⟩ := verifiedBy_ok hv
      rw [hnone] at haccount
      cases haccount

theorem bound_handle (endpoint : Endpoint) {expectNewAccount : Bool}
    (hverify : endpoint.verify e req=verifyJWS e.jose req expectNewAccount)
    (hserve : ∀ v g',g'.call=g.call → (∀ acct,v.account=some acct → g'.signer=some acct) →
      BoundCall e db (fun _ _ => True) (endpoint.serve e req v) g') :
    BoundCall e db (fun _ _ => True) (handle e endpoint req) g := by
  unfold handle
  split
  · trivial
  rw [hverify]
  refine tracked_bind.mpr ((bound_verifyJWS e.jose req expectNewAccount).mono ?_)
  rintro r g' ⟨hcall,hsigner⟩
  cases r with
  | error => trivial
  | ok v => exact hserve v g' hcall fun acct hacct => hsigner v acct rfl hacct

theorem bound_newAccount (hcall : g.call=.newAccount req) :
    BoundCall e db (fun _ _ => True) (handle e .newAccount req) g := by
  refine bound_handle .newAccount rfl fun v g' hsame _ => ?_
  rw [hcall] at hsame
  dsimp only [Endpoint.serve,AcmeEndpoints.newAccount]
  split
  · trivial
  split
  · trivial
  rename_i contact only _ _ jwk _
  have huses : (AcmeAccounts.newAccount e.toAccountServer req.profileID jwk contact only).Uses fun op =>
      ∀ (g' : Known) r,g'.call=.newAccount req → Bound e db g' op r ∧ (learn g' op r).call=.newAccount req := by
    refine uses_newAccount ?_ ?_ ?_
    · intro g' r hg
      refine ⟨bound_bystander (bystander_of_nil id rfl),hg⟩
    · intro thumbprint g' r hg
      exact ⟨bound_bystander (bystander_of_nil id rfl),hg⟩
    · intro acct hprofile g' r hg
      exact ⟨⟨trivial,forall_mem_singleton.mpr ⟨req,hg,hprofile⟩⟩,hg⟩
  refine tracked_bind.mpr ((tracked_of_uses (I := fun g' : Known => g'.call=.newAccount req)
    (fun g' op r hg hop => hop g' r hg) huses hsame).mono ?_)
  rintro r g'' -
  cases r with
  | error => trivial
  | ok => exact bound_of_uses (uses_bind bystander_nextNonce fun _ => trivial)

theorem bound_newOrder (hcall : g.call=.newOrder req) :
    BoundCall e db (fun _ _ => True) (handle e .newOrder req) g := by
  refine bound_handle .newOrder rfl fun v g' hsame hsigner => ?_
  rw [hcall] at hsame
  dsimp only [Endpoint.serve,AcmeEndpoints.newOrder,withAccount]
  split
  · trivial
  rename_i acct hacct
  have hacct := hsigner acct hacct
  split
  · trivial
  split
  · have hquiet : ∀ op r,creationOp op → Bound e db g' op r ∧ learn g' op r=g' := by
      intro op r hop
      cases op with
      | inl op =>
        cases op with
        | getProfile | timeNow | randIDSuffix => exact ⟨bound_bystander (bystander_of_nil id rfl),rfl⟩
        | _ => exact hop.elim
      | inr op =>
        cases op with
        | allow | countActiveOrdersByAccount => exact ⟨bound_bystander (bystander_of_nil id rfl),rfl⟩
        | _ => exact hop.elim
    refine tracked_bind.mpr ((tracked_createOrder hquiet fun writes r hwrites => ?_).mono ?_)
    · refine ⟨⟨trivial,?_⟩,rfl⟩
      obtain ⟨trusted,order,rest,rfl,howner,-,hrest⟩ := hwrites
      intro w hw
      rcases mem_cons.mp hw with rfl|hmem
      · exact ⟨req,acct,hsame,hacct,howner⟩
      obtain ⟨now,ttl,id,authzSuffix,challengeSuffix,token,hdrawn⟩ := hrest w hmem
      rcases mem_identifierWrites hdrawn with ⟨authz,rfl,-⟩|⟨ch,rfl⟩ <;> trivial
    · rintro r g'' -
      cases r with
      | error => trivial
      | ok order => exact bound_of_uses (bystander_shown order _)
  · trivial

/-- What a finalize call knows from the moment on at which it has read the order. -/
structure FoundOrder (orderID : String) (req : SignedRequest) (acct : Account) (order : Order) (g : Known) : Prop where
  call : g.call=.finalize orderID req
  /-- The account that its signature was checked for. -/
  signer : g.signer=some acct
  read : g.order=some order
  named : order.orderID=orderID
  owned : order.accountID=acct.accountID

theorem finalizeRules_bound (e : Endpoints Key) (db : Db) (orderID : String) (req : SignedRequest) (acct : Account)
    (csr : CertificateRequest) (csrPEM : String) : FinalizeRules e.toACMEService acct.accountID orderID req.profileID csr csrPEM
      (fun op r => Answers db (.inl op) r) (fun g op r => Bound e db g (.inl op) r) (fun g op r => learn g (.inl op) r)
      (fun g => g.call=.finalize orderID req ∧ g.signer=some acct) (FoundOrder orderID req acct)
      (fun _ profile g => (∃ order,FoundOrder orderID req acct order g) ∧
        AppliesPolicy db (resolvedID e.toACMEService req.profileID) (ekusOf profile) profile.maxTTLSeconds
          profile.mustStaple) (fun _ _ _ => True) where
  quiet := by
    intro g op r hop
    cases op with
    | withinTx =>
      obtain ⟨cert,rfl⟩ := hop
      exact ⟨⟨trivial,forall_mem_singleton.mpr trivial⟩,rfl⟩
    | getProfile | firstAvailableIssuer | randIDSuffix
    | validateCertificate => exact ⟨bound_bystander (bystander_of_nil id rfl),rfl⟩
    | _ => exact hop.elim
  read := by
    intro g r hbegun hr
    refine ⟨bound_bystander (bystander_of_nil id rfl),fun order hok howner _ => ?_⟩
    subst hok
    obtain ⟨⟨c,s,s',hperform⟩,-⟩ := hr
    have hid := (lookup_some (readRow_ok (effect_of_acme hperform).1).1).2
    exact ⟨hbegun.1,hbegun.2,rfl,hid,howner⟩
  reject := by
    intro g order problem r _ _
    exact ⟨trivial,forall_mem_singleton.mpr trivial⟩
  mark := by
    intro g order profile r hfound _ hprofile
    exact ⟨⟨trivial,forall_mem_singleton.mpr trivial⟩,fun _ => ⟨⟨order,hfound⟩,hprofile.2⟩⟩
  issue := by
    intro g order profile issuerID r hmarked
    obtain ⟨⟨found,hfound⟩,hpolicy⟩ := hmarked
    refine ⟨⟨?_,fun w hw => (nomatch hw)⟩,trivial⟩
    exact ⟨orderID,req,acct,found,hfound.call,hfound.signer,hfound.read,hfound.named,hfound.owned,hpolicy⟩
  fail := by
    intro g order profile problem r _
    exact ⟨trivial,forall_mem_singleton.mpr trivial⟩
  complete := by
    intro g order profile version certID r _
    exact ⟨trivial,forall_mem_cons.mpr ⟨trivial,forall_mem_singleton.mpr trivial⟩⟩

theorem bound_finalize (hcall : g.call=.finalize orderID req) :
    BoundCall e db (fun _ _ => True) (handle e (.orderFinalize orderID) req) g := by
  refine bound_handle (.orderFinalize orderID) rfl fun v g' hsame hsigner => ?_
  rw [hcall] at hsame
  dsimp only [Endpoint.serve,AcmeEndpoints.orderFinalize,withAccount]
  split
  · trivial
  rename_i acct hacct
  split
  · trivial
  rename_i csr csrPEM _
  have hfinalize := tracked_finalize (finalizeRules_bound e db orderID req acct csr csrPEM) ⟨hsame,hsigner acct hacct⟩
  refine tracked_bind.mpr ((tracked_lift hfinalize).mono ?_)
  rintro r g'' -
  cases r with
  | error => trivial
  | ok result => exact bound_of_uses (bystander_shown result.order _)

theorem bound_program (hother : ∀ p,call=.other p → p.Uses Bystander) :
    BoundCall e db (fun _ _ => True) (call.program e) ⟨call,none,none⟩ := by
  cases call with
  | newAccount => exact bound_newAccount rfl
  | newOrder => exact bound_newOrder rfl
  | finalize => exact bound_finalize rfl
  | other p => exact bound_of_uses (hother p rfl)

end Tracking

section Runs

variable [DecidableEq ι] {e : Endpoints Key} {calls : ι→ProfileCall} {s : AcmeState} {cfg : Config acmeServer ι Response}

theorem storedProfile_of_perform {c : Choice} {db : Db} {a a' : AcmeState}
    (hprofiles : a.1.profiles=db.profiles) (h : acmeServer.perform op c a=some (r,a')) : StoredProfile db op r := by
  unfold StoredProfile
  split
  · have hread := (readRow_ok (effect_of_acme h).1).1
    obtain ⟨row,hrow,rfl⟩ := Option.map_eq_some_iff.mp hread
    rw [hprofiles] at hrow
    exact ⟨row,hrow,rfl,rfl,rfl⟩
  · trivial

section

variable (hother : ∀ t p,calls t=.other p → p.Uses Bystander)
  (hreach : Reach (underOwnProfile e calls) (initial (profileCalls e calls) s) cfg)
include hother hreach

theorem bound_reach : cfg.state.1.profiles=s.1.profiles ∧
      AllTracked (Answers s.1) (Bound e s.1) learn (fun _ _ => True) (fun t => ⟨calls t,none,none⟩) cfg := by
  refine reach_tracked (I := fun b : Config acmeServer ι Response => b.state.1.profiles=s.1.profiles)
    ?_ hreach (fun t => bound_program (hother t)) rfl ?_
  · intro a t op c r s' ha _ hperform
    exact ⟨⟨c,a.state,s',hperform⟩,storedProfile_of_perform ha hperform⟩
  intro a t op c r s' ha _ _ hperform hpre k _
  have hview : id s'.1.profiles=id a.state.1.profiles := by
    refine acme_profileView (fun w hw c x => acmeWritten_profiles c x fun profile he => ?_) hperform
    have hbound := hpre.2 w hw
    rw [he] at hbound
    exact hbound
  exact hview.trans ha

theorem bound_of_mem (hev : ev∈cfg.log) : ∃ a,Reach (underOwnProfile e calls) (initial (profileCalls e calls) s) a ∧
      (∀ x∈a.log,x∈cfg.log) ∧ Bound e s.1 (ghost learn ⟨calls ev.thread,none,none⟩ ev.thread a.log) ev.op ev.res := by
  obtain ⟨a,c,s',hmoment⟩ := exists_moment hreach hev not_mem_nil
  obtain ⟨k,hthread,hafter⟩ := hmoment.after
  obtain ⟨hprofiles,htracked⟩ := bound_reach hother hmoment.before
  have hcall := htracked ev.thread
  rw [hthread] at hcall
  refine ⟨a,hmoment.before,fun x hx => (log_suffix hafter).subset (mem_cons_of_mem _ hx),?_⟩
  exact (hcall ev.res ⟨⟨c,a.state,s',hmoment.performed⟩,storedProfile_of_perform hprofiles hmoment.performed⟩).1

end

theorem call_of_ghost (call : ProfileCall) (t : ι) (log : Log acmeServer ι) :
    (ghost learn ⟨call,none,none⟩ t log).call=call := by
  refine ghost_keeps (P := fun g : Known => g.call=call) rfl (fun g op r hg => ?_) t log
  unfold learn
  split <;> exact hg

variable {log : Log acmeServer ι} {acct : Account}

theorem signer_read (h : (ghost learn ⟨call,none,none⟩ t log).signer=some acct) :
    ∃ id,⟨t,.inr (.getAccountByID id),Except.ok acct⟩∈log := by
  obtain ⟨g,op,r,hmem,hnot,hturn⟩ := ghost_origin (P := fun g : Known => g.signer=some acct)
    (fun hn => Option.some_ne_none acct hn.symm) h
  unfold learn at hturn
  split at hturn
  · rename_i id found
    cases hturn
    exact ⟨id,hmem⟩
  · exact absurd hturn hnot
  · exact absurd hturn hnot

theorem order_read {order : Order} (h : (ghost learn ⟨call,none,none⟩ t log).order=some order) :
    ∃ id,⟨t,.inl (.getOrderByID id),Except.ok order⟩∈log := by
  obtain ⟨g,op,r,hmem,hnot,hturn⟩ := ghost_origin (P := fun g : Known => g.order=some order)
    (fun hn => Option.some_ne_none order hn.symm) h
  unfold learn at hturn
  split at hturn
  · exact absurd hturn hnot
  · rename_i id found
    cases hturn
    exact ⟨id,hmem⟩
  · exact absurd hturn hnot

theorem signer_profile (hreach : Reach (underOwnProfile e calls) (initial (profileCalls e calls) s) cfg)
    (hlog : ∀ ev∈log,ev∈cfg.log) (hordering : (calls t).ordering=some req)
    (hsigner : (ghost learn ⟨call,none,none⟩ t log).signer=some acct) :
    ⟨t,.inr (.getAccountByID acct.accountID),Except.ok acct⟩∈cfg.log ∧
      accountProfile acct.accountID cfg.state=some (resolvedID e.toACMEService req.profileID) := by
  obtain ⟨id,hread⟩ := signer_read hsigner
  obtain ⟨a,c,s',hmoment⟩ := exists_moment hreach (hlog _ hread) not_mem_nil
  have hstored := (readRow_ok (acmeEffect_of_perform hmoment.performed)).1
  have hprofile : accountProfile id a.state=some acct.profileID := by
    have hlookup : lookup Account.accountID id a.state.2.accounts=some acct := hstored
    rw [accountProfile,hlookup,Option.map_some]
  have hadmitted : ownProfile e (calls t) a.state (.inr (.getAccountByID id))=true := hmoment.admitted
  simp only [ownProfile,hordering,hprofile,decide_eq_true_eq] at hadmitted
  rw [(lookup_some hstored).2,← hadmitted]
  exact ⟨hlog _ hread,(accountProfile_setOnce id).persists hprofile hmoment.reach⟩

theorem owner_setOnce (orderID : String) : SetOnce (orderColumn Order.accountID orderID)
    (orderInsert Order.accountID orderID) := by
  refine orderColumn_setOnce (fun _ _ => rfl) (fun now row => ?_) orderID
  unfold sweptOrder
  split <;> rfl

theorem registered_under (hother : ∀ t p,calls t=.other p → p.Uses Bystander) (haccounts : s.2.accounts=[])
    (hreach : Reach (underOwnProfile e calls) (initial (profileCalls e calls) s) cfg)
    (hstored : accountProfile accountID cfg.state=some profileID) :
    RegisteredUnder e calls cfg.log accountID profileID := by
  refine ⟨?_,?_⟩
  · have hnone : accountProfile accountID s=none := by
      rw [accountProfile,haccounts]
      rfl
    obtain ⟨ev,hev,w,hw,hset⟩ := (accountProfile_setOnce accountID).origin hnone hreach hstored
    cases w with
    | createAccount acct =>
      simp only [accountInsert] at hset
      split at hset
      · rename_i hid
        exact ⟨ev,hev,registered_iff.mpr ⟨acct,hw,hid⟩⟩
      · cases hset
    | _ => cases hset
  · intro ev hev hregistered
    obtain ⟨acct,hw,rfl⟩ := registered_iff.mp hregistered
    have hset := (accountProfile_setOnce acct.accountID).settled hreach hev hw (if_pos rfl)
    have hsame : acct.profileID=profileID := Option.some.inj (hset.symm.trans hstored)
    obtain ⟨a,-,-,hbound⟩ := bound_of_mem hother hreach hev
    obtain ⟨req,hcall,hprofile⟩ := hbound.2 (.createAccount acct) (mem_writesOf hw)
    rw [call_of_ghost] at hcall
    exact ⟨req,hcall,hprofile.symm.trans hsame⟩

theorem order_made_under (hother : ∀ t p,calls t=.other p → p.Uses Bystander) (horders : s.1.orders=[])
    (hreach : Reach (underOwnProfile e calls) (initial (profileCalls e calls) s) cfg)
    (hstored : orderColumn Order.accountID orderID cfg.state=some accountID)
    (haccount : accountProfile accountID cfg.state=some profileID) :
    OrderMadeUnder e calls cfg.log orderID profileID := by
  refine ⟨?_,?_⟩
  · have hnone : orderColumn Order.accountID orderID s=none := by
      rw [orderColumn,horders]
      rfl
    obtain ⟨ev,hev,w,hw,hset⟩ := (owner_setOnce orderID).origin hnone hreach hstored
    cases w with
    | createOrder order =>
      simp only [orderInsert] at hset
      split at hset
      · rename_i hid
        exact ⟨ev,hev,madeOrder_iff.mpr ⟨order,hw,hid⟩⟩
      · cases hset
    | _ => cases hset
  intro ev hev hmade
  obtain ⟨order,hw,rfl⟩ := madeOrder_iff.mp hmade
  have hset := (owner_setOnce order.orderID).settled hreach hev hw (if_pos rfl)
  have howner : order.accountID=accountID := Option.some.inj (hset.symm.trans hstored)
  obtain ⟨a,-,hlog,hbound⟩ := bound_of_mem hother hreach hev
  obtain ⟨req,acct,hcall,hsigner,hsame⟩ := hbound.2 (.createOrder order) (mem_writesOf hw)
  rw [call_of_ghost] at hcall
  obtain ⟨-,hprofile⟩ := signer_profile hreach hlog (congrArg ProfileCall.ordering hcall) hsigner
  rw [← hsame,howner,haccount] at hprofile
  exact ⟨req,hcall,(Option.some.inj hprofile).symm⟩

/-- In every run of registrations, orders, finalize requests and other work, from a store without accounts and orders,
in which new orders and finalize requests are sent under the profile of the account that signs them: whenever an issuer
is asked, a finalize request asks it, usages, lifetime and stapling are those of the profile of that request, the order
was made under that profile, and the account that signs was registered under it. -/
theorem finalize_applies_own_profile (e : Endpoints Key) (calls : ι→ProfileCall)
    (hother : ∀ t p,calls t=.other p → p.Uses Bystander) (s : AcmeState) (horders : s.1.orders=[])
    (haccounts : s.2.accounts=[]) (cfg : Config acmeServer ι Response)
    (hreach : Reach (underOwnProfile e calls) (initial (profileCalls e calls) s) cfg) (t : ι)
    (issuerID commonName : String) (sans : List String) (csrPEM : String) (ekus : List String) (maxTTLSeconds : ℤ)
    (mustStaple : Bool) (r : Try IssuanceResult)
    (hasked : ⟨t,.inl (.issueCertificate issuerID commonName sans csrPEM ekus maxTTLSeconds mustStaple),r⟩∈cfg.log) :
    ∃ orderID req acct,calls t=.finalize orderID req ∧
      ⟨t,.inr (.getAccountByID acct.accountID),Except.ok acct⟩∈cfg.log ∧
      AppliesPolicy s.1 (resolvedID e.toACMEService req.profileID) ekus maxTTLSeconds mustStaple ∧
      OrderMadeUnder e calls cfg.log orderID (resolvedID e.toACMEService req.profileID) ∧
      RegisteredUnder e calls cfg.log acct.accountID (resolvedID e.toACMEService req.profileID) := by
  obtain ⟨a,ha,hlog,hbound⟩ := bound_of_mem hother hreach hasked
  obtain ⟨orderID,req,acct,order,hcall,hsigner,horder,hnamed,howned,hpolicy⟩ := hbound.1
  rw [call_of_ghost] at hcall
  obtain ⟨hread,hprofile⟩ := signer_profile hreach hlog (congrArg ProfileCall.ordering hcall) hsigner
  have howner : orderColumn Order.accountID orderID cfg.state=some acct.accountID := by
    obtain ⟨id,hfound⟩ := order_read horder
    obtain ⟨b,c,s',hmoment⟩ := exists_moment hreach (hlog _ hfound) not_mem_nil
    have hstored : lookup Order.orderID id b.state.1.orders=some order :=
      (readRow_ok (effect_of_acme hmoment.performed).1).1
    have hbefore : orderColumn Order.accountID orderID b.state=some acct.accountID := by
      rw [orderColumn,← hnamed,(lookup_some hstored).2,hstored,Option.map_some,howned]
    exact (owner_setOnce orderID).persists hbefore hmoment.reach
  exact ⟨orderID,req,acct,hcall,hread,hpolicy,order_made_under hother horders hreach howner hprofile,
    registered_under hother haccounts hreach hprofile⟩

/-- The header of a message, by the nonce that stands for its body: a registration and a new order under the first
profile, and a finalize request under either. -/
def sampleHeader (body : String) : SignatureHeader Unit :=
  if body="n1" then ⟨"ES256",[("url",.text "https://ca/acme/profile/p1/new-account")],"n1","",some ()⟩
  else if body="n2" then ⟨"ES256",[("url",.text "https://ca/acme/profile/p1/new-order")],"n2",
    "https://ca/acme/profile/p1/account/acme-acc-AQ",none⟩
  else if body="n3" then ⟨"ES256",[("url",.text "https://ca/acme/profile/p1/order/acme-ord-o/finalize")],"n3",
    "https://ca/acme/profile/p1/account/acme-acc-AQ",none⟩
  else ⟨"ES256",[("url",.text "https://ca/acme/profile/p2/order/acme-ord-o/finalize")],"n4",
    "https://ca/acme/profile/p2/account/acme-acc-AQ",none⟩

def sampleEndpoints : Endpoints Unit where
  toLower := id
  quote := id
  thumbprint := fun _ => .ok [1]
  jwkToPEM := fun _ => .ok "key"
  nonceTTL := 100
  jose := ⟨fun body => .ok ⟨[sampleHeader body],"p"⟩,fun _ _ => .ok "p",fun _ => true,fun _ => .ok (),id⟩
  revocation := {revoker := none, parseCertificate := fun _ => none, jwkThumbprint := fun _ => .ok "AQ"}
  decodeNewAccount := fun _ => some ([],false)
  decodeAccountUpdate := fun _ => none
  decodeNewOrder := fun _ => some [⟨"dns","example.com"⟩]
  decodeFinalize := fun _ => some "AQ"
  decodeRevocation := fun _ => none
  parseCertificateRequest := fun _ => some ⟨"example.com",[]⟩
  encodeRequest := fun _ => "csr"
  keyChangeInner := fun _ _ _ _ => .error (malformed "")

def sampleStart : AcmeState :=
  ({profiles := [{id := "p1", maxTTLSeconds := 1},{id := "p2", maxTTLSeconds := 2}], issuers := ["iss"]},
    {nonces := [⟨"n1",100,false⟩,⟨"n2",100,false⟩,⟨"n3",100,false⟩,⟨"n4",100,false⟩]})

/-- A registration and a new order under the first profile, and a finalize request. -/
def sampleCalls (finalize : SignedRequest) : Fin 3→ProfileCall
  | 0 => .newAccount ⟨true,"ca","/acme/profile/p1/new-account","p1","n1"⟩
  | 1 => .newOrder ⟨true,"ca","/acme/profile/p1/new-order","p1","n2"⟩
  | 2 => .finalize "acme-ord-o" finalize

def sameProfile : SignedRequest := ⟨true,"ca","/acme/profile/p1/order/acme-ord-o/finalize","p1","n3"⟩

def otherProfile : SignedRequest := ⟨true,"ca","/acme/profile/p2/order/acme-ord-o/finalize","p2","n4"⟩

def sampleSchedule : List (Fin 3×Choice) :=
  List.replicate 6 (0,{fresh := "a"})++List.replicate 13 (1,{fresh := "o"})++List.replicate 8 (2,noFault)

def sampleAsked (maxTTLSeconds : ℤ) : Event acmeServer (Fin 3) :=
  ⟨2,.inl (.issueCertificate "iss" "example.com" ["example.com"] "csr" ["serverAuth"] maxTTLSeconds false),
    Except.ok ⟨"","","",zeroTime,zeroTime⟩⟩

/-- An order is made and finalized under the profile of its account. -/
theorem finalize_applies_own_profile_sample : ∃ cfg,
    Reach (underOwnProfile sampleEndpoints (sampleCalls sameProfile))
      (initial (profileCalls sampleEndpoints (sampleCalls sameProfile)) sampleStart) cfg ∧ sampleAsked 1∈cfg.log ∧
      AppliesPolicy sampleStart.1 "p1" ["serverAuth"] 1 false ∧
      OrderMadeUnder sampleEndpoints (sampleCalls sameProfile) cfg.log "acme-ord-o" "p1" := by
  refine reaches_view sampleSchedule (fun cfg => cfg.log.head?) (some (sampleAsked 1)) (by rfl)
    fun cfg hreach hhead => ?_
  have hasked := mem_of_head? hhead
  have hother : ∀ t p,sampleCalls sameProfile t=.other p → p.Uses Bystander := by
    intro t p ht
    unfold sampleCalls at ht
    split at ht <;> cases ht
  obtain ⟨orderID,req,acct,hcall,-,hpolicy,hmade,-⟩ := finalize_applies_own_profile sampleEndpoints
    (sampleCalls sameProfile) hother sampleStart rfl rfl cfg hreach 2 "iss" "example.com" ["example.com"] "csr"
    ["serverAuth"] 1 false _ hasked
  cases hcall
  exact ⟨hasked,hpolicy,hmade⟩

theorem sample_policy (h : AppliesPolicy sampleStart.1 profileID ["serverAuth"] 2 false) : profileID="p2" := by
  obtain ⟨row,hrow,-,httl,-⟩ := h
  obtain ⟨hmem,hid⟩ := lookup_some hrow
  have hcases : row∈[{id := "p1", maxTTLSeconds := 1},{id := "p2", maxTTLSeconds := 2}] := hmem
  rcases mem_cons.mp hcases with rfl|hlast
  · cases httl
  rw [mem_singleton.mp hlast] at hid
  exact hid.symm

/-- An account is registered and makes an order under the first profile, and a finalize request under the second one
that it signs has a certificate issued under the policy of the second, under which neither was made. -/
theorem finalize_under_other_profile : ∃ cfg,
    Reach anyStep (initial (profileCalls sampleEndpoints (sampleCalls otherProfile)) sampleStart) cfg ∧
      sampleAsked 2∈cfg.log ∧ (∃ ev∈cfg.log,ev.thread=1 ∧ MadeOrder "acme-ord-o" ev) ∧
      (∃ ev∈cfg.log,ev.thread=0 ∧ Registered "acme-acc-AQ" ev) ∧
      ∀ profileID,AppliesPolicy sampleStart.1 profileID ["serverAuth"] 2 false →
        ¬OrderMadeUnder sampleEndpoints (sampleCalls otherProfile) cfg.log "acme-ord-o" profileID ∧
        ¬RegisteredUnder sampleEndpoints (sampleCalls otherProfile) cfg.log "acme-acc-AQ" profileID := by
  refine reaches_view sampleSchedule (fun cfg => (cfg.log.head?,
    cfg.log.any fun ev => ev.thread=1 && (committedWrites ev.op ev.res).any (insertsOrder "acme-ord-o"),
    cfg.log.any fun ev => ev.thread=0 && (committedWrites ev.op ev.res).any (insertsAccount "acme-acc-AQ")))
    (some (sampleAsked 2),true,true) (by rfl) fun cfg _ hview => ?_
  obtain ⟨hhead,hrest⟩ := Prod.mk.inj hview
  obtain ⟨horder,haccount⟩ := Prod.mk.inj hrest
  obtain ⟨made,hmade,hboth⟩ := any_eq_true.mp horder
  obtain ⟨hmaker,hinserted⟩ := Bool.and_eq_true_iff.mp hboth
  obtain ⟨reg,hreg,hboth'⟩ := any_eq_true.mp haccount
  obtain ⟨hregistrar,hregistered⟩ := Bool.and_eq_true_iff.mp hboth'
  refine ⟨mem_of_head? hhead,⟨made,hmade,of_decide_eq_true hmaker,hinserted⟩,
    ⟨reg,hreg,of_decide_eq_true hregistrar,hregistered⟩,fun profileID hpolicy => ?_⟩
  rw [sample_policy hpolicy]
  refine ⟨fun hunder => ?_,fun hunder => ?_⟩
  · obtain ⟨req,hcall,hprofile⟩ := hunder.2 made hmade hinserted
    rw [of_decide_eq_true hmaker] at hcall
    cases hcall
    exact absurd hprofile (by decide)
  · obtain ⟨req,hcall,hprofile⟩ := hunder.2 reg hreg hregistered
    rw [of_decide_eq_true hregistrar] at hcall
    cases hcall
    exact absurd hprofile (by decide)

end Runs

end Certctl.AcmeProfileBinding
