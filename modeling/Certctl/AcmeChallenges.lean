import Certctl.AcmeOrders
import Certctl.AcmeServerStore
import Certctl.Base64Url

/-!
# Orders, challenges and sweeps of the ACME server

A new order is written in one transaction with an authorization and a
challenge for each identifier. A client that answers a challenge moves it
to processing and hands it to a validator; when the verdict is there, a
callback writes it to the challenge and the authorization and passes it on
to the order. The sweeps expire what has lapsed. Reads and transactions
interleave: the reads of the callback stand inside its transaction in the
source but go to the database on another connection, so its writes come
after them, together.
-/

namespace Certctl.AcmeChallenges

open AtomicProgram Prog ControlPlaneStore DomainRecords StoreExtension
open AcmeServerStore AcmeOrders

variable {Key : Type}

/-- A server that also creates and validates orders. -/
structure AcmeServer (Key : Type) extends ACMEService where
  validatorPool : Bool := true
  rateLimiter : Bool := false
  /-- New orders that an account may make in an hour; no limit unless positive. -/
  rateLimitOrdersPerHour : ℤ := 0
  /-- Open orders that an account may have; no limit unless positive. -/
  rateLimitConcurrentOrders : ℤ := 0
  rateLimitChallengeRespondsPerHour : ℤ := 0
  defaultAuthMode : String := ""
  /-- Lifetime of an order; a day unless positive. -/
  orderTTL : Time := 0
  /-- Lifetime of an authorization; a day unless positive. -/
  authzTTL : Time := 0
  /-- The digest of a key, as the key library computes it. -/
  thumbprint : Key→Try (List UInt8)

def day : Time := 24*3600*second

def overLimit (svc : AcmeServer Key) (limit : ℤ) (action : RateAction) (key : String) : Acme Bool :=
  if svc.rateLimiter && decide (0<limit) then do
    let allowed ← acme (.allow action key)
    pure (!allowed)
  else pure false

/-- The account has as many open orders as it may have. A failed count does not refuse. -/
def tooManyOrders (svc : AcmeServer Key) (accountID : String) : Acme Bool :=
  if 0 < svc.rateLimitConcurrentOrders then do
    match ← acme (.countActiveOrdersByAccount accountID) with
    | .error _ => pure false
    | .ok count => pure (decide (svc.rateLimitConcurrentOrders≤count))
  else pure false

def authModeOf (svc : AcmeServer Key) (profile : CertificateProfile) : String :=
  if profile.acmeAuthMode≠"" then profile.acmeAuthMode
  else if svc.defaultAuthMode≠"" then svc.defaultAuthMode
  else "trust_authenticated"

def identifierWrites (trusted : Bool) (now authzTTL : Time) (orderID : String) (id : Identifier)
    (authzSuffix challengeSuffix token : String) : List AcmeWrite :=
  let authz : Authorization :=
    {authzID := "acme-authz-"++authzSuffix, orderID := orderID, identifier := id,
      status := if trusted then .valid else .pending, expiresAt := now+authzTTL,
      wildcard := "*.".toList.isPrefixOf id.value.toList, createdAt := now}
  let ch : Challenge :=
    {challengeID := "acme-chall-"++challengeSuffix, authzID := authz.authzID, type := .http01,
      status := if trusted then .valid else .pending, token := token,
      validatedAt := if trusted then some now else none, createdAt := now}
  [.createAuthz authz,.createChallenge ch]

/-- The writes for all identifiers of a new order, with the identifiers drawn for them. -/
def drawWrites (trusted : Bool) (now authzTTL : Time) (orderID : String) (identifiers : List Identifier) :
    Acme (List AcmeWrite) :=
  Prog.foldEach identifiers [] fun writes id => do
    let authzSuffix ← service randIDSuffix
    let challengeSuffix ← service randIDSuffix
    let token ← service randIDSuffix
    pure (writes++identifierWrites trusted now authzTTL orderID id authzSuffix challengeSuffix token)

def insertOrder (svc : AcmeServer Key) (accountID : String) (profile : CertificateProfile)
    (identifiers : List Identifier) : Acme (Try Order) :=
  let authMode := authModeOf svc profile
  if authMode≠"trust_authenticated" ∧ authMode≠"challenge" then
    raise (Sentinel.acmeUnsupportedAuthMode.because (svc.quote authMode))
  else do
    let now ← service timeNow
    let orderTTL := if svc.orderTTL≤0 then day else svc.orderTTL
    let authzTTL := if svc.authzTTL≤0 then day else svc.authzTTL
    let trusted := decide (authMode="trust_authenticated")
    let suffix ← service randIDSuffix
    let order : Order :=
      {orderID := "acme-ord-"++suffix, accountID := accountID, identifiers := identifiers,
        status := if trusted then .ready else .pending, expiresAt := now+orderTTL}
    let writes ← drawWrites trusted now authzTTL order.orderID identifiers
    match ← acme (.acmeTx (.createOrder order::writes)) with
    | .error err => raise err
    | .ok _ => pure (.ok order)

def createOrder (svc : AcmeServer Key) (accountID profileID : String) (identifiers : List Identifier) :
    Acme (Try Order) :=
  if !svc.tx || !svc.auditService then
    raise ⟨"acme: new-order requires SetTransactor + SetAuditService",none⟩
  else do
    if ← overLimit svc svc.rateLimitOrdersPerHour .newOrder accountID then
      raise Sentinel.acmeRateLimited.error
    else if ← tooManyOrders svc accountID then
      raise Sentinel.acmeConcurrentOrdersExceeded.error
    else
      match ← service (resolveProfile svc.toACMEService profileID) with
      | .error err => raise err
      | .ok resolvedProfileID =>
        match ← service (getProfile resolvedProfileID) with
        | .error err => raise (err.wrapped "acme: lookup profile: ")
        | .ok profile => insertOrder svc accountID profile identifiers

/-- What the validator compares with the published text. -/
def keyAuthorization (svc : AcmeServer Key) (token : String) (jwk : Key) : Try String :=
  match svc.thumbprint jwk with
  | .error err => .error (err.wrapped "acme: thumbprint: ")
  | .ok thumb => .ok (token++"."++String.ofList (Base64Url.encode thumb))

def challengeProblemFromError (type : ChallengeType) (err : GoError) : Problem :=
  if err.is .challengeConnection then ⟨"urn:ietf:params:acme:error:connection",err.text,400⟩
  else if err.is .challengeDNS then ⟨"urn:ietf:params:acme:error:dns",err.text,400⟩
  else if err.is .challengeTLS then ⟨"urn:ietf:params:acme:error:tls",err.text,400⟩
  else ⟨"urn:ietf:params:acme:error:incorrectResponse",type.text++" validation failed: "++err.text,403⟩

def judged (ch : Challenge) (now : Time) : Err→Challenge
  | none => {ch with status := .valid, validatedAt := some now, error := none}
  | some err => {ch with status := .invalid, error := some (challengeProblemFromError ch.type err)}

def verdictStatus (verr : Err) : AuthzStatus := if verr.isNone then .valid else .invalid

/-- The status of an authorization that was read, with the new one in the place of its own. -/
def statusWith (authzID : String) (status : AuthzStatus) (a : Authorization) : AuthzStatus :=
  if a.authzID=authzID then status else a.status

def cascade (authzID : String) (status : AuthzStatus) (authzs : List Authorization) (order : Order) : List AcmeWrite :=
  let allValid := !authzs.isEmpty && authzs.all fun a => statusWith authzID status a=.valid
  let anyInvalid := authzs.any fun a => statusWith authzID status a=.invalid
  if allValid && order.status=.pending then [.row (.updateOrder {order with status := .ready})]
  else if anyInvalid && order.status=.pending then
    let problem : Problem :=
      ⟨"urn:ietf:params:acme:error:incorrectResponse","one or more authorizations failed",403⟩
    [.row (.updateOrder {order with status := .invalid, error := some problem})]
  else []

/-- What a cascade writes: only a pending order moves, and if not to invalid, all of its authorizations are valid. -/
theorem mem_cascade {authzID : String} {status : AuthzStatus} {authzs : List Authorization} {order : Order}
    {w : AcmeWrite} (hw : w∈cascade authzID status authzs order) :
    ∃ written : Order,w=.row (.updateOrder written) ∧ written.orderID=order.orderID ∧ order.status=.pending ∧
      (written.status=.invalid ∨ authzs≠[] ∧ ∀ a∈authzs,statusWith authzID status a=.valid) := by
  unfold cascade at hw
  dsimp only at hw
  split at hw
  · rename_i hvalid
    simp only [Bool.and_eq_true,Bool.not_eq_true',List.isEmpty_eq_false_iff,List.all_eq_true,
      decide_eq_true_eq] at hvalid
    exact ⟨_,List.mem_singleton.mp hw,rfl,hvalid.2,.inr hvalid.1⟩
  split at hw
  · rename_i hinvalid
    simp only [Bool.and_eq_true,decide_eq_true_eq] at hinvalid
    exact ⟨_,List.mem_singleton.mp hw,rfl,hinvalid.2,.inl rfl⟩
  · cases hw

/-- Record the verdict on a challenge; a failure is not reported to anyone. -/
def recordChallengeOutcome (ch : Challenge) (authz : Authorization) (verr : Err) : Acme Unit := do
  let now ← service timeNow
  match ← acme (.listAuthzsByOrder authz.orderID) with
  | .error _ => pure ()
  | .ok authzs =>
    match ← service (getOrderByID authz.orderID) with
    | .error _ => pure ()
    | .ok order =>
      let status := verdictStatus verr
      let _ ← acme (.acmeTx (.updateChallenge (judged ch now verr)::.updateAuthzStatus ch.authzID status::
        cascade ch.authzID status authzs order))
      pure ()

/-- What a client's answer hands to the validator pool. -/
structure Submission where
  ch : Challenge
  authz : Authorization
  /-- The text that must be published. -/
  expected : String

/-- Answer a pending challenge that has been looked up. -/
def submitChallenge (svc : AcmeServer Key) (accountID : String) (ch : Challenge) (accountJWK : Key) :
    Acme (Try (Challenge×Option Submission)) := do
  match ← acme (.getAuthzByID ch.authzID) with
  | .error err => raise (err.wrapped "acme: lookup parent authz: ")
  | .ok (authz,_) =>
    match ← service (getOrderByID authz.orderID) with
    | .error err => raise (err.wrapped "acme: lookup parent order: ")
    | .ok order =>
      if order.accountID≠accountID then raise Sentinel.acmeOrderUnauthorized.error
      else
        match keyAuthorization svc ch.token accountJWK with
        | .error err => raise (err.wrapped "acme: key authorization: ")
        | .ok expected =>
          let processing := {ch with status := .processing}
          match ← acme (.acmeTx [.updateChallenge processing]) with
          | .error err => raise err
          | .ok _ => pure (.ok (processing,some ⟨processing,authz,expected⟩))

/-- Answer a challenge: what the client gets, and what the validator pool gets. -/
def respondToChallenge (svc : AcmeServer Key) (accountID challengeID : String) (accountJWK : Key) :
    Acme (Try (Challenge×Option Submission)) :=
  if !svc.tx || !svc.auditService then
    raise ⟨"acme: respond-to-challenge requires SetTransactor + SetAuditService",none⟩
  else if !svc.validatorPool then raise Sentinel.acmeChallengePoolUnconfigured.error
  else do
    if ← overLimit svc svc.rateLimitChallengeRespondsPerHour .challengeRespond challengeID then
      raise Sentinel.acmeRateLimited.error
    else
      match ← acme (.getChallengeByID challengeID) with
      | .error err =>
        if err.is .notFound then raise Sentinel.acmeChallengeNotFound.error
        else raise (err.wrapped "acme: lookup challenge: ")
      | .ok ch =>
        -- whoever asks gets a challenge that is not pending, before the check of the account
        if ch.status=.valid ∨ ch.status=.invalid then pure (.ok (ch,none))
        else if ch.status=.processing then pure (.ok (ch,none))
        else submitChallenge svc accountID ch accountJWK

def validateSubmission (sub : Submission) : Acme Unit := do
  let verr ← acme (.validate sub.ch.type sub.authz.identifier.value sub.ch.token sub.expected)
  recordChallengeOutcome sub.ch sub.authz verr

/-- A client's answer and, later, the verdict on it. -/
def answerChallenge (svc : AcmeServer Key) (accountID challengeID : String) (accountJWK : Key) : Acme Unit := do
  match ← respondToChallenge svc accountID challengeID accountJWK with
  | .ok (_,some sub) => validateSubmission sub
  | _ => pure ()

def firstError {α : Type} (first : Err) (front : String) : Try α→Err
  | .ok _ => first
  | .error err => first.or (some (err.wrapped front))

/-- Sweep the tables; one failing sweep does not stop the others. -/
def garbageCollect : Acme Err := do
  let nonces ← acme .gcExpiredNonces
  let authzs ← acme .gcExpireAuthorizations
  let orders ← acme .gcInvalidateExpiredOrders
  pure (firstError (firstError (firstError none "acme gc: nonces: " nonces) "acme gc: authzs: " authzs)
    "acme gc: orders: " orders)

variable {limit : ℤ} {action : RateAction} {key accountID : String}

section Rules

variable {P : acmeServer.Op→Prop} {svc : AcmeServer Key}

theorem uses_overLimit (hallow : P (.inr (.allow action key))) : (overLimit svc limit action key).Uses P := by
  unfold overLimit
  split
  · exact uses_op hallow fun _ => trivial
  · trivial

/-- An answer to a challenge asks the limiter, reads the challenge, its authorization and the order, and moves the
challenge to processing. -/
theorem uses_respondToChallenge {challengeID : String} {jwk : Key}
    (hallow : ∀ action key,P (.inr (.allow action key))) (hchallenge : ∀ id,P (.inr (.getChallengeByID id)))
    (hauthz : ∀ id,P (.inr (.getAuthzByID id))) (horder : ∀ id,P (.inl (.getOrderByID id)))
    (hupdate : ∀ ch,P (.inr (.acmeTx [.updateChallenge ch]))) :
    (respondToChallenge svc accountID challengeID jwk).Uses P := by
  have hsubmit : ∀ ch,(submitChallenge svc accountID ch jwk).Uses P := by
    intro ch
    refine uses_op (hauthz _) (onAnswer fun _ => ?_)
    refine ⟨horder _,fun r => ?_⟩
    cases r with
    | error => trivial
    | ok =>
      dsimp only [lift,Prog.bind]
      split
      · trivial
      split
      · trivial
      refine uses_op (hupdate _) fun r => ?_
      cases r <;> trivial
  unfold respondToChallenge
  split
  · trivial
  split
  · trivial
  refine uses_bind (uses_overLimit (hallow _ _)) fun refused => ?_
  split
  · trivial
  refine uses_op (hchallenge _) fun r => ?_
  cases r with
  | error =>
    dsimp only
    split <;> trivial
  | ok ch =>
    dsimp only
    split
    · trivial
    split
    · trivial
    · exact hsubmit ch

end Rules

section Creation

/-- Operations that a new order runs before its transaction. -/
def creationOp : acmeServer.Op→Prop
  | .inl (.getProfile _) => True
  | .inl .timeNow => True
  | .inl .randIDSuffix => True
  | .inr (.allow _ _) => True
  | .inr (.countActiveOrdersByAccount _) => True
  | _ => False

/-- The transaction of a new order of an account: the order, then authorizations and challenges for its identifiers,
all of them done or all to be done. -/
def NewOrderWrites (accountID : String) (writes : List AcmeWrite) : Prop :=
  ∃ trusted order rest,writes=.createOrder order::rest ∧ order.accountID=accountID ∧
    order.status=(if trusted=true then .ready else .pending) ∧ ∀ w∈rest, ∃ now ttl id authzSuffix challengeSuffix token,
        w∈identifierWrites trusted now ttl order.orderID id authzSuffix challengeSuffix token

variable {trusted : Bool} {now : Time} {orderID : String}

theorem mem_identifierWrites {ttl : Time} {authzSuffix challengeSuffix token : String} {id : Identifier} {w : AcmeWrite}
    (h : w∈identifierWrites trusted now ttl orderID id authzSuffix challengeSuffix token) :
    (∃ authz : Authorization,w=.createAuthz authz ∧ authz.orderID=orderID ∧
      authz.status=(if trusted=true then .valid else .pending)) ∨ ∃ ch,w=.createChallenge ch := by
  rcases List.mem_cons.mp h with hfirst|hlast
  · exact Or.inl ⟨_,hfirst,rfl,rfl⟩
  · exact Or.inr ⟨_,List.mem_singleton.mp hlast⟩

variable {G α : Type} {can : acmeServer.Obs Prop} {pre : G→acmeServer.Obs Prop} {upd : G→acmeServer.Obs G}
  {Q : α→G→Prop} {g : G}

section

variable (hquiet : ∀ op r,creationOp op → pre g op r ∧ upd g op r=g)
include hquiet

theorem tracked_creationOp (op : acmeServer.Op)
    (hop : creationOp op) {k : acmeServer.Res op→Acme α} (hk : ∀ r,can op r → (k r).Tracked can pre upd Q g) :
    ((Prog.perform (S := acmeServer) op).bind k).Tracked can pre upd Q g := by
  intro r hr
  obtain ⟨hpre,hupd⟩ := hquiet op r hop
  refine ⟨hpre,?_⟩
  rw [hupd]
  exact hk r hr

variable {identifiers : List Identifier}

theorem tracked_drawWrites {authzTTL : Time} :
    (drawWrites trusted now authzTTL orderID identifiers).Tracked can pre upd (fun writes g' => g'=g ∧ ∀ w∈writes,
      ∃ now ttl id authzSuffix challengeSuffix token,
        w∈identifierWrites trusted now ttl orderID id authzSuffix challengeSuffix token) g := by
  refine tracked_foldEach identifiers _ (fun id _ writes g' hacc => ?_) ⟨rfl,List.forall_mem_nil _⟩
  obtain ⟨rfl,hwrites⟩ := hacc
  refine tracked_creationOp hquiet (.inl .randIDSuffix) trivial fun authzSuffix _ => ?_
  refine tracked_creationOp hquiet (.inl .randIDSuffix) trivial fun challengeSuffix _ => ?_
  refine tracked_creationOp hquiet (.inl .randIDSuffix) trivial fun token _ => ?_
  refine ⟨rfl,fun w hw => ?_⟩
  rcases List.mem_append.mp hw with hold|hnew
  · exact hwrites w hold
  · exact ⟨now,authzTTL,id,authzSuffix,challengeSuffix,token,hnew⟩

variable {svc : AcmeServer Key}

theorem tracked_overLimit : (overLimit svc limit action key).Tracked can pre upd (fun _ g' => g'=g) g := by
  unfold overLimit
  split
  · exact tracked_creationOp hquiet (.inr (.allow action key)) trivial fun _ _ => rfl
  · rfl

theorem tracked_tooManyOrders : (tooManyOrders svc accountID).Tracked can pre upd (fun _ g' => g'=g) g := by
  unfold tooManyOrders
  split
  · refine tracked_creationOp hquiet (.inr (.countActiveOrdersByAccount accountID)) trivial fun r _ => ?_
    cases r <;> rfl
  · rfl

variable {profileID : String}

theorem tracked_resolve {svc : ACMEService} : (service (resolveProfile svc profileID)).Tracked can pre upd
      (fun r g' => g'=g ∧ ∀ id,r=.ok id → id=resolvedID svc profileID) g := by
  have hget := fun r => hquiet (.inl (.getProfile (resolvedID svc profileID))) r trivial
  exact tracked_lift (tracked_resolveProfile (fun r => (hget r).1) (fun _ _ => ⟨rfl,nofun⟩)
    (fun _ _ => ⟨(hget _).2,nofun⟩) fun _ => ⟨(hget _).2,fun id he => (Except.ok.inj he).symm⟩)

section

variable
  (hinsert : ∀ writes r,NewOrderWrites accountID writes → pre g (.inr (.acmeTx writes)) r ∧ upd g (.inr (.acmeTx writes)) r=g)
include hinsert

theorem tracked_insertOrder {profile : CertificateProfile} :
    (insertOrder svc accountID profile identifiers).Tracked can pre upd (fun _ g' => g'=g) g := by
  unfold insertOrder
  dsimp only
  split
  · rfl
  refine tracked_creationOp hquiet (.inl .timeNow) trivial fun now _ => ?_
  refine tracked_creationOp hquiet (.inl .randIDSuffix) trivial fun suffix _ => ?_
  refine tracked_bind.mpr ((tracked_drawWrites hquiet).mono ?_)
  rintro writes _ ⟨rfl,hwrites⟩
  intro r _
  obtain ⟨hpre,hupd⟩ := hinsert _ r ⟨_,_,writes,rfl,rfl,rfl,hwrites⟩
  refine ⟨hpre,?_⟩
  rw [hupd]
  cases r <;> rfl

theorem tracked_createOrder :
    (createOrder svc accountID profileID identifiers).Tracked can pre upd (fun _ g' => g'=g) g := by
  unfold createOrder
  split
  · rfl
  refine tracked_bind.mpr ((tracked_overLimit hquiet).mono ?_)
  rintro refused _ rfl
  split
  · rfl
  refine tracked_bind.mpr ((tracked_tooManyOrders hquiet).mono ?_)
  rintro many _ rfl
  split
  · rfl
  refine tracked_bind.mpr ((tracked_resolve hquiet).mono ?_)
  rintro resolved _ ⟨rfl,-⟩
  cases resolved with
  | error => rfl
  | ok id =>
    refine tracked_creationOp hquiet (.inl (.getProfile id)) trivial fun found _ => ?_
    cases found with
    | error => rfl
    | ok => exact tracked_insertOrder hquiet hinsert

end

end

end Creation

end Certctl.AcmeChallenges
