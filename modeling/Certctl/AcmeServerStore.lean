import Certctl.ControlPlaneStore
import Certctl.StoreExtension

/-!
# The store of the ACME server

Accounts, authorizations, challenges and nonces beside the tables of the
control plane, with the transactions, reads and sweeps of the ACME
repository as atomic operations. A transaction is a list of row writes that
all happen or none does. The verdict of a challenge validator and the
decision of a rate limiter are left to the environment, and the store keeps
the last reading of the clock.
-/

namespace Certctl.AcmeServerStore

open AtomicProgram ControlPlaneTables ControlPlaneStore DomainRecords RecordTable StoreExtension

/-- The tables of the server besides orders. -/
structure AcmeTables where
  accounts : List Account := []
  authzs : List Authorization := []
  challenges : List Challenge := []
  nonces : List NonceRow := []
  clock : Time := 0

abbrev AcmeState := Db×AcmeTables

/-- The statements of its transactions. -/
inductive AcmeWrite where
  | row (write : Write)
  | createOrder (order : Order)
  | createAuthz (authz : Authorization)
  | createChallenge (ch : Challenge)
  /-- Overwrite the mutable columns of a challenge. -/
  | updateChallenge (ch : Challenge)
  | updateAuthzStatus (authzID : String) (status : AuthzStatus)
  | createAccount (acct : Account)
  | updateAccountContact (accountID : String) (contact : List String)
  | updateAccountStatus (accountID : String) (status : AccountStatus)
  | updateAccountJWK (accountID expectedOldThumbprint newThumbprint newJWKPEM : String)
deriving DecidableEq

def overwriteChallenge (ch row : Challenge) : Challenge :=
  {row with status := ch.status,validatedAt := ch.validatedAt,error := ch.error}

/-- The unique pair of columns of an account. -/
def accountKey (acct : Account) : String×String := (acct.profileID,acct.jwkThumbprint)

def missingRow (front : String) : GoError := Sentinel.notFound.error.wrapped front

def unlessFound {ρ : Type} (row : Option ρ) (front : String) : Err :=
  if row.isSome then none else some (missingRow front)

def acmeViolation (c : Choice) (s : AcmeState) : AcmeWrite→Err
  | .row write => violation c s.1 write
  | .createOrder order =>
    if order.orderID="" ∨ order.accountID="" then some ⟨"acme: create order: missing required field",none⟩
    else if (s.1.orders.any fun row => row.orderID=order.orderID) ||
        !s.2.accounts.any fun acct => acct.accountID=order.accountID then
      some ⟨"acme: insert order: constraint violation",none⟩
    else none
  | .createAuthz authz =>
    if authz.authzID="" ∨ authz.orderID="" then some ⟨"acme: create authz: missing required field",none⟩
    else if (s.2.authzs.any fun row => row.authzID=authz.authzID) ||
        !s.1.orders.any fun order => order.orderID=authz.orderID then
      some ⟨"acme: insert authz: constraint violation",none⟩
    else none
  | .createChallenge ch =>
    if ch.challengeID="" ∨ ch.authzID="" ∨ ch.token="" then
      some ⟨"acme: create challenge: missing required field",none⟩
    else if (s.2.challenges.any fun row => row.challengeID=ch.challengeID) ||
        !s.2.authzs.any fun authz => authz.authzID=ch.authzID then
      some ⟨"acme: insert challenge: constraint violation",none⟩
    else none
  | .updateChallenge ch =>
    unlessFound (lookup Challenge.challengeID ch.challengeID s.2.challenges) "challenge not found: "
  | .updateAuthzStatus authzID _ => unlessFound (lookup Authorization.authzID authzID s.2.authzs) "authz not found: "
  | .createAccount acct =>
    if acct.accountID="" ∨ acct.jwkThumbprint="" ∨ acct.jwkPEM="" ∨ acct.profileID="" then
      some ⟨"acme: create account: missing required field",none⟩
    -- the primary key and the unique pair report the same violation
    else if s.2.accounts.any fun row => row.accountID=acct.accountID || accountKey row=accountKey acct then
      some Sentinel.acmeAccountDuplicateThumbprint.error
    else if s.1.profiles.any fun profile => profile.id=acct.profileID then none
    else some ⟨"acme: insert account: constraint violation",none⟩
  | .updateAccountContact accountID _ =>
    unlessFound (lookup Account.accountID accountID s.2.accounts) "account not found: "
  | .updateAccountStatus accountID _ =>
    unlessFound (lookup Account.accountID accountID s.2.accounts) "account not found: "
  | .updateAccountJWK accountID expectedOldThumbprint newThumbprint _ =>
    match lookup Account.accountID accountID s.2.accounts with
    | none => some (missingRow "account not found: ")
    | some acct =>
      if acct.jwkThumbprint≠expectedOldThumbprint then some Sentinel.acmeAccountKeyConcurrentUpdate.error
      else if s.2.accounts.any fun row =>
          row.accountID≠accountID && accountKey row=(acct.profileID,newThumbprint) then
        some Sentinel.acmeAccountDuplicateThumbprint.error
      else none

/-- The tables after a row write that goes through. -/
def acmeWritten (c : Choice) (s : AcmeState) : AcmeWrite→AcmeState
  | .row write => (written c s.1 write,s.2)
  | .createOrder order => ({s.1 with orders := s.1.orders++[order]},s.2)
  | .createAuthz authz => (s.1,{s.2 with authzs := s.2.authzs++[authz]})
  | .createChallenge ch => (s.1,{s.2 with challenges := s.2.challenges++[ch]})
  | .updateChallenge ch =>
    (s.1,{s.2 with challenges := modify Challenge.challengeID ch.challengeID (overwriteChallenge ch) s.2.challenges})
  | .updateAuthzStatus authzID status =>
    (s.1,{s.2 with authzs := modify Authorization.authzID authzID (fun row => {row with status := status}) s.2.authzs})
  | .createAccount acct => (s.1,{s.2 with accounts := s.2.accounts++[acct]})
  | .updateAccountContact accountID contact =>
    (s.1,{s.2 with accounts := modify Account.accountID accountID (fun row => {row with contact := contact}) s.2.accounts})
  | .updateAccountStatus accountID status =>
    (s.1,{s.2 with accounts := modify Account.accountID accountID (fun row => {row with status := status}) s.2.accounts})
  | .updateAccountJWK accountID _ newThumbprint newJWKPEM =>
    let rekeyed := fun row : Account => {row with jwkThumbprint := newThumbprint,jwkPEM := newJWKPEM}
    (s.1,{s.2 with accounts := modify Account.accountID accountID rekeyed s.2.accounts})

def applyAcmeWrite (c : Choice) (s : AcmeState) (w : AcmeWrite) : Try AcmeState :=
  match acmeViolation c s w with
  | some err => .error err
  | none => .ok (acmeWritten c s w)

/-- The writes of a transaction, in order; the first failure rolls back. -/
def applyAcmeWrites (c : Choice) (s : AcmeState) : List AcmeWrite→Try AcmeState
  | [] => .ok s
  | w::ws =>
    match applyAcmeWrite c s w with
    | .error err => .error err
    | .ok s' => applyAcmeWrites c s' ws

/-- What is rate limited. -/
inductive RateAction where
  | newOrder
  | challengeRespond
  | keyChange
deriving DecidableEq

/-- Atomic operations of the ACME server. -/
inductive AcmeOp where
  | getAuthzByID (authzID : String)
  /-- Read the authorizations of an order, oldest first. -/
  | listAuthzsByOrder (orderID : String)
  | getChallengeByID (challengeID : String)
  | getAccountByID (accountID : String)
  | getAccountByThumbprint (profileID thumbprint : String)
  | countActiveOrdersByAccount (accountID : String)
  | acmeTx (writes : List AcmeWrite)
  | issueNonce (nonce : String) (ttl : Time)
  | consumeNonce (nonce : String)
  /-- Delete used and lapsed nonces, and count them. -/
  | gcExpiredNonces
  /-- Expire lapsed pending authorizations, and count them. -/
  | gcExpireAuthorizations
  /-- Fail lapsed open orders, and count them. -/
  | gcInvalidateExpiredOrders
  | allow (action : RateAction) (key : String)
  | validate (type : ChallengeType) (identifier token expected : String)

abbrev AcmeRes : AcmeOp→Type
  | .getAuthzByID _ => Try (Authorization×List Challenge)
  | .listAuthzsByOrder _ => Try (List Authorization)
  | .getChallengeByID _ => Try Challenge
  | .getAccountByID _ => Try Account
  | .getAccountByThumbprint _ _ => Try Account
  | .countActiveOrdersByAccount _ => Try ℕ
  | .acmeTx _ => Try Unit
  | .issueNonce _ _ => Try Unit
  | .consumeNonce _ => Try Unit
  | .gcExpiredNonces => Try ℕ
  | .gcExpireAuthorizations => Try ℕ
  | .gcInvalidateExpiredOrders => Try ℕ
  | .allow _ _ => Bool
  | .validate _ _ _ _ => Err

/-- An order that is neither valid nor invalid. -/
def activeOrder (order : Order) : Bool := order.status=.pending || order.status=.ready || order.status=.processing

def redeemable (now : Time) (row : NonceRow) : Bool := !row.used && now<row.expiresAt

def reapable (now : Time) (row : NonceRow) : Bool := row.used || row.expiresAt<now

def lapsedAuthz (now : Time) (row : Authorization) : Bool := row.status=.pending && row.expiresAt<now

def lapsedOrder (now : Time) (row : Order) : Bool := activeOrder row && row.expiresAt<now

/-- The stored problem of an order that the sweep failed. -/
def expiredProblem : Problem := ⟨"urn:ietf:params:acme:error:serverInternal","order expired before issuance",500⟩

def sweptAuthz (now : Time) (row : Authorization) : Authorization :=
  if lapsedAuthz now row then {row with status := .expired} else row

def sweptOrder (now : Time) (row : Order) : Order :=
  if lapsedOrder now row then {row with status := .invalid,error := some expiredProblem} else row

def redeemedRow (nonce : String) (now : Time) (row : NonceRow) : NonceRow :=
  if row.nonce=nonce ∧ redeemable now row=true then {row with used := true} else row

def acmeEffect (c : Choice) (s : AcmeState) : (op : AcmeOp)→AcmeRes op×AcmeState
  | .getAuthzByID authzID =>
    readRow c s ((lookup Authorization.authzID authzID s.2.authzs).map fun authz =>
      (authz,orderBy c Challenge.createdAt (s.2.challenges.filter (·.authzID=authzID)))) (missingRow "authz not found: ")
  | .listAuthzsByOrder orderID =>
    answer c s (orderBy c Authorization.createdAt (s.2.authzs.filter (·.orderID=orderID)))
  | .getChallengeByID challengeID =>
    readRow c s (lookup Challenge.challengeID challengeID s.2.challenges) (missingRow "challenge not found: ")
  | .getAccountByID accountID =>
    readRow c s (lookup Account.accountID accountID s.2.accounts) (missingRow "account not found: ")
  | .getAccountByThumbprint profileID thumbprint =>
    readRow c s (lookup accountKey (profileID,thumbprint) s.2.accounts) (missingRow "account not found: ")
  | .countActiveOrdersByAccount accountID =>
    answer c s (s.1.orders.countP fun order => order.accountID=accountID && activeOrder order)
  | .acmeTx writes => fallible c s ((applyAcmeWrites c s writes).map fun s' => ((),s'))
  | .issueNonce nonce ttl =>
    fallible c s (if s.2.nonces.any fun row => row.nonce=nonce then
      .error ⟨"acme: insert nonce: duplicate key",none⟩
      else .ok ((),(s.1,{s.2 with nonces := s.2.nonces++[⟨nonce,c.now+ttl,false⟩]})))
  | .consumeNonce nonce =>
    fallible c s (if s.2.nonces.any fun row => row.nonce=nonce && redeemable c.now row then
      .ok ((),(s.1,{s.2 with nonces := s.2.nonces.map (redeemedRow nonce c.now)}))
      else .error Sentinel.noRows.error)
  | .gcExpiredNonces =>
    fallible c s (.ok (s.2.nonces.countP (reapable c.now),
      (s.1,{s.2 with nonces := s.2.nonces.filter fun row => !reapable c.now row})))
  | .gcExpireAuthorizations =>
    fallible c s (.ok (s.2.authzs.countP (lapsedAuthz c.now),
      (s.1,{s.2 with authzs := s.2.authzs.map (sweptAuthz c.now)})))
  | .gcInvalidateExpiredOrders =>
    fallible c s (.ok (s.1.orders.countP (lapsedOrder c.now),
      ({s.1 with orders := s.1.orders.map (sweptOrder c.now)},s.2)))
  | .allow _ _ => (decide (c.pick=0),s)
  | .validate _ _ _ _ => (c.fault,s)

abbrev acmeExtension : Extension controlPlane where
  Op := AcmeOp
  Res := AcmeRes
  Extra := AcmeTables
  tick := fun c tables => {tables with clock := c.now}
  perform := fun op c s => some (acmeEffect c s op)

abbrev acmeServer : Store := acmeExtension.store

abbrev Acme (α : Type) := Prog acmeServer α

def acme (op : AcmeOp) : Acme (AcmeRes op) := Prog.perform (S := acmeServer) (.inr op)

abbrev service {α : Type} (p : Service α) : Acme α := lift acmeExtension p

theorem uses_op {α : Type} {P : acmeServer.Op→Prop} {op : AcmeOp} {k : AcmeRes op→Acme α} (hop : P (.inr op))
    (hk : ∀ r,(k r).Uses P) : ((acme op).bind k).Uses P := ⟨hop,hk⟩

theorem tracked_acme {α G : Type} {can : acmeServer.Obs Prop} {pre : G→acmeServer.Obs Prop} {upd : G→acmeServer.Obs G}
    {Q : α→G→Prop} {g : G} {op : AcmeOp} {k : AcmeRes op→Acme α}
    (h : ∀ r,can (.inr op) r → pre g (.inr op) r ∧ (k r).Tracked can pre upd Q (upd g (.inr op) r)) :
    ((acme op).bind k).Tracked can pre upd Q g := h

variable {c : Choice} {s s' : AcmeState} {w : AcmeWrite}

theorem applyAcmeWrite_ok (h : applyAcmeWrite c s w=.ok s') : acmeViolation c s w=none ∧ s'=acmeWritten c s w := by
  unfold applyAcmeWrite at h
  split at h
  · cases h
  rename_i hfree
  cases h
  exact ⟨hfree,rfl⟩

variable {writes : List AcmeWrite}

theorem applyAcmeWrites_keeps {P : AcmeState→Prop}
    (hstep : ∀ w∈writes,∀ a b,P a → applyAcmeWrite c a w=.ok b → P b) (hs : P s)
    (h : applyAcmeWrites c s writes=.ok s') : P s' := by
  induction writes generalizing s with
  | nil =>
    cases h
    exact hs
  | cons w ws ih =>
    simp only [applyAcmeWrites] at h
    split at h
    · cases h
    rename_i mid hw
    exact ih (fun x hx => hstep x (List.mem_cons_of_mem _ hx)) (hstep w List.mem_cons_self s mid hs hw) h

theorem applyAcmeWrites_cons (h : applyAcmeWrites c s (w::writes)=.ok s') :
    acmeViolation c s w=none ∧ applyAcmeWrites c (acmeWritten c s w) writes=.ok s' := by
  simp only [applyAcmeWrites] at h
  split at h
  · cases h
  rename_i hw
  obtain ⟨hfree,rfl⟩ := applyAcmeWrite_ok hw
  exact ⟨hfree,h⟩

theorem acmeTx_ok {u : Unit}
    (h : acmeEffect c s (.acmeTx writes)=(Except.ok u,s')) : c.fault=none ∧ applyAcmeWrites c s writes=.ok s' := by
  obtain ⟨hfault,hout⟩ := fallible_ok h
  refine ⟨hfault,?_⟩
  cases hw : applyAcmeWrites c s writes with
  | error =>
    rw [hw] at hout
    cases hout
  | ok =>
    rw [hw] at hout
    cases hout
    rfl

theorem acmeEffect_of_perform {op : AcmeOp} {r : AcmeRes op} (h : acmeServer.perform (.inr op) c s=some (r,s')) :
    acmeEffect c (s.1,{s.2 with clock := c.now}) op=(r,s') := Option.some.inj h

theorem effect_of_acme {op : Op} {r : Res op} (h : acmeServer.perform (.inl op) c s=some (r,s')) :
    effect c s.1 op=(r,s'.1) ∧ s'.2={s.2 with clock := c.now} := by
  obtain ⟨hperform,htick⟩ := act_inl h
  exact ⟨effect_of_perform hperform,htick⟩

def AcmeOp.Reads : AcmeOp→Prop
  | .getAuthzByID _ => True
  | .listAuthzsByOrder _ => True
  | .getChallengeByID _ => True
  | .getAccountByID _ => True
  | .getAccountByThumbprint _ _ => True
  | .countActiveOrdersByAccount _ => True
  | .allow _ _ => True
  | .validate _ _ _ _ => True
  | _ => False

theorem acmeEffect_reads {op : AcmeOp} {r : AcmeRes op} (h : acmeEffect c s op=(r,s')) (hop : op.Reads) : s'=s := by
  have hafter : s'=(acmeEffect c s op).2 := (congrArg Prod.snd h).symm
  rw [hafter]
  cases op with
  | getAuthzByID | getChallengeByID | getAccountByID | getAccountByThumbprint => exact readRow_same
  | listAuthzsByOrder | countActiveOrdersByAccount => exact answer_same
  | allow | validate => rfl
  | _ => exact hop.elim

def writesOf : acmeServer.Op→List AcmeWrite
  | .inl (.withinTx writes) => writes.map .row
  | .inr (.acmeTx writes) => writes
  | _ => []

def committedWrites : acmeServer.Obs (List AcmeWrite)
  | .inl (.withinTx writes),.ok _ => writes.map .row
  | .inr (.acmeTx writes),.ok _ => writes
  | _,_ => []

theorem committedWrites_inl {op : Op} {r : Res op} (h : ∀ writes,op≠.withinTx writes) :
    committedWrites (.inl op) r=[] := by
  cases op with
  | withinTx writes => exact absurd rfl (h writes)
  | _ => rfl

variable {op : acmeServer.Op} {r : acmeServer.Res op}

theorem mem_writesOf (h : w∈committedWrites op r) : w∈writesOf op := by
  unfold committedWrites at h
  split at h
  · exact h
  · exact h
  · cases h

/-- The rows of accounts, orders, authorizations and challenges are the same. -/
structure SameRows (s s' : AcmeState) : Prop where
  orders : s'.1.orders=s.1.orders
  accounts : s'.2.accounts=s.2.accounts
  authzs : s'.2.authzs=s.2.authzs
  challenges : s'.2.challenges=s.2.challenges

/-- The state with the clock at the time of an operation. -/
abbrev ticked (c : Choice) (s : AcmeState) : AcmeState := (s.1,{s.2 with clock := c.now})

theorem applyAcmeWrites_row {db db' : Db} {tables : AcmeTables} {writes : List Write}
    (h : applyWrites c db writes=.ok db') : applyAcmeWrites c (db,tables) (writes.map .row)=.ok (db',tables) := by
  induction writes generalizing db with
  | nil =>
    cases h
    rfl
  | cons w ws ih =>
    simp only [applyWrites] at h
    split at h
    · cases h
    rename_i hw
    obtain ⟨hfree,rfl⟩ := applyWrite_ok hw
    have hone : applyAcmeWrite c (db,tables) (.row w)=.ok (written c db w,tables) := by
      rw [applyAcmeWrite,show acmeViolation c (db,tables) (.row w)=none from hfree]
      rfl
    rw [List.map_cons,applyAcmeWrites,hone]
    exact ih h

/-- What one operation does to accounts, orders, authorizations, challenges and profiles: it commits
its writes, sweeps, or leaves all rows alone. -/
theorem acme_step (h : acmeServer.perform op c s=some (r,s')) :
    (c.fault=none ∧ committedWrites op r=writesOf op ∧ applyAcmeWrites c (ticked c s) (writesOf op)=.ok s') ∨
    (op=.inr .gcExpireAuthorizations ∧ s'=(s.1,{s.2 with clock := c.now,authzs := s.2.authzs.map (sweptAuthz c.now)})) ∨
    (op=.inr .gcInvalidateExpiredOrders ∧
      s'=({s.1 with orders := s.1.orders.map (sweptOrder c.now)},{s.2 with clock := c.now})) ∨
    (committedWrites op r=[] ∧ SameRows s s' ∧ s'.1.profiles=s.1.profiles) := by
  cases op with
  | inl op =>
    obtain ⟨heffect,htables⟩ := effect_of_acme h
    obtain ⟨db',tables'⟩ := s'
    dsimp only at heffect htables
    subst htables
    by_cases hop : ∃ writes,op=.withinTx writes
    · obtain ⟨writes,rfl⟩ := hop
      cases r with
      | error =>
        rw [fallible_error heffect]
        exact .inr (.inr (.inr ⟨rfl,⟨rfl,rfl,rfl,rfl⟩,rfl⟩))
      | ok => exact .inl ⟨(fallible_ok heffect).1,rfl,applyAcmeWrites_row (withinTx_ok heffect)⟩
    · have htables := effect_sameTables c s.1 fun writes he => hop ⟨writes,he⟩
      rw [heffect] at htables
      exact .inr (.inr (.inr ⟨committedWrites_inl fun writes he => hop ⟨writes,he⟩,
        ⟨htables.orders,rfl,rfl,rfl⟩,htables.profiles⟩))
  | inr op =>
    have heffect := acmeEffect_of_perform h
    have hsame : s'=ticked c s → SameRows s s' ∧ s'.1.profiles=s.1.profiles := by
      rintro rfl
      exact ⟨⟨rfl,rfl,rfl,rfl⟩,rfl⟩
    cases op with
    | acmeTx =>
      cases r with
      | error => exact .inr (.inr (.inr ⟨rfl,hsame (fallible_error heffect)⟩))
      | ok => exact .inl ⟨(acmeTx_ok heffect).1,rfl,(acmeTx_ok heffect).2⟩
    | gcExpireAuthorizations =>
      rcases fallible_cases heffect with ⟨-,hs⟩|⟨err,-,hs⟩
      · exact .inr (.inl ⟨rfl,hs⟩)
      · exact .inr (.inr (.inr ⟨rfl,hsame hs⟩))
    | gcInvalidateExpiredOrders =>
      rcases fallible_cases heffect with ⟨-,hs⟩|⟨err,-,hs⟩
      · exact .inr (.inr (.inl ⟨rfl,hs⟩))
      · exact .inr (.inr (.inr ⟨rfl,hsame hs⟩))
    | issueNonce | consumeNonce =>
      refine .inr (.inr (.inr ⟨rfl,?_⟩))
      cases r with
      | error => exact hsame (fallible_error heffect)
      | ok =>
        have hout := (fallible_ok heffect).2
        split at hout <;> cases hout
        exact ⟨⟨rfl,rfl,rfl,rfl⟩,rfl⟩
    | gcExpiredNonces =>
      refine .inr (.inr (.inr ⟨rfl,?_⟩))
      rcases fallible_cases heffect with ⟨-,rfl⟩|⟨err,-,hs⟩
      · exact ⟨⟨rfl,rfl,rfl,rfl⟩,rfl⟩
      · exact hsame hs
    | _ => exact .inr (.inr (.inr ⟨rfl,hsame (acmeEffect_reads heffect trivial)⟩))

section Profiles

variable {β : Type} {view : List CertificateProfile→β}

theorem acmeWritten_profiles (c : Choice) (s : AcmeState) (hw : ∀ profile,w≠.row (.updateProfile profile)) :
    (acmeWritten c s w).1.profiles=s.1.profiles := by
  cases w with
  | row write =>
    cases write with
    | updateProfile profile => exact absurd rfl (hw profile)
    | createRevocation =>
      simp only [acmeWritten,written]
      split <;> rfl
    | _ => rfl
  | _ => rfl

/-- Rule for profiles: what every write of its transaction leaves of the profiles, an operation leaves. -/
theorem acme_profileView (hwrite : ∀ w∈writesOf op,∀ c a,view (acmeWritten c a w).1.profiles=view a.1.profiles)
    (h : acmeServer.perform op c s=some (r,s')) : view s'.1.profiles=view s.1.profiles := by
  rcases acme_step h with ⟨-,-,hwrites⟩|⟨-,rfl⟩|⟨-,rfl⟩|⟨-,-,hprofiles⟩
  · refine applyAcmeWrites_keeps (P := fun x => view x.1.profiles=view s.1.profiles) (fun w hw a b ha hone => ?_)
      (s := ticked c s) rfl hwrites
    rw [(applyAcmeWrite_ok hone).2]
    exact (hwrite w hw c a).trans ha
  · rfl
  · rfl
  · rw [hprofiles]

theorem acme_profileIDs (h : acmeServer.perform op c s=some (r,s')) :
    s'.1.profiles.map CertificateProfile.id=s.1.profiles.map CertificateProfile.id := by
  refine acme_profileView (fun w _ c a => ?_) h
  by_cases hw : ∃ profile,w=.row (.updateProfile profile)
  · obtain ⟨profile,rfl⟩ := hw
    have hid : ∀ row,(overwriteProfile profile row).id=row.id := fun _ => rfl
    exact map_modify hid a.1.profiles
  · rw [acmeWritten_profiles c a fun profile he => hw ⟨profile,he⟩]

end Profiles

section Statuses

def authzStatus (authzID : String) (s : AcmeState) : Option AuthzStatus :=
  (lookup Authorization.authzID authzID s.2.authzs).map (·.status)

def challengeStatus (challengeID : String) (s : AcmeState) : Option ChallengeStatus :=
  (lookup Challenge.challengeID challengeID s.2.challenges).map (·.status)

def AcmeWrite.orderStatus? (orderID : String) : AcmeWrite→Option OrderStatus
  | .row write => write.orderStatus? orderID
  | .createOrder order => if order.orderID=orderID then some order.status else none
  | _ => none

/-- The status a row write gives to an authorization, if it writes that authorization. -/
def AcmeWrite.authzStatus? (authzID : String) : AcmeWrite→Option AuthzStatus
  | .createAuthz authz => if authz.authzID=authzID then some authz.status else none
  | .updateAuthzStatus id status => if id=authzID then some status else none
  | _ => none

/-- The status a row write gives to a challenge, if it writes that challenge. -/
def AcmeWrite.challengeStatus? (challengeID : String) : AcmeWrite→Option ChallengeStatus
  | .createChallenge ch => if ch.challengeID=challengeID then some ch.status else none
  | .updateChallenge ch => if ch.challengeID=challengeID then some ch.status else none
  | _ => none

variable {ρ κ : Type} {key : ρ→κ} {rows : List ρ} {k : κ}

theorem free_of_any [DecidableEq κ] (h : (rows.any fun row => key row=k)=false) : ∀ row∈rows,key row≠k := by
  intro row hrow hk
  have hnot := List.any_eq_false.mp h row hrow
  exact hnot (decide_eq_true hk)

/-- An insert that goes through has a new key, and the row it refers to. -/
theorem free_of_insert [DecidableEq κ] {p : Prop} [Decidable p] {parent : Bool} {err err' : GoError}
    (h : (if p then some err else if (rows.any fun row => key row=k) || !parent then some err' else none)=none) :
    (∀ row∈rows,key row≠k) ∧ parent=true := by
  split at h
  · cases h
  split at h
  · cases h
  rename_i hnot
  simp only [Bool.or_eq_true,not_or,Bool.not_eq_true,Bool.not_eq_false'] at hnot
  exact ⟨free_of_any hnot.1,hnot.2⟩

theorem found_of_unlessFound {row : Option ρ} {front : String} (h : unlessFound row front=none) : row.isSome=true := by
  unfold unlessFound at h
  split at h
  · assumption
  · cases h

theorem applyAcmeWrite_orderStatus (orderID : String) (h : applyAcmeWrite c s w=.ok s') :
    orderStatus orderID s'.1=(w.orderStatus? orderID).or (orderStatus orderID s.1) := by
  obtain ⟨hfree,rfl⟩ := applyAcmeWrite_ok h
  cases w with
  | row write =>
    have hwrite : applyWrite c s.1 write=.ok (written c s.1 write) := by
      rw [applyWrite,show violation c s.1 write=none from hfree]
    exact applyWrite_orderStatus orderID hwrite
  | createOrder => exact column_append (free_of_insert hfree).1
  | _ => rfl

theorem applyAcmeWrite_authzStatus (authzID : String) (h : applyAcmeWrite c s w=.ok s') :
    authzStatus authzID s'=(w.authzStatus? authzID).or (authzStatus authzID s) := by
  obtain ⟨hfree,rfl⟩ := applyAcmeWrite_ok h
  cases w with
  | createAuthz => exact column_append (free_of_insert hfree).1
  | updateAuthzStatus => exact column_modify (fun _ => rfl) (fun _ => rfl) (found_of_unlessFound hfree)
  | _ => rfl

theorem applyAcmeWrite_challengeStatus (challengeID : String) (h : applyAcmeWrite c s w=.ok s') :
    challengeStatus challengeID s'=(w.challengeStatus? challengeID).or (challengeStatus challengeID s) := by
  obtain ⟨hfree,rfl⟩ := applyAcmeWrite_ok h
  cases w with
  | createChallenge => exact column_append (free_of_insert hfree).1
  | updateChallenge => exact column_modify (fun _ => rfl) (fun _ => rfl) (found_of_unlessFound hfree)
  | _ => rfl

def lastSet {κ ω : Type} (sets : ω→Option κ) (writes : List ω) (before : Option κ) : Option κ :=
  writes.foldl (fun value w => (sets w).or value) before

theorem lastSet_none {ω : Type} {sets : ω→Option κ} {writes : List ω} (h : ∀ w∈writes,sets w=none)
    (before : Option κ) : lastSet sets writes before=before := by
  induction writes generalizing before with
  | nil => rfl
  | cons w ws ih =>
    have hrest := ih fun x hx => h x (List.mem_cons_of_mem _ hx)
    rw [lastSet,List.foldl_cons,h w List.mem_cons_self]
    exact hrest before

theorem applyAcmeWrites_lastSet {view : AcmeState→Option κ} {sets : AcmeWrite→Option κ}
    (hone : ∀ s s' w,applyAcmeWrite c s w=.ok s' → view s'=(sets w).or (view s))
    (h : applyAcmeWrites c s writes=.ok s') : view s'=lastSet sets writes (view s) := by
  induction writes generalizing s with
  | nil =>
    cases h
    rfl
  | cons w ws ih =>
    simp only [applyAcmeWrites] at h
    split at h
    · cases h
    rename_i mid hw
    rw [ih h,hone s mid w hw]
    rfl

end Statuses

end Certctl.AcmeServerStore
