import Certctl.AcmeChallenges
import Certctl.AcmeRevocation

/-!
# Accounts of the ACME server

Registration, key rollover and deactivation of accounts. A registration
looks for an account of the profile with the thumbprint of the key and
inserts one if there is none; the identifier of the new account is made of
the thumbprint. A rollover changes the thumbprint and leaves the identifier.
What a registration returns is compared with its profile and its key over
every run of such calls.
-/

namespace Certctl.AcmeAccounts

open AtomicProgram Prog AtomicInterleaving ControlPlaneTables ControlPlaneStore DomainRecords RecordTable StoreExtension
  Option
open AcmeServerStore AcmeOrders AcmeChallenges
open List hiding lookup modify lookup_append

variable {Key ι : Type} {c : Choice} {s' : AcmeState} {w : AcmeWrite} {writes : List AcmeWrite} {profileID : String}
  {jwk : Key} {contact : List String} {only : Bool} {t : ι} {acct : Account} {err : GoError}

/-- A server that also registers accounts. -/
structure AccountServer (Key : Type) extends AcmeServer Key where
  /-- Rollovers of an account in an hour; no limit unless positive. -/
  rateLimitKeyChangePerHour : ℤ := 0
  jwkToPEM : Key→Try String

def jwkThumbprint (svc : AccountServer Key) (jwk : Key) : Try String :=
  match svc.thumbprint jwk with
  | .error err => .error (err.wrapped "acme jws: thumbprint: ")
  | .ok raw => .ok (String.ofList (Base64Url.encode raw))

def accountID (thumbprint : String) : String := "acme-acc-"++thumbprint

theorem accountID_ne (thumbprint : String) : accountID thumbprint≠"" := by
  intro h
  have hlist := congrArg String.toList h
  rw [accountID,String.toList_append] at hlist
  cases hlist

def registerAccount (svc : AccountServer Key) (profileID thumbprint : String) (jwk : Key) (contact : List String) :
    Acme (Try (Account×Bool)) :=
  match svc.jwkToPEM jwk with
  | .error err => raise (err.wrapped "acme: serialize jwk: ")
  | .ok jwkPEM => do
    let acct : Account :=
      {accountID := accountID thumbprint, jwkThumbprint := thumbprint, jwkPEM := jwkPEM, contact := contact,
        status := .valid, profileID := profileID}
    match ← acme (.acmeTx [.createAccount acct]) with
    | .error err => raise err
    | .ok _ => pure (.ok (acct,true))

/-- Register a key under a profile; a key that is registered there gets its account back. -/
def newAccount (svc : AccountServer Key) (profileID : String) (jwk : Key) (contact : List String)
    (onlyReturnExisting : Bool) : Acme (Try (Account×Bool)) :=
  if !svc.tx || !svc.auditService then
    raise ⟨"acme: new-account requires SetTransactor + SetAuditService",none⟩
  else do
    match ← service (resolveProfile svc.toACMEService profileID) with
    | .error err => raise err
    | .ok resolvedProfileID =>
      match jwkThumbprint svc jwk with
      | .error err => raise (err.wrapped "acme: thumbprint: ")
      | .ok thumb =>
        match ← acme (.getAccountByThumbprint resolvedProfileID thumb) with
        | .ok existing => pure (.ok (existing,false))
        | .error err =>
          if !err.is .notFound then raise (err.wrapped "acme: lookup-by-thumbprint: ")
          else if onlyReturnExisting then raise Sentinel.acmeAccountDoesNotExist.error
          else registerAccount svc resolvedProfileID thumb jwk contact

def lookupAccount (accountID : String) : Acme (Try Account) := do
  match ← acme (.getAccountByID accountID) with
  | .error err =>
    if err.is .notFound then raise Sentinel.acmeAccountNotFound.error
    else raise (err.wrapped "acme: lookup account: ")
  | .ok acct => pure (.ok acct)

def writeAccount (svc : AccountServer Key) (unwired : String) (accountID : String) (write : AcmeWrite) :
    Acme (Try Account) :=
  if !svc.tx || !svc.auditService then raise ⟨unwired,none⟩
  else do
    match ← acme (.acmeTx [write]) with
    | .error err => raise err
    | .ok _ => lookupAccount accountID

def updateAccount (svc : AccountServer Key) (accountID : String) (contact : List String) : Acme (Try Account) :=
  writeAccount svc "acme: update-account requires SetTransactor + SetAuditService" accountID
    (.updateAccountContact accountID contact)

def deactivateAccount (svc : AccountServer Key) (accountID : String) : Acme (Try Account) :=
  writeAccount svc "acme: deactivate-account requires SetTransactor + SetAuditService" accountID
    (.updateAccountStatus accountID .deactivated)

/-- The error of a rollover whose write failed; the cause is found by its text. -/
def rolloverError (err : GoError) : GoError :=
  if AcmeRevocation.containsText err.text "rotated concurrently" then Sentinel.acmeKeyRolloverConcurrent.error
  else if AcmeRevocation.containsText err.text "already exists for this profile" then
    Sentinel.acmeKeyRolloverDuplicateKey.error
  else err

/-- Replace the key of an account by one that is not registered under its profile. -/
def swapKey (oldAccount : Account) (newThumbprint newJWKPEM : String) : Acme (Try Account) := do
  match ← acme (.getAccountByThumbprint oldAccount.profileID newThumbprint) with
  | .ok _ => raise Sentinel.acmeKeyRolloverDuplicateKey.error
  | .error err =>
    if !err.is .notFound then raise (err.wrapped "acme: lookup new jwk thumbprint: ")
    else
      match ← acme (.acmeTx
        [.updateAccountJWK oldAccount.accountID oldAccount.jwkThumbprint newThumbprint newJWKPEM]) with
      | .error err => raise (rolloverError err)
      | .ok _ => pure (.ok {oldAccount with jwkThumbprint := newThumbprint, jwkPEM := newJWKPEM})

/-- Replace the key of an account by another, if that has a thumbprint and a text. -/
def rolloverTo (svc : AccountServer Key) (oldAccount : Account) (newJWK : Key) : Acme (Try Account) :=
  match jwkThumbprint svc newJWK with
  | .error err => raise (err.wrapped "acme: thumbprint new jwk: ")
  | .ok newThumbprint =>
    match svc.jwkToPEM newJWK with
    | .error err => raise (err.wrapped "acme: serialize new jwk: ")
    | .ok newJWKPEM => swapKey oldAccount newThumbprint newJWKPEM

def rotateAccountKey (svc : AccountServer Key) (oldAccount : Option Account) (newJWK : Option Key) :
    Acme (Try Account) :=
  if !svc.tx || !svc.auditService then
    raise ⟨"acme: key rollover requires SetTransactor + SetAuditService",none⟩
  else
    match oldAccount,newJWK with
    | some oldAccount,some newJWK => do
      if ← overLimit svc.toAcmeServer svc.rateLimitKeyChangePerHour .keyChange oldAccount.accountID then
        raise Sentinel.acmeRateLimited.error
      else rolloverTo svc oldAccount newJWK
    | _,_ => raise Sentinel.acmeKeyRolloverInvalid.error

variable {op : acmeServer.Op} {r : acmeServer.Res op}

section Rows

def registered (row : Account) : String×String×String := (row.profileID,row.jwkThumbprint,row.jwkPEM)

/-- Profile and key that are stored for an account, if it exists. -/
def registeredAs (id : String) (s : AcmeState) : Option (String×String×String) :=
  (lookup Account.accountID id s.2.accounts).map registered

/-- Profile and key of an account after a row write. -/
def registeredAfter (id : String) (before : Option (String×String×String)) : AcmeWrite→Option (String×String×String)
  | .createAccount acct => before.or (if acct.accountID=id then some (registered acct) else none)
  | .updateAccountJWK id' _ thumbprint jwkPEM =>
    if id'=id then before.map fun old => (old.1,thumbprint,jwkPEM) else before
  | _ => before

/-- The write replaces the key of the account. -/
def rotates (id : String) : AcmeWrite→Bool
  | .updateAccountJWK id' _ _ _ => decide (id'=id)
  | _ => false

variable {s : AcmeState}

theorem applyAcmeWrite_registered (id : String)
    (h : applyAcmeWrite c s w=.ok s') : registeredAs id s'=registeredAfter id (registeredAs id s) w := by
  obtain ⟨-,rfl⟩ := applyAcmeWrite_ok h
  cases w with
  | createAccount =>
    simp only [registeredAs,acmeWritten,lookup_append,registeredAfter]
    cases hfound : lookup Account.accountID id s.2.accounts with
    | some => rfl
    | none => split <;> rfl
  | updateAccountContact | updateAccountStatus => exact column_modify_same (fun _ => rfl) (fun _ => rfl)
  | updateAccountJWK id' old thumbprint jwkPEM =>
    have hkey : ∀ row : Account,{row with jwkThumbprint := thumbprint,jwkPEM := jwkPEM}.accountID=row.accountID :=
      fun _ => rfl
    simp only [registeredAs,acmeWritten,registeredAfter]
    by_cases hid : id'=id
    · subst hid
      rw [lookup_modify_self hkey,if_pos rfl,Option.map_map,Option.map_map]
      rfl
    · rw [lookup_modify_of_ne hkey (Ne.symm hid),if_neg hid]
  | _ => rfl

theorem applyAcmeWrites_registered (id : String) (h : applyAcmeWrites c s writes=.ok s') :
    registeredAs id s'=writes.foldl (registeredAfter id) (registeredAs id s) := by
  induction writes generalizing s with
  | nil =>
    cases h
    rfl
  | cons w ws ih =>
    simp only [applyAcmeWrites] at h
    split at h
    · cases h
    rename_i hw
    rw [ih h,applyAcmeWrite_registered id hw]
    rfl

theorem registered_step (id : String) (h : acmeServer.perform op c s=some (r,s')) :
    registeredAs id s'=(committedWrites op r).foldl (registeredAfter id) (registeredAs id s) := by
  rcases acme_step h with ⟨-,hcommitted,hwrites⟩|⟨rfl,rfl⟩|⟨rfl,rfl⟩|⟨hcommitted,hrows,-⟩
  · rw [hcommitted]
    exact applyAcmeWrites_registered (s := ticked c s) id hwrites
  · rfl
  · rfl
  rw [hcommitted]
  unfold registeredAs
  rw [hrows.accounts]
  rfl

/-- Profile and key of an account after the operations of a log. -/
def registeredInLog (id : String) (log : Log acmeServer ι) : Option (String×String×String) :=
  log.foldr (fun e before => (committedWrites e.op e.res).foldl (registeredAfter id) before) none

theorem registeredAs_eq_log {α : Type} [DecidableEq ι] {ok : StepCondition acmeServer ι α} {pool : ι→Acme α}
    (hstart : s.2.accounts=[]) {cfg : Config acmeServer ι α} (hreach : Reach ok (initial pool s) cfg) (id : String) :
    registeredAs id cfg.state=registeredInLog id cfg.log := by
  refine reach_invariant (I := fun b : Config acmeServer ι α => registeredAs id b.state=registeredInLog id b.log)
    ?_ ?_ hreach
  · simp only [registeredAs,initial,hstart]
    rfl
  rintro a _ ha ⟨hthread,hok,hperform⟩
  simp only [Config.advance]
  rw [registered_step id hperform,ha]
  rfl

variable {x : String×String×String} {id : String}

theorem registeredAfter_some
    (h : ∀ w∈writes,rotates id w=false) : writes.foldl (registeredAfter id) (some x)=some x := by
  induction writes with
  | nil => rfl
  | cons w ws ih =>
    have hone : registeredAfter id (some x) w=some x := by
      cases w with
      | updateAccountJWK id' =>
        have hother : ¬id'=id := of_decide_eq_false (h _ mem_cons_self)
        simp only [registeredAfter,if_neg hother]
      | _ => rfl
    rw [foldl_cons,hone]
    exact ih fun v hv => h v (mem_cons_of_mem _ hv)

theorem registeredAfter_profile {before : Option (String×String×String)} (h : before.map Prod.fst=some profileID) :
    (writes.foldl (registeredAfter id) before).map Prod.fst=some profileID := by
  induction writes generalizing before with
  | nil => exact h
  | cons w ws ih =>
    refine ih ?_
    obtain ⟨x,rfl,rfl⟩ := map_eq_some_iff.mp h
    cases w with
    | updateAccountJWK =>
      simp only [registeredAfter]
      split <;> rfl
    | _ => rfl

/-- The account was rolled over in the part of a log that stands before another one. -/
def RotatedBetween (id : String) (earlier later : Log acmeServer ι) : Prop :=
  ∃ between,later=between++earlier ∧ ∃ e∈between,∃ w∈committedWrites e.op e.res,rotates id w=true

/-- An account keeps its profile from one point of a log to a later one, and its key unless it was rolled over between. -/
theorem registered_between {earlier later : Log acmeServer ι} (hsuffix : earlier<:+later)
    {y : String×String×String} (hx : registeredInLog id earlier=some x) (hy : registeredInLog id later=some y) :
    x.1=y.1 ∧ (x=y ∨ RotatedBetween id earlier later) := by
  obtain ⟨between,rfl⟩ := hsuffix
  obtain ⟨z,hz,hprofile,hsame⟩ : ∃ z,registeredInLog id (between++earlier)=some z ∧ x.1=z.1 ∧
      (x=z ∨ ∃ e∈between,∃ w∈committedWrites e.op e.res,rotates id w=true) := by
    clear hy
    induction between with
    | nil => exact ⟨x,hx,rfl,.inl rfl⟩
    | cons e rest ih =>
      obtain ⟨z,hz,hprofile,hsame⟩ := ih
      have hnext : registeredInLog id (e::rest++earlier)=
          (committedWrites e.op e.res).foldl (registeredAfter id) (some z) := by
        rw [← hz]
        rfl
      by_cases hrotated : ∃ w∈committedWrites e.op e.res,rotates id w=true
      · have hmap : (registeredInLog id (e::rest++earlier)).map Prod.fst=some z.1 := by
          rw [hnext]
          exact registeredAfter_profile rfl
        obtain ⟨z',hz',hfst⟩ := map_eq_some_iff.mp hmap
        exact ⟨z',hz',hprofile.trans hfst.symm,.inr ⟨e,mem_cons_self,hrotated⟩⟩
      refine ⟨z,hnext.trans (registeredAfter_some fun w hw => ?_),hprofile,hsame.imp_right ?_⟩
      · exact Bool.eq_false_iff.mpr fun hrot => hrotated ⟨w,hw,hrot⟩
      · rintro ⟨d,hd,hrot⟩
        exact ⟨d,mem_cons_of_mem _ hd,hrot⟩
  cases hz.symm.trans hy
  exact ⟨hprofile,hsame.imp_right fun hrotated => ⟨between,rfl,hrotated⟩⟩

end Rows

section Calls

def StoredKey (svc : AccountServer Key) (thumbprint jwkPEM : String) : Prop :=
  ∃ key,jwkThumbprint svc key=.ok thumbprint ∧ svc.jwkToPEM key=.ok jwkPEM

def KeyWrite (svc : AccountServer Key) : AcmeWrite→Prop
  | .createAccount acct => StoredKey svc acct.jwkThumbprint acct.jwkPEM
  | .updateAccountJWK _ _ thumbprint jwkPEM => StoredKey svc thumbprint jwkPEM
  | _ => True

def KeyWrites (svc : AccountServer Key) (_ : Log acmeServer Unit) (op : acmeServer.Op) (_ : acmeServer.Res op) :
    Prop := ∀ w∈writesOf op,KeyWrite svc w

/-- A program of the account calls, with what it has noted. -/
abbrev Accounted {α : Type} (svc : AccountServer Key) (Q : α→Log acmeServer Unit→Prop) (p : Acme α)
    (events : Log acmeServer Unit) : Prop :=
  p.Tracked acmeServer.CanAnswer (KeyWrites svc) noted Q events

variable {α : Type} {P : acmeServer.Op→Prop} {svc : AccountServer Key} {Q : α→Log acmeServer Unit→Prop}
  {events : Log acmeServer Unit}

/-- The account that a registration got: it read the row or wrote it, as the last thing it did. -/
def Got (svc : AccountServer Key) (profileID : String) (jwk : Key) (acct : Account)
    (events : Log acmeServer Unit) : Prop :=
  acct.profileID=resolvedID svc.toACMEService profileID ∧ jwkThumbprint svc jwk=.ok acct.jwkThumbprint ∧
    ∃ e rest,events=e::rest ∧ (e=⟨(),.inr (.getAccountByThumbprint acct.profileID acct.jwkThumbprint),Except.ok acct⟩ ∨
        e=⟨(),.inr (.acmeTx [.createAccount acct]),Except.ok ()⟩)

/-- Why a registration returned an error. -/
inductive Refused (svc : AccountServer Key) (profileID : String) (jwk : Key) (onlyReturnExisting : Bool)
    (events : Log acmeServer Unit) : Prop where
  | unwired (h : svc.tx=false ∨ svc.auditService=false)
  | unnamed (h : resolvedID svc.toACMEService profileID="")
  | profile (err : GoError)
      (h : ⟨(),.inl (.getProfile (resolvedID svc.toACMEService profileID)),Except.error err⟩∈events)
  | thumbprint (err : GoError) (h : jwkThumbprint svc jwk=.error err)
  | search (thumbprint : String) (err : GoError) (herr : err.is .notFound=false)
      (h : ⟨(),.inr (.getAccountByThumbprint (resolvedID svc.toACMEService profileID) thumbprint),Except.error err⟩∈events)
  /-- No account, and none wanted. -/
  | existing (h : onlyReturnExisting=true)
  /-- The key cannot be stored. -/
  | text (err : GoError) (h : svc.jwkToPEM jwk=.error err)
  | insert (acct : Account) (err : GoError) (hprofile : acct.profileID=resolvedID svc.toACMEService profileID)
      (hkey : jwkThumbprint svc jwk=.ok acct.jwkThumbprint) (hid : acct.accountID=accountID acct.jwkThumbprint)
      (hpem : svc.jwkToPEM jwk=.ok acct.jwkPEM)
      (h : ⟨(),.inr (.acmeTx [.createAccount acct]),Except.error err⟩∈events)

def Registered (svc : AccountServer Key) (profileID : String) (jwk : Key) (onlyReturnExisting : Bool) :
    Try (Account×Bool)→Log acmeServer Unit→Prop
  | .ok (acct,_),events => Got svc profileID jwk acct events
  | .error _,events => Refused svc profileID jwk onlyReturnExisting events

theorem accounted_registerAccount {resolved thumbprint : String}
    (hresolved : resolved=resolvedID svc.toACMEService profileID) (hkey : jwkThumbprint svc jwk=.ok thumbprint) :
    Accounted svc (Registered svc profileID jwk only) (registerAccount svc resolved thumbprint jwk contact) events := by
  unfold registerAccount
  split
  · rename_i err herr
    exact Refused.text err herr
  rename_i hpem
  refine fun r _ => ⟨forall_mem_singleton.mpr ⟨jwk,hkey,hpem⟩,?_⟩
  cases r with
  | ok => exact ⟨hresolved,hkey,_,_,rfl,.inr rfl⟩
  | error err => exact Refused.insert _ err hresolved hkey rfl hpem mem_cons_self

theorem accounted_newAccount :
    Accounted svc (Registered svc profileID jwk only) (newAccount svc profileID jwk contact only) events := by
  unfold newAccount
  split
  · rename_i hwired
    refine Refused.unwired ?_
    simpa using hwired
  refine tracked_bind.mpr (tracked_lift (tracked_resolveProfile (fun _ => forall_mem_nil _) ?_ ?_ fun profile => ?_))
  · exact fun hempty err => Refused.unnamed hempty
  · exact fun err err' => Refused.profile err mem_cons_self
  dsimp only
  split
  · rename_i err herr
    exact Refused.thumbprint err herr
  rename_i thumb hthumb
  refine fun r hr => ⟨forall_mem_nil _,?_⟩
  cases r with
  | ok existing =>
    obtain ⟨c,s,s',hperform⟩ := hr
    have hfound := (lookup_some (readRow_ok (acmeEffect_of_perform hperform)).1).2
    have hprofile : existing.profileID=resolvedID svc.toACMEService profileID := congrArg Prod.fst hfound
    have hkey : existing.jwkThumbprint=thumb := congrArg Prod.snd hfound
    subst hkey
    refine ⟨hprofile,hthumb,_,_,rfl,.inl ?_⟩
    rw [hprofile]
  | error err =>
    dsimp only [Prog.bind]
    split
    · rename_i hother
      exact Refused.search thumb err (by simpa using hother) mem_cons_self
    split
    · rename_i honly
      exact Refused.existing honly
    · exact accounted_registerAccount rfl hthumb

theorem uses_writeAccount {unwired id : String} (htx : P (.inr (.acmeTx [w]))) (hread : P (.inr (.getAccountByID id))) :
    (writeAccount svc unwired id w).Uses P := by
  unfold writeAccount
  split
  · trivial
  refine uses_op htx (onAnswer fun _ => ?_)
  refine uses_op hread fun found => ?_
  cases found with
  | ok => trivial
  | error =>
    dsimp only
    split <;> trivial

theorem uses_rotateAccountKey {oldAccount : Option Account} {newJWK : Option Key}
    (hlimit : ∀ action key,P (.inr (.allow action key)))
    (hsearch : ∀ profileID thumbprint,P (.inr (.getAccountByThumbprint profileID thumbprint)))
    (hswap : ∀ id old thumbprint jwkPEM,StoredKey svc thumbprint jwkPEM →
      P (.inr (.acmeTx [.updateAccountJWK id old thumbprint jwkPEM]))) : (rotateAccountKey svc oldAccount newJWK).Uses P := by
  have hroll : ∀ old key,(rolloverTo svc old key).Uses P := by
    intro old key
    unfold rolloverTo
    split
    · trivial
    rename_i hthumb
    split
    · trivial
    rename_i hpem
    refine uses_op (hsearch _ _) fun found => ?_
    cases found with
    | ok => trivial
    | error =>
      dsimp only
      split
      · trivial
      refine uses_op (hswap _ _ _ _ ⟨key,hthumb,hpem⟩) fun r => ?_
      cases r <;> trivial
  unfold rotateAccountKey
  split
  · trivial
  split
  · refine uses_bind (uses_overLimit (hlimit _ _)) fun refused => ?_
    split
    · trivial
    · exact hroll _ _
  · trivial

theorem accounted_of_uses {p : Acme α} (h : p.Uses fun op => ∀ w∈writesOf op,KeyWrite svc w) :
    Accounted svc (fun _ _ => True) p events :=
  tracked_of_uses (I := fun _ => True) (fun _ _ _ _ hop => ⟨hop,trivial⟩) h trivial

end Calls

section Runs

/-- The calls on accounts. -/
inductive AccountCall (Key : Type) where
  | newAccount (profileID : String) (jwk : Key) (contact : List String) (onlyReturnExisting : Bool)
  | rotateAccountKey (oldAccount : Option Account) (newJWK : Option Key)
  | deactivateAccount (accountID : String)
  | updateAccount (accountID : String) (contact : List String)

def AccountCall.program (svc : AccountServer Key) : AccountCall Key→Acme (Option (Try (Account×Bool)))
  | .newAccount profileID jwk contact only => (AcmeAccounts.newAccount svc profileID jwk contact only).bind fun r => .ret (some r)
  | .rotateAccountKey oldAccount newJWK => (AcmeAccounts.rotateAccountKey svc oldAccount newJWK).bind fun _ => .ret none
  | .deactivateAccount id => (AcmeAccounts.deactivateAccount svc id).bind fun _ => .ret none
  | .updateAccount id contact => (AcmeAccounts.updateAccount svc id contact).bind fun _ => .ret none

def AccountCall.Done (svc : AccountServer Key) (call : AccountCall Key) (out : Option (Try (Account×Bool)))
    (events : Log acmeServer Unit) : Prop :=
  ∀ profileID jwk contact only r,call=.newAccount profileID jwk contact only → out=some r →
    Registered svc profileID jwk only r events

theorem accounted_program (svc : AccountServer Key) (call : AccountCall Key) (events : Log acmeServer Unit) :
    Accounted svc (call.Done svc) (call.program svc) events := by
  cases call with
  | newAccount =>
    refine tracked_seq accounted_newAccount fun r events' hr => ?_
    intro profileID' jwk' contact' only' r' hcall hout
    cases hcall
    cases hout
    exact hr
  | rotateAccountKey =>
    refine tracked_seq (accounted_of_uses (uses_rotateAccountKey (fun _ _ => forall_mem_nil _)
      (fun _ _ => forall_mem_nil _) fun _ _ _ _ hkey => forall_mem_singleton.mpr hkey)) fun _ _ _ => ?_
    rintro _ _ _ _ _ ⟨⟩
  | deactivateAccount | updateAccount =>
    refine tracked_seq (accounted_of_uses
      (uses_writeAccount (forall_mem_singleton.mpr trivial) (forall_mem_nil _))) fun _ _ _ => ?_
    rintro _ _ _ _ _ ⟨⟩

/-- Accounts have identifiers of their own and store thumbprint and text of one key. -/
structure GoodAccounts (svc : AccountServer Key) (s : AcmeState) : Prop where
  ids : (s.2.accounts.map Account.accountID).Nodup
  /-- Thumbprint and text belong together. -/
  keys : ∀ row∈s.2.accounts,StoredKey svc row.jwkThumbprint row.jwkPEM

theorem goodAccounts_modify {svc : AccountServer Key} {s : AcmeState} {id : String} {f : Account→Account}
    (hid : ∀ row,(f row).accountID=row.accountID)
    (hkey : ∀ row,StoredKey svc row.jwkThumbprint row.jwkPEM → StoredKey svc (f row).jwkThumbprint (f row).jwkPEM)
    (h : GoodAccounts svc s) :
    GoodAccounts svc (s.1,{s.2 with accounts := modify Account.accountID id f s.2.accounts}) := by
  refine ⟨?_,?_⟩
  · rw [map_modify hid]
    exact h.ids
  intro row hrow
  rcases mem_modify.mp hrow with ⟨hold,-⟩|⟨old,hold,-,rfl⟩
  · exact h.keys row hold
  · exact hkey old (h.keys old hold)

theorem goodAccounts_write {svc : AccountServer Key} {s : AcmeState}
    (hw : KeyWrite svc w) (hs : GoodAccounts svc s) (h : applyAcmeWrite c s w=.ok s') : GoodAccounts svc s' := by
  obtain ⟨hfree,rfl⟩ := applyAcmeWrite_ok h
  cases w with
  | createAccount =>
    simp only [acmeViolation] at hfree
    split at hfree
    · cases hfree
    split at hfree
    · cases hfree
    rename_i hnew
    refine ⟨?_,?_⟩
    · refine keys_append hs.ids fun row hrow hid => hnew (any_eq_true.mpr ⟨row,hrow,?_⟩)
      rw [decide_eq_true hid,Bool.true_or]
    · exact forall_mem_append.mpr ⟨hs.keys,forall_mem_singleton.mpr hw⟩
  | updateAccountContact | updateAccountStatus => exact goodAccounts_modify (fun _ => rfl) (fun _ hkey => hkey) hs
  | updateAccountJWK => exact goodAccounts_modify (fun _ => rfl) (fun _ _ => hw) hs
  | _ => exact ⟨hs.ids,hs.keys⟩

theorem goodAccounts_step {svc : AccountServer Key} {s : AcmeState}
    (hw : ∀ w∈writesOf op,KeyWrite svc w) (hs : GoodAccounts svc s)
    (h : acmeServer.perform op c s=some (r,s')) : GoodAccounts svc s' := by
  rcases acme_step h with ⟨-,-,hwrites⟩|⟨rfl,rfl⟩|⟨rfl,rfl⟩|⟨-,hrows,-⟩
  · have hticked : GoodAccounts svc (ticked c s) := ⟨hs.ids,hs.keys⟩
    exact applyAcmeWrites_keeps (fun w hmem a b ha hone => goodAccounts_write (hw w hmem) ha hone) hticked hwrites
  · exact ⟨hs.ids,hs.keys⟩
  · exact ⟨hs.ids,hs.keys⟩
  · exact ⟨hrows.accounts ▸ hs.ids,hrows.accounts ▸ hs.keys⟩

variable [DecidableEq ι]

def accountCalls (svc : AccountServer Key) (calls : ι→AccountCall Key) : ι→Acme (Option (Try (Account×Bool))) :=
  fun t => (calls t).program svc

/-- Some calls meet no outage. -/
def noOutage {α : Type} (calm : ι→Bool) : StepCondition acmeServer ι α := fun _ t _ c => calm t=true → c.fault=none

instance {α : Type} (calm : ι→Bool) (cfg : Config acmeServer ι α) (t : ι) (op : acmeServer.Op) (c : acmeServer.Choice) :
    Decidable (noOutage calm cfg t op c) := inferInstanceAs (Decidable (calm t=true → c.fault=none))

variable {svc : AccountServer Key} {calls : ι→AccountCall Key} {s : AcmeState} {calm : ι→Bool}
  {cfg : Config acmeServer ι (Option (Try (Account×Bool)))}

theorem goodAccounts_reach (hstart : s.2.accounts=[])
    (hreach : Reach (noOutage calm) (initial (accountCalls svc calls) s) cfg) : GoodAccounts svc cfg.state := by
  have hpool : ∀ t,Accounted svc (fun _ _ => True) (accountCalls svc calls t) [] :=
    fun t => (accounted_program svc (calls t) []).mono fun _ _ _ => trivial
  refine (reach_tracked (I := fun b : Config acmeServer ι (Option (Try (Account×Bool))) =>
    GoodAccounts svc b.state) (admitted_canAnswer _ _) hreach hpool ?_ ?_).1
  · have hfirst : GoodAccounts svc s := by
      refine ⟨?_,?_⟩ <;> rw [hstart]
      · exact nodup_nil
      · exact forall_mem_nil _
    exact hfirst
  · intro a t op c r s' ha _ _ hperform hpre k _
    exact goodAccounts_step hpre ha hperform

/-- At a point of a run a call has just read or written the row of an account. -/
structure ObtainedAt {α : Type} (ok : StepCondition acmeServer ι α) (start cfg b : Config acmeServer ι α) (t : ι)
    (acct : Account) : Prop where
  /-- The run comes to the point. -/
  before : Reach ok start b
  /-- The run goes on from there. -/
  after : Reach ok b cfg
  /-- The last operation was one of the call. -/
  newest : (b.log.head?).map Event.thread=some t
  stored : lookup Account.accountID acct.accountID b.state.2.accounts=some acct

/-- What a registration returned was stored when it was obtained. -/
theorem obtained_of_got (hstart : s.2.accounts=[])
    (hreach : Reach (noOutage calm) (initial (accountCalls svc calls) s) cfg)
    (hgot : Got svc profileID jwk acct (ghost noted [] t cfg.log)) :
    ∃ b,ObtainedAt (noOutage calm) (initial (accountCalls svc calls) s) cfg b t acct := by
  obtain ⟨-,-,e,rest,hevents,hlast⟩ := hgot
  obtain ⟨⟨⟩,op,res⟩ := e
  have hmem : ⟨(),op,res⟩∈ghost noted [] t cfg.log := by
    rw [hevents]
    exact mem_cons_self
  obtain ⟨a,c,s',hmoment⟩ := exists_moment hreach (mem_log_of_noted hmem) not_mem_nil
  obtain ⟨k,hthread,hafter⟩ := hmoment.after
  have hreach' := hmoment.before.tail (Step.run hthread hmoment.admitted hmoment.performed)
  refine ⟨_,hreach',hafter,rfl,lookup_of_mem (goodAccounts_reach hstart hreach').ids ?_⟩
  rcases hlast with hread|hwrite
  · cases hread
    obtain ⟨hfound,rfl⟩ := readRow_ok (acmeEffect_of_perform hmoment.performed)
    exact (lookup_some hfound).1
  · cases hwrite
    obtain ⟨-,hdone⟩ := applyAcmeWrites_cons (acmeTx_ok (acmeEffect_of_perform hmoment.performed)).2
    cases hdone
    exact mem_append_right _ (mem_singleton_self _)

/-- Operations of the kinds that account calls run: none of them is ever blocked, and none redeems a nonce. -/
def AtOnce : acmeServer.Op→Prop
  | .inl op => op.answersAtOnce=true
  | .inr (.consumeNonce _) => False
  | .inr _ => True

variable {P : acmeServer.Op→Prop} {α : Type}

theorem uses_resolveProfile {svc : ACMEService}
    {k : Try String→Acme α} (hprofile : P (.inl (.getProfile (resolvedID svc profileID))))
    (herr : ∀ err,(k (.error err)).Uses P) (hok : (k (.ok (resolvedID svc profileID))).Uses P) :
    ((service (resolveProfile svc profileID)).bind k).Uses P := by
  unfold resolveProfile
  split
  · exact herr _
  refine ⟨hprofile,fun r => ?_⟩
  cases r with
  | error err =>
    have hcase : ∀ (missing : Bool) (one other : GoError),Prog.Uses P ((service
        (if missing=true then raise one else raise other)).bind k) := by
      intro missing one other
      cases missing with
      | false => exact herr other
      | true => exact herr one
    exact hcase (err.is .notFound) _ _
  | ok => exact hok

theorem uses_newAccount (hprofile : P (.inl (.getProfile (resolvedID svc.toACMEService profileID))))
    (hsearch : ∀ thumbprint,P (.inr (.getAccountByThumbprint (resolvedID svc.toACMEService profileID) thumbprint)))
    (hinsert : ∀ acct : Account,acct.profileID=resolvedID svc.toACMEService profileID →
      P (.inr (.acmeTx [.createAccount acct]))) :
    (newAccount svc profileID jwk contact only).Uses P := by
  have hregister : ∀ thumb,(registerAccount svc (resolvedID svc.toACMEService profileID) thumb jwk contact).Uses P := by
    intro thumb
    unfold registerAccount
    split
    · trivial
    refine ⟨hinsert _ rfl,fun r => ?_⟩
    cases r <;> trivial
  unfold newAccount
  split
  · trivial
  refine uses_resolveProfile hprofile (fun err => trivial) ?_
  dsimp only
  split
  · trivial
  refine uses_op (hsearch _) fun found => ?_
  cases found with
  | ok => trivial
  | error =>
    dsimp only
    split
    · trivial
    split
    · trivial
    · exact hregister _

theorem atOnce_newAccount (svc : AccountServer Key) (profileID : String) (jwk : Key) (contact : List String)
    (only : Bool) : (newAccount svc profileID jwk contact only).Uses AtOnce :=
  uses_newAccount rfl (fun _ => trivial) fun _ _ => trivial

theorem atOnce_writeAccount (svc : AccountServer Key) (unwired id : String) (w : AcmeWrite) :
    (writeAccount svc unwired id w).Uses AtOnce := uses_writeAccount trivial trivial

theorem atOnce_rotateAccountKey (svc : AccountServer Key) (oldAccount : Option Account) (newJWK : Option Key) :
    (rotateAccountKey svc oldAccount newJWK).Uses AtOnce :=
  uses_rotateAccountKey (fun _ _ => trivial) (fun _ _ => trivial) fun _ _ _ _ _ => trivial

theorem atOnce_program (svc : AccountServer Key) (call : AccountCall Key) : (call.program svc).Uses AtOnce := by
  cases call with
  | newAccount => exact uses_bind (atOnce_newAccount _ _ _ _ _) fun _ => trivial
  | rotateAccountKey => exact uses_bind (atOnce_rotateAccountKey _ _ _) fun _ => trivial
  | deactivateAccount | updateAccount => exact uses_bind (atOnce_writeAccount _ _ _ _) fun _ => trivial

theorem accountCall_returns (hreach : Reach (noOutage calm) (initial (accountCalls svc calls) s) cfg) (t : ι) :
    ∃ cfg' out,Reach (noOutage calm) cfg cfg' ∧ cfg'.threads t=.ret out := by
  have huses : (cfg.threads t).Uses AtOnce :=
    reach_invariant (I := fun b : Config acmeServer ι (Option (Try (Account×Bool))) =>
      (b.threads t).Uses AtOnce) (atOnce_program svc (calls t)) (uses_step t) hreach
  refine reach_return_of_uses (fun b op hop => ?_) huses
  cases op with
  | inl op =>
    have hopen := not_blocked_of_answersAtOnce hop noFault b.state.1
    refine ⟨noFault,(effect noFault b.state.1 op).1,
      ((effect noFault b.state.1 op).2,{b.state.2 with clock := noFault.now}),fun _ => rfl,?_⟩
    simp only [Extension.act,hopen,Bool.false_eq_true,if_false,map_some]
  | inr => exact ⟨noFault,_,_,fun _ => rfl,rfl⟩

def ThumbprintsIdentify (svc : AccountServer Key) : Prop :=
  ∀ jwk jwk' thumbprint,jwkThumbprint svc jwk=.ok thumbprint → jwkThumbprint svc jwk'=.ok thumbprint →
    svc.jwkToPEM jwk=svc.jwkToPEM jwk'

/-- Nothing but other accounts stands against a registration: the service is wired, the profile is stored and the
key can be. -/
structure Registrable (svc : AccountServer Key) (s : AcmeState) (profileID : String) (jwk : Key) : Prop where
  wired : svc.tx=true ∧ svc.auditService=true
  named : resolvedID svc.toACMEService profileID≠""
  stored : resolvedID svc.toACMEService profileID∈s.1.profiles.map CertificateProfile.id
  thumbprint : ∃ thumbprint,jwkThumbprint svc jwk=.ok thumbprint ∧ thumbprint≠""
  text : ∃ jwkPEM,svc.jwkToPEM jwk=.ok jwkPEM ∧ jwkPEM≠""

theorem readRow_missing {σ : Type} {db db' : σ} {row : Option α} {missing : GoError}
    (hfault : c.fault=none) (h : readRow c db row missing=(.error err,db')) : row=none ∧ err=missing := by
  unfold readRow fallible at h
  rw [hfault] at h
  cases row with
  | none =>
    cases h
    exact ⟨rfl,rfl⟩
  | some => cases h

theorem createAccount_violation (hfault : c.fault=none)
    (h : acmeEffect c s (.acmeTx [.createAccount acct])=(Except.error err,s')) :
    acmeViolation c s (.createAccount acct)=some err := by
  simp only [acmeEffect,fallible,hfault,applyAcmeWrites,applyAcmeWrite] at h
  cases hfree : acmeViolation c s (.createAccount acct) <;> rw [hfree] at h <;> cases h
  rfl

/-- An insert of a whole account under a stored profile fails only on another account. -/
theorem conflict_of_violation
    (hid : acct.accountID≠"") (hthumb : acct.jwkThumbprint≠"") (hpem : acct.jwkPEM≠"") (hprofile : acct.profileID≠"")
    (hstored : acct.profileID∈s.1.profiles.map CertificateProfile.id)
    (h : acmeViolation c s (.createAccount acct)=some err) :
    ∃ row∈s.2.accounts,row.accountID=acct.accountID ∨ accountKey row=accountKey acct := by
  simp only [acmeViolation] at h
  split at h
  · rename_i hempty
    rcases hempty with hempty|hempty|hempty|hempty
    · exact absurd hempty hid
    · exact absurd hempty hthumb
    · exact absurd hempty hpem
    · exact absurd hempty hprofile
  split at h
  · rename_i hany
    obtain ⟨row,hrow,hsame⟩ := any_eq_true.mp hany
    refine ⟨row,hrow,?_⟩
    simpa only [Bool.or_eq_true,decide_eq_true_eq] using hsame
  split at h
  · cases h
  rename_i hnone
  obtain ⟨profile,hmem,hsame⟩ := mem_map.mp hstored
  exact absurd (any_eq_true.mpr ⟨profile,hmem,decide_eq_true hsame⟩) hnone

theorem profileIDs_reach {ok : StepCondition acmeServer ι α} {start b : Config acmeServer ι α}
    (hreach : Reach ok start b) :
    b.state.1.profiles.map CertificateProfile.id=start.state.1.profiles.map CertificateProfile.id := by
  refine reach_invariant (I := fun x : Config acmeServer ι α => x.state.1.profiles.map CertificateProfile.id=
    start.state.1.profiles.map CertificateProfile.id) rfl ?_ hreach
  rintro a _ ha ⟨-,-,hperform⟩
  exact (acme_profileIDs hperform).trans ha

section

variable (hreach : Reach (noOutage calm) (initial (accountCalls svc calls) s) cfg)
include hreach

theorem registered_of_returned {r : Try (Account×Bool)}
    (hcall : calls t=.newAccount profileID jwk contact only) (hret : cfg.threads t=.ret (some r)) :
    Registered svc profileID jwk only r (ghost noted [] t cfg.log) := by
  have hstart : Accounted svc ((calls t).Done svc) (accountCalls svc calls t) [] := accounted_program svc (calls t) []
  have hthread := reach_thread_tracked (fun a op c r s' _ _ hperform => ⟨c,a.state,s',hperform⟩) hstart hreach
  rw [hret] at hthread
  exact hthread profileID jwk contact only r hcall rfl

theorem account_of_returned (hkeys : ThumbprintsIdentify svc) (hstart : s.2.accounts=[]) {created : Bool}
    (hcall : calls t=.newAccount profileID jwk contact only) (hret : cfg.threads t=.ret (some (.ok (acct,created)))) :
    acct.profileID=resolvedID svc.toACMEService profileID ∧ jwkThumbprint svc jwk=.ok acct.jwkThumbprint ∧
      svc.jwkToPEM jwk=.ok acct.jwkPEM ∧
      ∃ b,ObtainedAt (noOutage calm) (initial (accountCalls svc calls) s) cfg b t acct := by
  have hgot : Got svc profileID jwk acct (ghost noted [] t cfg.log) := registered_of_returned hreach hcall hret
  obtain ⟨b,hb⟩ := obtained_of_got hstart hreach hgot
  obtain ⟨key,hthumb,hpem⟩ := (goodAccounts_reach hstart hb.before).keys acct (lookup_some hb.stored).1
  have hsame := hkeys jwk key _ hgot.2.1 hthumb
  exact ⟨hgot.1,hgot.2.1,hsame.trans hpem,b,hb⟩

/-- A calm registration with nothing against it fails only on another account with its identifier, or with its
profile and thumbprint, that is stored when it inserts. -/
theorem conflict_of_refused (hcalm : calm t=true)
    (hopen : Registrable svc s profileID jwk) (hcall : calls t=.newAccount profileID jwk contact false)
    (hret : cfg.threads t=.ret (some (.error err))) :
    ∃ a c acct err' s',Moment (noOutage calm) (initial (accountCalls svc calls) s) cfg a t
        (.inr (.acmeTx [.createAccount acct])) c (Except.error err') s' ∧
      acct.profileID=resolvedID svc.toACMEService profileID ∧ jwkThumbprint svc jwk=.ok acct.jwkThumbprint ∧
      acct.accountID=accountID acct.jwkThumbprint ∧
      ∃ row∈a.state.2.accounts,row.accountID=acct.accountID ∨ accountKey row=accountKey acct := by
  have hrefused : Refused svc profileID jwk false (ghost noted [] t cfg.log) := registered_of_returned hreach hcall hret
  obtain ⟨thumb,hthumb,hthumbText⟩ := hopen.thumbprint
  obtain ⟨pem,hpem,hpemText⟩ := hopen.text
  cases hrefused with
  | unwired h =>
    rw [hopen.wired.1,hopen.wired.2] at h
    rcases h with h|h <;> cases h
  | unnamed h => exact absurd h hopen.named
  | profile err' h =>
    obtain ⟨a,c,s',hmoment⟩ := exists_moment hreach (mem_log_of_noted h) not_mem_nil
    obtain ⟨hnone,-⟩ := readRow_missing (hmoment.admitted hcalm) (effect_of_acme hmoment.performed).1
    have hids := profileIDs_reach hmoment.before
    obtain ⟨row,hfound⟩ := lookup_isSome (mem_map.mp (hids ▸ hopen.stored))
    rw [map_eq_none_iff.mp hnone] at hfound
    cases hfound
  | thumbprint err' h => cases hthumb.symm.trans h
  | search thumbprint err' herr h =>
    obtain ⟨a,c,s',hmoment⟩ := exists_moment hreach (mem_log_of_noted h) not_mem_nil
    obtain ⟨-,rfl⟩ := readRow_missing (hmoment.admitted hcalm) (acmeEffect_of_perform hmoment.performed)
    cases herr
  | existing h => cases h
  | text err' h => cases hpem.symm.trans h
  | insert acct err' hprofile hkey hid htext h =>
    obtain ⟨a,c,s',hmoment⟩ := exists_moment hreach (mem_log_of_noted h) not_mem_nil
    have hviolation := createAccount_violation (hmoment.admitted hcalm) (acmeEffect_of_perform hmoment.performed)
    have hidText : acct.accountID≠"" := by
      rw [hid]
      exact accountID_ne _
    have hids := profileIDs_reach hmoment.before
    refine ⟨a,c,acct,err',s',hmoment,hprofile,hkey,hid,?_⟩
    refine conflict_of_violation (s := ticked c a.state) hidText ?_ ?_ ?_ ?_ hviolation
    · cases hthumb.symm.trans hkey
      exact hthumbText
    · cases hpem.symm.trans htext
      exact hpemText
    · rw [hprofile]
      exact hopen.named
    · rw [hprofile]
      exact hids ▸ hopen.stored

end

theorem obtained_same (hstart : s.2.accounts=[]) {b b' : Config acmeServer ι (Option (Try (Account×Bool)))}
    {t' : ι} {acct' : Account} (hid : acct.accountID=acct'.accountID)
    (hb : ObtainedAt (noOutage calm) (initial (accountCalls svc calls) s) cfg b t acct)
    (hb' : ObtainedAt (noOutage calm) (initial (accountCalls svc calls) s) cfg b' t' acct') :
    acct.profileID=acct'.profileID ∧ ((acct.jwkThumbprint=acct'.jwkThumbprint ∧ acct.jwkPEM=acct'.jwkPEM) ∨
      RotatedBetween acct.accountID b.log b'.log ∨ RotatedBetween acct.accountID b'.log b.log) := by
  have hlog : registeredInLog acct.accountID b.log=some (registered acct) := by
    rw [← registeredAs_eq_log hstart hb.before,registeredAs,hb.stored]
    rfl
  have hlog' : registeredInLog acct.accountID b'.log=some (registered acct') := by
    rw [← registeredAs_eq_log hstart hb'.before,registeredAs,hid,hb'.stored]
    rfl
  have hkey : registered acct=registered acct' → acct.jwkThumbprint=acct'.jwkThumbprint ∧ acct.jwkPEM=acct'.jwkPEM := by
    intro hsame
    exact ⟨congrArg (fun x : String×String×String => x.2.1) hsame,congrArg (fun x : String×String×String => x.2.2) hsame⟩
  rcases suffix_or_suffix_of_suffix (log_suffix hb.after) (log_suffix hb'.after) with hearly|hlate
  · obtain ⟨hprofile,hkept⟩ := registered_between hearly hlog hlog'
    exact ⟨hprofile,hkept.imp hkey Or.inl⟩
  · obtain ⟨hprofile,hkept⟩ := registered_between hlate hlog' hlog
    exact ⟨hprofile.symm,hkept.imp (fun hsame => hkey hsame.symm) Or.inr⟩

/-- Registration returns the account of its profile and its key, in every run of calls on accounts from a store
without any. Every call can run to its return. A registration that returns an account returns one of its profile
whose stored key is its own. A calm one with nothing against it fails only if, when it inserts, another account
has the identifier made of its thumbprint, or its profile and thumbprint. Two registrations return one account
identifier only with one profile, and with one key unless the account was rolled over between them. -/
theorem newAccount_names_account (svc : AccountServer Key) (hkeys : ThumbprintsIdentify svc) (calls : ι→AccountCall Key)
    (s : AcmeState) (hstart : s.2.accounts=[]) (calm : ι→Bool)
    (cfg : Config acmeServer ι (Option (Try (Account×Bool))))
    (hreach : Reach (noOutage calm) (initial (accountCalls svc calls) s) cfg) :
    (∀ t,∃ cfg' out,Reach (noOutage calm) cfg cfg' ∧ cfg'.threads t=.ret out) ∧
    (∀ t profileID jwk contact only acct created,calls t=.newAccount profileID jwk contact only →
      cfg.threads t=.ret (some (.ok (acct,created))) →
        acct.profileID=resolvedID svc.toACMEService profileID ∧ jwkThumbprint svc jwk=.ok acct.jwkThumbprint ∧
          svc.jwkToPEM jwk=.ok acct.jwkPEM ∧
          ∃ b,ObtainedAt (noOutage calm) (initial (accountCalls svc calls) s) cfg b t acct) ∧
    (∀ t profileID jwk contact err,calls t=.newAccount profileID jwk contact false → calm t=true →
      Registrable svc s profileID jwk → cfg.threads t=.ret (some (.error err)) →
        ∃ a c acct err' s',Moment (noOutage calm) (initial (accountCalls svc calls) s) cfg a t
            (.inr (.acmeTx [.createAccount acct])) c (Except.error err') s' ∧
          acct.profileID=resolvedID svc.toACMEService profileID ∧ jwkThumbprint svc jwk=.ok acct.jwkThumbprint ∧
          acct.accountID=accountID acct.jwkThumbprint ∧
          ∃ row∈a.state.2.accounts,row.accountID=acct.accountID ∨ accountKey row=accountKey acct) ∧
    ∀ t profileID jwk contact only acct created b t' profileID' jwk' contact' only' acct' created' b',
      calls t=.newAccount profileID jwk contact only → cfg.threads t=.ret (some (.ok (acct,created))) →
      calls t'=.newAccount profileID' jwk' contact' only' → cfg.threads t'=.ret (some (.ok (acct',created'))) →
      acct.accountID=acct'.accountID →
      ObtainedAt (noOutage calm) (initial (accountCalls svc calls) s) cfg b t acct →
      ObtainedAt (noOutage calm) (initial (accountCalls svc calls) s) cfg b' t' acct' →
        resolvedID svc.toACMEService profileID=resolvedID svc.toACMEService profileID' ∧
          ((jwkThumbprint svc jwk=jwkThumbprint svc jwk' ∧ svc.jwkToPEM jwk=svc.jwkToPEM jwk') ∨
            RotatedBetween acct.accountID b.log b'.log ∨ RotatedBetween acct.accountID b'.log b.log) := by
  refine ⟨accountCall_returns hreach,?_,?_,?_⟩
  · intro t profileID jwk contact only acct created hcall hret
    exact account_of_returned hreach hkeys hstart hcall hret
  · intro t profileID jwk contact err hcall hcalm hopen hret
    exact conflict_of_refused hreach hcalm hopen hcall hret
  intro t profileID jwk contact only acct created b t' profileID' jwk' contact' only' acct' created' b'
    hcall hret hcall' hret' hid hb hb'
  obtain ⟨hprofile,hthumb,hpem,-⟩ := account_of_returned hreach hkeys hstart hcall hret
  obtain ⟨hprofile',hthumb',hpem',-⟩ := account_of_returned hreach hkeys hstart hcall' hret'
  obtain ⟨hsame,hkept⟩ := obtained_same hstart hid hb hb'
  refine ⟨hprofile.symm.trans (hsame.trans hprofile'),?_⟩
  refine hkept.imp_left ?_
  rintro ⟨hth,hpe⟩
  rw [hthumb,hthumb',hth,hpem,hpem',hpe]
  exact ⟨rfl,rfl⟩

def sampleServer : AccountServer Bool where
  toLower := id
  quote := id
  thumbprint := fun jwk => .ok [if jwk then 1 else 2]
  jwkToPEM := fun jwk => .ok (if jwk then "first key" else "second key")

def sampleAccount : Account :=
  {accountID := "acme-acc-AQ", jwkThumbprint := "AQ", jwkPEM := "first key", contact := [], status := .valid,
    profileID := "prof"}

def rolledAccount : Account := {sampleAccount with jwkThumbprint := "Ag",jwkPEM := "second key"}

/-- The first key is registered, rolled over to the second, and the second is registered. -/
def sampleCalls : Fin 3→AccountCall Bool
  | 0 => .newAccount "prof" true [] false
  | 1 => .rotateAccountKey (some sampleAccount) (some false)
  | 2 => .newAccount "prof" false [] false

def sampleStart : AcmeState := ({profiles := [{id := "prof"}]},{})

theorem sampleServer_identifies : ThumbprintsIdentify sampleServer := by
  intro jwk jwk' thumbprint h h'
  have hsame := h.trans h'.symm
  clear h h'
  revert jwk jwk'
  decide

/-- The first key is registered without an outage. -/
theorem newAccount_names_account_sample :
    ∃ cfg,Reach (noOutage fun _ => true) (initial (accountCalls sampleServer sampleCalls) sampleStart) cfg ∧
      cfg.threads 0=.ret (some (.ok (sampleAccount,true))) ∧ sampleServer.jwkToPEM true=.ok sampleAccount.jwkPEM := by
  refine reaches_view [(0,{}),(0,{}),(0,{})] (fun cfg => (cfg.threads 0).result?)
    (some (some (.ok (sampleAccount,true)))) (by rfl) fun cfg hreach hout => ?_
  have hret := eq_ret_of_result? hout
  have hnames := (newAccount_names_account sampleServer sampleServer_identifies sampleCalls sampleStart rfl (fun _ => true)
    cfg hreach).2.1 0 "prof" true [] false sampleAccount true rfl hret
  exact ⟨hret,hnames.2.2.1⟩

/-- After a rollover the new key gets the account that was registered with the old one: one identifier for two
registrations of the profile with a rollover of the account between them. -/
theorem newAccount_same_account_after_rollover :
    ∃ b cfg,ObtainedAt (noOutage fun _ => true) (initial (accountCalls sampleServer sampleCalls) sampleStart) cfg b 0
        sampleAccount ∧
      ObtainedAt (noOutage fun _ => true) (initial (accountCalls sampleServer sampleCalls) sampleStart) cfg cfg 2
        rolledAccount ∧
      cfg.threads 0=.ret (some (.ok (sampleAccount,true))) ∧ cfg.threads 2=.ret (some (.ok (rolledAccount,false))) ∧
      sampleAccount.accountID=rolledAccount.accountID ∧ RotatedBetween sampleAccount.accountID b.log cfg.log := by
  have hrun : ((initial (accountCalls sampleServer sampleCalls) sampleStart).runSchedule (noOutage fun _ => true)
      [(0,{}),(0,{}),(0,{})]).bind (fun b => (b.runSchedule (noOutage fun _ => true)
        [(1,{}),(1,{}),(2,{}),(2,{})]).map fun cfg =>
          ((b.log.length,(b.log.head?).map Event.thread,lookup Account.accountID "acme-acc-AQ" b.state.2.accounts),
            (cfg.log.length,(cfg.log.head?).map Event.thread,lookup Account.accountID "acme-acc-AQ" cfg.state.2.accounts),
            ((cfg.threads 0).result?,(cfg.threads 2).result?),
            (cfg.log.take 4).any fun e => (committedWrites e.op e.res).any (rotates "acme-acc-AQ")))=
        some ((3,some 0,some sampleAccount),(7,some 2,some rolledAccount),
          (some (some (.ok (sampleAccount,true))),some (some (.ok (rolledAccount,false)))),true) := by rfl
  obtain ⟨b,hb,hrest⟩ := bind_eq_some_iff.mp hrun
  obtain ⟨cfg,hafter,hview⟩ := reach_of_view hrest
  simp only [Prod.mk.injEq] at hview
  obtain ⟨⟨hlength,hhead,hstored⟩,⟨hlength',hhead',hstored'⟩,⟨hret,hret'⟩,hrotated⟩ := hview
  have hbefore := reach_of_runSchedule hb
  refine ⟨b,cfg,⟨hbefore,hafter,hhead,hstored⟩,⟨hbefore.trans hafter,Relation.ReflTransGen.refl,hhead',hstored'⟩,
    eq_ret_of_result? hret,eq_ret_of_result? hret',rfl,?_⟩
  obtain ⟨between,hlog⟩ := log_suffix hafter
  have hfour : between.length=4 := by
    have hsum := congrArg List.length hlog
    rw [length_append,hlength] at hsum
    omega
  rw [← hlog,List.take_left' hfour] at hrotated
  obtain ⟨e,he,hany⟩ := any_eq_true.mp hrotated
  obtain ⟨w,hw,hrot⟩ := any_eq_true.mp hany
  exact ⟨between,hlog.symm,e,he,w,hw,hrot⟩

end Runs

end Certctl.AcmeAccounts
