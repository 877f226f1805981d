import Certctl.AcmeChallenges

/-!
# Final states of orders, authorizations and challenges

Finalize calls, answers to challenges with their verdicts, and sweeps run
at the same time. Every update names its row by key only and writes a
status that follows from an earlier read, so a final status is safe only
while no update is overtaken: each transaction finds its order and its
challenge as the call saw them last, and the authorization of a verdict
still pending. Under this condition no row leaves a final status. An
authorization has no check of its own, so even a call alone takes one out
of its expired status.
-/

namespace Certctl.AcmeFinalStates

open AtomicProgram AtomicInterleaving ControlPlaneTables ControlPlaneStore DomainRecords RecordTable StoreExtension
  Option
open List hiding lookup
open AcmeServerStore AcmeOrders AcmeChallenges

variable {Key ι : Type}

def orderFinal : OrderStatus→Bool
  | .valid => true
  | .invalid => true
  | _ => false

def authzFinal : AuthzStatus→Bool
  | .valid => true
  | .invalid => true
  | .expired => true
  | _ => false

def challengeFinal : ChallengeStatus→Bool
  | .valid => true
  | .invalid => true
  | _ => false

/-- No row has left a final status between two states. -/
structure Absorbed (s s' : AcmeState) : Prop where
  orders : ∀ id status,orderFinal status=true → orderStatus id s.1=some status → orderStatus id s'.1=some status
  authzs : ∀ id status,authzFinal status=true → authzStatus id s=some status → authzStatus id s'=some status
  challenges : ∀ id status,challengeFinal status=true → challengeStatus id s=some status →
    challengeStatus id s'=some status

theorem absorbed_refl (s : AcmeState) : Absorbed s s := ⟨fun _ _ _ h => h,fun _ _ _ h => h,fun _ _ _ h => h⟩

theorem Absorbed.trans {s₁ s₂ s₃ : AcmeState} (h : Absorbed s₁ s₂) (h' : Absorbed s₂ s₃) : Absorbed s₁ s₃ where
  orders := fun id status hfinal hs => h'.orders id status hfinal (h.orders id status hfinal hs)
  authzs := fun id status hfinal hs => h'.authzs id status hfinal (h.authzs id status hfinal hs)
  challenges := fun id status hfinal hs => h'.challenges id status hfinal (h.challenges id status hfinal hs)

/-- The statuses of orders and challenges that a call has last read or written. -/
structure Seen where
  order : String→Option OrderStatus := fun _ => none
  challenge : String→Option ChallengeStatus := fun _ => none

def Seen.after (seen : Seen) (writes : List AcmeWrite) : Seen where
  order := fun id => lastSet (AcmeWrite.orderStatus? id) writes (seen.order id)
  challenge := fun id => lastSet (AcmeWrite.challengeStatus? id) writes (seen.challenge id)

def look (seen : Seen) : acmeServer.Obs Seen
  | .inl (.getOrderByID _),.ok order =>
    {seen with order := Function.update seen.order order.orderID (some order.status)}
  | .inl (.withinTx writes),.ok _ => seen.after (writes.map .row)
  | .inr (.getChallengeByID _),.ok ch =>
    {seen with challenge := Function.update seen.challenge ch.challengeID (some ch.status)}
  | .inr (.acmeTx writes),.ok _ => seen.after writes
  | _,_ => seen

def updatedOrder : AcmeWrite→Option Order
  | .row (.updateOrder order) => some order
  | _ => none

def updatedChallenge : AcmeWrite→Option Challenge
  | .updateChallenge ch => some ch
  | _ => none

def updatedAuthz : AcmeWrite→Option String
  | .updateAuthzStatus authzID _ => some authzID
  | _ => none

def inserts : AcmeWrite→Bool
  | .createOrder _ => true
  | .createAuthz _ => true
  | .createChallenge _ => true
  | _ => false

/-- The rows of a write are as the call saw them last, and the authorization of a verdict is pending. -/
def UpToDate (seen : Seen) (s : AcmeState) (w : AcmeWrite) : Prop :=
  (∀ order∈updatedOrder w,orderStatus order.orderID s.1=seen.order order.orderID) ∧
  (∀ ch∈updatedChallenge w,challengeStatus ch.challengeID s=seen.challenge ch.challengeID) ∧
  ∀ authzID∈updatedAuthz w,authzStatus authzID s=some .pending

instance (seen : Seen) (s : AcmeState) (w : AcmeWrite) : Decidable (UpToDate seen s w) :=
  inferInstanceAs (Decidable (_ ∧ _ ∧ _))

/-- A write of a call that saw its order and its challenge in a status that is not final. -/
structure OpenWrite (seen : Seen) (w : AcmeWrite) : Prop where
  order : ∀ order∈updatedOrder w,∃ status,seen.order order.orderID=some status ∧ orderFinal status=false
  challenge : ∀ ch∈updatedChallenge w,∃ status,seen.challenge ch.challengeID=some status ∧ challengeFinal status=false
  update : inserts w=false

def OpenWrites (seen : Seen) (op : acmeServer.Op) (_ : acmeServer.Res op) : Prop := ∀ w∈writesOf op,OpenWrite seen w

variable {status : ChallengeStatus} {op : acmeServer.Op} {r : acmeServer.Res op}

section Steps

variable {c : Choice} {seen : Seen} {s s' : AcmeState} {writes : List AcmeWrite} {w : AcmeWrite} {id : String}

theorem updatedOrder_of_orderStatus? {status : OrderStatus} (h : w.orderStatus? id=some status) :
    (∃ order∈updatedOrder w,order.orderID=id ∧ order.status=status) ∨ inserts w=true := by
  cases w with
  | row write =>
    cases write with
    | updateOrder order =>
      simp only [AcmeWrite.orderStatus?,Write.orderStatus?] at h
      split at h
      · exact .inl ⟨order,rfl,by assumption,Option.some.inj h⟩
      · cases h
    | _ => cases h
  | createOrder => exact .inr rfl
  | _ => cases h

theorem updatedAuthz_of_authzStatus? {status : AuthzStatus} (h : w.authzStatus? id=some status) :
    id∈updatedAuthz w ∨ inserts w=true := by
  cases w with
  | updateAuthzStatus =>
    simp only [AcmeWrite.authzStatus?] at h
    split at h
    · exact .inl (congrArg some (by assumption))
    · cases h
  | createAuthz => exact .inr rfl
  | _ => cases h

theorem updatedChallenge_of_challengeStatus?
    (h : w.challengeStatus? id=some status) : (∃ ch∈updatedChallenge w,ch.challengeID=id) ∨ inserts w=true := by
  cases w with
  | updateChallenge ch =>
    simp only [AcmeWrite.challengeStatus?] at h
    split at h
    · exact .inl ⟨ch,rfl,by assumption⟩
    · cases h
  | createChallenge => exact .inr rfl
  | _ => cases h

section

variable (hopen : OpenWrite seen w) (hnow : UpToDate seen s w)
include hopen hnow

theorem orderStatus?_none {status : OrderStatus}
    (hfinal : orderFinal status=true) (hs : orderStatus id s.1=some status) : w.orderStatus? id=none := by
  cases hset : w.orderStatus? id with
  | none => rfl
  | some =>
    rcases updatedOrder_of_orderStatus? hset with ⟨order,horder,rfl,-⟩|hinserts
    · obtain ⟨old,hseen,hold⟩ := hopen.order order horder
      have hsame := hnow.1 order horder
      rw [hs,hseen] at hsame
      cases hsame
      rw [hfinal] at hold
      cases hold
    · rw [hopen.update] at hinserts
      cases hinserts

theorem challengeStatus?_none (hfinal : challengeFinal status=true) (hs : challengeStatus id s=some status) :
    w.challengeStatus? id=none := by
  cases hset : w.challengeStatus? id with
  | none => rfl
  | some =>
    rcases updatedChallenge_of_challengeStatus? hset with ⟨ch,hch,rfl⟩|hinserts
    · obtain ⟨old,hseen,hold⟩ := hopen.challenge ch hch
      have hsame := hnow.2.1 ch hch
      rw [hs,hseen] at hsame
      cases hsame
      rw [hfinal] at hold
      cases hold
    · rw [hopen.update] at hinserts
      cases hinserts

theorem authzStatus?_none {status : AuthzStatus}
    (hfinal : authzFinal status=true) (hs : authzStatus id s=some status) : w.authzStatus? id=none := by
  cases hset : w.authzStatus? id with
  | none => rfl
  | some =>
    rcases updatedAuthz_of_authzStatus? hset with hmem|hinserts
    · have hsame := hnow.2.2 id hmem
      rw [hs] at hsame
      cases hsame
      cases hfinal
    · rw [hopen.update] at hinserts
      cases hinserts

end

theorem absorbed_applyAcmeWrites (hopen : ∀ w∈writes,OpenWrite seen w) (hnow : ∀ w∈writes,UpToDate seen s w)
    (h : applyAcmeWrites c s writes=.ok s') : Absorbed s s' where
  orders := by
    intro id status hfinal hs
    rw [applyAcmeWrites_lastSet (fun a b w => applyAcmeWrite_orderStatus id) h,
      lastSet_none fun w hw => orderStatus?_none (hopen w hw) (hnow w hw) hfinal hs]
    exact hs
  authzs := by
    intro id status hfinal hs
    rw [applyAcmeWrites_lastSet (fun a b w => applyAcmeWrite_authzStatus id) h,
      lastSet_none fun w hw => authzStatus?_none (hopen w hw) (hnow w hw) hfinal hs]
    exact hs
  challenges := by
    intro id status hfinal hs
    rw [applyAcmeWrites_lastSet (fun a b w => applyAcmeWrite_challengeStatus id) h,
      lastSet_none fun w hw => challengeStatus?_none (hopen w hw) (hnow w hw) hfinal hs]
    exact hs

variable {now : Time}

theorem sweptAuthz_final {row : Authorization} (h : authzFinal row.status=true) :
    (sweptAuthz now row).status=row.status := by
  unfold sweptAuthz lapsedAuthz
  split
  · rename_i hlapsed
    simp only [Bool.and_eq_true,decide_eq_true_eq] at hlapsed
    rw [hlapsed.1] at h
    cases h
  · rfl

theorem sweptOrder_final {row : Order} (h : orderFinal row.status=true) : (sweptOrder now row).status=row.status := by
  unfold sweptOrder lapsedOrder activeOrder
  split
  · rename_i hlapsed
    simp only [Bool.and_eq_true,Bool.or_eq_true,decide_eq_true_eq] at hlapsed
    rcases hlapsed.1 with (hstatus|hstatus)|hstatus <;>
      · rw [hstatus] at h
        cases h
  · rfl

theorem sweptAuthz_key (now : Time) (row : Authorization) : (sweptAuthz now row).authzID=row.authzID := by
  unfold sweptAuthz
  split <;> rfl

theorem sweptOrder_key (now : Time) (row : Order) : (sweptOrder now row).orderID=row.orderID := by
  unfold sweptOrder
  split <;> rfl

theorem column_map_keeps {ρ β : Type} {key : ρ→String} {f : ρ→ρ} {col : ρ→β} {rows : List ρ} {k : String} {v : β}
    (hkey : ∀ row,key (f row)=key row) (hcol : ∀ row,col row=v → col (f row)=v)
    (h : (lookup key k rows).map col=some v) : (lookup key k (rows.map f)).map col=some v := by
  obtain ⟨row,hrow,hv⟩ := map_eq_some_iff.mp h
  rw [column_map hkey,hrow,map_some,hcol row hv]

theorem absorbed_of_sameRows (hsame : SameRows s s') : Absorbed s s' := by
  refine ⟨fun id status _ hs => ?_,fun id status _ hs => ?_,fun id status _ hs => ?_⟩
  · rw [orderStatus,hsame.orders]
    exact hs
  · rw [authzStatus,hsame.authzs]
    exact hs
  · rw [challengeStatus,hsame.challenges]
    exact hs

theorem absorbed_step (hopen : OpenWrites seen op r)
    (hnow : c.fault=none → ∀ w∈writesOf op,UpToDate seen s w) (h : acmeServer.perform op c s=some (r,s')) :
    Absorbed s s' := by
  rcases acme_step h with ⟨hfault,-,hwrites⟩|⟨-,rfl⟩|⟨-,rfl⟩|⟨-,hsame,-⟩
  · have habsorbed := absorbed_applyAcmeWrites (s := ticked c s) hopen (hnow hfault) hwrites
    exact ⟨habsorbed.orders,habsorbed.authzs,habsorbed.challenges⟩
  · refine ⟨fun _ _ _ hs => hs,fun id status hfinal hs => ?_,fun _ _ _ hs => hs⟩
    refine column_map_keeps (sweptAuthz_key c.now) (fun row hrow => ?_) hs
    rw [sweptAuthz_final (hrow ▸ hfinal),hrow]
  · refine ⟨fun id status hfinal hs => ?_,fun _ _ _ hs => hs,fun _ _ _ hs => hs⟩
    refine column_map_keeps (sweptOrder_key c.now) (fun row hrow => ?_) hs
    rw [sweptOrder_final (hrow ▸ hfinal),hrow]
  · exact absorbed_of_sameRows hsame

end Steps

section Programs

/-- A program all of whose writes are on rows that it saw in a status that is not final. -/
abbrev Watched {α : Type} (Q : α→Seen→Prop) (p : Acme α) (seen : Seen) : Prop :=
  p.Tracked acmeServer.CanAnswer OpenWrites look Q seen

variable {α : Type} {Q : α→Seen→Prop} {seen : Seen} {svc : AcmeServer Key}

theorem watched_op {op : AcmeOp} {k : AcmeRes op→Acme α}
    (h : ∀ r,acmeServer.CanAnswer (.inr op) r → OpenWrites seen (.inr op) r ∧ Watched Q (k r) (look seen (.inr op) r)) :
    Watched Q ((acme op).bind k) seen := h

theorem watched_service {op : Op} {k : Res op→Acme α}
    (h : ∀ r,acmeServer.CanAnswer (.inl op) r → OpenWrites seen (.inl op) r ∧ Watched Q (k r) (look seen (.inl op) r)) :
    Watched Q ((service (request op)).bind k) seen := h

theorem openWrites_of_nil (h : writesOf op=[]) : OpenWrites seen op r := by
  intro w hw
  rw [h] at hw
  cases hw

variable {w : AcmeWrite}

theorem openWrite_other (horder : updatedOrder w=none) (hch : updatedChallenge w=none)
    (hupdate : inserts w=false) : OpenWrite seen w := by
  refine ⟨fun order ho => ?_,fun ch hc => ?_,hupdate⟩
  · rw [horder] at ho
    cases ho
  · rw [hch] at hc
    cases hc

variable {order : Order}

def SeesOpen (order : Order) (seen : Seen) : Prop :=
  ∃ status,seen.order order.orderID=some status ∧ orderFinal status=false

theorem openWrite_order (h : SeesOpen order seen) : OpenWrite seen (.row (.updateOrder order)) := by
  refine ⟨fun o ho => ?_,nofun,rfl⟩
  cases ho
  exact h

variable {ch : Challenge}

theorem openWrite_challenge (hseen : seen.challenge ch.challengeID=some status) (hopen : challengeFinal status=false) :
    OpenWrite seen (.updateChallenge ch) := by
  refine ⟨nofun,fun x hx => ?_,rfl⟩
  cases hx
  exact ⟨status,hseen,hopen⟩

/-- An order that has been set to processing is seen so. -/
theorem look_processing (seen : Seen) (order : Order) : (look seen
    (.inl (.withinTx [.updateOrder {order with status := .processing}])) (Except.ok ())).order order.orderID=
      some .processing := by
  have hset : (Write.updateOrder {order with status := .processing}).orderStatus? order.orderID=
      some .processing := if_pos rfl
  simp only [look,Seen.after,lastSet,map_cons,map_nil,foldl_cons,foldl_nil,AcmeWrite.orderStatus?,hset,some_or]

theorem finalizeRules_seen (svc : ACMEService) (accountID orderID profileID : String) (csr : CertificateRequest)
    (csrPEM : String) : FinalizeRules svc accountID orderID profileID csr csrPEM
      (fun op r => acmeServer.CanAnswer (.inl op) r) (fun seen op r => OpenWrites seen (.inl op) r)
      (fun seen op r => look seen (.inl op) r) (fun _ => True) SeesOpen (fun order _ => SeesOpen order)
      (fun order _ => SeesOpen order) where
  quiet := by
    intro seen op r hop
    cases op with
    | withinTx =>
      obtain ⟨cert,rfl⟩ := hop
      refine ⟨forall_mem_singleton.mpr (openWrite_other rfl rfl rfl),?_⟩
      cases r with
      | error | ok => rfl
    | getProfile | firstAvailableIssuer | randIDSuffix | validateCertificate => exact ⟨openWrites_of_nil rfl,rfl⟩
    | _ => exact hop.elim
  read := by
    intro seen r _ _
    refine ⟨openWrites_of_nil rfl,fun order hok _ hstatus => ⟨order.status,?_,?_⟩⟩
    · subst hok
      exact Function.update_self _ _ _
    · rcases hstatus with h|h <;> rw [h] <;> rfl
  reject := by
    intro seen order problem r hfound _
    exact forall_mem_singleton.mpr (openWrite_order hfound)
  mark := by
    intro seen order profile r hfound _ _
    refine ⟨forall_mem_singleton.mpr (openWrite_order hfound),?_⟩
    rintro rfl
    exact ⟨.processing,look_processing seen order,rfl⟩
  issue := by
    intro seen order profile issuerID r hmarked
    refine ⟨openWrites_of_nil rfl,?_⟩
    cases r with
    | error | ok => exact hmarked
  fail := by
    intro seen order profile problem r hissued
    exact forall_mem_singleton.mpr (openWrite_order hissued)
  complete := by
    intro seen order profile version certID r hissued
    exact forall_mem_cons.mpr ⟨openWrite_other rfl rfl rfl,forall_mem_singleton.mpr (openWrite_order hissued)⟩

theorem openWrite_cascade {authzID : String} {status : AuthzStatus} {authzs : List Authorization}
    (hseen : seen.order order.orderID=some order.status)
    (hw : w∈cascade authzID status authzs order) : OpenWrite seen w := by
  obtain ⟨written,rfl,hid,hpending,-⟩ := mem_cascade hw
  refine openWrite_order ⟨.pending,?_,rfl⟩
  rw [hid,hseen,hpending]

theorem watched_recordChallengeOutcome {authz : Authorization} {verr : Err}
    (hseen : seen.challenge ch.challengeID=some status) (hopen : challengeFinal status=false) :
    Watched (fun _ _ => True) (recordChallengeOutcome ch authz verr) seen := by
  refine watched_service fun now _ => ⟨openWrites_of_nil rfl,?_⟩
  refine watched_op fun r _ => ⟨openWrites_of_nil rfl,?_⟩
  cases r with
  | error => trivial
  | ok =>
    refine watched_service fun r _ => ⟨openWrites_of_nil rfl,?_⟩
    cases r with
    | error => trivial
    | ok =>
      refine watched_op fun r _ => ⟨fun w hw => ?_,trivial⟩
      have hid : (judged ch now verr).challengeID=ch.challengeID := by
        cases verr with
        | none | some => rfl
      rcases mem_cons.mp hw with rfl|hw
      · rw [← hid] at hseen
        exact openWrite_challenge hseen hopen
      rcases mem_cons.mp hw with rfl|hw
      · exact openWrite_other rfl rfl rfl
      · exact openWrite_cascade (Function.update_self _ _ _) hw

theorem watched_overLimit {limit : ℤ} {action : RateAction} {key : String} {Q : Bool→Seen→Prop}
    (hall : ∀ b,Q b seen) : Watched Q (overLimit svc limit action key) seen := by
  unfold overLimit
  split
  · exact watched_op fun r _ => ⟨openWrites_of_nil rfl,hall _⟩
  · exact hall _

variable {accountID : String} {accountJWK : Key}

theorem watched_submitChallenge (hseen : seen.challenge ch.challengeID=some .pending) :
    Watched (fun r seen' => ∀ res sub,r=.ok (res,some sub) → seen'.challenge sub.ch.challengeID=some .processing)
      (submitChallenge svc accountID ch accountJWK) seen := by
  refine watched_op fun r _ => ⟨openWrites_of_nil rfl,?_⟩
  cases r with
  | error => exact fun _ _ h => nomatch h
  | ok =>
    refine watched_service fun r _ => ⟨openWrites_of_nil rfl,?_⟩
    cases r with
    | error => exact fun _ _ h => nomatch h
    | ok =>
      dsimp only
      split
      · exact fun _ _ h => nomatch h
      split
      · exact fun _ _ h => nomatch h
      refine watched_op fun r _ => ⟨forall_mem_singleton.mpr (openWrite_challenge hseen rfl),?_⟩
      cases r with
      | error => exact fun _ _ h => nomatch h
      | ok =>
        intro res sub h
        cases h
        have hset : (AcmeWrite.updateChallenge {ch with status := .processing}).challengeStatus? ch.challengeID=
            some .processing := if_pos rfl
        simp only [look,Seen.after,lastSet,foldl_cons,foldl_nil,hset,some_or]

theorem watched_answerChallenge {challengeID : String} :
    Watched (fun _ _ => True) (answerChallenge svc accountID challengeID accountJWK) seen := by
  refine Prog.tracked_bind.mpr ?_
  have hrest : Watched (fun r seen' => ∀ res sub,r=.ok (res,some sub) →
      seen'.challenge sub.ch.challengeID=some .processing)
        (respondToChallenge svc accountID challengeID accountJWK) seen := by
    unfold respondToChallenge
    split
    · exact fun _ _ h => nomatch h
    split
    · exact fun _ _ h => nomatch h
    refine Prog.tracked_bind.mpr (watched_overLimit fun limited => ?_)
    split
    · exact fun _ _ h => nomatch h
    refine watched_op fun r _ => ⟨openWrites_of_nil rfl,?_⟩
    cases r with
    | error =>
      dsimp only
      split <;> exact fun _ _ h => nomatch h
    | ok ch =>
      dsimp only
      split
      · exact fun _ _ h => nomatch h
      split
      · exact fun _ _ h => nomatch h
      rename_i hfinal hprocessing
      have hpending : ch.status=.pending := by
        cases hstatus : ch.status with
        | pending => rfl
        | processing => exact absurd hstatus hprocessing
        | valid => exact absurd (.inl hstatus) hfinal
        | invalid => exact absurd (.inr hstatus) hfinal
      refine watched_submitChallenge ?_
      rw [← hpending]
      exact Function.update_self _ _ _
  refine hrest.mono fun r seen' hsub => ?_
  match r,hsub with
  | .error err,_ => trivial
  | .ok (_,none),_ => trivial
  | .ok (res,some sub),hsub =>
    refine watched_op fun verr _ => ⟨openWrites_of_nil rfl,?_⟩
    exact watched_recordChallengeOutcome (hsub res sub rfl) rfl

theorem watched_garbageCollect : Watched (fun _ _ => True) garbageCollect seen := by
  refine watched_op fun r _ => ⟨openWrites_of_nil rfl,?_⟩
  refine watched_op fun r _ => ⟨openWrites_of_nil rfl,?_⟩
  exact watched_op fun r _ => ⟨openWrites_of_nil rfl,trivial⟩

end Programs

/-- A finalize request, an answer to a challenge, or a sweep. -/
inductive AcmeCall (Key : Type) where
  | finalize (accountID orderID profileID : String) (csr : CertificateRequest) (csrPEM : String)
  /-- Answer a challenge and later record the verdict on it. -/
  | respond (accountID challengeID : String) (accountJWK : Key)
  | sweep

def AcmeCall.program (svc : AcmeServer Key) : AcmeCall Key→Acme Unit
  | .finalize accountID orderID profileID csr csrPEM => do
    let _ ← service (finalizeOrder svc.toACMEService accountID orderID profileID csr csrPEM)
    pure ()
  | .respond accountID challengeID accountJWK => answerChallenge svc accountID challengeID accountJWK
  | .sweep => do
    let _ ← garbageCollect
    pure ()

theorem watched_program (svc : AcmeServer Key) (call : AcmeCall Key) :
    Watched (fun _ _ => True) (call.program svc) {} := by
  cases call with
  | finalize accountID orderID profileID csr csrPEM =>
    refine Prog.tracked_bind.mpr (tracked_lift ?_)
    exact tracked_finalize (finalizeRules_seen _ accountID orderID profileID csr csrPEM) trivial
  | respond => exact watched_answerChallenge
  | sweep => exact Prog.tracked_bind.mpr watched_garbageCollect

section Runs

variable [DecidableEq ι]

def acmeCalls (svc : AcmeServer Key) (calls : ι→AcmeCall Key) : ι→Acme Unit := fun t => (calls t).program svc

/-- No committed write is overtaken: its rows are as the call saw them last, and the
authorization of a verdict is still pending. -/
def notOvertaken : StepCondition acmeServer ι Unit := fun cfg t op c =>
  c.fault=none → ∀ w∈writesOf op,UpToDate (ghost look {} t cfg.log) cfg.state w

instance (cfg : Config acmeServer ι Unit) (t : ι) (op : acmeServer.Op) (c : acmeServer.Choice) :
    Decidable (notOvertaken cfg t op c) :=
  inferInstanceAs (Decidable (c.fault=none → ∀ w∈writesOf op,UpToDate (ghost look {} t cfg.log) cfg.state w))

/-- In every run without overtaken writes, no order leaves valid or invalid, no authorization
leaves valid, invalid or expired, and no challenge leaves valid or invalid. -/
theorem finalStates_absorbing (svc : AcmeServer Key) (calls : ι→AcmeCall Key) (s : AcmeState)
    (mid last : Config acmeServer ι Unit)
    (hmid : Reach notOvertaken (initial (acmeCalls svc calls) s) mid) (hlast : Reach notOvertaken mid last) :
    Absorbed mid.state last.state := by
  have hpool : ∀ t,Watched (fun _ _ => True) (acmeCalls svc calls t) {} := fun t => watched_program svc (calls t)
  have htracked : AllTracked acmeServer.CanAnswer OpenWrites look (fun _ _ => True) (fun _ => {}) mid :=
    (reach_tracked (I := fun _ => True) (admitted_canAnswer _ _) hmid hpool trivial
      fun _ _ _ _ _ _ _ _ _ _ _ _ _ => trivial).2
  refine (reach_tracked (I := fun b : Config acmeServer ι Unit => Absorbed mid.state b.state)
    (admitted_canAnswer _ _) hlast htracked (absorbed_refl _) ?_).1
  intro a t op c r s' ha _ hok hperform hpre k _
  exact ha.trans (absorbed_step hpre hok hperform)

def sampleServer : AcmeServer Unit := {toLower := id, quote := id, thumbprint := fun _ => .ok []}

/-- An order with one authorization and one challenge, and what its certificate refers to. -/
def sampleState (status : OrderStatus) : AcmeState :=
  ({orders := [⟨"ord","acc",[⟨"dns","a"⟩],status,none,"","",300⟩], profiles := [{id := "p"}], issuers := ["iss"],
    issuerRows := ["iss"], owners := [⟨"","",""⟩], teams := [""], renewalPolicies := [""]},
    {authzs := [⟨"authz","ord",⟨"dns","a"⟩,.pending,100,false,0⟩],
      challenges := [⟨"ch","authz",.http01,.pending,"tok",none,none,0⟩]})

def sampleFinalize : AcmeCall Unit := .finalize "acc" "ord" "p" ⟨"a",[]⟩ "csr"

def sampleRespond : AcmeCall Unit := .respond "acc" "ch" ()

/-- The challenge is answered, then the order is finalized and swept; the challenge stays valid. -/
theorem finalStates_absorbing_sample :
    ∃ mid last,Reach notOvertaken (initial (acmeCalls sampleServer (fun t : Bool => if t then sampleRespond
        else sampleFinalize)) (sampleState .pending)) mid ∧ Reach notOvertaken mid last ∧
      challengeStatus "ch" mid.state=some .valid ∧ orderStatus "ord" last.state.1=some .valid ∧
      Absorbed mid.state last.state := by
  refine reaches_views (List.replicate 9 (true,noFault)) (List.replicate 10 (false,noFault)) (fun mid last =>
    (challengeStatus "ch" mid.state,orderStatus "ord" last.state.1)) (some .valid,some .valid) (by decide)
    fun mid last hfirst hsecond hout => ?_
  exact ⟨congrArg Prod.fst hout,congrArg Prod.snd hout,finalStates_absorbing sampleServer _ _ mid last hfirst hsecond⟩

/-- An authorization that a sweep has expired becomes valid when its challenge is answered after it.
A challenge that is valid goes back to processing when a second answer read it before. An order
that a sweep has failed goes back to processing when a finalize call read it before. -/
theorem finalStates_left :
    (∃ mid last,Reach anyStep (initial (acmeCalls sampleServer (fun t : Bool => if t then sampleRespond else .sweep))
        (sampleState .pending)) mid ∧ Reach anyStep mid last ∧
      authzStatus "authz" mid.state=some .expired ∧ authzStatus "authz" last.state=some .valid) ∧
    (∃ mid last,Reach anyStep (initial (acmeCalls sampleServer (fun _ : Bool => sampleRespond))
        (sampleState .pending)) mid ∧ Reach anyStep mid last ∧
      challengeStatus "ch" mid.state=some .valid ∧ challengeStatus "ch" last.state=some .processing) ∧
    ∃ mid last,Reach anyStep (initial (acmeCalls sampleServer (fun t : Bool => if t then sampleFinalize else .sweep))
        (sampleState .ready)) mid ∧ Reach anyStep mid last ∧
      orderStatus "ord" mid.state.1=some .invalid ∧ orderStatus "ord" last.state.1=some .processing := by
  refine ⟨?_,?_,?_⟩
  · exact reaches_views (List.replicate 3 (false,{noFault with now := 200}))
      (List.replicate 9 (true,{noFault with now := 200}))
      (fun mid last => (authzStatus "authz" mid.state,authzStatus "authz" last.state)) (some .expired,some .valid)
      (by decide) fun _ _ _ _ hview => Prod.mk.inj hview
  · exact reaches_views (List.replicate 3 (false,noFault)++List.replicate 9 (true,noFault)) [(false,noFault)]
      (fun mid last => (challengeStatus "ch" mid.state,challengeStatus "ch" last.state)) (some .valid,some .processing)
      (by decide) fun _ _ _ _ hview => Prod.mk.inj hview
  · exact reaches_views (List.replicate 3 (true,noFault)++List.replicate 3 (false,{noFault with now := 400}))
      [(true,{noFault with now := 400})]
      (fun mid last => (orderStatus "ord" mid.state.1,orderStatus "ord" last.state.1)) (some .invalid,some .processing)
      (by decide) fun _ _ _ _ hview => Prod.mk.inj hview

end Runs

end Certctl.AcmeFinalStates
