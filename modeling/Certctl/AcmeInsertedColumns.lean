import Certctl.AcmeServerStore

/-!
# Columns that only an insert sets

The owner and the expiry of an order and the profile of an account are set
when the row is inserted and never change. A run keeps such a column from
the insert on, and every value of it stands in a transaction that the run
has committed.
-/

namespace Certctl.AcmeInsertedColumns

open AtomicInterleaving ControlPlaneTables DomainRecords RecordTable Option
open AcmeServerStore

variable {ι α κ : Type} [DecidableEq ι]

/-- A column that only an insert sets. -/
structure SetOnce (view : AcmeState→Option κ) (sets : AcmeWrite→Option κ) : Prop where
  /-- A write sets the column where it is not set yet. -/
  write : ∀ c s w,view (acmeWritten c s w)=(view s).or (sets w)
  /-- A write that sets the column goes through only where it is not set yet. -/
  fresh : ∀ c s w x,acmeViolation c s w=none → sets w=some x → view s=none
  /-- The column is read off the rows. -/
  rows : ∀ s s',SameRows s s' → view s'=view s
  sweptAuthzs : ∀ now (s : AcmeState),view (s.1,{s.2 with authzs := s.2.authzs.map (sweptAuthz now)})=view s
  sweptOrders : ∀ now (s : AcmeState),view ({s.1 with orders := s.1.orders.map (sweptOrder now)},s.2)=view s

variable {view : AcmeState→Option κ} {sets : AcmeWrite→Option κ} {c : Choice} {writes : List AcmeWrite}
  {s s' : AcmeState}

theorem SetOnce.applyAcmeWrites (h : SetOnce view sets)
    (hwrites : applyAcmeWrites c s writes=.ok s') : view s'=(view s).or (writes.findSome? sets) := by
  induction writes generalizing s with
  | nil =>
    cases hwrites
    rw [List.findSome?_nil,or_none]
  | cons w rest ih =>
    rw [ih (applyAcmeWrites_cons hwrites).2,h.write,List.findSome?_cons,Option.or_assoc]
    cases sets w <;> rfl

variable {w : AcmeWrite} {x : κ}

theorem SetOnce.written (h : SetOnce view sets)
    (hwrites : AcmeServerStore.applyAcmeWrites c s writes=.ok s') (hw : w∈writes)
    (hx : sets w=some x) : view s'=some x := by
  induction writes generalizing s with
  | nil => cases hw
  | cons first rest ih =>
    obtain ⟨hfree,hrest⟩ := applyAcmeWrites_cons hwrites
    rcases List.mem_cons.mp hw with rfl|hmem
    · rw [h.applyAcmeWrites hrest,h.write,h.fresh c s w x hfree hx,hx,none_or,some_or]
    · exact ih hrest hmem

variable {op : acmeServer.Op} {r : acmeServer.Res op}

theorem SetOnce.step (h : SetOnce view sets) (hstep : acmeServer.perform op c s=some (r,s')) :
    view s'=(view s).or ((committedWrites op r).findSome? sets) := by
  have htick : view (ticked c s)=view s := h.rows s (ticked c s) ⟨rfl,rfl,rfl,rfl⟩
  rcases acme_step hstep with ⟨-,hcommitted,hwrites⟩|⟨rfl,hs⟩|⟨rfl,hs⟩|⟨hnone,hsame,-⟩
  · rw [hcommitted,h.applyAcmeWrites hwrites,htick]
  · rw [hs,← htick]
    exact (h.sweptAuthzs c.now (ticked c s)).trans (or_none).symm
  · rw [hs,← htick]
    exact (h.sweptOrders c.now (ticked c s)).trans (or_none).symm
  · rw [hnone,h.rows s s' hsame,List.findSome?_nil,or_none]

theorem SetOnce.committed (h : SetOnce view sets) (hstep : acmeServer.perform op c s=some (r,s'))
    (hw : w∈committedWrites op r) (hx : sets w=some x) : view s'=some x := by
  rcases acme_step hstep with ⟨-,hcommitted,hwrites⟩|⟨rfl,-⟩|⟨rfl,-⟩|⟨hnone,-⟩
  · rw [hcommitted] at hw
    exact h.written hwrites hw hx
  · cases hw
  · cases hw
  · rw [hnone] at hw
    cases hw

variable {ok : StepCondition acmeServer ι α}

theorem SetOnce.persists (h : SetOnce view sets) {a b : Config acmeServer ι α} (ha : view a.state=some x)
    (hreach : Reach ok a b) : view b.state=some x := by
  refine reach_invariant (I := fun cfg : Config acmeServer ι α => view cfg.state=some x) ha ?_ hreach
  rintro cfg _ hcfg ⟨-,-,hperform⟩
  have hstep := h.step hperform
  rw [hcfg] at hstep
  exact hstep

variable {pool : ι→Acme α} {cfg : Config acmeServer ι α}

/-- In a run that starts without the column, every value of it was committed. -/
theorem SetOnce.origin (h : SetOnce view sets) (hs : view s=none)
    (hreach : Reach ok (initial pool s) cfg) (hx : view cfg.state=some x) :
    ∃ e∈cfg.log,∃ w∈committedWrites e.op e.res,sets w=some x := by
  induction hreach with
  | refl =>
    rw [show view (initial pool s).state=none from hs] at hx
    cases hx
  | @tail a b _ hlast ih =>
    obtain ⟨-,-,hperform⟩ := hlast
    rename_i t op k c r s'
    have hstep : view s'=(view a.state).or ((committedWrites op r).findSome? sets) := h.step hperform
    rw [show view s'=some x from hx] at hstep
    cases hbefore : view a.state with
    | some =>
      rw [hbefore] at hstep
      obtain ⟨e,he,hw⟩ := ih (hbefore.trans hstep.symm)
      exact ⟨e,List.mem_cons_of_mem _ he,hw⟩
    | none =>
      rw [hbefore] at hstep
      obtain ⟨w,hw,hset⟩ := List.exists_of_findSome?_eq_some hstep.symm
      exact ⟨⟨t,op,r⟩,List.mem_cons_self,w,hw,hset⟩

theorem SetOnce.settled (h : SetOnce view sets)
    (hreach : Reach ok (initial pool s) cfg) {e : Event acmeServer ι} (he : e∈cfg.log)
    (hw : w∈committedWrites e.op e.res) (hx : sets w=some x) : view cfg.state=some x := by
  obtain ⟨a,c,s',hmoment⟩ := exists_moment hreach he List.not_mem_nil
  obtain ⟨k,hthread,hafter⟩ := hmoment.after
  have hnow : view (a.advance e.thread e.op e.res (k e.res) s').state=some x := h.committed hmoment.performed hw hx
  exact h.persists hnow hafter

section Columns

def orderColumn (col : Order→κ) (orderID : String) (s : AcmeState) : Option κ :=
  (lookup Order.orderID orderID s.1.orders).map col

def orderInsert (col : Order→κ) (orderID : String) : AcmeWrite→Option κ
  | .createOrder order => if order.orderID=orderID then some (col order) else none
  | _ => none

def accountProfile (accountID : String) (s : AcmeState) : Option String :=
  (lookup Account.accountID accountID s.2.accounts).map Account.profileID

def accountInsert (accountID : String) : AcmeWrite→Option String
  | .createAccount acct => if acct.accountID=accountID then some acct.profileID else none
  | _ => none

variable {ρ σ : Type} {key : ρ→String} {col : ρ→σ}

theorem column_appended (k : String) (rows : List ρ) (row : ρ) : (lookup key k (rows++[row])).map col=
      ((lookup key k rows).map col).or (if key row=k then some (col row) else none) := by
  rw [lookup_append]
  cases lookup key k rows with
  | some => rfl
  | none =>
    by_cases hk : key row=k
    · simp only [if_pos hk,none_or,map_some,map_none]
    · simp only [if_neg hk,none_or,map_none]

theorem column_kept {k : String} {rows : List ρ} {x : σ} (row : ρ) (h : (lookup key k rows).map col=some x) :
    (lookup key k (rows++[row])).map col=some x := by
  rw [column_appended,h,some_or]

theorem column_free {k : String} {rows : List ρ} (h : ∀ row∈rows,key row≠k) : (lookup key k rows).map col=none := by
  rw [lookup_eq_none.mpr h,map_none]

theorem orderColumn_setOnce {col : Order→κ} (hupdate : ∀ order row,col (overwriteOrder order row)=col row)
    (hswept : ∀ now row,col (sweptOrder now row)=col row) (orderID : String) :
    SetOnce (orderColumn col orderID) (orderInsert col orderID) where
  write := by
    intro c s w
    cases w with
    | createOrder order => exact column_appended orderID s.1.orders order
    | row write =>
      refine Eq.trans ?_ (or_none).symm
      cases write with
      | updateOrder order => exact column_modify_same (fun _ => rfl) (hupdate order)
      | createRevocation =>
        simp only [acmeWritten,written]
        split <;> rfl
      | _ => rfl
    | _ => exact (or_none).symm
  fresh := by
    intro c s w x hfree hx
    cases w with
    | createOrder =>
      simp only [orderInsert] at hx
      split at hx
      · rename_i hid
        subst hid
        exact column_free (free_of_insert hfree).1
      · cases hx
    | _ => cases hx
  rows := by
    intro s s' hsame
    rw [orderColumn,orderColumn,hsame.orders]
  sweptAuthzs := fun _ _ => rfl
  sweptOrders := by
    intro now s
    have hid : ∀ row,(sweptOrder now row).orderID=row.orderID := by
      intro row
      unfold sweptOrder
      split <;> rfl
    rw [orderColumn,column_map hid]
    exact congrArg (fun f => (lookup Order.orderID orderID s.1.orders).map f) (funext (hswept now))

theorem accountProfile_setOnce (accountID : String) : SetOnce (accountProfile accountID) (accountInsert accountID) where
  write := by
    intro c s w
    cases w with
    | createAccount acct => exact column_appended accountID s.2.accounts acct
    | updateAccountContact | updateAccountStatus | updateAccountJWK =>
      refine Eq.trans ?_ (or_none).symm
      exact column_modify_same (fun _ => rfl) fun _ => rfl
    | _ => exact (or_none).symm
  fresh := by
    intro c s w x hfree hx
    cases w with
    | createAccount =>
      simp only [accountInsert] at hx
      split at hx
      · rename_i hid
        subst hid
        simp only [acmeViolation] at hfree
        split at hfree
        · cases hfree
        split at hfree
        · cases hfree
        rename_i hnot
        refine column_free fun row hrow hid => hnot (List.any_eq_true.mpr ⟨row,hrow,?_⟩)
        exact Bool.or_eq_true_iff.mpr (Or.inl (decide_eq_true hid))
      · cases hx
    | _ => cases hx
  rows := by
    intro s s' hsame
    rw [accountProfile,accountProfile,hsame.accounts]
  sweptAuthzs := fun _ _ => rfl
  sweptOrders := fun _ _ => rfl

def orderTerms (order : Order) : String×List Identifier×Time := (order.accountID,order.identifiers,order.expiresAt)

/-- Whatever runs on the server, an order is on record with an owner, identifiers and an expiry exactly if some call has
committed it with these. -/
theorem orderTerms_iff_committed {orderID : String} (hs : lookup Order.orderID orderID s.1.orders=none)
    (hreach : Reach ok (initial pool s) cfg) (terms : String×List Identifier×Time) :
    orderColumn orderTerms orderID cfg.state=some terms ↔
      ∃ e∈cfg.log,∃ w∈committedWrites e.op e.res,orderInsert orderTerms orderID w=some terms := by
  have hset : SetOnce (orderColumn orderTerms orderID) (orderInsert orderTerms orderID) := by
    refine orderColumn_setOnce (fun _ _ => rfl) (fun now row => ?_) orderID
    unfold sweptOrder
    split <;> rfl
  constructor
  · exact hset.origin (by rw [orderColumn,hs,map_none]) hreach
  · rintro ⟨e,he,w,hw,hterms⟩
    exact hset.settled hreach he hw hterms

def sampleOrder : Order := {orderID := "o", accountID := "acc", identifiers := [], status := .pending, expiresAt := 9}

/-- An order is inserted, written over with another owner and a later expiry, and then swept. -/
def sampleCalls : Acme (Try ℕ) := do
  let _ ← acme (.acmeTx [.createOrder sampleOrder])
  let _ ← acme (.acmeTx [.row (.updateOrder {sampleOrder with accountID := "other", status := .ready, expiresAt := 99})])
  acme .gcInvalidateExpiredOrders

/-- The sweep goes by the expiry that the order was inserted with. -/
theorem orderTerms_iff_committed_sample : ∃ cfg : Config acmeServer Unit (Try ℕ),
    Reach anyStep (initial (fun _ => sampleCalls) ({},{accounts := [⟨"acc","th","pem",[],.valid,"p"⟩]})) cfg ∧
      cfg.state.1.orders.map Order.status=[.invalid] ∧
      ∃ e∈cfg.log,∃ w∈committedWrites e.op e.res,orderInsert orderTerms "o" w=some ("acc",[],9) := by
  refine reaches_view [((),{}),((),{}),((),{now := 10})]
    (fun cfg => (cfg.state.1.orders.map Order.status,orderColumn orderTerms "o" cfg.state))
    ([.invalid],some ("acc",[],9)) (by rfl) fun cfg hreach hview => ?_
  obtain ⟨hstatus,hterms⟩ := Prod.mk.inj hview
  exact ⟨hstatus,(orderTerms_iff_committed rfl hreach _).mp hterms⟩

end Columns

end Certctl.AcmeInsertedColumns
