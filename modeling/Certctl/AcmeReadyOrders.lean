import Certctl.AcmeChallenges

/-!
# Making an order ready when its last authorization becomes valid

Callbacks of one order record their verdicts at the same time. Each reads
the authorizations and the order as they are committed, counts its own
verdict in, and commits its writes later. While a callback commits on what
is still stored, an order whose authorizations are all valid is never left
pending. Two callbacks that read before either commits both find the other
authorization pending, and neither makes the order ready.
-/

namespace Certctl.AcmeReadyOrders

open AtomicInterleaving ControlPlaneTables ControlPlaneStore DomainRecords RecordTable
open List hiding modify
open AcmeServerStore AcmeChallenges

variable {ι : Type}

/-- A validator callback: the challenge and the authorization it was handed, and the verdict. -/
structure Callback where
  ch : Challenge
  authz : Authorization
  /-- The validator's error, if it refused. -/
  verr : Err

def Callback.program (call : Callback) : Acme Unit := recordChallengeOutcome call.ch call.authz call.verr

def AllValid (orderID : String) (s : AcmeState) : Prop := ∀ a∈s.2.authzs,a.orderID=orderID → a.status=.valid

def NotLeftPending (orderID : String) (s : AcmeState) : Prop :=
  AllValid orderID s → orderStatus orderID s.1≠some .pending

def statusesOf (orderID : String) (s : AcmeState) : List (String×AuthzStatus) :=
  (s.2.authzs.filter (·.orderID=orderID)).map fun a => (a.authzID,a.status)

/-- What a callback has read so far. -/
structure Reading where
  call : Callback
  authzs : Option (List Authorization) := none
  order : Option Order := none

def learn (g : Reading) : acmeServer.Obs Reading
  | .inr (.listAuthzsByOrder _),.ok authzs => {g with authzs := some authzs}
  | .inl (.getOrderByID _),.ok order => {g with order := some order}
  | _,_ => g

theorem learn_call (g : Reading) (op : acmeServer.Op) (r : acmeServer.Res op) : (learn g op r).call=g.call := by
  unfold learn
  split <;> rfl

def Commits (orderID : String) (g : Reading) : acmeServer.Obs Prop
  | .inl .timeNow,_ => True
  | .inl (.getOrderByID _),_ => True
  | .inr (.listAuthzsByOrder _),_ => True
  | .inr (.acmeTx writes),_ => ∃ authzs order ch,g.authzs=some authzs ∧ g.order=some order ∧ order.orderID=orderID ∧
      writes=.updateChallenge ch::.updateAuthzStatus g.call.ch.authzID (verdictStatus g.call.verr)::
        cascade g.call.ch.authzID (verdictStatus g.call.verr) authzs order
  | _,_ => False

theorem writes_of_commits {orderID : String} {g : Reading} {op : acmeServer.Op} {r : acmeServer.Res op}
    (h : Commits orderID g op r) (hwrites : writesOf op≠[]) :
    ∃ authzs order ch,g.authzs=some authzs ∧ g.order=some order ∧ order.orderID=orderID ∧
      writesOf op=.updateChallenge ch::.updateAuthzStatus g.call.ch.authzID (verdictStatus g.call.verr)::
        cascade g.call.ch.authzID (verdictStatus g.call.verr) authzs order := by
  cases op with
  | inl op =>
    cases op with
    | timeNow | getOrderByID => exact absurd rfl hwrites
    | _ => exact h.elim
  | inr op =>
    cases op with
    | acmeTx => exact h
    | listAuthzsByOrder => exact absurd rfl hwrites
    | _ => exact h.elim

theorem tracked_callback {orderID : String} {call : Callback} (horder : call.authz.orderID=orderID) :
    call.program.Tracked acmeServer.CanAnswer (Commits orderID) learn (fun _ _ => True) {call := call} := by
  intro now _
  refine ⟨trivial,?_⟩
  intro r _
  refine ⟨trivial,?_⟩
  cases r with
  | error => trivial
  | ok authzs =>
    intro r hr
    refine ⟨trivial,?_⟩
    cases r with
    | error => trivial
    | ok order =>
      obtain ⟨c,s,s',hanswer⟩ := hr
      have hrow := (readRow_ok (effect_of_acme hanswer).1).1
      have hid := (lookup_some hrow).2
      intro r _
      exact ⟨⟨authzs,order,_,rfl,rfl,hid.trans horder,rfl⟩,trivial⟩

section Commit

variable {c : Choice} {s s' : AcmeState} {orderID authzID : String} {status : AuthzStatus} {authzs : List Authorization}
  {order : Order} {ch : Challenge}

theorem cascade_allValid (hsome : authzs≠[]) (hall : ∀ a∈authzs,statusWith authzID status a=.valid) :
    cascade authzID status authzs order=
      if order.status=.pending then [.row (.updateOrder {order with status := .ready})] else [] := by
  have hvalid : (!authzs.isEmpty && authzs.all fun a => statusWith authzID status a=.valid)=true := by
    simp only [Bool.and_eq_true,Bool.not_eq_true',isEmpty_eq_false_iff,all_eq_true,decide_eq_true_eq]
    exact ⟨hsome,hall⟩
  unfold cascade
  simp only [hvalid,Bool.true_and]
  by_cases hpending : order.status=.pending
  · simp only [hpending,decide_true,if_true]
  · simp only [hpending,decide_false,Bool.and_false,Bool.false_eq_true,if_false]

theorem authzs_cascade (h : applyAcmeWrites c s (cascade authzID status authzs order)=.ok s') :
    s'.2.authzs=s.2.authzs := by
  refine applyAcmeWrites_keeps (P := fun a => a.2.authzs=s.2.authzs) ?_ rfl h
  intro w hw a b ha hone
  obtain ⟨written,rfl,-⟩ := mem_cascade hw
  obtain ⟨-,rfl⟩ := applyAcmeWrite_ok hone
  exact ha

variable (h : applyAcmeWrites c s (.updateChallenge ch::.updateAuthzStatus authzID status::
  cascade authzID status authzs order)=.ok s')
include h

theorem authzs_commit : (∃ own∈s.2.authzs,own.authzID=authzID) ∧ s'.2.authzs=
      modify Authorization.authzID authzID (fun row => {row with status := status}) s.2.authzs := by
  obtain ⟨-,hrest⟩ := applyAcmeWrites_cons h
  obtain ⟨hfree,hlast⟩ := applyAcmeWrites_cons hrest
  obtain ⟨own,hown⟩ := Option.isSome_iff_exists.mp (found_of_unlessFound hfree)
  exact ⟨⟨own,lookup_some hown⟩,authzs_cascade hlast⟩

theorem orderStatus_commit (hid : order.orderID=orderID) (hsome : authzs≠[])
    (hall : ∀ a∈authzs,statusWith authzID status a=.valid) :
    orderStatus orderID s'.1=if order.status=.pending then some .ready else orderStatus orderID s.1 := by
  rw [applyAcmeWrites_lastSet (fun a b w => applyAcmeWrite_orderStatus orderID) h,cascade_allValid hsome hall]
  have hset : (Write.updateOrder {order with status := .ready}).orderStatus? orderID=some .ready := if_pos hid
  by_cases hpending : order.status=.pending
  · simp only [hpending,if_true,lastSet,foldl_cons,foldl_nil,AcmeWrite.orderStatus?,hset,Option.some_or]
  · simp only [hpending,if_false,lastSet,foldl_cons,foldl_nil,AcmeWrite.orderStatus?,Option.none_or]

theorem notLeftPending_commit (hid : order.orderID=orderID)
    (hown : ∀ a∈s.2.authzs,a.authzID=authzID → a.orderID=orderID)
    (hauthzs : (authzs.map fun a => (a.authzID,a.status)).Perm (statusesOf orderID s))
    (horder : orderStatus orderID s.1=some order.status) : NotLeftPending orderID s' := by
  intro hvalid
  obtain ⟨⟨own,hmem,hkey⟩,hrows⟩ := authzs_commit h
  -- every stored authorization of the order is valid once the new status is in place
  have hstored : ∀ a∈s.2.authzs,a.orderID=orderID → statusWith authzID status a=.valid := by
    intro a ha hao
    unfold statusWith
    split
    · rename_i hk
      have hnew : {a with status := status}∈s'.2.authzs := by
        rw [hrows]
        exact mem_modify.mpr (Or.inr ⟨a,ha,hk,rfl⟩)
      exact hvalid _ hnew hao
    · rename_i hk
      have hold : a∈s'.2.authzs := by
        rw [hrows]
        exact mem_modify.mpr (Or.inl ⟨ha,hk⟩)
      exact hvalid a hold hao
  -- so is every authorization that was read, since it is still stored
  have hread : ∀ a∈authzs,statusWith authzID status a=.valid := by
    intro a ha
    have hpair := hauthzs.subset (mem_map_of_mem ha)
    obtain ⟨b,hb,heq⟩ := mem_map.mp hpair
    obtain ⟨hbmem,hborder⟩ := mem_filter.mp hb
    have hbvalid := hstored b hbmem (of_decide_eq_true hborder)
    rw [Prod.mk.injEq] at heq
    unfold statusWith at hbvalid ⊢
    rw [← heq.1,← heq.2]
    exact hbvalid
  have hsome : authzs≠[] := by
    rintro rfl
    have hnil : statusesOf orderID s=[] := (List.Perm.nil_eq hauthzs).symm
    have hin : (own.authzID,own.status)∈statusesOf orderID s :=
      mem_map_of_mem (mem_filter.mpr ⟨hmem,decide_eq_true (hown own hmem hkey)⟩)
    rw [hnil] at hin
    cases hin
  rw [orderStatus_commit h hid hsome hread]
  split
  · exact nofun
  rename_i hpending
  rw [horder]
  exact fun h => hpending (Option.some.inj h)

end Commit

section Runs

variable [DecidableEq ι]

def callbacks (calls : ι→Callback) : ι→Acme Unit := fun t => (calls t).program

def noErrors : StepCondition acmeServer ι Unit := fun _ _ _ c => c.fault=none

instance (cfg : Config acmeServer ι Unit) (t : ι) (op : acmeServer.Op) (c : acmeServer.Choice) :
    Decidable (noErrors cfg t op c) := inferInstanceAs (Decidable (c.fault=none))

/-- No repository call fails, and a callback commits while the authorizations of the order and
the status of the order are still stored as it read them. -/
def readsCurrent (orderID : String) (calls : ι→Callback) : StepCondition acmeServer ι Unit := fun cfg t op c =>
  c.fault=none ∧ (writesOf op≠[] → ∀ authzs∈(ghost learn {call := calls t} t cfg.log).authzs,
    ∀ order∈(ghost learn {call := calls t} t cfg.log).order,
      (authzs.map fun a => (a.authzID,a.status)).Perm (statusesOf orderID cfg.state) ∧
        orderStatus orderID cfg.state.1=some order.status)

instance (orderID : String) (calls : ι→Callback) (cfg : Config acmeServer ι Unit) (t : ι) (op : acmeServer.Op)
    (c : acmeServer.Choice) : Decidable (readsCurrent orderID calls cfg t op c) :=
  inferInstanceAs (Decidable (_ ∧ (_ → _)))

/-- The authorizations of the callbacks are authorizations of the order. -/
def OfOrder (orderID : String) (calls : ι→Callback) (s : AcmeState) : Prop :=
  ∀ t,∀ a∈s.2.authzs,a.authzID=(calls t).ch.authzID → a.orderID=orderID

omit [DecidableEq ι] in
theorem ofOrder_commit {orderID authzID : String} {calls : ι→Callback} {status : AuthzStatus} {s s' : AcmeState}
    (hof : OfOrder orderID calls s) (hrows : s'.2.authzs=
      modify Authorization.authzID authzID (fun row => {row with status := status}) s.2.authzs) :
    OfOrder orderID calls s' := by
  intro t a ha hkey
  rw [hrows] at ha
  rcases mem_modify.mp ha with ⟨hold,-⟩|⟨old,hold,-,rfl⟩
  · exact hof t a hold hkey
  · exact hof t old hold hkey

/-- In every run without repository errors in which each callback commits while what it read is
still stored, an order whose authorizations are all valid is not pending. -/
theorem ready_not_lost (orderID : String) (calls : ι→Callback) (s : AcmeState)
    (hcalls : ∀ t,(calls t).authz.orderID=orderID) (hof : OfOrder orderID calls s)
    (hstart : NotLeftPending orderID s) (cfg : Config acmeServer ι Unit)
    (hreach : Reach (readsCurrent orderID calls) (initial (callbacks calls) s) cfg) :
    NotLeftPending orderID cfg.state := by
  have hpool : ∀ t,(callbacks calls t).Tracked acmeServer.CanAnswer (Commits orderID) learn (fun _ _ => True)
      {call := calls t} := fun t => tracked_callback (hcalls t)
  refine (reach_tracked (I := fun b : Config acmeServer ι Unit =>
    NotLeftPending orderID b.state ∧ OfOrder orderID calls b.state) (admitted_canAnswer _ _) hreach
      hpool ⟨hstart,hof⟩ ?_).1.1
  intro a t op c r s' ha _ hok hperform hpre k _
  have hsame : SameRows a.state s' → NotLeftPending orderID s' ∧ OfOrder orderID calls s' := by
    intro hrows
    refine ⟨fun hvalid => ?_,fun u x hx => ?_⟩
    · unfold orderStatus
      rw [hrows.orders]
      refine ha.1 fun x hx => ?_
      exact hvalid x (hrows.authzs ▸ hx)
    · exact ha.2 u x (hrows.authzs ▸ hx)
  rcases acme_step hperform with ⟨-,-,hwrites⟩|⟨rfl,-⟩|⟨rfl,-⟩|⟨-,hrows,-⟩
  · by_cases hquiet : writesOf op=[]
    · rw [hquiet] at hwrites
      cases hwrites
      exact hsame ⟨rfl,rfl,rfl,rfl⟩
    obtain ⟨authzs,order,ch,hauthzs,horder,hid,hcommit⟩ := writes_of_commits hpre hquiet
    obtain ⟨hperm,hstatus⟩ := hok.2 hquiet authzs hauthzs order horder
    rw [hcommit] at hwrites
    have hcall : (ghost learn {call := calls t} t a.log).call=calls t :=
      ghost_keeps (P := fun g => g.call=calls t) rfl (fun g op r hg => (learn_call g op r).trans hg) t a.log
    have hown : ∀ x∈a.state.2.authzs,x.authzID=(ghost learn {call := calls t} t a.log).call.ch.authzID →
        x.orderID=orderID := by
      rw [hcall]
      exact ha.2 t
    exact ⟨notLeftPending_commit hwrites hid hown hperm hstatus,ofOrder_commit ha.2 (authzs_commit hwrites).2⟩
  · exact hpre.elim
  · exact hpre.elim
  · exact hsame hrows

def sampleState : AcmeState :=
  ({orders := [⟨"ord","acc",[⟨"dns","a"⟩,⟨"dns","b"⟩],.pending,none,"","",0⟩]},
    {authzs := [⟨"authz-a","ord",⟨"dns","a"⟩,.pending,0,false,0⟩,⟨"authz-b","ord",⟨"dns","b"⟩,.pending,0,false,0⟩],
      challenges := [⟨"ch-a","authz-a",.http01,.processing,"",none,none,0⟩,
        ⟨"ch-b","authz-b",.http01,.processing,"",none,none,0⟩]})

/-- The callbacks of the two challenges, both with a good verdict. -/
def sampleCallbacks (first : Bool) : Callback :=
  let name := if first then "a" else "b"
  ⟨⟨"ch-"++name,"authz-"++name,.http01,.processing,"",none,none,0⟩,
    ⟨"authz-"++name,"ord",⟨"dns",name⟩,.pending,0,false,0⟩,none⟩

theorem sample_ofOrder : (∀ t,(sampleCallbacks t).authz.orderID="ord") ∧ OfOrder "ord" sampleCallbacks sampleState ∧
    NotLeftPending "ord" sampleState := by
  refine ⟨fun t => rfl,fun t => ?_,?_⟩
  · cases t <;> decide
  intro hvalid
  have hpending := hvalid ⟨"authz-a","ord",⟨"dns","a"⟩,.pending,0,false,0⟩ mem_cons_self rfl
  cases hpending

/-- One callback after the other: the second makes the order ready. -/
theorem ready_not_lost_sample :
    ∃ cfg,Reach (readsCurrent "ord" sampleCallbacks) (initial (callbacks sampleCallbacks) sampleState) cfg ∧
      orderStatus "ord" cfg.state.1=some .ready ∧ NotLeftPending "ord" cfg.state := by
  refine reaches_view (List.replicate 4 (true,noFault)++List.replicate 4 (false,noFault))
    (fun cfg => orderStatus "ord" cfg.state.1) (some .ready) (by decide) fun cfg hreach hout => ?_
  obtain ⟨hcalls,hof,hstart⟩ := sample_ofOrder
  exact ⟨hout,ready_not_lost "ord" sampleCallbacks sampleState hcalls hof hstart cfg hreach⟩

/-- Both callbacks read before either commits. Both have returned, both authorizations are
valid, and the order is still pending. -/
theorem ready_lost :
    ∃ cfg,Reach noErrors (initial (callbacks sampleCallbacks) sampleState) cfg ∧
      (∀ t,(cfg.threads t).done=true) ∧ AllValid "ord" cfg.state ∧
      orderStatus "ord" cfg.state.1=some .pending := by
  refine reaches_view
    (List.replicate 3 (true,noFault)++List.replicate 3 (false,noFault)++[(true,noFault),(false,noFault)])
    (fun cfg => ((cfg.threads true).done,(cfg.threads false).done,
      cfg.state.2.authzs.all (fun a => a.status=.valid),orderStatus "ord" cfg.state.1))
    (true,true,true,some .pending) (by decide) fun cfg _ hout => ?_
  simp only [Prod.mk.injEq] at hout
  obtain ⟨hfirst,hsecond,hvalid,hpending⟩ := hout
  refine ⟨fun t => ?_,fun a ha _ => ?_,hpending⟩
  · cases t with
    | true => exact hfirst
    | false => exact hsecond
  · exact of_decide_eq_true (all_eq_true.mp hvalid a ha)

end Runs

end Certctl.AcmeReadyOrders
