import Certctl.AcmeFinalStates
import Certctl.AcmeInsertedColumns

/-!
# Expiry of orders and authorizations

Nothing but the sweeps looks at the expiry of an order or an authorization:
new orders, answers to challenges, verdicts and finalize calls go by the
stored statuses. What a sweep has failed or expired stays so while no
committed write is overtaken. Then a finalize call that reads an order after
a sweep later than its expiry asks no issuer, and no issuer is ever asked
for an order with an authorization that a sweep has expired, since the
authorizations of an order that can be finalized are all valid.
-/

namespace Certctl.AcmeExpiry

open AtomicProgram AtomicInterleaving ControlPlaneTables ControlPlaneStore DomainRecords RecordTable StoreExtension Option
open List hiding lookup
open AcmeServerStore AcmeOrders AcmeChallenges AcmeFinalStates AcmeInsertedColumns

variable {Key ι : Type} {orderID accountID authzID : String} {op : acmeServer.Op} {order : Order}
  {authzs : List Authorization} {ok : StepCondition acmeServer ι Unit} {t : ι}

def authzOrder (authzID : String) (s : AcmeState) : Option String :=
  (lookup Authorization.authzID authzID s.2.authzs).map Authorization.orderID

def approved : OrderStatus→Bool
  | .ready => true
  | .processing => true
  | .valid => true
  | _ => false

variable {r : acmeServer.Res op}

section Tables

variable {c : Choice} {s s' : AcmeState} {writes : List AcmeWrite} {w : AcmeWrite}

/-- Authorizations have their own keys and belong to orders that are there. -/
structure Filed (s : AcmeState) : Prop where
  /-- No two authorizations have the same key. -/
  keys : (s.2.authzs.map Authorization.authzID).Nodup
  orders : ∀ row∈s.2.authzs,(orderStatus row.orderID s.1).isSome=true

theorem stays_written (h : applyAcmeWrite c s w=.ok s')
    (hthere : (orderStatus orderID s.1).isSome=true) : (orderStatus orderID s'.1).isSome=true := by
  rw [applyAcmeWrite_orderStatus orderID h,isSome_or,hthere,Bool.or_true]

theorem stays_writes (h : applyAcmeWrites c s writes=.ok s')
    (hthere : (orderStatus orderID s.1).isSome=true) : (orderStatus orderID s'.1).isSome=true :=
  applyAcmeWrites_keeps (P := fun b => (orderStatus orderID b.1).isSome=true)
    (fun _ _ _ _ ha hone => stays_written hone ha) hthere h

theorem filed_written (hs : Filed s) (h : applyAcmeWrite c s w=.ok s') : Filed s' := by
  have hsame : s'.2.authzs=s.2.authzs → Filed s' := by
    intro hrows
    refine ⟨hrows ▸ hs.keys,fun row hrow => ?_⟩
    exact stays_written h (hs.orders row (hrows ▸ hrow))
  obtain ⟨hfree,rfl⟩ := applyAcmeWrite_ok h
  cases w with
  | createAuthz =>
    obtain ⟨hnew,hparent⟩ := free_of_insert hfree
    refine ⟨keys_append hs.keys hnew,fun row hrow => ?_⟩
    rcases mem_append_row.mp hrow with hold|rfl
    · exact hs.orders row hold
    obtain ⟨order,horder,hid⟩ := any_eq_true.mp hparent
    obtain ⟨found,hfound⟩ := lookup_isSome ⟨order,horder,of_decide_eq_true hid⟩
    simp only [orderStatus,acmeWritten,hfound,map_some,isSome_some]
  | updateAuthzStatus authzID status =>
    refine ⟨?_,fun row hrow => ?_⟩
    · have hkeep : ∀ row : Authorization,({row with status := status} : Authorization).authzID=row.authzID :=
        fun _ => rfl
      simp only [acmeWritten]
      rw [map_modify hkeep]
      exact hs.keys
    · rcases mem_modify.mp hrow with ⟨hold,-⟩|⟨old,hold,-,rfl⟩
      · exact hs.orders row hold
      · exact hs.orders old hold
  | _ => exact hsame rfl

theorem sweptAuthz_order (now : Time) (row : Authorization) : (sweptAuthz now row).orderID=row.orderID := by
  unfold sweptAuthz
  split <;> rfl

theorem stays_step (h : acmeServer.perform op c s=some (r,s'))
    (hthere : (orderStatus orderID s.1).isSome=true) : (orderStatus orderID s'.1).isSome=true := by
  rcases acme_step h with ⟨-,-,hwrites⟩|⟨-,rfl⟩|⟨-,rfl⟩|⟨-,hsame,-⟩
  · exact stays_writes (s := ticked c s) hwrites hthere
  · exact hthere
  · rw [orderStatus,column_map (sweptOrder_key c.now)]
    simpa only [orderStatus,isSome_map] using hthere
  · rw [orderStatus,hsame.orders]
    exact hthere

theorem filed_step (hs : Filed s) (h : acmeServer.perform op c s=some (r,s')) : Filed s' := by
  have hstays : ∀ orderID,(orderStatus orderID s.1).isSome=true → (orderStatus orderID s'.1).isSome=true :=
    fun _ => stays_step h
  rcases acme_step h with ⟨-,-,hwrites⟩|⟨-,rfl⟩|⟨-,rfl⟩|⟨-,hsame,-⟩
  · exact applyAcmeWrites_keeps (P := Filed) (fun w _ a b ha hone => filed_written ha hone) (s := ticked c s)
      ⟨hs.keys,hs.orders⟩ hwrites
  · refine ⟨?_,fun row hrow => ?_⟩
    · rw [List.map_map]
      have hkeys : Authorization.authzID ∘ sweptAuthz c.now=Authorization.authzID := funext (sweptAuthz_key c.now)
      rw [hkeys]
      exact hs.keys
    · obtain ⟨old,hold,rfl⟩ := mem_map.mp hrow
      rw [sweptAuthz_order]
      exact hs.orders old hold
  · exact ⟨hs.keys,fun row hrow => hstays row.orderID (hs.orders row hrow)⟩
  · refine ⟨hsame.authzs ▸ hs.keys,fun row hrow => hstays row.orderID ?_⟩
    exact hs.orders row (hsame.authzs ▸ hrow)

end Tables

variable {row : Authorization}

section Steps

variable {c : Choice} {s s' : AcmeState} {writes : List AcmeWrite} {w : AcmeWrite}

/-- What may happen to orders and authorizations: nothing leaves a final status, no order goes, and an order that is
there keeps its authorizations and gets no others. -/
structure Evolves (s s' : AcmeState) : Prop where
  final : Absorbed s s'
  stays : ∀ orderID,(orderStatus orderID s.1).isSome=true → (orderStatus orderID s'.1).isSome=true
  owners : ∀ orderID authzID,authzOrder authzID s=some orderID → authzOrder authzID s'=some orderID
  /-- An order has the authorizations that it had when it was made. -/
  closed : ∀ orderID authzID,(orderStatus orderID s.1).isSome=true → authzOrder authzID s'=some orderID →
    authzOrder authzID s=some orderID

theorem evolves_refl (s : AcmeState) : Evolves s s := ⟨absorbed_refl s,fun _ h => h,fun _ _ h => h,fun _ _ _ h => h⟩

theorem Evolves.trans {s₁ s₂ s₃ : AcmeState} (h : Evolves s₁ s₂) (h' : Evolves s₂ s₃) : Evolves s₁ s₃ where
  final := h.final.trans h'.final
  stays := fun orderID hthere => h'.stays orderID (h.stays orderID hthere)
  owners := fun orderID authzID hauthz => h'.owners orderID authzID (h.owners orderID authzID hauthz)
  closed := fun orderID authzID hthere hauthz =>
    h.closed orderID authzID hthere (h'.closed orderID authzID (h.stays orderID hthere) hauthz)

theorem evolves_of_same (hfinal : Absorbed s s')
    (hstays : ∀ orderID,(orderStatus orderID s.1).isSome=true → (orderStatus orderID s'.1).isSome=true)
    (hsame : ∀ authzID,authzOrder authzID s'=authzOrder authzID s) : Evolves s s' := by
  refine ⟨hfinal,hstays,fun orderID authzID hauthz => ?_,fun orderID authzID _ hauthz => ?_⟩
  · rw [hsame authzID]
    exact hauthz
  · rw [hsame authzID] at hauthz
    exact hauthz

/-- The authorizations of an order that can be finalized are valid. -/
def Done (s : AcmeState) : Prop :=
  ∀ authzID orderID status,authzOrder authzID s=some orderID → orderStatus orderID s.1=some status →
    approved status=true → authzStatus authzID s=some .valid

/-- An inserted row hides no row with a status. -/
theorem absorbed_insert (hw : inserts w=true) : Absorbed s (acmeWritten c s w) := by
  cases w with
  | createOrder order => exact ⟨fun _ _ _ hs => column_kept order hs,fun _ _ _ hs => hs,fun _ _ _ hs => hs⟩
  | createAuthz authz => exact ⟨fun _ _ _ hs => hs,fun _ _ _ hs => column_kept authz hs,fun _ _ _ hs => hs⟩
  | createChallenge ch => exact ⟨fun _ _ _ hs => hs,fun _ _ _ hs => hs,fun _ _ _ hs => column_kept ch hs⟩
  | _ => cases hw

/-- The rows of a new order: one order with a key of its own, and authorizations of it, all valid for an order that is
ready and all pending for one that is not. -/
theorem newOrder_rows (h : NewOrderWrites accountID writes) (hwrites : applyAcmeWrites c s writes=.ok s') :
    Absorbed s s' ∧ ∃ trusted order rows,s'.1.orders=s.1.orders++[order] ∧
      (∀ row∈s.1.orders,row.orderID≠order.orderID) ∧ order.status=(if trusted=true then .ready else .pending) ∧
      s'.2.authzs=s.2.authzs++rows ∧ ∀ row∈rows,row.orderID=order.orderID ∧
        row.status=(if trusted=true then .valid else .pending) := by
  obtain ⟨trusted,order,rest,rfl,-,hstatus,hrest⟩ := h
  obtain ⟨hfree,hafter⟩ := applyAcmeWrites_cons hwrites
  have hkey : ∀ row∈s.1.orders,row.orderID≠order.orderID := (free_of_insert hfree).1
  have hrows := applyAcmeWrites_keeps (P := fun b => Absorbed s b ∧ b.1.orders=s.1.orders++[order] ∧
    ∃ rows,b.2.authzs=s.2.authzs++rows ∧ ∀ row∈rows,row.orderID=order.orderID ∧
      row.status=(if trusted=true then .valid else .pending)) ?_ ?_ hafter
  · obtain ⟨habsorbed,horders,rows,hauthzs,hall⟩ := hrows
    exact ⟨habsorbed,trusted,order,rows,horders,hkey,hstatus,hauthzs,hall⟩
  · intro w hw a b ha hone
    obtain ⟨habsorbed,horders,rows,hauthzs,hall⟩ := ha
    obtain ⟨-,rfl⟩ := applyAcmeWrite_ok hone
    obtain ⟨now,ttl,id,authzSuffix,challengeSuffix,token,hdrawn⟩ := hrest w hw
    rcases mem_identifierWrites hdrawn with ⟨authz,rfl,hnew⟩|⟨ch,rfl⟩
    · refine ⟨habsorbed.trans (absorbed_insert rfl),horders,rows++[authz],?_,?_⟩
      · simp only [acmeWritten]
        rw [hauthzs,append_assoc]
      · exact forall_mem_append.mpr ⟨hall,forall_mem_singleton.mpr hnew⟩
    · exact ⟨habsorbed.trans (absorbed_insert rfl),horders,rows,hauthzs,hall⟩
  · exact ⟨absorbed_insert rfl,rfl,[],(append_nil _).symm,forall_mem_nil _⟩

theorem authz_newOrder {rows : List Authorization} (hauthzs : s'.2.authzs=s.2.authzs++rows)
    (h : lookup Authorization.authzID authzID s'.2.authzs=some row) :
    lookup Authorization.authzID authzID s.2.authzs=some row ∨ row∈rows := by
  rw [hauthzs,lookup,find?_append,or_eq_some_iff] at h
  exact h.imp_right fun hnew => mem_of_find?_eq_some hnew.2

theorem row_of_there (h : (orderStatus orderID s.1).isSome=true) : ∃ row∈s.1.orders,row.orderID=orderID := by
  rw [orderStatus,isSome_map] at h
  obtain ⟨row,hrow⟩ := isSome_iff_exists.mp h
  exact ⟨row,lookup_some hrow⟩

theorem evolves_newOrder (h : NewOrderWrites accountID writes)
    (hwrites : applyAcmeWrites c s writes=.ok s') : Evolves s s' := by
  obtain ⟨habsorbed,trusted,order,rows,-,hkey,-,hauthzs,hall⟩ := newOrder_rows h hwrites
  refine ⟨habsorbed,fun _ => stays_writes hwrites,fun orderID authzID hauthz => ?_,fun orderID authzID hthere hauthz => ?_⟩
  · obtain ⟨row,hrow,rfl⟩ := map_eq_some_iff.mp hauthz
    have hfound : lookup Authorization.authzID authzID s'.2.authzs=some row := by
      rw [hauthzs,lookup,find?_append]
      rw [lookup] at hrow
      rw [hrow,some_or]
    rw [authzOrder,hfound,map_some]
  · obtain ⟨row,hrow,rfl⟩ := map_eq_some_iff.mp hauthz
    rcases authz_newOrder hauthzs hrow with hold|hnew
    · rw [authzOrder,hold,map_some]
    obtain ⟨found,hfound,hid⟩ := row_of_there hthere
    exact absurd (hid.trans (hall row hnew).1) (hkey found hfound)

theorem done_newOrder (hfiled : Filed s) (hdone : Done s) (h : NewOrderWrites accountID writes)
    (hwrites : applyAcmeWrites c s writes=.ok s') : Done s' := by
  obtain ⟨habsorbed,trusted,order,rows,horders,hkey,hstatus,hauthzs,hall⟩ := newOrder_rows h hwrites
  intro authzID orderID status hauthz horder happroved
  obtain ⟨row,hrow,rfl⟩ := map_eq_some_iff.mp hauthz
  have hafter : orderStatus row.orderID s'.1=
      (orderStatus row.orderID s.1).or (if order.orderID=row.orderID then some order.status else none) := by
    rw [orderStatus,horders]
    exact column_appended row.orderID s.1.orders order
  rw [hafter] at horder
  rcases authz_newOrder hauthzs hrow with hold|hnew
  · obtain ⟨before,hbefore⟩ := isSome_iff_exists.mp (hfiled.orders row (lookup_some hold).1)
    rw [hbefore] at horder
    rw [Option.some.inj horder] at hbefore
    have howner : authzOrder authzID s=some row.orderID := by rw [authzOrder,hold,map_some]
    exact habsorbed.authzs authzID .valid rfl (hdone authzID row.orderID status howner hbefore happroved)
  obtain ⟨hid,hrowstatus⟩ := hall row hnew
  have hnone : orderStatus row.orderID s.1=none := by
    rw [hid]
    exact column_free hkey
  rw [hnone,if_pos hid.symm] at horder
  rw [← Option.some.inj horder,hstatus] at happroved
  rw [authzStatus,hrow,map_some,hrowstatus]
  cases trusted with
  | true => rfl
  | false => cases happroved

theorem authzOrder_written (hw : inserts w=false) (authzID : String) :
    authzOrder authzID (acmeWritten c s w)=authzOrder authzID s := by
  cases w with
  | updateAuthzStatus => exact column_modify_same (fun _ => rfl) fun _ => rfl
  | createAuthz => cases hw
  | _ => rfl

theorem lastSet_some {κ ω : Type} {sets : ω→Option κ} {items : List ω} {before : Option κ} {x : κ}
    (h : lastSet sets items before=some x) : before=some x ∨ ∃ item∈items,sets item=some x := by
  induction items generalizing before with
  | nil => exact .inl h
  | cons item rest ih =>
    rw [lastSet,foldl_cons] at h
    rcases ih h with hset|⟨later,hmem,hset⟩
    · cases hitem : sets item with
      | none =>
        rw [hitem] at hset
        exact .inl hset
      | some =>
        rw [hitem] at hset
        exact .inr ⟨item,mem_cons_self,hitem.trans hset⟩
    · exact .inr ⟨later,mem_cons_of_mem _ hmem,hset⟩

/-- What the writes of a finalize call or a verdict rest on: the order was seen approved, or a list of its
authorizations, with the verdict counted in, was all valid. -/
structure Careful (seen : Seen) (listed : String→List Authorization→Prop) (writes : List AcmeWrite) : Prop where
  /-- Nothing that was seen in a final status is written. -/
  opens : ∀ w∈writes,OpenWrite seen w
  approves : ∀ w∈writes,∀ order∈updatedOrder w,approved order.status=true →
    (∃ status,seen.order order.orderID=some status ∧ approved status=true) ∨
    ∃ authzID status authzs,listed order.orderID authzs ∧ authzs≠[] ∧
      (∀ row∈authzs,statusWith authzID status row=.valid) ∧
      ∀ before,lastSet (AcmeWrite.authzStatus? authzID) writes before=some status

variable {seen : Seen} {listed : String→List Authorization→Prop}

theorem evolves_careful (h : Careful seen listed writes) (hnow : ∀ w∈writes,UpToDate seen s w)
    (hwrites : applyAcmeWrites c s writes=.ok s') : Evolves s s' := by
  have hsame : ∀ authzID,authzOrder authzID s'=authzOrder authzID s := by
    intro authzID
    refine applyAcmeWrites_keeps (P := fun b => authzOrder authzID b=authzOrder authzID s) ?_ rfl hwrites
    intro w hw a b ha hone
    obtain ⟨-,rfl⟩ := applyAcmeWrite_ok hone
    exact (authzOrder_written (h.opens w hw).update authzID).trans ha
  exact evolves_of_same (absorbed_applyAcmeWrites h.opens hnow hwrites) (fun _ => stays_writes hwrites) hsame

/-- A list of authorizations is complete, and what it shows as valid is valid still. -/
def Lists (s : AcmeState) (orderID : String) (authzs : List Authorization) : Prop :=
  authzs≠[] → ∀ authzID,authzOrder authzID s=some orderID →
    ∃ row∈authzs,row.authzID=authzID ∧ (row.status=.valid → authzStatus authzID s=some .valid)

theorem done_careful (hdone : Done s) (h : Careful seen listed writes) (hnow : ∀ w∈writes,UpToDate seen s w)
    (hlisted : ∀ orderID authzs,listed orderID authzs → Lists s orderID authzs)
    (hwrites : applyAcmeWrites c s writes=.ok s') : Done s' := by
  have hevolves := evolves_careful h hnow hwrites
  intro authzID orderID status hauthz horder happroved
  rw [applyAcmeWrites_lastSet (fun a b w => applyAcmeWrite_orderStatus orderID) hwrites] at horder
  have hkept : authzStatus authzID s=some .valid → authzStatus authzID s'=some .valid :=
    fun hvalid => hevolves.final.authzs authzID .valid rfl hvalid
  have howned : ∀ {before},orderStatus orderID s.1=some before → authzOrder authzID s=some orderID := by
    intro before hbefore
    exact hevolves.closed orderID authzID (isSome_of_eq_some hbefore) hauthz
  rcases lastSet_some horder with hold|⟨w,hw,hset⟩
  · exact hkept (hdone authzID orderID status (howned hold) hold happroved)
  rcases updatedOrder_of_orderStatus? hset with ⟨order,hupdated,rfl,rfl⟩|hinserts
  · obtain ⟨before,hopen,-⟩ := (h.opens w hw).order order hupdated
    have hstored := ((hnow w hw).1 order hupdated).trans hopen
    have hbefore := howned hstored
    rcases h.approves w hw order hupdated happroved with ⟨old,hseen,hold⟩|⟨own,verdict,authzs,hlist,hsome,hall,hlast⟩
    · rw [hopen] at hseen
      cases hseen
      exact hkept (hdone authzID order.orderID before hbefore hstored hold)
    obtain ⟨row,hrow,rfl,hvalid⟩ := hlisted order.orderID authzs hlist hsome authzID hbefore
    have hrowvalid := hall row hrow
    unfold statusWith at hrowvalid
    split at hrowvalid
    · rename_i hown
      rw [applyAcmeWrites_lastSet (fun a b w => applyAcmeWrite_authzStatus row.authzID) hwrites,hown,hlast,hrowvalid]
    · exact hkept (hvalid hrowvalid)
  · rw [(h.opens w hw).update] at hinserts
    cases hinserts

/-- The writes of an operation are those of a new order, or rest on what was seen. -/
def Lawful (seen : Seen) (listed : String→List Authorization→Prop) (op : acmeServer.Op) : Prop :=
  (∃ accountID,NewOrderWrites accountID (writesOf op)) ∨ Careful seen listed (writesOf op)

theorem lawful_of_nil (h : writesOf op=[]) : Lawful seen listed op := by
  rw [Lawful,h]
  exact .inr ⟨forall_mem_nil _,forall_mem_nil _⟩

theorem absorbed_of_nil (hnil : writesOf op=[]) (h : acmeServer.perform op c s=some (r,s')) : Absorbed s s' := by
  have hopen : OpenWrites ({} : Seen) op r := openWrites_of_nil hnil
  refine absorbed_step hopen (fun _ w hw => ?_) h
  rw [hnil] at hw
  cases hw

theorem evolves_step (hlawful : Lawful seen listed op)
    (hnow : c.fault=none → ∀ w∈writesOf op,UpToDate seen s w) (h : acmeServer.perform op c s=some (r,s')) :
    Evolves s s' := by
  rcases acme_step h with ⟨hfault,-,hwrites⟩|⟨rfl,hs⟩|⟨rfl,hs⟩|⟨-,hsame,-⟩
  · have hevolves : Evolves (ticked c s) s' := by
      rcases hlawful with ⟨accountID,hnew⟩|hcareful
      · exact evolves_newOrder hnew hwrites
      · exact evolves_careful hcareful (hnow hfault) hwrites
    exact ⟨⟨hevolves.final.orders,hevolves.final.authzs,hevolves.final.challenges⟩,hevolves.stays,hevolves.owners,
      hevolves.closed⟩
  · refine evolves_of_same (absorbed_of_nil rfl h) (fun _ => stays_step h) fun authzID => ?_
    rw [hs,authzOrder,column_map (sweptAuthz_key c.now)]
    exact congrArg (fun f => (lookup Authorization.authzID authzID s.2.authzs).map f) (funext (sweptAuthz_order c.now))
  · refine evolves_of_same (absorbed_of_nil rfl h) (fun _ => stays_step h) fun authzID => ?_
    rw [hs]
    rfl
  · refine evolves_of_same (absorbed_of_sameRows hsame) (fun _ => stays_step h) fun authzID => ?_
    rw [authzOrder,hsame.authzs]
    rfl

theorem approved_of_swept {now : Time} {row : Order} (h : approved (sweptOrder now row).status=true) :
    (sweptOrder now row).status=row.status := by
  unfold sweptOrder at h ⊢
  split
  · rename_i hlapsed
    rw [if_pos hlapsed] at h
    cases h
  · rfl

theorem done_step (hfiled : Filed s) (hdone : Done s)
    (hlawful : Lawful seen listed op) (hnow : c.fault=none → ∀ w∈writesOf op,UpToDate seen s w)
    (hlisted : ∀ orderID authzs,listed orderID authzs → Lists s orderID authzs)
    (h : acmeServer.perform op c s=some (r,s')) : Done s' := by
  have hevolves := evolves_step hlawful hnow h
  have hkeeps : ∀ authzID orderID before,authzOrder authzID s'=some orderID → orderStatus orderID s.1=some before →
      approved before=true → authzStatus authzID s'=some .valid := by
    intro authzID orderID before hauthz hbefore happroved
    have howner := hevolves.closed orderID authzID (isSome_of_eq_some hbefore) hauthz
    exact hevolves.final.authzs authzID .valid rfl (hdone authzID orderID before howner hbefore happroved)
  rcases acme_step h with ⟨hfault,-,hwrites⟩|⟨rfl,hs⟩|⟨rfl,hs⟩|⟨-,hsame,-⟩
  · rcases hlawful with ⟨accountID,hnew⟩|hcareful
    · exact done_newOrder (s := ticked c s) ⟨hfiled.keys,hfiled.orders⟩ hdone hnew hwrites
    · exact done_careful (s := ticked c s) hdone hcareful (hnow hfault) hlisted hwrites
  · intro authzID orderID status hauthz horder happroved
    refine hkeeps authzID orderID status hauthz ?_ happroved
    rw [hs] at horder
    exact horder
  · intro authzID orderID status hauthz horder happroved
    have hswept : orderStatus orderID s'.1=
        (lookup Order.orderID orderID s.1.orders).map fun row => (sweptOrder c.now row).status := by
      rw [hs]
      exact column_map (sweptOrder_key c.now)
    rw [hswept] at horder
    obtain ⟨row,hrow,rfl⟩ := map_eq_some_iff.mp horder
    refine hkeeps authzID orderID row.status hauthz ?_ ?_
    · rw [orderStatus,hrow,map_some]
    rw [← approved_of_swept happroved]
    exact happroved
  · intro authzID orderID status hauthz horder happroved
    refine hkeeps authzID orderID status hauthz ?_ happroved
    rw [orderStatus,hsame.orders] at horder
    exact horder

end Steps

/-- The calls on orders. -/
inductive OrderCall (Key : Type) where
  | create (accountID profileID : String) (identifiers : List Identifier)
  /-- Finalize an order, answer a challenge, or sweep. -/
  | work (call : AcmeCall Key)

def OrderCall.program (svc : AcmeServer Key) : OrderCall Key→Acme Unit
  | .create accountID profileID identifiers => do
    let _ ← createOrder svc accountID profileID identifiers
    pure ()
  | .work call => call.program svc

def orderCalls (svc : AcmeServer Key) (calls : ι→OrderCall Key) : ι→Acme Unit := fun t => (calls t).program svc

section Programs

/-- The operation writes a new order, if it writes at all. -/
def Creates (_ : Unit) (op : acmeServer.Op) (_ : acmeServer.Res op) : Prop :=
  writesOf op=[] ∨ ∃ accountID,NewOrderWrites accountID (writesOf op)

theorem tracked_create (svc : AcmeServer Key) (accountID profileID : String) (identifiers : List Identifier) :
    (OrderCall.program svc (.create accountID profileID identifiers)).Tracked acmeServer.CanAnswer Creates
      (fun _ _ _ => ()) (fun _ _ => True) () := by
  refine Prog.tracked_seq (tracked_createOrder (fun op r hop => ⟨.inl ?_,rfl⟩) fun writes r hwrites =>
    ⟨.inr ⟨accountID,hwrites⟩,rfl⟩) fun _ _ _ => trivial
  cases op with
  | inl op =>
    cases op with
    | withinTx => exact hop.elim
    | _ => rfl
  | inr op =>
    cases op with
    | acmeTx => exact hop.elim
    | _ => rfl

def readOrder (g : Option Order) : acmeServer.Obs (Option Order)
  | .inl (.getOrderByID _),.ok order => some order
  | _,_ => g

/-- The issuer is asked for an order that was read as one that can be finalized. -/
def AskedFor (orderID : String) (g : Option Order) : acmeServer.Op→Prop
  | .inl (.issueCertificate _ _ _ _ _ _ _) =>
    ∃ order,g=some order ∧ order.orderID=orderID ∧ (order.status=.ready ∨ order.status=.processing)
  | _ => True

/-- What the operations of a finalize call meet. -/
def Finalizes (orderID : String) (g : Seen×Option Order) (op : acmeServer.Op) (_ : acmeServer.Res op) : Prop :=
  AskedFor orderID g.2 op ∧ ∀ w∈writesOf op,OpenWrite g.1 w ∧ ∀ order∈updatedOrder w,approved order.status=true →
    ∃ status,g.1.order order.orderID=some status ∧ approved status=true

/-- What a finalize call sees and reads. -/
abbrev follow (g : Seen×Option Order) (op : acmeServer.Op) (r : acmeServer.Res op) : Seen×Option Order :=
  (look g.1 op r,readOrder g.2 op r)

theorem approved_of_read_status (h : order.status=.ready ∨ order.status=.processing) :
    approved order.status=true ∧ orderFinal order.status=false := by
  rcases h with h|h <;> rw [h] <;> exact ⟨rfl,rfl⟩

def SeesApproved (order : Order) (seen : Seen) : Prop :=
  ∃ status,seen.order order.orderID=some status ∧ approved status=true ∧ orderFinal status=false

variable {written : Order} {seen : Seen}

theorem finalizes_order (h : SeesApproved order seen)
    (hid : written.orderID=order.orderID) : OpenWrite seen (.row (.updateOrder written)) ∧
      ∀ x∈updatedOrder (.row (.updateOrder written)),approved x.status=true →
        ∃ status,seen.order x.orderID=some status ∧ approved status=true := by
  obtain ⟨status,hseen,happroved,hopen⟩ := h
  rw [← hid] at hseen
  refine ⟨openWrite_order ⟨status,hseen,hopen⟩,fun x hx _ => ?_⟩
  cases hx
  exact ⟨status,hseen,happroved⟩

variable {w : AcmeWrite}

theorem finalizes_other (horder : updatedOrder w=none) (hch : updatedChallenge w=none)
    (hupdate : inserts w=false) : OpenWrite seen w ∧ ∀ x∈updatedOrder w,approved x.status=true →
      ∃ status,seen.order x.orderID=some status ∧ approved status=true := by
  refine ⟨openWrite_other horder hch hupdate,fun x hx => ?_⟩
  rw [horder] at hx
  cases hx

/-- A finalize call approves orders that it saw approved, and asks the issuer for one that it read as such. -/
theorem finalizeRules_followed (svc : ACMEService) (accountID orderID profileID : String) (csr : CertificateRequest)
    (csrPEM : String) : FinalizeRules svc accountID orderID profileID csr csrPEM
      (fun op r => acmeServer.CanAnswer (.inl op) r) (fun g op r => Finalizes orderID g (.inl op) r)
      (fun g op r => follow g (.inl op) r) (fun _ => True)
      (fun order g => SeesApproved order g.1 ∧ AskedFor orderID g.2 (.inl (.issueCertificate "" "" [] "" [] 0 false)))
      (fun order _ g => SeesApproved order g.1 ∧ AskedFor orderID g.2 (.inl (.issueCertificate "" "" [] "" [] 0 false)))
      (fun order _ g => SeesApproved order g.1) where
  quiet := by
    intro g op r hop
    cases op with
    | withinTx =>
      obtain ⟨cert,rfl⟩ := hop
      refine ⟨⟨trivial,forall_mem_singleton.mpr (finalizes_other rfl rfl rfl)⟩,?_⟩
      cases r with
      | error | ok => rfl
    | getProfile | firstAvailableIssuer | randIDSuffix | validateCertificate => exact ⟨⟨trivial,forall_mem_nil _⟩,rfl⟩
    | _ => exact hop.elim
  read := by
    intro g r _ hr
    refine ⟨⟨trivial,forall_mem_nil _⟩,fun order hok _ hstatus => ?_⟩
    subst hok
    obtain ⟨c,s,s',hperform⟩ := hr
    have hid := (lookup_some (readRow_ok (effect_of_acme hperform).1).1).2
    exact ⟨⟨order.status,Function.update_self _ _ _,approved_of_read_status hstatus⟩,order,rfl,hid,hstatus⟩
  reject := by
    intro g order problem r hfound _
    exact ⟨trivial,forall_mem_singleton.mpr (finalizes_order hfound.1 rfl)⟩
  mark := by
    intro g order profile r hfound _ _
    refine ⟨⟨trivial,forall_mem_singleton.mpr (finalizes_order hfound.1 rfl)⟩,?_⟩
    rintro rfl
    exact ⟨⟨.processing,look_processing g.1 order,rfl,rfl⟩,hfound.2⟩
  issue := by
    intro g order profile issuerID r hmarked
    refine ⟨⟨hmarked.2,forall_mem_nil _⟩,?_⟩
    exact hmarked.1
  fail := by
    intro g order profile problem r hissued
    exact ⟨trivial,forall_mem_singleton.mpr (finalizes_order hissued rfl)⟩
  complete := by
    intro g order profile version certID r hissued
    exact ⟨trivial,forall_mem_cons.mpr
      ⟨finalizes_other rfl rfl rfl,forall_mem_singleton.mpr (finalizes_order hissued rfl)⟩⟩

/-- An answer to a challenge approves an order on a list of its authorizations that was all valid with the verdict
counted in. -/
def Approves (events : Log acmeServer Unit) (op : acmeServer.Op) (_ : acmeServer.Res op) : Prop :=
  ∀ w∈writesOf op,∀ order∈updatedOrder w,approved order.status=true → ∃ authzID status authzs,
    ⟨(),.inr (.listAuthzsByOrder order.orderID),Except.ok authzs⟩∈events ∧ authzs≠[] ∧
    (∀ row∈authzs,statusWith authzID status row=.valid) ∧
    ∀ before,lastSet (AcmeWrite.authzStatus? authzID) (writesOf op) before=some status

def SparesOrders (op : acmeServer.Op) : Prop := ∀ w∈writesOf op,updatedOrder w=none

variable {events : Log acmeServer Unit}

theorem approves_of_spares (h : SparesOrders op) : Approves events op r := by
  intro w hw order horder
  rw [h w hw] at horder
  cases horder

theorem sparesOrders_of_nil (h : writesOf op=[]) : SparesOrders op := by
  intro w hw
  rw [h] at hw
  cases hw

variable {status : AuthzStatus}

theorem cascade_approves (hw : w∈cascade authzID status authzs order) (hwritten : written∈updatedOrder w)
    (happroved : approved written.status=true) :
    written.orderID=order.orderID ∧ authzs≠[] ∧ ∀ row∈authzs,statusWith authzID status row=.valid := by
  obtain ⟨next,rfl,hid,-,hstatus⟩ := mem_cascade hw
  cases hwritten
  rcases hstatus with hinvalid|hvalid
  · rw [hinvalid] at happroved
    cases happroved
  · exact ⟨hid,hvalid⟩

variable {ch : Challenge}

theorem lastSet_verdict (before : Option AuthzStatus) : lastSet (AcmeWrite.authzStatus? authzID)
      (.updateChallenge ch::.updateAuthzStatus authzID status::cascade authzID status authzs order) before=
        some status := by
  have hrest : ∀ w∈cascade authzID status authzs order,w.authzStatus? authzID=none := by
    intro w hw
    obtain ⟨written,rfl,-⟩ := mem_cascade hw
    rfl
  have hset : (AcmeWrite.updateAuthzStatus authzID status).authzStatus? authzID=some status := if_pos rfl
  have hlast := lastSet_none hrest (some status)
  rw [lastSet,foldl_cons,foldl_cons,hset]
  exact hlast

theorem approves_recordChallengeOutcome {authz : Authorization} {verr : Err} : (recordChallengeOutcome ch authz verr).Tracked acmeServer.CanAnswer
      Approves noted (fun _ _ => True) events := by
  intro now _
  refine ⟨approves_of_spares (sparesOrders_of_nil rfl),?_⟩
  refine tracked_acme fun listed _ => ?_
  refine ⟨approves_of_spares (sparesOrders_of_nil rfl),?_⟩
  cases listed with
  | error => trivial
  | ok authzs =>
    intro found hfound
    refine ⟨approves_of_spares (sparesOrders_of_nil rfl),?_⟩
    cases found with
    | error => trivial
    | ok order =>
      obtain ⟨c,s,s',hperform⟩ := hfound
      have hid := (lookup_some (readRow_ok (effect_of_acme hperform).1).1).2
      refine tracked_acme fun r _ => ⟨fun w hw written hwritten happroved => ?_,trivial⟩
      have hlater : w∈cascade ch.authzID (verdictStatus verr) authzs order := by
        rcases mem_cons.mp hw with rfl|hw
        · cases hwritten
        rcases mem_cons.mp hw with rfl|hw
        · cases hwritten
        · exact hw
      obtain ⟨hsame,hsome,hall⟩ := cascade_approves hlater hwritten happroved
      refine ⟨ch.authzID,verdictStatus verr,authzs,?_,hsome,hall,lastSet_verdict⟩
      rw [hsame,hid]
      exact mem_cons_of_mem _ mem_cons_self

theorem approves_answerChallenge {svc : AcmeServer Key} {challengeID : String} {accountJWK : Key} :
    (answerChallenge svc accountID challengeID accountJWK).Tracked acmeServer.CanAnswer Approves noted
      (fun _ _ => True) [] := by
  have huses : (respondToChallenge svc accountID challengeID accountJWK).Uses SparesOrders := by
    refine uses_respondToChallenge ?_ ?_ ?_ ?_ fun ch w hw => ?_
    · exact fun _ _ => sparesOrders_of_nil rfl
    · exact fun _ => sparesOrders_of_nil rfl
    · exact fun _ => sparesOrders_of_nil rfl
    · exact fun _ => sparesOrders_of_nil rfl
    rw [mem_singleton.mp hw]
    rfl
  have hanswer : (respondToChallenge svc accountID challengeID accountJWK).Tracked acmeServer.CanAnswer Approves noted
      (fun _ _ => True) [] := by
    refine Prog.tracked_of_uses ?_ huses trivial
    intro events op r _ hop
    exact ⟨approves_of_spares hop,trivial⟩
  refine Prog.tracked_seq hanswer fun r events _ => ?_
  match r with
  | .error err => trivial
  | .ok (_,none) => trivial
  | .ok (res,some sub) =>
    refine tracked_acme fun verr _ => ?_
    exact ⟨approves_of_spares (sparesOrders_of_nil rfl),approves_recordChallengeOutcome⟩

theorem uses_garbageCollect : garbageCollect.Uses fun op => writesOf op=[] :=
  uses_op rfl fun _ => uses_op rfl fun _ =>
    uses_op rfl fun _ => trivial

end Programs

section Runs

variable [DecidableEq ι] {svc : AcmeServer Key} {calls : ι→OrderCall Key} {s : AcmeState} {cfg : Config acmeServer ι Unit}

def Listed (cfg : Config acmeServer ι Unit) (t : ι) (orderID : String) (authzs : List Authorization) : Prop :=
  ⟨t,.inr (.listAuthzsByOrder orderID),Except.ok authzs⟩∈cfg.log

/-- Every operation of a finalize call in a run meets its conditions. -/
theorem finalizes_of_reach (hreach : Reach ok (initial (orderCalls svc calls) s) cfg) {profileID csrPEM : String}
    {csr : CertificateRequest} (hcall : calls t=.work (.finalize accountID orderID profileID csr csrPEM))
    {k : acmeServer.Res op→Acme Unit} (hthread : cfg.threads t=.call op k) (hr : acmeServer.CanAnswer op r) :
    Finalizes orderID (ghost look {} t cfg.log,ghost readOrder none t cfg.log) op r := by
  have htracked : (orderCalls svc calls t).Tracked acmeServer.CanAnswer (Finalizes orderID) follow (fun _ _ => True)
      ({},none) := by
    rw [orderCalls,hcall]
    exact Prog.tracked_bind.mpr (tracked_lift
      (tracked_finalize (finalizeRules_followed _ accountID orderID profileID csr csrPEM) trivial))
  have hnow := reach_thread_tracked (fun b _ c _ s' _ _ hperform => ⟨c,b.state,s',hperform⟩) htracked hreach
  rw [hthread,show ghost follow ({},none) t cfg.log=(ghost look {} t cfg.log,ghost readOrder none t cfg.log) from
    ghost_pair look readOrder {} none t cfg.log] at hnow
  exact (hnow r hr).1

/-- Every operation of a run is lawful. -/
theorem lawful_of_reach (hreach : Reach ok (initial (orderCalls svc calls) s) cfg)
    {k : acmeServer.Res op→Acme Unit} (hthread : cfg.threads t=.call op k) (hr : acmeServer.CanAnswer op r) :
    Lawful (ghost look {} t cfg.log) (Listed cfg t) op := by
  have hcan : ∀ (a : Config acmeServer ι Unit) op c r s',Reach ok (initial (orderCalls svc calls) s) a → ok a t op c →
      acmeServer.perform op c a.state=some (r,s') → acmeServer.CanAnswer op r :=
    fun a op c r s' _ _ hperform => ⟨c,a.state,s',hperform⟩
  cases hcall : calls t with
  | create accountID profileID identifiers =>
    have htracked : (orderCalls svc calls t).Tracked acmeServer.CanAnswer Creates (fun _ _ _ => ()) (fun _ _ => True) () := by
      rw [orderCalls,hcall]
      exact tracked_create svc accountID profileID identifiers
    have hnow := reach_thread_tracked hcan htracked hreach
    rw [hthread] at hnow
    rcases (hnow r hr).1 with hnil|hnew
    · exact lawful_of_nil hnil
    · exact .inl hnew
  | work call =>
    have hwatched : Watched (fun _ _ => True) (orderCalls svc calls t) {} := by
      rw [orderCalls,hcall]
      exact watched_program svc call
    have hopens := reach_thread_tracked hcan hwatched hreach
    rw [hthread] at hopens
    refine .inr ⟨(hopens r hr).1,?_⟩
    cases call with
    | finalize =>
      intro w hw order horder happroved
      exact .inl (((finalizes_of_reach hreach hcall hthread hr).2 w hw).2 order horder happroved)
    | respond =>
      have htracked : (orderCalls svc calls t).Tracked acmeServer.CanAnswer Approves noted (fun _ _ => True) [] := by
        rw [orderCalls,hcall]
        exact approves_answerChallenge
      have hnow := reach_thread_tracked hcan htracked hreach
      rw [hthread] at hnow
      intro w hw order horder happroved
      obtain ⟨authzID,status,authzs,hlist,hrest⟩ := (hnow r hr).1 w hw order horder happroved
      exact .inr ⟨authzID,status,authzs,mem_log_of_noted hlist,hrest⟩
    | sweep =>
      have huses : (orderCalls svc calls t).Uses fun op => writesOf op=[] := by
        rw [orderCalls,hcall]
        exact Prog.uses_bind uses_garbageCollect fun _ => trivial
      have hnow := reach_invariant (I := fun b : Config acmeServer ι Unit => (b.threads t).Uses fun op => writesOf op=[])
        huses (uses_step t) hreach
      rw [hthread] at hnow
      intro w hw
      rw [hnow.1] at hw
      cases hw

theorem evolves_reach {mid last : Config acmeServer ι Unit}
    (hmid : Reach notOvertaken (initial (orderCalls svc calls) s) mid) (hlast : Reach notOvertaken mid last) :
    Evolves mid.state last.state := by
  induction hlast with
  | refl => exact evolves_refl mid.state
  | @tail a b hbefore hstep ih =>
    obtain ⟨hthread,hok,hperform⟩ := hstep
    rename_i c r s'
    have hlawful := lawful_of_reach (hmid.trans hbefore) hthread ⟨c,a.state,s',hperform⟩
    exact ih.trans (evolves_step hlawful hok hperform)

/-- A list of authorizations that was read in a run is complete, and what it shows as valid is valid still. -/
theorem lists_of_listed (hfiled : ∀ a : Config acmeServer ι Unit,Reach notOvertaken (initial (orderCalls svc calls) s) a →
    Filed a.state) (hreach : Reach notOvertaken (initial (orderCalls svc calls) s) cfg)
    (h : Listed cfg t orderID authzs) : Lists cfg.state orderID authzs := by
  intro hsome authzID howner
  obtain ⟨a,c,s',hmoment⟩ := exists_moment hreach h not_mem_nil
  have hevolves := evolves_reach hmoment.before hmoment.reach
  obtain ⟨hread,-⟩ := answer_ok (acmeEffect_of_perform hmoment.performed)
  have hmem : ∀ row,row∈authzs ↔ row∈a.state.2.authzs ∧ row.orderID=orderID := by
    intro row
    rw [hread,mem_orderBy,mem_filter,decide_eq_true_eq]
  -- the list is not empty, so the order was there when it was read
  have hthere : (orderStatus orderID a.state.1).isSome=true := by
    obtain ⟨first,hfirst⟩ := exists_mem_of_ne_nil authzs hsome
    obtain ⟨hrow,rfl⟩ := (hmem first).mp hfirst
    exact (hfiled a hmoment.before).orders first hrow
  have howned := hevolves.closed orderID authzID hthere howner
  obtain ⟨row,hrow,hof⟩ := map_eq_some_iff.mp howned
  obtain ⟨hstored,hid⟩ := lookup_some hrow
  refine ⟨row,(hmem row).mpr ⟨hstored,hof⟩,hid,fun hvalid => ?_⟩
  refine hevolves.final.authzs authzID .valid rfl ?_
  rw [authzStatus,hrow,map_some,hvalid]

theorem filed_reach (hauthzs : s.2.authzs=[])
    (hreach : Reach ok (initial (orderCalls svc calls) s) cfg) : Filed cfg.state := by
  have hstart : Filed s := by
    refine ⟨?_,?_⟩ <;> rw [hauthzs]
    · exact nodup_nil
    · exact forall_mem_nil _
  refine reach_invariant (I := fun b : Config acmeServer ι Unit => Filed b.state) hstart ?_ hreach
  rintro a _ ha ⟨-,-,hperform⟩
  exact filed_step ha hperform

/-- In every run without overtaken writes, from a store without authorizations, the authorizations of an order that
can be finalized are valid. -/
theorem done_reach (hauthzs : s.2.authzs=[]) (hreach : Reach notOvertaken (initial (orderCalls svc calls) s) cfg) :
    Done cfg.state := by
  induction hreach with
  | refl =>
    intro authzID orderID status hauthz
    have hnone : authzOrder authzID (initial (orderCalls svc calls) s).state=none := by
      rw [authzOrder,show (initial (orderCalls svc calls) s).state.2.authzs=[] from hauthzs]
      rfl
    rw [hnone] at hauthz
    cases hauthz
  | @tail a b hbefore hstep ih =>
    obtain ⟨hthread,hok,hperform⟩ := hstep
    rename_i c r s'
    have hlawful := lawful_of_reach hbefore hthread ⟨c,a.state,s',hperform⟩
    refine done_step (filed_reach hauthzs hbefore) ih hlawful hok (fun orderID authzs hlisted => ?_) hperform
    exact lists_of_listed (fun x hx => filed_reach hauthzs hx) hbefore hlisted

theorem read_of_asked (hreach : Reach ok (initial (orderCalls svc calls) s) cfg)
    {u : ι} {profileID csrPEM : String} {csr : CertificateRequest}
    (hcall : calls u=.work (.finalize accountID orderID profileID csr csrPEM)) {issuerID commonName pem : String}
    {sans ekus : List String} {maxTTLSeconds : ℤ} {mustStaple : Bool} {r : Try IssuanceResult}
    (hasked : ⟨u,.inl (.issueCertificate issuerID commonName sans pem ekus maxTTLSeconds mustStaple),r⟩∈cfg.log) :
    ∃ order : Order,⟨u,.inl (.getOrderByID orderID),Except.ok order⟩∈cfg.log ∧
      (order.status=.ready ∨ order.status=.processing) := by
  obtain ⟨a,c,s',hmoment⟩ := exists_moment hreach hasked not_mem_nil
  obtain ⟨k,hthread,hafter⟩ := hmoment.after
  obtain ⟨order,hread,hid,hstatus⟩ :=
    (finalizes_of_reach hmoment.before hcall hthread ⟨c,a.state,s',hmoment.performed⟩).1
  obtain ⟨g,op,res,hmem,hnot,hturn⟩ := ghost_origin (P := fun g : Option Order => g=some order)
    (fun hn => some_ne_none order hn.symm) hread
  unfold readOrder at hturn
  split at hturn
  · rename_i id found
    cases hturn
    have hevent : ⟨u,.inl (.getOrderByID id),Except.ok order⟩∈cfg.log :=
      (log_suffix hafter).subset (mem_cons_of_mem _ hmem)
    obtain ⟨b,c',s'',hmoment'⟩ := exists_moment hreach hevent not_mem_nil
    have hnamed := (lookup_some (readRow_ok (effect_of_acme hmoment'.performed).1).1).2
    have hsame : id=orderID := hnamed.symm.trans hid
    subst hsame
    exact ⟨order,hevent,hstatus⟩
  · exact absurd hturn hnot

variable {s' : AcmeState}

theorem recorded_before_or_after {start a : Config acmeServer ι Unit} {c : acmeServer.Choice}
    (h : Moment ok start cfg a t op c r s') {e : Event acmeServer ι} (he : e∈cfg.log) (hne : e≠⟨t,op,r⟩) :
    e∈a.log ∨ ∃ mid b d s'',Reach ok start mid ∧ mid.state=s' ∧ Moment ok mid cfg b e.thread e.op d e.res s'' := by
  by_cases hold : e∈a.log
  · exact .inl hold
  obtain ⟨k,hthread,hafter⟩ := h.after
  have hnew : e∉(a.advance t op r (k r) s').log := by
    intro hmem
    rcases mem_cons.mp hmem with hsame|hmem
    · exact hne hsame
    · exact hold hmem
  obtain ⟨b,d,s'',hlater⟩ := exists_moment hafter he hnew
  have hstep : Step ok a (a.advance t op r (k r) s') := Step.run hthread h.admitted h.performed
  exact .inr ⟨_,b,d,s'',h.before.tail hstep,rfl,hlater⟩

variable {c : Choice}

theorem approved_of_read (h : acmeServer.perform (.inl (.getOrderByID orderID)) c s=some (Except.ok order,s'))
    (hstatus : order.status=.ready ∨ order.status=.processing) :
    orderStatus orderID s.1=some order.status ∧ approved order.status=true ∧ orderFinal order.status=false := by
  obtain ⟨hrow,-⟩ := readRow_ok (effect_of_acme h).1
  refine ⟨?_,approved_of_read_status hstatus⟩
  rw [orderStatus,hrow,map_some]

variable {n : ℕ}

theorem final_of_swept (h : acmeServer.perform (.inr .gcInvalidateExpiredOrders) c s=some (Except.ok n,s'))
    {expiresAt : Time} (hexpires : orderColumn Order.expiresAt orderID s=some expiresAt) (hlate : expiresAt<c.now) :
    ∃ status,orderStatus orderID s'.1=some status ∧ orderFinal status=true := by
  have heffect := acmeEffect_of_perform h
  simp only [acmeEffect] at heffect
  obtain ⟨-,hout⟩ := fallible_ok heffect
  cases hout
  obtain ⟨row,hrow,rfl⟩ := map_eq_some_iff.mp hexpires
  refine ⟨(sweptOrder c.now row).status,?_,?_⟩
  · rw [orderStatus,column_map (sweptOrder_key c.now),hrow,map_some]
  unfold sweptOrder lapsedOrder
  rw [decide_eq_true hlate]
  split
  · rfl
  rename_i hactive
  unfold activeOrder at hactive
  cases hstatus : row.status <;> simp only [hstatus] at hactive ⊢ <;> first | rfl | exact absurd rfl hactive

theorem expired_of_swept (h : acmeServer.perform (.inr .gcExpireAuthorizations) c s=some (Except.ok n,s'))
    (hrow : lookup Authorization.authzID row.authzID s.2.authzs=some row) (hlapsed : lapsedAuthz c.now row=true) :
    authzStatus row.authzID s'=some .expired ∧ authzOrder row.authzID s'=some row.orderID := by
  have heffect := acmeEffect_of_perform h
  simp only [acmeEffect] at heffect
  obtain ⟨-,hout⟩ := fallible_ok heffect
  cases hout
  refine ⟨?_,?_⟩
  · rw [authzStatus,column_map (sweptAuthz_key c.now),hrow,map_some,sweptAuthz,if_pos hlapsed]
  · rw [authzOrder,column_map (sweptAuthz_key c.now),hrow,map_some,sweptAuthz_order]

/-- In every run of new orders, answered challenges, sweeps and finalize calls without overtaken writes, a call that
asks an issuer for its order has read the order before every sweep of the orders later than its expiry, and no sweep
of the authorizations finds one of the order pending and past its expiry. -/
theorem expired_orders_not_issued (svc : AcmeServer Key) (calls : ι→OrderCall Key) (s : AcmeState)
    (hauthzs : s.2.authzs=[]) (cfg : Config acmeServer ι Unit)
    (hreach : Reach notOvertaken (initial (orderCalls svc calls) s) cfg) (u : ι)
    (accountID orderID profileID csrPEM : String) (csr : CertificateRequest)
    (hcall : calls u=.work (.finalize accountID orderID profileID csr csrPEM)) (issuerID commonName pem : String)
    (sans ekus : List String) (maxTTLSeconds : ℤ) (mustStaple : Bool) (r : Try IssuanceResult)
    (hasked : ⟨u,.inl (.issueCertificate issuerID commonName sans pem ekus maxTTLSeconds mustStaple),r⟩∈cfg.log) :
    (∀ a t c n s',Moment notOvertaken (initial (orderCalls svc calls) s) cfg a t (.inr .gcInvalidateExpiredOrders) c
        (Except.ok n) s' → ∀ expiresAt,orderColumn Order.expiresAt orderID a.state=some expiresAt → expiresAt<c.now →
      ∃ order : Order,⟨u,.inl (.getOrderByID orderID),Except.ok order⟩∈a.log) ∧
    ∀ a t c n s',Moment notOvertaken (initial (orderCalls svc calls) s) cfg a t (.inr .gcExpireAuthorizations) c
        (Except.ok n) s' → ∀ row∈a.state.2.authzs,row.orderID=orderID → row.status=.pending → c.now≤row.expiresAt := by
  obtain ⟨order,hread,hstatus⟩ := read_of_asked hreach hcall hasked
  refine ⟨fun a t c n s' hsweep expiresAt hexpires hlate => ?_,fun a t c n s' hsweep row hrow hof hpending => ?_⟩
  · rcases recorded_before_or_after hsweep hread (by intro h; cases h) with hold|⟨mid,b,d,s'',hmid,rfl,hlater⟩
    · exact ⟨order,hold⟩
    obtain ⟨status,hswept,hfinal⟩ := final_of_swept hsweep.performed hexpires hlate
    obtain ⟨hstored,-,hopen⟩ := approved_of_read hlater.performed hstatus
    have hstill := (evolves_reach hmid hlater.before).final.orders orderID status hfinal hswept
    rw [hstored] at hstill
    cases hstill
    rw [hopen] at hfinal
    cases hfinal
  by_contra hlate
  have hlapsed : lapsedAuthz c.now row=true := by
    rw [lapsedAuthz,hpending,decide_eq_true (not_le.mp hlate)]
    rfl
  have hfound := lookup_of_mem (filed_reach hauthzs hsweep.before).keys hrow
  rcases recorded_before_or_after hsweep hread (by intro h; cases h) with hold|⟨mid,b,d,s'',hmid,rfl,hlater⟩
  · obtain ⟨b,d,s'',hearlier⟩ := exists_moment hsweep.before hold not_mem_nil
    obtain ⟨hstored,happroved,-⟩ := approved_of_read hearlier.performed hstatus
    have hevolves := evolves_reach hearlier.before hearlier.reach
    have howner : authzOrder row.authzID a.state=some orderID := by rw [authzOrder,hfound,map_some,hof]
    have hvalid := done_reach hauthzs hearlier.before row.authzID orderID order.status
      (hevolves.closed orderID row.authzID (isSome_of_eq_some hstored) howner) hstored happroved
    have hstill := hevolves.final.authzs row.authzID .valid rfl hvalid
    rw [authzStatus,hfound,map_some,hpending] at hstill
    cases hstill
  · obtain ⟨hexpired,howner⟩ := expired_of_swept hsweep.performed hfound hlapsed
    obtain ⟨hstored,happroved,-⟩ := approved_of_read hlater.performed hstatus
    have hevolves := evolves_reach hmid hlater.before
    have hvalid := done_reach hauthzs (hmid.trans hlater.before) row.authzID orderID order.status
      (hevolves.owners orderID row.authzID (hof ▸ howner)) hstored happroved
    have hstill := hevolves.final.authzs row.authzID .expired rfl hexpired
    rw [hvalid] at hstill
    cases hstill

def sampleServer : AcmeServer Unit :=
  {toLower := id, quote := id, thumbprint := fun _ => .ok [], defaultAuthMode := "challenge", orderTTL := 300,
    authzTTL := 100}

/-- An order is made, its challenge answered, and it is finalized; one thread sweeps. -/
def sampleCalls : Fin 4→OrderCall Unit
  | 0 => .create "acc" "p" [⟨"dns","a"⟩]
  | 1 => .work (.respond "acc" "acme-chall-o" ())
  | 2 => .work (.finalize "acc" "acme-ord-o" "p" ⟨"a",[]⟩ "csr")
  | 3 => .work .sweep

def sampleStart : AcmeState :=
  ({profiles := [{id := "p"}], issuers := ["iss"]},
    {accounts := [{accountID := "acc", jwkThumbprint := "th", jwkPEM := "pem", status := .valid, profileID := "p"}]})

def sampleAsked : Event acmeServer (Fin 4) :=
  ⟨2,.inl (.issueCertificate "iss" "a" ["a"] "csr" ["serverAuth"] 0 false), Except.ok ⟨"","","",zeroTime,zeroTime⟩⟩

/-- The order is made, the tables swept in time, the challenge answered, and the issuer asked. -/
def sampleSchedule : List (Fin 4×Choice) :=
  List.replicate 8 (0,{fresh := "o"})++List.replicate 3 (3,{noFault with now := 50})++
    List.replicate 9 (1,{noFault with now := 60})++List.replicate 6 (2,{noFault with now := 70})

/-- An order is issued in a run with a sweep that came in time. -/
theorem expired_orders_not_issued_sample : ∃ cfg,
    Reach notOvertaken (initial (orderCalls sampleServer sampleCalls) sampleStart) cfg ∧ sampleAsked∈cfg.log ∧
      ∀ a t c n s',Moment notOvertaken (initial (orderCalls sampleServer sampleCalls) sampleStart) cfg a t
          (.inr .gcExpireAuthorizations) c (Except.ok n) s' →
        ∀ row∈a.state.2.authzs,row.orderID="acme-ord-o" → row.status=.pending → c.now≤row.expiresAt := by
  refine reaches_view sampleSchedule (fun cfg => cfg.log.head?) (some sampleAsked) (by rfl) fun cfg hreach hhead => ?_
  have hasked := mem_of_head? hhead
  exact ⟨hasked,(expired_orders_not_issued sampleServer sampleCalls sampleStart rfl cfg hreach 2 "acc"
    "acme-ord-o" "p" "csr" ⟨"a",[]⟩ rfl "iss" "a" "csr" ["a"] ["serverAuth"] 0 false _ hasked).2⟩

def clockForward : StepCondition acmeServer ι Unit := fun cfg _ _ c => cfg.state.2.clock≤c.now

instance (cfg : Config acmeServer ι Unit) (t : ι) (op : acmeServer.Op) (c : acmeServer.Choice) :
    Decidable (clockForward cfg t op c) := inferInstanceAs (Decidable (cfg.state.2.clock≤c.now))

/-- The issuer has answered with a certificate. -/
def issued (log : Log acmeServer ι) : Bool :=
  log.any fun e => match e with
    | ⟨_,.inl (.issueCertificate _ _ _ _ _ _ _),.ok _⟩ => true
    | _ => false

/-- The order and the authorization of the sample run, with their expiries and the time. -/
structure Shown where
  order : Option (OrderStatus×Time)
  authz : Option (AuthzStatus×String×Time)
  clock : Time
  issued : Bool
deriving DecidableEq

def shown (cfg : Config acmeServer (Fin 4) Unit) : Shown where
  order := orderColumn (fun row => (row.status,row.expiresAt)) "acme-ord-o" cfg.state
  authz := (lookup Authorization.authzID "acme-authz-o" cfg.state.2.authzs).map
    fun row => (row.status,row.orderID,row.expiresAt)
  clock := cfg.state.2.clock
  issued := issued cfg.log

/-- With a clock that goes forward and no sweep, the challenge of an authorization that expired at 100 is judged valid
at 200 or later, and the issuer makes a certificate at 400 or later for the order, which expired at 300. -/
theorem lapsed_order_issued : ∃ lapsed late cfg : Config acmeServer (Fin 4) Unit,
    Reach clockForward (initial (orderCalls sampleServer sampleCalls) sampleStart) lapsed ∧
    Reach clockForward lapsed late ∧ Reach clockForward late cfg ∧
    shown lapsed=⟨some (.pending,300),some (.pending,"acme-ord-o",100),200,false⟩ ∧
    shown late=⟨some (.ready,300),some (.valid,"acme-ord-o",100),400,false⟩ ∧
    shown cfg=⟨some (.processing,300),some (.valid,"acme-ord-o",100),400,true⟩ := by
  have hrun : ((initial (orderCalls sampleServer sampleCalls) sampleStart).runSchedule clockForward
      (List.replicate 8 (0,{fresh := "o"})++List.replicate 3 (1,{noFault with now := 200}))).bind (fun lapsed =>
        (lapsed.runSchedule clockForward
          (List.replicate 6 (1,{noFault with now := 200})++[(2,{noFault with now := 400})])).bind fun late =>
            (late.runSchedule clockForward (List.replicate 5 (2,{noFault with now := 400}))).map fun cfg =>
              (shown lapsed,shown late,shown cfg))=
      some (⟨some (.pending,300),some (.pending,"acme-ord-o",100),200,false⟩,
        ⟨some (.ready,300),some (.valid,"acme-ord-o",100),400,false⟩,
        ⟨some (.processing,300),some (.valid,"acme-ord-o",100),400,true⟩) := by
    decide
  obtain ⟨lapsed,hlapsed,hrest⟩ := bind_eq_some_iff.mp hrun
  obtain ⟨late,hlate,hlast⟩ := bind_eq_some_iff.mp hrest
  obtain ⟨cfg,hreach,hviews⟩ := reach_of_view hlast
  obtain ⟨hfirst,hlater⟩ := Prod.mk.inj hviews
  obtain ⟨hsecond,hthird⟩ := Prod.mk.inj hlater
  exact ⟨lapsed,late,cfg,reach_of_runSchedule hlapsed,reach_of_runSchedule hlate,hreach,hfirst,hsecond,hthird⟩

end Runs

end Certctl.AcmeExpiry
