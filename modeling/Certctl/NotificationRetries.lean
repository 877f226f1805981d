import Certctl.RecordTable
import Certctl.DomainRecords
import Mathlib.Data.List.Sort
import Mathlib.Algebra.Group.Nat.Defs

/-!
# Retries of failed notifications

A notification is sent once when it is created or found pending; a retry
sweep takes the failed ones whose next retry is due and tries again, up to
a number of attempts, and an operator may put a notification back to
pending. The first send and the sweep record a failure in different columns,
and the sweep's query passes over rows without a retry time.

A sweep reads its batch at once and then works through it, while sends,
requeues and other sweeps go on: every step below is one statement on the
table.
-/

namespace Certctl.NotificationRetries

open RecordTable DomainRecords Function
open List hiding modify

/-- The states of a notification. -/
inductive NotificationStatus where
  | pending
  | sent
  | failed
  | dead
deriving DecidableEq

/-- A row of the notification events table, as far as delivery goes. -/
structure NotificationEvent where
  id : String
  channel : String
  status : NotificationStatus := .pending
  retryCount : ℕ := 0
  /-- When the sweep may take it; absent for never. -/
  nextRetryAt : Option Time := none
deriving DecidableEq

def notifRetryMaxAttempts : ℕ := 5

def notifRetryBackoffCap : Time := 3600*second

def notifRetrySweepLimit : ℕ := 1000

def updateStatus (id : String) (status : NotificationStatus) : List NotificationEvent→List NotificationEvent :=
  modify NotificationEvent.id id fun row => {row with status := status}

/-- Count an attempt and set the time of the next one; the status stays. -/
def recordFailedAttempt (id : String) (nextRetryAt : Time) : List NotificationEvent→List NotificationEvent :=
  modify NotificationEvent.id id fun row => {row with retryCount := row.retryCount+1, nextRetryAt := some nextRetryAt}

/-- Give a row up. -/
def markAsDead (id : String) : List NotificationEvent→List NotificationEvent :=
  modify NotificationEvent.id id fun row => {row with status := .dead, nextRetryAt := none}

/-- Put a row back to pending as if it were new. -/
def requeue (id : String) : List NotificationEvent→List NotificationEvent :=
  modify NotificationEvent.id id fun row => {row with status := .pending, retryCount := 0, nextRetryAt := none}

/-- The sweep's query: failed, due and with attempts left. -/
def retryEligible (now : Time) (row : NotificationEvent) : Bool :=
  row.status=.failed && row.nextRetryAt.any (·≤now) && row.retryCount<notifRetryMaxAttempts

/-- The rows a sweep reads, those that wait longest first. -/
def listRetryEligible (now : Time) (table : List NotificationEvent) : List NotificationEvent :=
  ((table.filter (retryEligible now)).insertionSort fun a b => a.nextRetryAt.getD 0 ≤ b.nextRetryAt.getD 0).take
    notifRetrySweepLimit

/-- What a first send records; a channel without notifier counts as delivered. -/
def sendNotification (registry : List String) (id channel : String) (delivered : Bool) :
    List NotificationEvent→List NotificationEvent :=
  if registry.contains channel && !delivered then updateStatus id .failed else updateStatus id .sent

/-- What the sweep records of one row that it has read. -/
def retryRow (registry : List String) (row : NotificationEvent) (delivered : Bool) (now : Time) :
    List NotificationEvent→List NotificationEvent :=
  if !registry.contains row.channel || delivered then updateStatus row.id .sent
  else if notifRetryMaxAttempts-1 ≤ row.retryCount then markAsDead row.id
  else recordFailedAttempt row.id (now+min ((2^row.retryCount : ℕ)*(60*second)) notifRetryBackoffCap)

/-- The table and what each sweep has still to work through. -/
structure World (ι : Type) where
  table : List NotificationEvent := []
  batch : ι→List NotificationEvent := fun _ => []

/-- One statement of a call; a statement that fails is logged and changes nothing. -/
inductive Statement (ι : Type) where
  | create (id channel : String)
  | send (id channel : String) (delivered : Bool)
  | beginSweep (t : ι) (now : Time)
  | retry (t : ι) (delivered : Bool) (now : Time) (stored : Bool)
  | requeue (id : String)

variable {ι : Type} [DecidableEq ι] {registry : List String}

def step (registry : List String) (w : World ι) : Statement ι→World ι
  | .create id channel =>
    if (w.table.any fun row => row.id=id) then w else {w with table := w.table++[{ id := id, channel := channel }]}
  | .send id channel delivered => {w with table := sendNotification registry id channel delivered w.table}
  | .beginSweep t now => {w with batch := Function.update w.batch t (listRetryEligible now w.table)}
  | .retry t delivered now stored =>
    match w.batch t with
    | [] => w
    | row::rest =>
      { table := if stored then retryRow registry row delivered now w.table else w.table
        batch := Function.update w.batch t rest }
  | .requeue id => {w with table := requeue id w.table}

/-- A failed row with attempts left has a retry time. -/
def Timed (row : NotificationEvent) : Prop :=
  row.status=.failed → row.retryCount<notifRetryMaxAttempts → row.nextRetryAt≠none

/-- No delivery outside the sweep fails, and sweeps do not overlap. -/
def InTime (registry : List String) (w : World ι) : Statement ι→Prop
  | .send _ channel delivered => (registry.contains channel && !delivered)=false
  | .beginSweep _ _ => ∀ t,w.batch t=[]
  | _ => True

/-- Worlds reached by statements that all meet the condition, from any table with unique keys in which every
failed row with attempts left has a retry time, while no sweep is under way. -/
inductive Reach (registry : List String) (ok : World ι→Statement ι→Prop) : World ι→Prop where
  | start {table : List NotificationEvent} : (table.map NotificationEvent.id).Nodup →
      (∀ row∈table,Timed row ∧ row.retryCount ≤ notifRetryMaxAttempts) → Reach registry ok {table := table}
  | next {w : World ι} {s : Statement ι} : Reach registry ok w → ok w s → Reach registry ok (step registry w s)

variable {w : World ι} {s : Statement ι}

/-- What holds between statements: the sweep under way knows no row with fewer attempts than the table has. -/
structure Inv (w : World ι) : Prop where
  keys : (w.table.map NotificationEvent.id).Nodup
  rows : ∀ row∈w.table,Timed row ∧ row.retryCount ≤ notifRetryMaxAttempts
  one : ∀ t u,w.batch t≠[] → w.batch u≠[] → t=u
  batchKeys : ∀ t,((w.batch t).map NotificationEvent.id).Nodup
  behind : ∀ t,∀ r∈w.batch t,∀ row∈w.table,row.id=r.id → row.retryCount ≤ r.retryCount

omit [DecidableEq ι] in
theorem Inv.modify (h : Inv w) {id : String} {f : NotificationEvent→NotificationEvent} (hf : ∀ row,(f row).id=row.id)
    (hrow : ∀ row∈w.table,row.id=id → (Timed (f row) ∧ (f row).retryCount ≤ notifRetryMaxAttempts) ∧
      ((f row).retryCount ≤ row.retryCount ∨ ∀ t,∀ r∈w.batch t,r.id≠id)) :
    Inv {w with table := modify NotificationEvent.id id f w.table} where
  keys := by
    rw [map_modify hf w.table]
    exact h.keys
  rows := by
    intro row' hrow'
    obtain ⟨row,hmem,rfl⟩ := mem_map.mp hrow'
    split
    · rename_i hid
      exact (hrow row hmem hid).1
    · exact h.rows row hmem
  one := h.one
  batchKeys := h.batchKeys
  behind := by
    intro t r hr row' hrow' hid
    obtain ⟨row,hmem,rfl⟩ := mem_map.mp hrow'
    by_cases hmine : row.id=id
    · rw [if_pos hmine] at hid ⊢
      rw [hf] at hid
      rcases (hrow row hmem hmine).2 with hle|hnone
      · exact hle.trans (h.behind t r hr row hmem hid)
      · exact absurd (hid.symm.trans hmine) (hnone t r hr)
    · rw [if_neg hmine] at hid ⊢
      exact h.behind t r hr row hmem hid

omit [DecidableEq ι] in
theorem Inv.updateStatus (h : Inv w) {id : String} {status : NotificationStatus} (hstatus : status≠.failed) :
    Inv {w with table := updateStatus id status w.table} :=
  h.modify (fun _ => rfl) fun row hmem _ =>
    ⟨⟨fun hfailed => absurd hfailed hstatus,(h.rows row hmem).2⟩,.inl le_rfl⟩

theorem mem_listRetryEligible {now : Time} {table : List NotificationEvent} {row : NotificationEvent}
    (h : row∈listRetryEligible now table) : row∈table ∧ retryEligible now row=true :=
  mem_filter.mp ((mem_insertionSort _).mp (mem_of_mem_take h))

theorem keys_listRetryEligible {now : Time} {table : List NotificationEvent}
    (h : (table.map NotificationEvent.id).Nodup) :
    ((listRetryEligible now table).map NotificationEvent.id).Nodup := by
  have hfilter := h.sublist (filter_sublist (p := retryEligible now) |>.map NotificationEvent.id)
  have hperm := (perm_insertionSort (fun a b : NotificationEvent => a.nextRetryAt.getD 0 ≤ b.nextRetryAt.getD 0)
    (table.filter (retryEligible now))).map NotificationEvent.id
  exact (hperm.nodup_iff.mpr hfilter).sublist ((take_sublist _ _).map _)

omit [DecidableEq ι] in
theorem Inv.create (h : Inv w) {id : String} (channel : String) (hfresh : ∀ row∈w.table,row.id≠id) :
    Inv {w with table := w.table++[{ id := id, channel := channel }]} where
  keys := keys_append h.keys hfresh
  rows := by
    intro row hrow
    rcases mem_append_row.mp hrow with hold|rfl
    · exact h.rows row hold
    · exact ⟨fun hfailed => absurd hfailed (by decide : NotificationStatus.pending≠.failed),Nat.zero_le _⟩
  one := h.one
  batchKeys := h.batchKeys
  behind := by
    intro t r hr row hrow hid
    rcases mem_append_row.mp hrow with hold|rfl
    · exact h.behind t r hr row hold hid
    · exact Nat.zero_le _

/-- A sweep begins while no other is under way: it reads the counts as they are. -/
theorem Inv.beginSweep (h : Inv w) (hidle : ∀ t,w.batch t=[]) (t : ι) (now : Time) :
    Inv {w with batch := Function.update w.batch t (listRetryEligible now w.table)} := by
  have hother : ∀ u,u≠t → Function.update w.batch t (listRetryEligible now w.table) u=[] := fun u hu =>
    (update_of_ne hu _ _).trans (hidle u)
  refine ⟨h.keys,h.rows,fun u v hu hv => ?_,fun u => ?_,fun u r hr row hrow hid => ?_⟩
  · have hut : u=t := by_contra fun hne => hu (hother u hne)
    have hvt : v=t := by_contra fun hne => hv (hother v hne)
    exact hut.trans hvt.symm
  · dsimp only
    by_cases hu : u=t
    · subst hu
      rw [update_self]
      exact keys_listRetryEligible h.keys
    · rw [hother u hu]
      exact nodup_nil
  · dsimp only at hr
    by_cases hu : u=t
    · subst hu
      rw [update_self] at hr
      rw [inj_on_of_nodup_map h.keys hrow (mem_listRetryEligible hr).1 hid]
    · rw [hother u hu] at hr
      exact absurd hr not_mem_nil

section Retry

variable {t : ι} {r : NotificationEvent} {rest : List NotificationEvent}

/-- A sweep takes the next row of its batch. -/
theorem Inv.taken (h : Inv w) (hbatch : w.batch t=r::rest) : Inv {w with batch := Function.update w.batch t rest} := by
  have hsub : ∀ u,((Function.update w.batch t rest) u).Sublist (w.batch u) := by
    intro u
    by_cases hu : u=t
    · subst hu
      rw [update_self,hbatch]
      exact sublist_cons_self r rest
    · rw [update_of_ne hu]
  refine ⟨h.keys,h.rows,fun u v hu hv => ?_,fun u => (h.batchKeys u).sublist ((hsub u).map _),
    fun u q hq row hrow hid => h.behind u q ((hsub u).subset hq) row hrow hid⟩
  exact h.one u v (fun hnil => hu (sublist_nil.mp (hnil ▸ hsub u))) fun hnil => hv (sublist_nil.mp (hnil ▸ hsub v))

/-- No sweep has still to work on the row that was just taken. -/
theorem Inv.not_left (h : Inv w) (hbatch : w.batch t=r::rest) (u : ι) :
    ∀ q∈Function.update w.batch t rest u,q.id≠r.id := by
  intro q hq hid
  by_cases hu : u=t
  · subst hu
    have hnodup := h.batchKeys u
    rw [hbatch] at hnodup
    rw [update_self] at hq
    exact (nodup_cons.mp hnodup).1 (mem_map.mpr ⟨q,hq,hid⟩)
  · rw [update_of_ne hu] at hq
    refine hu (h.one u t (ne_nil_of_mem hq) ?_)
    rw [hbatch]
    exact cons_ne_nil r rest

/-- What a sweep records of a row keeps the count within the attempts there are: the count that it has read
is not behind the one in the table. -/
theorem Inv.retry (h : Inv w) (hbatch : w.batch t=r::rest) (delivered : Bool) (now : Time) :
    Inv { table := retryRow registry r delivered now w.table, batch := Function.update w.batch t rest } := by
  have hrest := h.taken hbatch
  unfold retryRow
  split
  · exact hrest.updateStatus (by decide)
  split
  · exact hrest.modify (fun _ => rfl) fun row hrow _ =>
      ⟨⟨fun hfailed => absurd hfailed (by decide : NotificationStatus.dead≠.failed),(h.rows row hrow).2⟩,.inl le_rfl⟩
  rename_i hleft
  refine hrest.modify (fun _ => rfl) fun row hrow hid =>
    ⟨⟨fun _ _ => Option.some_ne_none _,?_⟩,.inr (h.not_left hbatch)⟩
  have hle := h.behind t r (hbatch ▸ mem_cons_self) row hrow hid
  dsimp only
  omega

end Retry

theorem inv_step (h : Inv w) (hok : InTime registry w s) : Inv (step registry w s) := by
  cases s with
  | create id channel =>
    dsimp only [step]
    split
    · exact h
    rename_i hnew
    exact h.create channel fun row hrow hid => hnew (any_eq_true.mpr ⟨row,hrow,decide_eq_true hid⟩)
  | send id channel delivered =>
    dsimp only [step,sendNotification]
    rw [hok,if_neg Bool.false_ne_true]
    exact h.updateStatus (by decide)
  | beginSweep t now => exact h.beginSweep hok t now
  | retry t delivered now stored =>
    cases hbatch : w.batch t with
    | nil =>
      simp only [step,hbatch]
      exact h
    | cons r rest =>
      simp only [step,hbatch]
      split
      · exact h.retry hbatch delivered now
      · exact h.taken hbatch
  | requeue =>
    exact h.modify (fun _ => rfl) fun row _ _ =>
      ⟨⟨fun hfailed => absurd hfailed (by decide : NotificationStatus.pending≠.failed),Nat.zero_le _⟩,.inl (Nat.zero_le _)⟩

theorem inv_reach (h : Reach registry (InTime registry) w) : Inv w := by
  induction h with
  | start hkeys hrows =>
    exact ⟨hkeys,hrows,fun t _ ht => absurd rfl ht,fun _ => nodup_nil,fun _ r hr => absurd hr not_mem_nil⟩
  | next _ hok ih => exact inv_step ih hok

/-- In every run in which no delivery outside the sweep fails and sweeps do not overlap, a failed row with
attempts left has a retry time, is read by every later sweep that has room for it, and no row uses up more
attempts than there are. -/
theorem failed_notifications_retried (h : Reach registry (InTime registry) w) : ∀ row∈w.table,
    row.retryCount ≤ notifRetryMaxAttempts ∧ (row.status=.failed → row.retryCount<notifRetryMaxAttempts →
      ∃ due,row.nextRetryAt=some due ∧ ∀ now,due ≤ now →
        (w.table.filter (retryEligible now)).length ≤ notifRetrySweepLimit → row∈listRetryEligible now w.table) := by
  intro row hrow
  obtain ⟨htimed,hcount⟩ := (inv_reach h).rows row hrow
  refine ⟨hcount,fun hfailed hleft => ?_⟩
  obtain ⟨due,hdue⟩ := Option.ne_none_iff_exists'.mp (htimed hfailed hleft)
  refine ⟨due,hdue,fun now hnow hroom => ?_⟩
  have hsorted := length_insertionSort (fun a b : NotificationEvent => a.nextRetryAt.getD 0 ≤ b.nextRetryAt.getD 0)
    (w.table.filter (retryEligible now))
  rw [listRetryEligible,take_of_length_le (hsorted.trans_le hroom)]
  refine (mem_insertionSort _).mpr (mem_filter.mpr ⟨hrow,?_⟩)
  simp only [retryEligible,hfailed,hdue,Option.any_some,decide_eq_true hnow,decide_eq_true hleft,decide_true,Bool.and_self]

/-- A row that a sweep has failed to deliver once. -/
def sampleRow : NotificationEvent :=
  { id := "n", channel := "email", status := .failed, retryCount := 1, nextRetryAt := some 5 }

/-- A sweep reads it and fails again; every sweep after the two minutes of its new delay reads it once more. -/
theorem failed_notifications_retried_sample : ∃ w : World Unit,Reach ["email"] (InTime ["email"]) w ∧
    ∃ row∈w.table,row.id="n" ∧ row.status=.failed ∧ row.retryCount=2 ∧
      ∀ now,10+120*second ≤ now → row∈listRetryEligible now w.table := by
  have hreach : Reach ["email"] (InTime ["email"]) (step ["email"] (step ["email"] ({table := [sampleRow]} : World Unit)
      (.beginSweep () 10)) (.retry () false 10 true)) := by
    refine .next (.next (.start (nodup_singleton _) (forall_mem_singleton.mpr ⟨?_,by decide⟩)) fun _ => rfl) trivial
    exact fun _ _ => Option.some_ne_none _
  refine ⟨_,hreach,_,mem_cons_self,rfl,rfl,rfl,fun now hnow => ?_⟩
  obtain ⟨due,hdue,hread⟩ := (failed_notifications_retried hreach _ mem_cons_self).2 rfl (by decide)
  have hbackoff : due=10+min ((2^1 : ℕ)*(60*second)) notifRetryBackoffCap := (Option.some.inj hdue).symm
  have hpast : due ≤ now := by
    rw [hbackoff]
    exact hnow
  exact hread now hpast ((length_filter_le _ _).trans (by decide))

/-- The first send of a notification fails: it is failed, has all its attempts left and no retry time. -/
theorem first_failure_not_retried : ∃ w : World Unit,Reach ["email"] (fun _ _ => True) w ∧
    ∃ row∈w.table,row.status=.failed ∧ row.retryCount<notifRetryMaxAttempts ∧ row.nextRetryAt=none ∧
      ∀ now,row∉listRetryEligible now w.table := by
  have hreach : Reach ["email"] (fun _ _ => True) (step ["email"] (step ["email"] ({} : World Unit) (.create "n" "email"))
      (.send "n" "email" false)) := .next (.next (.start nodup_nil (forall_mem_nil _)) trivial) trivial
  refine ⟨_,hreach,_,mem_cons_self,rfl,by decide,rfl,fun now hrow => ?_⟩
  cases (mem_listRetryEligible hrow).2

end Certctl.NotificationRetries
