import Certctl.AtomicInterleaving
import Certctl.KeyedMap
import Certctl.SlidingWindow

/-!
# The rate limiter in the database

Every call is one transaction: it makes sure that the row of its key is
there, locks and reads it, prunes and decides as the in-memory limiter does,
writes the row back and commits. A sweep deletes rows that were last updated
before a horizon. Locks are held to the commit, so the calls for a key take
effect one after the other in the order in which they lock the row. They get
the verdicts of an in-memory limiter in that order, unless a sweep deletes
the row that a call has found but not yet locked, which lets the call pass
without a trace, or timestamps that are within the window of a later call.
-/

namespace Certctl.PostgresLimiter

open AtomicProgram AtomicInterleaving DomainRecords KeyedMap SlidingLog SlidingWindow Option Function
open List

variable {ι : Type}

/-- The row of a key. -/
structure BucketRow (ι : Type) where
  timestamps : List Time
  /-- Time of the call that last wrote the row. -/
  updatedAt : Time
  holder : Option ι := none
  /-- The holder has inserted the row and not yet committed. -/
  fresh : Bool := false

abbrev Buckets (ι : Type) := AList fun _ : String => BucketRow ι

/-- Statements on the table, and the clock of a sweep. -/
inductive Statement (ι : Type) where
  | ensureRow (tx : ι) (key : String) (now : Time)
  | lockRow (tx : ι) (key : String)
  | updateRow (tx : ι) (key : String) (timestamps : List Time) (now : Time)
  | commit (tx : ι)
  /-- Delete the rows last updated before the cutoff. -/
  | deleteStale (cutoff : Time)
  | timeNow

def Statement.tx : Statement ι→Option ι
  | .ensureRow tx _ _ => some tx
  | .lockRow tx _ => some tx
  | .updateRow tx _ _ _ => some tx
  | .commit tx => some tx
  | .deleteStale _ => none
  | .timeNow => none

def Statement.Answer : Statement ι→Type
  | .ensureRow _ _ _ => Unit
  | .lockRow _ _ => Option (List Time)
  | .updateRow _ _ _ _ => Unit
  | .commit _ => Unit
  | .deleteStale _ => ℕ
  | .timeNow => Time

def doomed (cutoff : Time) (row : BucketRow ι) : Bool := row.updatedAt<cutoff && !row.fresh

section Table

variable [DecidableEq ι]

/-- The row as its holder leaves it at the commit. -/
def released (tx : ι) (row : BucketRow ι) : BucketRow ι :=
  if row.holder=some tx then {row with holder := none,fresh := false} else row

/-- The effect of a statement, which waits for rows that others hold. An uncommitted row of another transaction makes
an insertion wait and is not seen otherwise; an insertion does not wait for a committed row. -/
def effect (now : Time) (s : Buckets ι) : (op : Statement ι)→Option (op.Answer×Buckets ι)
  | .ensureRow tx key time =>
    match s.lookup key with
    | none => some ((),s.insert key ⟨[],time,some tx,true⟩)
    | some row => if row.fresh=true ∧ row.holder≠some tx then none else some ((),s)
  | .lockRow tx key =>
    match s.lookup key with
    | none => some (none,s)
    | some row =>
      if row.holder=none ∨ row.holder=some tx then
        some (some row.timestamps,s.insert key {row with holder := some tx})
      else if row.fresh then some (none,s)
      else none
  | .updateRow tx key timestamps time =>
    match s.lookup key with
    | none => some ((),s)
    | some row =>
      if row.holder=none ∨ row.holder=some tx then
        some ((),s.insert key {row with timestamps := timestamps,updatedAt := time,holder := some tx})
      else if row.fresh then some ((),s)
      else none
  | .commit tx => some ((),mapValues (fun _ row => released tx row) s)
  | .deleteStale cutoff =>
    if s.entries.any fun e => doomed cutoff e.2 && e.2.holder.isSome then none
    else some (s.entries.countP fun e => doomed cutoff e.2,sieve (fun _ row => !doomed cutoff row) s)
  | .timeNow => some (now,s)

variable (ι) in
abbrev table : Store where
  Op := Statement ι
  Res := Statement.Answer
  State := Buckets ι
  Choice := Time
  perform := fun op now s => effect now s op

/-- A limiter in the database. -/
structure PostgresSlidingWindowLimiter where
  /-- Calls that a key may make in a window. -/
  maxN : ℤ
  window : Time
  disabled : Bool

def newPostgresSlidingWindowLimiter (maxN : ℤ) (window : Time) : PostgresSlidingWindowLimiter where
  maxN := maxN
  window := if window≤0 then 24*3600*second else window
  disabled := decide (maxN≤0)

/-- Calls in progress, with the table and the log. -/
abbrev Running (ι : Type) [DecidableEq ι] := Config (table ι) ι Err

def sql (op : Statement ι) : Prog (table ι) op.Answer := Prog.perform (S := table ι) op

def refusal (admitted : Bool) : Err := if admitted then none else some errRateLimited

/-- Decide on the timestamps read, write them back and commit. -/
def PostgresSlidingWindowLimiter.settle (l : PostgresSlidingWindowLimiter) (tx : ι) (key : String) (now : Time)
    (ts : List Time) : Prog (table ι) Err := do
  let pruned := pruneOlderThan ts (now-l.window)
  let rateLimited := decide (l.maxN≤pruned.length)
  let _ ← sql (.updateRow tx key (if rateLimited then pruned else pruned++[now]) now)
  let _ ← sql (.commit tx)
  pure (if rateLimited then some errRateLimited else none)

/-- Whether an event is permitted now. A call that finds no row has written nothing, and rolls back. -/
def PostgresSlidingWindowLimiter.allow (l : PostgresSlidingWindowLimiter) (tx : ι) (key : String) (now : Time) :
    Prog (table ι) Err :=
  if l.disabled then pure none
  else if key="" then pure none
  else do
    let _ ← sql (.ensureRow tx key now)
    match ← sql (.lockRow tx key) with
    | none => pure none
    | some ts => l.settle tx key now ts

def garbageCollect (maxWindow : Time) : Prog (table ι) Unit :=
  if maxWindow≤0 then pure ()
  else do
    let (now : Time) ← sql .timeNow
    let _ ← sql (.deleteStale (now-maxWindow))
    pure ()

/-- A call of the limiter, or a sweep. -/
inductive LimiterCall where
  /-- A call at the time that the caller gives. -/
  | allow (key : String) (now : Time)
  | sweep

/-- What a call does; it stands for its own transaction. -/
def LimiterCall.program (l : PostgresSlidingWindowLimiter) (maxWindow : Time) (tx : ι) :
    LimiterCall→Prog (table ι) Err
  | .allow key now => l.allow tx key now
  | .sweep => do
    garbageCollect maxWindow
    pure none

def limiterCalls (l : PostgresSlidingWindowLimiter) (maxWindow : Time) (calls : ι→LimiterCall) :
    ι→Prog (table ι) Err := fun tx => (calls tx).program l maxWindow tx

variable {tx t : ι} {key : String} {ts : List Time} {op : Statement ι} {r : op.Answer}

section Statements

variable {now : Time} {s s' : Buckets ι}

def stored (s : Buckets ι) (key : String) : List Time := ((s.lookup key).map BucketRow.timestamps).getD []

omit [DecidableEq ι] in
theorem holder_unique {row : BucketRow ι} (hfree : row.holder=none ∨ row.holder=some tx) (hheld : row.holder=some t) :
    tx=t := by
  rw [hheld] at hfree
  rcases hfree with hnone|hmine
  · cases hnone
  · exact (Option.some.inj hmine).symm

theorem held_kept (h : effect now s op=some (r,s'))
    {row : BucketRow ι} (hrow : s.lookup key=some row) (hheld : row.holder=some t)
    (hother : op.tx≠some t) : s'.lookup key=some row := by
  have hnot : ∀ tx : ι,op.tx=some tx → ¬(row.holder=none ∨ row.holder=some tx) := by
    intro tx htx hfree
    rw [htx,holder_unique hfree hheld] at hother
    exact hother rfl
  cases op with
  | ensureRow =>
    simp only [effect] at h
    split at h
    · rename_i hnone
      cases h
      rw [lookup_insert_eq,if_neg (by rintro rfl; rw [hnone] at hrow; cases hrow)]
      exact hrow
    · split at h
      · cases h
      cases h
      exact hrow
  | lockRow tx | updateRow tx =>
    simp only [effect] at h
    split at h
    · cases h
      exact hrow
    rename_i hrow'
    split at h
    · rename_i hfree
      cases h
      rw [lookup_insert_eq,if_neg ?_]
      · exact hrow
      rintro rfl
      rw [hrow] at hrow'
      cases hrow'
      exact hnot tx rfl hfree
    · split at h
      · cases h
        exact hrow
      · cases h
  | commit tx =>
    cases h
    rw [lookup_mapValues,hrow,map_some,released,if_neg fun hmine => hnot tx rfl (.inr hmine)]
  | deleteStale =>
    simp only [effect] at h
    split at h
    · cases h
    rename_i hfree
    cases h
    rw [lookup_sieve,hrow,filter_some,if_pos]
    by_contra hdoomed
    refine hfree (any_eq_true.mpr ⟨⟨key,row⟩,AList.mem_lookup_iff.mp hrow,?_⟩)
    simp only [Bool.not_eq_true',Bool.not_eq_false] at hdoomed
    rw [hdoomed,hheld]
    rfl
  | timeNow =>
    cases h
    exact hrow

end Statements

section Order

def locks : (op : Statement ι) → op.Answer → Bool
  | .lockRow _ _,ts => ts.isSome
  | _,_ => false

/-- The calls in the order in which they locked their rows, the latest first. -/
def lockOrder (log : Log (table ι) ι) : List ι := (log.filter fun e => locks e.op e.res).map Event.thread

theorem lockOrder_cons (e : Event (table ι) ι) (log : Log (table ι) ι) :
    lockOrder (e::log)=if locks e.op e.res=true then e.thread::lockOrder log else lockOrder log := by
  unfold lockOrder
  by_cases h : locks e.op e.res=true
  · rw [if_pos h,filter_cons,if_pos h,map_cons]
  · rw [if_neg h,filter_cons,if_neg h]

def timesFor (calls : ι→LimiterCall) (key : String) (order : List ι) : List Time :=
  order.filterMap fun t => match calls t with
    | .allow key' now => if key'=key then some now else none
    | .sweep => none

omit [DecidableEq ι] in
theorem timesFor_cons {calls : ι→LimiterCall} {key' : String} {now : Time} (h : calls t=.allow key' now)
    (key : String) (order : List ι) : timesFor calls key (t::order)=
      if key'=key then now::timesFor calls key order else timesFor calls key order := by
  by_cases hkey : key'=key
  · simp only [timesFor,filterMap_cons,h,hkey,if_true]
  · simp only [timesFor,filterMap_cons,h,hkey,if_false]

def sweepTime (maxWindow : Time) : Statement ι→Option Time
  | .deleteStale cutoff => some (cutoff+maxWindow)
  | _ => none

/-- Every sweep that has run did so at the time or before. -/
def SweptBy (maxWindow later : Time) (log : Log (table ι) ι) : Prop :=
  ∀ e∈log,(sweepTime maxWindow e.op).all (·≤later)=true

/-- A call that locks its row finds it and is not behind a sweep, and a sweep deletes no timestamp from its cutoff
on. -/
def unhurried (maxWindow : Time) (calls : ι→LimiterCall) : StepCondition (table ι) ι Err :=
  fun cfg t op _ => match op with
    | .lockRow tx key => (cfg.state.lookup key).any (fun row => !row.fresh || row.holder=some tx)=true ∧
      match calls t with
        | .allow _ now => SweptBy maxWindow now cfg.log
        | .sweep => True
    | .deleteStale cutoff => ∀ e∈cfg.state.entries,doomed cutoff e.2=true → ∀ x∈e.2.timestamps,x<cutoff
    | _ => True

end Order

variable {log : Log (table ι) ι} {u : ι} {c : Time} {next : Prog (table ι) Err}

section Stages

variable {maxWindow : Time} {calls : ι→LimiterCall} {l : PostgresSlidingWindowLimiter}

/-- The rest of a call that has asked for its row. -/
def PostgresSlidingWindowLimiter.afterLock (l : PostgresSlidingWindowLimiter) (tx : ι) (key : String) (now : Time) :
    Option (List Time)→Prog (table ι) Err
  | none => .ret none
  | some ts => l.settle tx key now ts

theorem allow_statements (hon : l.disabled=false) (hkey : key≠"") (tx : ι) (now : Time) :
    l.allow tx key now=.call (.ensureRow tx key now) fun _ => .call (.lockRow tx key) (l.afterLock tx key now) := by
  unfold PostgresSlidingWindowLimiter.allow
  rw [hon,if_neg hkey]
  refine congrArg (Prog.call (S := table ι) (.ensureRow tx key now)) (funext fun _ => ?_)
  refine congrArg (Prog.call (S := table ι) (.lockRow tx key)) (funext fun ts => ?_)
  cases ts <;> rfl

theorem settle_statements (tx : ι) (key : String) (now : Time) (ts : List Time) : l.settle tx key now ts=
    .call (.updateRow tx key (request l.maxN l.window ts now).2 now) fun _ =>
      .call (.commit tx) fun _ => .ret (refusal (request l.maxN l.window ts now).1) := by
  have hprune : pruneOlderThan ts (now-l.window)=prune (now-l.window) ts := rfl
  by_cases hfull : l.maxN≤(prune (now-l.window) ts).length
  · have hrequest : request l.maxN l.window ts now=(false,prune (now-l.window) ts) := if_pos hfull
    unfold PostgresSlidingWindowLimiter.settle
    dsimp only
    rw [hrequest,hprune,decide_eq_true hfull]
    rfl
  · have hrequest : request l.maxN l.window ts now=(true,prune (now-l.window) ts++[now]) := if_neg hfull
    unfold PostgresSlidingWindowLimiter.settle
    dsimp only
    rw [hrequest,hprune,decide_eq_false hfull]
    rfl

/-- The verdict on a call is that of the log of the calls for its key that locked before it. -/
def Settled (l : PostgresSlidingWindowLimiter) (calls : ι→LimiterCall) (log : Log (table ι) ι) (t : ι)
    (key : String) (now : Time) (admitted : Bool) : Prop :=
  ∃ before,(t::before)<:+lockOrder log ∧
    admitted=(request l.maxN l.window (logAfter l.maxN l.window (timesFor calls key before)) now).1

/-- How far a call has come. -/
inductive Stage (l : PostgresSlidingWindowLimiter) (calls : ι→LimiterCall) (cfg : Running ι)
    (t : ι) (key : String) (now : Time) : Prop where
  | begun (hthread : cfg.threads t=l.allow t key now) (hnew : t∉lockOrder cfg.log)
  /-- The row has been inserted or found. -/
  | ensured (hthread : cfg.threads t=.call (.lockRow t key) (l.afterLock t key now)) (hnew : t∉lockOrder cfg.log)
  | reading (row : BucketRow ι) (hthread : cfg.threads t=l.settle t key now row.timestamps)
      (hrow : cfg.state.lookup key=some row) (hheld : row.holder=some t)
      (hnext : (request l.maxN l.window row.timestamps now).2=
        logAfter l.maxN l.window (timesFor calls key (lockOrder cfg.log)))
      (hsettled : Settled l calls cfg.log t key now (request l.maxN l.window row.timestamps now).1)
  | written (admitted : Bool) (hthread : cfg.threads t=.call (.commit t) fun _ => .ret (refusal admitted))
      (hsettled : Settled l calls cfg.log t key now admitted)
  | finished (admitted : Bool) (hthread : cfg.threads t=.ret (refusal admitted))
      (hsettled : Settled l calls cfg.log t key now admitted)

variable {now : Time}

theorem Settled.later {admitted : Bool} (h : Settled l calls log t key now admitted) (e : Event (table ι) ι) :
    Settled l calls (e::log) t key now admitted := by
  obtain ⟨before,hsuffix,hverdict⟩ := h
  refine ⟨before,hsuffix.trans ?_,hverdict⟩
  rw [lockOrder_cons]
  split
  · exact suffix_cons _ _
  · exact suffix_refl _

/-- A call that has returned has returned the verdict on it. -/
theorem Stage.verdict {cfg : Running ι}
    {verdict : Err} (h : Stage l calls cfg t key now) (hon : l.disabled=false) (hkey : key≠"")
    (hret : cfg.threads t=.ret verdict) : ∃ admitted,verdict=refusal admitted ∧
      Settled l calls cfg.log t key now admitted := by
  cases h with
  | begun hthread =>
    rw [hthread,allow_statements hon hkey] at hret
    cases hret
  | ensured hthread | written admitted hthread | reading row hthread =>
    rw [hthread] at hret
    cases hret
  | finished admitted hthread hsettled =>
    rw [hthread] at hret
    cases hret
    exact ⟨admitted,rfl,hsettled⟩

/-- A statement of another call does not change how far a call has come. -/
theorem Stage.other {a : Running ι} {s' : Buckets ι}
    (h : Stage l calls a u key now) (hne : u≠t) (htx : op.tx≠some u) (hperform : effect c a.state op=some (r,s'))
    (hlocks : locks op r=true → ∀ row,a.state.lookup key=some row → row.holder=some u →
      timesFor calls key (t::lockOrder a.log)=timesFor calls key (lockOrder a.log)) :
    Stage l calls (a.advance t op r next s') u key now := by
  have hsame : (a.advance t op r next s').threads u=a.threads u := update_of_ne hne _ _
  have hnew : u∉lockOrder a.log → u∉lockOrder (a.advance t op r next s').log := by
    intro hnot
    rw [Config.advance_log,lockOrder_cons]
    split
    · exact fun hmem => (mem_cons.mp hmem).elim hne hnot
    · exact hnot
  cases h with
  | begun hthread hnot => exact .begun (hsame.trans hthread) (hnew hnot)
  | ensured hthread hnot => exact .ensured (hsame.trans hthread) (hnew hnot)
  | reading row hthread hrow hheld hnext hsettled =>
    refine .reading row (hsame.trans hthread) (held_kept hperform hrow hheld htx) hheld ?_ (hsettled.later _)
    rw [hnext,Config.advance_log,lockOrder_cons]
    split
    · rename_i hlock
      rw [hlocks hlock row hrow hheld]
    · rfl
  | written admitted hthread hsettled => exact .written admitted (hsame.trans hthread) (hsettled.later _)
  | finished admitted hthread hsettled => exact .finished admitted (hsame.trans hthread) (hsettled.later _)

end Stages

section Runs

variable {maxWindow : Time} {calls : ι→LimiterCall} {l : PostgresSlidingWindowLimiter}
  {a cfg : Running ι}

def Reading (l : PostgresSlidingWindowLimiter) (cfg : Running ι) (key : String) : Prop :=
  ∃ t now ts,cfg.threads t=l.settle t key now ts

def sweeping : Statement ι→Bool
  | .deleteStale _ => true
  | .timeNow => true
  | _ => false

/-- The calls for a key take effect in the order of their locks. -/
structure Linear (l : PostgresSlidingWindowLimiter) (maxWindow : Time) (calls : ι→LimiterCall)
    (cfg : Running ι) : Prop where
  /-- A call locks its row once. -/
  nodup : (lockOrder cfg.log).Nodup
  called : ∀ t∈lockOrder cfg.log,∃ key now,calls t=.allow key now
  stages : ∀ t key now,calls t=.allow key now → key≠"" → Stage l calls cfg t key now
  skipped : ∀ t now,calls t=.allow "" now → cfg.threads t=.ret none
  sweeps : ∀ t,calls t=.sweep → (cfg.threads t).Uses fun op => sweeping op=true
  /-- A row that is not being read is the log of the calls for its key, up to what has left the window. -/
  rows : ∀ key≠"",¬Reading l cfg key → ∀ later,SweptBy maxWindow later cfg.log →
    prune (later-l.window) (stored cfg.state key)=
      prune (later-l.window) (logAfter l.maxN l.window (timesFor calls key (lockOrder cfg.log)))

variable {later : Time}

theorem SweptBy.earlier {e : Event (table ι) ι} (h : SweptBy maxWindow later (e::log)) : SweptBy maxWindow later log :=
  fun d hd => h d (mem_cons_of_mem _ hd)

variable {s' : Buckets ι}

/-- A statement keeps the calls in order if it locks no row that another call reads, and keeps what is stored within
every later window. -/
theorem Linear.advance (h : Linear l maxWindow calls a)
    (hperform : effect c a.state op=some (r,s')) (htx : ∀ u,u≠t → op.tx≠some u)
    (hlocks : locks op r=true → t∉lockOrder a.log ∧ (∃ key now,calls t=.allow key now) ∧
      ∀ u,u≠t → ∀ key row,a.state.lookup key=some row → row.holder=some u →
        timesFor calls key (t::lockOrder a.log)=timesFor calls key (lockOrder a.log))
    (hself : match calls t with
      | .allow key now => key≠"" ∧ Stage l calls (a.advance t op r next s') t key now
      | .sweep => next.Uses fun op => sweeping op=true)
    (hrows : ∀ key≠"",¬Reading l (a.advance t op r next s') key → ∀ later,SweptBy maxWindow later (⟨t,op,r⟩::a.log) →
      prune (later-l.window) (stored s' key)=
        prune (later-l.window) (logAfter l.maxN l.window (timesFor calls key (lockOrder (⟨t,op,r⟩::a.log))))) :
    Linear l maxWindow calls (a.advance t op r next s') := by
  have horder : (lockOrder (⟨t,op,r⟩::a.log)).Nodup ∧ ∀ u∈lockOrder (⟨t,op,r⟩::a.log),∃ key now,calls u=.allow key now := by
    rw [lockOrder_cons]
    split
    · rename_i hlock
      obtain ⟨hnew,hcall,-⟩ := hlocks hlock
      exact ⟨nodup_cons.mpr ⟨hnew,h.nodup⟩,forall_mem_cons.mpr ⟨hcall,h.called⟩⟩
    · exact ⟨h.nodup,h.called⟩
  refine ⟨horder.1,horder.2,fun u key now hcall hkey => ?_,fun u now hcall => ?_,fun u hcall => ?_,hrows⟩
  · by_cases hu : u=t
    · subst hu
      rw [hcall] at hself
      exact hself.2
    · exact (h.stages u key now hcall hkey).other hu (htx u hu) hperform fun hlock => (hlocks hlock).2.2 u hu key
  · by_cases hu : u=t
    · subst hu
      rw [hcall] at hself
      exact absurd rfl hself.1
    · rw [Config.advance_of_ne hu]
      exact h.skipped u now hcall
  · by_cases hu : u=t
    · subst hu
      rw [hcall] at hself
      rw [Config.advance_self]
      exact hself
    · rw [Config.advance_of_ne hu]
      exact h.sweeps u hcall

omit [DecidableEq ι] in
theorem stored_insert (s : Buckets ι) (key key' : String) (row : BucketRow ι) :
    stored (s.insert key row) key'=if key'=key then row.timestamps else stored s key' := by
  unfold stored
  rw [lookup_insert_eq]
  split <;> rfl

variable {now : Time} {s : Buckets ι}

theorem stored_ensureRow {r : Unit}
    (h : effect c s (.ensureRow tx key now)=some (r,s')) (key' : String) : stored s' key'=stored s key' := by
  simp only [effect] at h
  split at h
  · rename_i hnone
    cases h
    rw [stored_insert]
    split
    · rename_i hsame
      rw [hsame,stored,hnone]
      rfl
    · rfl
  · split at h
    · cases h
    cases h
    rfl

theorem stored_commit (s : Buckets ι) (tx : ι) (key : String) :
    stored (mapValues (fun _ row => released tx row) s) key=stored s key := by
  have hkeeps : BucketRow.timestamps ∘ released tx=BucketRow.timestamps := by
    funext row
    rw [comp_apply,released]
    split <;> rfl
  rw [stored,lookup_mapValues,Option.map_map,hkeeps,stored]

theorem prune_deleteStale {cutoff : Time} {window : Time} {n : ℕ} (h : effect c s (.deleteStale cutoff)=some (n,s'))
    (hold : ∀ e∈s.entries,doomed cutoff e.2=true → ∀ x∈e.2.timestamps,x<cutoff) (hlater : cutoff≤later-window)
    (key : String) : prune (later-window) (stored s' key)=prune (later-window) (stored s key) := by
  simp only [effect] at h
  split at h
  · cases h
  cases h
  cases hrow : s.lookup key with
  | none => rw [stored,stored,lookup_sieve,hrow,filter_none]
  | some row =>
    rw [stored,stored,lookup_sieve,hrow,filter_some]
    split
    · rfl
    rename_i hdoomed
    simp only [Bool.not_eq_true',Bool.not_eq_false] at hdoomed
    have hdead := hold ⟨key,row⟩ (AList.mem_lookup_iff.mp hrow) hdoomed
    rw [map_some,getD_some,prune_eq_nil fun x hx => (hdead x hx).trans_le hlater]
    rfl

theorem reading_advance {k : op.Answer→Prog (table ι) Err} (hthread : a.threads t=.call op k)
    (hop : ∀ ts now,op≠.updateRow t key ts now) (h : Reading l a key) : Reading l (a.advance t op r next s') key := by
  obtain ⟨u,now,ts,hu⟩ := h
  by_cases hne : u=t
  · subst hne
    rw [hthread] at hu
    injection hu with hsame
    exact absurd hsame (hop _ _)
  · refine ⟨u,now,ts,?_⟩
    rw [← hu]
    exact update_of_ne hne _ _

theorem Linear.holds (h : Linear l maxWindow calls a) (hon : l.disabled=false)
    (hu : a.threads u=l.settle u key now ts) : ∃ row,a.state.lookup key=some row ∧ row.holder=some u := by
  cases hcall : calls u with
  | sweep =>
    have huses := h.sweeps u hcall
    rw [hu] at huses
    cases huses.1
  | allow key' now' =>
    by_cases hkey : key'=""
    · subst hkey
      rw [h.skipped u now' hcall] at hu
      cases hu
    cases h.stages u key' now' hcall hkey with
    | begun hbegun =>
      rw [hbegun,allow_statements hon hkey] at hu
      cases hu
    | ensured hthread | written admitted hthread | finished admitted hthread =>
      rw [hthread] at hu
      cases hu
    | reading row hreading hrow hheld _ _ =>
      rw [hreading] at hu
      injection hu with hop
      injection hop with _ hsame
      exact ⟨row,hsame ▸ hrow,hheld⟩

/-- A lock that the condition allows is granted. -/
theorem lockRow_granted {r : Option (List Time)}
    (hvisible : (s.lookup key).any (fun row => !row.fresh || row.holder=some tx)=true)
    (h : effect c s (.lockRow tx key)=some (r,s')) : ∃ row,r=some row.timestamps ∧ s.lookup key=some row ∧
      (row.holder=none ∨ row.holder=some tx) ∧ s'=s.insert key {row with holder := some tx} := by
  simp only [effect] at h
  split at h
  · rename_i hnone
    rw [hnone] at hvisible
    cases hvisible
  rename_i row hrow
  rw [hrow,any_some] at hvisible
  split at h
  · rename_i hfree
    cases h
    exact ⟨row,rfl,hrow,hfree,rfl⟩
  rename_i hheld
  split at h
  · rename_i hfresh
    rw [hfresh,Bool.not_true,Bool.false_or,decide_eq_true_eq] at hvisible
    exact absurd (.inr hvisible) hheld
  · cases h

theorem linear_lockRow (h : Linear l maxWindow calls a) (hon : l.disabled=false)
    {r : (table ι).Res (.lockRow t key)} (hcall : calls t=.allow key now) (hkey : key≠"")
    (hthread : a.threads t=.call (.lockRow t key) (l.afterLock t key now)) (hnew : t∉lockOrder a.log)
    (hok : unhurried maxWindow calls a t (.lockRow t key) c) (hperform : effect c a.state (.lockRow t key)=some (r,s')) :
    Linear l maxWindow calls (a.advance t (.lockRow t key) r (l.afterLock t key now r) s') := by
  obtain ⟨hvisible,hswept⟩ := hok
  rw [hcall] at hswept
  obtain ⟨row,hr,hrow,hfree,hs⟩ := lockRow_granted hvisible hperform
  have horder : lockOrder (⟨t,.lockRow t key,r⟩::a.log)=t::lockOrder a.log := by
    rw [lockOrder_cons]
    exact if_pos (congrArg Option.isSome hr)
  have hafter : l.afterLock t key now r=l.settle t key now row.timestamps := congrArg (l.afterLock t key now) hr
  have htimes : ∀ key',timesFor calls key' (t::lockOrder a.log)=
      if key=key' then now::timesFor calls key' (lockOrder a.log) else timesFor calls key' (lockOrder a.log) :=
    fun key' => timesFor_cons hcall key' _
  -- nobody else is reading the row, since the lock was granted
  have hnotReading : ¬Reading l a key := by
    rintro ⟨u,now',ts,hu⟩
    obtain ⟨row',hrow',hheld⟩ := h.holds hon hu
    rw [hrow] at hrow'
    cases hrow'
    rw [← holder_unique hfree hheld,hthread] at hu
    cases hu
  have hrequest : request l.maxN l.window row.timestamps now=
      request l.maxN l.window (logAfter l.maxN l.window (timesFor calls key (lockOrder a.log))) now := by
    refine request_congr ?_
    have hrows := h.rows key hkey hnotReading now hswept
    rw [stored,hrow,map_some] at hrows
    exact hrows
  refine h.advance hperform (fun u hu htx => hu (Option.some.inj htx).symm)
    (fun _ => ⟨hnew,⟨key,now,hcall⟩,fun u hu key' row' hrow' hheld => ?_⟩) ?_ fun key' hkey' hnot later hswept' => ?_
  · rw [htimes key',if_neg]
    rintro rfl
    rw [hrow] at hrow'
    cases hrow'
    exact hu (holder_unique hfree hheld).symm
  · have hlocked : s'.lookup key=some {row with holder := some t} := by rw [hs,AList.lookup_insert]
    rw [hcall]
    refine ⟨hkey,.reading {row with holder := some t} ((Config.advance_self _ _ _ _ _ _).trans hafter) hlocked rfl ?_ ?_⟩
    · rw [Config.advance_log,horder,htimes,if_pos rfl,logAfter,← hrequest]
    refine ⟨lockOrder a.log,?_,congrArg Prod.fst hrequest⟩
    rw [Config.advance_log,horder]
  · have hother : key≠key' := by
      rintro rfl
      exact hnot ⟨t,now,row.timestamps,(Config.advance_self _ _ _ _ _ _).trans hafter⟩
    have hbefore : ¬Reading l a key' :=
      fun hread => hnot (reading_advance hthread (fun ts time hop => by cases hop) hread)
    rw [horder,htimes,if_neg hother,hs,stored_insert,if_neg (Ne.symm hother)]
    exact h.rows key' hkey' hbefore later hswept'.earlier

theorem linear_step (hon : l.disabled=false) (hhorizon : l.window ≤ maxWindow) (h : Linear l maxWindow calls a)
    {b : Running ι} (hstep : Step (unhurried maxWindow calls) a b) :
    Linear l maxWindow calls b := by
  obtain ⟨hthread,hok,hperform⟩ := hstep
  rename_i t op k c r s'
  have hsame : locks op r=false → lockOrder (⟨t,op,r⟩::a.log)=lockOrder a.log := by
    intro hlocks
    rw [lockOrder_cons,if_neg]
    rw [hlocks]
    exact Bool.false_ne_true
  have hrows : locks op r=false → (∀ key later,SweptBy maxWindow later (⟨t,op,r⟩::a.log) →
      prune (later-l.window) (stored s' key)=prune (later-l.window) (stored a.state key)) →
      (∀ key ts now,op≠.updateRow t key ts now) → ∀ key≠"",¬Reading l (a.advance t op r (k r) s') key → ∀ later,
        SweptBy maxWindow later (⟨t,op,r⟩::a.log) → prune (later-l.window) (stored s' key)=
          prune (later-l.window) (logAfter l.maxN l.window (timesFor calls key (lockOrder (⟨t,op,r⟩::a.log)))) := by
    intro hlocks hstored hop key hkey hnot later hswept
    rw [hstored key later hswept,hsame hlocks]
    exact h.rows key hkey (fun hread => hnot (reading_advance hthread (hop key) hread)) later hswept.earlier
  cases hcall : calls t with
  | sweep =>
    have huses := h.sweeps t hcall
    rw [hthread] at huses
    have hself : match calls t with
        | .allow key now => key≠"" ∧ Stage l calls (a.advance t op r (k r) s') t key now
        | .sweep => (k r).Uses fun op => sweeping op=true := by
      rw [hcall]
      exact huses.2 r
    cases op with
    | deleteStale cutoff =>
      refine h.advance (c := c) hperform (fun u _ => nofun) nofun hself
        (hrows rfl (fun key later hswept => ?_) fun _ _ _ => nofun)
      have hcutoff : cutoff+maxWindow≤later := of_decide_eq_true (hswept _ mem_cons_self)
      exact prune_deleteStale (c := c) hperform hok (le_sub_iff_add_le.mpr ((add_le_add_right hhorizon cutoff).trans hcutoff)) key
    | timeNow =>
      refine h.advance (c := c) hperform (fun u _ => nofun) nofun hself
        (hrows rfl (fun key later _ => ?_) fun _ _ _ => nofun)
      cases hperform
      rfl
    | ensureRow | lockRow | updateRow | commit => cases huses.1
  | allow key now =>
    have hreaches : key≠"" := by
      rintro rfl
      rw [h.skipped t now hcall] at hthread
      cases hthread
    have hnext : (a.advance t op r (k r) s').threads t=k r := update_self _ _ _
    cases h.stages t key now hcall hreaches with
    | begun hbegun hnew =>
      rw [hbegun,allow_statements hon hreaches] at hthread
      cases hthread
      refine h.advance (c := c) hperform (fun u hu htx => hu (Option.some.inj htx).symm) nofun ?_
        (hrows rfl (fun key' later _ => by rw [stored_ensureRow (c := c) hperform]) fun _ _ _ => nofun)
      rw [hcall]
      exact ⟨hreaches,.ensured hnext ((hsame rfl).symm ▸ hnew)⟩
    | ensured hensured hnew =>
      rw [hensured] at hthread
      cases hthread
      exact linear_lockRow h hon hcall hreaches hensured hnew hok hperform
    | reading row hreading hrow hheld hnextLog hsettled =>
      rw [hreading,settle_statements] at hthread
      cases hthread
      simp only [effect,hrow,hheld] at hperform
      cases hperform
      refine h.advance (c := c) ?_ (fun u hu htx => hu (Option.some.inj htx).symm) nofun ?_
        fun key' hkey' hnot later hswept => ?_
      · simp only [effect,hrow,hheld,or_true,if_true]
      · rw [hcall]
        exact ⟨hreaches,.written _ hnext (hsettled.later _)⟩
      rw [stored_insert,hsame rfl]
      split
      · rename_i hsameKey
        rw [hsameKey,hnextLog]
      rename_i hotherKey
      refine h.rows key' hkey' (fun hread => hnot (reading_advance (hreading.trans (settle_statements t key now _))
        (fun ts now' hop => ?_) hread)) later hswept.earlier
      injection hop with _ hsameKey
      exact hotherKey hsameKey.symm
    | written admitted hwritten hsettled =>
      rw [hwritten] at hthread
      cases hthread
      cases hperform
      refine h.advance (c := c) rfl (fun u hu htx => hu (Option.some.inj htx).symm) nofun ?_
        (hrows rfl (fun key' later _ => by rw [stored_commit]) fun _ _ _ => nofun)
      rw [hcall]
      exact ⟨hreaches,.finished admitted hnext (hsettled.later _)⟩
    | finished admitted hfinished =>
      rw [hfinished] at hthread
      cases hthread

theorem uses_sweep (maxWindow : Time) (tx : ι) :
    (LimiterCall.program l maxWindow tx .sweep).Uses fun op => sweeping op=true := by
  refine Prog.uses_bind ?_ fun _ => trivial
  unfold garbageCollect
  split
  · trivial
  · exact ⟨rfl,fun now => ⟨rfl,fun _ => trivial⟩⟩

theorem initial_thread {call : LimiterCall} (hcall : calls t=call) :
    (initial (limiterCalls l maxWindow calls) ∅).threads t=call.program l maxWindow t := by
  rw [← hcall]
  rfl

theorem allow_passes (h : l.disabled=true ∨ key="") (tx : ι) (now : Time) : l.allow tx key now=.ret none := by
  unfold PostgresSlidingWindowLimiter.allow
  rcases h with h|h
  · rw [if_pos h]
    rfl
  · split <;> rfl

theorem linear_initial : Linear l maxWindow calls (initial (limiterCalls l maxWindow calls) ∅) := by
  refine ⟨nodup_nil,forall_mem_nil _,fun t key now hcall _ => ?_,fun t now hcall => ?_,
    fun t hcall => ?_,fun key _ _ later _ => rfl⟩
  · exact .begun (initial_thread hcall) not_mem_nil
  · rw [initial_thread hcall]
    exact allow_passes (.inr rfl) t now
  · rw [initial_thread hcall]
    exact uses_sweep maxWindow t

/-- The in-memory limiter after calls, the latest first. Its map is not visited while it has room. -/
def inMemory (maxN : ℤ) (window : Time) (mapCap : ℤ) (calls : ι→LimiterCall) (before : List ι) : SlidingWindowLimiter :=
  (newSlidingWindowLimiter maxN window mapCap).after (before.map fun t => match calls t with
    | .allow key now => ⟨key,now,[]⟩
    | .sweep => ⟨"",0,[]⟩)

/-- There is an order of the calls in which an in-memory limiter with room for all keys gives every call that has
returned the same verdict. A call that the limiter lets pass unseen may stand anywhere, and stands last. -/
def Linearizable (maxN : ℤ) (window : Time) (calls : ι→LimiterCall) (cfg : Running ι) : Prop :=
  ∃ order : List ι,order.Nodup ∧ (∀ t∈order,∃ key now,calls t=.allow key now) ∧
    ∀ t key now verdict,calls t=.allow key now → cfg.threads t=.ret verdict →
      ∃ before,((t::before)<:+order ∨ before=order ∧ (maxN≤0 ∨ key="")) ∧ ∀ mapCap,(order.length : ℤ) < mapCap →
        verdict=((inMemory maxN window mapCap calls before).allow key now []).1

omit [DecidableEq ι] in
theorem callTimes_order (calls : ι→LimiterCall) (hkey : key≠"") (order : List ι) :
    callTimes key (order.map fun t => match calls t with
      | .allow key now => ⟨key,now,[]⟩
      | .sweep => ⟨"",0,[]⟩)=timesFor calls key order := by
  induction order with
  | nil => rfl
  | cons t rest ih =>
    rw [map_cons,callTimes,filter_cons]
    cases hcall : calls t with
    | allow key' now =>
      rw [timesFor_cons hcall]
      by_cases hsame : key'=key
      · rw [if_pos hsame,if_pos (decide_eq_true hsame)]
        exact congrArg (List.cons now) ih
      · rw [if_neg hsame,if_neg (by simpa using hsame)]
        exact ih
    | sweep =>
      rw [if_neg (by simpa using Ne.symm hkey)]
      simp only [timesFor,filterMap_cons,hcall]
      exact ih

theorem returned_stays {ok : StepCondition (table ι) ι Err} {verdict : Err}
    (hreach : Reach ok a cfg) (h : a.threads t=.ret verdict) : cfg.threads t=.ret verdict := by
  refine reach_invariant (I := fun b : Running ι => b.threads t=.ret verdict) h ?_ hreach
  rintro x _ hx ⟨hthread,-,-⟩
  rename_i u op k c r s'
  by_cases hu : t=u
  · subst hu
    rw [hx] at hthread
    cases hthread
  · rw [Config.advance_of_ne hu]
    exact hx

/-- In every run in which calls find the rows that they have made sure of, are not behind a sweep, and sweeps delete
no timestamp from their cutoff on, the calls have the verdicts of an in-memory limiter with room for all keys. -/
theorem allow_linearizable (maxN : ℤ) (window maxWindow : Time)
    (hhorizon : (newPostgresSlidingWindowLimiter maxN window).window ≤ maxWindow) (calls : ι→LimiterCall)
    (cfg : Running ι)
    (hreach : Reach (unhurried maxWindow calls)
      (initial (limiterCalls (newPostgresSlidingWindowLimiter maxN window) maxWindow calls) ∅) cfg) :
    Linearizable maxN window calls cfg := by
  by_cases hoff : maxN≤0
  · refine ⟨[],nodup_nil,forall_mem_nil _,fun t key now verdict hcall hret => ?_⟩
    refine ⟨[],.inr ⟨rfl,.inl hoff⟩,fun mapCap _ => ?_⟩
    have hpass : cfg.threads t=.ret none := by
      refine returned_stays hreach ?_
      rw [initial_thread hcall]
      exact allow_passes (.inl (decide_eq_true hoff)) t now
    rw [hret] at hpass
    cases hpass
    exact (congrArg Prod.fst (allow_skipped (.inl (decide_eq_true hoff)))).symm
  have hon : (newPostgresSlidingWindowLimiter maxN window).disabled=false := decide_eq_false hoff
  have hlinear : Linear (newPostgresSlidingWindowLimiter maxN window) maxWindow calls cfg :=
    reach_invariant (I := Linear (newPostgresSlidingWindowLimiter maxN window) maxWindow calls) linear_initial
      (fun _ _ h hstep => linear_step hon hhorizon h hstep) hreach
  refine ⟨lockOrder cfg.log,hlinear.nodup,hlinear.called,fun t key now verdict hcall hret => ?_⟩
  by_cases hkey : key=""
  · subst hkey
    refine ⟨lockOrder cfg.log,.inr ⟨rfl,.inr rfl⟩,fun mapCap _ => ?_⟩
    have hpass := hlinear.skipped t now hcall
    rw [hret] at hpass
    cases hpass
    exact (congrArg Prod.fst (allow_skipped (.inr rfl))).symm
  obtain ⟨admitted,rfl,before,hsuffix,hverdict⟩ := (hlinear.stages t key now hcall hkey).verdict hon hkey hret
  refine ⟨before,.inl hsuffix,fun mapCap hroom => ?_⟩
  have hlength := hsuffix.length_le
  have hcap : (newSlidingWindowLimiter maxN window mapCap).cap=mapCap := if_neg (by omega)
  rw [inMemory,allow_unlimited rfl hon _ ?_ hkey,callTimes_order calls hkey,hverdict]
  · rfl
  rw [length_map]
  rw [length_cons] at hlength
  omega

instance (maxWindow later : Time) (log : Log (table ι) ι) : Decidable (SweptBy maxWindow later log) :=
  inferInstanceAs (Decidable (∀ e∈log,(sweepTime maxWindow e.op).all (·≤later)=true))

instance (maxWindow : Time) (calls : ι→LimiterCall) (cfg : Running ι) (t : ι)
    (op : Statement ι) (c : Time) : Decidable (unhurried maxWindow calls cfg t op c) :=
  match op with
  | .ensureRow _ _ _ => inferInstanceAs (Decidable True)
  | .lockRow tx key =>
    match h : calls t with
    | .allow _ now => decidable_of_iff
        ((cfg.state.lookup key).any (fun row => !row.fresh || row.holder=some tx)=true ∧ SweptBy maxWindow now cfg.log)
        (by rw [unhurried,h])
    | .sweep => decidable_of_iff ((cfg.state.lookup key).any (fun row => !row.fresh || row.holder=some tx)=true)
        (by rw [unhurried,h,and_true])
  | .updateRow _ _ _ _ => inferInstanceAs (Decidable True)
  | .commit _ => inferInstanceAs (Decidable True)
  | .deleteStale cutoff => inferInstanceAs (Decidable (∀ e∈cfg.state.entries,doomed cutoff e.2=true →
      ∀ x∈e.2.timestamps,x<cutoff))
  | .timeNow => inferInstanceAs (Decidable True)

def sampleCalls : Fin 4→LimiterCall
  | 0 => .allow "k" 0
  | 1 => .allow "k" 20
  | 2 => .allow "k" 21
  | 3 => .sweep

/-- One call after the other, with the sweep after the first. -/
theorem allow_linearizable_sample : ∃ cfg,
    Reach (unhurried 10 sampleCalls) (initial (limiterCalls (newPostgresSlidingWindowLimiter 1 10) 10 sampleCalls) ∅)
      cfg ∧ (cfg.threads 1).result?=some none ∧ (cfg.threads 2).result?=some (some errRateLimited) ∧
      Linearizable 1 10 sampleCalls cfg := by
  refine reaches_view (List.replicate 4 (0,0)++List.replicate 2 (3,20)++List.replicate 4 (1,20)++List.replicate 4 (2,21))
    (fun cfg => ((cfg.threads 1).result?,(cfg.threads 2).result?)) (some none,some (some errRateLimited)) (by decide)
    fun cfg hreach hview => ?_
  obtain ⟨hfirst,hsecond⟩ := Prod.mk.inj hview
  exact ⟨hfirst,hsecond,allow_linearizable 1 10 10 (by decide) sampleCalls cfg hreach⟩

theorem sample_refused {before : List (Fin 4)} {first second : Fin 4}
    (hpair : first=1 ∧ second=2 ∧ now=21 ∨ first=2 ∧ second=1 ∧ now=20) (hmem : first∈before)
    (hnodup : (second::before).Nodup) (hcalls : ∀ t∈before,t≠3) :
    ((inMemory 1 10 100 sampleCalls before).allow "k" now []).1≠none := by
  have hlength : (3::second::before).length≤4 := by
    refine List.Nodup.length_le_card (nodup_cons.mpr ⟨fun h => ?_,hnodup⟩)
    rcases mem_cons.mp h with h|h
    · rcases hpair with ⟨-,rfl,-⟩|⟨-,rfl,-⟩ <;> cases h
    · exact hcalls 3 h rfl
  match before,hlength with
  | [],_ => cases hmem
  | [x],_ =>
    obtain rfl := mem_singleton.mp hmem
    rcases hpair with ⟨rfl,rfl,rfl⟩|⟨rfl,rfl,rfl⟩ <;> decide
  | [x,y],_ =>
    revert x y
    rcases hpair with ⟨rfl,rfl,rfl⟩|⟨rfl,rfl,rfl⟩ <;> decide
  | x::y::z::rest,hlength =>
    simp only [length_cons] at hlength
    omega

/-- A sweep deletes the row that a call has found and not yet locked. The call passes without a trace, the next one
passes as well, and no order of the calls makes an in-memory limiter let both pass. -/
theorem swept_call_passes : ∃ cfg,
    Reach anyStep (initial (limiterCalls (newPostgresSlidingWindowLimiter 1 10) 10 sampleCalls) ∅) cfg ∧
      ¬Linearizable 1 10 sampleCalls cfg := by
  refine reaches_view (List.replicate 4 (0,0)++[(1,20)]++List.replicate 2 (3,20)++[(1,20)]++List.replicate 4 (2,21))
    (fun cfg => ((cfg.threads 1).result?,(cfg.threads 2).result?)) (some none,some none) (by decide) fun cfg _ hview => ?_
  obtain ⟨hfirst,hsecond⟩ := Prod.mk.inj hview
  rintro ⟨order,hnodup,hcalls,hverdicts⟩
  have hnotSweep : ∀ t∈order,t≠3 := by
    rintro t ht rfl
    obtain ⟨key,now,hcall⟩ := hcalls 3 ht
    cases hcall
  have hplace : ∀ t now,sampleCalls t=.allow "k" now → cfg.threads t=.ret none → ∃ before,(t::before)<:+order ∧
      ((inMemory 1 10 100 sampleCalls before).allow "k" now []).1=none := by
    intro t now hcall hret
    obtain ⟨before,hbefore|⟨-,hskips⟩,hverdict⟩ := hverdicts t "k" now none hcall hret
    · refine ⟨before,hbefore,(hverdict 100 ?_).symm⟩
      have hlength := List.Nodup.length_le_card hnodup
      rw [Fintype.card_fin] at hlength
      omega
    · exact absurd hskips (by decide)
  obtain ⟨before,hbefore,hpass⟩ := hplace 1 20 rfl (Prog.eq_ret_of_result? hfirst)
  obtain ⟨before',hbefore',hpass'⟩ := hplace 2 21 rfl (Prog.eq_ret_of_result? hsecond)
  -- one of the two stands before the other
  rcases suffix_or_suffix_of_suffix hbefore hbefore' with hsuffix|hsuffix
  · rcases suffix_cons_iff.mp hsuffix with hsame|hsuffix
    · cases hsame
    refine sample_refused (.inl ⟨rfl,rfl,rfl⟩) (hsuffix.subset mem_cons_self) (hnodup.sublist hbefore'.sublist)
      (fun t ht => hnotSweep t (hbefore'.subset (mem_cons_of_mem _ ht))) hpass'
  · rcases suffix_cons_iff.mp hsuffix with hsame|hsuffix
    · cases hsame
    refine sample_refused (.inr ⟨rfl,rfl,rfl⟩) (hsuffix.subset mem_cons_self) (hnodup.sublist hbefore.sublist)
      (fun t ht => hnotSweep t (hbefore.subset (mem_cons_of_mem _ ht))) hpass

end Runs

end Table

end Certctl.PostgresLimiter
