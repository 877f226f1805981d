import Certctl.PostgresLimiter

/-!
# Several limiters over one table

The factory hands every caller on the database backend a limiter over the
same table, and rows are addressed by the caller's key alone. Limiters that
are called with the same key therefore read, prune and count one another's
timestamps. A limiter is on its own as long as no other limiter is called
with its keys.
-/

namespace Certctl.LimiterInstances

open AtomicProgram DomainRecords KeyedMap SlidingLog SlidingWindow PostgresLimiter Option
open List

/-- The two kinds of limiter. -/
inductive Limiter where
  | memory (l : SlidingWindowLimiter)
  | postgres (l : PostgresSlidingWindowLimiter)

/-- The limiter of the chosen backend. An unknown backend, and the database backend without a database, stop the
process. -/
def newLimiter (backend : String) (db : Bool) (maxN : ℤ) (window : Time) (mapCap : ℤ) : Option Limiter :=
  if backend="memory" then some (.memory (newSlidingWindowLimiter maxN window mapCap))
  else if backend="postgres" then
    if db then some (.postgres (newPostgresSlidingWindowLimiter maxN window)) else none
  else none

/-- Statements of calls that run one after the other are not restricted. -/
abbrev anyStatement : Prog.Allowed (table Unit) := fun _ _ _ => True

section Single

variable {l : PostgresSlidingWindowLimiter} {s s' : Buckets Unit} {key : String} {now : Time}

def Quiet (s : Buckets Unit) : Prop := ∀ key row,s.lookup key=some row → row.holder=none ∧ row.fresh=false

theorem quiet_empty : Quiet ∅ := by
  intro key row hrow
  cases hrow

def skips (l : PostgresSlidingWindowLimiter) (key : String) : Prop := l.disabled=true ∨ key=""

instance : Decidable (skips l key) := inferInstanceAs (Decidable (_ ∨ _))

/-- The verdict on stored timestamps, and the timestamps stored afterwards. -/
def outcome (l : PostgresSlidingWindowLimiter) (key : String) (now : Time) (ts : List Time) :
    Err×List Time :=
  if skips l key then (none,ts)
  else (refusal (request l.maxN l.window ts now).1,(request l.maxN l.window ts now).2)

/-- The row of a key is there with these timestamps, and the other rows are those of the table before. -/
def Ready (before : Buckets Unit) (key : String) (ts : List Time) (s : Buckets Unit) : Prop :=
  (∃ row,s.lookup key=some row ∧ row.timestamps=ts) ∧ ∀ key'≠key,s.lookup key'=before.lookup key'

/-- A table after a call: no transaction is open, and only the timestamps of the key may have changed. -/
structure CallDone (before : Buckets Unit) (key : String) (ts : List Time) (s : Buckets Unit) : Prop where
  quiet : Quiet s
  own : stored s key=ts
  others : ∀ key'≠key,stored s key'=stored before key'

theorem total_statement {α : Type} {op : Statement Unit} {r : op.Answer} {k : op.Answer→Prog (table Unit) α}
    {Q : α→Buckets Unit→Prop} (heffect : ∀ c,effect c s op=some (r,s')) (hrest : (k r).Total anyStatement Q s') :
    (Prog.call (S := table Unit) op k).Total anyStatement Q s := by
  refine ⟨⟨0,r,s',trivial,heffect 0⟩,?_⟩
  intro c r₁ s₁ _ hperform
  have hsame : some (r₁,s₁)=some (r,s') := hperform.symm.trans (heffect c)
  cases hsame
  exact hrest

theorem mine (holder : Option Unit) : holder=none ∨ holder=some () := by
  cases holder with
  | none => exact .inl rfl
  | some => exact .inr rfl

theorem ensureRow_alone (hquiet : Quiet s) (key : String) (now : Time) :
    ∃ s',(∀ c,effect c s (.ensureRow () key now)=some ((),s')) ∧ Ready s key (stored s key) s' := by
  cases hrow : s.lookup key with
  | none =>
    refine ⟨s.insert key ⟨[],now,some (),true⟩,?_,⟨_,AList.lookup_insert _,?_⟩,?_⟩
    · intro c
      simp only [effect,hrow]
      rfl
    · simp only [stored,hrow,map_none,getD_none]
    · intro key' hne
      exact AList.lookup_insert_ne hne
  | some row =>
    have hfresh : row.fresh=false := (hquiet key row hrow).2
    refine ⟨s,?_,⟨row,hrow,?_⟩,fun _ _ => rfl⟩
    · intro c
      simp only [effect,hrow,hfresh]
      rfl
    · simp only [stored,hrow,map_some,getD_some]

variable {before : Buckets Unit} {ts : List Time}

theorem lockRow_alone (h : Ready before key ts s) :
    ∃ s',(∀ c,effect c s (.lockRow () key)=some (some ts,s')) ∧ Ready before key ts s' := by
  obtain ⟨⟨row,hrow,rfl⟩,hothers⟩ := h
  refine ⟨s.insert key {row with holder := some ()},?_,⟨_,AList.lookup_insert _,rfl⟩,?_⟩
  · intro c
    simp only [effect,hrow]
    rw [if_pos (mine row.holder)]
    rfl
  · intro key' hne
    rw [AList.lookup_insert_ne hne]
    exact hothers key' hne

/-- The row that is ready is written, and the commit lets go of it. -/
theorem settle_alone (hquiet : Quiet before) (h : Ready before key ts s) :
    (l.settle () key now ts).Total anyStatement (fun verdict s' =>
      verdict=refusal (request l.maxN l.window ts now).1 ∧
        CallDone before key (request l.maxN l.window ts now).2 s') s := by
  obtain ⟨⟨row,hrow,rfl⟩,hothers⟩ := h
  let written : BucketRow Unit := ⟨(request l.maxN l.window row.timestamps now).2,now,some (),row.fresh⟩
  have hupdate : ∀ c,effect c s (.updateRow () key (request l.maxN l.window row.timestamps now).2 now)=
      some ((),s.insert key written) := by
    intro c
    simp only [effect,hrow]
    rw [if_pos (mine row.holder)]
    rfl
  rw [settle_statements]
  refine total_statement hupdate (total_statement (fun c => rfl) ⟨rfl,?_⟩)
  have hkept : ∀ key'≠key,(mapValues (fun _ row => released () row) (s.insert key written)).lookup key'=
      before.lookup key' := by
    intro key' hne
    rw [lookup_mapValues,AList.lookup_insert_ne hne,hothers key' hne]
    cases hother : before.lookup key' with
    | none => rfl
    | some other =>
      have hfree : other.holder≠some () := by
        rw [(hquiet key' other hother).1]
        exact fun hheld => absurd hheld (by decide)
      rw [map_some,released,if_neg hfree]
  have hown : (mapValues (fun _ row => released () row) (s.insert key written)).lookup key=
      some (released () written) := by
    rw [lookup_mapValues,AList.lookup_insert,map_some]
  constructor
  · intro key' row' hrow'
    by_cases hsame : key'=key
    · rw [hsame,hown] at hrow'
      cases hrow'
      exact ⟨rfl,rfl⟩
    · rw [hkept key' hsame] at hrow'
      exact hquiet key' row' hrow'
  · unfold stored
    rw [hown]
    rfl
  · intro key' hne
    unfold stored
    rw [hkept key' hne]

variable (l key now) in
theorem allow_alone (hquiet : Quiet s) : (l.allow () key now).Total anyStatement (fun verdict s' =>
    verdict=(outcome l key now (stored s key)).1 ∧ CallDone s key (outcome l key now (stored s key)).2 s') s := by
  by_cases hskip : skips l key
  · rw [allow_passes hskip () now,outcome,if_pos hskip]
    exact ⟨rfl,hquiet,rfl,fun _ _ => rfl⟩
  have hon : l.disabled=false := by
    rw [← Bool.not_eq_true]
    exact fun hoff => hskip (.inl hoff)
  have hkey : key≠"" := fun hempty => hskip (.inr hempty)
  obtain ⟨s₁,hensure,hready⟩ := ensureRow_alone hquiet key now
  obtain ⟨s₂,hlock,hread⟩ := lockRow_alone hready
  rw [allow_statements hon hkey,outcome,if_neg hskip]
  exact total_statement hensure (total_statement hlock (settle_alone hquiet hread))

end Single

section Sequences

variable {κ : Type}

/-- What a limiter is built from. -/
structure Setting where
  /-- Calls that a key may make in a window. -/
  maxN : ℤ
  window : Time
  /-- Keys that a limiter in memory keeps at most. -/
  mapCap : ℤ

def Setting.limiter (c : Setting) : PostgresSlidingWindowLimiter := newPostgresSlidingWindowLimiter c.maxN c.window

/-- A call of one of the limiters, and its verdict. -/
structure Entry (κ : Type) where
  limiter : κ
  key : String
  now : Time
  verdict : Err
  deriving DecidableEq

def Entry.call (e : Entry κ) : κ×String×Time := (e.limiter,e.key,e.now)

/-- Calls of limiters that the factory built over one table, one after the other from an empty table, the latest
first. Each call meets a condition that reads the calls before it. -/
inductive CallSequence (settings : κ→Setting) (ok : List (Entry κ)→Entry κ→Prop) :
    List (Entry κ)→Buckets Unit→Prop where
  | start : CallSequence settings ok [] ∅
  | call {log : List (Entry κ)} {s s' : Buckets Unit} {e : Entry κ} {l : PostgresSlidingWindowLimiter}
      (hlog : CallSequence settings ok log s) (hok : ok log e)
      (hbuilt : newLimiter "postgres" true (settings e.limiter).maxN (settings e.limiter).window
        (settings e.limiter).mapCap=some (.postgres l))
      (hexec : (l.allow () e.key e.now).Exec anyStatement s e.verdict s') : CallSequence settings ok (e::log) s'

def anyEntry : List (Entry κ)→Entry κ→Prop := fun _ _ => True

variable [DecidableEq κ] {settings : κ→Setting} {ok : List (Entry κ)→Entry κ→Prop} {log : List (Entry κ)}
  {s s' : Buckets Unit} {e : Entry κ}

def own (i : κ) (log : List (Entry κ)) : List (Entry κ) := log.filter fun e => e.limiter=i

/-- The call does not look at the table: its limiter is disabled, or the key is empty. -/
def Entry.idle (settings : κ→Setting) (e : Entry κ) : Prop := skips (settings e.limiter).limiter e.key

def Private (settings : κ→Setting) (i : κ) (key : String) (log : List (Entry κ)) : Prop :=
  ∀ d∈log,d.key=key → d.limiter=i ∨ d.idle settings

/-- The call does not look at the table, or its key is its limiter's own so far. -/
def keysApart (settings : κ→Setting) (log : List (Entry κ)) (e : Entry κ) : Prop :=
  e.idle settings ∨ Private settings e.limiter e.key log

/-- A limiter's calls get the verdicts that they get when nothing else is called. -/
def Unaffected (settings : κ→Setting) (i : κ) (log : List (Entry κ)) : Prop :=
  (∃ s,CallSequence settings anyEntry (own i log) s) ∧
    ∀ alone s,CallSequence settings anyEntry alone s → alone.map Entry.call=(own i log).map Entry.call → alone=own i log

omit [DecidableEq κ] in
theorem call_outcome {l : PostgresSlidingWindowLimiter} (hquiet : Quiet s)
    (hbuilt : newLimiter "postgres" true (settings e.limiter).maxN (settings e.limiter).window
      (settings e.limiter).mapCap=some (.postgres l))
    (hexec : (l.allow () e.key e.now).Exec anyStatement s e.verdict s') :
    e.verdict=(outcome (settings e.limiter).limiter e.key e.now (stored s e.key)).1 ∧
      CallDone s e.key (outcome (settings e.limiter).limiter e.key e.now (stored s e.key)).2 s' := by
  cases hbuilt
  exact (allow_alone _ _ _ hquiet).of_exec hexec

omit [DecidableEq κ] in
theorem quiet_of_sequence (h : CallSequence settings ok log s) : Quiet s := by
  induction h with
  | start => exact quiet_empty
  | call hlog hok hbuilt hexec ih => exact (call_outcome ih hbuilt hexec).2.quiet

omit [DecidableEq κ] in
theorem sequence_determined {log' : List (Entry κ)} (h : CallSequence settings ok log s)
    (h' : CallSequence settings ok log' s') (hcalls : log'.map Entry.call=log.map Entry.call) :
    log'=log ∧ ∀ key,stored s' key=stored s key := by
  induction h generalizing log' s' with
  | start =>
    rw [map_nil,map_eq_nil_iff] at hcalls
    subst hcalls
    cases h'
    exact ⟨rfl,fun _ => rfl⟩
  | @call log s s₁ e l hlog hok hbuilt hexec ih =>
    cases h' with
    | start => exact absurd hcalls (cons_ne_nil _ _).symm
    | @call log' s' s₁' e' l' hlog' hok' hbuilt' hexec' =>
      rw [map_cons,map_cons,List.cons.injEq] at hcalls
      obtain ⟨hcall,hrest⟩ := hcalls
      obtain ⟨rfl,hstored⟩ := ih hlog' hrest
      obtain ⟨i,key,now,verdict⟩ := e
      obtain ⟨i',key',now',verdict'⟩ := e'
      obtain ⟨rfl,rfl,rfl⟩ : i'=i ∧ key'=key ∧ now'=now := by simpa only [Entry.call,Prod.mk.injEq] using hcall
      obtain ⟨hverdict,hdone⟩ := call_outcome (quiet_of_sequence hlog) hbuilt hexec
      obtain ⟨hverdict',hdone'⟩ := call_outcome (quiet_of_sequence hlog') hbuilt' hexec'
      dsimp only at hverdict hdone hverdict' hdone'
      rw [hstored] at hverdict' hdone'
      refine ⟨by rw [hverdict,hverdict'],fun k => ?_⟩
      by_cases hk : k=key'
      · rw [hk,hdone.own,hdone'.own]
      · rw [hdone.others k hk,hdone'.others k hk,hstored k]

theorem sequence_alone (h : CallSequence settings (keysApart settings) log s) (i : κ) :
    ∃ s',CallSequence settings anyEntry (own i log) s' ∧
      ∀ key,Private settings i key log → stored s' key=stored s key := by
  induction h with
  | start => exact ⟨∅,.start,fun _ _ => rfl⟩
  | @call log s s₁ e l hlog hok hbuilt hexec ih =>
    obtain ⟨s',halone,hstored⟩ := ih
    obtain ⟨hverdict,hdone⟩ := call_outcome (quiet_of_sequence hlog) hbuilt hexec
    have hbefore : ∀ key,Private settings i key (e::log) → Private settings i key log :=
      fun key hprivate d hd => hprivate d (mem_cons_of_mem e hd)
    by_cases hown : e.limiter=i
    · have hsame : (outcome (settings e.limiter).limiter e.key e.now (stored s' e.key)).1=
          (outcome (settings e.limiter).limiter e.key e.now (stored s e.key)).1 := by
        by_cases hidle : skips (settings e.limiter).limiter e.key
        · rw [outcome,outcome,if_pos hidle,if_pos hidle]
        have hprivate : Private settings i e.key log := hown ▸ hok.resolve_left hidle
        rw [hstored e.key hprivate]
      obtain ⟨verdict,s₁',hexec',hverdict',hdone'⟩ :=
        (allow_alone (settings e.limiter).limiter e.key e.now (quiet_of_sequence halone)).exists_exec
      rw [hsame,← hverdict] at hverdict'
      rw [hverdict'] at hexec'
      refine ⟨s₁',?_,?_⟩
      · rw [own,filter_cons_of_pos (by simpa using hown)]
        exact .call halone trivial rfl hexec'
      intro key hprivate
      have hkey := hstored key (hbefore key hprivate)
      by_cases hk : key=e.key
      · rw [hk] at hkey ⊢
        rw [hdone'.own,hdone.own,hkey]
      · rw [hdone'.others key hk,hdone.others key hk,hkey]
    · refine ⟨s',?_,?_⟩
      · rw [own,filter_cons_of_neg (by simpa using hown)]
        exact halone
      intro key hprivate
      rw [hstored key (hbefore key hprivate)]
      by_cases hk : key=e.key
      · have hidle : skips (settings e.limiter).limiter e.key := (hprivate e mem_cons_self hk.symm).resolve_left hown
        rw [hk,hdone.own,outcome,if_pos hidle]
      · rw [hdone.others key hk]

/-- Limiters whose calls keep to keys of their own do not affect one another. -/
theorem limiters_unaffected (settings : κ→Setting) {log : List (Entry κ)} {s : Buckets Unit}
    (h : CallSequence settings (keysApart settings) log s) (i : κ) : Unaffected settings i log := by
  obtain ⟨s',halone,-⟩ := sequence_alone h i
  exact ⟨⟨s',halone⟩,fun alone s₁ hrun hcalls => (sequence_determined halone hrun hcalls).1⟩

def sampleSettings : Bool→Setting := fun _ => ⟨1,3600*second,50000⟩

theorem sequence_of_run {settings : Bool→Setting} {ok : List (Entry Bool)→Entry Bool→Prop} {log : List (Entry Bool)}
    (e : Entry Bool) (hlog : CallSequence settings ok log s) (hok : ok log e)
    (hrun : ((settings e.limiter).limiter.allow () e.key e.now).run [0,0,0,0] s=some (e.verdict,s')) :
    CallSequence settings ok (e::log) s' :=
  .call hlog hok rfl (Prog.exec_of_run (fun _ _ _ _ => trivial) hrun)

/-- A limiter refuses a second call for its key, and another one lets its own key pass. -/
theorem limiters_unaffected_sample : Unaffected sampleSettings false
    [⟨true,"b",2,none⟩,⟨false,"a",1,some errRateLimited⟩,⟨false,"a",0,none⟩] := by
  have hown : ∀ d∈[(⟨false,"a",0,none⟩ : Entry Bool)],d.key="a" → d.limiter=false ∨ d.idle sampleSettings := by
    exact forall_mem_singleton.mpr (fun _ => .inl rfl)
  have hfresh : ∀ d∈[(⟨false,"a",1,some errRateLimited⟩ : Entry Bool),⟨false,"a",0,none⟩],
      d.key="b" → d.limiter=true ∨ d.idle sampleSettings := by
    intro d hd hkey
    rcases mem_pair.mp hd with rfl|rfl <;> exact absurd hkey (by decide)
  have hnew : ∀ d∈([] : List (Entry Bool)),d.key="a" → d.limiter=false ∨ d.idle sampleSettings := forall_mem_nil _
  exact limiters_unaffected sampleSettings (sequence_of_run ⟨true,"b",2,none⟩
    (sequence_of_run ⟨false,"a",1,some errRateLimited⟩
      (sequence_of_run ⟨false,"a",0,none⟩ .start (.inr hnew) rfl) (.inr hown) rfl) (.inr hfresh) rfl) false

/-- A limiter refuses the first call that it gets, because another one was called with the key. -/
theorem shared_key_refused : ∃ s,CallSequence sampleSettings anyEntry
    [⟨true,"k",1,some errRateLimited⟩,⟨false,"k",0,none⟩] s ∧
      ¬Unaffected sampleSettings true [⟨true,"k",1,some errRateLimited⟩,⟨false,"k",0,none⟩] := by
  refine ⟨_,sequence_of_run _ (sequence_of_run _ .start trivial rfl) trivial rfl,?_⟩
  rintro ⟨⟨s,halone⟩,-⟩
  cases halone with
  | call hlog _ hbuilt hexec =>
    cases hlog
    have hverdict := (call_outcome quiet_empty hbuilt hexec).1
    exact absurd hverdict (by decide)

end Sequences

end Certctl.LimiterInstances
