import Certctl.DomainRecords
import Certctl.SlidingLog
import Mathlib.Data.List.AList
import Mathlib.Data.Finset.Card
import Mathlib.Algebra.Order.Group.Int

/-!
# The in-memory rate limiter

A limiter keeps one sliding-window log for each key in a map of bounded
size. A call that finds the map full evicts an entry before it looks at its
own key: the first empty bucket in the order of the iteration, or the one
whose newest timestamp is the oldest. While no call finds the map full the
verdicts are exact for every key. A full map costs a key its live
timestamps, the caller's own among them, also when the caller needs no room.
-/

namespace Certctl.SlidingWindow

open DomainRecords SlidingLog Option
open List

def errRateLimited : GoError := ⟨"ratelimit: per-key cap exceeded for the configured window",none⟩

/-- The limiter; the mutex is held for the whole of a call. -/
structure SlidingWindowLimiter where
  buckets : AList fun _ : String => List Time
  /-- Calls that a key may make in a window. -/
  maxN : ℤ
  window : Time
  /-- Keys that the map may hold before entries are evicted. -/
  cap : ℤ
  disabled : Bool

def newSlidingWindowLimiter (maxN : ℤ) (window : Time) (mapCap : ℤ) : SlidingWindowLimiter where
  buckets := ∅
  maxN := maxN
  window := if window≤0 then 24*3600*second else window
  cap := if mapCap≤0 then 100000 else mapCap
  disabled := decide (maxN≤0)

/-- Drop the entries before the cutoff by one scan from the front. -/
def pruneOlderThan (b : List Time) (cutoff : Time) : List Time := b.dropWhile (·<cutoff)

def bucket (buckets : AList fun _ : String => List Time) (key : String) : List Time := (buckets.lookup key).getD []

/-- The entry that the scan of the map drops: an empty bucket at once, or after the scan the bucket whose newest
timestamp is the oldest, the first of several. -/
def oldestKey (buckets : AList fun _ : String => List Time) : Option (String×Time)→List String→Option String
  | oldest,[] => (oldest.map Prod.fst).filter (·≠"")
  | oldest,k::rest =>
    match (bucket buckets k).getLast?,oldest with
    | none,_ => some k
    | some newest,none => oldestKey buckets (some (k,newest)) rest
    | some newest,some (key,ts) =>
      if newest<ts then oldestKey buckets (some (k,newest)) rest else oldestKey buckets (some (key,ts)) rest

def evictOldestLocked (order : List String) (buckets : AList fun _ : String => List Time) :
    AList fun _ : String => List Time :=
  match oldestKey buckets none order with
  | some key => buckets.erase key
  | none => buckets

/-- Room for a key, if the map is full. -/
def SlidingWindowLimiter.evicted (l : SlidingWindowLimiter) (order : List String) : AList fun _ : String => List Time :=
  if l.cap≤l.buckets.keys.length then evictOldestLocked order l.buckets else l.buckets

/-- Whether an event is permitted now. A map that is full is visited in the given order. -/
def SlidingWindowLimiter.allow (l : SlidingWindowLimiter) (key : String) (now : Time) (order : List String) :
    Err×SlidingWindowLimiter :=
  if l.disabled then (none,l)
  else if key="" then (none,l)
  else
    let buckets := l.evicted order
    let pruned := pruneOlderThan (bucket buckets key) (now-l.window)
    if l.maxN≤pruned.length then (some errRateLimited,{l with buckets := buckets.insert key pruned})
    else (none,{l with buckets := buckets.insert key (pruned++[now])})

section Map

variable {buckets : AList fun _ : String => List Time} {key other : String} {times : List Time}

@[simp] theorem bucket_insert_self : bucket (buckets.insert key times) key=times := by
  rw [bucket,AList.lookup_insert,getD_some]

theorem bucket_insert_ne (h : other≠key) : bucket (buckets.insert key times) other=bucket buckets other := by
  rw [bucket,AList.lookup_insert_ne h,bucket]

theorem bucket_erase (buckets : AList fun _ : String => List Time) (key other : String) :
    bucket (buckets.erase key) other=if other=key then [] else bucket buckets other := by
  split
  · rename_i h
    rw [h,bucket,AList.lookup_erase,getD_none]
  · rename_i h
    rw [bucket,AList.lookup_erase_ne h,bucket]

theorem bucket_of_not_mem (h : key∉buckets.keys) : bucket buckets key=[] := by
  rw [bucket,AList.lookup_eq_none.mpr (fun hmem => h (AList.mem_keys.mp hmem)),getD_none]

/-- The newest timestamp of a bucket lies before the cutoff, if there is one. -/
def Stale (cutoff : Time) (times : List Time) : Prop := ∀ newest∈times.getLast?,newest<cutoff

variable {cutoff : Time}

theorem Stale.all (h : Stale cutoff times) (hsorted : times.Pairwise (·≤·)) : ∀ x∈times,x<cutoff := by
  intro x hx
  have hne : times≠[] := ne_nil_of_mem hx
  have hlast := getLast?_eq_some_getLast hne
  exact (hsorted.rel_getLast hx).trans_lt (h _ hlast)

theorem stale_of_oldestKey (order : List String) (oldest : Option (String×Time))
    (holdest : ∀ p∈oldest,(bucket buckets p.1).getLast?=some p.2)
    (h : (∃ k∈order,Stale cutoff (bucket buckets k)) ∨ ∃ p∈oldest,p.2<cutoff) :
    ∀ victim∈oldestKey buckets oldest order,Stale cutoff (bucket buckets victim) := by
  induction order generalizing oldest with
  | nil =>
    intro victim hvictim
    obtain ⟨k,hk,-⟩|⟨p,hp,hbefore⟩ := h
    · exact absurd hk not_mem_nil
    obtain ⟨hfirst,-⟩ := mem_filter_iff.mp hvictim
    obtain ⟨q,hq,rfl⟩ := mem_map.mp hfirst
    obtain rfl := mem_unique hp hq
    intro newest hnewest
    rw [holdest p hp] at hnewest
    cases hnewest
    exact hbefore
  | cons k rest ih =>
    have hnext : ∀ q : String×Time,(Stale cutoff (bucket buckets k) → q.2<cutoff) → (∀ p∈oldest,p.2<cutoff → q.2<cutoff) →
        (∃ k∈rest,Stale cutoff (bucket buckets k)) ∨ ∃ p∈some q,p.2<cutoff := by
      intro q hfirst hlater
      obtain ⟨j,hj,hstale⟩|⟨p,hp,hbefore⟩ := h
      · rcases mem_cons.mp hj with rfl|hj
        · exact .inr ⟨q,rfl,hfirst hstale⟩
        · exact .inl ⟨j,hj,hstale⟩
      · exact .inr ⟨q,rfl,hlater p hp hbefore⟩
    unfold oldestKey
    split
    · rename_i hempty
      intro victim hvictim newest hnewest
      cases hvictim
      rw [hempty] at hnewest
      cases hnewest
    · rename_i newest hnewest
      exact ih (some (k,newest)) (fun p hp => by cases hp; exact hnewest)
        (hnext (k,newest) (fun hstale => hstale newest hnewest) nofun)
    rename_i newest key ts hnewest
    split
    · rename_i hbefore
      refine ih (some (k,newest)) (fun p hp => by cases hp; exact hnewest)
        (hnext (k,newest) (fun hstale => hstale newest hnewest) fun p hp hold => ?_)
      cases hp
      exact hbefore.trans hold
    · rename_i hnot
      refine ih (some (key,ts)) holdest
        (hnext (key,ts) (fun hstale => (not_lt.mp hnot).trans_lt (hstale newest hnewest)) fun p hp hold => ?_)
      cases hp
      exact hold

end Map

section Calls

variable {l : SlidingWindowLimiter} {key : String} {now : Time} {order : List String}

/-- Verdict and log of a key once room was made. -/
def SlidingWindowLimiter.decided (l : SlidingWindowLimiter) (key : String) (now : Time) (order : List String) :
    Bool×List Time := request l.maxN l.window (bucket (l.evicted order) key) now

theorem allow_eq (hon : l.disabled=false) (hkey : key≠"") : l.allow key now order=
    (if (l.decided key now order).1=true then none else some errRateLimited,
      {l with buckets := (l.evicted order).insert key (l.decided key now order).2}) := by
  simp only [SlidingWindowLimiter.allow,SlidingWindowLimiter.decided,hon,hkey,Bool.false_eq_true,if_false,request]
  have hprune : pruneOlderThan (bucket (l.evicted order) key) (now-l.window)=
      prune (now-l.window) (bucket (l.evicted order) key) := rfl
  rw [hprune]
  split
  · simp only [Bool.false_eq_true,if_false]
  · simp only [if_true]

theorem allow_skipped (h : l.disabled=true ∨ key="") : l.allow key now order=(none,l) := by
  unfold SlidingWindowLimiter.allow
  rcases h with h|h
  · rw [if_pos h]
  · split <;> rfl

theorem allow_config (l : SlidingWindowLimiter) (key : String) (now : Time) (order : List String) :
    (l.allow key now order).2.maxN=l.maxN ∧ (l.allow key now order).2.window=l.window ∧
    (l.allow key now order).2.cap=l.cap ∧ (l.allow key now order).2.disabled=l.disabled := by
  by_cases hskip : l.disabled=true ∨ key=""
  · rw [allow_skipped hskip]
    exact ⟨rfl,rfl,rfl,rfl⟩
  obtain ⟨hon,hkey⟩ := not_or.mp hskip
  rw [allow_eq (Bool.eq_false_of_not_eq_true hon) hkey]
  exact ⟨rfl,rfl,rfl,rfl⟩

end Calls

/-- A call that was made, and whether it passed. -/
structure Entry where
  key : String
  now : Time
  admitted : Bool
deriving DecidableEq

/-- A call with the order in which the map would be visited. -/
structure Call where
  key : String
  now : Time
  /-- The keys of the map in the order of the iteration. -/
  order : List String

def SlidingWindowLimiter.after (l : SlidingWindowLimiter) : List Call→SlidingWindowLimiter
  | [] => l
  | c::earlier => ((l.after earlier).allow c.key c.now c.order).2

def callTimes (key : String) (calls : List Call) : List Time := (calls.filter (·.key=key)).map Call.now

variable {start : SlidingWindowLimiter}

/-- With room for more keys than there are calls nothing is evicted, and a bucket is the log of the calls for its
key. -/
theorem after_unlimited (hempty : start.buckets=∅) (hon : start.disabled=false)
    (calls : List Call) (hroom : (calls.length : ℤ) ≤ start.cap) : (start.after calls).disabled=false ∧
      (start.after calls).maxN=start.maxN ∧ (start.after calls).window=start.window ∧
      (start.after calls).cap=start.cap ∧ (start.after calls).buckets.keys.length≤calls.length ∧
      ∀ key≠"",bucket (start.after calls).buckets key=logAfter start.maxN start.window (callTimes key calls) := by
  induction calls with
  | nil =>
    refine ⟨hon,rfl,rfl,rfl,?_,fun key _ => ?_⟩
    · rw [SlidingWindowLimiter.after,hempty]
      exact le_rfl
    · rw [SlidingWindowLimiter.after,hempty]
      rfl
  | cons c earlier ih =>
    rw [length_cons] at hroom
    obtain ⟨hdisabled,hmaxN,hwindow,hcap,hlength,hlogs⟩ := ih (by omega)
    obtain ⟨hmaxN',hwindow',hcap',hdisabled'⟩ := allow_config (start.after earlier) c.key c.now c.order
    have hevicted : (start.after earlier).evicted c.order=(start.after earlier).buckets :=
      if_neg (not_le.mpr (by rw [hcap]; omega))
    refine ⟨hdisabled'.trans hdisabled,hmaxN'.trans hmaxN,hwindow'.trans hwindow,hcap'.trans hcap,?_,fun key hkey => ?_⟩
    · rw [SlidingWindowLimiter.after]
      by_cases hskip : c.key=""
      · rw [allow_skipped (.inr hskip)]
        exact hlength.trans (Nat.le_succ _)
      · rw [allow_eq hdisabled hskip,hevicted,AList.keys_insert,length_cons]
        exact Nat.succ_le_succ ((erase_sublist).length_le.trans hlength)
    rw [SlidingWindowLimiter.after,callTimes,filter_cons]
    by_cases hskip : c.key=""
    · rw [allow_skipped (.inr hskip),if_neg (by simpa [hskip] using Ne.symm hkey)]
      exact hlogs key hkey
    rw [allow_eq hdisabled hskip,hevicted]
    by_cases hsame : c.key=key
    · subst hsame
      rw [bucket_insert_self,if_pos (by simp),map_cons,SlidingWindowLimiter.decided,hevicted,hmaxN,
        hwindow,hlogs c.key hkey]
      rfl
    · rw [bucket_insert_ne (Ne.symm hsame),if_neg (by simpa using hsame)]
      exact hlogs key hkey

theorem allow_unlimited (hempty : start.buckets=∅) (hon : start.disabled=false)
    (calls : List Call) (hroom : (calls.length : ℤ) < start.cap) {key : String} (hkey : key≠"") (now : Time)
    (order : List String) : ((start.after calls).allow key now order).1=
      if (request start.maxN start.window (logAfter start.maxN start.window (callTimes key calls)) now).1=true then none
      else some errRateLimited := by
  obtain ⟨hdisabled,hmaxN,hwindow,hcap,hlength,hlogs⟩ := after_unlimited hempty hon calls hroom.le
  have hevicted : (start.after calls).evicted order=(start.after calls).buckets :=
    if_neg (not_le.mpr (by rw [hcap]; omega))
  rw [allow_eq hdisabled hkey,SlidingWindowLimiter.decided,hevicted,hmaxN,hwindow,hlogs key hkey]

def SlidingWindowLimiter.entry (l : SlidingWindowLimiter) (c : Call) : Entry :=
  ⟨c.key,c.now,(l.allow c.key c.now c.order).1.isNone⟩

/-- Sequences of calls at times that do not go back, the latest first, with the map visited in any order. Every call
meets the condition. -/
inductive Run (ok : SlidingWindowLimiter→Call→Prop) (start : SlidingWindowLimiter) :
    List Entry→SlidingWindowLimiter→Prop
  | start : Run ok start [] start
  | call {log : List Entry} {l : SlidingWindowLimiter} {c : Call} (before : Run ok start log l)
      (forward : ∀ e∈log,e.now≤c.now) (visits : c.order.Perm l.buckets.keys) (admitted : ok l c) :
      Run ok start (l.entry c::log) (l.allow c.key c.now c.order).2

def anyCall : SlidingWindowLimiter→Call→Prop := fun _ _ => True

def timesOf (key : String) (log : List Entry) : List Time := (log.filter (·.key=key)).map Entry.now

def passedTimes (key : String) (log : List Entry) : List Time :=
  (log.filter fun e => e.admitted && e.key=key).map Entry.now

def usedKeys (log : List Entry) : Finset String := (log.map Entry.key).toFinset.erase ""

theorem usedKeys_append (later : List Entry) (e : Entry) (earlier : List Entry) :
    usedKeys earlier⊆usedKeys (later++e::earlier) := by
  refine Finset.erase_subset_erase _ fun key hkey => ?_
  rw [List.mem_toFinset] at hkey ⊢
  rw [map_append]
  exact mem_append_right _ (mem_cons_of_mem _ hkey)

section Invariants

variable {log : List Entry} {l : SlidingWindowLimiter} {c : Call}

/-- Buckets are in order and hold times of calls, under keys of calls. -/
structure Tidy (log : List Entry) (l : SlidingWindowLimiter) : Prop where
  sorted : ∀ key,(bucket l.buckets key).Pairwise (·≤·)
  /-- Timestamps are times of calls. -/
  stamped : ∀ key,∀ x∈bucket l.buckets key,∃ e∈log,e.now=x
  keys : ∀ key∈l.buckets.keys,key∈usedKeys log

theorem bucket_evicted (l : SlidingWindowLimiter) (order : List String) (key : String) :
    (bucket (l.evicted order) key).Sublist (bucket l.buckets key) := by
  unfold SlidingWindowLimiter.evicted evictOldestLocked
  split
  · split
    · rw [bucket_erase]
      split
      · exact nil_sublist _
      · exact List.Sublist.refl _
    · exact List.Sublist.refl _
  · exact List.Sublist.refl _

theorem keys_evicted (l : SlidingWindowLimiter) (order : List String) {key : String}
    (h : key∈(l.evicted order).keys) : key∈l.buckets.keys := by
  unfold SlidingWindowLimiter.evicted evictOldestLocked at h
  split at h
  · split at h
    · rw [AList.keys_erase] at h
      exact mem_of_mem_erase h
    · exact h
  · exact h

/-- A call keeps the map tidy. -/
theorem tidy_allow (h : Tidy log l) (hforward : ∀ e∈log,e.now≤c.now) :
    Tidy (l.entry c::log) (l.allow c.key c.now c.order).2 := by
  have hkeys : ∀ key∈usedKeys log,key∈usedKeys (l.entry c::log) := fun key hkey => usedKeys_append [] _ log hkey
  have hold : ∀ x,(∃ e∈log,e.now=x) → ∃ e∈l.entry c::log,e.now=x := by
    rintro x ⟨e,he,hx⟩
    exact ⟨e,mem_cons_of_mem _ he,hx⟩
  by_cases hskip : l.disabled=true ∨ c.key=""
  · rw [allow_skipped hskip]
    exact ⟨h.sorted,fun key x hx => hold x (h.stamped key x hx),fun key hkey => hkeys key (h.keys key hkey)⟩
  obtain ⟨hon,hkey⟩ := not_or.mp hskip
  rw [allow_eq (Bool.eq_false_of_not_eq_true hon) hkey]
  have hsorted : ∀ key,(bucket (l.evicted c.order) key).Pairwise (·≤·) :=
    fun key => (h.sorted key).sublist (bucket_evicted l c.order key)
  have hstamped : ∀ key,∀ x∈bucket (l.evicted c.order) key,∃ e∈log,e.now=x :=
    fun key x hx => h.stamped key x ((bucket_evicted l c.order key).subset hx)
  have hpruned : ∀ x∈prune (c.now-l.window) (bucket (l.evicted c.order) c.key),∃ e∈log,e.now=x :=
    fun x hx => hstamped c.key x (mem_of_mem_prune hx)
  refine ⟨fun key => ?_,fun key x hx => ?_,fun key hmem => ?_⟩
  · by_cases hsame : key=c.key
    · rw [hsame,bucket_insert_self,SlidingWindowLimiter.decided,request_snd]
      refine pairwise_append.mpr ⟨prune_sorted (hsorted c.key),?_,fun x hx y hy => ?_⟩
      · split
        · exact pairwise_singleton _ _
        · exact List.Pairwise.nil
      obtain ⟨e,he,rfl⟩ := hpruned x hx
      split at hy
      · rw [mem_singleton.mp hy]
        exact hforward e he
      · cases hy
    · rw [bucket_insert_ne hsame]
      exact hsorted key
  · by_cases hsame : key=c.key
    · rw [hsame,bucket_insert_self,SlidingWindowLimiter.decided,request_snd] at hx
      rcases mem_append.mp hx with hx|hx
      · exact hold x (hpruned x hx)
      split at hx
      · exact ⟨l.entry c,mem_cons_self,(mem_singleton.mp hx).symm⟩
      · cases hx
    · rw [bucket_insert_ne hsame] at hx
      exact hold x (hstamped key x hx)
  · rcases (AList.mem_insert _).mp (AList.mem_keys.mpr hmem) with rfl|hmem
    · refine Finset.mem_erase.mpr ⟨hkey,?_⟩
      rw [map_cons,toFinset_cons]
      exact Finset.mem_insert_self _ _
    · exact hkeys key (h.keys key (keys_evicted l c.order (AList.mem_keys.mp hmem)))

/-- Within every later window the buckets are the logs of the calls made for their keys, and so are the verdicts. -/
structure Exact (log : List Entry) (l : SlidingWindowLimiter) : Prop where
  /-- A bucket is the log of the calls for its key, up to what has left the window. -/
  logs : ∀ key≠"",∀ later,(∀ e∈log,e.now≤later) → prune (later-l.window) (bucket l.buckets key)=
    prune (later-l.window) (logAfter l.maxN l.window (timesOf key log))
  verdicts : ∀ key≠"",passedTimes key log=admitted l.maxN l.window (timesOf key log)

/-- Making room drops nothing that is within the window at the time or later. -/
def Harmless (l : SlidingWindowLimiter) (c : Call) : Prop := ∀ key later,c.now≤later →
  prune (later-l.window) (bucket (l.evicted c.order) key)=prune (later-l.window) (bucket l.buckets key)

/-- Room is made at no one's expense if the map is not full or a bucket is stale. -/
theorem harmless_of_stale (h : Tidy log l) (hvisits : c.order.Perm l.buckets.keys)
    (hroom : (l.buckets.keys.length : ℤ)<l.cap ∨
      ∃ key∈l.buckets.keys,Stale (c.now-l.window) (bucket l.buckets key)) : Harmless l c := by
  intro key later hlater
  rcases hroom with hroom|⟨stale,hmem,hstale⟩
  · rw [SlidingWindowLimiter.evicted,if_neg (not_le.mpr hroom)]
  unfold SlidingWindowLimiter.evicted evictOldestLocked
  split
  · split
    · rename_i victim hvictim
      rw [bucket_erase]
      split
      · rename_i hsame
        have hvictimStale := stale_of_oldestKey c.order none (fun p hp => by cases hp)
          (.inl ⟨stale,hvisits.mem_iff.mpr hmem,hstale⟩) victim hvictim
        rw [hsame,prune_eq_nil fun x hx => (hvictimStale.all (h.sorted victim) x hx).trans_le
          (sub_le_sub_right hlater l.window)]
        rfl
      · rfl
    · rfl
  · rfl

theorem timesOf_cons (key : String) (e : Entry) (log : List Entry) :
    timesOf key (e::log)=if e.key=key then e.now::timesOf key log else timesOf key log := by
  unfold timesOf
  by_cases h : e.key=key
  · rw [if_pos h,filter_cons_of_pos (by simpa using h),map_cons]
  · rw [if_neg h,filter_cons_of_neg (by simpa using h)]

theorem passedTimes_cons (key : String) (e : Entry) (log : List Entry) : passedTimes key (e::log)=
    if e.key=key ∧ e.admitted=true then e.now::passedTimes key log else passedTimes key log := by
  unfold passedTimes
  by_cases h : e.key=key ∧ e.admitted=true
  · rw [if_pos h,filter_cons_of_pos (by simp [h.1,h.2]),map_cons]
  · rw [if_neg h,filter_cons_of_neg (by simpa [and_comm] using h)]

theorem Exact.decided (h : Exact log l) (hforward : ∀ e∈log,e.now≤c.now) (hkey : c.key≠"")
    (hharmless : Harmless l c) : l.decided c.key c.now c.order=
      request l.maxN l.window (logAfter l.maxN l.window (timesOf c.key log)) c.now :=
  request_congr ((hharmless c.key c.now le_rfl).trans (h.logs c.key hkey c.now hforward))

theorem Exact.entry_admitted (h : Exact log l) (hon : l.disabled=false) (hforward : ∀ e∈log,e.now≤c.now)
    (hkey : c.key≠"") (hharmless : Harmless l c) : (l.entry c).admitted=
      (request l.maxN l.window (logAfter l.maxN l.window (timesOf c.key log)) c.now).1 := by
  rw [← h.decided hforward hkey hharmless,SlidingWindowLimiter.entry,allow_eq hon hkey]
  cases (l.decided c.key c.now c.order).1 <;> rfl

/-- A call keeps the buckets exact if it makes room at no one's expense. -/
theorem exact_allow (h : Exact log l) (hon : l.disabled=false) (hforward : ∀ e∈log,e.now≤c.now)
    (hspares : c.key≠"" → Harmless l c) : Exact (l.entry c::log) (l.allow c.key c.now c.order).2 := by
  obtain ⟨hmaxN,hwindow,-,-⟩ := allow_config l c.key c.now c.order
  by_cases hkey : c.key=""
  · have hother : ∀ key≠"",(l.entry c).key≠key := fun key hne hsame => hne (hsame ▸ hkey)
    refine ⟨fun key hne later hlater => ?_,fun key hne => ?_⟩
    · rw [timesOf_cons,if_neg (hother key hne),allow_skipped (.inr hkey)]
      exact h.logs key hne later fun e he => hlater e (mem_cons_of_mem _ he)
    · rw [hmaxN,hwindow,timesOf_cons,if_neg (hother key hne),passedTimes_cons,if_neg fun hboth => hother key hne hboth.1]
      exact h.verdicts key hne
  have hharmless := hspares hkey
  have hdecided := h.decided hforward hkey hharmless
  have hverdict := h.entry_admitted hon hforward hkey hharmless
  refine ⟨fun key hne later hlater => ?_,fun key hne => ?_⟩
  · rw [timesOf_cons,allow_eq hon hkey]
    by_cases hsame : c.key=key
    · subst hsame
      rw [if_pos (show (l.entry c).key=c.key from rfl),bucket_insert_self,hdecided]
      rfl
    rw [if_neg (show (l.entry c).key≠key from hsame),bucket_insert_ne (Ne.symm hsame)]
    have hnow : c.now≤later := hlater (l.entry c) mem_cons_self
    exact (hharmless key later hnow).trans (h.logs key hne later fun e he => hlater e (mem_cons_of_mem _ he))
  rw [hmaxN,hwindow,timesOf_cons,passedTimes_cons]
  by_cases hsame : c.key=key
  · subst hsame
    rw [if_pos (show (l.entry c).key=c.key from rfl),admitted,h.verdicts c.key hne,hverdict,
      show (l.entry c).now=c.now from rfl]
    by_cases hpass : (request l.maxN l.window (logAfter l.maxN l.window (timesOf c.key log)) c.now).1=true
    · rw [if_pos ⟨rfl,hpass⟩,if_pos hpass]
    · rw [if_neg fun hboth => hpass hboth.2,if_neg hpass]
  · rw [if_neg (show (l.entry c).key≠key from hsame),if_neg fun hboth => hsame hboth.1]
    exact h.verdicts key hne

end Invariants

section Runs

variable {ok : SlidingWindowLimiter→Call→Prop} {log : List Entry} {l : SlidingWindowLimiter} {maxN mapCap : ℤ}
  {window : Time}

theorem run_config (h : Run ok start log l) :
    l.maxN=start.maxN ∧ l.window=start.window ∧ l.cap=start.cap ∧ l.disabled=start.disabled := by
  induction h with
  | start => exact ⟨rfl,rfl,rfl,rfl⟩
  | call before _ _ _ ih =>
    obtain ⟨hmaxN,hwindow,hcap,hdisabled⟩ := allow_config _ _ _ _
    exact ⟨hmaxN.trans ih.1,hwindow.trans ih.2.1,hcap.trans ih.2.2.1,hdisabled.trans ih.2.2.2⟩

theorem run_tidy (h : Run ok (newSlidingWindowLimiter maxN window mapCap) log l) : Tidy log l := by
  induction h with
  | start =>
    refine ⟨fun key => List.Pairwise.nil,fun key x hx => absurd hx not_mem_nil,fun key hkey => ?_⟩
    exact absurd hkey not_mem_nil
  | call before forward _ _ ih => exact tidy_allow ih forward

theorem run_sorted (h : Run ok start log l) : log.Pairwise (fun e d => d.now≤e.now) := by
  induction h with
  | start => exact List.Pairwise.nil
  | call before forward _ _ ih => exact pairwise_cons.mpr ⟨forward,ih⟩

theorem timesOf_sorted (h : log.Pairwise (fun e d => d.now≤e.now)) (key : String) : (timesOf key log).Pairwise (·≥·) :=
  pairwise_map.mpr (h.sublist filter_sublist)

theorem Tidy.length_le (h : Tidy log l) : l.buckets.keys.length≤(usedKeys log).card := by
  rw [← toFinset_card_of_nodup l.buckets.keys_nodup]
  exact Finset.card_le_card fun key hkey => h.keys key (mem_toFinset.mp hkey)

theorem run_exact (hpos : 0 < maxN) (h : Run ok (newSlidingWindowLimiter maxN window mapCap) log l)
    (hspares : ∀ log' l' c,Run ok (newSlidingWindowLimiter maxN window mapCap) log' l' → ok l' c →
      c.order.Perm l'.buckets.keys → usedKeys (l'.entry c::log')⊆usedKeys log → c.key≠"" → Harmless l' c) :
    Exact log l := by
  induction h with
  | start => exact ⟨fun key _ later _ => rfl,fun key _ => rfl⟩
  | @call log l c before forward visits admitted ih =>
    have hon : l.disabled=false := (run_config before).2.2.2.trans (decide_eq_false (not_le.mpr hpos))
    have hmore : usedKeys log⊆usedKeys (l.entry c::log) := usedKeys_append [] _ log
    refine exact_allow (ih fun log' l' c' hrun hok hvisits hsub => ?_) hon forward ?_
    · exact hspares log' l' c' hrun hok hvisits (hsub.trans hmore)
    · exact hspares log l c before admitted visits subset_rfl

theorem run_split {later earlier : List Entry} {e : Entry}
    (h : Run ok start (later++e::earlier) l) : ∃ l' c,Run ok start earlier l' ∧ (∀ d∈earlier,d.now≤c.now) ∧
      c.order.Perm l'.buckets.keys ∧ ok l' c ∧ e=l'.entry c := by
  induction later generalizing l with
  | nil =>
    cases h with
    | call before forward visits admitted => exact ⟨_,_,before,forward,visits,admitted,rfl⟩
  | cons d later ih =>
    cases h with
    | call before => exact ih before

def admittedIn (key : String) (first last : Time) (log : List Entry) : ℕ :=
  log.countP fun e => e.admitted && e.key=key && first≤e.now && e.now≤last

theorem countP_passedTimes (key : String) (p : Time→Bool) (log : List Entry) :
    (passedTimes key log).countP p=log.countP fun e => e.admitted && e.key=key && p e.now := by
  rw [passedTimes,countP_map,countP_filter]
  refine countP_congr fun e _ => ?_
  simp only [Bool.and_eq_true]
  tauto

theorem admittedIn_eq (key : String) (first last : Time) (log : List Entry) :
    admittedIn key first last log=(passedTimes key log).countP fun t => first≤t && t≤last := by
  rw [countP_passedTimes,admittedIn]
  simp only [Bool.and_assoc]

theorem Exact.window_le (h : Exact log l) (hsorted : log.Pairwise (fun e d => d.now≤e.now)) (hpos : 0<l.maxN)
    {key : String} (hkey : key≠"") (first : Time) : (admittedIn key first (first+l.window) log : ℤ)≤l.maxN := by
  have hcount := countP_window_le l.maxN l.window (timesOf_sorted hsorted key) hpos.le first
  rw [← h.verdicts key hkey,← admittedIn_eq] at hcount
  exact hcount

variable {c : Call}

theorem Exact.entry_iff (h : Exact log l) (hsorted : log.Pairwise (fun e d => d.now≤e.now))
    (hon : l.disabled=false) (hforward : ∀ e∈log,e.now≤c.now) (hkey : c.key≠"") (hharmless : Harmless l c) :
    (l.entry c).admitted=true ↔ (admittedIn c.key (c.now-l.window) c.now log : ℤ)<l.maxN := by
  have htimes : ∀ t∈timesOf c.key log,t≤c.now := by
    intro t ht
    obtain ⟨e,he,rfl⟩ := mem_map.mp ht
    exact hforward e (mem_filter.mp he).1
  rw [h.entry_admitted hon hforward hkey hharmless,request_iff (timesOf_sorted hsorted c.key) htimes,
    ← h.verdicts c.key hkey,countP_passedTimes,admittedIn]
  have hsame : log.countP (fun e => e.admitted && e.key=c.key && decide (c.now-l.window≤e.now))=
      log.countP fun e => e.admitted && e.key=c.key && decide (c.now-l.window≤e.now) && decide (e.now≤c.now) := by
    refine countP_congr fun e he => ?_
    rw [decide_eq_true (hforward e he),Bool.and_true]
  rw [hsame]

section Room

variable {keys : Finset String} (hkeys : (keys.card : ℤ)<(newSlidingWindowLimiter maxN window mapCap).cap)
include hkeys

variable {c : Call}

theorem harmless_of_keys (h : Run ok (newSlidingWindowLimiter maxN window mapCap) log l)
    (hsub : usedKeys log⊆keys) (hvisits : c.order.Perm l.buckets.keys) : Harmless l c := by
  have hlength := (run_tidy h).length_le
  have hcard := Finset.card_le_card hsub
  refine harmless_of_stale (run_tidy h) hvisits (.inl ?_)
  rw [(run_config h).2.2.1]
  omega

section

variable (hpos : 0 < maxN) (h : Run ok (newSlidingWindowLimiter maxN window mapCap) log l) (hsub : usedKeys log⊆keys)
include hpos h hsub

theorem exact_of_keys : Exact log l := by
  refine run_exact hpos h fun log' l' c hrun' _ hvisits hless _ => harmless_of_keys hkeys hrun' ?_ hvisits
  exact (usedKeys_append [] (l'.entry c) log').trans (hless.trans hsub)

theorem entry_iff_of_keys (hforward : ∀ e∈log,e.now≤c.now) (hvisits : c.order.Perm l.buckets.keys) (hkey : c.key≠"") :
    (l.entry c).admitted=true ↔
      (admittedIn c.key (c.now-(newSlidingWindowLimiter maxN window mapCap).window) c.now log : ℤ) < maxN := by
  obtain ⟨hmaxN,hwindow,-,hdisabled⟩ := run_config h
  have hon : l.disabled=false := hdisabled.trans (decide_eq_false (not_le.mpr hpos))
  have hiff := (exact_of_keys hkeys hpos h hsub).entry_iff (run_sorted h) hon hforward hkey
    (harmless_of_keys hkeys h hsub hvisits)
  rw [hmaxN,hwindow] at hiff
  exact hiff

end

end Room

/-- While fewer keys are used than the map holds, a call passes if and only if fewer calls for its key than the limit
passed in the window before it, and no window holds more of them than the limit. -/
theorem allow_exact (maxN : ℤ) (window : Time) (mapCap : ℤ) (hpos : 0 < maxN) (log : List Entry)
    (l : SlidingWindowLimiter) (hrun : Run anyCall (newSlidingWindowLimiter maxN window mapCap) log l)
    (hkeys : ((usedKeys log).card : ℤ)<(newSlidingWindowLimiter maxN window mapCap).cap) :
    (∀ later e earlier,log=later++e::earlier → e.key≠"" → (e.admitted=true ↔
      (admittedIn e.key (e.now-(newSlidingWindowLimiter maxN window mapCap).window) e.now earlier : ℤ) < maxN)) ∧
    ∀ key≠"",∀ first,
      (admittedIn key first (first+(newSlidingWindowLimiter maxN window mapCap).window) log : ℤ) ≤ maxN := by
  refine ⟨fun later e earlier hlog hkey => ?_,fun key hkey first => ?_⟩
  · subst hlog
    obtain ⟨l',c,hbefore,hforward,hvisits,-,rfl⟩ := run_split hrun
    exact entry_iff_of_keys hkeys hpos hbefore (usedKeys_append later _ earlier) hforward hvisits hkey
  obtain ⟨hmaxN,hwindow,-,-⟩ := run_config hrun
  have hexact : Exact log l := exact_of_keys hkeys hpos hrun subset_rfl
  have hle := hexact.window_le (run_sorted hrun) (hmaxN.symm ▸ hpos) hkey first
  rw [hmaxN,hwindow] at hle
  exact hle

/-- Calls for one key in a map with room. -/
theorem allow_exact_sample : ∃ log l,Run anyCall (newSlidingWindowLimiter 1 10 5) log l ∧
    log=[⟨"k",10,false⟩,⟨"k",0,true⟩] ∧ (admittedIn "k" 0 (0+10) log : ℤ)≤1 := by
  have hfirst : Run anyCall (newSlidingWindowLimiter 1 10 5) [⟨"k",0,true⟩]
      ((newSlidingWindowLimiter 1 10 5).allow "k" 0 []).2 :=
    Run.call (c := ⟨"k",0,[]⟩) Run.start (forall_mem_nil _) (List.Perm.refl _) trivial
  have hsecond := Run.call (c := ⟨"k",10,["k"]⟩) hfirst (by decide) (List.Perm.refl _) trivial
  exact ⟨_,_,hsecond,rfl,(allow_exact 1 10 5 (by decide) _ _ hsecond (by decide)).2 "k" (by decide) 0⟩

/-- The map is not full, the key has no entry, or the entry of some key has left the window. -/
def sparing (l : SlidingWindowLimiter) (c : Call) : Prop :=
  (l.buckets.keys.length : ℤ)<l.cap ∨ c.key∉l.buckets.keys ∨
    ∃ key∈l.buckets.keys,∀ x∈bucket l.buckets key,x<c.now-l.window

/-- A call keeps the timestamps of its own key that are within the window, if it finds the map not full, or no entry
of its key, or an entry that has left the window. -/
theorem own_kept (h : Tidy log l) (hvisits : c.order.Perm l.buckets.keys) (hsparing : sparing l c) :
    ((bucket l.buckets c.key).filter (c.now-l.window≤·)).Sublist
      (bucket (l.allow c.key c.now c.order).2.buckets c.key) := by
  by_cases hskip : l.disabled=true ∨ c.key=""
  · rw [allow_skipped hskip]
    exact filter_sublist
  obtain ⟨hon,hkey⟩ := not_or.mp hskip
  rw [allow_eq (Bool.eq_false_of_not_eq_true hon) hkey,bucket_insert_self,SlidingWindowLimiter.decided,request_snd,
    ← prune_eq_filter (h.sorted c.key)]
  by_cases hfree : c.key∉l.buckets.keys
  · rw [bucket_of_not_mem hfree]
    exact nil_sublist _
  have hroom : (l.buckets.keys.length : ℤ)<l.cap ∨
      ∃ key∈l.buckets.keys,Stale (c.now-l.window) (bucket l.buckets key) := by
    rcases hsparing with hroom|hnot|⟨key,hmem,hgone⟩
    · exact .inl hroom
    · exact absurd hnot hfree
    · exact .inr ⟨key,hmem,fun newest hnewest => hgone newest (mem_of_getLast? hnewest)⟩
  rw [harmless_of_stale h hvisits hroom c.key c.now le_rfl]
  exact sublist_append_left _ _

/-- In every sequence of calls that each find the map not full, no entry of their key, or an entry that has left the
window, a call keeps the timestamps of its own key that are within the window, and while no more keys are used than
the map holds, no window holds more admitted calls for a key than the limit. -/
theorem full_map_spares (maxN : ℤ) (window : Time) (mapCap : ℤ) (log : List Entry) (l : SlidingWindowLimiter)
    (hrun : Run sparing (newSlidingWindowLimiter maxN window mapCap) log l) :
    (∀ c : Call,(∀ e∈log,e.now≤c.now) → c.order.Perm l.buckets.keys → sparing l c →
      ((bucket l.buckets c.key).filter (c.now-(newSlidingWindowLimiter maxN window mapCap).window≤·)).Sublist
        (bucket (l.allow c.key c.now c.order).2.buckets c.key)) ∧
    (0 < maxN → ((usedKeys log).card : ℤ)≤(newSlidingWindowLimiter maxN window mapCap).cap → ∀ key≠"",∀ first,
      (admittedIn key first (first+(newSlidingWindowLimiter maxN window mapCap).window) log : ℤ) ≤ maxN) := by
  obtain ⟨hmaxN,hwindow,-,-⟩ := run_config hrun
  refine ⟨fun c _ hvisits hsparing => ?_,fun hpos hkeys key hkey first => ?_⟩
  · have hkept := own_kept (run_tidy hrun) hvisits hsparing
    rw [hwindow] at hkept
    exact hkept
  have hexact : Exact log l := by
    refine run_exact hpos hrun fun log' l' c hrun' hsparing hvisits hsub hreaches => ?_
    refine harmless_of_stale (run_tidy hrun') hvisits ?_
    rcases hsparing with hroom|hfree|⟨stale,hmem,hgone⟩
    · exact .inl hroom
    · -- the key is one more than those in the map
      have hmore : insert c.key l'.buckets.keys.toFinset⊆usedKeys log := by
        refine Finset.Subset.trans ?_ hsub
        refine Finset.insert_subset ?_ fun used hused => usedKeys_append [] _ log'
          ((run_tidy hrun').keys used (mem_toFinset.mp hused))
        refine Finset.mem_erase.mpr ⟨hreaches,?_⟩
        rw [map_cons,toFinset_cons]
        exact Finset.mem_insert_self _ _
      have hcard := Finset.card_le_card hmore
      rw [Finset.card_insert_of_notMem fun h => hfree (mem_toFinset.mp h),
        toFinset_card_of_nodup l'.buckets.keys_nodup] at hcard
      rw [(run_config hrun').2.2.1]
      omega
    · exact .inr ⟨stale,hmem,fun newest hnewest => hgone newest (mem_of_getLast? hnewest)⟩
  have hle := hexact.window_le (run_sorted hrun) (hmaxN.symm ▸ hpos) hkey first
  rw [hmaxN,hwindow] at hle
  exact hle

/-- Two keys take turns in a map for two, and the second call for the first key finds an entry that has left the
window. -/
theorem full_map_spares_sample : ∃ log l,Run sparing (newSlidingWindowLimiter 1 10 2) log l ∧
    log=[⟨"a",11,true⟩,⟨"b",5,true⟩,⟨"a",0,true⟩] ∧ (admittedIn "a" 1 (1+10) log : ℤ)≤1 := by
  have hfirst : Run sparing (newSlidingWindowLimiter 1 10 2) [⟨"a",0,true⟩]
      ((newSlidingWindowLimiter 1 10 2).allow "a" 0 []).2 :=
    Run.call (c := ⟨"a",0,[]⟩) Run.start (forall_mem_nil _) (List.Perm.refl _) (.inl (by decide))
  have hsecond := Run.call (c := ⟨"b",5,["a"]⟩) hfirst (by decide) (List.Perm.refl _) (.inl (by decide))
  have hthird := Run.call (c := ⟨"a",11,["b","a"]⟩) hsecond (by decide) (List.Perm.refl _)
    (.inr (.inr ⟨"a",by decide,by decide⟩))
  exact ⟨_,_,hthird,rfl,(full_map_spares 1 10 2 _ _ hthird).2 (by decide) (by decide) "a" (by decide) 1⟩

/-- With room for one key, the second call of the only key discards the timestamp of the first, which is within the
window, and passes as well. -/
theorem full_map_resets_own_bucket : ∃ log l,Run anyCall (newSlidingWindowLimiter 1 10 1) log l ∧
    bucket l.buckets "k"=[0] ∧
    ¬((bucket l.buckets "k").filter ((1 : Time)-(newSlidingWindowLimiter 1 10 1).window≤·)).Sublist
      (bucket (l.allow "k" 1 ["k"]).2.buckets "k") ∧
    ∃ log' l',Run anyCall (newSlidingWindowLimiter 1 10 1) log' l' ∧
      ((usedKeys log').card : ℤ)≤(newSlidingWindowLimiter 1 10 1).cap ∧
      admittedIn "k" 0 (0+(newSlidingWindowLimiter 1 10 1).window) log'=2 := by
  have hfirst : Run anyCall (newSlidingWindowLimiter 1 10 1) [⟨"k",0,true⟩]
      ((newSlidingWindowLimiter 1 10 1).allow "k" 0 []).2 :=
    Run.call (c := ⟨"k",0,[]⟩) Run.start (forall_mem_nil _) (List.Perm.refl _) trivial
  have hsecond := Run.call (c := ⟨"k",1,["k"]⟩) hfirst (by decide) (List.Perm.refl _) trivial
  exact ⟨_,_,hfirst,by decide,by decide,_,_,hsecond,by decide,by decide⟩

end Runs

end Certctl.SlidingWindow
