import Certctl.SlidingWindow

/-!
# The lockout of the enrollment password

The password gate of enrollment asks a limiter before it looks at the
credentials and records a slot for every credential it rejects. The question
is put under a key of its own, and asking is itself recorded under that key.
The gate therefore counts the requests that it lets through, and not the
rejected ones, which are recorded under the other key.
-/

namespace Certctl.EstLockout

open DomainRecords SlidingWindow
open List

/-- The fields of the handler that the password gate reads. -/
structure ESTHandler where
  /-- Name of the handler in messages. -/
  labelForLog : String
  basicPassword : String
  failedBasicLimiter : Option SlidingWindowLimiter

/-- The name of the handler, with a default. -/
def ESTHandler.label (h : ESTHandler) : String := if h.labelForLog="" then "est" else h.labelForLog

/-- The parts of a request that are used. -/
structure BasicRequest where
  remoteAddr : String
  /-- User and password of the request, if it has any. -/
  basicAuth : Option (String×String)

/-- An answer that refuses. -/
structure Refusal where
  status : ℕ
  message : String
  wwwAuthenticate : Option String
deriving DecidableEq

/-- The source that the limiter counts; a given function splits host and port. -/
def clientIPForLimiter (splitHostPort : String→Option String) (remoteAddr : String) : String :=
  (splitHostPort remoteAddr).getD remoteAddr

def peekKey (srcIP : String) : String := srcIP++"|peek"

/-- Ask the limiter before the credentials are looked at. -/
def ESTHandler.gate (h : ESTHandler) (srcIP : String) (now : Time) (order : List String) : Option Refusal×ESTHandler :=
  match h.failedBasicLimiter with
  | none => (none,h)
  | some l =>
    if srcIP="" then (none,h)
    else
      let (err,l') := l.allow (peekKey srcIP) now order
      (if err=some errRateLimited then
        some ⟨429,h.label++" too many failed enrollment attempts from this source",none⟩ else none,
        {h with failedBasicLimiter := some l'})

def ESTHandler.recordFailedBasic (h : ESTHandler) (srcIP : String) (now : Time) (order : List String) : ESTHandler :=
  match h.failedBasicLimiter with
  | none => h
  | some l => if srcIP="" then h else {h with failedBasicLimiter := some (l.allow srcIP now order).2}

/-- The response to credentials that are missing or wrong. -/
def ESTHandler.rejection (h : ESTHandler) (r : BasicRequest) : Option Refusal :=
  let missing : Refusal :=
    ⟨401,h.label++" enrollment requires HTTP Basic auth",some "Basic realm=\"est-enrollment\""⟩
  match r.basicAuth with
  | none => some missing
  | some (user,pass) =>
    if user="" then some missing
    else if pass≠h.basicPassword then
      some ⟨401,h.label++" enrollment password incorrect",some "Basic realm=\"est-enrollment\""⟩
    else none

/-- The password gate; it returns the error response, if there is one. The clock is read once for the question and
once for the record, and a full map is visited in the given orders. -/
def ESTHandler.requireBasicAuth (splitHostPort : String→Option String) (h : ESTHandler) (r : BasicRequest)
    (peeked recorded : Time) (peekOrder recordOrder : List String) : Option Refusal×ESTHandler :=
  let srcIP := clientIPForLimiter splitHostPort r.remoteAddr
  match h.gate srcIP peeked peekOrder with
  | (some refusal,h') => (some refusal,h')
  | (none,h') =>
    match h'.rejection r with
    | some refusal => (some refusal,h'.recordFailedBasic srcIP recorded recordOrder)
    | none => (none,h')

/-- A request that was answered. -/
structure Attempt where
  now : Time
  ended : Time
  /-- The error response, if there was one. -/
  refusal : Option Refusal

def Attempt.lockedOut (a : Attempt) : Bool := a.refusal.any (·.status=429)

/-- The credentials of the request were rejected, and a failure recorded. -/
def Attempt.failed (a : Attempt) : Bool := a.refusal.any (·.status=401)

def within (kind : Attempt→Bool) (window now : Time) (log : List Attempt) : ℕ :=
  log.countP fun a => kind a && now-window≤a.now

def Visits (h : ESTHandler) (order : List String) : Prop := ∀ l,h.failedBasicLimiter=some l → order.Perm l.buckets.keys

/-- Requests of one source, one after the other, the latest first. -/
inductive Served (splitHostPort : String→Option String) (start : ESTHandler) (srcIP : String) :
    List Attempt→ESTHandler→Prop where
  | start : Served splitHostPort start srcIP [] start
  | request {log : List Attempt} {h : ESTHandler} {r : BasicRequest} {peeked recorded : Time}
      {peekOrder recordOrder : List String} (before : Served splitHostPort start srcIP log h)
      (source : clientIPForLimiter splitHostPort r.remoteAddr=srcIP) (forward : ∀ a∈log,a.ended≤peeked)
      (clock : peeked≤recorded) (visitsPeek : Visits h peekOrder)
      (visitsRecord : Visits (h.gate srcIP peeked peekOrder).2 recordOrder) :
      Served splitHostPort start srcIP
        (⟨peeked,recorded,(h.requireBasicAuth splitHostPort r peeked recorded peekOrder recordOrder).1⟩::log)
        (h.requireBasicAuth splitHostPort r peeked recorded peekOrder recordOrder).2

section Answers

variable {splitHostPort : String→Option String} {h : ESTHandler} {r : BasicRequest} {srcIP : String}
  {peeked recorded : Time} {peekOrder recordOrder : List String} {l : SlidingWindowLimiter}

theorem allow_refuses (l : SlidingWindowLimiter) (c : Call) :
    (l.allow c.key c.now c.order).1=some errRateLimited ↔ (l.entry c).admitted=false := by
  unfold SlidingWindowLimiter.entry
  by_cases hskip : l.disabled=true ∨ c.key=""
  · rw [allow_skipped hskip]
    exact ⟨nofun,nofun⟩
  obtain ⟨hon,hkey⟩ := not_or.mp hskip
  rw [allow_eq (Bool.eq_false_of_not_eq_true hon) hkey]
  cases (l.decided c.key c.now c.order).1 with
  | false => exact ⟨fun _ => rfl,fun _ => rfl⟩
  | true => exact ⟨nofun,nofun⟩

theorem rejection_status {refusal : Refusal} (hrejected : h.rejection r=some refusal) : refusal.status=401 := by
  simp only [ESTHandler.rejection] at hrejected
  split at hrejected
  · cases hrejected
    rfl
  split at hrejected
  · cases hrejected
    rfl
  split at hrejected
  · cases hrejected
    rfl
  · cases hrejected

variable (peeked peekOrder) in
theorem gate_eq (hl : h.failedBasicLimiter=some l) (hsrc : srcIP≠"") :
    ((h.gate srcIP peeked peekOrder).1.any (·.status=429)=!(l.entry ⟨peekKey srcIP,peeked,peekOrder⟩).admitted) ∧
      ((h.gate srcIP peeked peekOrder).1=none ↔ (l.entry ⟨peekKey srcIP,peeked,peekOrder⟩).admitted=true) ∧
      (h.gate srcIP peeked peekOrder).2.failedBasicLimiter=some (l.allow (peekKey srcIP) peeked peekOrder).2 := by
  have hrefuses := allow_refuses l ⟨peekKey srcIP,peeked,peekOrder⟩
  simp only [ESTHandler.gate,hl,if_neg hsrc]
  by_cases hpass : (l.entry ⟨peekKey srcIP,peeked,peekOrder⟩).admitted=true
  · have hnot : (l.allow (peekKey srcIP) peeked peekOrder).1≠some errRateLimited :=
      fun hno => Bool.false_ne_true ((hrefuses.mp hno).symm.trans hpass)
    rw [if_neg hnot,hpass]
    exact ⟨rfl,⟨fun _ => rfl,fun _ => rfl⟩,trivial⟩
  · have hyes := hrefuses.mpr (Bool.eq_false_of_not_eq_true hpass)
    rw [if_pos hyes,Bool.eq_false_of_not_eq_true hpass]
    exact ⟨rfl,⟨nofun,nofun⟩,trivial⟩

variable (peeked recorded peekOrder recordOrder) in
theorem requireBasicAuth_gate (hl : h.failedBasicLimiter=some l) (hsrc : srcIP≠"")
    (hsource : clientIPForLimiter splitHostPort r.remoteAddr=srcIP) :
    ((h.requireBasicAuth splitHostPort r peeked recorded peekOrder recordOrder).1.any (·.status=429)=
      !(l.entry ⟨peekKey srcIP,peeked,peekOrder⟩).admitted) ∧
    ((h.requireBasicAuth splitHostPort r peeked recorded peekOrder recordOrder).2.failedBasicLimiter=
        some (l.allow (peekKey srcIP) peeked peekOrder).2 ∨
      (h.requireBasicAuth splitHostPort r peeked recorded peekOrder recordOrder).2.failedBasicLimiter=
        some ((l.allow (peekKey srcIP) peeked peekOrder).2.allow srcIP recorded recordOrder).2) := by
  obtain ⟨hstatus,hnone,hlimiter⟩ := gate_eq peeked peekOrder hl hsrc
  unfold ESTHandler.requireBasicAuth
  dsimp only
  rw [hsource]
  split
  · rename_i hgate
    rw [hgate] at hstatus hlimiter
    exact ⟨hstatus,.inl hlimiter⟩
  rename_i hgate
  rw [hgate] at hnone hlimiter
  dsimp only at hlimiter
  rw [hnone.mp rfl]
  split
  · rename_i hrejected
    refine ⟨?_,.inr ?_⟩
    · rw [Option.any_some,rejection_status hrejected]
      rfl
    · simp only [ESTHandler.recordFailedBasic,hlimiter,if_neg hsrc]
  · exact ⟨rfl,.inl hlimiter⟩

end Answers

section Counting

variable {splitHostPort : String→Option String} {start h : ESTHandler} {srcIP : String} {log : List Attempt}
  {l : SlidingWindowLimiter} {entries : List Entry} {maxN mapCap : ℤ} {window : Time}

theorem peekKey_ne_empty (srcIP : String) : peekKey srcIP≠"" := by
  intro hempty
  have hlength := congrArg String.length hempty
  rw [peekKey] at hlength
  exact absurd hlength (by simp)

theorem ne_peekKey (srcIP : String) : srcIP≠peekKey srcIP := by
  intro hsame
  have hlength := congrArg String.length hsame
  rw [peekKey] at hlength
  exact absurd hlength (by simp)

/-- The calls of the limiter belong to the requests: questions that passed are the requests that were let through. -/
structure Follows (srcIP : String) (log : List Attempt) (entries : List Entry) : Prop where
  keys : usedKeys entries⊆{srcIP,peekKey srcIP}
  asked : passedTimes (peekKey srcIP) entries=(log.filter fun a => !a.lockedOut).map Attempt.now
  /-- Every call was made in a request. -/
  ended : ∀ e∈entries,∃ a∈log,e.now≤a.ended

variable {e : Entry}

theorem usedKeys_cons {keys : Finset String} (hkeys : usedKeys entries⊆keys) (he : e.key∈keys) :
    usedKeys (e::entries)⊆keys := by
  intro key hkey
  obtain ⟨hne,hmem⟩ := Finset.mem_erase.mp hkey
  rw [map_cons,toFinset_cons,Finset.mem_insert] at hmem
  rcases hmem with rfl|hmem
  · exact he
  · exact hkeys (Finset.mem_erase.mpr ⟨hne,hmem⟩)

variable {a : Attempt}

theorem Follows.question (hfollows : Follows srcIP log entries) (hkey : e.key=peekKey srcIP)
    (hnow : e.now=a.now) (hclock : a.now≤a.ended) (hverdict : a.lockedOut=!e.admitted) :
    Follows srcIP (a::log) (e::entries) := by
  constructor
  · refine usedKeys_cons hfollows.keys ?_
    rw [hkey]
    exact Finset.mem_insert_of_mem (Finset.mem_singleton_self _)
  · rw [passedTimes_cons,hfollows.asked,filter_cons,hverdict,Bool.not_not,hkey,hnow]
    by_cases hpass : e.admitted=true
    · rw [if_pos ⟨rfl,hpass⟩,if_pos hpass,map_cons]
    · rw [if_neg fun hboth => hpass hboth.2,if_neg hpass]
  · intro d hd
    rcases mem_cons.mp hd with rfl|hd
    · exact ⟨a,mem_cons_self,hnow.le.trans hclock⟩
    obtain ⟨b,hb,hended⟩ := hfollows.ended d hd
    exact ⟨b,mem_cons_of_mem a hb,hended⟩

theorem Follows.record (hfollows : Follows srcIP (a::log) entries) (hkey : e.key=srcIP)
    (hnow : e.now=a.ended) : Follows srcIP (a::log) (e::entries) := by
  constructor
  · refine usedKeys_cons hfollows.keys ?_
    rw [hkey]
    exact Finset.mem_insert_self _ _
  · rw [passedTimes_cons,if_neg fun hboth => ne_peekKey srcIP (hkey.symm.trans hboth.1)]
    exact hfollows.asked
  · exact forall_mem_cons.mpr ⟨⟨a,mem_cons_self,hnow.le⟩,hfollows.ended⟩

theorem served_clock (hserved : Served splitHostPort start srcIP log h) : ∀ a∈log,a.now≤a.ended := by
  induction hserved with
  | start => exact forall_mem_nil _
  | request before source forward clock visitsPeek visitsRecord ih => exact forall_mem_cons.mpr ⟨clock,ih⟩

theorem served_follows (hsrc : srcIP≠"")
    (hlimiter : start.failedBasicLimiter=some (newSlidingWindowLimiter maxN window mapCap))
    (hserved : Served splitHostPort start srcIP log h) : ∃ l entries,h.failedBasicLimiter=some l ∧
      Run anyCall (newSlidingWindowLimiter maxN window mapCap) entries l ∧ Follows srcIP log entries := by
  induction hserved with
  | start =>
    refine ⟨_,[],hlimiter,.start,?_,rfl,forall_mem_nil _⟩
    exact fun key hkey => absurd hkey (by simp [usedKeys])
  | @request log h r peeked recorded peekOrder recordOrder before source forward clock visitsPeek visitsRecord ih =>
    obtain ⟨l,entries,hl,hrun,hfollows⟩ := ih
    have hforward : ∀ e∈entries,e.now≤peeked := by
      intro e he
      obtain ⟨a,ha,hended⟩ := hfollows.ended e he
      exact hended.trans (forward a ha)
    obtain ⟨hverdict,hnext⟩ := requireBasicAuth_gate peeked recorded peekOrder recordOrder hl hsrc source
    have hasked := Run.call (c := ⟨peekKey srcIP,peeked,peekOrder⟩) hrun hforward (visitsPeek l hl) trivial
    have hquestion := hfollows.question
      (a := ⟨peeked,recorded,(h.requireBasicAuth splitHostPort r peeked recorded peekOrder recordOrder).1⟩)
      rfl rfl clock hverdict
    rcases hnext with hnext|hnext
    · exact ⟨_,_,hnext,hasked,hquestion⟩
    have hlater : ∀ e∈l.entry ⟨peekKey srcIP,peeked,peekOrder⟩::entries,e.now≤recorded := by
      intro e he
      rcases mem_cons.mp he with rfl|he
      · exact clock
      · exact (hforward e he).trans clock
    have hvisits := visitsRecord _ (gate_eq peeked peekOrder hl hsrc).2.2
    have hrecorded := Run.call (c := ⟨srcIP,recorded,recordOrder⟩) hasked hlater hvisits trivial
    exact ⟨_,_,hnext,hrecorded,hquestion.record rfl rfl⟩

theorem Follows.count (hfollows : Follows srcIP log entries) {now : Time} (hnow : ∀ a∈log,a.now≤now) :
    admittedIn (peekKey srcIP) (now-window) now entries=within (fun a => !a.lockedOut) window now log := by
  rw [admittedIn_eq,hfollows.asked,countP_map,countP_filter]
  refine countP_congr fun a ha => ?_
  simp only [Function.comp,decide_eq_true (hnow a ha),Bool.and_true]
  rw [Bool.and_comm]

variable {later earlier : List Attempt}

theorem served_split (hserved : Served splitHostPort start srcIP (later++a::earlier) h) :
    ∃ h' r peekOrder recordOrder,Served splitHostPort start srcIP earlier h' ∧
      clientIPForLimiter splitHostPort r.remoteAddr=srcIP ∧ (∀ b∈earlier,b.ended≤a.now) ∧ Visits h' peekOrder ∧
      a.refusal=(h'.requireBasicAuth splitHostPort r a.now a.ended peekOrder recordOrder).1 := by
  induction later generalizing h with
  | nil =>
    cases hserved with
    | request before source forward clock visitsPeek => exact ⟨_,_,_,_,before,source,forward,visitsPeek,rfl⟩
  | cons b later ih =>
    cases hserved with
    | request before => exact ih before

theorem lockedOut_iff (hsrc : srcIP≠"")
    (hlimiter : start.failedBasicLimiter=some (newSlidingWindowLimiter maxN window mapCap))
    (hroom : 2<(newSlidingWindowLimiter maxN window mapCap).cap)
    (hserved : Served splitHostPort start srcIP (later++a::earlier) h) : a.lockedOut=true ↔ 0 < maxN ∧
      maxN≤within (fun b => !b.lockedOut) (newSlidingWindowLimiter maxN window mapCap).window a.now earlier := by
  obtain ⟨h',r,peekOrder,recordOrder,hbefore,hsource,hforward,hvisits,hanswer⟩ := served_split hserved
  obtain ⟨l,entries,hl,hrun,hfollows⟩ := served_follows hsrc hlimiter hbefore
  have hverdict := (requireBasicAuth_gate a.now a.ended peekOrder recordOrder hl hsrc hsource).1
  rw [← hanswer] at hverdict
  have hlocked : a.lockedOut=true ↔ ¬(l.entry ⟨peekKey srcIP,a.now,peekOrder⟩).admitted=true := by
    rw [Attempt.lockedOut,hverdict,Bool.not_eq_true',Bool.not_eq_true]
  rw [hlocked]
  by_cases hpos : 0 < maxN
  · have hcame : ∀ e∈entries,e.now≤a.now := by
      intro e he
      obtain ⟨b,hb,hended⟩ := hfollows.ended e he
      exact hended.trans (hforward b hb)
    have hkeys : (({srcIP,peekKey srcIP} : Finset String).card : ℤ)< (newSlidingWindowLimiter maxN window mapCap).cap :=
      lt_of_le_of_lt (by exact_mod_cast Finset.card_le_two) hroom
    have hiff := entry_iff_of_keys (c := ⟨peekKey srcIP,a.now,peekOrder⟩) hkeys hpos hrun hfollows.keys hcame
      (hvisits l hl) (peekKey_ne_empty srcIP)
    have hcount : admittedIn (peekKey srcIP) (a.now-(newSlidingWindowLimiter maxN window mapCap).window) a.now entries=
        within (fun b => !b.lockedOut) (newSlidingWindowLimiter maxN window mapCap).window a.now earlier :=
      hfollows.count fun b hb => (served_clock hbefore b hb).trans (hforward b hb)
    rw [hiff,hcount,not_lt]
    exact ⟨fun hfull => ⟨hpos,hfull⟩,fun hboth => hboth.2⟩
  · have hoff : l.disabled=true := (run_config hrun).2.2.2.trans (decide_eq_true (not_lt.mp hpos))
    have hpass : (l.entry ⟨peekKey srcIP,a.now,peekOrder⟩).admitted=true := by
      rw [SlidingWindowLimiter.entry,allow_skipped (.inl hoff)]
      rfl
    rw [hpass]
    exact ⟨fun hno => absurd rfl hno,fun hboth => absurd hboth.1 hpos⟩

theorem within_failed_le (window now : Time) (log : List Attempt) :
    within Attempt.failed window now log≤within (fun a => !a.lockedOut) window now log := by
  refine countP_mono_left fun a _ hfailed => ?_
  obtain ⟨hstatus,hnow⟩ := Bool.and_eq_true_iff.mp hfailed
  refine Bool.and_eq_true_iff.mpr ⟨?_,hnow⟩
  obtain ⟨refusal,hrefusal,h401⟩ := Option.any_eq_true _ _ |>.mp hstatus
  have hnot : a.lockedOut=false := by
    rw [Attempt.lockedOut,hrefusal,Option.any_some,of_decide_eq_true h401]
    rfl
  exact congrArg Bool.not hnot

/-- A request is locked out exactly after as many failures as the limit in the window before it, if and only if the
limiter is on and fewer requests than the limit were let through in the window, or at least that many of them
failed. -/
theorem lockout_exact_iff (splitHostPort : String→Option String) (start : ESTHandler) (srcIP : String) (hsrc : srcIP≠"")
    (maxN : ℤ) (window : Time) (mapCap : ℤ)
    (hlimiter : start.failedBasicLimiter=some (newSlidingWindowLimiter maxN window mapCap))
    (hroom : 2<(newSlidingWindowLimiter maxN window mapCap).cap) (log : List Attempt) (h : ESTHandler)
    (hserved : Served splitHostPort start srcIP log h) (later : List Attempt) (a : Attempt) (earlier : List Attempt)
    (hlog : log=later++a::earlier) :
    (a.lockedOut=true ↔
      maxN≤within Attempt.failed (newSlidingWindowLimiter maxN window mapCap).window a.now earlier) ↔
    0 < maxN ∧ ((within (fun b => !b.lockedOut) (newSlidingWindowLimiter maxN window mapCap).window a.now earlier : ℤ) < maxN ∨
      maxN≤within Attempt.failed (newSlidingWindowLimiter maxN window mapCap).window a.now earlier) := by
  subst hlog
  have hle := within_failed_le (newSlidingWindowLimiter maxN window mapCap).window a.now earlier
  rw [lockedOut_iff hsrc hlimiter hroom hserved]
  omega

/-- A handler that locks a source out after one failure in ten units of time. -/
def sampleHandler : ESTHandler := ⟨"","secret",some (newSlidingWindowLimiter 1 10 5)⟩

def sampleRequest (password : String) : BasicRequest := ⟨"10.0.0.1",some ("user",password)⟩

theorem sample_next (password : String) (now : Time) {peekOrder recordOrder : List String}
    (before : Served some sampleHandler "10.0.0.1" log h) (forward : ∀ a∈log,a.ended≤now)
    (hpeek : h.failedBasicLimiter.map (·.buckets.keys)=some peekOrder)
    (hrecord : (h.gate "10.0.0.1" now peekOrder).2.failedBasicLimiter.map (·.buckets.keys)=some recordOrder) :
    Served some sampleHandler "10.0.0.1"
      (⟨now,now,(h.requireBasicAuth some (sampleRequest password) now now peekOrder recordOrder).1⟩::log)
      (h.requireBasicAuth some (sampleRequest password) now now peekOrder recordOrder).2 := by
  have hvisits : ∀ {h : ESTHandler} {order : List String},h.failedBasicLimiter.map (·.buckets.keys)=some order →
      Visits h order := by
    intro h order hkeys l hl
    rw [hl,Option.map_some,Option.some.injEq] at hkeys
    rw [hkeys]
  exact .request before rfl forward le_rfl (hvisits hpeek) (hvisits hrecord)

/-- A source that sent a wrong password is locked out. -/
theorem lockout_exact_iff_sample : ∃ log h,Served some sampleHandler "10.0.0.1" log h ∧ ∃ a b,log=[a,b] ∧
    a.lockedOut=true ∧ ((a.lockedOut=true ↔ (1 : ℤ)≤within Attempt.failed 10 a.now [b]) ↔
      (0 : ℤ)<1 ∧ ((within (fun b => !b.lockedOut) 10 a.now [b] : ℤ)<1 ∨ (1 : ℤ)≤within Attempt.failed 10 a.now [b])) := by
  have hfirst := sample_next "guess" 0 .start (forall_mem_nil _) rfl rfl
  have hsecond := sample_next "secret" 1 hfirst (by decide) rfl rfl
  exact ⟨_,_,hsecond,_,_,rfl,rfl,lockout_exact_iff some sampleHandler "10.0.0.1" (by decide) 1 10 5 rfl (by decide) _ _
    hsecond [] _ _ rfl⟩

/-- A source that enrolled once with the right password is locked out, though no attempt has failed. -/
theorem success_locked_out : ∃ log h,Served some sampleHandler "10.0.0.1" log h ∧ ∃ a,log=[a,⟨0,0,none⟩] ∧
    a.lockedOut=true ∧ ¬(a.lockedOut=true ↔ (1 : ℤ)≤within Attempt.failed 10 a.now [⟨0,0,none⟩]) := by
  have hfirst := sample_next "secret" 0 .start (forall_mem_nil _) rfl rfl
  have hsecond := sample_next "secret" 1 hfirst (by decide) rfl rfl
  exact ⟨_,_,hsecond,_,rfl,rfl,by decide⟩

end Counting

end Certctl.EstLockout
