import Certctl.BreakglassService

/-!
# The lockout of a break-glass credential

A login reads its credential, then the clock, and checks the password before
it counts a failure. While one login is between its lookup and its count, a
second one reads the credential without that failure, so logins that overlap
check more passwords than the threshold allows. Logins that follow one
another check at most as many passwords in a lockout's time as the threshold
says, from any state of the credential: the failures of that time are all
counted, at the threshold they lock the credential for the whole of it, and
they are forgotten only after a longer time.
-/

namespace Certctl.BreakglassLockout

open AtomicProgram AtomicInterleaving DomainRecords RecordTable AuthTables SessionService BreakglassService

def guessesIn (start duration : Time) (verified : List Time) : ℕ :=
  verified.countP fun v => start≤v && v < start+duration

def recent (duration moment : Time) (verified : List Time) : ℕ := verified.countP fun v => moment<v+duration

/-- How far an attempt has come. -/
inductive Phase where
  | before
  | looked (cred : BreakglassCredential)
  /-- It has read the clock, and the credential is not locked. -/
  | opened (cred : BreakglassCredential) (now : Time)
  /-- It has forgotten old failures. -/
  | cleared
  /-- It has checked the password. -/
  | guessed
  /-- It will not touch the credential any more. -/
  | finished

/-- The login is between its lookup and its count. -/
def Phase.inFlight : Phase→Bool
  | .before => false
  | .finished => false
  | _ => true

def advance (phase : Phase) : (op : Op)→Res op→Phase
  | .getByActor _ _,(.ok cred : Try BreakglassCredential) => .looked cred
  | .getByActor _ _,(.error _ : Try BreakglassCredential) => .finished
  | .clockNow,(now : Time) =>
    match phase with
    | .looked cred => if locked cred now then .finished else .opened cred now
    | _ => phase
  | .resetFailureCount _ _,_ => .cleared
  | .verifyPassword _ _,_ => .guessed
  | .incrementFailure _ _ _ _,_ => .finished
  | _,_ => phase

/-- The next operation of an attempt. -/
inductive Expects (svc : BreakglassServer) (actorID : String) : Phase→(op : Op)→Res op→Prop where
  | lookUp (r : Res (.getByActor actorID svc.tenantID)) : Expects svc actorID .before (.getByActor actorID svc.tenantID) r
  | readClock (cred : BreakglassCredential) (now : Time) : Expects svc actorID (.looked cred) .clockNow now
  /-- It forgets failures that have aged out. -/
  | clear {cred : BreakglassCredential} {now : Time} (hstale : stale svc cred now=true)
    (r : Res (.resetFailureCount actorID svc.tenantID)) :
    Expects svc actorID (.opened cred now) (.resetFailureCount actorID svc.tenantID) r
  | check (cred : BreakglassCredential) (now : Time) (plaintext encoded : String) (r : Res (.verifyPassword plaintext encoded)) :
    Expects svc actorID (.opened cred now) (.verifyPassword plaintext encoded) r
  /-- It checks the password without earlier failures. -/
  | checkCleared (plaintext encoded : String) (r : Res (.verifyPassword plaintext encoded)) :
    Expects svc actorID .cleared (.verifyPassword plaintext encoded) r
  | count (r : Res (.incrementFailure actorID svc.tenantID svc.cfg.lockoutThreshold (lockoutSeconds svc))) :
    Expects svc actorID .guessed
      (.incrementFailure actorID svc.tenantID svc.cfg.lockoutThreshold (lockoutSeconds svc)) r
  /-- It spends the time of a check. -/
  | dummy (count : ℕ) (r : Res (.readRand count)) : Expects svc actorID .finished (.readRand count) r

/-- No password is right. -/
def wrong : (op : Op)→Res op→Prop
  | .verifyPassword _ _,r => r≠(.ok true : Try Bool)
  | _,_ => True

/-- A login follows its phases. -/
theorem tracked_authenticate (svc : BreakglassServer) (actorID plaintext ip userAgent : String) :
    (authenticate svc actorID plaintext ip userAgent).Tracked wrong (Expects svc actorID) advance
      (fun _ phase => phase.inFlight=false) .before := by
  have hdummy : (verifyDummy.bind fun _ => Prog.ret (.error Sentinel.breakglassInvalidCredentials.error) :
      Service (Try AuthenticateResult)).Tracked wrong (Expects svc actorID) advance
        (fun _ phase => phase.inFlight=false) .finished := fun r _ => ⟨.dummy 16 r,rfl⟩
  have hjudge : ∀ cred phase,(phase=.cleared ∨ ∃ now,phase=.opened cred now) →
      (judge svc actorID plaintext ip userAgent cred).Tracked wrong (Expects svc actorID) advance
        (fun _ phase => phase.inFlight=false) phase := by
    intro cred phase hphase r hwrong
    have hexpects : Expects svc actorID phase (.verifyPassword plaintext cred.passwordHash) r := by
      rcases hphase with rfl|⟨now,rfl⟩
      · exact .checkCleared _ _ r
      · exact .check cred now _ _ r
    refine ⟨hexpects,?_⟩
    match r,hwrong with
    | .ok true,hwrong => exact absurd rfl hwrong
    | .ok false,_ => exact fun r _ => ⟨.count r,rfl⟩
    | .error err,_ => exact fun r _ => ⟨.count r,rfl⟩
  unfold authenticate
  split
  · rfl
  intro r _
  refine ⟨.lookUp r,?_⟩
  match r with
  | .error err => exact hdummy
  | .ok cred =>
    intro now _
    refine ⟨.readClock cred now,?_⟩
    by_cases hlocked : locked cred now
    · have hphase : advance (.looked cred) .clockNow now=.finished := if_pos hlocked
      simp only [advance,Prog.bind] at hphase ⊢
      rw [hphase,if_pos hlocked]
      exact hdummy
    have hphase : advance (.looked cred) .clockNow now=.opened cred now := if_neg hlocked
    simp only [advance,Prog.bind] at hphase ⊢
    rw [hphase,if_neg hlocked]
    by_cases hstale : stale svc cred now
    · rw [if_pos hstale]
      exact fun r _ => ⟨.clear hstale r,hjudge cred .cleared (.inl rfl)⟩
    · rw [if_neg hstale]
      exact hjudge cred _ (.inr ⟨now,rfl⟩)

def credential (svc : BreakglassServer) (actorID : String) (db : AuthDb) : Option BreakglassCredential :=
  lookup BreakglassCredential.owner (actorID,svc.tenantID) db.credentials

/-- The credential accounts for every password checked in a lockout's time. -/
structure Settled (svc : BreakglassServer) (db : AuthDb) (cred : BreakglassCredential) : Prop where
  counted : ∀ x,db.clock≤x → recent svc.cfg.lockoutDuration x db.verified≤cred.failureCount
  locks : ∀ x,db.clock≤x → svc.cfg.lockoutThreshold≤recent svc.cfg.lockoutDuration x db.verified → locked cred x=true
  last : ∀ v∈db.verified,∃ failed,cred.lastFailureAt=some failed ∧ v≤failed

/-- One more password may be checked. -/
def Room (svc : BreakglassServer) (db : AuthDb) : Prop :=
  ∀ x,db.clock≤x → (recent svc.cfg.lockoutDuration x db.verified : ℤ) < svc.cfg.lockoutThreshold

/-- What holds while one login is in a phase and no other is in flight. -/
def Held (svc : BreakglassServer) (actorID : String) (db : AuthDb) : Phase→Prop
  | .before | .finished => ∀ cred,credential svc actorID db=some cred → Settled svc db cred
  | .looked cred => credential svc actorID db=some cred ∧ Settled svc db cred
  | .opened cred now => credential svc actorID db=some cred ∧ Settled svc db cred ∧ now≤db.clock ∧ Room svc db
  | .cleared => Room svc db ∧ ∃ cred,credential svc actorID db=some cred ∧
      ∀ x,db.clock≤x → recent svc.cfg.lockoutDuration x db.verified≤cred.failureCount
  | .guessed => ∃ cred,credential svc actorID db=some cred ∧
      ∀ x,db.clock≤x → recent svc.cfg.lockoutDuration x db.verified≤cred.failureCount+1

/-- No more passwords than the threshold were checked in any lockout's time, and none in the future. -/
structure Bounded (svc : BreakglassServer) (db : AuthDb) : Prop where
  bound : ∀ start,(guessesIn start svc.cfg.lockoutDuration db.verified : ℤ) ≤ svc.cfg.lockoutThreshold
  /-- The passwords were checked in the past. -/
  past : ∀ v∈db.verified,v≤db.clock

/-- An operation that only takes time as far as logins are concerned. -/
structure Quiet (db db' : AuthDb) : Prop where
  later : db.clock≤db'.clock
  credentials : db'.credentials=db.credentials
  verified : db'.verified=db.verified

variable {phase : Phase} {op : Op} {r : Res op}

section Lemmas

variable {svc : BreakglassServer} {actorID : String} {db db' : AuthDb} {cred : BreakglassCredential} {x : Time}

theorem recent_anti (duration : Time) {y : Time} (hxy : x≤y) (verified : List Time) :
    recent duration y verified≤recent duration x verified := by
  apply List.countP_mono_left
  intro v _ hv
  have hlt : y<v+duration := of_decide_eq_true hv
  exact decide_eq_true (lt_of_le_of_lt hxy hlt)

theorem recent_cons_le (duration x now : Time) (verified : List Time) :
    recent duration x (now::verified)≤recent duration x verified+1 := by
  unfold recent
  rw [List.countP_cons]
  split <;> omega

theorem guessesIn_cons_le (start duration now : Time) (verified : List Time) :
    guessesIn start duration (now::verified)≤guessesIn start duration verified ∨
      guessesIn start duration (now::verified)≤recent duration now verified+1 := by
  by_cases hnow : start≤now ∧ now < start+duration
  · have hrecent : guessesIn start duration verified≤recent duration now verified := by
      apply List.countP_mono_left
      intro v _ hv
      have hstart : start≤v ∧ v < start+duration := by simpa using hv
      have hlt : now<v+duration := by linarith
      exact decide_eq_true hlt
    unfold guessesIn at hrecent ⊢
    rw [List.countP_cons]
    split <;> omega
  · left
    have hout : (decide (start≤now) && decide (now < start+duration))=false := by simpa using hnow
    unfold guessesIn
    rw [List.countP_cons_of_neg (by simp [hout])]

theorem Settled.quiet (hquiet : Quiet db db') (h : Settled svc db cred) : Settled svc db' cred := by
  have hclock := hquiet.later
  refine ⟨fun x hx => ?_,fun x hx => ?_,?_⟩ <;> rw [hquiet.verified]
  · exact h.counted x (hclock.trans hx)
  · exact h.locks x (hclock.trans hx)
  · exact h.last

theorem Room.quiet (hquiet : Quiet db db') (h : Room svc db) : Room svc db' := by
  intro x hx
  rw [hquiet.verified]
  exact h x (hquiet.later.trans hx)

theorem Bounded.later (h : Bounded svc db) (hclock : db.clock≤db'.clock) (hverified : db'.verified=db.verified) :
    Bounded svc db' := by
  constructor <;> rw [hverified]
  · exact h.bound
  · exact fun v hv => (h.past v hv).trans hclock

theorem credential_quiet (hquiet : Quiet db db') : credential svc actorID db'=credential svc actorID db := by
  rw [credential,hquiet.credentials,credential]

theorem Held.quiet (hquiet : Quiet db db') (phase : Phase) (h : Held svc actorID db phase) :
    Held svc actorID db' phase := by
  have hclock := hquiet.later
  cases phase <;> unfold Held at h ⊢ <;> rw [credential_quiet hquiet]
  case before | finished => exact fun cred hcred => (h cred hcred).quiet hquiet
  case looked => exact ⟨h.1,h.2.quiet hquiet⟩
  case opened => exact ⟨h.1,h.2.1.quiet hquiet,h.2.2.1.trans hclock,h.2.2.2.quiet hquiet⟩
  case cleared =>
    obtain ⟨hroom,cred,hcred,hcount⟩ := h
    refine ⟨hroom.quiet hquiet,cred,hcred,fun x hx => ?_⟩
    rw [hquiet.verified]
    exact hcount x (hclock.trans hx)
  case guessed =>
    obtain ⟨cred,hcred,hcount⟩ := h
    refine ⟨cred,hcred,fun x hx => ?_⟩
    rw [hquiet.verified]
    exact hcount x (hclock.trans hx)

theorem credential_modify (f : BreakglassCredential→BreakglassCredential) (hf : ∀ row : BreakglassCredential,(f row).owner=row.owner)
    (now : Time) (h : credential svc actorID db=some cred) :
    credential svc actorID ((db.modifyCredential actorID svc.tenantID f).ticked now)=some (f cred) := by
  exact (lookup_modify_self hf db.credentials).trans (congrArg (Option.map f) h)

variable {now : Time}

theorem Settled.room (h : Settled svc db cred) (hopen : locked cred now=false) (hclock : db.clock=now) :
    Room svc db := by
  intro x hx
  by_contra hfull
  have hmono := recent_anti svc.cfg.lockoutDuration hx db.verified
  have hnow := h.locks db.clock le_rfl (by omega)
  rw [hclock,hopen] at hnow
  exact Bool.false_ne_true hnow

theorem Settled.aged (hreset : svc.cfg.lockoutDuration ≤ svc.cfg.lockoutResetInterval)
    (h : Settled svc db cred) (hstale : stale svc cred now=true) (hx : now≤x) :
    recent svc.cfg.lockoutDuration x db.verified=0 := by
  rw [recent,List.countP_eq_zero]
  intro v hv hlt
  obtain ⟨failed,hlast,hle⟩ := h.last v hv
  have hsplit := (Bool.and_eq_true_iff.mp hstale).1
  rw [hlast] at hsplit
  have hage : svc.cfg.lockoutResetInterval<now-failed := of_decide_eq_true hsplit
  have hin : x<v+svc.cfg.lockoutDuration := of_decide_eq_true hlt
  linarith

theorem Settled.failed (hwhole : second∣svc.cfg.lockoutDuration) (hpast : ∀ v∈db.verified,v≤now)
    (hthreshold : 1 ≤ svc.cfg.lockoutThreshold)
    (hcount : ∀ x,now≤x → recent svc.cfg.lockoutDuration x db.verified≤cred.failureCount+1) (hclock : db'.clock=now)
    (hverified : db'.verified=db.verified) :
    Settled svc db' (cred.failed now svc.cfg.lockoutThreshold (lockoutSeconds svc)) := by
  refine ⟨fun x hx => ?_,fun x hx hfull => ?_,fun v hv => ⟨now,rfl,hpast v (hverified ▸ hv)⟩⟩
  · rw [hverified]
    exact hcount x (hclock ▸ hx)
  rw [hverified] at hfull
  rw [hclock] at hx
  have hle := hcount x hx
  have hreached : svc.cfg.lockoutThreshold≤(cred.failureCount+1 : ℕ) := by omega
  obtain ⟨v,hv,hlt⟩ := List.countP_pos_iff.mp (show 0<recent svc.cfg.lockoutDuration x db.verified by omega)
  have hin : x<v+svc.cfg.lockoutDuration := of_decide_eq_true hlt
  have hle := hpast v hv
  have hseconds : lockoutSeconds svc*second=svc.cfg.lockoutDuration := Int.tdiv_mul_cancel hwhole
  simp only [locked,BreakglassCredential.failed,if_pos hreached,Option.any_some,decide_eq_true_eq]
  linarith

theorem Bounded.check (hclock : db.clock≤now) (h : Bounded svc db) (hroom : Room svc db)
    (hnow : db'.clock=now) (hverified : db'.verified=now::db.verified) : Bounded svc db' := by
  constructor
  · intro start
    have hold := h.bound start
    have hnew := hroom now hclock
    rw [hverified]
    rcases guessesIn_cons_le start svc.cfg.lockoutDuration now db.verified with hle|hle <;> omega
  · intro v hv
    rw [hverified] at hv
    rcases List.mem_cons.mp hv with rfl|hv
    · exact hnow.ge
    · exact ((h.past v hv).trans hclock).trans hnow.ge

/-- A step of a login while no other is in flight. -/
theorem held_step {c : Choice} (hgoing : phase≠.finished) (hthreshold : 1 ≤ svc.cfg.lockoutThreshold)
    (hreset : svc.cfg.lockoutDuration ≤ svc.cfg.lockoutResetInterval) (hwhole : second∣svc.cfg.lockoutDuration)
    (hclock : db.clock≤c.now) (hfault : c.fault=none) (hexpects : Expects svc actorID phase op r)
    (hperform : perform op c db=some (r,db')) (hbounded : Bounded svc db) (hheld : Held svc actorID db phase) :
    Bounded svc db' ∧ Held svc actorID db' (advance phase op r) := by
  have hticked : Quiet db (db.ticked c.now) := ⟨hclock,rfl,rfl⟩
  cases hexpects with
  | lookUp =>
    obtain ⟨rfl,rfl⟩ := answered hfault hperform
    refine ⟨hbounded.later hclock rfl,?_⟩
    have hrest := Held.quiet hticked .before hheld
    change Held svc actorID (db.ticked c.now)
      (advance .before (.getByActor actorID svc.tenantID) (found .breakglassNotFound (credential svc actorID db)))
    cases hcred : credential svc actorID db with
    | none => exact hrest
    | some cred => exact ⟨(credential_quiet hticked).trans hcred,hrest cred ((credential_quiet hticked).trans hcred)⟩
  | readClock cred now =>
    cases hperform
    obtain ⟨hcred,hsettled⟩ := Held.quiet hticked (.looked cred) hheld
    refine ⟨hbounded.later hclock rfl,?_⟩
    cases hlocked : locked cred c.now with
    | true =>
      rw [show advance (.looked cred) .clockNow c.now=.finished from if_pos hlocked]
      intro cred' hcred'
      cases hcred.symm.trans hcred'
      exact hsettled
    | false =>
      rw [show advance (.looked cred) .clockNow c.now=.opened cred c.now from if_neg (hlocked ▸ Bool.false_ne_true)]
      exact ⟨hcred,hsettled,le_rfl,hsettled.room hlocked rfl⟩
  | @clear cred now hstale r =>
    obtain ⟨rfl,rfl⟩ := answered hfault hperform
    obtain ⟨hcred,hsettled,hnow,hroom⟩ := hheld
    refine ⟨hbounded.later hclock rfl,fun x hx => hroom x (hclock.trans hx),cred.cleared,
      credential_modify BreakglassCredential.cleared (fun _ => rfl) c.now hcred,fun x hx => ?_⟩
    exact (hsettled.aged hreset hstale (hnow.trans (hclock.trans hx))).le
  | check cred now =>
    cases hperform
    obtain ⟨hcred,hsettled,hnow,hroom⟩ := hheld
    refine ⟨hbounded.check hclock hroom rfl rfl,cred,hcred,fun x hx => ?_⟩
    exact (recent_cons_le _ x c.now db.verified).trans (Nat.succ_le_succ (hsettled.counted x (hclock.trans hx)))
  | checkCleared =>
    cases hperform
    obtain ⟨hroom,cred,hcred,hcount⟩ := hheld
    refine ⟨hbounded.check hclock hroom rfl rfl,cred,hcred,fun x hx => ?_⟩
    exact (recent_cons_le _ x c.now db.verified).trans (Nat.succ_le_succ (hcount x (hclock.trans hx)))
  | count =>
    obtain ⟨rfl,rfl⟩ := answered hfault hperform
    obtain ⟨cred,hcred,hcount⟩ := hheld
    refine ⟨hbounded.later hclock rfl,fun cred' hcred' => ?_⟩
    cases (credential_modify (BreakglassCredential.failed c.now svc.cfg.lockoutThreshold (lockoutSeconds svc))
      (fun _ => rfl) c.now hcred).symm.trans hcred'
    exact Settled.failed hwhole (fun v hv => (hbounded.past v hv).trans hclock) hthreshold
      (fun x hx => hcount x (hclock.trans hx)) rfl rfl
  | dummy => exact absurd rfl hgoing

end Lemmas

section Runs

variable {ι : Type} [DecidableEq ι]

abbrev Logins (ι : Type) := Config store ι (Try AuthenticateResult)

def phaseOf (cfg : Logins ι) (t : ι) : Phase := ghost advance .before t cfg.log

def logins (svc : BreakglassServer) (actorID : String) (plaintext ip userAgent : ι→String) :
    ι→Service (Try AuthenticateResult) :=
  fun t => authenticate svc actorID (plaintext t) (ip t) (userAgent t)

omit [DecidableEq ι] in
/-- The clock does not go back, no operation fails, and no password is right. -/
def guessing : StepCondition store ι (Try AuthenticateResult) :=
  fun cfg _ op c => steady op c cfg.state ∧ c.verdict≠.ok true

/-- The operation reads a credential. -/
def looksUp : Op→Bool
  | .getByActor _ _ => true
  | _ => false

/-- Moreover a credential is read only while no other login is under way. -/
def inTurn : StepCondition store ι (Try AuthenticateResult) := fun cfg t op c =>
  guessing cfg t op c ∧ (looksUp op=true → ∀ u,u≠t → own u cfg.log=[] ∨ (cfg.threads u).done=true)

/-- The bound holds, and at most one login is in flight. -/
structure OneAtATime (svc : BreakglassServer) (actorID : String)
    (cfg : Logins ι) : Prop where
  bounded : Bounded svc cfg.state
  /-- All logins but one are idle, and the phase of that one says what holds. -/
  turn : (Held svc actorID cfg.state .before ∧ ∀ u,(phaseOf cfg u).inFlight=false) ∨
    ∃ t,Held svc actorID cfg.state (phaseOf cfg t) ∧ ∀ u,u≠t → (phaseOf cfg u).inFlight=false

variable {svc : BreakglassServer} {actorID : String} {plaintext ip userAgent : ι→String} {db : AuthDb}

theorem held_idle (hidle : phase.inFlight=false) : Held svc actorID db phase ↔ Held svc actorID db .before := by
  cases phase with
  | before | finished => exact Iff.rfl
  | looked | opened | cleared | guessed => cases hidle

variable {cfg : Logins ι}

theorem OneAtATime.settled (h : OneAtATime svc actorID cfg)
    (hidle : ∀ u,(phaseOf cfg u).inFlight=false) : Held svc actorID cfg.state .before := by
  rcases h.turn with ⟨hrest,-⟩|⟨t,hheld,-⟩
  · exact hrest
  · exact (held_idle (hidle t)).mp hheld

variable {t : ι}

theorem OneAtATime.active (h : OneAtATime svc actorID cfg) (ht : (phaseOf cfg t).inFlight=true) :
    Held svc actorID cfg.state (phaseOf cfg t) ∧ ∀ u,u≠t → (phaseOf cfg u).inFlight=false := by
  rcases h.turn with ⟨-,hidle⟩|⟨t',hheld,hothers⟩
  · exact absurd ht (by rw [hidle t]; exact Bool.false_ne_true)
  have heq : t=t' := by
    by_contra hne
    rw [hothers t hne] at ht
    exact Bool.false_ne_true ht
  exact heq ▸ ⟨hheld,hothers⟩

theorem idle_of_rest (htracked : AllTracked wrong (Expects svc actorID) advance (fun _ phase => phase.inFlight=false)
      (fun _ => .before) cfg) {u : ι} (h : own u cfg.log=[] ∨ (cfg.threads u).done=true) :
    (phaseOf cfg u).inFlight=false := by
  rcases h with hnone|hdone
  · unfold phaseOf ghost
    rw [hnone]
    rfl
  have hu := htracked u
  cases hthread : cfg.threads u with
  | ret =>
    rw [hthread] at hu
    exact hu
  | call =>
    rw [hthread] at hdone
    cases hdone

variable {s' : AuthDb} {next : Service (Try AuthenticateResult)}

theorem OneAtATime.step (hstep : Bounded svc s' ∧ Held svc actorID s' (advance (phaseOf cfg t) op r))
    (hothers : ∀ u,u≠t → (phaseOf cfg u).inFlight=false) : OneAtATime svc actorID (cfg.advance t op r next s') := by
  refine ⟨hstep.1,.inr ⟨t,?_,fun u hu => ?_⟩⟩
  · have hself : phaseOf (cfg.advance t op r next s') t=advance (phaseOf cfg t) op r := ghost_cons_self _ _ _ _ _ _
    rw [hself]
    exact hstep.2
  have hother : phaseOf (cfg.advance t op r next s') u=phaseOf cfg u := ghost_cons_of_ne _ _ (Ne.symm hu) _ _ _
  rw [hother]
  exact hothers u hu

theorem OneAtATime.dummy {count : ℕ} {r : Res (.readRand count)}
    (h : OneAtATime svc actorID cfg) (hquiet : Quiet cfg.state s') :
    OneAtATime svc actorID (cfg.advance t (.readRand count) r next s') := by
  have hphase : ∀ u,phaseOf (cfg.advance t (.readRand count) r next s') u=phaseOf cfg u := by
    intro u
    by_cases hu : u=t
    · subst hu
      exact ghost_cons_self _ _ _ _ _ _
    · exact ghost_cons_of_ne _ _ (Ne.symm hu) _ _ _
  refine ⟨h.bounded.later hquiet.later hquiet.verified,?_⟩
  simp only [hphase]
  rcases h.turn with ⟨hrest,hidle⟩|⟨t',hheld,hothers⟩
  · exact .inl ⟨Held.quiet hquiet .before hrest,hidle⟩
  · exact .inr ⟨t',Held.quiet hquiet _ hheld,hothers⟩

theorem oneAtATime_initial (hthreshold : 1 ≤ svc.cfg.lockoutThreshold) (hfresh : db.verified=[])
    (pool : ι→Service (Try AuthenticateResult)) : OneAtATime svc actorID (initial pool db) := by
  refine ⟨⟨fun start => ?_,fun v hv => ?_⟩,.inl ⟨fun cred _ => ⟨fun x _ => ?_,fun x _ hfull => ?_,fun v hv => ?_⟩,
    fun _ => rfl⟩⟩
  all_goals simp only [initial,hfresh] at *
  · have hnone : guessesIn start svc.cfg.lockoutDuration []=0 := rfl
    omega
  · exact absurd hv List.not_mem_nil
  · exact Nat.zero_le _
  · have hnone : recent svc.cfg.lockoutDuration x []=0 := rfl
    omega
  · exact absurd hv List.not_mem_nil

/-- Logins that follow one another keep the bound. -/
theorem oneAtATime_reach (hthreshold : 1 ≤ svc.cfg.lockoutThreshold)
    (hreset : svc.cfg.lockoutDuration ≤ svc.cfg.lockoutResetInterval) (hwhole : second∣svc.cfg.lockoutDuration)
    (hfresh : db.verified=[]) (hreach : Reach inTurn (initial (logins svc actorID plaintext ip userAgent) db) cfg) :
    OneAtATime svc actorID cfg := by
  have hwrong : Admitted wrong (inTurn (ι := ι)) (OneAtATime svc actorID) := by
    intro cfg t op c r s' _ hok hperform
    cases op with
    | verifyPassword =>
      cases hperform
      exact hok.1.2
    | _ => trivial
  have hpool : ∀ t,(logins svc actorID plaintext ip userAgent t).Tracked wrong (Expects svc actorID) advance
      (fun _ phase => phase.inFlight=false) ((fun _ => Phase.before) t) :=
    fun t => tracked_authenticate svc actorID (plaintext t) (ip t) (userAgent t)
  refine (reach_tracked hwrong hreach hpool (oneAtATime_initial hthreshold hfresh _) ?_).1
  intro cfg t op c r s' hinv htracked hok hperform hexpects k hthread
  obtain ⟨⟨⟨hclock,hfault⟩,-⟩,hturn⟩ := hok
  change Expects svc actorID (phaseOf cfg t) op r at hexpects
  have hgo : ∀ {phase},phase≠.finished → Expects svc actorID phase op r → Held svc actorID cfg.state phase →
      Bounded svc s' ∧ Held svc actorID s' (advance phase op r) :=
    fun hgoing h hheld => held_step hgoing hthreshold hreset hwhole hclock hfault h hperform hinv.bounded hheld
  by_cases hflight : (phaseOf cfg t).inFlight=true
  · obtain ⟨hheld,hothers⟩ := hinv.active hflight
    have hgoing : phaseOf cfg t≠.finished := fun h => by cases h ▸ hflight
    exact OneAtATime.step (hgo hgoing hexpects hheld) hothers
  generalize hphase : phaseOf cfg t=phase at hexpects hflight
  cases hexpects with
  | lookUp r =>
    have hothers : ∀ u,u≠t → (phaseOf cfg u).inFlight=false := fun u hu => idle_of_rest htracked (hturn rfl u hu)
    have hrest := hinv.settled fun u => by
      by_cases hu : u=t
      · rw [hu,hphase]
        rfl
      · exact hothers u hu
    exact OneAtATime.step (hphase ▸ hgo nofun (.lookUp r) hrest) hothers
  | dummy count =>
    by_cases hlength : c.random.length=count
    · obtain ⟨rfl,rfl⟩ := answered hfault ((if_pos hlength).symm.trans hperform)
      exact hinv.dummy ⟨hclock,rfl,rfl⟩
    · cases (if_neg hlength).symm.trans hperform
  | readClock | clear | check | checkCleared | count => exact absurd rfl hflight

/-- In every run of logins for one actor that look the credential up only while no other of them is under way,
with a lockout of whole seconds and without failing operations, no more passwords than the threshold are checked in
any time as long as the lockout. -/
theorem guesses_bounded_in_turn (hthreshold : 1 ≤ svc.cfg.lockoutThreshold)
    (hreset : svc.cfg.lockoutDuration ≤ svc.cfg.lockoutResetInterval) (hwhole : second∣svc.cfg.lockoutDuration)
    {db : AuthDb} (hfresh : db.verified=[]) {cfg : Logins ι}
    (hreach : Reach inTurn (initial (logins svc actorID plaintext ip userAgent) db) cfg) (start : Time) :
    (guessesIn start svc.cfg.lockoutDuration cfg.state.verified : ℤ) ≤ svc.cfg.lockoutThreshold :=
  (oneAtATime_reach hthreshold hreset hwhole hfresh hreach).bounded.bound start

omit [DecidableEq ι] in
instance (cfg : Logins ι) (t : ι) (op : store.Op) (c : store.Choice) : Decidable (guessing cfg t op c) :=
  inferInstanceAs (Decidable ((cfg.state.clock≤c.now ∧ c.fault=none) ∧ c.verdict≠.ok true))

instance [Fintype ι] (cfg : Logins ι) (t : ι) (op : store.Op) (c : store.Choice) : Decidable (inTurn cfg t op c) :=
  inferInstanceAs (Decidable (guessing cfg t op c ∧
    (looksUp op=true → ∀ u,u≠t → own u cfg.log=[] ∨ (cfg.threads u).done=true)))

end Runs

/-- A server that locks a credential for a minute at the first wrong password. -/
def sampleServer : BreakglassServer where
  cfg := ⟨true,1,60*second,60*second⟩
  tenantID := "t-default"
  sessions := none

def sampleDb : AuthDb := ⟨[],[],[⟨"bg-1","t-default","alice","hash",0,none,none⟩],0,[],[]⟩

def sampleLogins : Fin 2→Service (Try AuthenticateResult) :=
  logins sampleServer "alice" (fun _ => "guess") (fun _ => "192.0.2.1") (fun _ => "agent")

def followingSchedule : List (Fin 2×Choice) :=
  List.replicate 4 (0,{now := 0})++List.replicate 2 (1,{now := 30*second})++
    [(1,{now := 30*second,random := List.replicate 16 0})]

/-- The second login begins before the first has checked its password. -/
def overlappingSchedule : List (Fin 2×Choice) := [(0,{}),(0,{}),(1,{}),(1,{}),(0,{}),(1,{})]

/-- One login is locked out by the other before it. -/
theorem guesses_bounded_in_turn_sample : ∃ cfg,Reach inTurn (initial sampleLogins sampleDb) cfg ∧
    cfg.state.verified=[0] ∧ (cfg.threads 1).done=true ∧
      (guessesIn 0 sampleServer.cfg.lockoutDuration cfg.state.verified : ℤ) ≤ sampleServer.cfg.lockoutThreshold := by
  refine reaches_view followingSchedule (fun cfg => (cfg.state.verified,(cfg.threads 1).done)) ([0],true) (by decide)
    fun cfg hreach hview => ?_
  obtain ⟨hverified,hdone⟩ := Prod.mk.inj hview
  exact ⟨hverified,hdone,guesses_bounded_in_turn (by decide) (by decide) (by decide) rfl hreach 0⟩

/-- Two logins that overlap both find the credential open, and two passwords are checked where one is allowed. -/
theorem overlapping_logins_exceed_threshold : 1 ≤ sampleServer.cfg.lockoutThreshold ∧
    sampleServer.cfg.lockoutDuration ≤ sampleServer.cfg.lockoutResetInterval ∧ sampleDb.verified=[] ∧
      ∃ cfg,Reach guessing (initial sampleLogins sampleDb) cfg ∧
        ¬(guessesIn 0 sampleServer.cfg.lockoutDuration cfg.state.verified : ℤ) ≤ sampleServer.cfg.lockoutThreshold := by
  refine ⟨by decide,by decide,rfl,?_⟩
  refine reaches_view overlappingSchedule (fun cfg => cfg.state.verified) [0,0] (by decide) fun cfg _ hverified => ?_
  rw [hverified]
  decide

end Certctl.BreakglassLockout
