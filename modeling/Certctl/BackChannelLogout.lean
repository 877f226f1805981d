import Certctl.AccessDecisions

/-!
# Back-channel logout

A provider posts a logout token until it is answered with success. The handler
first records the token as used, then looks the user up and revokes the
sessions. So a delivery that fails after the record is taken for a replay when
it is repeated. A failed revocation is answered with success, a token that
names a session revokes that one only, and of several providers with the
issuer the first is looked at. Otherwise an answer of success means that the
sessions are revoked.
-/

namespace Certctl.BackChannelLogout

open DomainRecords AccessDecisions
open List hiding lookup

/-- The claims of a verified token. -/
structure LogoutToken where
  issuer : String
  sub : String
  sid : String
  jti : String

/-- A configured provider. -/
structure OIDCProvider where
  id : String
  issuerURL : String

/-- A user and the identity behind it. -/
structure User where
  id : String
  oidcProviderID : String
  oidcSubject : String

/-- What the tenant has configured and whom it knows. -/
structure Directory where
  providers : List OIDCProvider
  users : List User
  /-- No identity is stored twice. -/
  identities : ∀ u∈users,∀ v∈users,u.oidcProviderID=v.oidcProviderID → u.oidcSubject=v.oidcSubject → u=v

/-- The columns of a session that are used. -/
structure Session where
  id : String
  actorID : String
  actorType : ActorType
  revokedAt : Option Time

/-- A token that was used. -/
structure ConsumedJTI where
  jti : String
  issuerURL : String
  expiresAt : Time

/-- The tables that deliveries write. -/
structure State where
  sessions : List Session
  consumed : List ConsumedJTI

/-- The clock of a delivery and the calls that fail in it. -/
structure Choice where
  now : Time := 0
  verify : Bool := false
  consume : Bool := false
  list : Bool := false
  lookup : Bool := false
  revoke : Bool := false

/-- The events of a run. -/
inductive Event where
  | deliver (c : Choice)
  | sweepExpired (now : Time)

variable (dir : Directory) (maxAge : Time) (tok : LogoutToken) (c : Choice) (st : State)

def revokeSessions (meant : Session→Bool) : State :=
  if c.revoke then st
  else ⟨st.sessions.map fun s => if meant s && s.revokedAt.isNone then {s with revokedAt := some c.now} else s,st.consumed⟩

/-- The rest of a delivery whose token is recorded as used. -/
def revokeMatching : ℕ×State :=
  if tok.sid≠"" then (200,revokeSessions c st fun s => s.id=tok.sid)
  else if tok.sub="" then (200,st)
  else if c.list then (503,st)
  else
    match dir.providers.find? (·.issuerURL=tok.issuer) with
    | none => (200,st)
    | some matched =>
      if c.lookup then (503,st)
      else
        match dir.users.find? fun u => u.oidcProviderID=matched.id && u.oidcSubject=tok.sub with
        | none => (200,st)
        | some user => (200,revokeSessions c st fun s => s.actorID=user.id && s.actorType=.user)

def ConsumedJTI.records (row : ConsumedJTI) : Bool := row.jti=tok.jti && row.issuerURL=tok.issuer

/-- One delivery: the status and the tables. A verified token has an identifier, so it is always recorded. -/
def backChannelLogout : ℕ×State :=
  if c.verify then (400,st)
  else if c.consume then (503,st)
  else if st.consumed.any (·.records tok) then (200,st)
  else revokeMatching dir tok c
    {st with consumed := st.consumed++[⟨tok.jti,tok.issuer,c.now+max (maxAge*2) (24*3600*second)⟩]}

def step : Event→State
  | .deliver c => (backChannelLogout dir maxAge tok c st).2
  | .sweepExpired now => {st with consumed := st.consumed.filter fun row => now≤row.expiresAt}

/-- Every session that a user of the issuer and the subject had is revoked. -/
def LoggedOut (before after : List Session) : Prop :=
  ∀ p∈dir.providers,p.issuerURL=tok.issuer → ∀ u∈dir.users,u.oidcProviderID=p.id → u.oidcSubject=tok.sub →
    ∀ s∈before,s.actorID=u.id → s.actorType=.user → ∃ row∈after,row.id=s.id ∧ row.revokedAt.isSome=true

def Kept (before after : List Session) : Prop :=
  ∀ s∈before,∃ row∈after,row.id=s.id ∧ row.actorID=s.actorID ∧ row.actorType=s.actorType

/-- What holds between deliveries: the sessions are there, and a recorded token has been followed. -/
structure Inv (before : List Session) : Prop where
  kept : Kept before st.sessions
  done : st.consumed.any (·.records tok)=true → LoggedOut dir tok before st.sessions

variable {dir maxAge tok c st} {before : List Session}

theorem mem_revokeSessions {meant : Session→Bool} {s : Session} (hcalm : c.revoke=false) (hs : s∈st.sessions) :
    ∃ row∈(revokeSessions c st meant).sessions,row.id=s.id ∧ row.actorID=s.actorID ∧ row.actorType=s.actorType ∧
      (meant s=true → row.revokedAt.isSome=true) := by
  rw [revokeSessions,if_neg (Bool.eq_false_iff.mp hcalm)]
  refine ⟨_,mem_map_of_mem hs,?_⟩
  split_ifs with hactive
  · exact ⟨rfl,rfl,rfl,fun _ => rfl⟩
  refine ⟨rfl,rfl,rfl,fun hmeant => ?_⟩
  simpa [hmeant,Option.isSome_iff_ne_none] using hactive

section Runs

variable (hsub : tok.sub≠"") (hsid : tok.sid="")
  (hone : ∀ p∈dir.providers,∀ q∈dir.providers,p.issuerURL=tok.issuer → q.issuerURL=tok.issuer → p.id=q.id)
include hsub hsid hone

/-- With one provider for the issuer and no failure, the sessions of the subject are revoked. -/
theorem revokeMatching_loggedOut (hcalm : c.list=false ∧ c.lookup=false ∧ c.revoke=false)
    (h : Kept before st.sessions) : Kept before (revokeMatching dir tok c st).2.sessions ∧
      LoggedOut dir tok before (revokeMatching dir tok c st).2.sessions := by
  simp only [revokeMatching,hsid,hsub,hcalm.1,hcalm.2.1,ne_eq,not_true_eq_false,if_false,Bool.false_eq_true]
  split
  · rename_i hnone
    refine ⟨h,fun p hp hissuer => ?_⟩
    exact absurd (decide_eq_true hissuer) (find?_eq_none.mp hnone p hp)
  rename_i matched hmatched
  have hissued := find?_some hmatched
  have hid : ∀ p∈dir.providers,p.issuerURL=tok.issuer → p.id=matched.id := fun p hp hissuer =>
    hone p hp matched (mem_of_find?_eq_some hmatched) hissuer (of_decide_eq_true hissued)
  split
  · rename_i hnone
    refine ⟨h,fun p hp hissuer u hu hprovider hsubject => ?_⟩
    have hnot := find?_eq_none.mp hnone u hu
    simp [hprovider.trans (hid p hp hissuer),hsubject] at hnot
  rename_i user huser
  have hfound := find?_some huser
  simp only [Bool.and_eq_true,decide_eq_true_eq] at hfound
  refine ⟨fun s hs => ?_,fun p hp hissuer u hu hprovider hsubject s hs hactor htype => ?_⟩ <;>
    obtain ⟨row,hrow,hrid,hractor,hrtype⟩ := h s hs <;>
    obtain ⟨row',hrow',hid',hactor',htype',hrevoked⟩ := mem_revokeSessions hcalm.2.2 hrow
  · exact ⟨row',hrow',hid'.trans hrid,hactor'.trans hractor,htype'.trans hrtype⟩
  have hsame : u=user := dir.identities u hu user (mem_of_find?_eq_some huser)
    ((hprovider.trans (hid p hp hissuer)).trans hfound.1.symm) (hsubject.trans hfound.2.symm)
  refine ⟨row',hrow',hid'.trans hrid,hrevoked ?_⟩
  simp [hractor,hactor,hrtype,htype,hsame]

variable (maxAge)

theorem deliver_inv (hcalm : c.list=false ∧ c.lookup=false ∧ c.revoke=false) (h : Inv dir tok st before) :
    Inv dir tok (backChannelLogout dir maxAge tok c st).2 before ∧ ((backChannelLogout dir maxAge tok c st).1=200 →
        LoggedOut dir tok before (backChannelLogout dir maxAge tok c st).2.sessions) := by
  unfold backChannelLogout
  split_ifs with hverify hconsume hused
  · exact ⟨h,nofun⟩
  · exact ⟨h,nofun⟩
  · exact ⟨h,fun _ => h.done hused⟩
  have hboth := fun rows => revokeMatching_loggedOut hsub hsid hone hcalm (show Kept before (State.mk _ rows).sessions from h.kept)
  exact ⟨⟨(hboth _).1,fun _ => (hboth _).2⟩,fun _ => (hboth _).2⟩

theorem run_inv {events : List Event} (h : Inv dir tok st before)
    (hcalm : ∀ d,.deliver d∈events → d.list=false ∧ d.lookup=false ∧ d.revoke=false) :
    Inv dir tok (events.foldl (step dir maxAge tok) st) before := by
  induction events generalizing st with
  | nil => exact h
  | cons e rest ih =>
    refine ih ?_ fun d hd => hcalm d (mem_cons_of_mem _ hd)
    cases e with
    | deliver d => exact (deliver_inv maxAge hsub hsid hone (hcalm d mem_cons_self) h).1
    | sweepExpired =>
      refine ⟨h.kept,fun hleft => h.done ?_⟩
      obtain ⟨row,hrow,hrecords⟩ := any_eq_true.mp hleft
      exact any_eq_true.mpr ⟨row,mem_of_mem_filter hrow,hrecords⟩

/-- A delivery that is answered with success has logged the subject out, when the token names no session and was not
recorded before, one provider has the issuer, and no delivery fails after it has recorded the token. -/
theorem acknowledged_logout_effective (events : List Event) (hunused : st.consumed.any (·.records tok)=false)
    (hcalm : ∀ d,.deliver d∈events++[.deliver c] → d.list=false ∧ d.lookup=false ∧ d.revoke=false)
    (hack : (backChannelLogout dir maxAge tok c (events.foldl (step dir maxAge tok) st)).1=200) :
    LoggedOut dir tok st.sessions
      (backChannelLogout dir maxAge tok c (events.foldl (step dir maxAge tok) st)).2.sessions := by
  have hstart : Inv dir tok st st.sessions := ⟨fun s hs => ⟨s,hs,rfl,rfl,rfl⟩,fun hused => by simp [hunused] at hused⟩
  have hbefore := run_inv maxAge hsub hsid hone hstart fun d hd => hcalm d (mem_append_left _ hd)
  exact (deliver_inv maxAge hsub hsid hone (hcalm c (mem_append_right _ mem_cons_self)) hbefore).2 hack

end Runs

def sampleToken : LogoutToken := ⟨"iss","sub","","jti"⟩

def sampleDirectory : Directory := ⟨[⟨"op-1","iss"⟩],[⟨"u-1","op-1","sub"⟩],by simp⟩

def sampleState : State := ⟨[⟨"ses-1","u-1",.user,none⟩],[]⟩

def sampleDelivery (c : Choice) (st : State) : ℕ×State := backChannelLogout sampleDirectory 0 sampleToken c st

/-- The token is refused in the first delivery and is followed in the second. -/
theorem acknowledged_logout_effective_once : (sampleDelivery {verify := true} sampleState).1=400 ∧
    LoggedOut sampleDirectory sampleToken sampleState.sessions
      (sampleDelivery {} (sampleDelivery {verify := true} sampleState).2).2.sessions :=
  ⟨rfl,acknowledged_logout_effective 0 (by decide) rfl (by simp [sampleDirectory]) [.deliver {verify := true}] rfl
    (by simp) rfl⟩

/-- The providers cannot be read in the first delivery, and the second is taken for a replay. -/
theorem retried_logout_not_effective : (sampleDelivery {} (sampleDelivery {list := true} sampleState).2).1=200 ∧
    ¬LoggedOut sampleDirectory sampleToken sampleState.sessions
      (sampleDelivery {} (sampleDelivery {list := true} sampleState).2).2.sessions := by
  refine ⟨rfl,fun h => ?_⟩
  obtain ⟨row,hrow,-,hrevoked⟩ := h _ mem_cons_self rfl _ mem_cons_self rfl rfl _ mem_cons_self rfl rfl
  cases mem_singleton.mp hrow
  cases hrevoked

end Certctl.BackChannelLogout
