import Certctl.RoleGrants

/-!
# The first administrator

Two paths hand out the administrator role while a tenant has none: a login
through a provider whose groups are named in the configuration, and a call with
the bootstrap token. Each path first asks whether there is an administrator and
grants later. The token is used once, but the other path does not see that, and
the question overlooks the demo actor. Calls of any number run interleaved, one
repository call or locked section at a time.
-/

namespace Certctl.FirstAdmin

open DomainRecords AccessDecisions Function
open RoleGrants (demoAnonActorID)

/-- Who is granted the role. -/
structure Actor where
  actorID : String
  actorType : ActorType
deriving DecidableEq

/-- A row that grants the administrator role in the default tenant. -/
structure AdminRow where
  /-- Who has the role. -/
  actor : Actor
  /-- When the grant ends, if ever. -/
  expiresAt : Option Time

/-- The settings of both paths. -/
structure Config where
  /-- Groups whose members qualify. -/
  bootstrapGroups : List String
  /-- The provider in question, empty for all. -/
  bootstrapProviderID : String
  /-- The bootstrap token, empty if unset. -/
  token : String
  /-- Names that the pattern for administrator keys matches. -/
  actorNameRe : String→Bool

/-- A login or a call with the token. -/
inductive Call where
  | oidc (providerID : String) (groups : List String) (userID : String)
  | token (token actorName : String)

/-- Where a call is; `probed` is left by the grant or, by token, by the use of the token. -/
inductive Pc where
  | start
  | checked
  | probed
  | accepted
  | keyed
  | done
deriving DecidableEq

/-- What the calls share. -/
structure Shared where
  /-- The administrators. -/
  rows : List AdminRow
  /-- The token was used. -/
  consumed : Bool
  /-- Actors for whom the calls have inserted a row. -/
  granted : List Actor

/-- What the environment decides at a step. -/
structure Choice where
  /-- The repository fails. -/
  fault : Bool := false
  now : Time := 0

/-- Someone but the demo actor has an unexpired grant. -/
def adminExists (now : Time) (rows : List AdminRow) : Bool :=
  rows.any fun row => row.actor.actorID≠demoAnonActorID && row.expiresAt.all (now<·)

/-- The grant is global, so its scope has no identifier and the uniqueness of grants does not apply to it. -/
def grant (actor : Actor) (sh : Shared) : Shared :=
  {sh with rows := sh.rows++[⟨actor,none⟩], granted := sh.granted++[actor]}

/-- One repository call or locked section of a call. -/
def act (cfg : Config) (c : Choice) (sh : Shared) : Call→Pc→Pc×Shared
  | .oidc providerID groups _,.start =>
    if (cfg.bootstrapProviderID≠"" ∧ providerID≠cfg.bootstrapProviderID) ∨ c.fault ∨ adminExists c.now sh.rows ∨
      ¬groups.any cfg.bootstrapGroups.contains then (.done,sh) else (.probed,sh)
  | .oidc _ _ userID,.probed => (.done,if c.fault then sh else grant ⟨userID,.user⟩ sh)
  | .token token actorName,.start =>
    if ¬cfg.actorNameRe actorName ∨ sh.consumed ∨ cfg.token="" ∨ token="" ∨ token≠cfg.token then (.done,sh)
    else (.checked,sh)
  | .token _ _,.checked => if c.fault ∨ adminExists c.now sh.rows then (.done,sh) else (.probed,sh)
  | .token _ _,.probed => if sh.consumed then (.done,sh) else (.accepted,{sh with consumed := true})
  | .token _ _,.accepted => (if c.fault then .done else .keyed,sh)
  | .token _ actorName,.keyed => (.done,if c.fault then sh else grant ⟨actorName,.apiKey⟩ sh)
  | _,_ => (.done,sh)

/-- Where all calls are. -/
structure State (ι : Type) where
  /-- Where each call is. -/
  pc : ι→Pc
  sh : Shared

variable {ι : Type} [DecidableEq ι] (cfg : Config) (calls : ι→Call)

/-- A call takes its next step. -/
def step (s : State ι) (t : ι) (c : Choice) : State ι :=
  ⟨Function.update s.pc t (act cfg c s.sh (calls t) (s.pc t)).1,(act cfg c s.sh (calls t) (s.pc t)).2⟩

/-- States that admitted steps of the calls lead to. -/
inductive Reach (ok : State ι→ι→Prop) (sh₀ : Shared) : State ι→Prop
  | start : Reach ok sh₀ ⟨fun _ => .start,sh₀⟩
  | step {s : State ι} {t : ι} (c : Choice) (h : Reach ok sh₀ s) (hok : ok s t) : Reach ok sh₀ (step cfg calls s t c)

/-- All grants are for one actor. -/
def OneAdmin (sh : Shared) : Prop := ∀ a∈sh.granted,∀ b∈sh.granted,a=b

/-- The call is by token. -/
def Call.byToken : Call→Bool
  | .oidc _ _ _ => false
  | .token _ _ => true

/-- Whom the call is for. -/
def Call.actorID : Call→String
  | .oidc _ _ userID => userID
  | .token _ actorName => actorName

/-- The next step asks whether there is an administrator. -/
def Call.probes : Call→Pc→Bool
  | .oidc _ _ _,.start => true
  | .token _ _,.checked => true
  | _,_ => false

/-- The token has been used and the role is still to be granted. -/
def Pc.holds : Pc→Bool
  | .accepted => true
  | .keyed => true
  | _ => false

/-- The call has found no administrator and may still grant the role. -/
def Pc.open (pc : Pc) : Bool := pc=.probed || pc.holds

/-- No call asks while another has found none and may still grant, unless both are by token. -/
def Separate (s : State ι) (t : ι) : Prop :=
  (calls t).probes (s.pc t)=true → ∀ u,u≠t → (s.pc u).open=true → (calls t).byToken=true ∧ (calls u).byToken=true

/-- What a step can do. -/
inductive Move (call : Call) (sh : Shared) : Pc→Pc→Shared→Prop
  | close {pc pc' : Pc} (h : pc'.open=false) : Move call sh pc pc' sh
  | probe {pc : Pc} (now : Time) (h : call.probes pc=true) (hnone : adminExists now sh.rows=false) :
      Move call sh pc .probed sh
  | accept (h : call.byToken=true) (hfree : sh.consumed=false) : Move call sh .probed .accepted {sh with consumed := true}
  | key : Move call sh .accepted .keyed sh
  | grant {pc : Pc} {actor : Actor} (h : call.byToken=false ∧ pc=.probed ∨ pc=.keyed) (hid : actor.actorID=call.actorID) :
      Move call sh pc .done (grant actor sh)

variable {calls}

theorem act_move (c : Choice) (sh : Shared) (call : Call) (pc : Pc) :
    Move call sh pc (act cfg c sh call pc).1 (act cfg c sh call pc).2 := by
  unfold act
  split
  · split_ifs with hstop
    · exact .close rfl
    simp only [not_or,Bool.not_eq_true] at hstop
    exact .probe c.now rfl hstop.2.2.1
  · split_ifs
    · exact .close rfl
    · exact .grant (Or.inl ⟨rfl,rfl⟩) rfl
  · split_ifs <;> exact .close rfl
  · split_ifs with hstop
    · exact .close rfl
    simp only [not_or,Bool.not_eq_true] at hstop
    exact .probe c.now rfl hstop.2
  · split_ifs with hused
    · exact .close rfl
    · exact .accept rfl (Bool.eq_false_iff.mpr hused)
  · split_ifs
    · exact .close rfl
    · exact .key
  · split_ifs
    · exact .close rfl
    · exact .grant (Or.inr rfl) rfl
  · exact .close rfl

/-- What holds while calls are separate and none names the demo actor. -/
structure Inv (calls : ι→Call) (s : State ι) : Prop where
  /-- A login that may still grant is the only such call. -/
  login : ∀ t,(calls t).byToken=false → (s.pc t).open=true → s.sh.granted=[] ∧ ∀ u,(s.pc u).open=true → u=t
  /-- One call at most holds the used token, before any grant. -/
  holder : ∀ t,(s.pc t).holds=true → s.sh.consumed=true ∧ s.sh.granted=[] ∧ ∀ u,(s.pc u).holds=true → u=t
  /-- After a grant an administrator is found and the token is used. -/
  admin : s.sh.granted≠[] → (∀ now,adminExists now s.sh.rows=true) ∧ ∀ t,(s.pc t).open=true → s.sh.consumed=true
  one : OneAdmin s.sh

theorem adminExists_grant {actor : Actor} (hname : actor.actorID≠demoAnonActorID) (sh : Shared) (now : Time) :
    adminExists now (grant actor sh).rows=true := by simp [grant,adminExists,hname]

theorem open_of_holds {pc : Pc} (h : pc.holds=true) : pc.open=true := by simp [Pc.open,h]

section Moves

variable {pc : ι→Pc} {sh : Shared} {t : ι} (h : Inv calls ⟨pc,sh⟩)
include h

/-- The call comes no closer to a grant. -/
theorem Inv.narrow {p : Pc} (hp : p.open=true → (pc t).open=true) (hp' : p.holds=true → (pc t).holds=true) :
    Inv calls ⟨update pc t p,sh⟩ := by
  have hopen : ∀ u,(update pc t p u).open=true → (pc u).open=true :=
    (forall_update_iff pc fun u q => q.open=true → (pc u).open=true).mpr ⟨hp,fun _ _ => id⟩
  have hholds : ∀ u,(update pc t p u).holds=true → (pc u).holds=true :=
    (forall_update_iff pc fun u q => q.holds=true → (pc u).holds=true).mpr ⟨hp',fun _ _ => id⟩
  refine ⟨fun u hlog hu => ?login,fun u hu => ?holder,fun hne => ?admin,h.one⟩
  case login => exact (h.login u hlog (hopen u hu)).imp_right fun honly v hv => honly v (hopen v hv)
  case holder =>
    obtain ⟨hused,hfresh,honly⟩ := h.holder u (hholds u hu)
    exact ⟨hused,hfresh,fun v hv => honly v (hholds v hv)⟩
  case admin => exact (h.admin hne).imp_right fun hused u hu => hused u (hopen u hu)

/-- A call that finds no administrator; those beside it that may still grant are by token, as it is. -/
theorem Inv.probe (now : Time) (hnone : adminExists now sh.rows=false)
    (hbeside : ∀ u,u≠t → (pc u).open=true → (calls t).byToken=true ∧ (calls u).byToken=true) :
    Inv calls ⟨update pc t .probed,sh⟩ := by
  have hfresh : sh.granted=[] := by_contra fun hne => by simp [(h.admin hne).1 now] at hnone
  have hholds : ∀ u,(update pc t .probed u).holds=true → (pc u).holds=true := by
    intro u hu
    rcases eq_or_ne u t with rfl|hne
    · simp [Pc.holds] at hu
    · rwa [update_of_ne hne] at hu
  refine ⟨?login,?holder,fun hne => absurd hfresh hne,h.one⟩
  case login =>
    intro u hlog hu
    refine ⟨hfresh,fun v hv => by_contra fun hne => ?_⟩
    -- one of the two is not the call that asks, so both are by token
    dsimp only at hu hv
    rcases eq_or_ne u t with rfl|hut
    · rw [update_of_ne hne] at hv
      simp [(hbeside v hne hv).1] at hlog
    · rw [update_of_ne hut] at hu
      simp [(hbeside u hut hu).2] at hlog
  case holder =>
    intro u hu
    obtain ⟨hused,_,honly⟩ := h.holder u (hholds u hu)
    exact ⟨hused,hfresh,fun v hv => honly v (hholds v hv)⟩

/-- A call that uses the token is the first to hold it, so nothing is granted yet. -/
theorem Inv.accept (hpc : pc t=.probed) (htoken : (calls t).byToken=true) (hfree : sh.consumed=false) :
    Inv calls ⟨update pc t .accepted,{sh with consumed := true}⟩ := by
  have hprobed : (pc t).open=true := by simp [hpc,Pc.open]
  have hfresh : sh.granted=[] := by_contra fun hne => Bool.false_ne_true (hfree.symm.trans ((h.admin hne).2 t hprobed))
  have honly : ∀ u,(update pc t .accepted u).holds=true → u=t := by
    intro u hu
    by_contra hne
    rw [update_of_ne hne] at hu
    exact Bool.false_ne_true (hfree.symm.trans (h.holder u hu).1)
  refine ⟨?login,?holder,fun hne => absurd hfresh hne,h.one⟩
  case login =>
    intro u hlog hu
    have hut : u≠t := by
      rintro rfl
      simp [htoken] at hlog
    dsimp only at hu
    rw [update_of_ne hut] at hu
    exact absurd ((h.login u hlog hu).2 t hprobed).symm hut
  case holder =>
    intro u hu
    exact ⟨rfl,hfresh,fun v hv => (honly v hv).trans (honly u hu).symm⟩

/-- The grant is the first; calls that may still grant find the token used. -/
theorem Inv.grant {actor : Actor} (hgrants : (calls t).byToken=false ∧ pc t=.probed ∨ pc t=.keyed)
    (hname : actor.actorID≠demoAnonActorID) : Inv calls ⟨update pc t .done,grant actor sh⟩ := by
  have hopen : (pc t).open=true := by rcases hgrants with ⟨_,hpc⟩|hpc <;> simp [hpc,Pc.open,Pc.holds]
  have hfresh : sh.granted=[] := by
    rcases hgrants with ⟨hlog,_⟩|hpc
    · exact (h.login t hlog hopen).1
    · exact (h.holder t (by simp [hpc,Pc.holds])).2.1
  have hbeside : ∀ {u},(update pc t .done u).open=true → u≠t ∧ (pc u).open=true := by
    intro u hu
    have hut : u≠t := by
      rintro rfl
      simp [Pc.open,Pc.holds] at hu
    exact ⟨hut,by rwa [update_of_ne hut] at hu⟩
  refine ⟨?login,?holder,fun _ => ⟨adminExists_grant hname sh,?admin⟩,by simp [OneAdmin,FirstAdmin.grant,hfresh]⟩
  case login =>
    intro u hlog hu
    obtain ⟨hut,hu⟩ := hbeside hu
    exact absurd ((h.login u hlog hu).2 t hopen).symm hut
  case holder =>
    intro u hu
    obtain ⟨hut,hu'⟩ := hbeside (open_of_holds hu)
    dsimp only at hu
    rw [update_of_ne hut] at hu
    rcases hgrants with ⟨hlog,_⟩|hpc
    · exact absurd ((h.login t hlog hopen).2 u hu') hut
    · exact absurd ((h.holder t (by simp [hpc,Pc.holds])).2.2 u hu) hut
  case admin =>
    intro u hu
    obtain ⟨hut,hu⟩ := hbeside hu
    rcases hgrants with ⟨hlog,_⟩|hpc
    · exact absurd ((h.login t hlog hopen).2 u hu) hut
    · exact (h.holder t (by simp [hpc,Pc.holds])).1

end Moves

theorem inv_step {s : State ι} {t : ι} (c : Choice) (hnames : ∀ t,(calls t).actorID≠demoAnonActorID)
    (h : Inv calls s) (hok : Separate calls s t) : Inv calls (step cfg calls s t c) := by
  have hmove := act_move cfg c s.sh (calls t) (s.pc t)
  obtain ⟨pc,sh⟩ := s
  unfold step
  dsimp only at hmove ⊢
  generalize (act cfg c sh (calls t) (pc t)).1=pc',(act cfg c sh (calls t) (pc t)).2=sh' at hmove ⊢
  generalize hpc : pc t=before at hmove
  cases hmove with
  | close hclosed => exact h.narrow (by simp [hclosed]) fun hp => by simp [open_of_holds hp] at hclosed
  | key => exact h.narrow (by simp [hpc,Pc.open,Pc.holds]) (by simp [hpc,Pc.holds])
  | probe now hprobes hnone =>
    subst hpc
    exact h.probe now hnone (hok hprobes)
  | accept htoken hfree => exact h.accept hpc htoken hfree
  | grant hgrants hid => exact h.grant (hpc ▸ hgrants) (hid ▸ hnames t)

/-- When calls are separate and none is for the demo actor, one actor at most is granted the role. -/
theorem one_bootstrap_admin {ι : Type} [DecidableEq ι] {cfg : Config} {calls : ι→Call} {sh₀ : Shared} {s : State ι}
    (hfresh : sh₀.granted=[]) (hnames : ∀ t,(calls t).actorID≠demoAnonActorID)
    (h : Reach cfg calls (Separate calls) sh₀ s) : OneAdmin s.sh := by
  have hinv : Inv calls s := by
    induction h with
    | start =>
      refine ⟨nofun,nofun,fun hne => absurd hfresh hne,?_⟩
      intro a ha
      simp [hfresh] at ha
    | step c _ hok ih => exact inv_step cfg c hnames ih hok
  exact hinv.one

/-- One group of administrators, and a token. -/
def sampleConfig : Config := ⟨["admins"],"","secret",fun _ => true⟩

/-- A login from that group. -/
def sampleLogin (userID : String) : Call := .oidc "op-1" ["admins"] userID

/-- A login, and a call by token beside it. -/
def sampleCalls (login : Bool) : Call := if login then sampleLogin "u-1" else .token "secret" "ops"

/-- The login is granted the role; the call with the right token then finds an administrator and ends. -/
theorem one_bootstrap_admin_login : ∃ s,
    Reach sampleConfig sampleCalls (Separate sampleCalls) ⟨[],false,[]⟩ s ∧ (∀ login,s.pc login=.done) ∧
      s.sh.consumed=false ∧ s.sh.granted=[⟨"u-1",.user⟩] ∧ OneAdmin s.sh := by
  have hreach : Reach sampleConfig sampleCalls (Separate sampleCalls) ⟨[],false,[]⟩ _ :=
    .step (t := false) {} (.step (t := false) {} (.step (t := true) {} (.step (t := true) {} .start
      (by unfold Separate; decide)) (by unfold Separate; decide)) (by unfold Separate; decide))
      (by unfold Separate; decide)
  exact ⟨_,hreach,by decide,rfl,rfl,one_bootstrap_admin rfl (by decide) hreach⟩

/-- Two logins that both ask before either grants. -/
theorem two_bootstrap_admins : ∃ s,
    Reach sampleConfig (fun b : Bool => sampleLogin (if b then "u-1" else "u-2")) (fun _ _ => True) ⟨[],false,[]⟩ s ∧
      ¬OneAdmin s.sh :=
  ⟨_,.step (t := false) {} (.step (t := true) {} (.step (t := false) {} (.step (t := true) {} .start trivial)
    trivial) trivial) trivial,by unfold OneAdmin; decide⟩

end Certctl.FirstAdmin
