import Certctl.AtomicProgram
import Mathlib.Algebra.Order.BigOperators.Group.Finset
import Mathlib.Algebra.BigOperators.Group.Finset.Piecewise
import Mathlib.Algebra.GroupWithZero.Nat

/-!
# Interleavings of programs over one shared store

A pool gives every call its program; a call that has taken no step has not
begun, so an infinite index set covers any number of calls. A step runs one
atomic operation of one call and records it. The tracking rule checks each
program alone, whatever answers it gets, and hands its conditions to an
invariant of the run. The accounting rule adds up, over all calls, a bound
that each program keeps on its own. The progress rules drive a call to its
return when its next step is possible, at once or after help from others.
-/

namespace Certctl.AtomicInterleaving

open AtomicProgram Function Relation
open List

variable {S : Store} {ι α : Type}

/-- One recorded operation: the call that made it and the answer it got. -/
structure Event (S : Store) (ι : Type) where
  /-- The call that ran the operation. -/
  thread : ι
  op : S.Op
  /-- The answer handed back to the call. -/
  res : S.Res op

/-- Recorded operations; a configuration has the latest first. -/
abbrev Log (S : Store) (ι : Type) := List (Event S ι)

/-- Remaining programs, shared state and the events so far, newest first. -/
structure Config (S : Store) (ι α : Type) where
  /-- What each call has still to do. -/
  threads : ι→Prog S α
  state : S.State
  /-- Operations already run, newest first. -/
  log : Log S ι

abbrev StepCondition (S : Store) (ι α : Type) := Config S ι α→ι→S.Op→S.Choice→Prop

def anyStep : StepCondition S ι α := fun _ _ _ _ => True

instance (cfg : Config S ι α) (t : ι) (op : S.Op) (c : S.Choice) : Decidable (anyStep cfg t op c) :=
  inferInstanceAs (Decidable True)

def initial (pool : ι→Prog S α) (s : S.State) : Config S ι α := ⟨pool,s,[]⟩

variable {u : ι} {cfg' : Config S ι α} {c : S.Choice} {schedule : List (ι×S.Choice)}

section Steps

variable [DecidableEq ι]

/-- The configuration after one call received an answer. -/
def Config.advance (cfg : Config S ι α) (t : ι) (op : S.Op) (r : S.Res op)
    (next : Prog S α) (s : S.State) : Config S ι α :=
  ⟨Function.update cfg.threads t next,s,⟨t,op,r⟩::cfg.log⟩

section

variable (cfg : Config S ι α) (t : ι) (op : S.Op) (r : S.Res op) (next : Prog S α) (s : S.State)
include cfg t op r next s

@[simp] theorem Config.advance_log : (cfg.advance t op r next s).log=⟨t,op,r⟩::cfg.log := rfl

@[simp] theorem Config.advance_self : (cfg.advance t op r next s).threads t=next := update_self _ _ _

end

theorem Config.advance_of_ne {t : ι} (hu : u≠t) (cfg : Config S ι α) (op : S.Op) (r : S.Res op) (next : Prog S α)
    (s : S.State) : (cfg.advance t op r next s).threads u=cfg.threads u := update_of_ne hu _ _

/-- One admitted atomic step of one call. -/
inductive Step (ok : StepCondition S ι α) : Config S ι α → Config S ι α→Prop where
  /-- The next operation of a call takes effect and the call goes on. -/
  | run {cfg : Config S ι α} {t : ι} {op : S.Op} {k : S.Res op→Prog S α}
      {c : S.Choice} {r : S.Res op} {s : S.State}
      (hthread : cfg.threads t=.call op k) (hok : ok cfg t op c)
      (hperform : S.perform op c cfg.state=some (r,s)) :
      Step ok cfg (cfg.advance t op r (k r) s)

abbrev Reach (ok : StepCondition S ι α) : Config S ι α → Config S ι α→Prop := ReflTransGen (Step ok)

section Schedules

variable (ok : StepCondition S ι α) [∀ cfg t op c,Decidable (ok cfg t op c)]

/-- Execute one scheduled step, if it is admitted and the call neither
finished nor blocked. -/
def Config.next (cfg : Config S ι α) (t : ι) (c : S.Choice) : Option (Config S ι α) :=
  match cfg.threads t with
  | .ret _ => none
  | .call op k =>
    if ok cfg t op c then
      match S.perform op c cfg.state with
      | none => none
      | some (r,s) => some (cfg.advance t op r (k r) s)
    else none

/-- Execute a literal schedule from left to right. -/
def Config.runSchedule (cfg : Config S ι α) : List (ι×S.Choice)→Option (Config S ι α)
  | [] => some cfg
  | (t,c)::rest =>
    match cfg.next ok t c with
    | none => none
    | some cfg' => cfg'.runSchedule rest

variable {ok} {cfg : Config S ι α}

theorem step_of_next {t : ι} (h : cfg.next ok t c=some cfg') : Step ok cfg cfg' := by
  rw [Config.next] at h
  split at h
  · cases h
  rename_i hthread
  split at h
  · rename_i hok
    split at h
    · cases h
    rename_i hperform
    cases h
    exact Step.run hthread hok hperform
  · cases h

theorem reach_of_runSchedule (h : cfg.runSchedule ok schedule=some cfg') : Reach ok cfg cfg' := by
  induction schedule generalizing cfg with
  | nil =>
    cases h
    exact ReflTransGen.refl
  | cons entry rest ih =>
    simp only [Config.runSchedule] at h
    split at h
    · cases h
    rename_i hnext
    exact ReflTransGen.head (step_of_next hnext) (ih h)

/-- What a schedule is computed to show, some reachable configuration shows. -/
theorem reach_of_view {β : Type} {view : Config S ι α→β} {b : β} (h : (cfg.runSchedule ok schedule).map view=some b) :
    ∃ cfg',Reach ok cfg cfg' ∧ view cfg'=b := by
  obtain ⟨cfg',hcfg,hview⟩ := Option.map_eq_some_iff.mp h
  exact ⟨cfg',reach_of_runSchedule hcfg,hview⟩

theorem reaches_view {β : Type} {P : Config S ι α→Prop} (schedule : List (ι×S.Choice)) (view : Config S ι α→β) (b : β)
    (hrun : (cfg.runSchedule ok schedule).map view=some b) (h : ∀ cfg',Reach ok cfg cfg' → view cfg'=b → P cfg') :
    ∃ cfg',Reach ok cfg cfg' ∧ P cfg' := by
  obtain ⟨cfg',hreach,hview⟩ := reach_of_view hrun
  exact ⟨cfg',hreach,h cfg' hreach hview⟩

/-- Two schedules, one after the other. -/
theorem reaches_views {β : Type} {P : Config S ι α → Config S ι α→Prop} (first second : List (ι×S.Choice))
    (view : Config S ι α → Config S ι α→β) (b : β)
    (hrun : (cfg.runSchedule ok first).bind (fun mid => (mid.runSchedule ok second).map (view mid))=some b)
    (h : ∀ mid last,Reach ok cfg mid → Reach ok mid last → view mid last=b → P mid last) :
    ∃ mid last,Reach ok cfg mid ∧ Reach ok mid last ∧ P mid last := by
  obtain ⟨mid,hmid,hrest⟩ := Option.bind_eq_some_iff.mp hrun
  obtain ⟨last,hlast,hview⟩ := reach_of_view hrest
  have hfirst := reach_of_runSchedule hmid
  exact ⟨mid,last,hfirst,hlast,h mid last hfirst hlast hview⟩

end Schedules

variable {ok : StepCondition S ι α} {cfg : Config S ι α}

theorem reach_invariant {I : Config S ι α→Prop} (hstart : I cfg)
    (hstep : ∀ a b,I a→Step ok a b→I b) (hreach : Reach ok cfg cfg') : I cfg' := by
  induction hreach with
  | refl => exact hstart
  | tail _ hs ih => exact hstep _ _ ih hs

theorem log_suffix (hreach : Reach ok cfg cfg') : cfg.log<:+cfg'.log := by
  refine reach_invariant (I := fun b => cfg.log<:+b.log) (suffix_refl _) ?_ hreach
  rintro a _ ha ⟨hthread,hok,hperform⟩
  exact ha.trans (suffix_cons _ _)

theorem Reach.mono {ok' : StepCondition S ι α} (himp : ∀ cfg t op c,ok cfg t op c → ok' cfg t op c)
    (h : Reach ok cfg cfg') : Reach ok' cfg cfg' := by
  refine ReflTransGen.mono ?_ _ _ h
  rintro a _ ⟨hthread,hok,hperform⟩
  exact Step.run hthread (himp _ _ _ _ hok) hperform

end Steps

variable {U : S.Op→Prop}

section Progress

variable [DecidableEq ι]

def own (t : ι) (log : Log S ι) : Log S ι := log.filter (·.thread=t)

theorem own_cons_of_ne {t : ι} (htu : t≠u) (op : S.Op) (r : S.Res op) (log : Log S ι) :
    own u (⟨t,op,r⟩::log)=own u log := by
  simp only [own,filter_cons,htu,decide_false,Bool.false_eq_true,if_false]

variable {ok : StepCondition S ι α} {t : ι}

theorem uses_step (t : ι) (a b : Config S ι α) (h : (a.threads t).Uses U) (hstep : Step ok a b) :
    (b.threads t).Uses U := by
  obtain ⟨hthread,-,-⟩ := hstep
  rename_i u op k c r s'
  by_cases hu : t=u
  · subst hu
    rw [hthread] at h
    simpa only [Config.advance,update_self] using h.2 r
  · simpa only [Config.advance,update_of_ne hu] using h

variable {I : Config S ι α→Prop} {cfg : Config S ι α}

theorem reach_return_alone (hstep : ∀ a b,I a → Step ok a b → I b)
    (hlive : ∀ cfg op k,I cfg → cfg.threads t=.call op k →
      ∃ c r s',ok cfg t op c ∧ S.perform op c cfg.state=some (r,s'))
    (hcfg : I cfg) : ∃ cfg' a,Reach ok cfg cfg' ∧ cfg'.threads t=.ret a ∧
      ∀ u,u≠t → cfg'.threads u=cfg.threads u ∧ own u cfg'.log=own u cfg.log := by
  generalize hp : cfg.threads t=p
  induction p generalizing cfg with
  | ret a => exact ⟨cfg,a,ReflTransGen.refl,hp,fun _ _ => ⟨rfl,rfl⟩⟩
  | call op k ih =>
    obtain ⟨c,r,s',hok,hperform⟩ := hlive cfg op k hcfg hp
    have hfirst : Step ok cfg (cfg.advance t op r (k r) s') := Step.run hp hok hperform
    obtain ⟨cfg',a,hreach,hret,hframe⟩ := ih r (hstep _ _ hcfg hfirst) (by simp only [Config.advance,update_self])
    refine ⟨cfg',a,ReflTransGen.head hfirst hreach,hret,fun u hu => ?_⟩
    obtain ⟨hthread,hown⟩ := hframe u hu
    refine ⟨hthread.trans ?_,hown.trans ?_⟩
    · simp only [Config.advance,update_of_ne hu]
    · exact own_cons_of_ne (Ne.symm hu) _ _ _

theorem reach_return (hstep : ∀ a b,I a → Step ok a b → I b) (hlive : ∀ cfg op k,I cfg → cfg.threads t=.call op k →
      ∃ mid,Reach ok cfg mid ∧ mid.threads t=.call op k ∧ ∃ c r s',ok mid t op c ∧ S.perform op c mid.state=some (r,s'))
    (hcfg : I cfg) : ∃ cfg' a,Reach ok cfg cfg' ∧ cfg'.threads t=.ret a := by
  generalize hp : cfg.threads t=p
  induction p generalizing cfg with
  | ret a => exact ⟨cfg,a,ReflTransGen.refl,hp⟩
  | call op k ih =>
    obtain ⟨mid,hhelp,hmid,c,r,s',hok,hperform⟩ := hlive cfg op k hcfg hp
    have hnext : Step ok mid (mid.advance t op r (k r) s') := Step.run hmid hok hperform
    have hinv := hstep _ _ (reach_invariant hcfg hstep hhelp) hnext
    obtain ⟨cfg',a,hreach,hret⟩ := ih r hinv (by simp only [Config.advance,update_self])
    exact ⟨cfg',a,(hhelp.tail hnext).trans hreach,hret⟩

theorem reach_return_of_uses (hlive : ∀ cfg op,U op → ∃ c r s',ok cfg t op c ∧
    S.perform op c cfg.state=some (r,s')) (h : (cfg.threads t).Uses U) :
    ∃ cfg' a,Reach ok cfg cfg' ∧ cfg'.threads t=.ret a := by
  obtain ⟨cfg',a,hreach,hret,-⟩ := reach_return_alone (I := fun b : Config S ι α => (b.threads t).Uses U)
    (uses_step t) (fun b op k hb hthread => hlive b op (by rw [hthread] at hb; exact hb.1)) h
  exact ⟨cfg',a,hreach,hret⟩

end Progress

variable {s s' : S.State}

section Alone

variable {I : S.State→Log S Unit→Prop}

/-- What holds of the state and the log at every point of a run of one call alone, and of its result at the end. -/
def Along (I : S.State→Log S Unit→Prop) (Q : α→S.State→Log S Unit→Prop) : Prog S α→S.State→Log S Unit→Prop
  | .ret a,s,log => Q a s log
  | .call op k,s,log => I s log ∧ ∀ c r s',S.perform op c s=some (r,s') → Along I Q (k r) s' (⟨(),op,r⟩::log)

theorem along_bind {β : Type} (Q : β→S.State→Log S Unit→Prop) (p : Prog S α) (f : α→Prog S β) (s : S.State)
    (log : Log S Unit) : Along I Q (p.bind f) s log ↔ Along I (fun a s' log' => Along I Q (f a) s' log') p s log := by
  induction p generalizing s log with
  | ret => exact Iff.rfl
  | call op k ih => simp only [Prog.call_bind,Along,ih]

variable {p : Prog S α} {Q : α→S.State→Log S Unit→Prop} {log : Log S Unit}

theorem Along.mono {I' : S.State→Log S Unit→Prop} {Q' : α→S.State→Log S Unit→Prop}
    (hi : ∀ s' log',I s' log' → I' s' log')
    (hq : ∀ a s' log',Q a s' log' → Q' a s' log') (h : Along I Q p s log) : Along I' Q' p s log := by
  induction p generalizing s log with
  | ret a => exact hq a s log h
  | call op k ih => exact ⟨hi s log h.1,fun c r s' hp => ih r (h.2 c r s' hp)⟩

theorem along_of_uses (hI : ∀ op,U op → ∀ c r s s' log,S.perform op c s=some (r,s') → I s log → I s' (⟨(),op,r⟩::log))
    (hp : p.Uses U) (hs : I s log) : Along I (fun _ s' log' => I s' log') p s log := by
  induction p generalizing s log with
  | ret => exact hs
  | call op k ih => exact ⟨hs,fun c r s' hperform => ih r (hp.2 r) (hI op hp.1 c r s s' log hperform hs)⟩

/-- A point of a run alone: the condition, or that on results once the call has returned. -/
def Config.At (I : S.State→Log S Unit→Prop) (Q : α→S.State→Log S Unit→Prop) (cfg : Config S Unit α) : Prop :=
  match cfg.threads () with
  | .ret a => Q a cfg.state cfg.log
  | .call _ _ => I cfg.state cfg.log

variable {cfg : Config S Unit α}

theorem reach_along (h : Along I Q p s []) (hreach : Reach anyStep (initial (fun _ => p) s) cfg) : cfg.At I Q := by
  have halong : Along I Q (cfg.threads ()) cfg.state cfg.log := by
    refine reach_invariant (I := fun b => Along I Q (b.threads ()) b.state b.log) h ?_ hreach
    intro a b ha hstep
    obtain ⟨hthread,-,hperform⟩ := hstep
    rename_i c r s'
    rw [hthread] at ha
    simpa only [Config.advance,update_self] using ha.2 c r s' hperform
  rw [Config.At]
  split
  · rename_i hret
    rw [hret] at halong
    exact halong
  · rename_i hcall
    rw [hcall] at halong
    exact halong.1

end Alone

variable {op : S.Op} {r : S.Res op} {e : Event S ι}

section Moments

variable [DecidableEq ι] {ok : StepCondition S ι α} {start cfg : Config S ι α}

/-- A moment of a run: at a configuration a call runs an operation and is answered, and the run goes on. -/
structure Moment (ok : StepCondition S ι α) (start cfg a : Config S ι α) (t : ι) (op : S.Op) (c : S.Choice)
    (r : S.Res op) (s : S.State) : Prop where
  /-- The run comes to the configuration. -/
  before : Reach ok start a
  admitted : ok a t op c
  performed : S.perform op c a.state=some (r,s)
  after : ∃ k,a.threads t=.call op k ∧ Reach ok (a.advance t op r (k r) s) cfg

theorem Moment.later {a : Config S ι α} {t : ι}
    (h : Moment ok start cfg a t op c r s) (hreach : Reach ok cfg cfg') : Moment ok start cfg' a t op c r s := by
  obtain ⟨k,hthread,hafter⟩ := h.after
  exact ⟨h.before,h.admitted,h.performed,k,hthread,hafter.trans hreach⟩

theorem Moment.reach {a : Config S ι α} {t : ι} (h : Moment ok start cfg a t op c r s) : Reach ok a cfg := by
  obtain ⟨k,hthread,hafter⟩ := h.after
  exact ReflTransGen.head (Step.run hthread h.admitted h.performed) hafter

theorem exists_moment (hreach : Reach ok start cfg) (he : e∈cfg.log) (hnew : e∉start.log) :
    ∃ a c s,Moment ok start cfg a e.thread e.op c e.res s := by
  induction hreach with
  | refl => exact absurd he hnew
  | @tail b b' hbefore hlast ih =>
    have hstep := hlast
    obtain ⟨hthread,hok,hperform⟩ := hlast
    rename_i k c r s
    rcases mem_cons.mp he with rfl|hold
    · exact ⟨b,c,s,hbefore,hok,hperform,k,hthread,ReflTransGen.refl⟩
    obtain ⟨a,c₀,s₀,hmoment⟩ := ih hold
    exact ⟨a,c₀,s₀,hmoment.later (ReflTransGen.single hstep)⟩

end Moments

variable {log : Log S ι} {pool : ι→Prog S α}

section Tracking

variable [DecidableEq ι] {G : Type}

/-- The ghost value of one call after the operations it has run. -/
def ghost (upd : G→S.Obs G) (g : G) (t : ι) (log : Log S ι) : G := (own t log).foldr (fun e g' => upd g' e.op e.res) g

@[simp] theorem ghost_cons_self (upd : G→S.Obs G) (g : G) (t : ι) (op : S.Op)
    (r : S.Res op) (log : Log S ι) : ghost upd g t (⟨t,op,r⟩::log)=upd (ghost upd g t log) op r := by
  simp only [ghost,own,filter_cons,decide_true,if_true,foldr_cons]

variable {t : ι}

theorem ghost_cons_of_ne (upd : G→S.Obs G) (g : G) (htu : t≠u)
    (op : S.Op) (r : S.Res op) (log : Log S ι) : ghost upd g u (⟨t,op,r⟩::log)=ghost upd g u log := by
  rw [ghost,own_cons_of_ne htu,ghost]

variable {P : G→Prop}

theorem ghost_keeps {upd : G→S.Obs G} {g : G} (hstart : P g)
    (hstep : ∀ g op r,P g → P (upd g op r)) (t : ι) (log : Log S ι) : P (ghost upd g t log) := by
  unfold ghost
  induction own t log with
  | nil => exact hstart
  | cons e rest ih => exact hstep _ _ _ ih

theorem ghost_pair {H : Type} (upd : G→S.Obs G) (upd' : H→S.Obs H) (g : G) (h : H) (t : ι)
    (log : Log S ι) : ghost (fun (x : G×H) op r => (upd x.1 op r,upd' x.2 op r)) (g,h) t log=
      (ghost upd g t log,ghost upd' h t log) := by
  unfold ghost
  induction own t log with
  | nil => rfl
  | cons e rest ih => rw [foldr_cons,ih,foldr_cons,foldr_cons]

theorem ghost_origin {upd : G→S.Obs G} {g : G} (hstart : ¬P g) (h : P (ghost upd g t log)) :
    ∃ g' op r,(⟨t,op,r⟩ : Event S ι)∈log ∧ ¬P g' ∧ P (upd g' op r) := by
  induction log with
  | nil => exact absurd h hstart
  | cons e rest ih =>
    obtain ⟨u,op,r⟩ := e
    by_cases hrest : P (ghost upd g t rest)
    · obtain ⟨g',op',r',hmem,hturn⟩ := ih hrest
      exact ⟨g',op',r',mem_cons_of_mem _ hmem,hturn⟩
    by_cases hu : u=t
    · subst hu
      rw [ghost_cons_self] at h
      exact ⟨_,op,r,mem_cons_self,hrest,h⟩
    · rw [ghost_cons_of_ne upd g hu] at h
      exact absurd h hrest

theorem ghost_cons (upd : G→S.Obs G) (g : ι→G) (t : ι) (op : S.Op) (r : S.Res op)
    (log : Log S ι) : (fun u => ghost upd (g u) u (⟨t,op,r⟩::log))=
      Function.update (fun u => ghost upd (g u) u log) t (upd (ghost upd (g t) t log) op r) := by
  funext u
  by_cases hu : u=t
  · subst hu
    rw [update_self,ghost_cons_self]
  · rw [update_of_ne hu,ghost_cons_of_ne upd (g u) (Ne.symm hu)]

variable {can : S.Obs Prop} {pre : G→S.Obs Prop} {upd : G→S.Obs G} {Q : α→G→Prop}

/-- Where the invariant holds, every answer given is one the programs are checked against. -/
def Admitted (can : S.Obs Prop) (ok : StepCondition S ι α) (I : Config S ι α→Prop) : Prop :=
  ∀ cfg t op c r s',I cfg → ok cfg t op c → S.perform op c cfg.state=some (r,s') → can op r

omit [DecidableEq ι] in
theorem admitted_canAnswer (ok : StepCondition S ι α) (I : Config S ι α→Prop) : Admitted S.CanAnswer ok I :=
  fun cfg _ _ c _ s' _ _ hperform => ⟨c,cfg.state,s',hperform⟩

/-- Every call is tracked from the ghost value of the operations it has run. -/
def AllTracked (can : S.Obs Prop) (pre : G→S.Obs Prop)
    (upd : G→S.Obs G) (Q : α→G→Prop) (g : ι→G) (cfg : Config S ι α) : Prop :=
  ∀ t,(cfg.threads t).Tracked can pre upd Q (ghost upd (g t) t cfg.log)

variable {g : ι→G} {cfg : Config S ι α}

theorem allTracked_advance {k : S.Res op→Prog S α}
    (htracked : AllTracked can pre upd Q g cfg) (hthread : cfg.threads t=.call op k) (hcan : can op r) :
    AllTracked can pre upd Q g (cfg.advance t op r (k r) s') := by
  intro u
  have hu := htracked u
  by_cases htu : u=t
  · subst htu
    rw [hthread] at hu
    have hnext := (hu r hcan).2
    simpa only [Config.advance,update_self,ghost_cons_self] using hnext
  · simpa only [Config.advance,update_of_ne htu,ghost_cons_of_ne upd (g u) (Ne.symm htu)] using hu

variable {I : Config S ι α→Prop} {ok : StepCondition S ι α}

/-- Invariant rule for tracked calls: a step may use the condition of the call
that steps, and that every call is tracked from its ghost value. -/
theorem reach_tracked {start : Config S ι α} (hcan : Admitted can ok I)
    (hreach : Reach ok start cfg) (hall : AllTracked can pre upd Q g start) (hstart : I start)
    (hstep : ∀ cfg t op c r s',I cfg → AllTracked can pre upd Q g cfg → ok cfg t op c →
      S.perform op c cfg.state=some (r,s') → pre (ghost upd (g t) t cfg.log) op r →
      ∀ k : S.Res op→Prog S α,cfg.threads t=.call op k → I (cfg.advance t op r (k r) s')) :
    I cfg ∧ AllTracked can pre upd Q g cfg := by
  refine reach_invariant (I := fun b => I b ∧ AllTracked can pre upd Q g b) ⟨hstart,hall⟩ ?_ hreach
  intro a b hab hlast
  obtain ⟨ha,htracked⟩ := hab
  obtain ⟨hthread,hok,hperform⟩ := hlast
  rename_i t op k c r s'
  have hanswer := hcan a t op c r s' ha hok hperform
  have hcall := htracked t
  rw [hthread] at hcall
  exact ⟨hstep a t op c r s' ha htracked hok hperform (hcall r hanswer).1 k hthread,
    allTracked_advance htracked hthread hanswer⟩

theorem reach_thread_tracked {g : G}
    (hcan : ∀ a op c r s',Reach ok (initial pool s) a → ok a t op c → S.perform op c a.state=some (r,s') →
      can op r) (h : (pool t).Tracked can pre upd Q g) (hreach : Reach ok (initial pool s) cfg) :
    (cfg.threads t).Tracked can pre upd Q (ghost upd g t cfg.log) := by
  induction hreach with
  | refl => exact h
  | @tail a b hbefore hlast ih =>
    obtain ⟨hthread,hok,hperform⟩ := hlast
    rename_i u op k c r s'
    by_cases hu : u=t
    · subst hu
      rw [hthread] at ih
      have hnext := (ih r (hcan a op c r s' hbefore hok hperform)).2
      simpa only [Config.advance,update_self,ghost_cons_self] using hnext
    · simpa only [Config.advance,update_of_ne (Ne.symm hu),ghost_cons_of_ne upd g hu] using ih

def noted (events : Log S Unit) (op : S.Op) (r : S.Res op) : Log S Unit := ⟨(),op,r⟩::events

theorem mem_log_of_noted (h : ⟨(),op,r⟩∈ghost noted [] t log) : ⟨t,op,r⟩∈log := by
  induction log with
  | nil => cases h
  | cons e rest ih =>
    obtain ⟨u,op',r'⟩ := e
    by_cases hu : u=t
    · subst hu
      rw [ghost_cons_self] at h
      rcases mem_cons.mp h with heq|hold
      · cases heq
        exact mem_cons_self
      · exact mem_cons_of_mem _ (ih hold)
    · rw [ghost_cons_of_ne noted [] hu] at h
      exact mem_cons_of_mem _ (ih h)

theorem canAnswer_of_log (hreach : Reach ok (initial pool s) cfg) {e : Event S ι}
    (he : e∈cfg.log) : S.CanAnswer e.op e.res := by
  obtain ⟨a,c,s',hmoment⟩ := exists_moment hreach he not_mem_nil
  exact ⟨c,a.state,s',hmoment.performed⟩

section History

variable {H : Type}

/-- A step that also notes in a history what it did to the state; what is admitted may depend on the history. -/
def HistoryStep (note : H→S.State→S.State→H) (ok : H→StepCondition S ι α) (a b : H×Config S ι α) : Prop :=
  Step (ok a.1) a.2 b.2 ∧ b.1=note a.1 a.2.state b.2.state

abbrev HistoryReach (note : H→S.State→S.State→H) (ok : H→StepCondition S ι α) :
    H×Config S ι α→H×Config S ι α→Prop := ReflTransGen (HistoryStep note ok)

/-- Invariant rule for tracked calls in runs with a history. -/
theorem history_tracked {note : H→S.State→S.State→H} {ok : H→StepCondition S ι α}
    {start last : H×Config S ι α} {I : H → Config S ι α→Prop} (hcan : ∀ h,Admitted can (ok h) (I h))
    (hstep : ∀ h cfg t op c r s',I h cfg → AllTracked can pre upd Q g cfg → ok h cfg t op c →
      S.perform op c cfg.state=some (r,s') → pre (ghost upd (g t) t cfg.log) op r →
      ∀ k : S.Res op→Prog S α,cfg.threads t=.call op k → I (note h cfg.state s') (cfg.advance t op r (k r) s'))
    (hstart : I start.1 start.2) (hall : AllTracked can pre upd Q g start.2)
    (hreach : HistoryReach note ok start last) : I last.1 last.2 ∧ AllTracked can pre upd Q g last.2 := by
  induction hreach with
  | refl => exact ⟨hstart,hall⟩
  | @tail a b _ hlast ih =>
    obtain ⟨ha,htracked⟩ := ih
    obtain ⟨h',cfg'⟩ := b
    obtain ⟨hone,hnote⟩ := hlast
    dsimp only at hone hnote ⊢
    obtain ⟨hthread,hok,hperform⟩ := hone
    rename_i t op k c r s'
    have hanswer := hcan a.1 a.2 t op c r s' ha hok hperform
    have hcall := htracked t
    rw [hthread] at hcall
    subst hnote
    exact ⟨hstep a.1 a.2 t op c r s' ha htracked hok hperform (hcall r hanswer).1 k hthread,
      allTracked_advance htracked hthread hanswer⟩

section Schedules

variable (note : H→S.State→S.State→H) (ok : H→StepCondition S ι α) [∀ h cfg t op c,Decidable (ok h cfg t op c)]

/-- Execute a literal schedule from left to right and note what it does. -/
def runHistory (a : H×Config S ι α) : List (ι×S.Choice)→Option (H×Config S ι α)
  | [] => some a
  | (t,c)::rest =>
    match a.2.next (ok a.1) t c with
    | none => none
    | some cfg => runHistory (note a.1 a.2.state cfg.state,cfg) rest

variable {note ok}

theorem reach_of_runHistory {a b : H×Config S ι α}
    (h : runHistory note ok a schedule=some b) : HistoryReach note ok a b := by
  induction schedule generalizing a with
  | nil =>
    cases h
    exact ReflTransGen.refl
  | cons entry rest ih =>
    simp only [runHistory] at h
    split at h
    · cases h
    rename_i hnext
    exact ReflTransGen.head ⟨step_of_next hnext,rfl⟩ (ih h)

end Schedules

end History

end Tracking

section Accounting

/-- The credit after a call: what was left, what it earned, less what it spent. -/
def credit (spend earn : S.Obs ℕ) (n : ℕ) (op : S.Op) (r : S.Res op) : ℕ := n+earn op r-spend op r

/-- The call spends no more than the credit in hand and what it earns itself. -/
def affordable (spend earn : S.Obs ℕ) (n : ℕ) (op : S.Op) (r : S.Res op) : Prop := spend op r≤n+earn op r

/-- Total weight of the recorded operations. -/
def weight (w : S.Obs ℕ) (log : Log S ι) : ℕ := (log.map fun e => w e.op e.res).sum

section

variable (w : S.Obs ℕ)
include w

@[simp] theorem weight_nil : weight w ([] : Log S ι)=0 := rfl

@[simp] theorem weight_cons (e : Event S ι) (log : Log S ι) : weight w (e::log)=w e.op e.res+weight w log := by
  simp only [weight,map_cons,sum_cons]

theorem weight_append (log log' : Log S ι) : weight w (log++log')=weight w log+weight w log' := by
  simp only [weight,map_append,sum_append]

theorem weight_perm {log' : Log S ι} (h : log.Perm log') : weight w log=weight w log' := (h.map _).sum_eq

end

variable {w : S.Obs ℕ}

theorem weight_eq_zero (h : ∀ e∈log,w e.op e.res=0) : weight w log=0 := by
  induction log with
  | nil => rfl
  | cons e rest ih => rw [weight_cons,h e mem_cons_self,ih fun x hx => h x (mem_cons_of_mem _ hx)]

theorem one_le_weight (he : e∈log) (hw : 1≤w e.op e.res) : 1≤weight w log := by
  by_contra hzero
  have hsum : weight w log=0 := by omega
  have hnone := sum_eq_zero_iff.mp hsum (w e.op e.res) (mem_map_of_mem he)
  omega

theorem two_le_weight {e' : Event S ι} (he : e∈log)
    (he' : e'∈log) (hne : e≠e') (hw : 1≤w e.op e.res) (hw' : 1≤w e'.op e'.res) : 2≤weight w log := by
  induction log with
  | nil => cases he
  | cons head rest ih =>
    rw [weight_cons]
    rcases mem_cons.mp he with rfl|hrest
    · have hone := one_le_weight ((mem_cons.mp he').resolve_left (Ne.symm hne)) hw'
      omega
    rcases mem_cons.mp he' with rfl|hrest'
    · have hone := one_le_weight hrest hw
      omega
    · have htwo := ih hrest hrest'
      omega

variable [DecidableEq ι]

theorem weight_noted_le (w : S.Obs ℕ) (t : ι) (log : Log S ι) : weight w (ghost noted [] t log)≤weight w log := by
  induction log with
  | nil => exact le_refl _
  | cons e rest ih =>
    obtain ⟨u,op,r⟩ := e
    rw [weight_cons]
    by_cases hu : u=t
    · subst hu
      rw [ghost_cons_self,noted]
      exact Nat.add_le_add_left ih _
    · rw [ghost_cons_of_ne noted [] hu]
      omega

theorem weight_own_cons (w : S.Obs ℕ) (t : ι) (e : Event S ι) (log : Log S ι) :
    weight w (own t (e::log))=(if e.thread=t then w e.op e.res else 0)+weight w (own t log) := by
  by_cases ht : e.thread=t
  · simp only [own,filter_cons,ht,decide_true,if_true,weight_cons]
  · simp only [own,filter_cons,ht,decide_false,Bool.false_eq_true,if_false,Nat.zero_add]

theorem sum_weight_own (w : S.Obs ℕ) (log : Log S ι)
    (calls : Finset ι) (hcalls : ∀ e∈log,e.thread∈calls) : ∑ t∈calls,weight w (own t log)=weight w log := by
  induction log with
  | nil => simp only [own,filter_nil,weight_nil,Finset.sum_const_zero]
  | cons e rest ih =>
    have hmem : e.thread∈calls := hcalls e mem_cons_self
    have hrest := ih fun x hx => hcalls x (mem_cons_of_mem _ hx)
    simp only [weight_own_cons,weight_cons,Finset.sum_add_distrib,Finset.sum_ite_eq,if_pos hmem,hrest]

theorem weight_le_of_own {v : S.Obs ℕ}
    (h : ∀ t,weight w (own t log)≤weight v (own t log)) : weight w log≤weight v log := by
  let calls := (log.map (·.thread)).toFinset
  have hcalls : ∀ e∈log,e.thread∈calls := by
    intro e he
    exact mem_toFinset.mpr (mem_map_of_mem he)
  rw [← sum_weight_own w log calls hcalls,← sum_weight_own v log calls hcalls]
  exact Finset.sum_le_sum fun t _ => h t

/-- If every call affords each of its operations, so does every run as a whole. -/
theorem reach_affordable {ok : StepCondition S ι α} {spend earn : S.Obs ℕ} {Q : α→ℕ→Prop} {cfg : Config S ι α}
    (hpool : ∀ t,(pool t).Tracked S.CanAnswer (affordable spend earn) (credit spend earn) Q 0)
    (hreach : Reach ok (initial pool s) cfg) : weight spend cfg.log≤weight earn cfg.log := by
  have hbalance : ∀ t,weight spend (own t cfg.log)+ghost (credit spend earn) 0 t cfg.log=
      weight earn (own t cfg.log) := by
    refine (reach_tracked (I := fun b => ∀ t,weight spend (own t b.log)+ghost (credit spend earn) 0 t b.log=
        weight earn (own t b.log)) (admitted_canAnswer _ _) hreach hpool (fun t => rfl) ?_).1
    intro a t op c r s' ha htracked hok hperform hpre k hthread u
    have hu := ha u
    by_cases htu : t=u
    · subst htu
      simp only [affordable] at hpre
      simp only [Config.advance,weight_own_cons,if_true,ghost_cons_self,credit]
      omega
    · simp only [Config.advance,weight_own_cons,if_neg htu,Nat.zero_add,ghost_cons_of_ne (credit spend earn) 0 htu]
      exact hu
  refine weight_le_of_own fun t => ?_
  have ht := hbalance t
  omega

end Accounting

end Certctl.AtomicInterleaving
