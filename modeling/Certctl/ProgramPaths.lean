import Certctl.AtomicInterleaving

/-!
# Paths of programs

The calls of one complete run of a program, with their answers, oldest
first. A path of a composition is a path of each part in turn, and a path
of two routines side by side is a path of each of them, shuffled with the
turns that were taken. The log of a call that ran alone and returned is a
path, so what all paths have in common holds of all logs. In the other
direction a program can be driven to its return, one choice at a time,
under a condition that may look at a value kept along the run.
-/

namespace Certctl.ProgramPaths

open AtomicProgram AtomicInterleaving
open List

variable {S : Store} {α β : Type}

/-- The calls and answers of a complete run of the program, and its result. -/
def Path : Prog S α→Log S Unit→α→Prop
  | .ret a,events,b => events=[] ∧ a=b
  | .call op k,events,b => ∃ r rest,events=⟨(),op,r⟩::rest ∧ Path (k r) rest b

variable {p : Prog S α} {f : α→Prog S β} {events : Log S Unit}

theorem path_bind {b : β} :
    Path (p.bind f) events b ↔ ∃ a before after,events=before++after ∧ Path p before a ∧ Path (f a) after b := by
  induction p generalizing events with
  | ret a =>
    constructor
    · intro h
      exact ⟨a,[],events,rfl,⟨rfl,rfl⟩,h⟩
    · intro h
      obtain ⟨a',before,after,rfl,⟨rfl,rfl⟩,hafter⟩ := h
      exact hafter
  | call op k ih =>
    constructor
    · intro h
      obtain ⟨r,rest,rfl,hrest⟩ := h
      obtain ⟨a,before,after,rfl,hbefore,hafter⟩ := ih r |>.mp hrest
      exact ⟨a,⟨(),op,r⟩::before,after,rfl,⟨r,before,rfl,hbefore⟩,hafter⟩
    · intro h
      obtain ⟨a,before,after,rfl,⟨r,rest,rfl,hrest⟩,hafter⟩ := h
      exact ⟨r,rest++after,rfl,(ih r).mpr ⟨a,rest,after,rfl,hrest,hafter⟩⟩

variable {a : α}

theorem path_perform {op : S.Op} {k : S.Res op→Prog S α} :
    Path ((Prog.perform op).bind k) events a ↔ ∃ r rest,events=⟨(),op,r⟩::rest ∧ Path (k r) rest a := Iff.rfl

/-- A program has a path when every operation has an answer. -/
theorem exists_path (hres : ∀ op,Nonempty (S.Res op)) (p : Prog S α) : ∃ events a,Path p events a := by
  induction p with
  | ret a => exact ⟨[],a,rfl,rfl⟩
  | call op k ih =>
    obtain ⟨r⟩ := hres op
    obtain ⟨events,a,hpath⟩ := ih r
    exact ⟨⟨(),op,r⟩::events,a,r,events,rfl,hpath⟩

variable {U : S.Op→Prop}

theorem path_uses (hp : p.Uses U) (h : Path p events a) : ∀ e∈events,U e.op := by
  induction p generalizing events with
  | ret =>
    obtain ⟨rfl,-⟩ := h
    intro e he
    cases he
  | call op k ih =>
    obtain ⟨r,rest,rfl,hrest⟩ := h
    exact forall_mem_cons.mpr ⟨hp.1,ih r (hp.2 r) hrest⟩

theorem path_unique {before after before' after' : Log S Unit} {a' : α}
    (hsame : before++after=before'++after') (h : Path p before a) (h' : Path p before' a') :
    before=before' ∧ after=after' ∧ a=a' := by
  induction p generalizing before before' with
  | ret =>
    obtain ⟨rfl,rfl⟩ := h
    obtain ⟨rfl,rfl⟩ := h'
    exact ⟨rfl,hsame,rfl⟩
  | call op k ih =>
    obtain ⟨r,rest,rfl,hrest⟩ := h
    obtain ⟨r',rest',rfl,hrest'⟩ := h'
    obtain ⟨hhead,htail⟩ := List.cons.inj hsame
    cases hhead
    obtain ⟨rfl,hafter,hresult⟩ := ih r htail hrest hrest'
    exact ⟨rfl,hafter,hresult⟩

theorem path_tracked {can : S.Obs Prop} {pre : Log S Unit→S.Obs Prop} {Q : α→Log S Unit→Prop} {g : Log S Unit}
    (h : p.Tracked can pre noted Q g) (hcan : ∀ e∈events,can e.op e.res) (hpath : Path p events a) :
    Q a (events.reverse++g) := by
  induction p generalizing g events with
  | ret =>
    obtain ⟨rfl,rfl⟩ := hpath
    exact h
  | call op k ih =>
    obtain ⟨r,rest,rfl,hrest⟩ := hpath
    have hfirst := hcan _ mem_cons_self
    have hnext := ih r (h r hfirst).2 (fun e he => hcan e (mem_cons_of_mem _ he)) hrest
    simpa only [noted,reverse_cons,append_assoc,singleton_append] using hnext

theorem path_forEach {items : List β} {body : β→Prog S Unit}
    (h : Path (Prog.forEach items body) events ()) {item : β} (hitem : item∈items) :
    ∃ part,Path (body item) part () ∧ ∀ e∈part,e∈events := by
  induction items generalizing events with
  | nil => cases hitem
  | cons head tail ih =>
    rw [Prog.forEach,path_bind] at h
    obtain ⟨u,before,after,rfl,hbefore,hafter⟩ := h
    rcases mem_cons.mp hitem with rfl|hlater
    · exact ⟨before,hbefore,fun e he => mem_append_left _ he⟩
    obtain ⟨part,hpart,hsub⟩ := ih hafter hlater
    exact ⟨part,hpart,fun e he => mem_append_right _ (hsub e he)⟩

variable {q : Prog S Unit}

section Fork

variable {turn : S.Op} {first : S.Res turn→Bool}

theorem path_fork {p : Prog S Unit} (h : Path (Prog.fork turn first p q) events ()) :
    ∃ left right turns,events.Perm (left++right++turns) ∧ (∀ e∈turns,e.op=turn) ∧ Path p left () ∧ Path q right () := by
  induction p generalizing q events with
  | ret => exact ⟨[],events,[],by simp only [nil_append,append_nil,List.Perm.refl],
      fun e he => (not_mem_nil he).elim,⟨rfl,rfl⟩,h⟩
  | call op k ih =>
    induction q generalizing events with
    | ret =>
      obtain ⟨r,rest,rfl,hrest⟩ := h
      obtain ⟨left,right,turns,hperm,hturns,hleft,hright⟩ := ih r hrest
      exact ⟨⟨(),op,r⟩::left,right,turns,hperm.cons _,hturns,⟨r,left,rfl,hleft⟩,hright⟩
    | call op' k' ih' =>
      obtain ⟨choice,events',rfl,hnext⟩ := h
      dsimp only at hnext
      split at hnext
      · obtain ⟨r,rest,rfl,hrest⟩ := hnext
        obtain ⟨left,right,turns,hperm,hturns,hleft,hright⟩ := ih r hrest
        refine ⟨⟨(),op,r⟩::left,right,⟨(),turn,choice⟩::turns,?_,?_,⟨r,left,rfl,hleft⟩,hright⟩
        · have hmove := (perm_middle : ((⟨(),op,r⟩::left++right)++⟨(),turn,choice⟩::turns).Perm _)
          exact (List.Perm.cons _ (List.Perm.cons _ hperm)).trans hmove.symm
        · exact forall_mem_cons.mpr ⟨rfl,hturns⟩
      obtain ⟨r,rest,rfl,hrest⟩ := hnext
      obtain ⟨left,right,turns,hperm,hturns,hleft,hright⟩ := ih' r hrest
      refine ⟨left,⟨(),op',r⟩::right,⟨(),turn,choice⟩::turns,?_,?_,hleft,⟨r,right,rfl,hright⟩⟩
      · have hmove : (⟨(),op',r⟩::(left++right++turns)).Perm (left++⟨(),op',r⟩::right++turns) := by
          simp only [append_assoc]
          exact perm_middle.symm
        refine (List.Perm.cons _ ((List.Perm.cons _ hperm).trans hmove)).trans ?_
        exact perm_middle.symm
      · exact forall_mem_cons.mpr ⟨rfl,hturns⟩

end Fork

section Runs

variable {s : S.State}

/-- What a thread has done so far, followed by a path of what it has left, is a path of its program. -/
theorem path_of_rest {ι : Type} [DecidableEq ι] {ok : StepCondition S ι α} {pool : ι→Prog S α}
    {cfg : Config S ι α} {t : ι} (hreach : Reach ok (initial pool s) cfg) {rest : Log S Unit}
    (hrest : Path (cfg.threads t) rest a) : Path (pool t) ((ghost noted [] t cfg.log).reverse++rest) a := by
  have hall : ∀ rest b,Path (cfg.threads t) rest b → Path (pool t) ((ghost noted [] t cfg.log).reverse++rest) b := by
    refine reach_invariant (I := fun mid : Config S ι α => ∀ rest b,Path (mid.threads t) rest b →
      Path (pool t) ((ghost noted [] t mid.log).reverse++rest) b) ?_ ?_ hreach
    · exact fun rest b h => h
    intro x y hx hstep rest b hrest
    obtain ⟨hthread,-,-⟩ := hstep
    rename_i u op k c r s'
    by_cases hu : u=t
    · subst hu
      have hnext : Path (k r) rest b := by simpa only [Config.advance,Function.update_self] using hrest
      have hpath := hx (⟨(),op,r⟩::rest) b (by rw [hthread]; exact ⟨r,rest,rfl,hnext⟩)
      simpa only [Config.advance,ghost_cons_self,noted,reverse_cons,append_assoc,singleton_append] using hpath
    · have hsame : Path (x.threads t) rest b := by
        simpa only [Config.advance,Function.update_of_ne (Ne.symm hu)] using hrest
      simpa only [Config.advance,ghost_cons_of_ne noted [] hu] using hx rest b hsame
  exact hall rest a hrest

theorem path_of_thread {ι : Type} [DecidableEq ι] {ok : StepCondition S ι α} {pool : ι→Prog S α}
    {cfg : Config S ι α} {t : ι} (hreach : Reach ok (initial pool s) cfg) (hret : cfg.threads t=.ret a) :
    Path (pool t) (ghost noted [] t cfg.log).reverse a := by
  have hdone : Path (cfg.threads t) [] a := by rw [hret]; exact ⟨rfl,rfl⟩
  have hend := path_of_rest hreach hdone
  rwa [append_nil] at hend

theorem noted_alone (log : Log S Unit) : ghost noted [] () log=log := by
  induction log with
  | nil => rfl
  | cons e rest ih =>
    have hcons : ghost noted [] () (e::rest)=noted (ghost noted [] () rest) e.op e.res := ghost_cons_self noted [] () e.op e.res rest
    rw [hcons,ih]
    rfl

variable {cfg : Config S Unit α}

theorem path_of_reach {ok : StepCondition S Unit α}
    (hreach : Reach ok (initial (fun _ => p) s) cfg) (hret : cfg.threads ()=.ret a) : Path p cfg.log.reverse a := by
  have hpath := path_of_thread hreach hret
  rwa [noted_alone] at hpath

variable {G : Type} {upd : G→S.Obs G} {ok : G→S.State→S.Op→S.Choice→Prop}

/-- Some run by admitted choices returns; what is admitted may depend on a value kept along the run. -/
def Can (upd : G→S.Obs G) (ok : G→S.State→S.Op→S.Choice→Prop) (Q : α→G→S.State→Prop) : Prog S α→G→S.State→Prop
  | .ret a,g,s => Q a g s
  | .call op k,g,s => ∃ c r s',ok g s op c ∧ S.perform op c s=some (r,s') ∧ Can upd ok Q (k r) (upd g op r) s'

variable {g : G}

theorem can_bind {Q : β→G→S.State→Prop}
    (h : Can upd ok (fun a g' s' => Can upd ok Q (f a) g' s') p g s) : Can upd ok Q (p.bind f) g s := by
  induction p generalizing g s with
  | ret => exact h
  | call op k ih =>
    obtain ⟨c,r,s',hok,hperform,hrest⟩ := h
    exact ⟨c,r,s',hok,hperform,ih r hrest⟩

variable {Q : α→G→S.State→Prop}

theorem Can.mono {Q' : α→G→S.State→Prop}
    (hq : ∀ a g' s',Q a g' s' → Q' a g' s') (h : Can upd ok Q p g s) : Can upd ok Q' p g s := by
  induction p generalizing g s with
  | ret a => exact hq a g s h
  | call op k ih =>
    obtain ⟨c,r,s',hok,hperform,hrest⟩ := h
    exact ⟨c,r,s',hok,hperform,ih r hrest⟩

theorem can_of_uses {I : G→S.State→Prop}
    (hop : ∀ op,U op → ∀ g s,I g s → ∃ c r s',ok g s op c ∧ S.perform op c s=some (r,s') ∧ I (upd g op r) s')
    (hp : p.Uses U) (hs : I g s) : Can upd ok (fun _ g' s' => I g' s') p g s := by
  induction p generalizing g s with
  | ret => exact hs
  | call op k ih =>
    obtain ⟨c,r,s',hok,hperform,hnext⟩ := hop op hp.1 g s hs
    exact ⟨c,r,s',hok,hperform,ih r (hp.2 r) hnext⟩

theorem can_fork {turn : S.Op} {first : S.Res turn→Bool}
    (hturn : ∀ g s,∃ c r,ok g s turn c ∧ S.perform turn c s=some (r,s) ∧ first r=true ∧ upd g turn r=g)
    {Q : Unit→G→S.State→Prop} {p : Prog S Unit}
    (h : Can upd ok (fun _ g' s' => Can upd ok Q q g' s') p g s) : Can upd ok Q (Prog.fork turn first p q) g s := by
  induction p generalizing g s with
  | ret => exact h
  | call op k ih =>
    obtain ⟨c,r,s',hok,hperform,hrest⟩ := h
    have hnext := ih r hrest
    cases q with
    | ret => exact ⟨c,r,s',hok,hperform,hnext⟩
    | call =>
      obtain ⟨c',r',hok',hperform',hfirst,hsame⟩ := hturn g s
      refine ⟨c',r',s,hok',hperform',?_⟩
      dsimp only
      rw [hsame,if_pos hfirst]
      exact ⟨c,r,s',hok,hperform,hnext⟩

theorem reach_of_can (view : Log S Unit→G) (hview : ∀ op r log,view (⟨(),op,r⟩::log)=upd (view log) op r)
    (h : Can upd ok Q (cfg.threads ()) (view cfg.log) cfg.state) :
    ∃ cfg' a,Reach (fun mid _ op c => ok (view mid.log) mid.state op c) cfg cfg' ∧ cfg'.threads ()=.ret a ∧
      Q a (view cfg'.log) cfg'.state := by
  generalize hp : cfg.threads ()=p at h
  induction p generalizing cfg with
  | ret a => exact ⟨cfg,a,Relation.ReflTransGen.refl,hp,h⟩
  | call op k ih =>
    obtain ⟨c,r,s',hok,hperform,hrest⟩ := h
    have hstep : Step (fun mid _ op c => ok (view mid.log) mid.state op c) cfg (cfg.advance () op r (k r) s') :=
      Step.run hp hok hperform
    have hnext : Can upd ok Q (k r) (view (cfg.advance () op r (k r) s').log) (cfg.advance () op r (k r) s').state := by
      simp only [Config.advance]
      rw [hview]
      exact hrest
    obtain ⟨cfg',a,hreach,hret,hq⟩ := ih r (by simp only [Config.advance,Function.update_self]) hnext
    exact ⟨cfg',a,Relation.ReflTransGen.head hstep hreach,hret,hq⟩

end Runs

end Certctl.ProgramPaths
