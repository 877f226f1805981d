import Mathlib.Logic.Relation
import Mathlib.Tactic.Common

/-!
# Programs over the atomic operations of a shared store

A store lists its atomic operations, the answer each one returns and its
effect on the state; everything outside the store's control is a choice
supplied with each call. A program is a tree of such calls, so one text
serves the sequential reading and every interleaving. Sequential rules
are collected here; runs of several programs are a separate module.
-/

namespace Certctl.AtomicProgram

open List

/-- One shared store: operations, their answers and their atomic effect. -/
structure Store where
  /-- Names of the atomic operations, with their arguments. -/
  Op : Type
  Res : Op→Type
  /-- Shared state on which every operation acts. -/
  State : Type
  /-- What the environment decides at a call: failures, clock, fresh names. -/
  Choice : Type
  /-- Effect of one call; an absent answer means the call is blocked. -/
  perform : (op : Op)→Choice→State→Option (Res op×State)

def Store.CanAnswer (S : Store) (op : S.Op) (r : S.Res op) : Prop := ∃ c s s',S.perform op c s=some (r,s')

/-- What is read off an operation and its answer. -/
abbrev Store.Obs (S : Store) (κ : Type) := (op : S.Op)→S.Res op→κ

/-- A program returns a value or calls one operation and goes on with its answer. -/
inductive Prog (S : Store) (α : Type) : Type where
  | ret : α→Prog S α
  /-- The next atomic call and the rest of the program for each answer. -/
  | call : (op : S.Op)→(S.Res op→Prog S α)→Prog S α

/-- A call that may fail is followed on its answer; after an error, mostly, nothing is left to do. -/
theorem onAnswer {ε β : Type} {Q : Except ε β→Prop} (hok : ∀ b,Q (.ok b))
    (herror : ∀ err,Q (.error err) := by exact fun _ => trivial) (r : Except ε β) : Q r := by
  cases r with
  | error err => exact herror err
  | ok b => exact hok b

namespace Prog

variable {S : Store} {α β γ : Type}

/-- Sequential composition grafts the second program on every leaf. -/
def bind : Prog S α→(α→Prog S β)→Prog S β
  | ret a,f => f a
  | call op k,f => call op fun r => (k r).bind f

instance : Monad (Prog S) where
  pure := ret
  bind := bind

/-- One atomic operation as a program of its own. -/
def perform (op : S.Op) : Prog S (S.Res op) := call op ret

def done : Prog S α→Bool
  | ret _ => true
  | call _ _ => false

def result? : Prog S α→Option α
  | ret a => some a
  | call _ _ => none

def forEach (items : List β) (body : β→Prog S Unit) : Prog S Unit :=
  match items with
  | [] => ret ()
  | item::rest => (body item).bind fun _ => forEach rest body

def foldEach (items : List β) (init : γ) (body : γ→β→Prog S γ) : Prog S γ :=
  match items with
  | [] => ret init
  | item::rest => (body init item).bind fun acc => foldEach rest acc body

@[simp] theorem pure_eq_ret (a : α) : (pure a : Prog S α)=ret a := rfl

@[simp] theorem bind_eq_bind (p : Prog S α) (f : α→Prog S β) : (p>>=f)=p.bind f := rfl

@[simp] theorem ret_bind (a : α) (f : α→Prog S β) : (ret a).bind f=f a := rfl

@[simp] theorem call_bind (op : S.Op) (k : S.Res op→Prog S α) (f : α→Prog S β) :
    (call op k).bind f=call op fun r => (k r).bind f := rfl

theorem bind_ret (p : Prog S α) : p.bind ret=p := by
  induction p with
  | ret => rfl
  | call op k ih => exact congrArg (call op) (funext ih)

variable {p : Prog S α} {a : α}

theorem eq_ret_of_result? (h : p.result?=some a) : p=ret a := by
  cases p with
  | ret =>
    cases h
    rfl
  | call => cases h

section Fork

variable (turn : S.Op) (first : S.Res turn→Bool)

/-- Run a routine that is about to call an operation beside another one. -/
def weave (op : S.Op) (resume : S.Res op→Prog S Unit→Prog S Unit) : Prog S Unit→Prog S Unit
  | ret _ => call op fun r => resume r (ret ())
  | call op' k => call turn fun choice =>
      if first choice then call op fun r => resume r (call op' k)
      else call op' fun r => weave op resume (k r)

/-- Two routines side by side: before each operation a turn decides which one
goes on, and the whole returns once both have. -/
def fork : Prog S Unit→Prog S Unit→Prog S Unit
  | ret _ => fun other => other
  | call op k => weave turn first op fun r => fork (k r)

end Fork

/-- A condition on the operations of a program run on its own, read before the operation. -/
abbrev Allowed (S : Store) := S.Op→S.Choice→S.State→Prop

/-- Every outcome of a program run on its own, by allowed operations, satisfies the postcondition. -/
def Always (ok : Allowed S) (Q : α→S.State→Prop) : Prog S α→S.State→Prop
  | ret a,s => Q a s
  | call op k,s => ∀ c r s',ok op c s → S.perform op c s=some (r,s') → (k r).Always ok Q s'

/-- Some sequence of allowed choices drives the program from one state to another. -/
def Exec (ok : Allowed S) : Prog S α→S.State→α→S.State→Prop
  | ret a,s,a',s' => a=a' ∧ s=s'
  | call op k,s,a',s' => ∃ c r s₁,ok op c s ∧ S.perform op c s=some (r,s₁) ∧ (k r).Exec ok s₁ a' s'

def run : Prog S α→List S.Choice→S.State→Option (α×S.State)
  | ret a,_,s => some (a,s)
  | call _ _,[],_ => none
  | call op k,c::cs,s =>
    match S.perform op c s with
    | none => none
    | some (r,s') => (k r).run cs s'

variable {ok : Allowed S} {cs : List S.Choice} {s s' : S.State}

theorem exec_of_run (hok : ∀ c∈cs,∀ op s,ok op c s) (h : p.run cs s=some (a,s')) : p.Exec ok s a s' := by
  induction p generalizing cs s with
  | ret =>
    simp only [run,Option.some.injEq,Prod.mk.injEq] at h
    exact h
  | call op k ih =>
    cases cs with
    | nil => simp only [run,reduceCtorEq] at h
    | cons c =>
      cases hp : S.perform op c s with
      | none => simp only [run,hp,reduceCtorEq] at h
      | some out =>
        obtain ⟨r,s₁⟩ := out
        simp only [run,hp] at h
        have hrest := fun c' hc' => hok c' (mem_cons_of_mem c hc')
        exact ⟨c,r,s₁,hok c mem_cons_self op s,hp,ih r hrest h⟩

def runAllowed (ok : Allowed S) [∀ op c s,Decidable (ok op c s)] : Prog S α→List S.Choice→S.State→Option (α×S.State)
  | ret a,_,s => some (a,s)
  | call _ _,[],_ => none
  | call op k,c::cs,s =>
    if ok op c s then
      match S.perform op c s with
      | none => none
      | some (r,s') => (k r).runAllowed ok cs s'
    else none

theorem exec_of_runAllowed [∀ op c s,Decidable (ok op c s)]
    (h : p.runAllowed ok cs s=some (a,s')) : p.Exec ok s a s' := by
  induction p generalizing cs s with
  | ret =>
    simp only [runAllowed,Option.some.injEq,Prod.mk.injEq] at h
    exact h
  | call op k ih =>
    cases cs with
    | nil => simp only [runAllowed,reduceCtorEq] at h
    | cons c =>
      by_cases hok : ok op c s
      · cases hp : S.perform op c s with
        | none => simp only [runAllowed,if_pos hok,hp,reduceCtorEq] at h
        | some out =>
          obtain ⟨r,s₁⟩ := out
          simp only [runAllowed,if_pos hok,hp] at h
          exact ⟨c,r,s₁,hok,hp,ih r h⟩
      · simp only [runAllowed,if_neg hok,reduceCtorEq] at h

theorem always_iff_exec (Q : α→S.State→Prop) (p : Prog S α) (s : S.State) :
    p.Always ok Q s ↔ ∀ a s',p.Exec ok s a s' → Q a s' := by
  induction p generalizing s with
  | ret a =>
    constructor
    · intro h a' s' he
      obtain ⟨rfl,rfl⟩ := he
      exact h
    · intro h
      exact h a s ⟨rfl,rfl⟩
  | call op k ih =>
    constructor
    · intro h a s' he
      obtain ⟨c,r,s₁,hok,hp,hrest⟩ := he
      exact (ih r s₁).mp (h c r s₁ hok hp) a s' hrest
    · intro h c r s₁ hok hp
      exact (ih r s₁).mpr fun a s' he => h a s' ⟨c,r,s₁,hok,hp,he⟩

theorem always_bind {Q : β→S.State→Prop} {f : α→Prog S β} :
    (p.bind f).Always ok Q s ↔ p.Always ok (fun a s' => (f a).Always ok Q s') s := by
  induction p generalizing s with
  | ret => exact Iff.rfl
  | call op k ih =>
    constructor
    · intro h c r s' hok hp
      exact (ih r).mp (h c r s' hok hp)
    · intro h c r s' hok hp
      exact (ih r).mpr (h c r s' hok hp)

variable {Q Q' : α→S.State→Prop}

theorem Always.mono (hq : ∀ a s',Q a s' → Q' a s') (h : p.Always ok Q s) : p.Always ok Q' s := by
  rw [always_iff_exec] at h ⊢
  exact fun a s' he => hq a s' (h a s' he)

theorem always_seq {R : β→S.State→Prop} {f : α→Prog S β} (hp : p.Always ok Q s)
    (hf : ∀ a s',Q a s' → (f a).Always ok R s') : (p.bind f).Always ok R s :=
  always_bind.mpr (hp.mono hf)

variable {body : γ→β→Prog S γ} {items : List β} {init : γ}

theorem always_foldEach {I : List β→γ→S.State→Prop}
    (hbody : ∀ item rest acc s,I (item::rest) acc s → (body acc item).Always ok (fun acc' s' => I rest acc' s') s)
    (hs : I items init s) : (foldEach items init body).Always ok (fun acc s' => I [] acc s') s := by
  induction items generalizing init s with
  | nil => exact hs
  | cons item rest ih =>
    rw [foldEach,always_bind]
    exact (hbody item rest init s hs).mono fun _ s' hi => ih hi

variable {f : α→Prog S β} {U : S.Op→Prop}

section Uses

/-- Every operation the program may come to call, for all answers, is of the given kind. -/
def Uses (P : S.Op→Prop) : Prog S α→Prop
  | ret _ => True
  | call op k => P op ∧ ∀ r,(k r).Uses P

theorem uses_bind {P : S.Op→Prop} (hp : p.Uses P) (hf : ∀ a,(f a).Uses P) : (p.bind f).Uses P := by
  induction p with
  | ret a => exact hf a
  | call op k ih => exact ⟨hp.1,fun r => ih r (hp.2 r)⟩

theorem uses_forEach {P : S.Op→Prop} (items : List β) {body : β→Prog S Unit}
    (hbody : ∀ item∈items,(body item).Uses P) : (forEach items body).Uses P := by
  induction items with
  | nil => trivial
  | cons item rest ih =>
    have hrest : ∀ x∈rest,(body x).Uses P := fun x hx => hbody x (mem_cons_of_mem _ hx)
    exact uses_bind (hbody item mem_cons_self) fun _ => ih hrest

theorem Uses.mono {P P' : S.Op→Prop} (himp : ∀ op,P op → P' op) (h : p.Uses P) : p.Uses P' := by
  induction p with
  | ret => trivial
  | call op k ih => exact ⟨himp op h.1,fun r => ih r (h.2 r)⟩

theorem uses_any (p : Prog S α) : p.Uses fun _ => True := by
  induction p with
  | ret => trivial
  | call op k ih => exact ⟨trivial,ih⟩

theorem uses_fork {turn : S.Op} {first : S.Res turn→Bool} (hturn : U turn) {p q : Prog S Unit} (hp : p.Uses U) (hq : q.Uses U) :
    (fork turn first p q).Uses U := by
  induction p generalizing q with
  | ret => exact hq
  | call op k ih =>
    induction q with
    | ret => exact ⟨hp.1,fun r => ih r (hp.2 r) trivial⟩
    | call op' k' ih' =>
      refine ⟨hturn,fun choice => ?_⟩
      dsimp only
      split
      · exact ⟨hp.1,fun r => ih r (hp.2 r) hq⟩
      · exact ⟨hq.1,fun r => ih' r (hq.2 r)⟩

end Uses

variable {I : S.State→Prop}

section Calls

variable {P : S.Obs Prop}

/-- Some allowed run of the program makes a call that is answered in the given way. -/
def Calls (ok : Allowed S) (P : S.Obs Prop) : Prog S α→S.State→Prop
  | ret _,_ => False
  | call op k,s => ∃ c r s',ok op c s ∧ S.perform op c s=some (r,s') ∧ (P op r ∨ (k r).Calls ok P s')

theorem exec_bind {b : β} : (p.bind f).Exec ok s b s' ↔ ∃ a s₁,p.Exec ok s a s₁ ∧ (f a).Exec ok s₁ b s' := by
  induction p generalizing s with
  | ret a =>
    constructor
    · intro h
      exact ⟨a,s,⟨rfl,rfl⟩,h⟩
    · rintro ⟨a',s₁,⟨rfl,rfl⟩,h⟩
      exact h
  | call op k ih =>
    simp only [call_bind,Exec,ih]
    constructor
    · rintro ⟨c,r,s₁,hok,hp,a,s₂,hfirst,hrest⟩
      exact ⟨a,s₂,⟨c,r,s₁,hok,hp,hfirst⟩,hrest⟩
    · rintro ⟨a,s₂,⟨c,r,s₁,hok,hp,hfirst⟩,hrest⟩
      exact ⟨c,r,s₁,hok,hp,a,s₂,hfirst,hrest⟩

/-- A composition makes a call in its first part, or in its second after some run of the first. -/
theorem calls_bind : (p.bind f).Calls ok P s ↔ p.Calls ok P s ∨ ∃ a s',p.Exec ok s a s' ∧ (f a).Calls ok P s' := by
  induction p generalizing s with
  | ret a =>
    constructor
    · intro h
      exact .inr ⟨a,s,⟨rfl,rfl⟩,h⟩
    · rintro (h|⟨a',s',⟨rfl,rfl⟩,h⟩)
      · exact h.elim
      · exact h
  | call op k ih =>
    simp only [call_bind,Calls,ih]
    constructor
    · rintro ⟨c,r,s',hok,hp,hnow|hfirst|⟨a,s₂,hrun,hlater⟩⟩
      · exact .inl ⟨c,r,s',hok,hp,.inl hnow⟩
      · exact .inl ⟨c,r,s',hok,hp,.inr hfirst⟩
      · exact .inr ⟨a,s₂,⟨c,r,s',hok,hp,hrun⟩,hlater⟩
    · rintro (⟨c,r,s',hok,hp,hnow|hfirst⟩|⟨a,s₂,⟨c,r,s',hok,hp,hrun⟩,hlater⟩)
      · exact ⟨c,r,s',hok,hp,.inl hnow⟩
      · exact ⟨c,r,s',hok,hp,.inr (.inl hfirst)⟩
      · exact ⟨c,r,s',hok,hp,.inr (.inr ⟨a,s₂,hrun,hlater⟩)⟩

theorem not_calls_of_uses (hU : ∀ op r,U op → ¬P op r) (hp : p.Uses U) : ¬p.Calls ok P s := by
  induction p generalizing s with
  | ret => exact fun h => h
  | call op k ih =>
    rintro ⟨c,r,s',-,-,hnow|hlater⟩
    · exact hU op r hp.1 hnow
    · exact ih r (hp.2 r) hlater

theorem exec_keeps (hI : ∀ op,U op → ∀ c r s s',S.perform op c s=some (r,s') → I s → I s') (hp : p.Uses U)
    (he : p.Exec ok s a s') (hs : I s) : I s' := by
  induction p generalizing s with
  | ret =>
    obtain ⟨-,rfl⟩ := he
    exact hs
  | call op k ih =>
    obtain ⟨c,r,s₁,-,hperform,hrest⟩ := he
    exact ih r (hp.2 r) hrest (hI op hp.1 c r s s₁ hperform hs)

theorem exists_exec_of_uses (hU : ∀ op,U op → ∀ s,∃ c r s',ok op c s ∧ S.perform op c s=some (r,s')) (hp : p.Uses U)
    (s : S.State) : ∃ a s',p.Exec ok s a s' := by
  induction p generalizing s with
  | ret a => exact ⟨a,s,rfl,rfl⟩
  | call op k ih =>
    obtain ⟨c,r,s₁,hok,hperform⟩ := hU op hp.1 s
    obtain ⟨a,s',hrest⟩ := ih r (hp.2 r) s₁
    exact ⟨a,s',c,r,s₁,hok,hperform,hrest⟩

/-- A loop makes a call in the body of some element, after a run over the elements before it. -/
theorem calls_foldEach : (foldEach items init body).Calls ok P s ↔ ∃ before item rest,items=before++item::rest ∧
      ∃ acc s',(foldEach before init body).Exec ok s acc s' ∧ (body acc item).Calls ok P s' := by
  induction items generalizing init s with
  | nil =>
    constructor
    · exact fun h => h.elim
    · rintro ⟨before,item,rest,hitems,-⟩
      exact absurd hitems.symm (append_ne_nil_of_right_ne_nil _ (cons_ne_nil _ _))
  | cons head tail ih =>
    rw [foldEach,calls_bind]
    constructor
    · rintro (hnow|⟨acc,s',hrun,hlater⟩)
      · exact ⟨[],head,tail,rfl,init,s,⟨rfl,rfl⟩,hnow⟩
      obtain ⟨before,item,rest,rfl,acc',s₂,hbefore,hcall⟩ := ih.mp hlater
      exact ⟨head::before,item,rest,rfl,acc',s₂,exec_bind.mpr ⟨acc,s',hrun,hbefore⟩,hcall⟩
    · rintro ⟨before,item,rest,hitems,acc',s₂,hbefore,hcall⟩
      cases before with
      | nil =>
        obtain ⟨rfl,rfl⟩ := hbefore
        cases hitems
        exact .inl hcall
      | cons first others =>
        cases hitems
        obtain ⟨acc,s',hrun,hrest⟩ := exec_bind.mp hbefore
        exact .inr ⟨acc,s',hrun,ih.mpr ⟨others,item,rest,rfl,acc',s₂,hrest,hcall⟩⟩

theorem forEach_eq_foldEach (items : List β) (body : β→Prog S Unit) :
    forEach items body=foldEach items () fun _ item => body item := by
  induction items with
  | nil => rfl
  | cons item rest ih => rw [forEach,foldEach,ih]

theorem uses_foldEach
    (hbody : ∀ item∈items,∀ acc,(body acc item).Uses U) (init : γ) : (foldEach items init body).Uses U := by
  induction items generalizing init with
  | nil => trivial
  | cons item rest ih =>
    have hrest : ∀ x∈rest,∀ acc,(body acc x).Uses U := fun x hx => hbody x (mem_cons_of_mem _ hx)
    exact uses_bind (hbody item mem_cons_self init) fun acc => ih hrest acc

end Calls

section Total

/-- Total reading of `Always`: in addition no call is ever left without an allowed answer. -/
def Total (ok : Allowed S) (Q : α→S.State→Prop) : Prog S α→S.State→Prop
  | ret a,s => Q a s
  | call op k,s =>
    (∃ c r s',ok op c s ∧ S.perform op c s=some (r,s')) ∧
      ∀ c r s',ok op c s → S.perform op c s=some (r,s') → (k r).Total ok Q s'

theorem total_bind {Q : β→S.State→Prop} : (p.bind f).Total ok Q s ↔ p.Total ok (fun a s' => (f a).Total ok Q s') s := by
  induction p generalizing s with
  | ret => exact Iff.rfl
  | call op k ih => simp only [call_bind,Total,ih]

theorem Total.mono (hq : ∀ a s',Q a s' → Q' a s') (h : p.Total ok Q s) : p.Total ok Q' s := by
  induction p generalizing s with
  | ret a => exact hq a s h
  | call op k ih => exact ⟨h.1,fun c r s' hc hp => ih r (h.2 c r s' hc hp)⟩

theorem total_seq {R : β→S.State→Prop} (hp : p.Total ok Q s) (hf : ∀ a s',Q a s' → (f a).Total ok R s') :
    (p.bind f).Total ok R s :=
  total_bind.mpr (hp.mono hf)

theorem Total.exists_exec (h : p.Total ok Q s) : ∃ a s',p.Exec ok s a s' ∧ Q a s' := by
  induction p generalizing s with
  | ret a => exact ⟨a,s,⟨rfl,rfl⟩,h⟩
  | call op k ih =>
    obtain ⟨c,r,s₁,hok,hp⟩ := h.1
    obtain ⟨a,s',hrest,hq⟩ := ih r (h.2 c r s₁ hok hp)
    exact ⟨a,s',⟨c,r,s₁,hok,hp,hrest⟩,hq⟩

theorem Total.of_exec (h : p.Total ok Q s) (he : p.Exec ok s a s') : Q a s' := by
  induction p generalizing s with
  | ret =>
    obtain ⟨rfl,rfl⟩ := he
    exact h
  | call op k ih =>
    obtain ⟨c,r,s₁,hok,hp,hrest⟩ := he
    exact ih r (h.2 c r s₁ hok hp) hrest

theorem calls_bind_of_total {P : S.Obs Prop} {R : Prop} (hp : ¬p.Calls ok P s) (htotal : p.Total ok Q s)
    (h : ∀ a s',Q a s' → ((f a).Calls ok P s' ↔ R)) : (p.bind f).Calls ok P s ↔ R := by
  rw [calls_bind]
  constructor
  · rintro (hcall|⟨a,s',hexec,hcall⟩)
    · exact absurd hcall hp
    · exact (h a s' (htotal.of_exec hexec)).mp hcall
  · intro hr
    obtain ⟨a,s',hexec,hq⟩ := htotal.exists_exec
    exact .inr ⟨a,s',hexec,(h a s' hq).mpr hr⟩

theorem total_of_always (hU : ∀ op,U op → ∀ s,∃ c r s',ok op c s ∧ S.perform op c s=some (r,s')) (hp : p.Uses U)
    (h : p.Always ok Q s) : p.Total ok Q s := by
  induction p generalizing s with
  | ret => exact h
  | call op k ih => exact ⟨hU op hp.1 s,fun c r s' hc hperform => ih r (hp.2 r) (h c r s' hc hperform)⟩

variable {ok' : Allowed S}

theorem Exec.mono (hok : ∀ op c s,ok op c s → ok' op c s) (he : p.Exec ok s a s') : p.Exec ok' s a s' := by
  induction p generalizing s with
  | ret => exact he
  | call op k ih =>
    obtain ⟨c,r,s₁,hc,hp,hrest⟩ := he
    exact ⟨c,r,s₁,hok op c s hc,hp,ih r hrest⟩

theorem Always.allow (hok : ∀ op c s,ok' op c s → ok op c s) (h : p.Always ok Q s) : p.Always ok' Q s := by
  rw [always_iff_exec] at h ⊢
  exact fun a s' he => h a s' (he.mono hok)

theorem total_forEach (items : List β) (body : β→Prog S Unit)
    (hbody : ∀ item∈items,∀ s,I s → (body item).Total ok (fun _ s' => I s') s)
    (hs : I s) : (forEach items body).Total ok (fun _ s' => I s') s := by
  induction items generalizing s with
  | nil => exact hs
  | cons item rest ih =>
    rw [forEach,total_bind]
    have hfirst := hbody item mem_cons_self s hs
    refine hfirst.mono fun _ s' hi => ?_
    exact ih (fun x hx => hbody x (mem_cons_of_mem _ hx)) hi

end Total

section Tracked

variable {G : Type}

/-- What a program does on its own, for all admitted answers: a ghost value is
updated at every call, each call meets its condition, each result its own. -/
def Tracked (can : S.Obs Prop) (pre : G→S.Obs Prop) (upd : G→S.Obs G) (Q : α→G→Prop) : Prog S α→G→Prop
  | ret a,g => Q a g
  | call op k,g => ∀ r,can op r→pre g op r ∧ (k r).Tracked can pre upd Q (upd g op r)

variable {can : S.Obs Prop} {pre : G→S.Obs Prop} {upd : G→S.Obs G}

theorem tracked_bind {Q : β→G→Prop} {g : G} : (p.bind f).Tracked can pre upd Q g ↔
      p.Tracked can pre upd (fun a g' => (f a).Tracked can pre upd Q g') g := by
  induction p generalizing g with
  | ret => exact Iff.rfl
  | call op k ih => simp only [call_bind,Tracked,ih]

variable {g : G}

theorem Tracked.mono {Q Q' : α→G→Prop} (hq : ∀ a g',Q a g'→Q' a g')
    (h : p.Tracked can pre upd Q g) : p.Tracked can pre upd Q' g := by
  induction p generalizing g with
  | ret a => exact hq a g h
  | call op k ih => exact fun r hr => ⟨(h r hr).1,ih r (h r hr).2⟩

theorem tracked_seq {Q : α→G→Prop} {R : β→G→Prop} (hp : p.Tracked can pre upd Q g)
    (hf : ∀ a g',Q a g'→(f a).Tracked can pre upd R g') : (p.bind f).Tracked can pre upd R g :=
  tracked_bind.mpr (hp.mono hf)

theorem Tracked.weaken {pre' : G→S.Obs Prop} {Q : α→G→Prop}
    (hpre : ∀ g op r,pre g op r→pre' g op r) (h : p.Tracked can pre upd Q g) : p.Tracked can pre' upd Q g := by
  induction p generalizing g with
  | ret => exact h
  | call op k ih => exact fun r hr => ⟨hpre _ _ _ (h r hr).1,ih r (h r hr).2⟩

theorem tracked_foldEach {I : γ→G→Prop} (items : List β) (body : γ→β→Prog S γ)
    (hbody : ∀ item∈items,∀ acc g,I acc g → (body acc item).Tracked can pre upd I g)
    (hg : I init g) : (foldEach items init body).Tracked can pre upd I g := by
  induction items generalizing init g with
  | nil => exact hg
  | cons item rest ih =>
    rw [foldEach,tracked_bind]
    refine (hbody item mem_cons_self init g hg).mono fun acc g' hacc => ?_
    exact ih (fun x hx => hbody x (mem_cons_of_mem _ hx)) hacc

theorem tracked_forEach {I : G→Prop} (items : List β) (body : β→Prog S Unit)
    (hbody : ∀ item∈items,∀ g,I g→(body item).Tracked can pre upd (fun _ g' => I g') g)
    (hg : I g) : (forEach items body).Tracked can pre upd (fun _ g' => I g') g := by
  rw [forEach_eq_foldEach]
  exact tracked_foldEach (I := fun _ => I) items _ (fun item hitem _ => hbody item hitem) hg

theorem uses_of_tracked {P : S.Op→Prop} (hP : ∀ op,P op ∨ Nonempty (S.Res op)) {Q : α→Unit→Prop}
    (h : p.Tracked (fun _ _ => True) (fun _ op _ => P op) (fun _ _ _ => ()) Q ()) : p.Uses P := by
  induction p with
  | ret => trivial
  | call op k ih => exact ⟨(hP op).elim id fun ⟨r⟩ => (h r trivial).1,fun r => ih r (h r trivial).2⟩

theorem tracked_of_uses {I : G→Prop} (hop : ∀ g op r,I g→U op→pre g op r ∧ I (upd g op r)) (hp : p.Uses U) (hg : I g) :
    p.Tracked can pre upd (fun _ g' => I g') g := by
  induction p generalizing g with
  | ret => exact hg
  | call op k ih =>
    intro r _
    obtain ⟨hpre,hnext⟩ := hop g op r hg hp.1
    exact ⟨hpre,ih r (hp.2 r) hnext⟩

end Tracked

end Prog

end Certctl.AtomicProgram
