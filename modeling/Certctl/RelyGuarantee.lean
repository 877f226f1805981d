import Certctl.AtomicInterleaving

/-!
# Rely and guarantee over a shared store

Each call is checked on its own against one relation between worlds, a
world being the shared state with the operations run so far. The call may
rely on the others to change the world only along the relation, between any
two of its operations, and it guarantees the same of its own operations.
What a call has learned may be used later if the relation keeps it. Calls
that are checked this way run side by side under the relation, and so do
the routines a call forks.
-/

namespace Certctl.RelyGuarantee

open AtomicProgram AtomicInterleaving Relation

variable {S : Store} {ι α β : Type}

/-- The shared state and the operations run so far, newest first. -/
abbrev World (S : Store) (ι : Type) := S.State×Log S ι

def after (w : World S ι) (t : ι) (op : S.Op) (r : S.Res op) (s : S.State) : World S ι := (s,⟨t,op,r⟩::w.2)

def worldOf (cfg : Config S ι α) : World S ι := (cfg.state,cfg.log)

/-- A condition on the operations of one call, read before the operation. -/
abbrev Admits (S : Store) (ι : Type) := World S ι→S.Op→S.Choice→Prop

/-- Every admitted operation of the program, started in the world, keeps to the
relation as long as the others do, and every result meets the postcondition. -/
def Guarded (R : World S ι→World S ι→Prop) (ok : Admits S ι) (t : ι) (Q : α→World S ι→Prop) : Prog S α→World S ι→Prop
  | .ret a,w => Q a w
  | .call op k,w => ∀ w',ReflTransGen R w w' → ∀ c r s,ok w' op c →
      S.perform op c w'.1=some (r,s) → R w' (after w' t op r s) ∧ Guarded R ok t Q (k r) (after w' t op r s)

variable {R : World S ι→World S ι→Prop} {ok : Admits S ι} {t : ι}

theorem guarded_bind {Q : β→World S ι→Prop} {p : Prog S α} {f : α→Prog S β} {w : World S ι} :
    Guarded R ok t Q (p.bind f) w ↔ Guarded R ok t (fun a w' => Guarded R ok t Q (f a) w') p w := by
  induction p generalizing w with
  | ret => exact Iff.rfl
  | call op k ih => simp only [Prog.call_bind,Guarded,ih]

variable {Q : α→World S ι→Prop} {p : Prog S α} {w : World S ι}

theorem Guarded.mono {Q' : α→World S ι→Prop}
    (hq : ∀ a w',Q a w' → Q' a w') (h : Guarded R ok t Q p w) : Guarded R ok t Q' p w := by
  induction p generalizing w with
  | ret a => exact hq a w h
  | call op k ih =>
    intro w' hw c r s hok hperform
    have hnext := h w' hw c r s hok hperform
    exact ⟨hnext.1,ih r hnext.2⟩

variable {K : World S ι→Prop} {w' : World S ι}

theorem kept_of_rely (hstable : ∀ w w',R w w' → K w → K w')
    (hrely : ReflTransGen R w w') (hw : K w) : K w' := by
  induction hrely with
  | refl => exact hw
  | tail _ hlast ih => exact hstable _ _ hlast ih

theorem guarded_call {op : S.Op} {k : S.Res op→Prog S α}
    (K : World S ι→Prop) (hstable : ∀ w w',R w w' → K w → K w') (hw : K w)
    (h : ∀ w' c r s,K w' → ok w' op c → S.perform op c w'.1=some (r,s) →
      R w' (after w' t op r s) ∧ Guarded R ok t Q (k r) (after w' t op r s)) :
    Guarded R ok t Q (.call op k) w :=
  fun w' hrely c r s hok hperform => h w' c r s (kept_of_rely hstable hrely hw) hok hperform

theorem guarded_forEach {I : World S ι→Prop} (items : List β) (body : β→Prog S Unit)
    (hbody : ∀ item∈items,∀ w,I w → Guarded R ok t (fun _ w' => I w') (body item) w)
    (hw : I w) : Guarded R ok t (fun _ w' => I w') (Prog.forEach items body) w := by
  induction items generalizing w with
  | nil => exact hw
  | cons item rest ih =>
    rw [Prog.forEach,guarded_bind]
    have hfirst := hbody item List.mem_cons_self w hw
    refine hfirst.mono fun _ w' hi => ?_
    exact ih (fun x hx => hbody x (List.mem_cons_of_mem _ hx)) hi

theorem guarded_of_uses {P : S.Op→Prop} (hstable : ∀ w w',R w w' → K w → K w')
    (hquiet : ∀ op,P op → ∀ w c r s,ok w op c → S.perform op c w.1=some (r,s) → R w (after w t op r s))
    (hp : p.Uses P) (hw : K w) : Guarded R ok t (fun _ w' => K w') p w := by
  induction p generalizing w with
  | ret => exact hw
  | call op k ih =>
    refine guarded_call K hstable hw ?_
    intro w' c r s hw' hok hperform
    have hstep := hquiet op hp.1 w' c r s hok hperform
    exact ⟨hstep,ih r (hp.2 r) (hstable _ _ hstep hw')⟩

/-- The program is checked, whatever it returns. -/
abbrev Safe (R : World S ι→World S ι→Prop) (ok : Admits S ι) (t : ι) (p : Prog S α) (w : World S ι) : Prop :=
  Guarded R ok t (fun _ _ => True) p w

theorem Safe.later (h : Safe R ok t p w) (hrely : ReflTransGen R w w') : Safe R ok t p w' := by
  cases p with
  | ret => trivial
  | call => exact fun w'' hrely' => h w'' (hrely.trans hrely')

theorem safe_fork {turn : S.Op} {first : S.Res turn→Bool}
    (hturn : ∀ w c r s,ok w turn c → S.perform turn c w.1=some (r,s) → R w (after w t turn r s))
    {p q : Prog S Unit} (hp : Safe R ok t p w) (hq : Safe R ok t q w) :
    Safe R ok t (Prog.fork turn first p q) w := by
  induction p generalizing q w with
  | ret => exact hq
  | call op k ih =>
    induction q generalizing w with
    | ret =>
      intro w' hrely c r s hok hperform
      have hnext := hp w' hrely c r s hok hperform
      exact ⟨hnext.1,ih r hnext.2 trivial⟩
    | call op' k' ih' =>
      intro w₁ hrely₁ c₁ choice s₁ hok₁ hperform₁
      have hstep₁ := hturn w₁ c₁ choice s₁ hok₁ hperform₁
      have hchain := hrely₁.tail hstep₁
      refine ⟨hstep₁,?_⟩
      dsimp only
      split
      · intro w₂ hrely₂ c₂ r₂ s₂ hok₂ hperform₂
        have hnext := hp w₂ (hchain.trans hrely₂) c₂ r₂ s₂ hok₂ hperform₂
        exact ⟨hnext.1,ih r₂ hnext.2 (hq.later ((hchain.trans hrely₂).tail hnext.1))⟩
      · intro w₂ hrely₂ c₂ r₂ s₂ hok₂ hperform₂
        have hnext := hq w₂ (hchain.trans hrely₂) c₂ r₂ s₂ hok₂ hperform₂
        exact ⟨hnext.1,ih' r₂ (hp.later ((hchain.trans hrely₂).tail hnext.1)) hnext.2⟩

/-- Calls that are checked on their own run side by side along the relation. -/
theorem reach_guarded [DecidableEq ι] {ok : ι→Admits S ι} {pool : ι→Prog S α} {s : S.State}
    {cfg : Config S ι α} (hpool : ∀ t,Safe R (ok t) t (pool t) (s,[]))
    (hreach : Reach (fun cfg t op c => ok t (worldOf cfg) op c) (initial pool s) cfg) :
    ReflTransGen R (s,[]) (worldOf cfg) := by
  have hboth : ReflTransGen R (s,[]) (worldOf cfg) ∧ ∀ t,Safe R (ok t) t (cfg.threads t) (worldOf cfg) := by
    refine reach_invariant (I := fun b => ReflTransGen R (s,[]) (worldOf b) ∧
      ∀ t,Safe R (ok t) t (b.threads t) (worldOf b)) ⟨ReflTransGen.refl,hpool⟩ ?_ hreach
    intro a b hab hstep
    obtain ⟨hrun,hall⟩ := hab
    obtain ⟨hthread,hok,hperform⟩ := hstep
    rename_i t op k c r s'
    have hself := hall t
    rw [hthread] at hself
    have hnext := hself _ ReflTransGen.refl c r s' hok hperform
    refine ⟨hrun.tail hnext.1,fun u => ?_⟩
    by_cases hu : u=t
    · subst hu
      simp only [Config.advance,Function.update_self]
      exact hnext.2
    · simp only [Config.advance,Function.update_of_ne hu]
      exact (hall u).later (ReflTransGen.single hnext.1)
  exact hboth.1

end Certctl.RelyGuarantee
