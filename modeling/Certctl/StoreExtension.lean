import Certctl.AtomicInterleaving

/-!
# Extending a store by further operations

A store is extended by more state and more operations on the old and the
new state together. The old operations act on their part as before, and
every operation first moves the new state along with the environment's
choice. A program over the old store is a program over the extended one,
and what the rules say of it carries over.
-/

namespace Certctl.StoreExtension

open AtomicProgram

/-- Further state and operations for a store. -/
structure Extension (S : Store) where
  /-- Names of the further operations, with their arguments. -/
  Op : Type
  /-- Answer type of each further operation. -/
  Res : Op→Type
  Extra : Type
  /-- What every operation, old or new, first does to the further state. -/
  tick : S.Choice→Extra→Extra
  /-- Effect of a further operation; an absent answer means the call is blocked. -/
  perform : (op : Op)→S.Choice→S.State×Extra→Option (Res op×(S.State×Extra))

variable {S : Store} (E : Extension S) {α β : Type}

abbrev Extension.Answer : S.Op⊕E.Op→Type
  | .inl op => S.Res op
  | .inr op => E.Res op

/-- The effect of an old or a new operation. -/
def Extension.act : (op : S.Op⊕E.Op)→S.Choice→S.State×E.Extra→Option (E.Answer op×(S.State×E.Extra))
  | .inl op,c,s => (S.perform op c s.1).map fun out => (out.1,(out.2,E.tick c s.2))
  | .inr op,c,s => E.perform op c (s.1,E.tick c s.2)

abbrev Extension.store : Store := ⟨S.Op⊕E.Op,E.Answer,S.State×E.Extra,S.Choice,E.act⟩

def lift : Prog S α→Prog E.store α
  | .ret a => .ret a
  | .call op k => .call (S := E.store) (.inl op) fun r => lift (k r)

variable {E}

theorem act_inl {op : S.Op} {c : S.Choice} {s s' : S.State×E.Extra} {r : S.Res op}
    (h : E.store.perform (.inl op) c s=some (r,s')) : S.perform op c s.1=some (r,s'.1) ∧ s'.2=E.tick c s.2 := by
  obtain ⟨⟨r',t⟩,hp,hout⟩ := Option.map_eq_some_iff.mp h
  cases hout
  exact ⟨hp,rfl⟩

variable {p : Prog S α}

theorem uses_lift {P : E.store.Op→Prop} (h : p.Uses fun op => P (.inl op)) : (lift E p).Uses P := by
  induction p with
  | ret => trivial
  | call op k ih => exact ⟨h.1,fun r => ih r (h.2 r)⟩

section Tracked

variable {G : Type} {can : (op : E.store.Op)→E.store.Res op→Prop} {pre : G→(op : E.store.Op)→E.store.Res op→Prop}
  {upd : G→(op : E.store.Op)→E.store.Res op→G} {Q : α→G→Prop}

theorem tracked_lift {g : G} (h : p.Tracked (fun op r => can (.inl op) r) (fun g op r => pre g (.inl op) r)
      (fun g op r => upd g (.inl op) r) Q g) : (lift E p).Tracked can pre upd Q g := by
  induction p generalizing g with
  | ret => exact h
  | call op k ih => exact fun r hr => ⟨(h r hr).1,ih r (h r hr).2⟩

end Tracked

end Certctl.StoreExtension
