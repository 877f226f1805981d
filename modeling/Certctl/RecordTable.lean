import Mathlib.Data.List.Nodup

/-!
# Tables as lists of keyed records

A table is the list of its rows. Lookup takes the first row with a key,
modification rewrites every row with a key, insertion appends. The lemmas
say what a lookup sees after each change, for arbitrary rows and keys.
-/

namespace Certctl.RecordTable

open List hiding lookup modify

variable {ρ κ : Type} [DecidableEq κ]

def lookup (key : ρ→κ) (k : κ) (rows : List ρ) : Option ρ := rows.find? (key ·=k)

/-- Rewrite every row with the given key. -/
def modify (key : ρ→κ) (k : κ) (f : ρ→ρ) (rows : List ρ) : List ρ :=
  rows.map fun row => if key row=k then f row else row

def remove (key : ρ→κ) (k : κ) (rows : List ρ) : List ρ := rows.filter (key ·≠k)

def upsert (key : ρ→κ) (row : ρ) (rows : List ρ) : List ρ := remove key (key row) rows++[row]

variable {key : ρ→κ} {k : κ} {rows : List ρ} {row : ρ}

omit [DecidableEq κ] in
theorem mem_append_row {new : ρ} : row∈rows++[new] ↔ row∈rows ∨ row=new := by
  rw [mem_append,mem_singleton]

theorem lookup_some (h : lookup key k rows=some row) : row∈rows ∧ key row=k := by
  have hkey := find?_some h
  exact ⟨mem_of_find?_eq_some h,of_decide_eq_true hkey⟩

theorem lookup_isSome (h : ∃ row∈rows,key row=k) : ∃ row,lookup key k rows=some row := by
  obtain ⟨row,hmem,hkey⟩ := h
  exact Option.isSome_iff_exists.mp (find?_isSome.mpr ⟨row,hmem,decide_eq_true hkey⟩)

theorem lookup_eq_none : lookup key k rows=none ↔ ∀ row∈rows,key row≠k := by
  simp only [lookup,find?_eq_none,decide_eq_true_eq]

omit [DecidableEq κ] in
/-- A row under a free key keeps the keys apart. -/
theorem keys_append (hkeys : (rows.map key).Nodup) (hfree : ∀ old∈rows,key old≠key row) :
    ((rows++[row]).map key).Nodup := by
  rw [map_append,nodup_append]
  refine ⟨hkeys,nodup_singleton _,fun a ha b hb => ?_⟩
  obtain ⟨old,hold,rfl⟩ := mem_map.mp ha
  rw [mem_singleton.mp hb]
  exact hfree old hold

theorem lookup_of_mem (hkeys : (rows.map key).Nodup) (hrow : row∈rows) : lookup key (key row) rows=some row := by
  obtain ⟨found,hfound⟩ : ∃ found,lookup key (key row) rows=some found := lookup_isSome ⟨row,hrow,rfl⟩
  obtain ⟨hmem,hkey⟩ := lookup_some hfound
  rw [hfound,inj_on_of_nodup_map hkeys hmem hrow hkey]

variable {f : ρ→ρ}

theorem lookup_modify_self (hf : ∀ row,key (f row)=key row)
    (rows : List ρ) : lookup key k (modify key k f rows)=(lookup key k rows).map f := by
  induction rows with
  | nil => rfl
  | cons row rest ih =>
    simp only [lookup,modify,map_cons,find?_cons] at ih ⊢
    by_cases hk : key row=k
    · simp only [hk,if_true,hf,decide_true,Option.map_some]
    · simp only [hk,if_false,decide_false,ih]

variable {k' : κ}

theorem lookup_modify_of_ne (hf : ∀ row,key (f row)=key row)
    (hk : k'≠k) (rows : List ρ) : lookup key k' (modify key k f rows)=lookup key k' rows := by
  induction rows with
  | nil => rfl
  | cons row rest ih =>
    simp only [lookup,modify,map_cons,find?_cons] at ih ⊢
    by_cases hrow : key row=k
    · have hne : ¬key row=k' := fun h => hk (h.symm.trans hrow)
      simp only [if_pos hrow,hf,hne,decide_false,ih]
    · simp only [if_neg hrow,ih]

theorem lookup_append (key : ρ→κ) (k : κ) (rows : List ρ) (row : ρ) : lookup key k (rows++[row])=
      (lookup key k rows).or (if key row=k then some row else none) := by
  rw [lookup,find?_append,lookup]
  by_cases hk : key row=k
  · simp only [find?_cons,hk,decide_true,if_true]
  · simp only [find?_cons,hk,decide_false,find?_nil,if_false]

variable {β : Type} {col : ρ→β}

theorem column_append (hfree : ∀ old∈rows,key old≠key row) : (lookup key k (rows++[row])).map col=
      (if key row=k then some (col row) else none).or ((lookup key k rows).map col) := by
  rw [lookup_append]
  by_cases hk : key row=k
  · have hnone : lookup key k rows=none := lookup_eq_none.mpr fun old hold => hk ▸ hfree old hold
    simp only [hnone,if_pos hk,Option.none_or,Option.map_some,Option.some_or]
  · simp only [if_neg hk,Option.or_none,Option.none_or]

theorem column_modify {v : β}
    (hf : ∀ row,key (f row)=key row) (hcol : ∀ row,col (f row)=v) (hfound : (lookup key k' rows).isSome=true) :
    (lookup key k (modify key k' f rows)).map col=
      (if k'=k then some v else none).or ((lookup key k rows).map col) := by
  by_cases hk : k'=k
  · subst hk
    obtain ⟨row,hrow⟩ := Option.isSome_iff_exists.mp hfound
    simp only [lookup_modify_self hf,hrow,Option.map_some,hcol,if_true,Option.some_or]
  · simp only [lookup_modify_of_ne hf (Ne.symm hk),if_neg hk,Option.none_or]

theorem column_modify_same (hf : ∀ row,key (f row)=key row) (hcol : ∀ row,col (f row)=col row) :
    (lookup key k (modify key k' f rows)).map col=(lookup key k rows).map col := by
  by_cases hk : k=k'
  · subst hk
    rw [lookup_modify_self hf,Option.map_map]
    exact congrArg (fun g => Option.map g (lookup key k rows)) (funext hcol)
  · rw [lookup_modify_of_ne hf hk]

theorem column_map (hf : ∀ row,key (f row)=key row) : (lookup key k (rows.map f)).map col=
      (lookup key k rows).map fun row => col (f row) := by
  induction rows with
  | nil => rfl
  | cons row rest ih =>
    simp only [lookup,map_cons,find?_cons,hf] at ih ⊢
    by_cases hk : key row=k
    · simp only [hk,decide_true,Option.map_some]
    · simp only [hk,decide_false,ih]

theorem lookup_map (hf : ∀ row,key (f row)=key row) (k : κ) (rows : List ρ) :
    lookup key k (rows.map f)=(lookup key k rows).map f := by
  have h : (lookup key k (rows.map f)).map (fun row => row)=(lookup key k rows).map fun row => f row := column_map hf
  rw [Option.map_id'] at h
  exact h

/-- Where keys are unique, dropping rows drops what is found under their keys. -/
theorem lookup_filter (hkeys : (rows.map key).Nodup) (p : ρ→Bool) (k : κ) :
    lookup key k (rows.filter p)=(lookup key k rows).filter p := by
  cases hfound : lookup key k rows with
  | none =>
    rw [Option.filter_none]
    rw [lookup_eq_none] at hfound ⊢
    exact fun row hrow => hfound row (mem_filter.mp hrow).1
  | some row =>
    obtain ⟨hmem,hkey⟩ := lookup_some hfound
    rw [Option.filter_some]
    split
    · rename_i hp
      have hkept : row∈rows.filter p := mem_filter.mpr ⟨hmem,hp⟩
      rw [← hkey]
      exact lookup_of_mem (hkeys.sublist (filter_sublist.map key)) hkept
    rename_i hp
    rw [lookup_eq_none]
    intro other hother hk
    obtain ⟨hother,hpo⟩ := mem_filter.mp hother
    have heq := inj_on_of_nodup_map hkeys hother hmem (hk.trans hkey.symm)
    exact hp (heq ▸ hpo)

theorem lookup_remove_self (key : ρ→κ) (k : κ) (rows : List ρ) : lookup key k (remove key k rows)=none := by
  rw [lookup_eq_none]
  exact fun row hrow => of_decide_eq_true (mem_filter.mp hrow).2

theorem lookup_remove_of_ne (hk : k'≠k) (rows : List ρ) : lookup key k' (remove key k rows)=lookup key k' rows := by
  rw [lookup,remove,find?_filter]
  refine congrArg (fun p => List.find? p rows) (funext fun row => ?_)
  by_cases hrow : key row=k'
  · simp [hrow,hk]
  · simp [hrow]

theorem lookup_upsert (key : ρ→κ) (k : κ) (row : ρ) (rows : List ρ) :
    lookup key k (upsert key row rows)=if key row=k then some row else lookup key k rows := by
  rw [upsert,lookup_append]
  by_cases hk : key row=k
  · rw [← hk,lookup_remove_self,if_pos rfl,if_pos rfl,Option.none_or]
  · rw [lookup_remove_of_ne (Ne.symm hk),if_neg hk,if_neg hk,Option.or_none]

theorem map_modify (hf : ∀ row,col (f row)=col row) (rows : List ρ) : (modify key k f rows).map col=rows.map col := by
  rw [modify,map_map]
  refine map_congr_left fun row _ => ?_
  rw [Function.comp_apply]
  split
  · exact hf row
  · rfl

theorem modify_of_lookup_none (h : lookup key k rows=none) (f : ρ→ρ) : modify key k f rows=rows := by
  rw [lookup_eq_none] at h
  have hsame : ∀ row∈rows,(if key row=k then f row else row)=row := fun row hrow => if_neg (h row hrow)
  rw [modify,map_congr_left hsame,map_id']

theorem mem_modify : row∈modify key k f rows ↔ (row∈rows ∧ key row≠k) ∨ ∃ old∈rows,key old=k ∧ f old=row := by
  simp only [modify,mem_map]
  constructor
  · rintro ⟨old,hold,rfl⟩
    by_cases hk : key old=k
    · exact Or.inr ⟨old,hold,hk,(if_pos hk).symm⟩
    rw [if_neg hk]
    exact Or.inl ⟨hold,hk⟩
  · rintro (⟨hrow,hk⟩|⟨old,hold,hk,rfl⟩)
    · exact ⟨row,hrow,if_neg hk⟩
    · exact ⟨old,hold,if_pos hk⟩

end Certctl.RecordTable
