import Mathlib.Algebra.Order.Group.Defs
import Mathlib.Algebra.Order.Sub.Basic
import Mathlib.Data.List.TakeWhile
import Mathlib.Tactic.Common

/-!
# Sliding-window logs

A log holds the times of admitted requests. A request at a time first prunes
what has left the window, and is admitted and recorded while fewer than the
bound remain. Verdict and new log depend on the pruned log alone, so logs
that differ in what has left the window cannot be told apart. For requests
in the order of their times the verdict is exact, and no window holds more
admitted requests than the bound.
-/

namespace Certctl.SlidingLog

open List

section Prune

variable {T : Type} [LinearOrder T]

/-- Drop entries before the cutoff from the front. -/
def prune (cutoff : T) (log : List T) : List T := log.dropWhile (·<cutoff)

variable {cutoff : T} {log : List T}

theorem prune_eq_filter (h : log.Pairwise (·≤·)) : prune cutoff log=log.filter (cutoff≤·) := by
  induction log with
  | nil => rfl
  | cons x rest ih =>
    obtain ⟨hfirst,hrest⟩ := pairwise_cons.mp h
    by_cases hx : x<cutoff
    · rw [prune,dropWhile_cons,if_pos (decide_eq_true hx),filter_cons_of_neg (by simpa using hx)]
      exact ih hrest
    have hall : ∀ y∈x::rest,decide (cutoff≤y)=true := by
      intro y hy
      rcases mem_cons.mp hy with rfl|hy
      · exact decide_eq_true (not_lt.mp hx)
      · exact decide_eq_true ((not_lt.mp hx).trans (hfirst y hy))
    rw [prune,dropWhile_cons,if_neg (by simpa using hx),filter_eq_self.mpr hall]

theorem prune_eq_nil (h : ∀ x∈log,x<cutoff) : prune cutoff log=[] := by
  simpa only [prune,dropWhile_eq_nil_iff,decide_eq_true_eq] using h

theorem prune_append {front : List T} (h : ∀ x∈front,x<cutoff) : prune cutoff (front++log)=prune cutoff log :=
  dropWhile_append_of_pos fun x hx => decide_eq_true (h x hx)

theorem prune_split (cutoff : T) (log : List T) : ∃ front,log=front++prune cutoff log ∧ ∀ x∈front,x<cutoff := by
  refine ⟨log.takeWhile (·<cutoff),takeWhile_append_dropWhile.symm,fun x hx => ?_⟩
  exact of_decide_eq_true (mem_takeWhile_imp (p := fun y => decide (y<cutoff)) hx)

theorem mem_of_mem_prune {x : T} (h : x∈prune cutoff log) : x∈log := (dropWhile_suffix _).subset h

theorem prune_sorted (h : log.Pairwise (·≤·)) : (prune cutoff log).Pairwise (·≤·) :=
  h.sublist (dropWhile_suffix _).sublist

end Prune

section Admission

variable {T : Type} [LinearOrder T] [AddCommGroup T] [IsOrderedAddMonoid T]

def request (maxN : ℤ) (window : T) (log : List T) (now : T) : Bool×List T :=
  if maxN≤(prune (now-window) log).length then (false,prune (now-window) log)
  else (true,prune (now-window) log++[now])

variable {maxN : ℤ} {window now : T}

omit [IsOrderedAddMonoid T] in
theorem request_congr {a b : List T} (h : prune (now-window) a=prune (now-window) b) :
    request maxN window a now=request maxN window b now := by
  rw [request,request,h]

omit [IsOrderedAddMonoid T] in
theorem request_fst (log : List T) : (request maxN window log now).1=true ↔ ((prune (now-window) log).length : ℤ) < maxN := by
  unfold request
  split
  · rename_i hfull
    simp only [Bool.false_eq_true,false_iff,not_lt]
    exact hfull
  · rename_i hroom
    simpa only [true_iff,not_le] using hroom

omit [IsOrderedAddMonoid T] in
theorem request_snd (log : List T) : (request maxN window log now).2=
    prune (now-window) log++(if (request maxN window log now).1=true then [now] else []) := by
  unfold request
  split
  · simp only [Bool.false_eq_true,if_false,append_nil]
  · simp only [if_true]

variable (maxN window) in
/-- The log that is stored after requests at the given times, the latest first. -/
def logAfter : List T→List T
  | [] => []
  | now::earlier => (request maxN window (logAfter earlier) now).2

variable (maxN window) in
/-- The times of the admitted ones among requests at the given times, the latest first. -/
def admitted : List T→List T
  | [] => []
  | now::earlier =>
    if (request maxN window (logAfter maxN window earlier) now).1=true then now::admitted earlier else admitted earlier

omit [IsOrderedAddMonoid T] in
theorem admitted_sublist (times : List T) : (admitted maxN window times).Sublist times := by
  induction times with
  | nil => exact List.Sublist.refl []
  | cons now earlier ih =>
    unfold admitted
    split
    · exact ih.cons_cons now
    · exact ih.cons now

variable (maxN window) in
/-- Of the admitted requests the log holds all but some that have left the window. -/
theorem admitted_reverse {times : List T} (h : times.Pairwise (·≥·)) : ∃ gone,
    (admitted maxN window times).reverse=gone++logAfter maxN window times ∧
      ∀ x∈gone,∀ later,(∀ t∈times,t≤later) → x<later-window := by
  induction times with
  | nil => exact ⟨[],rfl,forall_mem_nil _⟩
  | cons now earlier ih =>
    obtain ⟨hfirst,hrest⟩ := pairwise_cons.mp h
    obtain ⟨gone,hsplit,hgone⟩ := ih hrest
    obtain ⟨front,hfront,hdropped⟩ := prune_split (now-window) (logAfter maxN window earlier)
    have hall : (admitted maxN window earlier).reverse=
        (gone++front)++prune (now-window) (logAfter maxN window earlier) := by
      rw [hsplit,append_assoc,← hfront]
    refine ⟨gone++front,?_,fun x hx later hlater => ?_⟩
    · rw [logAfter,request_snd,admitted]
      split
      · rw [reverse_cons,hall,append_assoc]
      · rw [hall,append_nil]
    · have hnow : now≤later := hlater now mem_cons_self
      rcases mem_append.mp hx with hx|hx
      · exact hgone x hx later fun t ht => hlater t (mem_cons_of_mem _ ht)
      · exact (hdropped x hx).trans_le (sub_le_sub_right hnow window)

theorem prune_logAfter {times : List T} (h : times.Pairwise (·≥·)) (hnow : ∀ t∈times,t≤now) :
    prune (now-window) (logAfter maxN window times)= (admitted maxN window times).reverse.filter (now-window≤·) := by
  obtain ⟨gone,hsplit,hgone⟩ := admitted_reverse maxN window h
  have hsorted : (admitted maxN window times).reverse.Pairwise (·≤·) :=
    pairwise_reverse.mpr (h.sublist (admitted_sublist times))
  rw [← prune_eq_filter hsorted,hsplit,prune_append fun x hx => hgone x hx now hnow]

theorem request_iff {times : List T} (h : times.Pairwise (·≥·)) (hnow : ∀ t∈times,t≤now) :
    (request maxN window (logAfter maxN window times) now).1=true ↔
      ((admitted maxN window times).countP (now-window≤·) : ℤ) < maxN := by
  rw [request_fst,prune_logAfter h hnow,← countP_eq_length_filter,countP_reverse]

variable (maxN window) in
/-- No window holds more admitted requests than the bound. -/
theorem countP_window_le {times : List T} (h : times.Pairwise (·≥·)) (hbound : 0 ≤ maxN) (first : T) :
    ((admitted maxN window times).countP (fun t => first≤t && t≤first+window) : ℤ) ≤ maxN := by
  induction times with
  | nil => simpa [admitted] using hbound
  | cons now earlier ih =>
    obtain ⟨hfirst,hrest⟩ := pairwise_cons.mp h
    unfold admitted
    split
    · rename_i hroom
      by_cases hin : (decide (first≤now) && decide (now≤first+window))=true
      · -- what lies in the window of the claim lies in the window that the request looks at
        have hcount := (request_iff hrest hfirst).mp hroom
        have hle : (admitted maxN window earlier).countP (fun t => first≤t && t≤first+window)≤
            (admitted maxN window earlier).countP (now-window≤·) := by
          refine countP_mono_left fun t _ ht => ?_
          simp only [Bool.and_eq_true,decide_eq_true_eq] at hin ht ⊢
          exact (sub_le_iff_le_add.mpr hin.2).trans ht.1
        rw [countP_cons,if_pos hin]
        omega
      · rw [countP_cons,if_neg hin]
        exact ih hrest
    · exact ih hrest

end Admission

end Certctl.SlidingLog
