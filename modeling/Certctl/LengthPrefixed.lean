import Mathlib.Data.Nat.Digits.Defs
import Mathlib.Data.List.Basic

/-!
# Texts behind their length

A text is written behind the decimal numeral of its length in bytes and a
colon. The numeral has no colon, so the first colon ends it, and the length
says where the text ends: two texts written one behind the other are read
back from the result, whatever characters they contain.
-/

namespace Certctl.LengthPrefixed

open List

def decimal (n : ℕ) : List Char := if n=0 then ['0'] else (Nat.digits 10 n).reverse.map Nat.digitChar

def size (text : List Char) : ℕ := (text.map Char.utf8Size).sum

def item (text : List Char) : List Char := decimal (size text)++ ':' :: text

def pair (first second : List Char) : List Char := item first++ ':' :: item second

theorem digitChar_injective {d e : ℕ} (hd : d<10) (he : e<10) (h : Nat.digitChar d=Nat.digitChar e) : d=e := by
  have hall : ∀ d<10,∀ e<10,Nat.digitChar d=Nat.digitChar e → d=e := by decide
  exact hall d hd e he h

theorem map_digitChar_injective {ds es : List ℕ} (hds : ∀ d∈ds,d<10) (hes : ∀ e∈es,e<10)
    (h : ds.map Nat.digitChar=es.map Nat.digitChar) : ds=es := by
  induction ds generalizing es with
  | nil => exact (map_eq_nil_iff.mp h.symm).symm
  | cons d ds ih =>
    cases es with
    | nil => cases h
    | cons e =>
      rw [map_cons,map_cons,List.cons.injEq] at h
      have hhead := digitChar_injective (hds d mem_cons_self) (hes e mem_cons_self) h.1
      have htail := ih (fun x hx => hds x (mem_cons_of_mem d hx)) (fun x hx => hes x (mem_cons_of_mem e hx)) h.2
      rw [hhead,htail]

theorem digits_lt_ten {n d : ℕ} (hd : d∈(Nat.digits 10 n).reverse) : d<10 :=
  Nat.digits_lt_base (by omega) (mem_reverse.mp hd)

theorem decimal_ne_zero {n : ℕ} (hn : n≠0) : (Nat.digits 10 n).reverse.map Nat.digitChar≠['0'] := by
  intro h
  have hdigits : (Nat.digits 10 n).reverse=[0] := map_digitChar_injective (fun d hd => digits_lt_ten hd) (by decide) h
  have hvalue := Nat.ofDigits_digits 10 n
  rw [reverse_eq_iff.mp hdigits] at hvalue
  exact hn (hvalue.symm.trans (by decide))

theorem decimal_injective {n m : ℕ} (h : decimal n=decimal m) : n=m := by
  unfold decimal at h
  by_cases hn : n=0
  · by_cases hm : m=0
    · rw [hn,hm]
    rw [if_pos hn,if_neg hm] at h
    exact absurd h.symm (decimal_ne_zero hm)
  by_cases hm : m=0
  · rw [if_neg hn,if_pos hm] at h
    exact absurd h (decimal_ne_zero hn)
  rw [if_neg hn,if_neg hm] at h
  have hdigits := map_digitChar_injective (fun d hd => digits_lt_ten hd) (fun d hd => digits_lt_ten hd) h
  exact Nat.digits_inj_iff.mp (reverse_injective hdigits)

theorem colon_notMem_decimal (n : ℕ) : ':' ∉ decimal n := by
  have hdigit : ∀ d<10,Nat.digitChar d≠ ':' := by decide
  intro h
  unfold decimal at h
  split at h
  · exact absurd h (by decide)
  obtain ⟨d,hd,heq⟩ := mem_map.mp h
  exact hdigit d (digits_lt_ten hd) heq

theorem append_sep_injective {α : Type} {sep : α} {first first' rest rest' : List α} (hfirst : sep∉first)
    (hfirst' : sep∉first') (h : first++sep::rest=first'++sep::rest') : first=first' ∧ rest=rest' := by
  induction first generalizing first' with
  | nil =>
    cases first' with
    | nil => exact ⟨rfl,(List.cons.inj h).2⟩
    | cons => exact absurd ((List.cons.inj h).1 ▸ mem_cons_self) hfirst'
  | cons ch tail ih =>
    cases first' with
    | nil => exact absurd ((List.cons.inj h).1 ▸ mem_cons_self) hfirst
    | cons ch' =>
      obtain ⟨hhead,htail⟩ := List.cons.inj h
      have hrest := ih (fun hmem => hfirst (mem_cons_of_mem ch hmem))
        (fun hmem => hfirst' (mem_cons_of_mem ch' hmem)) htail
      exact ⟨by rw [hhead,hrest.1],hrest.2⟩

/-- Two texts of the same length at the start of the same text are the same. -/
theorem append_injective_of_size {first first' rest rest' : List Char} (hsize : size first=size first')
    (h : first++rest=first'++rest') : first=first' ∧ rest=rest' := by
  induction first generalizing first' with
  | nil =>
    cases first' with
    | nil => exact ⟨rfl,h⟩
    | cons ch =>
      have hpos := Char.utf8Size_pos ch
      simp only [size,map_nil,sum_nil,map_cons,sum_cons] at hsize
      omega
  | cons ch tail ih =>
    cases first' with
    | nil =>
      have hpos := Char.utf8Size_pos ch
      simp only [size,map_nil,sum_nil,map_cons,sum_cons] at hsize
      omega
    | cons ch' tail' =>
      obtain ⟨hhead,htail⟩ := List.cons.inj h
      have hsizes : size tail=size tail' := by
        simp only [size,map_cons,sum_cons,hhead] at hsize ⊢
        omega
      obtain ⟨hfirst,hrest⟩ := ih hsizes htail
      exact ⟨by rw [hhead,hfirst],hrest⟩

theorem pair_injective {first second first' second' : List Char} (h : pair first second=pair first' second') :
    first=first' ∧ second=second' := by
  unfold pair item at h
  rw [append_assoc,append_assoc,cons_append] at h
  obtain ⟨hlength,hrest⟩ := append_sep_injective (colon_notMem_decimal _) (colon_notMem_decimal _) h
  obtain ⟨hfirst,htail⟩ := append_injective_of_size (decimal_injective hlength) hrest
  have hsecond := append_sep_injective (colon_notMem_decimal _) (colon_notMem_decimal _) (List.cons.inj htail).2
  exact ⟨hfirst,hsecond.2⟩

end Certctl.LengthPrefixed
