import Mathlib.Data.Nat.Digits.Lemmas

/-!
# Hexadecimal numerals and big-endian bytes

Reading and writing natural numbers in base sixteen and as bytes. A number
has one numeral without leading zeros; the numeral padded to a width is the
same text exactly when the number fills the width. Its bytes, most
significant first, determine it.
-/

namespace Certctl.HexNumerals

open List

def digitValue (ch : Char) : Option ℕ :=
  if 48≤ch.toNat ∧ ch.toNat≤57 then some (ch.toNat-48)
  else if 97≤ch.toNat ∧ ch.toNat≤102 then some (ch.toNat-87)
  else if 65≤ch.toNat ∧ ch.toNat≤70 then some (ch.toNat-55)
  else none

/-- Value of a digit sequence continued from the value of the digits before it. -/
def valueFrom : ℕ→List Char→Option ℕ
  | n,[] => some n
  | n,ch::rest =>
    match digitValue ch with
    | none => none
    | some d => valueFrom (16*n+d) rest

/-- Read a numeral with an optional sign; the empty numeral has no value. -/
def parse (text : String) : Option ℤ :=
  match text.toList with
  | [] => none
  | '-'::rest => if rest=[] then none else (valueFrom 0 rest).map fun n => -(n : ℤ)
  | '+'::rest => if rest=[] then none else (valueFrom 0 rest).map fun n => (n : ℤ)
  | digits => (valueFrom 0 digits).map fun n => (n : ℤ)

/-- The numeral of a number in a base up to sixteen, most significant digit first, in lower case. -/
def numeral (b n : ℕ) : List Char := if n=0 then ['0'] else (Nat.digits b n).reverse.map Nat.digitChar

def digits (n : ℕ) : List Char := numeral 16 n

/-- The numeral of a number, without leading zeros. -/
def text (n : ℕ) : String := String.ofList (digits n)

/-- The numeral of a number, with leading zeros up to a width. -/
def padded (w n : ℕ) : String := String.ofList (List.replicate (w-(digits n).length) '0'++digits n)

def decimal (n : ℕ) : String := String.ofList (numeral 10 n)

theorem valueFrom_digits {ds : List ℕ} (hds : ∀ d∈ds,d<16) (acc : ℕ) :
    valueFrom acc (ds.map Nat.digitChar)=some (ds.foldl (fun a d => 16*a+d) acc) := by
  have hdigit : ∀ d<16,digitValue (Nat.digitChar d)=some d := by decide
  induction ds generalizing acc with
  | nil => rfl
  | cons d rest ih =>
    rw [map_cons,valueFrom,hdigit d (hds d mem_cons_self)]
    exact ih (fun e he => hds e (mem_cons_of_mem d he)) _

variable {b : ℕ}

theorem valueFrom_numeral (hb : 1<b) (hb16 : b ≤ 16) (n k : ℕ) :
    valueFrom 0 (List.replicate k '0'++numeral b n)=some (Nat.ofDigits 16 (Nat.digits b n)) := by
  induction k with
  | succ k ih => exact ih
  | zero =>
    rw [replicate_zero,nil_append,numeral]
    split
    · rename_i hn
      rw [hn,Nat.digits_zero]
      rfl
    have hlt : ∀ d∈(Nat.digits b n).reverse,d<16 :=
      fun d hd => (Nat.digits_lt_base hb (mem_reverse.mp hd)).trans_le hb16
    rw [valueFrom_digits hlt,foldl_reverse,Nat.ofDigits_eq_foldr]
    congr 2
    funext d a
    exact Nat.add_comm _ _

variable {n : ℕ}

theorem parse_ofList {chars : List Char} (hne : chars≠[]) (h : valueFrom 0 chars=some n) :
    parse (String.ofList chars)=some (n : ℤ) := by
  unfold parse
  rw [String.toList_ofList]
  split
  · exact absurd rfl hne
  · cases h
  · cases h
  rw [h]
  rfl

theorem parse_padded_numeral (hb : 1<b) (hb16 : b ≤ 16) (n k : ℕ) :
    parse (String.ofList (List.replicate k '0'++numeral b n))=some ((Nat.ofDigits 16 (Nat.digits b n) : ℕ) : ℤ) := by
  refine parse_ofList (fun hnil => ?_) (valueFrom_numeral hb hb16 n k)
  have hlast := (append_eq_nil_iff.mp hnil).2
  unfold numeral at hlast
  split at hlast
  · cases hlast
  rename_i hn
  rw [map_eq_nil_iff,reverse_eq_nil_iff,Nat.digits_eq_nil_iff_eq_zero] at hlast
  exact hn hlast

theorem parse_padded (w n : ℕ) : parse (padded w n)=some (n : ℤ) := by
  rw [padded,digits,parse_padded_numeral (by omega) le_rfl,Nat.ofDigits_digits]

theorem le_ofDigits_decimal (n : ℕ) : n ≤ Nat.ofDigits 16 (Nat.digits 10 n) ∧
    (10 ≤ n → n<Nat.ofDigits 16 (Nat.digits 10 n)) := by
  induction n using Nat.strong_induction_on with
  | _ n ih =>
    by_cases hn : n=0
    · subst hn
      exact ⟨le_rfl,fun h => by omega⟩
    have hrest := (ih (n/10) (by omega)).1
    rw [Nat.digits_def' (by omega) (Nat.pos_of_ne_zero hn),Nat.ofDigits_cons]
    constructor
    · omega
    · omega

theorem lt_length_digits_iff {w : ℕ} (hw : 0<w) : w<(digits n).length ↔ 16^w≤n := by
  by_cases hn : n=0
  · have hpow : 0<16^w := Nat.pow_pos (by omega)
    rw [digits,numeral,if_pos hn,length_singleton]
    omega
  · rw [digits,numeral,if_neg hn,length_map,length_reverse]
    exact Nat.lt_digits_length_iff (by omega) n

theorem padded_eq_text_iff (w n : ℕ) : padded w n=text n ↔ w≤(digits n).length := by
  unfold padded text
  rw [String.ofList_inj]
  constructor
  · intro h
    have hlength := congrArg List.length h
    rw [length_append,length_replicate] at hlength
    omega
  · intro h
    have hzero : w-(digits n).length=0 := by omega
    rw [hzero,replicate_zero,nil_append]

theorem toLower_digits {ch : Char} (h : ch∈digits n) : ch.toLower=ch := by
  have hlower : ∀ d<16,(Nat.digitChar d).toLower=Nat.digitChar d := by decide
  unfold digits numeral at h
  split at h
  · rw [mem_singleton.mp h]
    decide
  · obtain ⟨d,hd,rfl⟩ := mem_map.mp h
    exact hlower d (Nat.digits_lt_base (by omega) (mem_reverse.mp hd))

theorem toLower_text (n : ℕ) : (text n).toLower=text n := by
  have hlist : (text n).toLower.toList=(text n).toList := by
    have hmap : (text n).toLower=(text n).map Char.toLower := rfl
    rw [hmap,String.toList_map,text,String.toList_ofList]
    exact (map_congr_left fun ch hch => toLower_digits hch).trans (map_id _)
  exact String.toList_injective hlist

/-- The bytes of a number, most significant first; none for zero. -/
def bytes (n : ℕ) : List UInt8 := (Nat.digits 256 n).reverse.map UInt8.ofNat

/-- The number with the given bytes, most significant first. -/
def ofBytes (bs : List UInt8) : ℕ := Nat.ofDigits 256 (bs.reverse.map UInt8.toNat)

theorem ofBytes_bytes (n : ℕ) : ofBytes (bytes n)=n := by
  have hbytes : ((Nat.digits 256 n).map fun d => (UInt8.ofNat d).toNat)=Nat.digits 256 n := by
    refine (map_congr_left fun d hd => ?_).trans (map_id _)
    have hlt := Nat.digits_lt_base (by omega) hd
    exact UInt8.toNat_ofNat_of_lt hlt
  unfold ofBytes bytes
  rw [← map_reverse,reverse_reverse,map_map]
  exact (congrArg (Nat.ofDigits 256) hbytes).trans (Nat.ofDigits_digits 256 n)

theorem bytes_eq_nil_iff (n : ℕ) : bytes n=[] ↔ n=0 := by
  rw [bytes,map_eq_nil_iff,reverse_eq_nil_iff,Nat.digits_eq_nil_iff_eq_zero]

end Certctl.HexNumerals
