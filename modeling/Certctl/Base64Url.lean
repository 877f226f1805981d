import Mathlib.Tactic.Common
import Mathlib.Algebra.GroupWithZero.Nat

/-!
# Base64 with the URL alphabet and without padding

Three bytes become four characters; a last group of one or two bytes
becomes two or three. The decoder skips line breaks, ignores the unused
low bits of a last group and reports the position of the first character
it cannot read. What is encoded decodes to itself.
-/

namespace Certctl.Base64Url

/-- The character of a six-bit value. -/
def sextetChar (v : ℕ) : Char :=
  if v<26 then Char.ofNat (65+v)
  else if v<52 then Char.ofNat (71+v)
  else if v<62 then Char.ofNat (v-4)
  else if v=62 then '-' else '_'

def charValue (ch : Char) : Option ℕ :=
  if 65≤ch.toNat ∧ ch.toNat≤90 then some (ch.toNat-65)
  else if 97≤ch.toNat ∧ ch.toNat≤122 then some (ch.toNat-71)
  else if 48≤ch.toNat ∧ ch.toNat≤57 then some (ch.toNat+4)
  else if ch = '-' then some 62
  else if ch = '_' then some 63
  else none

/-- The six-bit values that encode a byte string. -/
def sextetsOf : List UInt8→List ℕ
  | [] => []
  | [a] => [a.toNat/4,a.toNat%4*16]
  | [a,b] => [a.toNat/4,a.toNat%4*16+b.toNat/16,b.toNat%16*4]
  | a::b::c::rest => a.toNat/4::(a.toNat%4*16+b.toNat/16)::(b.toNat%16*4+c.toNat/64)::(c.toNat%64)::sextetsOf rest

def encode (bs : List UInt8) : List Char := (sextetsOf bs).map sextetChar

/-- The bytes of a sequence of six-bit values; a single one left over has none. -/
def bytesOf : List ℕ→Option (List UInt8)
  | [] => some []
  | [_] => none
  | [v,w] => some [UInt8.ofNat (v*4+w/16)]
  | [v,w,x] => some [UInt8.ofNat (v*4+w/16),UInt8.ofNat (w%16*16+x/4)]
  | v::w::x::y::rest =>
    (bytesOf rest).map fun bs =>
      UInt8.ofNat (v*4+w/16)::UInt8.ofNat (w%16*16+x/4)::UInt8.ofNat (x%4*64+y)::bs

/-- Read the characters from a byte position on, skipping line breaks; an unreadable one
is reported by its position. -/
def readSextets : ℕ→List Char→Except ℕ (List ℕ)
  | _,[] => .ok []
  | pos,ch::rest =>
    if ch = '\n' ∨ ch = '\r' then readSextets (pos+1) rest
    else
      match charValue ch with
      | none => .error pos
      | some v => (readSextets (pos+ch.utf8Size) rest).map (v::·)

def decode (text : List Char) : Except ℕ (List UInt8) :=
  match readSextets 0 text with
  | .error pos => .error pos
  | .ok vs =>
    match bytesOf vs with
    | none => .error ((text.map Char.utf8Size).sum-1)
    | some bs => .ok bs

theorem charValue_sextetChar {v : ℕ} (hv : v<64) :
    charValue (sextetChar v)=some v ∧ ¬(sextetChar v = '\n' ∨ sextetChar v = '\r') ∧ sextetChar v ≠ '.' := by
  have hall : ∀ v<64,charValue (sextetChar v)=some v ∧
      ¬(sextetChar v = '\n' ∨ sextetChar v = '\r') ∧ sextetChar v ≠ '.' := by decide
  exact hall v hv

/-- Encoding uses six-bit values. -/
theorem sextetsOf_lt (bs : List UInt8) : ∀ v∈sextetsOf bs,v<64 := by
  induction bs using sextetsOf.induct with
  | case1 => intro v hv; cases hv
  | case2 a =>
    have ha := a.toNat_lt
    simp only [sextetsOf,List.mem_cons,List.not_mem_nil,or_false]
    omega
  | case3 a b =>
    have ha := a.toNat_lt
    have hb := b.toNat_lt
    simp only [sextetsOf,List.mem_cons,List.not_mem_nil,or_false]
    omega
  | case4 a b c rest ih =>
    have ha := a.toNat_lt
    have hb := b.toNat_lt
    have hc := c.toNat_lt
    intro v hv
    simp only [sextetsOf,List.mem_cons] at hv
    rcases hv with hv|hv|hv|hv|hv
    · omega
    · omega
    · omega
    · omega
    · exact ih v hv

theorem ofNat_eq {n : ℕ} {a : UInt8} (h : n=a.toNat) : UInt8.ofNat n=a := by
  rw [h,UInt8.ofNat_toNat]

theorem bytesOf_sextetsOf (bs : List UInt8) : bytesOf (sextetsOf bs)=some bs := by
  induction bs using sextetsOf.induct with
  | case1 => rfl
  | case2 a =>
    have ha : UInt8.ofNat (a.toNat/4*4+a.toNat%4*16/16)=a := ofNat_eq (by omega)
    simp only [sextetsOf,bytesOf,ha]
  | case3 a b =>
    have hb₀ := b.toNat_lt
    have ha : UInt8.ofNat (a.toNat/4*4+(a.toNat%4*16+b.toNat/16)/16)=a := ofNat_eq (by omega)
    have hb : UInt8.ofNat ((a.toNat%4*16+b.toNat/16)%16*16+b.toNat%16*4/4)=b := ofNat_eq (by omega)
    simp only [sextetsOf,bytesOf,ha,hb]
  | case4 a b c rest ih =>
    have hb₀ := b.toNat_lt
    have hc₀ := c.toNat_lt
    have ha : UInt8.ofNat (a.toNat/4*4+(a.toNat%4*16+b.toNat/16)/16)=a := ofNat_eq (by omega)
    have hb : UInt8.ofNat ((a.toNat%4*16+b.toNat/16)%16*16+(b.toNat%16*4+c.toNat/64)/4)=b := ofNat_eq (by omega)
    have hc : UInt8.ofNat ((b.toNat%16*4+c.toNat/64)%4*64+c.toNat%64)=c := ofNat_eq (by omega)
    simp only [sextetsOf,bytesOf,ih,Option.map_some,ha,hb,hc]

theorem readSextets_map {vs : List ℕ} (hvs : ∀ v∈vs,v<64) (pos : ℕ) : readSextets pos (vs.map sextetChar)=.ok vs := by
  induction vs generalizing pos with
  | nil => rfl
  | cons v rest ih =>
    obtain ⟨hvalue,hbreak,-⟩ := charValue_sextetChar (hvs v List.mem_cons_self)
    have hrest := fun p => ih (fun w hw => hvs w (List.mem_cons_of_mem v hw)) p
    rw [List.map_cons,readSextets,if_neg hbreak,hvalue]
    simp only [hrest,Except.map]

theorem decode_encode (bs : List UInt8) : decode (encode bs)=.ok bs := by
  have hread := readSextets_map (sextetsOf_lt bs) 0
  simp only [decode,encode,hread,bytesOf_sextetsOf]

theorem dot_notMem_encode (bs : List UInt8) : '.' ∉ encode bs := by
  intro h
  obtain ⟨v,hv,hdot⟩ := List.mem_map.mp h
  exact (charValue_sextetChar (sextetsOf_lt bs v hv)).2.2 hdot

theorem encode_eq_nil_iff (bs : List UInt8) : encode bs=[] ↔ bs=[] := by
  constructor
  · intro h
    have hround := decode_encode bs
    rw [h] at hround
    cases hround
    rfl
  · intro h
    rw [h]
    rfl

end Certctl.Base64Url
