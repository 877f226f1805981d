import Mathlib.Data.List.Infix
import Mathlib.Data.List.Sort

/-!
# Chains of hashed records

Every record carries the hash of its predecessor and a hash of its own
that covers this and its body. A list is verified by walking it and
comparing both. Where a hash determines the hash before it, every hash has
one possible place in a chain, counted from its root. So a verified list
made of records of a chain is a beginning of that chain, whatever order
and bodies its records were given.
-/

namespace Certctl.HashChain

open List

variable {β H : Type}

/-- A record with the hash before it and its own. -/
structure Link (β H : Type) where
  body : β
  /-- The hash of the record before, absent at the root. -/
  prev : Option H
  hash : H

variable (hf : Option H→β→H)

def chain : Option H→List β→List (Link β H)
  | _,[] => []
  | prev,b::bs => ⟨b,prev,hf prev b⟩::chain (some (hf prev b)) bs

/-- The last hash of a chain. -/
def tip : Option H→List β→Option H
  | prev,[] => prev
  | prev,b::bs => tip (some (hf prev b)) bs

/-- Every record names the one before it and its hash is the right one. -/
def Verified : Option H→List (Link β H)→Prop
  | _,[] => True
  | prev,link::links => link.prev=prev ∧ hf link.prev link.body=link.hash ∧ Verified (some link.hash) links

/-- The hash of a record determines the hash before it. -/
structure Commits : Prop where
  /-- A root is told from a later record. -/
  root : ∀ prev b b' c,hf none b≠hf (some (hf prev c)) b'
  /-- Later records with one hash follow one record. -/
  next : ∀ p p' b b' c c',hf (some (hf p c)) b=hf (some (hf p' c')) b' → hf p c=hf p' c'

/-- The place of a hash in a chain, counted from the root. -/
inductive Place : ℕ→H→Prop where
  | root (b : β) : Place 0 (hf none b)
  /-- The hash of a record after another. -/
  | next {n : ℕ} {h : H} (b : β) : Place n h → Place (n+1) (hf (some h) b)

variable {hf}

theorem chain_append (prev : Option H) (bs : List β) (b : β) :
    chain hf prev (bs++[b])=chain hf prev bs++[⟨b,tip hf prev bs,hf (tip hf prev bs) b⟩] := by
  induction bs generalizing prev with
  | nil => rfl
  | cons c bs ih => rw [cons_append,chain,ih,chain,cons_append,tip]

theorem tip_append (prev : Option H) (bs : List β) (b : β) : tip hf prev (bs++[b])=some (hf (tip hf prev bs) b) := by
  induction bs generalizing prev with
  | nil => rfl
  | cons c bs ih => rw [cons_append,tip,ih,tip]

theorem verified_chain (prev : Option H) (bs : List β) : Verified hf prev (chain hf prev bs) := by
  induction bs generalizing prev with
  | nil => trivial
  | cons b bs ih => exact ⟨rfl,rfl,ih _⟩

variable {n : ℕ} {h : H}

theorem Place.made (hplace : Place hf n h) : ∃ prev b,h=hf prev b := by
  cases hplace with
  | root b => exact ⟨none,b,rfl⟩
  | next b _ => exact ⟨_,b,rfl⟩

theorem Place.unique (hcommits : Commits hf) {m : ℕ} (hm : Place hf m h) (hn : Place hf n h) : m=n := by
  induction hm generalizing n with
  | root b =>
    generalize hh : hf none b=h at hn
    cases hn with
    | root => rfl
    | next b' hprev =>
      obtain ⟨prev,c,rfl⟩ := hprev.made
      exact absurd hh (hcommits.root prev b b' c)
  | next b hprev ih =>
    obtain ⟨prev,c,rfl⟩ := hprev.made
    generalize hh : hf (some (hf prev c)) b=h at hn
    cases hn with
    | root b' => exact absurd hh.symm (hcommits.root prev b' b c)
    | next b' hprev' =>
      obtain ⟨prev',c',rfl⟩ := hprev'.made
      have hsame := hcommits.next prev prev' b b' c c' hh
      have hplaces := ih (hsame ▸ hprev')
      omega

/-- The hash before a record that comes at a place. -/
def Before (hf : Option H→β→H) (n : ℕ) (prev : Option H) : Prop :=
  match prev with
  | none => n=0
  | some h => ∃ m,n=m+1 ∧ Place hf m h

variable {prev : Option H}

theorem Before.place (h : Before hf n prev) (b : β) : Place hf n (hf prev b) := by
  cases prev with
  | none =>
    cases h
    exact .root b
  | some =>
    obtain ⟨m,rfl,hplace⟩ := h
    exact .next b hplace

variable {links : List (Link β H)} {i : ℕ} {link : Link β H}

theorem Verified.place (hprev : Before hf n prev) (h : Verified hf prev links) (hi : links[i]?=some link) :
    Place hf (n+i) link.hash := by
  induction links generalizing prev n i with
  | nil => cases hi
  | cons first links ih =>
    obtain ⟨hfirst,hhash,hrest⟩ := h
    have hplace : Place hf n first.hash := by
      rw [← hhash,hfirst]
      exact hprev.place first.body
    cases i with
    | zero =>
      cases hi
      exact hplace
    | succ i =>
      have hnext : Before hf (n+1) (some first.hash) := ⟨n,rfl,hplace⟩
      have hlater := ih hnext hrest hi
      rw [show n+(i+1)=n+1+i by omega]
      exact hlater

theorem Verified.place_root (h : Verified hf none links) (hi : i<links.length) : Place hf i links[i].hash := by
  have hroot : Before hf 0 none := rfl
  have hplace := h.place hroot (getElem?_eq_getElem hi)
  rw [Nat.zero_add] at hplace
  exact hplace

/-- One hash has an earlier place than another. -/
def Earlier (hf : Option H→β→H) (h h' : H) : Prop := ∃ m n,Place hf m h ∧ Place hf n h' ∧ m<n

theorem Earlier.asymm (hcommits : Commits hf) {h' : H} (hearly : Earlier hf h h') : ¬Earlier hf h' h := by
  obtain ⟨m,n,hm,hn,hlt⟩ := hearly
  rintro ⟨n',m',hn',hm',hlt'⟩
  have hm_eq := hm.unique hcommits hm'
  have hn_eq := hn.unique hcommits hn'
  omega

theorem Verified.pairwise (h : Verified hf none links) : (links.map Link.hash).Pairwise (Earlier hf) := by
  rw [pairwise_map,pairwise_iff_getElem]
  intro i j hi hj hij
  exact ⟨i,j,h.place_root hi,h.place_root hj,hij⟩

theorem Verified.nodup (hcommits : Commits hf) (h : Verified hf none links) : (links.map Link.hash).Nodup := by
  refine h.pairwise.imp ?_
  intro a b hab heq
  rw [heq] at hab
  exact hab.asymm hcommits hab

theorem Verified.hash_eq (h : Verified hf prev links) (hlink : link∈links) : hf link.prev link.body=link.hash := by
  induction links generalizing prev with
  | nil => cases hlink
  | cons first links ih =>
    obtain ⟨-,hhash,hrest⟩ := h
    rcases mem_cons.mp hlink with rfl|hlater
    · exact hhash
    · exact ih hrest hlater

variable {whole : List (Link β H)}

theorem Verified.isPrefix (hcommits : Commits hf) (hwhole : Verified hf none whole)
    (h : Verified hf none links) (hmem : ∀ link∈links,link.hash∈whole.map Link.hash) :
    links.map Link.hash<+:whole.map Link.hash := by
  rw [prefix_iff_getElem?]
  intro i hi
  rw [length_map] at hi
  have hlink := hmem links[i] (getElem_mem hi)
  obtain ⟨j,hj,hsame⟩ := mem_iff_getElem.mp hlink
  rw [length_map] at hj
  rw [getElem_map] at hsame
  have hplace := hwhole.place_root hj
  rw [hsame] at hplace
  have hij : i=j := (h.place_root hi).unique hcommits hplace
  subst hij
  rw [getElem?_map,getElem?_eq_getElem hj,getElem_map,Option.map_some,hsame]

/-- Records of a verified list, kept in order, that are verified in some order, are verified in the
order they have, and they are the first ones. -/
theorem Verified.of_perm (hcommits : Commits hf) {kept : List (Link β H)}
    (hwhole : Verified hf none whole) (hkept : (kept.map Link.hash).Sublist (whole.map Link.hash))
    (hperm : links.Perm kept) (h : Verified hf none links) :
    links=kept ∧ kept.map Link.hash<+:whole.map Link.hash := by
  have hlinks := pairwise_map.mp h.pairwise
  have hkeptOrder := pairwise_map.mp (hwhole.pairwise.sublist hkept)
  have hsame : links=kept := hperm.eq_of_pairwise
    (fun a b _ _ hab hba => absurd hba (hab.asymm hcommits)) hlinks hkeptOrder
  have hmem : ∀ link∈links,link.hash∈whole.map Link.hash := by
    intro link hlink
    rw [hsame] at hlink
    exact hkept.subset (mem_map_of_mem hlink)
  have hbegin := Verified.isPrefix hcommits hwhole h hmem
  rw [hsame] at hbegin
  exact ⟨hsame,hbegin⟩

end Certctl.HashChain
