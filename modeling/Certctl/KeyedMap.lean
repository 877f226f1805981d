import Mathlib.Data.List.AList

/-!
# Maps with one entry for each key

Association lists without repeated keys, with the two changes that touch
many entries at once: dropping the entries that fail a test and rewriting
every value. Both are read through lookups.
-/

namespace Certctl.KeyedMap

variable {κ V : Type}

/-- The entries that pass a test. -/
def sieve (p : κ→V→Bool) (m : AList fun _ : κ => V) : AList fun _ : κ => V where
  entries := m.entries.filter fun e => p e.1 e.2
  nodupKeys := List.NodupKeys.sublist List.filter_sublist m.nodupKeys

def mapValues (f : κ→V→V) (m : AList fun _ : κ => V) : AList fun _ : κ => V where
  entries := m.entries.map (Sigma.map id f)
  nodupKeys := List.NodupKeys.map₂ f _ m.nodupKeys

variable [DecidableEq κ]

@[simp] theorem lookup_sieve (p : κ→V→Bool) (m : AList fun _ : κ => V) (k : κ) :
    (sieve p m).lookup k=(m.lookup k).filter (p k) := by
  refine Option.ext fun v => ?_
  rw [← Option.mem_def,← Option.mem_def,AList.mem_lookup_iff,Option.mem_filter_iff,AList.mem_lookup_iff]
  exact List.mem_filter

@[simp] theorem lookup_mapValues (f : κ→V→V) (m : AList fun _ : κ => V) (k : κ) :
    (mapValues f m).lookup k=(m.lookup k).map (f k) := by
  refine Option.ext fun v => ?_
  rw [← Option.mem_def,AList.mem_lookup_iff,Option.map_eq_some_iff]
  constructor
  · intro h
    obtain ⟨⟨k',v'⟩,hmem,heq⟩ := List.mem_map.mp h
    cases heq
    exact ⟨v',AList.mem_lookup_iff.mpr hmem,rfl⟩
  · rintro ⟨v',hv',rfl⟩
    exact List.mem_map.mpr ⟨⟨k,v'⟩,AList.mem_lookup_iff.mp hv',rfl⟩

theorem lookup_insert_eq (m : AList fun _ : κ => V) (k k' : κ) (v : V) :
    (m.insert k v).lookup k'=if k'=k then some v else m.lookup k' := by
  split
  · rename_i h
    rw [h,AList.lookup_insert]
  · rename_i h
    rw [AList.lookup_insert_ne h]

end Certctl.KeyedMap
