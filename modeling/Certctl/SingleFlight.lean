import Certctl.RecordTable

/-!
# Joining concurrent computations of one key

A map sends each key to the computation in flight for it, and a list keeps
every computation ever begun with its outcome once there is one. The call
that begins a computation leads it: it records the outcome, which wakes the
waiters, and then takes the key out of the map. The invariant relates the
map and the list to the calls that lead.
-/

namespace Certctl.SingleFlight

open RecordTable Function

variable {κ β ι : Type} [DecidableEq κ] [DecidableEq ι]

/-- The map of computations in flight and the outcomes. -/
structure Flights (κ β : Type) where
  inFlight : List (κ×ℕ) := []
  /-- Every computation ever begun, with its outcome once there is one. -/
  entries : List (Option β) := []

namespace Flights

def load (fl : Flights κ β) (k : κ) : Option ℕ := (lookup Prod.fst k fl.inFlight).map (·.2)

/-- Begin a computation for a key. -/
def store (fl : Flights κ β) (k : κ) : Flights κ β :=
  ⟨upsert Prod.fst (k,fl.entries.length) fl.inFlight,fl.entries++[none]⟩

/-- The computation in flight for a key, or a new one; the flag tells which. -/
def loadOrStore (fl : Flights κ β) (k : κ) : (ℕ×Bool)×Flights κ β :=
  match fl.load k with
  | some f => ((f,true),fl)
  | none => ((fl.entries.length,false),fl.store k)

def outcome (fl : Flights κ β) (f : ℕ) : Option β := (fl.entries[f]?).join

def close (fl : Flights κ β) (f : ℕ) (b : β) : Flights κ β := ⟨fl.inFlight,fl.entries.set f (some b)⟩

def delete (fl : Flights κ β) (k : κ) : Flights κ β := ⟨remove Prod.fst k fl.inFlight,fl.entries⟩

theorem load_store (fl : Flights κ β) (k k' : κ) :
    (fl.store k).load k'=if k=k' then some fl.entries.length else fl.load k' := by
  simp only [load,store,lookup_upsert]
  split <;> rfl

theorem load_delete (fl : Flights κ β) (k k' : κ) : (fl.delete k).load k'=if k=k' then none else fl.load k' := by
  by_cases hk : k=k'
  · subst hk
    simp only [load,delete,lookup_remove_self,Option.map_none,if_true]
  · simp only [load,delete,lookup_remove_of_ne (Ne.symm hk),if_neg hk]

omit [DecidableEq κ] in
theorem entries_close (fl : Flights κ β) {f : ℕ} (hf : f<fl.entries.length) (b : β) (f' : ℕ) :
    (fl.close f b).entries[f']?=if f=f' then some (some b) else fl.entries[f']? := by
  simp only [close,List.getElem?_set,if_pos hf]

theorem entries_store (fl : Flights κ β) (k : κ) (f : ℕ) :
    (fl.store k).entries[f]?=if f=fl.entries.length then some none else fl.entries[f]? := by
  simp only [store,List.getElem?_append,List.getElem?_singleton]
  by_cases hf : f<fl.entries.length
  · rw [if_pos hf,if_neg (by omega)]
  by_cases he : f=fl.entries.length
  · rw [if_neg hf,if_pos he,if_pos (by omega)]
  · rw [if_neg hf,if_neg he,if_neg (by omega),List.getElem?_eq_none (by omega)]

end Flights

/-- A computation led by one call: its key, its number and whether it is closed. -/
structure Lead (κ : Type) where
  key : κ
  entry : ℕ
  closed : Bool
deriving DecidableEq

/-- The map and the list agree with the calls that lead. -/
structure Led (leads : ι→Option (Lead κ)) (fl : Flights κ β) : Prop where
  mapped : ∀ {k f},fl.load k=some f → ∃ t closed,leads t=some ⟨k,f,closed⟩
  leading : ∀ {t l},leads t=some l → fl.load l.key=some l.entry
  same_key : ∀ {t u l l'},leads t=some l → leads u=some l' → l.key=l'.key → t=u
  same_entry : ∀ {t u l l'},leads t=some l → leads u=some l' → l.entry=l'.entry → t=u
  isOpen : ∀ {t k f},leads t=some ⟨k,f,false⟩ → fl.entries[f]?=some none
  isClosed : ∀ {t k f},leads t=some ⟨k,f,true⟩ → ∃ b,fl.entries[f]?=some (some b)
  opened : ∀ {f},fl.entries[f]?=some none → ∃ t k,leads t=some ⟨k,f,false⟩

omit [DecidableEq ι] in
theorem led_empty : Led (fun _ : ι => (none : Option (Lead κ))) ({} : Flights κ β) := by
  refine ⟨?_,nofun,nofun,nofun,nofun,nofun,?_⟩
  · intro k f hload
    cases hload
  · intro f hf
    cases hf

variable {leads : ι→Option (Lead κ)} {fl : Flights κ β}

omit [DecidableEq ι] in
theorem Led.entry_lt (h : Led leads fl) {t : ι} {l : Lead κ} (ht : leads t=some l) : l.entry<fl.entries.length := by
  obtain ⟨k,f,closed⟩ := l
  cases closed with
  | false => exact (List.getElem?_eq_some_iff.mp (h.isOpen ht)).1
  | true =>
    obtain ⟨b,hb⟩ := h.isClosed ht
    exact (List.getElem?_eq_some_iff.mp hb).1

omit [DecidableEq κ] in
theorem lead_update {t u : ι} {new : Option (Lead κ)} {l : Lead κ}
    (h : Function.update leads t new u=some l) : (u=t ∧ new=some l) ∨ (u≠t ∧ leads u=some l) := by
  by_cases hu : u=t
  · subst hu
    rw [update_self] at h
    exact .inl ⟨rfl,h⟩
  · rw [update_of_ne hu] at h
    exact .inr ⟨hu,h⟩

omit [DecidableEq κ] in
theorem update_lead {t u : ι} {new : Option (Lead κ)} {l : Lead κ} (hu : leads u=some l) (ht : leads t≠some l) :
    Function.update leads t new u=some l := by
  rw [update_of_ne,hu]
  rintro rfl
  exact ht hu

/-- Beginning a computation for a free key keeps the invariant. -/
theorem Led.store (h : Led leads fl) {t : ι} {k : κ} (hfree : fl.load k=none) (ht : leads t=none) :
    Led (Function.update leads t (some ⟨k,fl.entries.length,false⟩)) (fl.store k) := by
  have hkeys : ∀ {u l},leads u=some l → k≠l.key := by
    intro u l hu hk
    rw [hk,h.leading hu] at hfree
    cases hfree
  have hentries : ∀ {u l},leads u=some l → (fl.store k).entries[l.entry]?=fl.entries[l.entry]? := by
    intro u l hu
    have hlt := h.entry_lt hu
    rw [Flights.entries_store,if_neg (by omega)]
  refine ⟨?_,?_,?_,?_,?_,?_,?_⟩
  · intro k' f hload
    rw [Flights.load_store] at hload
    split at hload
    · rename_i hk
      cases hload
      exact ⟨t,false,by rw [update_self,hk]⟩
    · obtain ⟨u,closed,hu⟩ := h.mapped hload
      exact ⟨u,closed,update_lead hu (nomatch ht.symm.trans ·)⟩
  · intro u l hu
    rw [Flights.load_store]
    rcases lead_update hu with ⟨-,hnew⟩|⟨-,hold⟩
    · cases hnew
      exact if_pos rfl
    · rw [if_neg (hkeys hold)]
      exact h.leading hold
  · intro u v l l' hu hv hkey
    rcases lead_update hu with ⟨rfl,hnew⟩|⟨-,hold⟩
    · cases hnew
      rcases lead_update hv with ⟨rfl,-⟩|⟨-,hold'⟩
      · rfl
      · exact absurd hkey (hkeys hold')
    · rcases lead_update hv with ⟨rfl,hnew'⟩|⟨-,hold'⟩
      · cases hnew'
        exact absurd hkey.symm (hkeys hold)
      · exact h.same_key hold hold' hkey
  · intro u v l l' hu hv hentry
    rcases lead_update hu with ⟨rfl,hnew⟩|⟨-,hold⟩
    · cases hnew
      rcases lead_update hv with ⟨rfl,-⟩|⟨-,hold'⟩
      · rfl
      have hlt := h.entry_lt hold'
      dsimp only at hentry
      omega
    · rcases lead_update hv with ⟨rfl,hnew'⟩|⟨-,hold'⟩
      · cases hnew'
        have hlt := h.entry_lt hold
        dsimp only at hentry
        omega
      · exact h.same_entry hold hold' hentry
  · intro u k' f hu
    rcases lead_update hu with ⟨-,hnew⟩|⟨-,hold⟩
    · cases hnew
      rw [Flights.entries_store,if_pos rfl]
    · exact (hentries hold).trans (h.isOpen hold)
  · intro u k' f hu
    rcases lead_update hu with ⟨-,hnew⟩|⟨-,hold⟩
    · cases hnew
    obtain ⟨b,hb⟩ := h.isClosed hold
    exact ⟨b,(hentries hold).trans hb⟩
  · intro f hf
    rw [Flights.entries_store] at hf
    split at hf
    · rename_i hnew
      exact ⟨t,k,by rw [update_self,hnew]⟩
    · obtain ⟨u,k',hu⟩ := h.opened hf
      exact ⟨u,k',update_lead hu (nomatch ht.symm.trans ·)⟩

/-- Recording the outcome of a led computation keeps the invariant. -/
theorem Led.close (h : Led leads fl) {t : ι} {k : κ} {f : ℕ} (ht : leads t=some ⟨k,f,false⟩) (b : β) :
    Led (Function.update leads t (some ⟨k,f,true⟩)) (fl.close f b) := by
  have hlt : f<fl.entries.length := h.entry_lt ht
  have hentries : ∀ {u l},leads u=some l → u≠t → (fl.close f b).entries[l.entry]?=fl.entries[l.entry]? := by
    intro u l hu hut
    rw [Flights.entries_close fl hlt,if_neg]
    intro hentry
    exact hut (h.same_entry hu ht hentry.symm)
  have hlead : ∀ {u l},Function.update leads t (some ⟨k,f,true⟩) u=some l →
      ∃ l₀,leads u=some l₀ ∧ l₀.key=l.key ∧ l₀.entry=l.entry := by
    intro u l hu
    rcases lead_update hu with ⟨rfl,hnew⟩|⟨-,hold⟩
    · cases hnew
      exact ⟨_,ht,rfl,rfl⟩
    · exact ⟨l,hold,rfl,rfl⟩
  refine ⟨?_,?_,?_,?_,?_,?_,?_⟩
  · intro k' f' hload
    obtain ⟨u,closed,hu⟩ := h.mapped hload
    by_cases hut : u=t
    · subst hut
      rw [ht] at hu
      cases hu
      exact ⟨u,true,update_self _ _ _⟩
    · exact ⟨u,closed,by rw [update_of_ne hut,hu]⟩
  · intro u l hu
    obtain ⟨l₀,hl₀,hkey,hentry⟩ := hlead hu
    rw [← hkey,← hentry]
    exact h.leading hl₀
  · intro u v l l' hu hv hkey
    obtain ⟨l₀,hl₀,hk₀,-⟩ := hlead hu
    obtain ⟨l₁,hl₁,hk₁,-⟩ := hlead hv
    exact h.same_key hl₀ hl₁ (by rw [hk₀,hk₁,hkey])
  · intro u v l l' hu hv hentry
    obtain ⟨l₀,hl₀,-,he₀⟩ := hlead hu
    obtain ⟨l₁,hl₁,-,he₁⟩ := hlead hv
    exact h.same_entry hl₀ hl₁ (by rw [he₀,he₁,hentry])
  · intro u k' f' hu
    rcases lead_update hu with ⟨-,hnew⟩|⟨hut,hold⟩
    · cases hnew
    · exact (hentries hold hut).trans (h.isOpen hold)
  · intro u k' f' hu
    rcases lead_update hu with ⟨-,hnew⟩|⟨hut,hold⟩
    · cases hnew
      exact ⟨b,by rw [Flights.entries_close fl hlt,if_pos rfl]⟩
    · obtain ⟨b',hb'⟩ := h.isClosed hold
      exact ⟨b',(hentries hold hut).trans hb'⟩
  intro f' hf'
  rw [Flights.entries_close fl hlt] at hf'
  split at hf'
  · cases hf'
  rename_i hne
  obtain ⟨u,k',hu⟩ := h.opened hf'
  refine ⟨u,k',update_lead hu fun hlead => ?_⟩
  cases ht.symm.trans hlead
  exact hne rfl

/-- Taking the key of a closed computation out of the map keeps the invariant. -/
theorem Led.delete (h : Led leads fl) {t : ι} {k : κ} {f : ℕ} (ht : leads t=some ⟨k,f,true⟩) :
    Led (Function.update leads t none) (fl.delete k) := by
  have hold : ∀ {u l},Function.update leads t none u=some l → u≠t ∧ leads u=some l := by
    intro u l hu
    rcases lead_update hu with ⟨-,hnew⟩|hold
    · cases hnew
    · exact hold
  refine ⟨?_,?_,?_,?_,?_,?_,?_⟩
  · intro k' f' hload
    rw [Flights.load_delete] at hload
    split at hload
    · cases hload
    rename_i hne
    obtain ⟨u,closed,hu⟩ := h.mapped hload
    refine ⟨u,closed,update_lead hu fun hlead => ?_⟩
    cases ht.symm.trans hlead
    exact hne rfl
  · intro u l hu
    obtain ⟨hut,hl⟩ := hold hu
    rw [Flights.load_delete,if_neg]
    · exact h.leading hl
    · exact fun hkey => hut (h.same_key hl ht hkey.symm)
  · exact fun hu hv hkey => h.same_key (hold hu).2 (hold hv).2 hkey
  · exact fun hu hv hentry => h.same_entry (hold hu).2 (hold hv).2 hentry
  · exact fun hu => h.isOpen (hold hu).2
  · exact fun hu => h.isClosed (hold hu).2
  · intro f' hf'
    obtain ⟨u,k',hu⟩ := h.opened hf'
    exact ⟨u,k',update_lead hu (nomatch ht.symm.trans ·)⟩

section Safe

variable {P : β→Prop} {k : κ} {f : ℕ}

/-- A computation that has a good outcome, or whose leader under the key has yet to record one. -/
def Safe (P : β→Prop) (leads : ι→Option (Lead κ)) (fl : Flights κ β) (k : κ) (f : ℕ) : Prop :=
  (∃ b,fl.entries[f]?=some (some b) ∧ P b) ∨ ∃ u,leads u=some ⟨k,f,false⟩

variable (hs : Safe P leads fl k f)
include hs

omit [DecidableEq ι] in
theorem Safe.lt (h : Led leads fl) : f<fl.entries.length := by
  rcases hs with ⟨b,hb,-⟩|⟨u,hu⟩
  · exact (List.getElem?_eq_some_iff.mp hb).1
  · exact h.entry_lt hu

variable {t : ι}

theorem Safe.store (h : Led leads fl) (ht : leads t=none) (k' : κ) :
    Safe P (Function.update leads t (some ⟨k',fl.entries.length,false⟩)) (fl.store k') k f := by
  have hlt := hs.lt h
  rcases hs with ⟨b,hb,hP⟩|⟨u,hu⟩
  · refine .inl ⟨b,?_,hP⟩
    rw [Flights.entries_store,if_neg (by omega),hb]
  · exact .inr ⟨u,update_lead hu (nomatch ht.symm.trans ·)⟩

variable {k' : κ} {f' : ℕ}

/-- Safety survives a recorded outcome that is good whenever its key is this one. -/
theorem Safe.close (h : Led leads fl) {b : β} (ht : leads t=some ⟨k',f',false⟩) (hP : k'=k → P b) :
    Safe P (Function.update leads t (some ⟨k',f',true⟩)) (fl.close f' b) k f := by
  have hlt : f'<fl.entries.length := h.entry_lt ht
  by_cases hf : f'=f
  · subst hf
    rcases hs with ⟨b',hb',-⟩|⟨u,hu⟩
    · rw [h.isOpen ht] at hb'
      cases hb'
    have hut := h.same_entry hu ht rfl
    rw [hut,ht] at hu
    cases hu
    exact .inl ⟨b,by rw [Flights.entries_close fl hlt,if_pos rfl],hP rfl⟩
  rcases hs with ⟨b',hb',hP'⟩|⟨u,hu⟩
  · exact .inl ⟨b',by rw [Flights.entries_close fl hlt,if_neg hf,hb'],hP'⟩
  refine .inr ⟨u,update_lead hu fun hlead => ?_⟩
  cases ht.symm.trans hlead
  exact hf rfl

theorem Safe.delete (ht : leads t=some ⟨k',f',true⟩) : Safe P (Function.update leads t none) (fl.delete k') k f := by
  rcases hs with hdone|⟨u,hu⟩
  · exact .inl hdone
  · exact .inr ⟨u,update_lead hu (nomatch ht.symm.trans ·)⟩

end Safe

end Certctl.SingleFlight
