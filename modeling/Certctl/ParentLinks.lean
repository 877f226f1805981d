import Certctl.RecordTable
import Mathlib.Data.Int.Notation
import Mathlib.Order.Basic

/-!
# Rows that name their parent

A table whose rows may name another row of the table as their parent is a
forest. A descent carries its length. What holds between every row and its
parent is lifted to descents of any length by the two rules at the end;
the rules before them say which links a table has after a row was appended
and after its rows were rewritten in place.
-/

namespace Certctl.ParentLinks

open RecordTable

variable {ρ κ : Type} (key : ρ→κ) (parent : ρ→Option κ)

/-- The second row is in the table and names the first one, which is there too. -/
def Linked (rows : List ρ) (above below : ρ) : Prop := above∈rows ∧ below∈rows ∧ parent below=some (key above)

/-- A chain of links from an ancestor down to a row, with its length. -/
inductive Below (rows : List ρ) : ℕ→ρ→ρ→Prop where
  | link {above below : ρ} : Linked key parent rows above below → Below rows 1 above below
  | down {d : ℕ} {above middle below : ρ} : Below rows d above middle →
      Linked key parent rows middle below → Below rows (d+1) above below

/-- Every parent that a row names is in the table, and no two rows share a key. -/
structure Forest (rows : List ρ) : Prop where
  keys : (rows.map key).Nodup
  parents : ∀ row∈rows,∀ k,parent row=some k → k∈rows.map key

theorem forest_nil : Forest key parent ([] : List ρ) := ⟨List.nodup_nil,List.forall_mem_nil _⟩

variable {key parent} {rows : List ρ} {leaf above below : ρ}

section

variable (h : Forest key parent rows) (hfresh : key leaf∉rows.map key)
  (hparent : ∀ k,parent leaf=some k → k∈rows.map key)
include h hfresh hparent

theorem Forest.append : Forest key parent (rows++[leaf]) := by
  have hkeys : ((rows++[leaf]).map key).Nodup :=
    keys_append h.keys fun row hrow hkey => hfresh (List.mem_map.mpr ⟨row,hrow,hkey⟩)
  refine ⟨hkeys,fun row hrow k hk => ?_⟩
  rw [List.map_append,List.mem_append]
  rcases mem_append_row.mp hrow with hold|rfl
  · exact .inl (h.parents row hold k hk)
  · exact .inl (hparent k hk)

theorem Forest.linked_append (hlink : Linked key parent (rows++[leaf]) above below) :
    Linked key parent rows above below ∨ (below=leaf ∧ above∈rows ∧ parent leaf=some (key above)) := by
  obtain ⟨habove,hbelow,hnames⟩ := hlink
  have hknown : key above∈rows.map key := by
    rcases mem_append_row.mp hbelow with hold|rfl
    · exact h.parents below hold _ hnames
    · exact hparent _ hnames
  have hrow : above∈rows := by
    rcases mem_append_row.mp habove with hold|rfl
    · exact hold
    · exact absurd hknown hfresh
  rcases mem_append_row.mp hbelow with hold|rfl
  · exact .inl ⟨hrow,hold,hnames⟩
  · exact .inr ⟨rfl,hrow,hnames⟩

end

section Rewriting

variable [DecidableEq κ] {k : κ} {f : ρ→ρ}

theorem Forest.modify (h : Forest key parent rows) (hkey : ∀ row,key (f row)=key row)
    (hparent : ∀ row,parent (f row)=parent row) : Forest key parent (RecordTable.modify key k f rows) := by
  have hkeys : (RecordTable.modify key k f rows).map key=rows.map key := map_modify hkey rows
  refine ⟨hkeys ▸ h.keys,fun row hrow k' hk' => ?_⟩
  rw [hkeys]
  rcases mem_modify.mp hrow with ⟨hold,-⟩|⟨old,hold,-,rfl⟩
  · exact h.parents row hold k' hk'
  · exact h.parents old hold k' (hparent old ▸ hk')

theorem linked_modify (hkey : ∀ row,key (f row)=key row) (hparent : ∀ row,parent (f row)=parent row)
    (hlink : Linked key parent (modify key k f rows) above below) :
    ∃ above' below',Linked key parent rows above' below' ∧ above=(if key above'=k then f above' else above') ∧
      below=(if key below'=k then f below' else below') := by
  obtain ⟨habove,hbelow,hnames⟩ := hlink
  obtain ⟨above',habove',rfl⟩ := List.mem_map.mp habove
  obtain ⟨below',hbelow',rfl⟩ := List.mem_map.mp hbelow
  refine ⟨above',below',⟨habove',hbelow',?_⟩,rfl,rfl⟩
  have hsame : ∀ row,key (if key row=k then f row else row)=key row ∧
      parent (if key row=k then f row else row)=parent row := by
    intro row
    split
    · exact ⟨hkey row,hparent row⟩
    · exact ⟨rfl,rfl⟩
  rw [← (hsame below').2,hnames,(hsame above').1]

end Rewriting

variable {d : ℕ}

theorem Below.mem (h : Below key parent rows d above below) : above∈rows ∧ below∈rows := by
  induction h with
  | link h => exact ⟨h.1,h.2.1⟩
  | down _ h ih => exact ⟨ih.1,h.2.1⟩

theorem below_trans {R : ρ→ρ→Prop} (hlink : ∀ above below,Linked key parent rows above below → R above below)
    (htrans : ∀ a b c,R a b → R b c → R a c) (h : Below key parent rows d above below) : R above below := by
  induction h with
  | link h => exact hlink _ _ h
  | down _ h ih => exact htrans _ _ _ ih (hlink _ _ h)

theorem below_measure {measure : ρ→ℤ} (hlink : ∀ above below,Linked key parent rows above below →
    measure below+1 ≤ measure above) (h : Below key parent rows d above below) :
    measure below+d ≤ measure above := by
  induction h with
  | link h | down _ h ih =>
    have hstep := hlink _ _ h
    omega

end Certctl.ParentLinks
