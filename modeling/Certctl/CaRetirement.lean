import Certctl.CaHierarchy

/-!
# Draining before retirement

An authority is drained before it ends: the last step of its retirement
looks at its children and is refused while one of them is active. It does
not look further down. A retired authority therefore has no active child,
and an active authority further below it is always reached through one
that is still draining.
-/

namespace Certctl.CaRetirement

open RecordTable ParentLinks CaHierarchy

/-- No retired authority has an active one below it. -/
def Drained (rows : Table) : Prop :=
  ∀ d above below,Above rows d above below → above.state=.retired → below.state≠.active

/-- Between a retired authority and an active one below it stands one that is still draining. -/
def DrainedThrough (rows : Table) : Prop :=
  ∀ d above below,Above rows d above below → above.state=.retired → below.state=.active →
    ∃ d₁ d₂ middle,Above rows d₁ above middle ∧ Above rows d₂ middle below ∧ middle.state=.retiring

/-- No retired authority has an active child. -/
def ChildrenDrained (rows : Table) : Prop :=
  ∀ above below,Parent rows above below → above.state=.retired → below.state≠.active

/-- Every call keeps the children of retired authorities drained. -/
theorem childrenDrained_change {lib : X509Library} {rows rows' : Table} {call : Call} (hforest : Hierarchy rows)
    (h : ChildrenDrained rows) (hchange : Change lib rows call rows') : ChildrenDrained rows' := by
  cases hchange with
  | failed => exact h
  | root hroot hfresh =>
    intro above below hlink
    exact h above below (parent_root hforest hroot hfresh hlink)
  | child hparent hchild hfresh =>
    intro above below hlink hretired
    rcases parent_child hforest (lookup_some hparent).1 hchild hfresh hlink with hold|⟨rfl,rfl⟩
    · exact h above below hold hretired
    rw [hchild.issuing] at hretired
    cases hretired
  | @moved caID _ ca newState hfound hmove =>
    intro above below hlink hretired hactive
    obtain ⟨above',below',hold,habove,hbelow⟩ :=
      linked_modify (f := withState newState) (fun _ => rfl) (fun _ => rfl) hlink
    have hnew : newState≠.active := by
      rcases hmove with ⟨-,hstate⟩|⟨-,hstate,-⟩
      · rw [hstate]
        decide
      · rw [hstate]
        decide
    have hbelow' : below'.state=.active := by
      by_cases hid : below'.id=caID
      · rw [hbelow,if_pos hid] at hactive
        exact absurd hactive hnew
      · rw [hbelow,if_neg hid] at hactive
        exact hactive
    by_cases hid : above'.id=caID
    · rw [habove,if_pos hid] at hretired
      rcases hmove with ⟨-,hstate⟩|⟨-,-,hchildren⟩
      · rw [hstate] at hretired
        cases hretired
      · have hca : ca.id=above'.id := (lookup_some hfound).2.trans hid.symm
        exact hchildren below' hold.2.1 (hca ▸ hold.2.2) hbelow'
    · rw [habove,if_neg hid] at hretired
      exact h above' below' hold hretired hbelow'

theorem childrenDrained_runCalls (lib : X509Library) (history : List (Call×Surroundings)) :
    ChildrenDrained (runCalls lib [] history) := by
  have hboth : Hierarchy (runCalls lib [] history) ∧ ChildrenDrained (runCalls lib [] history) :=
    runCalls_keeps (I := fun rows => Hierarchy rows ∧ ChildrenDrained rows)
      (fun _ _ _ h _ hchange => ⟨hierarchy_change h.1 hchange,childrenDrained_change h.1 h.2 hchange⟩)
      ⟨forest_nil _ _,fun _ _ hlink => absurd hlink.1 List.not_mem_nil⟩ (along_any lib [] history)
  exact hboth.2

/-- After every sequence of calls, an active authority below a retired one is below a draining one
that is below the retired one; in particular it is no child of it. -/
theorem retired_drainedThrough (lib : X509Library) (history : List (Call×Surroundings)) :
    DrainedThrough (runCalls lib [] history) := by
  have hchildren := childrenDrained_runCalls lib history
  intro d above below hbelow hretired
  induction hbelow with
  | link hlink =>
    intro hactive
    exact absurd hactive (hchildren _ _ hlink hretired)
  | @down d above middle below hmiddle hlink ih =>
    intro hactive
    -- the parent of an active authority is not retired; climb while it is active itself
    cases hstate : middle.state with
    | retired => exact absurd hactive (hchildren _ _ hlink hstate)
    | retiring => exact ⟨d,1,middle,hmiddle,.link hlink,hstate⟩
    | active =>
      obtain ⟨d₁,d₂,draining,habove,hbelow,hdraining⟩ := ih hretired hstate
      exact ⟨d₁,d₂+1,draining,habove,.down hbelow hlink,hdraining⟩

/-- A chain of three whose first two are drained and whose first is then ended. -/
def drainedChain : List (Call×Surroundings) :=
  [sampleRoot "xxx",sampleChild "ica-r" "a" {},sampleChild "ica-a" "b" {},
    (.retire "ica-r" false,sampleEnv ""),(.retire "ica-a" false,sampleEnv ""),(.retire "ica-r" true,sampleEnv "")]

/-- The root of the chain is retired while its grandchild is active. -/
theorem retired_above_active : ¬Drained (runCalls sampleLibrary [] drainedChain) := by
  intro h
  have hchain : ∃ root∈runCalls sampleLibrary [] drainedChain,∃ middle∈runCalls sampleLibrary [] drainedChain,
      ∃ leaf∈runCalls sampleLibrary [] drainedChain,middle.parentCAID=some root.id ∧
        leaf.parentCAID=some middle.id ∧ root.state=.retired ∧ leaf.state=.active := by decide
  obtain ⟨root,hroot,middle,hmiddle,leaf,hleaf,hmr,hlm,hretired,hactive⟩ := hchain
  have habove := Below.down (.link ⟨hroot,hmiddle,hmr⟩) ⟨hmiddle,hleaf,hlm⟩
  exact h 2 root leaf habove hretired hactive

end Certctl.CaRetirement
