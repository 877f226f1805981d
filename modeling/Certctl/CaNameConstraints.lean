import Certctl.CaHierarchy
import Mathlib.Algebra.Order.BigOperators.Group.List
import Mathlib.Algebra.Order.Group.Nat
import Mathlib.Data.List.Infix

/-!
# Name constraints in a hierarchy of authorities

The recorded constraints of an authority allow a DNS name that lies under
a permitted entry, or any name where no entry is permitted, unless it lies
under an excluded one. The check of a child against its parent keeps every
exclusion and keeps permitted entries within permitted entries, but lets a
child without permitted entries pass under a parent that has some. Apart
from such children, what an authority allows its ancestors allow too.
-/

namespace Certctl.CaNameConstraints

open RecordTable ParentLinks CaHierarchy
open List hiding lookup

def Under (name entry : String) : Prop := name=entry ∨ hasSuffix name ("."++entry)=true

instance (name entry : String) : Decidable (Under name entry) :=
  inferInstanceAs (Decidable (name=entry ∨ hasSuffix name ("."++entry)=true))

def UnderSome (name : String) (entries : List String) : Prop := ∃ entry∈entries,Under name entry

instance (name : String) (entries : List String) : Decidable (UnderSome name entries) :=
  inferInstanceAs (Decidable (∃ entry∈entries,Under name entry))

def Allowed (ncs : List NameConstraint) (name : String) : Prop :=
  (flattenPermitted ncs=[] ∨ UnderSome name (flattenPermitted ncs)) ∧ ¬UnderSome name (flattenExcluded ncs)

instance (ncs : List NameConstraint) (name : String) : Decidable (Allowed ncs name) :=
  inferInstanceAs (Decidable (_ ∧ _))

/-- What an authority allows, every authority above it allows. -/
def NeverWidens (rows : Table) : Prop :=
  ∀ d above below name,Above rows d above below → Allowed below.nameConstraints name →
    Allowed above.nameConstraints name

/-- The condition on a call: a child of an authority with permitted entries has permitted entries. -/
def NamesStep (rows : Table) : Call→Prop
  | .createChild parentCAID _ options => ∀ opts∈options,∀ parent∈lookup IntermediateCA.id parentCAID rows,
      flattenPermitted parent.nameConstraints≠[] → flattenPermitted opts.nameConstraints≠[]
  | .createRoot _ _ _ _ _ => True
  | .retire _ _ => True

instance (rows : Table) : (call : Call)→Decidable (NamesStep rows call)
  | .createChild parentCAID _ options => inferInstanceAs (Decidable (∀ opts∈options,
      ∀ parent∈lookup IntermediateCA.id parentCAID rows,
        flattenPermitted parent.nameConstraints≠[] → flattenPermitted opts.nameConstraints≠[]))
  | .createRoot _ _ _ _ _ => isTrue trivial
  | .retire _ _ => isTrue trivial

variable {name : String}

theorem under_iff {entry : String} :
    Under name entry ↔ name.toList=entry.toList ∨ '.' ::entry.toList<:+name.toList := by
  have hlist : ("."++entry).toList= '.' ::entry.toList := by
    rw [String.toList_append]
    rfl
  rw [Under,hasSuffix,isSuffixOf_iff_suffix,hlist,String.toList_inj]

variable {a b : String}

theorem Under.trans {c : String} (hab : Under a b) (hbc : Under b c) : Under a c := by
  rw [under_iff] at hab hbc ⊢
  rcases hab with hab|hab
  · rw [hab]
    exact hbc
  have htail : b.toList<:+a.toList := (suffix_cons _ _).trans hab
  rcases hbc with hbc|hbc
  · rw [← hbc]
    exact .inr hab
  · exact .inr (hbc.trans htail)

variable {entries : List String}

theorem isPermittedUnderParent_iff {candidate : String} :
    isPermittedUnderParent candidate entries=true ↔ UnderSome candidate entries := by
  simp only [isPermittedUnderParent,any_eq_true,Bool.or_eq_true,decide_eq_true_eq,UnderSome,Under]

theorem isExcludedByChild_iff {parentExcluded : String} :
    isExcludedByChild parentExcluded entries=true ↔ UnderSome parentExcluded entries := by
  simp only [isExcludedByChild,any_eq_true,Bool.or_eq_true,decide_eq_true_eq,UnderSome,Under]

theorem UnderSome.of_under (hab : Under a b) (hb : UnderSome b entries) : UnderSome a entries := by
  obtain ⟨entry,hentry,hunder⟩ := hb
  exact ⟨entry,hentry,hab.trans hunder⟩

variable {quote : String→String} {parent child : List NameConstraint}

/-- What the check of a child against its parent established. -/
theorem validate_ok (h : validateNameConstraintsSubset quote parent child=.ok ()) :
    (flattenPermitted parent≠[] → ∀ p∈flattenPermitted child,UnderSome p (flattenPermitted parent)) ∧
      ∀ pe∈flattenExcluded parent,UnderSome pe (flattenExcluded child) := by
  simp only [validateNameConstraintsSubset] at h
  split at h
  · cases h
  rename_i hpermitted
  split at h
  · cases h
  rename_i hexcluded
  constructor
  · intro hsome p hp
    rw [if_neg hsome,find?_eq_none] at hpermitted
    have hpass := hpermitted p hp
    rw [Bool.not_eq_true',Bool.not_eq_false] at hpass
    exact isPermittedUnderParent_iff.mp hpass
  · intro pe hpe
    rw [find?_eq_none] at hexcluded
    have hpass := hexcluded pe hpe
    rw [Bool.not_eq_true',Bool.not_eq_false] at hpass
    exact isExcludedByChild_iff.mp hpass

theorem exists_not_underSome (entries : List String) : ∃ name,¬UnderSome name entries := by
  refine ⟨String.ofList (List.replicate ((entries.map String.length).sum+1) 'x'),?_⟩
  rintro ⟨entry,hentry,hunder⟩
  have hlength : entry.length≤(entries.map String.length).sum := le_sum_of_mem (mem_map_of_mem hentry)
  rw [under_iff,String.toList_ofList] at hunder
  rcases hunder with hsame|hsuffix
  · have hlen := congrArg List.length hsame
    rw [length_replicate,String.length_toList] at hlen
    omega
  · have hdot := eq_of_mem_replicate (hsuffix.subset mem_cons_self)
    cases hdot

/-- A child that passes the check allows no more than its parent exactly when it has permitted
entries if its parent has some. -/
theorem narrows_iff (h : validateNameConstraintsSubset quote parent child=.ok ()) :
    (∀ name,Allowed child name → Allowed parent name) ↔ (flattenPermitted parent≠[] → flattenPermitted child≠[]) := by
  obtain ⟨hpermitted,hexcluded⟩ := validate_ok h
  constructor
  · intro hnarrows hparent hchild
    obtain ⟨name,hname⟩ := exists_not_underSome (flattenPermitted parent++flattenExcluded child)
    have hallowed : Allowed child name := by
      refine ⟨.inl hchild,fun hex => hname ?_⟩
      obtain ⟨entry,hentry,hunder⟩ := hex
      exact ⟨entry,mem_append_right _ hentry,hunder⟩
    rcases (hnarrows name hallowed).1 with hempty|⟨entry,hentry,hunder⟩
    · exact hparent hempty
    · exact hname ⟨entry,mem_append_left _ hentry,hunder⟩
  · intro hsome name hallowed
    obtain ⟨hin,hout⟩ := hallowed
    constructor
    · by_cases hparent : flattenPermitted parent=[]
      · exact .inl hparent
      rcases hin with hempty|⟨entry,hentry,hunder⟩
      · exact absurd hempty (hsome hparent)
      · exact .inr ((hpermitted hparent entry hentry).of_under hunder)
    · rintro ⟨entry,hentry,hunder⟩
      exact hout ((hexcluded entry hentry).of_under hunder)

/-- Name constraints never widen in a hierarchy built by allowed calls. -/
theorem nameConstraints_neverWiden {lib : X509Library} {history : List (Call×Surroundings)}
    (halong : Along lib NamesStep [] history) : NeverWidens (runCalls lib [] history) := by
  obtain ⟨-,hlinks⟩ := runCalls_links (P := fun _ => True)
    (R := fun above below => ∀ name,Allowed below.nameConstraints name → Allowed above.nameConstraints name)
    (fun _ _ h => h) (fun _ _ _ _ h => h) (fun _ _ _ _ _ _ _ _ _ => trivial)
    (fun _ _ _ opts parent _ hok hparent _ hrow =>
      ⟨trivial,hrow.recorded ▸ (narrows_iff hrow.names).mpr (hok opts rfl parent hparent)⟩) halong
  intro d above below name hbelow hallowed
  exact below_trans hlinks (fun _ _ _ hab hbc name hc => hab name (hbc name hc)) hbelow name hallowed

/-- A root, a child with a permitted entry and a grandchild with a narrower one. -/
def narrowingChain : List (Call×Surroundings) :=
  [sampleRoot "xxx",sampleChild "ica-r" "a" {nameConstraints := [{permitted := ["example.com"]}]},
    sampleChild "ica-a" "b" {nameConstraints := [{permitted := ["dev.example.com"]}]}]

/-- The calls of this chain are allowed, all three succeed, and names do not widen. -/
theorem nameConstraints_neverWiden_chain :
    (runCalls sampleLibrary [] narrowingChain).length=3 ∧ NeverWidens (runCalls sampleLibrary [] narrowingChain) :=
  ⟨by decide,nameConstraints_neverWiden (by decide)⟩

def wideningChain : List (Call×Surroundings) :=
  [sampleRoot "xxx",sampleChild "ica-r" "a" {nameConstraints := [{permitted := ["example.com"]}]},
    sampleChild "ica-a" "b" {}]

/-- The grandchild allows a name that its parent does not. -/
theorem nameConstraints_widen : ¬NeverWidens (runCalls sampleLibrary [] wideningChain) := by
  intro h
  obtain ⟨above,habove,below,hbelow,hnames,hallowed,hrefused⟩ : ∃ above∈runCalls sampleLibrary [] wideningChain,
      ∃ below∈runCalls sampleLibrary [] wideningChain,below.parentCAID=some above.id ∧
        Allowed below.nameConstraints "evil.com" ∧ ¬Allowed above.nameConstraints "evil.com" := by decide
  exact hrefused (h 1 above below "evil.com" (.link ⟨habove,hbelow,hnames⟩) hallowed)

end Certctl.CaNameConstraints
