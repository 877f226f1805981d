import Certctl.AuditChain

/-!
# What the verifier of the audit chain notices

Someone with access to the table rewrites hashed columns of some rows and
deletes others, but leaves the stored hashes alone. The verifier notices
this exactly when a row was deleted before one that was kept, when the
columns of a kept row read differently as one text, or when the kept rows
are in another order. It misses the deletion of the last rows, since it
does not look at the head of the chain, and a change that moves a bar from
one column to the next.
-/

namespace Certctl.AuditTampering

open HashChain AuditChain
open List

/-- The table after tampering: a row is deleted or gets hashed columns, and keeps its hashes. -/
def tampered (tamper : AuditRow→Option AuditEvent) (rows : List AuditRow) : List AuditRow :=
  rows.filterMap fun row => (tamper row).map fun e => ⟨e,row.prev,row.hash⟩

def DeletedBeforeKept (tamper : AuditRow→Option AuditEvent) (rows : List AuditRow) : Prop :=
  ∃ front row later,rows=front++row::later ∧ tamper row=none ∧ ∃ kept∈later,(tamper kept).isSome=true

def ReadsDifferently (db : Database) (tamper : AuditRow→Option AuditEvent) (rows : List AuditRow) : Prop :=
  ∃ row∈rows,∃ e∈tamper row,columnsText db e≠columnsText db row.body

variable {db : Database} {tamper : AuditRow→Option AuditEvent} {row : AuditRow} {e : AuditEvent}

theorem tampered_cons_some (h : tamper row=some e) (rows : List AuditRow) :
    tampered tamper (row::rows)=⟨e,row.prev,row.hash⟩::tampered tamper rows := by
  rw [tampered,filterMap_cons_some (by rw [h]; rfl),tampered]

theorem tampered_cons_none (h : tamper row=none) (rows : List AuditRow) :
    tampered tamper (row::rows)=tampered tamper rows := by
  rw [tampered,filterMap_cons_none (by rw [h]; rfl),tampered]

variable {rows : List AuditRow}

theorem mem_tampered (hrow : row∈rows) (h : tamper row=some e) : ⟨e,row.prev,row.hash⟩∈tampered tamper rows :=
  mem_filterMap.mpr ⟨row,hrow,by rw [h]; rfl⟩

theorem tampered_hashes (tamper : AuditRow→Option AuditEvent) (rows : List AuditRow) :
    ((tampered tamper rows).map Link.hash).Sublist (rows.map Link.hash) := by
  induction rows with
  | nil => exact List.Sublist.refl _
  | cons row rows ih =>
    cases h : tamper row with
    | none =>
      rw [tampered_cons_none h]
      exact ih.cons _
    | some =>
      rw [tampered_cons_some h]
      exact ih.cons_cons _

/-- A chain of which the last rows are deleted and the others read the same is verified as it stands. -/
theorem verified_tampered {prev : Option String} (h : Verified (rowHash db) prev rows)
    (hsuffix : ¬DeletedBeforeKept tamper rows) (hsame : ¬ReadsDifferently db tamper rows) :
    Verified (rowHash db) prev (tampered tamper rows) := by
  induction rows generalizing prev with
  | nil => trivial
  | cons row rows ih =>
    obtain ⟨hprev,hhash,hrest⟩ := h
    cases hrow : tamper row with
    | none =>
      have hgone : tampered tamper rows=[] := by
        rw [tampered,filterMap_eq_nil_iff]
        intro later hlater
        cases hkept : tamper later with
        | none => rfl
        | some => exact absurd ⟨[],row,rows,rfl,hrow,later,hlater,by rw [hkept]; rfl⟩ hsuffix
      rw [tampered_cons_none hrow,hgone]
      trivial
    | some e =>
      have hreads : columnsText db e=columnsText db row.body := by
        by_contra hne
        exact hsame ⟨row,mem_cons_self,e,hrow,hne⟩
      have hrehash : rowHash db row.prev e=row.hash := by
        rw [← hhash,rowHash,rowHash,canonicalPayload,canonicalPayload,hreads]
      have hsuffix' : ¬DeletedBeforeKept tamper rows := by
        rintro ⟨front,deleted,later,rfl,hdeleted⟩
        exact hsuffix ⟨row::front,deleted,later,rfl,hdeleted⟩
      have hsame' : ¬ReadsDifferently db tamper rows := by
        rintro ⟨other,hother,hdiff⟩
        exact hsame ⟨other,mem_cons_of_mem row hother,hdiff⟩
      rw [tampered_cons_some hrow]
      exact ⟨hprev,hrehash,ih hrest hsuffix' hsame'⟩

theorem not_deletedBeforeKept (hcommits : Commits (rowHash db)) (h : Verified (rowHash db) none rows)
    (hbegin : (tampered tamper rows).map Link.hash<+:rows.map Link.hash) : ¬DeletedBeforeKept tamper rows := by
  rintro ⟨front,row,later,rfl,hdeleted,kept,hkept,hsome⟩
  obtain ⟨e,he⟩ := Option.isSome_iff_exists.mp hsome
  have hnodup := h.nodup hcommits
  have hmem : kept.hash∈(tampered tamper (front++row::later)).map Link.hash :=
    mem_map.mpr ⟨_,mem_tampered (mem_append_right _ (mem_cons_of_mem _ hkept)) he,rfl⟩
  have hfront : (front++[row]).map Link.hash<+:(front++row::later).map Link.hash :=
    ⟨later.map Link.hash,by rw [← map_append,append_assoc,singleton_append]⟩
  have hapart : kept.hash∉(front++[row]).map Link.hash := by
    intro hin
    rw [show front++row::later=(front++[row])++later by rw [append_assoc,singleton_append],
      map_append,nodup_append] at hnodup
    exact hnodup.2.2 _ hin _ (mem_map_of_mem hkept) rfl
  rcases prefix_or_prefix_of_prefix hbegin hfront with hshort|hlong
  · exact hapart (hshort.subset hmem)
  have hrow : row.hash∈(front++[row]).map Link.hash := mem_map_of_mem (mem_append_right _ mem_cons_self)
  obtain ⟨link,hlink,hhash⟩ := mem_map.mp (hlong.subset hrow)
  obtain ⟨origin,horigin,hkeeps⟩ := mem_filterMap.mp hlink
  obtain ⟨e',he',rfl⟩ := Option.map_eq_some_iff.mp hkeeps
  have hsame : origin=row := inj_on_of_nodup_map hnodup horigin (mem_append_right _ mem_cons_self) hhash
  rw [hsame,hdeleted] at he'
  cases he'

theorem not_reportsBreak_of_unnoticed {events : List AuditEvent}
    (hsuffix : ¬DeletedBeforeKept tamper (inserted db events).events)
    (hreads : ¬ReadsDifferently db tamper (inserted db events).events)
    (hordered : (tampered tamper (inserted db events).events).Pairwise (RowLe db)) :
    ¬reportsBreak db (tampered tamper (inserted db events).events) := by
  obtain ⟨bodies,hrows,-⟩ := chained_inserted db events
  have hwhole : Verified (rowHash db) none (inserted db events).events := hrows ▸ verified_chain none bodies
  rw [reportsBreak_iff,not_not,hordered.insertionSort_eq]
  exact verified_tampered hwhole hsuffix hreads

/-- Tampering with a table made by inserts is reported exactly when a row was deleted before one that
was kept, the columns of a kept row read differently, or the kept rows are out of order. -/
theorem tampering_reported_iff (hfree : CollisionFree db) (events : List AuditEvent)
    (tamper : AuditRow→Option AuditEvent) :
    reportsBreak db (tampered tamper (inserted db events).events) ↔
      DeletedBeforeKept tamper (inserted db events).events ∨ ReadsDifferently db tamper (inserted db events).events ∨
        ¬(tampered tamper (inserted db events).events).Pairwise (RowLe db) := by
  obtain ⟨bodies,hrows,-⟩ := chained_inserted db events
  have hcommits := rowHash_commits hfree
  have hwhole : Verified (rowHash db) none (inserted db events).events := hrows ▸ verified_chain none bodies
  rw [← not_iff_not,not_or,not_or,not_not]
  constructor
  · intro hunreported
    have hverified := not_not.mp (reportsBreak_iff.not.mp hunreported)
    obtain ⟨hsame,hbegin⟩ := hwhole.of_perm hcommits (tampered_hashes tamper _)
      (perm_insertionSort (RowLe db) _) hverified
    refine ⟨not_deletedBeforeKept hcommits hwhole hbegin,?_,hsame ▸ pairwise_walk db _⟩
    rintro ⟨row,hrow,e,he,hdiff⟩
    rw [hsame] at hverified
    have hnew := hverified.hash_eq (mem_tampered hrow he)
    have hold := hwhole.hash_eq hrow
    exact hdiff ((rowHash_eq_iff hfree).mp (hnew.trans hold.symm))
  · rintro ⟨hsuffix,hreads,hordered⟩
    exact not_reportsBreak_of_unnoticed hsuffix hreads hordered

section Sample

def sampleEvent (id actor actorType : String) (timestamp : ℤ) : AuditEvent :=
  {id := id,actor := actor,actorType := actorType,action := "renew",resourceType := "certificate",
    resourceID := "mc-1",details := none,timestamp := timestamp,eventCategory := .certLifecycle}

def sampleEvents : List AuditEvent := [sampleEvent "audit-1" "ann|ops" "User" 1,sampleEvent "audit-2" "bob" "User" 2]

def sampleChain : List AuditRow := (inserted sampleDatabase sampleEvents).events

def forgeActor (row : AuditRow) : Option AuditEvent :=
  some (if row.body.id="audit-1" then {row.body with actor := "eve"} else row.body)

/-- Another actor in the first of the two rows is reported. -/
theorem tampering_reported_actor :
    reportsBreak sampleDatabase (tampered forgeActor sampleChain) := by
  refine (tampering_reported_iff sampleDatabase_collisionFree sampleEvents forgeActor).mpr (Or.inr (Or.inl ?_))
  exact ⟨_,mem_cons_self,_,rfl,by decide⟩

def dropLast (row : AuditRow) : Option AuditEvent := if row.body.id="audit-2" then none else some row.body

def moveBar (row : AuditRow) : Option AuditEvent :=
  some (if row.body.id="audit-1" then {row.body with actor := "ann",actorType := "ops|User"} else row.body)

theorem sampleRows : ∃ first second,(inserted sampleDatabase sampleEvents).events=[first,second] ∧
    first.body=sampleEvent "audit-1" "ann|ops" "User" 1 ∧ second.body=sampleEvent "audit-2" "bob" "User" 2 :=
  ⟨_,_,rfl,rfl,rfl⟩

theorem dropLast_unreported : ¬reportsBreak sampleDatabase (tampered dropLast sampleChain) := by
  obtain ⟨first,second,hrows,hfirst,hsecond⟩ := sampleRows
  refine not_reportsBreak_of_unnoticed ?_ ?_ (by decide)
  · rw [hrows]
    rintro ⟨front,row,later,hsplit,hdeleted,kept,hkept,-⟩
    cases front with
    | nil =>
      cases hsplit
      rw [dropLast,hfirst] at hdeleted
      cases hdeleted
    | cons =>
      have hlength := congrArg List.length hsplit
      simp only [length_cons,length_nil,length_append] at hlength
      have hlater : later=[] := length_eq_zero_iff.mp (by omega)
      rw [hlater] at hkept
      cases hkept
  · rintro ⟨row,-,e,he,hdiff⟩
    simp only [dropLast] at he
    split at he
    · cases he
    cases he
    exact hdiff rfl

theorem moveBar_unreported : ¬reportsBreak sampleDatabase (tampered moveBar sampleChain) := by
  obtain ⟨first,second,hrows,hfirst,hsecond⟩ := sampleRows
  refine not_reportsBreak_of_unnoticed ?_ ?_ (by decide)
  · rintro ⟨front,row,later,-,hdeleted,-⟩
    cases hdeleted
  rw [hrows]
  rintro ⟨row,hrow,e,he,hdiff⟩
  cases he
  simp only [mem_cons,not_mem_nil,or_false] at hrow
  rcases hrow with rfl|rfl
  · rw [hfirst] at hdiff
    exact hdiff (by decide)
  · rw [hsecond] at hdiff
    exact hdiff (by decide)

/-- Neither the deletion of the last row nor a moved bar is reported. -/
theorem tampering_unreported : CollisionFree sampleDatabase ∧ sampleEvents.Pairwise (KeyLe sampleDatabase) ∧
    (tampered dropLast sampleChain).length=1 ∧
    ¬reportsBreak sampleDatabase (tampered dropLast sampleChain) ∧
    (tampered moveBar sampleChain).map (fun row => row.body.actor)=["ann","bob"] ∧
    ¬reportsBreak sampleDatabase (tampered moveBar sampleChain) :=
  ⟨sampleDatabase_collisionFree,by decide,by decide,dropLast_unreported,by decide,moveBar_unreported⟩

end Sample

end Certctl.AuditTampering
