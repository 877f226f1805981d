import Certctl.HashChain
import Certctl.DomainRecords

/-!
# The hash chain of the audit table

Every insert into the audit table runs a trigger that reads the head of
the chain under a row lock, stores it as the hash before the new row,
hashes the row together with it and makes the result the new head. The
verifier walks the rows in the order of their timestamps and identifiers,
which need not be the order of the inserts, and compares both hashes of
every row. It does not look at the head.
-/

namespace Certctl.AuditChain

open DomainRecords HashChain
open List

/-- The categories of audit events. -/
inductive EventCategory where
  | certLifecycle
  | auth
  | config
deriving DecidableEq

def EventCategory.text : EventCategory→String
  | certLifecycle => "cert_lifecycle"
  | auth => "auth"
  | config => "config"

/-- The hashed columns of an audit row. -/
structure AuditEvent where
  id : String
  actor : String
  actorType : String
  action : String
  resourceType : String
  resourceID : String
  /-- Details as the text of a JSON value, if any. -/
  details : Option String
  /-- Microseconds since the Unix epoch. -/
  timestamp : ℤ
  eventCategory : EventCategory
deriving DecidableEq

/-- A row: the hashed columns, the hash before and the row's own hash. -/
abbrev AuditRow := Link AuditEvent String

/-- The audit table in the order of the inserts, and the head of the chain, empty at first. -/
structure AuditTables where
  events : List AuditRow := []
  chainHead : String := ""

/-- What the database supplies: the order of identifiers, the text of a timestamp and the digest. -/
structure Database where
  /-- The collation's order of identifiers. -/
  idLe : String→String→Bool
  idLe_total : ∀ a b,idLe a b=true ∨ idLe b a=true
  idLe_trans : ∀ a b c,idLe a b=true → idLe b c=true → idLe a c=true
  /-- A timestamp in coordinated universal time, with microseconds. -/
  toChar : ℤ→String
  /-- The digest in hexadecimal digits. -/
  sha256Hex : String→String
  sha256Hex_ne_empty : ∀ text,sha256Hex text≠""
  /-- The separator is no digit. -/
  sha256Hex_bar : ∀ text,'|'∉(sha256Hex text).toList

def CollisionFree (db : Database) : Prop := Function.Injective db.sha256Hex

def columnsText (db : Database) (e : AuditEvent) : String :=
  e.id++"|"++e.actor++"|"++e.actorType++"|"++e.action++"|"++e.resourceType++"|"++e.resourceID++"|"++
    e.details.getD ""++"|"++db.toChar e.timestamp++"|"++e.eventCategory.text

def canonicalPayload (db : Database) (prevHash : Option String) (e : AuditEvent) : String :=
  prevHash.getD ""++"|"++columnsText db e

def rowHash (db : Database) (prevHash : Option String) (e : AuditEvent) : String :=
  db.sha256Hex (canonicalPayload db prevHash e)

def computeHashChain (db : Database) (headHash : String) (e : AuditEvent) : AuditRow :=
  let prevHash := if headHash="" then none else some headHash
  ⟨e,prevHash,rowHash db prevHash e⟩

/-- Insert a row; the trigger runs under the lock on the head. -/
def insertEvent (db : Database) (tables : AuditTables) (e : AuditEvent) : Try AuditTables :=
  if tables.events.any fun row => row.body.id=e.id then
    .error ⟨"failed to create audit event: duplicate key",none⟩
  else
    let row := computeHashChain db tables.chainHead e
    .ok ⟨tables.events++[row],row.hash⟩

def afterInsert (db : Database) (tables : AuditTables) (e : AuditEvent) : AuditTables :=
  match insertEvent db tables e with
  | .ok tables' => tables'
  | .error _ => tables

def inserted (db : Database) (events : List AuditEvent) : AuditTables := events.foldl (afterInsert db) {}

/-- The order of the walk. -/
def KeyLe (db : Database) (a b : AuditEvent) : Prop :=
  a.timestamp<b.timestamp ∨ (a.timestamp=b.timestamp ∧ db.idLe a.id b.id=true)

instance (db : Database) (a b : AuditEvent) : Decidable (KeyLe db a b) :=
  inferInstanceAs (Decidable (a.timestamp<b.timestamp ∨ (a.timestamp=b.timestamp ∧ db.idLe a.id b.id=true)))

def RowLe (db : Database) (a b : AuditRow) : Prop := KeyLe db a.body b.body

instance (db : Database) : DecidableRel (RowLe db) := fun a b => inferInstanceAs (Decidable (KeyLe db a.body b.body))

/-- What verification of the chain reports. -/
structure ChainVerdict where
  firstBreakID : Option String
  /-- Its position, or minus one. -/
  firstBreakPos : ℤ
  rowCount : ℕ
deriving DecidableEq

def verifyLoop (db : Database) : String→ℕ→List AuditRow→ChainVerdict
  | _,pos,[] => ⟨none,-1,pos⟩
  | expected,pos,r::rest =>
    if (pos=0 ∧ r.prev≠none) ∨ (pos>0 ∧ r.prev≠some expected) then ⟨some r.body.id,pos,pos+1⟩
    else if rowHash db r.prev r.body≠r.hash then ⟨some r.body.id,pos,pos+1⟩
    else verifyLoop db r.hash (pos+1) rest

def verifyChain (db : Database) (rows : List AuditRow) : ChainVerdict :=
  verifyLoop db "" 0 (rows.insertionSort (RowLe db))

def reportsBreak (db : Database) (rows : List AuditRow) : Prop := (verifyChain db rows).firstBreakID≠none

variable {db : Database} {rows : List AuditRow}

theorem verifyLoop_none_iff {expected : String} {pos : ℕ} : (verifyLoop db expected pos rows).firstBreakID=none ↔
      Verified (rowHash db) (if pos=0 then none else some expected) rows := by
  induction rows generalizing expected pos with
  | nil => exact ⟨fun _ => trivial,fun _ => rfl⟩
  | cons r rest ih =>
    have hlink : ((pos=0 ∧ r.prev≠none) ∨ (pos>0 ∧ r.prev≠some expected)) ↔
        r.prev≠(if pos=0 then none else some expected) := by
      by_cases hpos : pos=0
      · simp [hpos]
      · simp [hpos,Nat.pos_of_ne_zero hpos]
    simp only [verifyLoop,hlink]
    by_cases hprev : r.prev=(if pos=0 then none else some expected)
    · by_cases hhash : rowHash db r.prev r.body=r.hash
      · rw [if_neg (not_not.mpr hprev),if_neg (not_not.mpr hhash),ih]
        exact ⟨fun h => ⟨hprev,hhash,h⟩,fun h => h.2.2⟩
      · rw [if_neg (not_not.mpr hprev),if_pos hhash]
        exact ⟨fun h => (by cases h),fun h => absurd h.2.1 hhash⟩
    · rw [if_pos hprev]
      exact ⟨fun h => (by cases h),fun h => absurd h.1 hprev⟩

theorem reportsBreak_iff : reportsBreak db rows ↔ ¬Verified (rowHash db) none (rows.insertionSort (RowLe db)) := by
  rw [reportsBreak,verifyChain,ne_eq,verifyLoop_none_iff,if_pos rfl]

theorem pairwise_walk (db : Database) (rows : List AuditRow) : (rows.insertionSort (RowLe db)).Pairwise (RowLe db) := by
  have hlex (a b : AuditRow) : RowLe db a b ↔
      Prod.Lex (·<·) (db.idLe · ·=true) (a.body.timestamp,a.body.id) (b.body.timestamp,b.body.id) := by
    rw [Prod.lex_def,RowLe,KeyLe]
  have hids : Std.Total (db.idLe · ·=true) := ⟨db.idLe_total⟩
  have hchain : IsTrans String (db.idLe · ·=true) := ⟨db.idLe_trans⟩
  have htotal : Std.Total (RowLe db) := by
    refine ⟨fun a b => ?_⟩
    rw [hlex,hlex]
    exact total_of _ _ _
  have htrans : IsTrans AuditRow (RowLe db) := by
    refine ⟨fun a b c hab hbc => ?_⟩
    rw [hlex] at hab hbc ⊢
    exact hab.trans hbc
  exact pairwise_insertionSort (RowLe db) rows

variable {a b : List Char}

theorem eq_of_bar {x y : List Char} (ha : '|'∉a) (hb : '|'∉b) (h : a++ '|' ::x=b++ '|' ::y) : a=b := by
  induction a generalizing b with
  | nil =>
    cases b with
    | nil => rfl
    | cons =>
      rw [nil_append,cons_append,List.cons.injEq] at h
      exact absurd (h.1 ▸ mem_cons_self) hb
  | cons d a ih =>
    cases b with
    | nil =>
      rw [nil_append,cons_append,List.cons.injEq] at h
      exact absurd (h.1 ▸ mem_cons_self) ha
    | cons c =>
      rw [cons_append,cons_append,List.cons.injEq] at h
      have hrest := ih (fun hmem => ha (mem_cons_of_mem d hmem)) (fun hmem => hb (mem_cons_of_mem c hmem)) h.2
      rw [h.1,hrest]

theorem append_bar_inj {a b x y : String} (ha : '|'∉a.toList) (hb : '|'∉b.toList) (h : a++"|"++x=b++"|"++y) : a=b := by
  have hlist := congrArg String.toList h
  simp only [String.toList_append,append_assoc] at hlist
  exact String.toList_inj.mp (eq_of_bar ha hb hlist)

theorem rowHash_commits (hfree : CollisionFree db) : Commits (rowHash db) where
  root prev b b' c h := by
    have hpayload : ""++"|"++columnsText db b=rowHash db prev c++"|"++columnsText db b' := hfree h
    have hempty := append_bar_inj (by simp) (db.sha256Hex_bar _) hpayload
    exact db.sha256Hex_ne_empty _ hempty.symm
  next p p' b b' c c' h := by
    have hpayload : rowHash db p c++"|"++columnsText db b=rowHash db p' c'++"|"++columnsText db b' := hfree h
    exact append_bar_inj (db.sha256Hex_bar _) (db.sha256Hex_bar _) hpayload

variable {e : AuditEvent}

theorem rowHash_eq_iff (hfree : CollisionFree db) {prev : Option String} {e' : AuditEvent} :
    rowHash db prev e=rowHash db prev e' ↔ columnsText db e=columnsText db e' := by
  constructor
  · intro h
    have hpayload : prev.getD ""++"|"++columnsText db e=prev.getD ""++"|"++columnsText db e' := hfree h
    have hlist := congrArg String.toList hpayload
    simp only [String.toList_append] at hlist
    exact String.toList_inj.mp (append_cancel_left hlist)
  · intro h
    rw [rowHash,rowHash,canonicalPayload,canonicalPayload,h]

def Chained (db : Database) (tables : AuditTables) (bodies : List AuditEvent) : Prop :=
  tables.events=chain (rowHash db) none bodies ∧ tables.chainHead=(tip (rowHash db) none bodies).getD ""

theorem tip_getD_eq_empty (db : Database) (bodies : List AuditEvent) :
    (tip (rowHash db) none bodies).getD ""="" ↔ tip (rowHash db) none bodies=none := by
  induction bodies using List.reverseRecOn with
  | nil => exact ⟨fun _ => rfl,fun _ => rfl⟩
  | append_singleton bodies b _ =>
    rw [tip_append]
    exact ⟨fun h => absurd h (db.sha256Hex_ne_empty _),fun h => (by cases h)⟩

variable {tables : AuditTables} {bodies : List AuditEvent}

theorem Chained.insert {tables' : AuditTables}
    (h : Chained db tables bodies) (hinsert : insertEvent db tables e=.ok tables') :
    Chained db tables' (bodies++[e]) := by
  obtain ⟨hrows,hhead⟩ := h
  have hprev : (if tables.chainHead="" then none else some tables.chainHead)=tip (rowHash db) none bodies := by
    rw [hhead]
    cases htip : tip (rowHash db) none bodies with
    | none => rfl
    | some last =>
      have hne : last≠"" := by
        intro hlast
        have hnone := (tip_getD_eq_empty db bodies).mp (by rw [htip,Option.getD_some,hlast])
        rw [htip] at hnone
        cases hnone
      rw [Option.getD_some,if_neg hne]
  simp only [insertEvent] at hinsert
  split at hinsert
  · cases hinsert
  cases hinsert
  simp only [computeHashChain,hprev]
  exact ⟨by rw [hrows,chain_append],by rw [tip_append,Option.getD_some]⟩

theorem chained_inserted (db : Database) (events : List AuditEvent) :
    ∃ bodies,Chained db (inserted db events) bodies := by
  induction events using List.reverseRecOn with
  | nil => exact ⟨[],rfl,rfl⟩
  | append_singleton events e ih =>
    obtain ⟨bodies,hbodies⟩ := ih
    rw [inserted,foldl_append,foldl_cons,← inserted,afterInsert]
    cases hinsert : insertEvent db (inserted db events) e with
    | error => exact ⟨bodies,hbodies⟩
    | ok => exact ⟨bodies++[e],hbodies.insert hinsert⟩

theorem not_reportsBreak_of_ordered (h : Chained db tables bodies)
    (hordered : tables.events.Pairwise (RowLe db)) : ¬reportsBreak db tables.events := by
  rw [reportsBreak_iff,not_not,hordered.insertionSort_eq,h.1]
  exact verified_chain none bodies

theorem reportsBreak_chain_iff (hfree : CollisionFree db)
    (h : Chained db tables bodies) : reportsBreak db tables.events ↔ ¬tables.events.Pairwise (RowLe db) := by
  constructor
  · intro hbreak hordered
    exact not_reportsBreak_of_ordered h hordered hbreak
  · intro hnot
    rw [reportsBreak_iff]
    intro hverified
    have hwhole : Verified (rowHash db) none tables.events := h.1 ▸ verified_chain none bodies
    have hsame := (hwhole.of_perm (rowHash_commits hfree) (List.Sublist.refl _)
      (perm_insertionSort (RowLe db) tables.events) hverified).1
    exact hnot (hsame ▸ pairwise_walk db tables.events)

section Sample

/-- A digest without collisions: every character becomes two, neither of them a bar. -/
def sampleHex (text : String) : String :=
  String.ofList ('x' ::text.toList.flatMap fun c => if c= '|' then ['0','0'] else ['1',c])

/-- Characters are told apart by their two characters. -/
theorem flatMap_pairs_injective (h : (a.flatMap fun c => if c= '|' then ['0','0'] else ['1',c])=
      b.flatMap fun c => if c= '|' then ['0','0'] else ['1',c]) : a=b := by
  induction a generalizing b with
  | nil =>
    cases b with
    | nil => rfl
    | cons =>
      rw [flatMap_cons] at h
      split at h <;> cases h
  | cons c a ih =>
    cases b with
    | nil =>
      rw [flatMap_cons] at h
      split at h <;> cases h
    | cons d =>
      rw [flatMap_cons,flatMap_cons] at h
      by_cases hc : c= '|'
      · by_cases hd : d= '|'
        · rw [if_pos hc,if_pos hd] at h
          rw [hc,hd,ih (append_cancel_left h)]
        · rw [if_pos hc,if_neg hd] at h
          cases h
      by_cases hd : d= '|'
      · rw [if_neg hc,if_pos hd] at h
        cases h
      rw [if_neg hc,if_neg hd] at h
      simp only [cons_append,List.cons.injEq,true_and] at h
      rw [h.1,ih h.2]

def sampleDatabase : Database where
  idLe a b := decide (a.toList.length≤b.toList.length)
  idLe_total a b := by
    rcases le_total a.toList.length b.toList.length with h|h
    · exact .inl (decide_eq_true h)
    · exact .inr (decide_eq_true h)
  idLe_trans a b c hab hbc := decide_eq_true ((of_decide_eq_true hab).trans (of_decide_eq_true hbc))
  toChar t := toString t
  sha256Hex := sampleHex
  sha256Hex_ne_empty text h := by
    have hlist := congrArg String.toList h
    rw [sampleHex,String.toList_ofList] at hlist
    cases hlist
  sha256Hex_bar text h := by
    rw [sampleHex,String.toList_ofList,mem_cons,mem_flatMap] at h
    rcases h with h|⟨c,-,h⟩
    · cases h
    by_cases hc : c= '|'
    · rw [if_pos hc] at h
      revert h
      decide
    rw [if_neg hc] at h
    simp only [mem_cons,not_mem_nil,or_false] at h
    rcases h with h|h
    · cases h
    · exact hc h.symm

theorem sampleDatabase_collisionFree : CollisionFree sampleDatabase := by
  intro a b h
  have hlist := congrArg String.toList (show sampleHex a=sampleHex b from h)
  rw [sampleHex,sampleHex,String.toList_ofList,String.toList_ofList,List.cons.injEq] at hlist
  exact String.toList_inj.mp (flatMap_pairs_injective hlist.2)

end Sample

end Certctl.AuditChain
