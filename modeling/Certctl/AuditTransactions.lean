import Certctl.AuditChain

/-!
# Transactions that insert audit rows

The trigger of its first insert gives a transaction the row lock on the
head of the chain, and the lock is kept until the transaction ends. Its
rows and the head that it writes are seen by nobody else before the commit,
and an abort drops both.
-/

namespace Certctl.AuditTransactions

open HashChain AuditChain

variable {ι : Type} {db : Database}

/-- The transaction that holds the row lock, and the tables as it sees them. -/
structure Holder (ι : Type) where
  tx : ι
  view : AuditTables
  /-- The head that a trigger at work has read. -/
  headHash : Option String := none

/-- The committed tables, and the holder of the lock. -/
structure Transactions (ι : Type) where
  committed : AuditTables := {}
  holder : Option (Holder ι) := none

/-- What a transaction does. -/
inductive Statement where
  | select
  | insert (e : AuditEvent)
  | commit
  | abort

/-- One statement. While the lock is held, a select of another transaction waits. -/
inductive Step (db : Database) : Statement→Transactions ι→Transactions ι→Prop where
  | selectForUpdate (tx : ι) (committed : AuditTables) :
      Step db .select ⟨committed,none⟩ ⟨committed,some ⟨tx,committed,some committed.chainHead⟩⟩
  /-- The holder inserts another row. -/
  | selectAgain (tx : ι) (committed view : AuditTables) :
      Step db .select ⟨committed,some ⟨tx,view,none⟩⟩ ⟨committed,some ⟨tx,view,some view.chainHead⟩⟩
  /-- The trigger goes on with the head that it has read. After an insert that fails, only an abort is left. -/
  | insert {tx : ι} {committed view view' : AuditTables} {headHash : String} (e : AuditEvent) :
      insertEvent db {view with chainHead := headHash} e=.ok view' →
      Step db (.insert e) ⟨committed,some ⟨tx,view,some headHash⟩⟩ ⟨committed,some ⟨tx,view',none⟩⟩
  | commit (tx : ι) (committed view : AuditTables) : Step db .commit ⟨committed,some ⟨tx,view,none⟩⟩ ⟨view,none⟩
  | abort (h : Holder ι) (committed : AuditTables) : Step db .abort ⟨committed,some h⟩ ⟨committed,none⟩

/-- What the statements of a run, in their order, lead to. -/
inductive Run (db : Database) : List Statement→Transactions ι→Prop where
  | start : Run db [] {}
  | next {stmts : List Statement} {s s' : Transactions ι} {stmt : Statement} (h : Run db stmts s)
      (hstep : Step db stmt s s') : Run db (stmts++[stmt]) s'

/-- The committed tables and those of the holder are the chains of what was inserted in them, and a trigger has
read the current head. -/
structure Sound (db : Database) (kept : List AuditEvent×List AuditEvent) (s : Transactions ι) : Prop where
  committed : Chained db s.committed kept.1
  unlocked : s.holder=none → kept.2=[]
  view : ∀ h,s.holder=some h → Chained db h.view (kept.1++kept.2)
  head : ∀ h,s.holder=some h → ∀ headHash,h.headHash=some headHash → headHash=h.view.chainHead

variable {s s' : Transactions ι} {stmts : List Statement}

/-- The rows have an order in which each names the hash of the one before it, all
hashes are those of the payloads, and the head is the last of them. In this order they hold the events. -/
def Linear (db : Database) (tables : AuditTables) (bodies : List AuditEvent) : Prop :=
  ∃ order,order.Perm tables.events ∧ Verified (rowHash db) none order ∧
    tables.chainHead=(order.getLast?.map Link.hash).getD "" ∧ order.map Link.body=bodies

end Certctl.AuditTransactions
