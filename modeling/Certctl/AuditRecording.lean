import Certctl.AtomicInterleaving
import Certctl.AuditChain

/-!
# Recording audit events at the same time

A call that records an event takes an identifier and the time from its own
clock reading and inserts the row later. Inserts are one step each, since
the trigger holds the lock on the head of the chain. The chain follows the
order of the inserts, the verifier the order of the readings: it passes
the table as long as no insert is overtaken by one with a later reading.
-/

namespace Certctl.AuditRecording

open AtomicProgram AtomicInterleaving DomainRecords AuditChain

/-- The steps of a recording call. -/
inductive AuditOp where
  | generateID
  | now
  | create (event : AuditEvent)

/-- The tables with the clock in nanoseconds and the counter of identifiers. -/
structure AuditState where
  tables : AuditTables := {}
  clock : Time
  idCounter : ℕ := 0

/-- What the environment decides at a step. -/
structure AuditChoice where
  /-- How far the clock has moved. -/
  elapsed : ℕ := 0
  fault : Err := none

abbrev AuditRes : AuditOp→Type
  | .generateID => String
  | .now => Time
  | .create _ => Try Unit

def auditPerform (db : Database) : (op : AuditOp)→AuditChoice→AuditState→Option (AuditRes op×AuditState)
  | .generateID,c,s =>
    let clock := s.clock+c.elapsed
    let counter := s.idCounter+1
    some ("audit-"++toString clock++"-"++toString counter,{s with clock := clock,idCounter := counter})
  | .now,c,s => some (s.clock+c.elapsed,{s with clock := s.clock+c.elapsed})
  | .create event,c,s =>
    match c.fault with
    | some err => some (.error (err.wrapped "failed to create audit event: "),s)
    | none =>
      match insertEvent db s.tables event with
      | .error err => some (.error err,s)
      | .ok tables => some (.ok (),{s with tables := tables})

abbrev auditStore (db : Database) : Store := ⟨AuditOp,AuditRes,AuditState,AuditChoice,auditPerform db⟩

/-- The arguments of one audit record. -/
structure RecordCall where
  actor : String
  actorType : String
  action : String
  eventCategory : Option EventCategory := none
  resourceType : String
  resourceID : String
  /-- The redacted details as the text of a JSON value. -/
  details : String

/-- The stored time: the database keeps microseconds and rounds halves to even. -/
def toMicros (t : Time) : ℤ := (t+499+t/1000%2)/1000

def RecordCall.event (call : RecordCall) (id : String) (timestamp : Time) : AuditEvent :=
  {id := id,actor := call.actor,actorType := call.actorType,action := call.action,
    resourceType := call.resourceType,resourceID := call.resourceID,details := some call.details,
    timestamp := toMicros timestamp,eventCategory := call.eventCategory.getD .certLifecycle}

def recordEventWithCategory (db : Database) (call : RecordCall) : Prog (auditStore db) (Try Unit) := do
  let id ← Prog.perform (S := auditStore db) .generateID
  let timestamp ← Prog.perform (S := auditStore db) .now
  let outcome ← Prog.perform (S := auditStore db) (.create (call.event id timestamp))
  match outcome with
  | .error err => return .error (err.wrapped "failed to record audit event: ")
  | .ok _ => return .ok ()

/-- The condition on steps: a row is inserted after the rows that are before it in the walk. -/
def NotOvertaken (db : Database) {ι : Type} : StepCondition (auditStore db) ι (Try Unit) := fun cfg _ op _ =>
  match op with
  | .create event => ∀ row∈cfg.state.tables.events,KeyLe db row.body event
  | _ => True

variable {db : Database}

/-- A step leaves the tables alone or inserts the row it is about. -/
theorem tables_step {op : AuditOp} {c : AuditChoice} {s s' : AuditState} {r : AuditRes op}
    (hperform : auditPerform db op c s=some (r,s')) :
    s'.tables=s.tables ∨ ∃ event,op=.create event ∧ insertEvent db s.tables event=.ok s'.tables := by
  cases op with
  | generateID | now =>
    cases hperform
    exact .inl rfl
  | create event =>
    simp only [auditPerform] at hperform
    split at hperform
    · cases hperform
      exact .inl rfl
    split at hperform
    · cases hperform
      exact .inl rfl
    rename_i hinsert
    cases hperform
    exact .inr ⟨event,rfl,hinsert⟩

theorem ordered_insert {tables tables' : AuditTables} {event : AuditEvent}
    (hinsert : insertEvent db tables event=.ok tables') (hordered : tables.events.Pairwise (RowLe db))
    (hlast : ∀ row∈tables.events,KeyLe db row.body event) : tables'.events.Pairwise (RowLe db) := by
  rw [insertEvent] at hinsert
  split at hinsert
  · cases hinsert
  cases hinsert
  rw [List.pairwise_append]
  refine ⟨hordered,List.pairwise_singleton _ _,fun row hrow new hnew => ?_⟩
  rw [List.mem_singleton.mp hnew]
  exact hlast row hrow

section Runs

variable {ι : Type} [DecidableEq ι] (calls : ι→RecordCall) (clock : Time) (idCounter : ℕ)

/-- Any number of recording calls, none of which has begun, over empty tables. -/
def recording (db : Database) : Config (auditStore db) ι (Try Unit) :=
  initial (fun i => recordEventWithCategory db (calls i)) ⟨{},clock,idCounter⟩

variable {calls clock idCounter} {cfg : Config (auditStore db) ι (Try Unit)}

theorem chained_of_reach {ok : StepCondition (auditStore db) ι (Try Unit)}
    (hreach : Reach ok (recording calls clock idCounter db) cfg) : ∃ bodies,Chained db cfg.state.tables bodies := by
  refine reach_invariant (I := fun (cfg : Config (auditStore db) ι (Try Unit)) =>
    ∃ bodies,Chained db cfg.state.tables bodies) ⟨[],rfl,rfl⟩ ?_ hreach
  rintro a _ ⟨bodies,hbodies⟩ ⟨hthread,hok,hperform⟩
  rcases tables_step hperform with hsame|⟨event,-,hinsert⟩
  · exact ⟨bodies,by rw [Config.advance,hsame]; exact hbodies⟩
  · exact ⟨_,hbodies.insert hinsert⟩

theorem ordered_of_reach (hreach : Reach (NotOvertaken db) (recording calls clock idCounter db) cfg) :
    cfg.state.tables.events.Pairwise (RowLe db) := by
  refine reach_invariant (I := fun (cfg : Config (auditStore db) ι (Try Unit)) =>
    cfg.state.tables.events.Pairwise (RowLe db)) List.Pairwise.nil ?_ hreach
  rintro a _ hordered ⟨hthread,hok,hperform⟩
  rcases tables_step hperform with hsame|⟨event,rfl,hinsert⟩
  · rw [Config.advance,hsame]
    exact hordered
  · exact ordered_insert hinsert hordered hok

/-- The verifier reports no break in any state of a run in which no insert is overtaken. -/
theorem no_false_alarm (hreach : Reach (NotOvertaken db) (recording calls clock idCounter db) cfg) :
    ¬reportsBreak db cfg.state.tables.events := by
  obtain ⟨bodies,hbodies⟩ := chained_of_reach hreach
  exact not_reportsBreak_of_ordered hbodies (ordered_of_reach hreach)

theorem reportsBreak_iff_overtaken (hfree : CollisionFree db)
    (hreach : Reach anyStep (recording calls clock idCounter db) cfg) :
    reportsBreak db cfg.state.tables.events ↔ ¬cfg.state.tables.events.Pairwise (RowLe db) := by
  obtain ⟨bodies,hbodies⟩ := chained_of_reach hreach
  exact reportsBreak_chain_iff hfree hbodies

end Runs

def sampleCalls (_ : Bool) : RecordCall :=
  {actor := "ann",actorType := "User",action := "renew",resourceType := "certificate",resourceID := "mc-1",details := "{}"}

def stepAfter (call : Bool) (elapsed : ℕ) : Bool×AuditChoice := (call,{elapsed := elapsed})

instance {ι : Type} (cfg : Config (auditStore sampleDatabase) ι (Try Unit)) (i : ι) (op : AuditOp)
    (c : AuditChoice) : Decidable (NotOvertaken sampleDatabase cfg i op c) :=
  match op with
  | .create event => inferInstanceAs (Decidable (∀ row∈cfg.state.tables.events,KeyLe sampleDatabase row.body event))
  | .generateID => isTrue trivial
  | .now => isTrue trivial

/-- The second call begins after the first has inserted. -/
def oneAfterTheOther : List (Bool×AuditChoice) :=
  [stepAfter false 0,stepAfter false 1000,stepAfter false 0,stepAfter true 0,stepAfter true 1000,stepAfter true 0]

/-- One after the other, both rows are stored and the verifier reports no break. -/
theorem no_false_alarm_sequential : ∃ cfg,
    Reach (NotOvertaken sampleDatabase) (recording sampleCalls 0 0 sampleDatabase) cfg ∧
      cfg.state.tables.events.length=2 ∧ ¬reportsBreak sampleDatabase cfg.state.tables.events := by
  refine reaches_view oneAfterTheOther (fun cfg => cfg.state.tables.events.length) 2 (by decide)
    fun cfg hreach hlength => ?_
  exact ⟨hlength,no_false_alarm hreach⟩

/-- The first call reads the clock first and inserts last. -/
def overtaking : List (Bool×AuditChoice) :=
  [stepAfter false 0,stepAfter false 1000,stepAfter true 0,stepAfter true 1000,stepAfter true 0,stepAfter false 0]

/-- Overtaken, both calls succeed and the verifier reports a break at the first row. -/
theorem overtaken_reported : ∃ cfg,Reach anyStep (recording sampleCalls 0 0 sampleDatabase) cfg ∧
    (∀ call,cfg.threads call=.ret (.ok ())) ∧ reportsBreak sampleDatabase cfg.state.tables.events := by
  refine reaches_view overtaking (fun cfg =>
    ((cfg.threads false).result?.map Except.isOk,(cfg.threads true).result?.map Except.isOk,
      decide (cfg.state.tables.events.Pairwise (RowLe sampleDatabase)))) (some true,some true,false) (by decide)
    fun cfg hreach hview => ?_
  simp only [Prod.mk.injEq,decide_eq_false_iff_not] at hview
  obtain ⟨hfirst,hsecond,hunordered⟩ := hview
  have hdone : ∀ call,(cfg.threads call).result?.map Except.isOk=some true
    | false => hfirst
    | true => hsecond
  refine ⟨fun call => ?_,(reportsBreak_iff_overtaken sampleDatabase_collisionFree hreach).mpr hunordered⟩
  obtain ⟨outcome,houtcome,hok⟩ := Option.map_eq_some_iff.mp (hdone call)
  cases outcome with
  | error => cases hok
  | ok => exact Prog.eq_ret_of_result? houtcome

end Certctl.AuditRecording
