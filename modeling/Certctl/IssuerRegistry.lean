import Certctl.RecordTable

/-!
# The issuer registry and its renewal loops

A change of the issuers table is followed by a rebuild of the registry from
a list that was read in between, or by the removal of one entry. A rebuild
replaces every connector by a new instance and neither starts nor stops a
renewal loop. An older list swapped in late undoes a change, and after the
start of the server the loops keep to the instances that were there then.
-/

namespace Certctl.IssuerRegistry

open RecordTable

/-- A row of the table, and what the connector built from its configuration does. -/
structure Issuer where
  id : String
  source : String := "database"
  /-- It is to be in the registry. -/
  enabled : Bool := true
  /-- What its connector is built from. -/
  config : String := ""
  /-- The connector has a renewal loop. -/
  lifecycle : Bool := false
  /-- The token of the connector can be renewed. -/
  renewable : Bool := true
deriving DecidableEq

/-- An instance, by the rebuild that made it. -/
structure Connector where
  /-- The rebuild that made it. -/
  generation : ℕ
  issuer : Issuer
deriving DecidableEq

/-- The table, the registry and the loops. -/
structure State where
  /-- The stored issuers. -/
  table : List Issuer
  /-- The connectors in use. -/
  registry : List Connector := []
  /-- Rebuilds so far. -/
  generation : ℕ := 0
  /-- The instances whose renewal loop is running. -/
  running : List Connector := []

/-- New connectors for the enabled issuers. -/
def State.rebuild (s : State) (configs : List Issuer) : State :=
  {s with registry := (configs.filter (·.enabled)).map (⟨s.generation,·⟩), generation := s.generation+1}

/-- Start the loops that do not run yet. -/
def State.startLifecycles (s : State) : State :=
  {s with running := s.running++s.registry.filter fun c => c.issuer.lifecycle && c.issuer.renewable && c∉s.running}

/-- Stop the loops of the registry. -/
def State.stopLifecycles (s : State) : State :=
  {s with running := s.running.filter fun c => !(c.issuer.lifecycle && c∈s.registry)}

/-- What a new issuer is stored as: those of the console are enabled. -/
def defaulted (iss : Issuer) : Issuer :=
  let source := if iss.source="" then "database" else iss.source
  {iss with source := source, enabled := iss.enabled || source="database"}

/-- The calls that change issuers. -/
inductive Call where
  | createIssuer (iss : Issuer)
  | updateIssuer (iss : Issuer)
  | deleteIssuer (id : String)

/-- The next step of a call. -/
inductive Pc where
  | write (call : Call)
  | list
  | swap (configs : List Issuer)
  | remove (id : String)
  | done

/-- What the next step of a call does. -/
def State.step (s : State) : Pc→Pc×State
  | .write (.createIssuer iss) =>
    if s.table.any (·.id=iss.id) then (.done,s)
    else (if (defaulted iss).enabled then .list else .done,{s with table := s.table++[defaulted iss]})
  | .write (.updateIssuer iss) =>
    if s.table.any (·.id=iss.id) then (.list,{s with table := modify Issuer.id iss.id (fun _ => iss) s.table})
    else (.done,s)
  | .write (.deleteIssuer id) =>
    if s.table.any (·.id=id) then (.remove id,{s with table := RecordTable.remove Issuer.id id s.table})
    else (.done,s)
  | .list => (.swap s.table,s)
  | .swap configs => (.done,s.rebuild configs)
  | .remove id => (.done,{s with registry := s.registry.filter (·.issuer.id≠id)})
  | .done => (.done,s)

/-- The registry is about to be rebuilt. -/
def Pc.rebuilding : Pc→Bool
  | .list | .swap _ => true
  | _ => false

/-- The call has still to change the registry. -/
def Pc.inProgress : Pc→Bool
  | .remove _ => true
  | pc => pc.rebuilding

/-- The issuer is built in the registry when it is stored so and enabled. -/
def Agrees (s : State) (iss : Issuer) : Prop := (∃ g,⟨g,iss⟩∈s.registry) ↔ iss∈s.table ∧ iss.enabled=true

/-- The registry holds the enabled issuers, built from what is stored. -/
def Follows (s : State) : Prop := ∀ iss,Agrees s iss

theorem follows_rebuild (s : State) : Follows (s.rebuild s.table) := by
  intro iss
  simp [Agrees,State.rebuild]

/-- A list is swapped in while the table is as it was read, and an entry removed while its issuer is not back. -/
def Undisturbed (s : State) : Pc→Prop
  | .swap configs => s.table=configs
  | .remove id => ∀ iss∈s.table,iss.id≠id
  | _ => True

/-- A step outside a rebuild keeps an issuer in agreement, or is about to remove its entry. -/
theorem agrees_step {s : State} {pc : Pc} {iss : Issuer} (hafter : (s.step pc).1.rebuilding=false)
    (hswap : ∀ configs,pc≠.swap configs) (hok : Undisturbed s pc) (h : Agrees s iss ∨ pc=.remove iss.id) :
    Agrees (s.step pc).2 iss ∨ (s.step pc).1=.remove iss.id := by
  unfold Agrees at h ⊢
  cases pc with
  | write call =>
    cases call <;> simp only [State.step] at hafter ⊢ <;> split_ifs at hafter ⊢ <;>
      grind [Pc.rebuilding,RecordTable.remove]
  | remove => grind [State.step,Undisturbed]
  | list => cases hafter
  | swap configs => exact absurd rfl (hswap configs)
  | done => simpa [State.step] using h

section Overlapping

variable {ι : Type} [DecidableEq ι]

/-- Runs of any calls, each step under a condition. -/
inductive Reach (ok : State→Pc→Prop) (calls : ι→Call) (s₀ : State) : (ι→Pc)→State→Prop where
  | start : Reach ok calls s₀ (fun t => .write (calls t)) s₀
  | step {pc : ι→Pc} {s : State} (t : ι) : Reach ok calls s₀ pc s → ok s (pc t) →
      Reach ok calls s₀ (Function.update pc t (s.step (pc t)).1) (s.step (pc t)).2

variable {calls : ι→Call} {pc : ι→Pc} {s s₀ : State}

/-- A rebuild is under way, or every issuer agrees but those whose removal is. -/
def Settling (pc : ι→Pc) (s : State) : Prop :=
  (∃ t,(pc t).rebuilding=true) ∨
  ∀ iss,Agrees s iss ∨ ∃ t,pc t=.remove iss.id

theorem settling_step (h : Settling pc s) (t : ι) (hok : Undisturbed s (pc t)) :
    Settling (Function.update pc t (s.step (pc t)).1) (s.step (pc t)).2 := by
  by_cases hbusy : (s.step (pc t)).1.rebuilding=true
  · exact .inl ⟨t,by simpa using hbusy⟩
  by_cases hswap : ∃ configs,pc t=.swap configs
  · obtain ⟨configs,hpc⟩ := hswap
    rw [hpc] at hok
    obtain rfl : s.table=configs := hok
    exact .inr fun iss => .inl (by simpa [hpc,State.step] using follows_rebuild s iss)
  -- the step is no part of a rebuild
  rcases h with ⟨u,hu⟩|hall
  · refine .inl ⟨u,?_⟩
    by_cases hut : u=t
    · cases hpc : pc u <;> simp_all [Pc.rebuilding,State.step]
    · rwa [Function.update_of_ne hut]
  refine .inr fun iss => ?_
  by_cases hother : ∃ u,u≠t ∧ pc u=.remove iss.id
  · obtain ⟨u,hut,hu⟩ := hother
    exact .inr ⟨u,by rwa [Function.update_of_ne hut]⟩
  have hone : Agrees s iss ∨ pc t=.remove iss.id := (hall iss).imp_right (Exists.elim · fun u hu => by grind)
  rcases agrees_step (Bool.eq_false_iff.mpr hbusy) (fun configs hpc => hswap ⟨configs,hpc⟩) hok hone with hagree|hremove
  · exact .inl hagree
  · exact .inr ⟨t,by simpa using hremove⟩

/-- Where no list and no removal is overtaken, the registry follows the table whenever no call is in progress. -/
theorem registry_follows_table (hbuilt : Follows s₀) (h : Reach Undisturbed calls s₀ pc s)
    (hidle : ∀ t,(pc t).inProgress=false) : Follows s := by
  have hsettling : Settling pc s := by
    clear hidle
    induction h with
    | start => exact .inr fun iss => .inl (hbuilt iss)
    | step t _ hok ih => exact settling_step ih t hok
  rcases hsettling with ⟨t,ht⟩|hall
  · have hthread := hidle t
    cases hpc : pc t <;> simp_all [Pc.inProgress,Pc.rebuilding]
  · refine fun iss => (hall iss).resolve_right fun ⟨t,ht⟩ => ?_
    simpa [ht,Pc.inProgress] using hidle t

/-- An update of one issuer and a deletion of another. -/
def sampleCalls (update : Bool) : Call :=
  if update then .updateIssuer {id := "a", config := "new"} else .deleteIssuer "b"

/-- The registry of two issuers just after the start. -/
def sampleBuilt : State := ({table := [{id := "a"},{id := "b"}]} : State).rebuild [{id := "a"},{id := "b"}]

/-- An update of one issuer, made while the deletion of another is on its way. -/
theorem registry_follows_update : ∃ pc s,Reach Undisturbed sampleCalls sampleBuilt pc s ∧
    (∀ t,(pc t).inProgress=false) ∧ s.table=[{id := "a", config := "new"}] ∧ Follows s := by
  have hgone : ∀ iss∈[({id := "a", config := "new"} : Issuer)],iss.id≠"b" := by decide
  have hrun : Reach Undisturbed sampleCalls sampleBuilt _ _ :=
    .step false (.step true (.step true (.step true (.step false .start trivial) trivial) trivial) rfl) hgone
  exact ⟨_,_,hrun,by decide,rfl,registry_follows_table (follows_rebuild _) hrun (by decide)⟩

/-- A list read before a deletion and swapped in after it brings the issuer back. -/
theorem deleted_issuer_returns : ∃ (calls : Bool→Call) (s₀ s : State) (pc : Bool→Pc),Follows s₀ ∧
    Reach (fun _ _ => True) calls s₀ pc s ∧ (∀ t,(pc t).inProgress=false) ∧ ¬Follows s := by
  refine ⟨sampleCalls,sampleBuilt,_,_,follows_rebuild _,
    .step true (.step false (.step false (.step true (.step true .start trivial) trivial) trivial) trivial) trivial,
    by decide,fun h => ?_⟩
  have hback := (h {id := "b"}).mp ⟨1,by decide⟩
  exact absurd hback.1 (by decide)

end Overlapping

section Lifecycles

/-- A call from its first step to its last. -/
def State.call (s : State) (call : Call) : State :=
  let written := s.step (.write call)
  let listed := written.2.step written.1
  (listed.2.step listed.1).2

/-- The server after its start. -/
def booted (table : List Issuer) : State := (({table := table} : State).rebuild table).startLifecycles

/-- The loops that run are those of the registry. -/
def Renewing (s : State) : Prop := ∀ c,c∈s.running ↔ c∈s.registry ∧ c.issuer.lifecycle=true

/-- In every state between the calls. -/
def Throughout (P : State→Prop) : State→List Call→Prop
  | s,[] => P s
  | s,call::calls => P s ∧ Throughout P (s.call call) calls

/-- No enabled issuer with a renewal loop is stored when the registry is rebuilt, before or after the call, and
none is deleted. -/
def Quiet (s : State) (call : Call) : Prop :=
  ((s.step (.write call)).1=.list → ∀ iss∈s.table++(s.step (.write call)).2.table,iss.enabled=true → iss.lifecycle=false) ∧
  ∀ id,(s.step (.write call)).1=.remove id → ∀ iss∈s.table,iss.id=id → iss.enabled=true → iss.lifecycle=false

/-- Every call is quiet when it is made. -/
def AllQuiet : State→List Call→Prop
  | _,[] => True
  | s,call::calls => Quiet s call ∧ AllQuiet (s.call call) calls

variable {s : State} {table : List Issuer}

/-- The registry follows the table, and a rebuild would make new instances. -/
structure Built (s : State) : Prop where
  follows : Follows s
  /-- Later rebuilds make new instances. -/
  old : ∀ c,c∈s.registry ∨ c∈s.running → c.generation<s.generation

theorem Built.stored (h : Built s) (c : Connector) (hc : c∈s.registry) :
    c.issuer∈s.table ∧ c.issuer.enabled=true := (h.follows c.issuer).mp ⟨c.generation,hc⟩

theorem built_rebuild (h : Built s) : Built ({s with table := table}.rebuild table) := by
  refine ⟨follows_rebuild {s with table := table},fun c hc => ?_⟩
  have hold := h.old c
  grind [State.rebuild]

/-- New instances do not run, and those that run are not in the registry. -/
theorem renewing_rebuild (h : Built s) (hs : Renewing s) : Renewing ({s with table := table}.rebuild table) ↔
    ∀ iss∈s.table++table,iss.enabled=true → iss.lifecycle=false := by
  constructor
  · intro hnew iss hiss henabled
    by_contra hlife
    rw [Bool.not_eq_false] at hlife
    rcases List.mem_append.mp hiss with hold|hstored
    · obtain ⟨g,hg⟩ := (h.follows iss).mpr ⟨hold,henabled⟩
      have hlt := h.old _ (.inl hg)
      have hkept := (hnew _).mp ((hs ⟨g,iss⟩).mpr ⟨hg,hlife⟩)
      grind [State.rebuild]
    · have hruns := (hnew ⟨s.generation,iss⟩).mpr ⟨by simp [State.rebuild,hstored,henabled],hlife⟩
      exact absurd (h.old _ (.inr hruns)) (Nat.lt_irrefl _)
  · intro hnone c
    have hstored := h.stored c
    have hruns := hs c
    grind [State.rebuild]

theorem renewing_call (h : Built s) (hs : Renewing s) (call : Call) :
    Built (s.call call) ∧ (Renewing (s.call call) ↔ Quiet s call) := by
  cases call with
  | createIssuer iss =>
    simp only [State.call,Quiet,State.step]
    split_ifs with hthere henabled
    · simpa [State.step] using ⟨h,hs⟩
    · exact ⟨built_rebuild h,(renewing_rebuild h hs).trans (by simp)⟩
    have hsame : Follows {s with table := s.table++[defaulted iss]} := by
      intro iss'
      have hiss := h.follows iss'
      unfold Agrees at hiss ⊢
      grind
    simpa [State.step] using ⟨⟨hsame,h.old⟩,hs⟩
  | updateIssuer =>
    simp only [State.call,Quiet,State.step]
    split_ifs with hthere
    · exact ⟨built_rebuild h,(renewing_rebuild h hs).trans (by simp)⟩
    · simpa [State.step] using ⟨h,hs⟩
  | deleteIssuer id =>
    simp only [State.call,Quiet,State.step]
    split_ifs with hthere
    · have hsame : Follows (({s with table := remove Issuer.id id s.table} : State).step (.remove id)).2 := by
        intro iss
        have hiss := h.follows iss
        unfold Agrees at hiss ⊢
        grind [State.step,remove]
      refine ⟨⟨hsame,fun c hc => h.old c (by grind [State.step])⟩,?_,?_⟩
      · refine fun hnew => ⟨False.elim,?_⟩
        rintro id ⟨⟩ iss hiss hid henabled
        by_contra hlife
        obtain ⟨g,hg⟩ := (h.follows iss).mpr ⟨hiss,henabled⟩
        have hkept := (hnew _).mp ((hs ⟨g,iss⟩).mpr ⟨hg,by simpa using hlife⟩)
        grind [State.step]
      · intro hquiet c
        have hnone := hquiet.2 id rfl c.issuer
        have hstored := h.stored c
        have hruns := hs c
        grind [State.step]
    · simpa [State.step] using ⟨h,hs⟩

theorem Throughout.ends {P : State→Prop} {calls : List Call} (h : Throughout P s calls) :
    P s ∧ P (calls.foldl State.call s) := by
  induction calls generalizing s with
  | nil => exact ⟨h,h⟩
  | cons call calls ih => exact ⟨h.1,(ih h.2).2⟩

theorem renewing_throughout {calls : List Call} (h : Built s) (hs : Renewing s) :
    Throughout Renewing s calls ↔ AllQuiet s calls := by
  induction calls generalizing s with
  | nil => simpa [Throughout,AllQuiet] using hs
  | cons call calls ih =>
    obtain ⟨hbuilt,hcall⟩ := renewing_call h hs call
    constructor
    · rintro ⟨-,hlater⟩
      exact ⟨hcall.mp hlater.ends.1,(ih hbuilt hlater.ends.1).mp hlater⟩
    · rintro ⟨hquiet,hlater⟩
      exact ⟨hs,(ih hbuilt (hcall.mpr hquiet)).mpr hlater⟩

/-- The loops follow the registry through a run, and none is left by the stop, when every token can be renewed
and no call replaces or deletes a connector with a loop. -/
theorem renewal_follows_registry_iff (table : List Issuer) (calls : List Call) :
    (Throughout Renewing (booted table) calls ∧
      (calls.foldl State.call (booted table)).stopLifecycles.running=[]) ↔
    (∀ iss∈table,iss.enabled=true → iss.lifecycle=true → iss.renewable=true) ∧ AllQuiet (booted table) calls := by
  have hbuilt : Built (booted table) := ⟨follows_rebuild {table := table},by grind [booted,State.startLifecycles,State.rebuild]⟩
  have hboot : Renewing (booted table) ↔ ∀ iss∈table,iss.enabled=true → iss.lifecycle=true → iss.renewable=true := by
    constructor
    · intro h iss hiss henabled hlife
      have hruns := (h ⟨0,iss⟩).mpr
      grind [booted,State.startLifecycles,State.rebuild]
    · intro h c
      grind [booted,State.startLifecycles,State.rebuild]
  rw [← hboot]
  constructor
  · rintro ⟨hall,-⟩
    exact ⟨hall.ends.1,(renewing_throughout hbuilt hall.ends.1).mp hall⟩
  · rintro ⟨hs,hquiet⟩
    have hall := (renewing_throughout hbuilt hs).mpr hquiet
    refine ⟨hall,List.filter_eq_nil_iff.mpr fun c hc => ?_⟩
    simpa using ((hall.ends.2 c).mp hc).symm

/-- After an update the new connector is without a loop, and the stop leaves the old loop running. -/
theorem updated_issuer_not_renewed : ¬Throughout Renewing (booted [{id := "v", lifecycle := true}])
      [.updateIssuer {id := "v", lifecycle := true, config := "new"}] ∧
    ((booted [{id := "v", lifecycle := true}]).call
      (.updateIssuer {id := "v", lifecycle := true, config := "new"})).stopLifecycles.running≠[] := by
  refine ⟨fun h => ?_,by decide⟩
  have hrun := (h.ends.2 ⟨1,{id := "v", lifecycle := true, config := "new"}⟩).mpr (by decide)
  exact absurd hrun (by decide)

end Lifecycles

end Certctl.IssuerRegistry
