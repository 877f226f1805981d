import Certctl.AccessDecisions
import Mathlib.Data.Int.Order.Basic

/-!
# Granting and revoking roles

A grant inserts a row unless one with the same actor, role, scope and tenant
is there, and reports success in either case. A row that is there stays with
its own expiry, so a grant that meets an expired row, or one that expires
earlier, does not take effect or does not last. Rows of the global scope
never meet one another. A revocation deletes every row that it names.
-/

namespace Certctl.RoleGrants

open DomainRecords AccessDecisions Bool
open List

/-- Who asks for a change. -/
structure Caller where
  actorID : String
  actorType : ActorType
  tenantID : String
  /-- The caller is the server itself. -/
  isSystem : Bool
deriving DecidableEq

/-- The grant that is asked for. -/
structure GrantRequest where
  /-- Identifier of the row, drawn if it is empty. -/
  id : String
  actorID : String
  actorType : ActorType
  roleID : String
  /-- When the grant is to end. -/
  expiresAt : Option Time
  tenantID : String
  /-- Where it is to apply. -/
  scopeType : ScopeType
  scopeID : Option String

/-- Which grants to revoke. -/
structure ActorRoleRevokeOptions where
  /-- What the identifier refers to. -/
  scopeType : ScopeType
  scopeID : Option String

/-- What the environment does in a call. -/
structure Surroundings where
  now : Time := 0
  uuid : String := ""
  queryFault : Err := none
  fault : Err := none
  /-- How the database reports a violated constraint. -/
  violation : GoError := ⟨"pq: constraint violated",none⟩

def tenantOf (caller : Caller) : String := tenantOr caller.tenantID

/-- The caller may change the roles of actors. -/
def authorizeAssign (db : AccessDb) (env : Surroundings) (caller : Option Caller) : Try Caller :=
  match caller with
  | none => .error Sentinel.authUnauthenticated.error
  | some c =>
    if c.isSystem then .ok c
    else
      match holdsAnyOf db env.queryFault env.now c.actorID c.actorType (tenantOf c) ["auth.role.assign"] with
      | .error err => .error err
      | .ok false => .error (Sentinel.selfRoleAssignment.because "auth.role.assign required")
      | .ok true => .ok c

def demoAnonActorID : String := "actor-demo-anon"

def reservedActor : GoError := Sentinel.authReservedActor.because "actor-demo-anon is reserved"

/-- An empty identifier is stored as an absent one. -/
def scopeIDColumn (scopeID : Option String) : Option String := scopeID.filter (·≠"")

def scopeTypeColumn (scopeType : ScopeType) : ScopeType := if scopeType=.unset then .global else scopeType

/-- The kinds of actors that the table admits. -/
def knownActorType : ActorType→Bool
  | .other _ => false
  | _ => true

/-- The row has the key that the statement avoids. Absent identifiers are distinct from one another. -/
def conflicts (row existing : ActorRole) : Bool :=
  existing.actorID=row.actorID && existing.actorType=row.actorType && existing.roleID=row.roleID &&
    existing.tenantID=row.tenantID && existing.scope.scopeType=row.scope.scopeType &&
    row.scope.scopeID.isSome && existing.scope.scopeID=row.scope.scopeID

/-- The row that is to be inserted, if the constraints of the table admit it. -/
def GrantRequest.row (env : Surroundings) (ar : GrantRequest) : Option ActorRole :=
  if h : scopeCheck (scopeTypeColumn ar.scopeType) (scopeIDColumn ar.scopeID)=true then
    if knownActorType ar.actorType then
      some ⟨if ar.id="" then "ar-"++env.uuid else ar.id,ar.actorID,ar.actorType,ar.roleID,ar.expiresAt,
        tenantOr ar.tenantID,⟨_,_,h⟩⟩
    else none
  else none

/-- Insert the row unless one with its key is there. -/
def insertActorRole (db : AccessDb) (env : Surroundings) (ar : GrantRequest) : Err×AccessDb :=
  match env.fault,ar.row env with
  | some err,_ => (some (err.wrapped "actorRole.grant: "),db)
  | none,none => (some (env.violation.wrapped "actorRole.grant: "),db)
  | none,some row =>
    if db.actorRoles.any (conflicts row) then (none,db)
    else if db.actorRoles.any (·.id=row.id) then (some (env.violation.wrapped "actorRole.grant: "),db)
    else (none,{db with actorRoles := db.actorRoles++[row]})

/-- Assign a role to an actor. -/
def grant (db : AccessDb) (env : Surroundings) (caller : Option Caller) (ar : GrantRequest) : Err×AccessDb :=
  match authorizeAssign db env caller with
  | .error err => (some err,db)
  | .ok _ =>
    if ar.actorID=demoAnonActorID then (some reservedActor,db)
    else insertActorRole db env ar

def ofActorRole (actorID : String) (actorType : ActorType) (roleID tenantID : String) (row : ActorRole) : Bool :=
  row.actorID=actorID && row.actorType=actorType && row.roleID=roleID && row.tenantID=tenantID

def atScope (opts : ActorRoleRevokeOptions) (row : ActorRole) : Bool :=
  row.scope.scopeType=opts.scopeType && row.scope.scopeID=scopeIDColumn opts.scopeID

def deleteActorRoles (db : AccessDb) (env : Surroundings) (actorID : String) (actorType : ActorType)
    (roleID tenantID : String) (opts : ActorRoleRevokeOptions) : Err×AccessDb :=
  match env.fault with
  | some err => (some (err.wrapped "actorRole.revoke: "),db)
  | none =>
    if opts.scopeType=.unset then
      (none,{db with actorRoles := db.actorRoles.filter fun row => !ofActorRole actorID actorType roleID tenantID row})
    else if db.actorRoles.any fun row => ofActorRole actorID actorType roleID tenantID row && atScope opts row then
      (none,{db with actorRoles := db.actorRoles.filter fun row =>
        !(ofActorRole actorID actorType roleID tenantID row && atScope opts row)})
    else (some Sentinel.actorRoleNotFound.error,db)

def revoke (db : AccessDb) (env : Surroundings) (caller : Option Caller) (actorID : String) (actorType : ActorType)
    (roleID : String) (opts : ActorRoleRevokeOptions) : Err×AccessDb :=
  match authorizeAssign db env caller with
  | .error err => (some err,db)
  | .ok c =>
    if actorID=demoAnonActorID then (some reservedActor,db)
    else deleteActorRoles db env actorID actorType roleID (tenantOf c) opts

/-- A call that changes the roles of actors. -/
inductive Call where
  | grant (caller : Option Caller) (ar : GrantRequest)
  | revoke (caller : Option Caller) (actorID : String) (actorType : ActorType) (roleID : String)
      (opts : ActorRoleRevokeOptions)

def Call.run (db : AccessDb) (env : Surroundings) : Call→Err×AccessDb
  | .grant caller ar => RoleGrants.grant db env caller ar
  | .revoke caller actorID actorType roleID opts => RoleGrants.revoke db env caller actorID actorType roleID opts

/-- The tables after a history of calls at any times, the oldest first. -/
def after (db : AccessDb) : List (Call×Surroundings)→AccessDb
  | [] => db
  | (call,env)::rest => after (call.run db env).2 rest

/-- The call asks for the revocation of what was granted: of all scopes, or of the scope of the grant. -/
def Call.revokes (ar : GrantRequest) : Call→Prop
  | .revoke (some caller) actorID actorType roleID opts =>
    actorID=ar.actorID ∧ actorType=ar.actorType ∧ roleID=ar.roleID ∧ tenantOf caller=tenantOr ar.tenantID ∧
      (opts.scopeType=.unset ∨ opts.scopeType=scopeTypeColumn ar.scopeType ∧
        scopeIDColumn opts.scopeID=scopeIDColumn ar.scopeID)
  | _ => False

/-- The actor of a grant holds every permission of the role within the scope of the grant. -/
def HoldsRole (db : AccessDb) (t : Time) (ar : GrantRequest) : Prop :=
  ∀ scope : Scope,scope.scopeType=scopeTypeColumn ar.scopeType → scope.scopeID=scopeIDColumn ar.scopeID →
    ∀ rp∈db.rolePermissions,rp.roleID=ar.roleID → ∀ p∈db.permissions,p.id=rp.permissionID →
      ∀ scopeType scopeID,scope.contains scopeType scopeID → rp.scope.contains scopeType scopeID →
        checkPermission db none t ar.actorID ar.actorType ar.tenantID p.name scopeType scopeID=.ok true

def beforeEnd (ar : GrantRequest) (t : Time) : Bool := ar.expiresAt.all (t<·)

/-- A grant that returns without an error and has not ended takes effect at once and lasts until its end, unless it is
revoked. -/
def TakesEffect (db : AccessDb) (env : Surroundings) (caller : Option Caller) (ar : GrantRequest) : Prop :=
  (grant db env caller ar).1=none → beforeEnd ar env.now=true →
    ∀ later : List (Call×Surroundings),(∀ step∈later,¬step.1.revokes ar) → ∀ t,env.now≤t → beforeEnd ar t=true →
      HoldsRole (after (grant db env caller ar).2 later) t ar

/-- A row ends no earlier than asked for. -/
def outlasts (requested existing : Option Time) : Bool :=
  match existing with
  | none => true
  | some e => requested.any (·≤e)

/-- The actor has a name, and rows that the grant meets end no earlier than it. -/
def unobstructed (db : AccessDb) (env : Surroundings) (ar : GrantRequest) : Prop :=
  ar.actorID≠"" ∧ ∀ existing∈db.actorRoles,(ar.row env).any (conflicts · existing)=true →
    outlasts ar.expiresAt existing.expiresAt=true

/-- An unexpired row gives the actor the role at exactly this scope. -/
def HoldsAt (db : AccessDb) (t : Time) (actorID : String) (actorType : ActorType) (roleID tenantID : String)
    (opts : ActorRoleRevokeOptions) : Prop :=
  ∃ row∈db.actorRoles,ofActorRole actorID actorType roleID tenantID row=true ∧ atScope opts row=true ∧
    row.unexpired t=true

section Effects

variable {db : AccessDb} {env : Surroundings} {caller : Option Caller} {ar : GrantRequest} {c : Caller}

theorem authorizeAssign_ok (h : authorizeAssign db env caller=.ok c) : caller=some c := by
  cases caller with
  | none => cases h
  | some =>
    simp only [authorizeAssign] at h
    split at h
    · cases h
      rfl
    split at h
    · cases h
    · cases h
    cases h
    rfl

/-- The row confers at least the grant. -/
structure Sustains (ar : GrantRequest) (row : ActorRole) : Prop where
  actorID : row.actorID=ar.actorID
  actorType : row.actorType=ar.actorType
  roleID : row.roleID=ar.roleID
  tenantID : row.tenantID=tenantOr ar.tenantID
  scopeType : row.scope.scopeType=scopeTypeColumn ar.scopeType
  scopeID : row.scope.scopeID=scopeIDColumn ar.scopeID
  lasts : outlasts ar.expiresAt row.expiresAt=true

variable {row : ActorRole}

theorem sustains_row (h : ar.row env=some row) : Sustains ar row := by
  unfold GrantRequest.row at h
  split at h
  · split at h
    · cases h
      refine ⟨rfl,rfl,rfl,rfl,rfl,rfl,?_⟩
      cases hexpires : ar.expiresAt with
      | none => rfl
      | some => exact decide_eq_true le_rfl
    · cases h
  · cases h

theorem sustains_conflict {existing : ActorRole} (h : ar.row env=some row) (hconflict : conflicts row existing=true)
    (hlasts : outlasts ar.expiresAt existing.expiresAt=true) : Sustains ar existing := by
  have hrow := sustains_row h
  simp only [conflicts,and_eq_true,decide_eq_true_eq] at hconflict
  obtain ⟨⟨⟨⟨⟨⟨hactor,htype⟩,hrole⟩,htenant⟩,hscopeType⟩,-⟩,hscopeID⟩ := hconflict
  exact ⟨hactor.trans hrow.actorID,htype.trans hrow.actorType,hrole.trans hrow.roleID,htenant.trans hrow.tenantID,
    hscopeType.trans hrow.scopeType,hscopeID.trans hrow.scopeID,hlasts⟩

/-- A grant leaves the tables alone, with success if it meets a row, or adds its row. -/
theorem grant_cases (db : AccessDb) (env : Surroundings) (caller : Option Caller) (ar : GrantRequest) :
    ((grant db env caller ar).2=db ∧ ((grant db env caller ar).1=none →
      ∃ row,ar.row env=some row ∧ ∃ existing∈db.actorRoles,conflicts row existing=true)) ∨
    ∃ row,ar.row env=some row ∧ (grant db env caller ar).2={db with actorRoles := db.actorRoles++[row]} := by
  unfold grant
  split
  · exact .inl ⟨rfl,nofun⟩
  split
  · exact .inl ⟨rfl,nofun⟩
  unfold insertActorRole
  split
  · exact .inl ⟨rfl,nofun⟩
  · exact .inl ⟨rfl,nofun⟩
  rename_i row _ hrow
  split
  · rename_i hmet
    exact .inl ⟨rfl,fun _ => ⟨row,hrow,any_eq_true.mp hmet⟩⟩
  split
  · exact .inl ⟨rfl,nofun⟩
  · exact .inr ⟨row,hrow,rfl⟩

theorem exists_sustains (h : (grant db env caller ar).1=none) (hfree : unobstructed db env ar) :
    ∃ row∈(grant db env caller ar).2.actorRoles,Sustains ar row := by
  rcases grant_cases db env caller ar with ⟨hsame,hmet⟩|⟨row,hrow,hinserted⟩
  · obtain ⟨row,hrow,existing,hmem,hconflict⟩ := hmet h
    have hlasts := hfree.2 existing hmem (by rw [hrow]; exact hconflict)
    rw [hsame]
    exact ⟨existing,hmem,sustains_conflict hrow hconflict hlasts⟩
  · rw [hinserted]
    exact ⟨row,mem_append_right _ (mem_singleton_self _),sustains_row hrow⟩

theorem grant_keeps (hrow : row∈db.actorRoles) : row∈(grant db env caller ar).2.actorRoles := by
  rcases grant_cases db env caller ar with ⟨hsame,-⟩|⟨new,-,hinserted⟩
  · rw [hsame]
    exact hrow
  · rw [hinserted]
    exact mem_append_left _ hrow

variable {actorID roleID : String} {actorType : ActorType} {opts : ActorRoleRevokeOptions}

/-- A revocation of something else takes no row away. -/
theorem revoke_keeps (hrow : row∈db.actorRoles) (hsustains : Sustains ar row)
    (hother : ¬(Call.revoke caller actorID actorType roleID opts).revokes ar) :
    row∈(revoke db env caller actorID actorType roleID opts).2.actorRoles := by
  unfold revoke
  split
  · exact hrow
  rename_i c hcaller
  split
  · exact hrow
  have hsome : caller=some c := authorizeAssign_ok hcaller
  subst hsome
  have hmatch : ofActorRole actorID actorType roleID (tenantOf c) row=true →
      ¬(opts.scopeType=.unset ∨ atScope opts row=true) := by
    intro hof hscope
    simp only [ofActorRole,and_eq_true,decide_eq_true_eq,hsustains.actorID,hsustains.actorType,
      hsustains.roleID,hsustains.tenantID] at hof
    refine hother ⟨hof.1.1.1.symm,hof.1.1.2.symm,hof.1.2.symm,hof.2.symm,hscope.imp_right fun hat => ?_⟩
    simp only [atScope,and_eq_true,decide_eq_true_eq,hsustains.scopeType,hsustains.scopeID] at hat
    exact ⟨hat.1.symm,hat.2.symm⟩
  unfold deleteActorRoles
  split
  · exact hrow
  split
  · rename_i hall
    refine mem_filter.mpr ⟨hrow,?_⟩
    rw [not_eq_true']
    exact eq_false_iff.mpr fun hof => hmatch hof (.inl hall)
  split
  · refine mem_filter.mpr ⟨hrow,?_⟩
    rw [not_eq_true']
    refine eq_false_iff.mpr fun hboth => ?_
    obtain ⟨hof,hat⟩ := and_eq_true_iff.mp hboth
    exact hmatch hof (.inr hat)
  · exact hrow

theorem after_keeps (hsustains : Sustains ar row) {later : List (Call×Surroundings)}
    (hlater : ∀ step∈later,¬step.1.revokes ar) (hrow : row∈db.actorRoles) : row∈(after db later).actorRoles := by
  induction later generalizing db with
  | nil => exact hrow
  | cons step rest ih =>
    obtain ⟨call,env⟩ := step
    refine ih (fun step hstep => hlater step (mem_cons_of_mem _ hstep)) ?_
    have hother := hlater (call,env) mem_cons_self
    cases call with
    | grant => exact grant_keeps hrow
    | revoke => exact revoke_keeps hrow hsustains hother

variable {t : Time}

theorem Sustains.unexpired (h : Sustains ar row) (ht : beforeEnd ar t=true) : row.unexpired t=true := by
  have hlasts := h.lasts
  unfold ActorRole.unexpired
  cases hexpires : row.expiresAt with
  | none => rfl
  | some =>
    rw [hexpires] at hlasts
    obtain ⟨requested,hrequested,hle⟩ := (Option.any_eq_true _ _).mp hlasts
    rw [beforeEnd,hrequested,Option.all_some,decide_eq_true_eq] at ht
    exact decide_eq_true (lt_of_lt_of_le ht (of_decide_eq_true hle))

theorem Sustains.holds (h : Sustains ar row) (hactor : ar.actorID≠"") (hrow : row∈db.actorRoles)
    (ht : beforeEnd ar t=true) : HoldsRole db t ar := by
  intro scope hscopeType hscopeID rp hrp hrole p hp hperm scopeType scopeID hin hinrp
  obtain ⟨held,hcheck,hiff⟩ := checkPermission_granted db t ar.actorType ar.tenantID p.name scopeType scopeID hactor
  have hcontains : row.scope.contains scopeType scopeID := by
    unfold Scope.contains at hin ⊢
    rw [h.scopeType,h.scopeID,← hscopeType,← hscopeID]
    exact hin
  have hheld : held=true := hiff.mpr ⟨row,hrow,⟨h.actorID,h.actorType,h.tenantID,h.unexpired ht⟩,rp,hrp,
    hrole.trans h.roleID.symm,p,hp,hperm,rfl,hcontains,hinrp⟩
  rw [hcheck,hheld]

theorem revoke_success
    (h : (revoke db env (some c) actorID actorType roleID opts).1=none) (hscoped : opts.scopeType≠.unset) :
    ∀ row∈(revoke db env (some c) actorID actorType roleID opts).2.actorRoles,
      ¬(ofActorRole actorID actorType roleID (tenantOf c) row=true ∧ atScope opts row=true) := by
  unfold revoke at h ⊢
  split at h
  · cases h
  rename_i c' hcaller
  have hsame : c=c' := Option.some.inj (authorizeAssign_ok hcaller)
  subst hsame
  split at h
  · cases h
  rename_i hactor
  rw [if_neg hactor]
  unfold deleteActorRoles at h ⊢
  split at h
  · cases h
  rw [if_neg hscoped] at h ⊢
  split at h
  · rename_i hfound
    rw [if_pos hfound]
    intro row hrow hboth
    have hnot := (mem_filter.mp hrow).2
    rw [hboth.1,hboth.2] at hnot
    cases hnot
  · cases h

/-- After any history of calls, a grant for a named actor takes effect if the rows that it meets end no earlier than
it, and a revocation of one scope that succeeds leaves the actor without the role at that scope. -/
theorem grants_take_effect (start : AccessDb) (earlier : List (Call×Surroundings)) :
    (∀ env caller ar,unobstructed (after start earlier) env ar → TakesEffect (after start earlier) env caller ar) ∧
    ∀ env c actorID actorType roleID opts,opts.scopeType≠.unset →
      (revoke (after start earlier) env (some c) actorID actorType roleID opts).1=none →
      ∀ t,¬HoldsAt (revoke (after start earlier) env (some c) actorID actorType roleID opts).2 t actorID actorType roleID
        (tenantOf c) opts := by
  constructor
  · intro env caller ar hfree hsuccess _ later hlater t _ ht
    obtain ⟨row,hrow,hsustains⟩ := exists_sustains hsuccess hfree
    exact hsustains.holds hfree.1 (after_keeps hsustains hlater hrow) ht
  · rintro env c actorID actorType roleID opts hscoped hsuccess t ⟨row,hrow,hof,hat,-⟩
    exact revoke_success hsuccess hscoped row hrow ⟨hof,hat⟩

def systemCaller : Caller := ⟨"system",.system,defaultTenantID,true⟩

def sampleGrant : GrantRequest := ⟨"","alice",.apiKey,"r-viewer",none,"",.profile,some "p-1"⟩

/-- A role with one permission; the actor holds it at the profile until the given time, if at all. -/
def sampleTables (rows : List ActorRole) : AccessDb where
  actorRoles := rows
  rolePermissions := [⟨"r-viewer","p-cert-read",everywhere⟩]
  permissions := [⟨"p-cert-read","cert.read"⟩]

def sampleRow (expiresAt : Time) : ActorRole :=
  ⟨"ar-0","alice",.apiKey,"r-viewer",some expiresAt,defaultTenantID,⟨.profile,some "p-1",rfl⟩⟩

/-- A grant where there is none takes effect, and its revocation ends it. -/
theorem grants_take_effect_sample :
    TakesEffect (sampleTables []) {now := 10} (some systemCaller) sampleGrant ∧
    (grant (sampleTables []) {now := 10} (some systemCaller) sampleGrant).1=none ∧
    ¬HoldsAt (revoke (sampleTables [sampleRow 20]) {now := 10} (some systemCaller) "alice" .apiKey "r-viewer"
      ⟨.profile,some "p-1"⟩).2 10 "alice" .apiKey "r-viewer" defaultTenantID ⟨.profile,some "p-1"⟩ := by
  have hfree : unobstructed (sampleTables []) {now := 10} sampleGrant := ⟨by decide,forall_mem_nil _⟩
  refine ⟨(grants_take_effect (sampleTables []) []).1 _ _ _ hfree,by decide,?_⟩
  exact (grants_take_effect (sampleTables [sampleRow 20]) []).2 _ systemCaller _ _ _ _ (by decide) (by decide) 10

/-- A grant that meets an expired row succeeds and gives the actor nothing. -/
theorem expired_row_blocks_grant :
    (grant (sampleTables [sampleRow 5]) {now := 10} (some systemCaller) sampleGrant).1=none ∧
    checkPermission (grant (sampleTables [sampleRow 5]) {now := 10} (some systemCaller) sampleGrant).2 none 10 "alice"
      .apiKey "" "cert.read" .profile (some "p-1")=.ok false ∧
    ¬TakesEffect (sampleTables [sampleRow 5]) {now := 10} (some systemCaller) sampleGrant := by
  refine ⟨by decide,by decide,fun heffect => ?_⟩
  have hheld := heffect (by decide) rfl [] (forall_mem_nil _) 10 le_rfl rfl
    ⟨.profile,some "p-1",rfl⟩ rfl rfl ⟨"r-viewer","p-cert-read",everywhere⟩ (mem_singleton_self _) rfl
    ⟨"p-cert-read","cert.read"⟩ (mem_singleton_self _) rfl .profile (some "p-1") (by decide) (by decide)
  exact absurd hheld (by decide)

end Effects

end Certctl.RoleGrants
