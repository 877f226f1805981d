import Certctl.DomainRecords
import Mathlib.Data.List.Dedup

/-!
# Access decisions

An actor holds roles and a role has permissions, each within a scope. The
database joins both tables and intersects the two scopes; the authorizer
looks for a row of the join that matches the request. The decision is the
grant relation: some unexpired role of the actor and some permission of the
role both contain the requested scope. An empty actor holds nothing, and an
empty tenant stands for the default one.
-/

namespace Certctl.AccessDecisions

open DomainRecords
open List

/-- The kinds of resource a grant is limited to. -/
inductive ScopeType where
  | unset
  /-- All resources; there is no identifier. -/
  | global
  | profile
  | issuer
  | other (name : String)
deriving DecidableEq

/-- Who acts; other values are kept as read. -/
inductive ActorType where
  | user
  | system
  | agent
  | apiKey
  | anonymous
  | other (name : String)
deriving DecidableEq

def scopeCheck : ScopeType→Option String→Bool
  | .global,none => true
  | .profile,some _ => true
  | .issuer,some _ => true
  | _,_ => false

/-- Where a grant applies. -/
structure Scope where
  /-- What the identifier refers to. -/
  scopeType : ScopeType
  scopeID : Option String
  /-- The constraint of the table holds. -/
  check : scopeCheck scopeType scopeID=true
deriving DecidableEq

/-- A role that an actor has in a tenant. -/
structure ActorRole where
  id : String
  actorID : String
  actorType : ActorType
  roleID : String
  /-- When it ends; a standing grant has no end. -/
  expiresAt : Option Time
  tenantID : String
  scope : Scope
deriving DecidableEq

/-- A permission that a role carries. -/
structure RolePermission where
  roleID : String
  permissionID : String
  scope : Scope
deriving DecidableEq

/-- A row of the permission catalogue. -/
structure Permission where
  id : String
  name : String
deriving DecidableEq

/-- The tables of roles and permissions. -/
structure AccessDb where
  actorRoles : List ActorRole
  rolePermissions : List RolePermission
  permissions : List Permission

/-- A row of the join of roles and permissions. -/
structure EffectivePermission where
  permissionName : String
  scopeType : ScopeType
  scopeID : Option String
deriving DecidableEq

def ActorRole.unexpired (now : Time) (ar : ActorRole) : Bool := ar.expiresAt.all (now<·)

/-- Both scopes are the same. The comparison of identifiers takes two absent ones for equal. -/
def sameScope (ar rp : Scope) : Prop := ar.scopeType=rp.scopeType ∧ ar.scopeID=rp.scopeID

instance (ar rp : Scope) : Decidable (sameScope ar rp) := inferInstanceAs (Decidable (_ ∧ _))

def effectiveScopeType (ar rp : Scope) : Option ScopeType :=
  if ar.scopeType=.global ∧ rp.scopeType=.global then some .global
  else if ar.scopeType=.global then some rp.scopeType
  else if rp.scopeType=.global then some ar.scopeType
  else if sameScope ar rp then some ar.scopeType
  else none

/-- Identifier of the intersection of two scopes. -/
def effectiveScopeID (ar rp : Scope) : Option String :=
  if ar.scopeType=.global ∧ rp.scopeType=.global then none
  else if ar.scopeType=.global then rp.scopeID
  else if rp.scopeType=.global then ar.scopeID
  else if sameScope ar rp then ar.scopeID
  else none

/-- The permissions of an actor in a tenant, with the intersected scopes. -/
def effectivePermissions (db : AccessDb) (now : Time) (actorID : String) (actorType : ActorType) (tenantID : String) :
    List EffectivePermission :=
  ((db.actorRoles.filter fun ar =>
      ar.actorID=actorID && ar.actorType=actorType && ar.tenantID=tenantID && ar.unexpired now).flatMap fun ar =>
    (db.rolePermissions.filter fun rp => rp.roleID=ar.roleID).flatMap fun rp =>
      (db.permissions.filter fun p => p.id=rp.permissionID).filterMap fun p =>
        (effectiveScopeType ar.scope rp.scope).map fun scopeType =>
          ⟨p.name,scopeType,effectiveScopeID ar.scope rp.scope⟩).dedup

def defaultTenantID : String := "t-default"

/-- A row of the join answers the request. A scoped row needs an identifier on both sides. -/
def EffectivePermission.grants (permission : String) (scopeType : ScopeType) (scopeID : Option String)
    (ep : EffectivePermission) : Bool :=
  if ep.permissionName≠permission then false
  else if ep.scopeType=.global then true
  else if ep.scopeType≠scopeType then false
  else
    match scopeID,ep.scopeID with
    | some requested,some granted => granted=requested
    | _,_ => false

def tenantOr (tenantID : String) : String := if tenantID="" then defaultTenantID else tenantID

/-- Whether an actor holds a permission at a scope; the query may fail. -/
def checkPermission (db : AccessDb) (fault : Err) (now : Time) (actorID : String) (actorType : ActorType)
    (tenantID permission : String) (scopeType : ScopeType) (scopeID : Option String) : Try Bool :=
  if actorID="" then .ok false
  else
    match fault with
    | some err => .error (err.wrapped "authorizer.CheckPermission: actorRole.effective: ")
    | none => .ok ((effectivePermissions db now actorID actorType (tenantOr tenantID)).any
        (EffectivePermission.grants permission scopeType scopeID))

def holdsAnyOf (db : AccessDb) (fault : Err) (now : Time) (actorID : String) (actorType : ActorType)
    (tenantID : String) : List String→Try Bool
  | [] => .ok false
  | permission::rest =>
    match checkPermission db fault now actorID actorType tenantID permission .global none with
    | .error err => .error err
    | .ok true => .ok true
    | .ok false => holdsAnyOf db fault now actorID actorType tenantID rest

section Grants

/-- A scope contains a requested one: the global scope contains everything, any other only its own resource. -/
def Scope.contains (s : Scope) (scopeType : ScopeType) (scopeID : Option String) : Prop :=
  s.scopeType=.global ∨ s.scopeType=scopeType ∧ s.scopeID=scopeID ∧ scopeID.isSome=true

instance (s : Scope) (scopeType : ScopeType) (scopeID : Option String) : Decidable (s.contains scopeType scopeID) :=
  inferInstanceAs (Decidable (_ ∨ _))

variable {s : Scope}

theorem Scope.isSome_of_ne_global (h : s.scopeType≠.global) : s.scopeID.isSome=true := by
  obtain ⟨scopeType,scopeID,hcheck⟩ := s
  cases scopeID with
  | some => rfl
  | none =>
    cases scopeType with
    | global => exact absurd rfl h
    | unset | profile | issuer | other => cases hcheck

theorem grants_iff_contains (s : Scope) (name permission : String) (scopeType : ScopeType) (scopeID : Option String) :
    EffectivePermission.grants permission scopeType scopeID ⟨name,s.scopeType,s.scopeID⟩=true ↔
      name=permission ∧ s.contains scopeType scopeID := by
  unfold EffectivePermission.grants Scope.contains
  by_cases hname : name=permission
  · rw [if_neg (not_not.mpr hname)]
    by_cases hglobal : s.scopeType=.global
    · rw [if_pos hglobal]
      exact ⟨fun _ => ⟨hname,.inl hglobal⟩,fun _ => rfl⟩
    rw [if_neg hglobal]
    obtain ⟨granted,hgranted⟩ := Option.isSome_iff_exists.mp (Scope.isSome_of_ne_global hglobal)
    rw [hgranted]
    by_cases htype : s.scopeType=scopeType
    · rw [if_neg (not_not.mpr htype)]
      cases scopeID with
      | none =>
        refine ⟨nofun,fun h => ?_⟩
        rcases h.2 with hyes|⟨-,hno,-⟩
        · exact absurd hyes hglobal
        · cases hno
      | some =>
        rw [← htype]
        simp only [decide_eq_true_eq,hname,hglobal,Option.some.injEq,Option.isSome_some,true_and,and_true,false_or]
    · rw [if_pos htype]
      refine ⟨nofun,fun h => ?_⟩
      rcases h.2 with hyes|⟨hyes,-⟩
      · exact absurd hyes hglobal
      · exact absurd hyes htype
  · rw [if_pos hname]
    exact ⟨nofun,fun h => absurd h.1 hname⟩

/-- The intersection of two scopes answers a request if both contain it. -/
theorem grants_intersection (ar rp : Scope) (name permission : String) (scopeType : ScopeType)
    (scopeID : Option String) :
    ((effectiveScopeType ar rp).map fun st => (⟨name,st,effectiveScopeID ar rp⟩ : EffectivePermission)).any
      (EffectivePermission.grants permission scopeType scopeID)=true ↔
      name=permission ∧ ar.contains scopeType scopeID ∧ rp.contains scopeType scopeID := by
  -- the row of the narrower scope answers what both contain
  have hrow : ∀ s : Scope,(ar.contains scopeType scopeID ∧ rp.contains scopeType scopeID ↔ s.contains scopeType scopeID) →
      ((⟨name,s.scopeType,s.scopeID⟩ : EffectivePermission).grants permission scopeType scopeID=true ↔
        name=permission ∧ ar.contains scopeType scopeID ∧ rp.contains scopeType scopeID) := by
    intro s hs
    rw [grants_iff_contains,hs]
  unfold effectiveScopeType effectiveScopeID
  by_cases har : ar.scopeType=.global
  · have hnarrow := hrow rp (and_iff_right (.inl har))
    by_cases hrp : rp.scopeType=.global
    · have hnone : rp.scopeID=none := by
        have hcheck := rp.check
        rw [hrp] at hcheck
        cases hid : rp.scopeID with
        | none => rfl
        | some => rw [hid] at hcheck; cases hcheck
      rw [hnone] at hnarrow
      simpa only [har,hrp,and_self,if_true,Option.map_some,Option.any_some] using hnarrow
    · simpa only [har,hrp,and_false,if_false,if_true,Option.map_some,Option.any_some] using hnarrow
  by_cases hrp : rp.scopeType=.global
  · have hnarrow := hrow ar (and_iff_left (.inl hrp))
    simpa only [har,hrp,false_and,if_false,if_true,Option.map_some,Option.any_some] using hnarrow
  by_cases hsame : sameScope ar rp
  · have hboth : rp.contains scopeType scopeID ↔ ar.contains scopeType scopeID := by
      unfold Scope.contains
      rw [hsame.1,hsame.2]
    have hnarrow := hrow ar (by rw [hboth,and_self])
    simpa only [har,hrp,hsame,false_and,if_false,if_true,Option.map_some,Option.any_some] using hnarrow
  · simp only [har,hrp,hsame,false_and,if_false,Option.map_none,Option.any_none,Bool.false_eq_true,false_iff]
    rintro ⟨-,hina,hinb⟩
    obtain ⟨htypea,hida,-⟩ := hina.resolve_left har
    obtain ⟨htypeb,hidb,-⟩ := hinb.resolve_left hrp
    exact hsame ⟨htypea.trans htypeb.symm,hida.trans hidb.symm⟩

variable (db : AccessDb) (now : Time) (actorID : String) (actorType : ActorType) (tenantID permission : String)
  (scopeType : ScopeType) (scopeID : Option String)

/-- Some unexpired role of the actor and some permission of the role contain the requested scope. -/
def Granted : Prop :=
  ∃ ar∈db.actorRoles,(ar.actorID=actorID ∧ ar.actorType=actorType ∧ ar.tenantID=tenantID ∧ ar.unexpired now=true) ∧
    ∃ rp∈db.rolePermissions,rp.roleID=ar.roleID ∧ ∃ p∈db.permissions,p.id=rp.permissionID ∧ p.name=permission ∧
      ar.scope.contains scopeType scopeID ∧ rp.scope.contains scopeType scopeID

/-- The join answers a request if the permission is granted. -/
theorem effectivePermissions_grants : (effectivePermissions db now actorID actorType tenantID).any
      (EffectivePermission.grants permission scopeType scopeID)=true ↔
      Granted db now actorID actorType tenantID permission scopeType scopeID := by
  unfold effectivePermissions Granted
  simp only [any_eq_true,mem_dedup,mem_flatMap,mem_filterMap,mem_filter,Bool.and_eq_true,decide_eq_true_eq]
  constructor
  · rintro ⟨ep,⟨ar,⟨har,⟨⟨hactor,htype⟩,htenant⟩,hlive⟩,rp,⟨hrp,hrole⟩,p,⟨hp,hperm⟩,hep⟩,hgrants⟩
    have hany := (Option.any_eq_true _ _).mpr ⟨ep,hep,hgrants⟩
    obtain ⟨hname,hina,hinr⟩ := (grants_intersection _ _ _ _ _ _).mp hany
    exact ⟨ar,har,⟨hactor,htype,htenant,hlive⟩,rp,hrp,hrole,p,hp,hperm,hname,hina,hinr⟩
  · rintro ⟨ar,har,⟨hactor,htype,htenant,hlive⟩,rp,hrp,hrole,p,hp,hperm,hname,hina,hinr⟩
    have hany := (grants_intersection ar.scope rp.scope p.name permission scopeType scopeID).mpr ⟨hname,hina,hinr⟩
    obtain ⟨ep,hep,hgrants⟩ := (Option.any_eq_true _ _).mp hany
    exact ⟨ep,⟨ar,⟨har,⟨⟨hactor,htype⟩,htenant⟩,hlive⟩,rp,⟨hrp,hrole⟩,p,⟨hp,hperm⟩,hep⟩,hgrants⟩

theorem checkPermission_granted {actorID : String} (hactor : actorID≠"") :
    ∃ held,checkPermission db none now actorID actorType tenantID permission scopeType scopeID=.ok held ∧
      (held=true ↔ Granted db now actorID actorType (tenantOr tenantID) permission scopeType scopeID) := by
  refine ⟨_,?_,effectivePermissions_grants db now actorID actorType (tenantOr tenantID) permission scopeType scopeID⟩
  rw [checkPermission,if_neg hactor]

/-- An actor holds a permission at a scope if and only if it is not the empty actor and some unexpired role that it
has in the tenant, the default one if none is named, and some permission of that role contain the scope. -/
theorem checkPermission_iff_granted :
    ∃ held,checkPermission db none now actorID actorType tenantID permission scopeType scopeID=.ok held ∧
      (held=true ↔ actorID≠"" ∧
        Granted db now actorID actorType (tenantOr tenantID) permission scopeType scopeID) := by
  by_cases hactor : actorID=""
  · refine ⟨false,if_pos hactor,?_⟩
    exact ⟨nofun,fun h => absurd hactor h.1⟩
  · obtain ⟨held,hcheck,hiff⟩ := checkPermission_granted db now actorType tenantID permission scopeType scopeID hactor
    exact ⟨held,hcheck,hiff.trans ⟨fun h => ⟨hactor,h⟩,fun h => h.2⟩⟩

def everywhere : Scope := ⟨.global,none,rfl⟩

/-- An actor that holds a role with one permission everywhere. -/
def sampleDb (actorID : String) : AccessDb where
  actorRoles := [⟨"ar-1",actorID,.apiKey,"r-viewer",none,defaultTenantID,everywhere⟩]
  rolePermissions := [⟨"r-viewer","p-cert-read",everywhere⟩]
  permissions := [⟨"p-cert-read","cert.read"⟩]

/-- The empty actor has a role that grants the permission and is refused; an actor asked for without a tenant is
granted what it holds in the default tenant. -/
theorem empty_actor_and_tenant : Granted (sampleDb "") 0 "" .apiKey defaultTenantID "cert.read" .global none ∧
    checkPermission (sampleDb "") none 0 "" .apiKey defaultTenantID "cert.read" .global none=.ok false ∧
    ¬Granted (sampleDb "alice") 0 "alice" .apiKey "" "cert.read" .global none ∧
    checkPermission (sampleDb "alice") none 0 "alice" .apiKey "" "cert.read" .global none=.ok true := by
  refine ⟨?_,rfl,?_,by decide⟩
  · exact (effectivePermissions_grants _ _ _ _ _ _ _ _).mp (by decide)
  · exact fun h => absurd ((effectivePermissions_grants _ _ _ _ _ _ _ _).mpr h) (by decide)

end Grants

end Certctl.AccessDecisions
