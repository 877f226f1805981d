import Certctl.FirstAdmin

/-!
# Roles of a federated login

The callback of a login maps the groups of the token to roles, stores the user
and mints a session. The minter is given the roles and drops them, and a
request with the session is decided by the grants of the user alone. So the
roles that the callback reports hold exactly as far as grants confer them.
-/

namespace Certctl.FederatedRoles

open DomainRecords AccessDecisions
open FirstAdmin (Config adminExists)
open RoleGrants (GrantRequest Surroundings insertActorRole)

/-- A user and the identity behind it. -/
structure User where
  id : String
  oidcProviderID : String
  oidcSubject : String
  deactivatedAt : Option Time
  /-- A stored row has passed validation. -/
  named : id≠""

/-- The role of a group. -/
structure GroupRoleMapping where
  providerID : String
  groupName : String
  roleID : String

/-- The columns of a session that name its actor. -/
structure Session where
  id : String
  actorID : String
  actorType : ActorType
  tenantID : String

/-- The tables that a login uses. -/
structure LoginDb where
  users : List User
  mappings : List GroupRoleMapping
  access : AccessDb
  sessions : List Session

/-- Calls of the callback that may fail. -/
inductive Stage where
  | mapping
  | user
  | probe
  | session

/-- What the environment decides: failures, the clock and the identifiers drawn. -/
structure Env extends Surroundings where
  stageFault : Stage→Err := fun _ => none
  userID : String := ""
  sessionID : String := ""

/-- What the callback returns. -/
structure CallbackResult where
  user : User
  roleIDs : List String
  /-- The session that the cookie names. -/
  cookie : String

def roleIDAdmin : String := "r-admin"

def Env.call (e : Env) (stage : Stage) (front : String) : Try Unit :=
  match e.stageFault stage with
  | some err => .error (err.wrapped front)
  | none => .ok ()

def mapGroups (mappings : List GroupRoleMapping) (providerID : String) (groupNames : List String) : List String :=
  ((mappings.filter fun m => m.providerID=providerID && groupNames.contains m.groupName).map (·.roleID)).dedup

def appendIfMissing (ss : List String) (v : String) : List String := if ss.contains v then ss else ss++[v]

variable (cfg : Config) (e : Env) (db : LoginDb) (providerID subject : String) (groups : List String)

/-- The user of the identity and the rows afterwards; the other columns of a known user are not used. -/
def upsertUser : Try (User×List User) := do
  e.call .user "oidc: upsert user: "
  match db.users.find? fun u => u.oidcProviderID=providerID && u.oidcSubject=subject with
  | some existing =>
    if existing.deactivatedAt.isSome then .error ⟨"oidc: upsert user: oidc: user account is deactivated",none⟩
    else .ok (existing,db.users)
  | none => .ok (⟨"u-"++e.userID,providerID,subject,none,by simp⟩,
      db.users++[⟨"u-"++e.userID,providerID,subject,none,by simp⟩])

def adminGrant (userID : String) : GrantRequest := ⟨"",userID,.user,roleIDAdmin,none,defaultTenantID,.unset,none⟩

def adminRows (access : AccessDb) : List FirstAdmin.AdminRow :=
  (access.actorRoles.filter fun ar => ar.roleID=roleIDAdmin && ar.tenantID=defaultTenantID).map
    fun ar => ⟨⟨ar.actorID,ar.actorType⟩,ar.expiresAt⟩

/-- Whether the user becomes the first administrator, and the grants afterwards. -/
def adminBootstrapHook (userID : String) : Try (Bool×AccessDb) :=
  if cfg.bootstrapGroups=[] ∨ cfg.bootstrapProviderID≠"" ∧ providerID≠cfg.bootstrapProviderID then .ok (false,db.access)
  else do
    e.call .probe "oidc: admin bootstrap: admin existence probe: "
    if adminExists e.now (adminRows db.access) ∨ ¬groups.any cfg.bootstrapGroups.contains then .ok (false,db.access)
    else
      match insertActorRole db.access e.toSurroundings (adminGrant userID) with
      | (some err,_) => .error (err.wrapped "oidc: admin bootstrap: grant r-admin: ")
      | (none,access) => .ok (true,access)

/-- The roles are not used: the check of a request looks the grants up. -/
def mintForUser (user : User) (_ : List String) : Try Session := do
  e.call .session "oidc: session mint: "
  if db.sessions.any (·.id=e.sessionID) then .error ⟨"oidc: session mint: session: create row: auth: duplicate name",none⟩
  else .ok ⟨e.sessionID,user.id,.user,defaultTenantID⟩

def rolesOf (granted : Bool) : List String :=
  if granted then appendIfMissing (mapGroups db.mappings providerID groups) roleIDAdmin
  else mapGroups db.mappings providerID groups

/-- A callback from the groups of its token on. -/
def handleCallback : Try (CallbackResult×LoginDb) := do
  e.call .mapping "oidc: group-role mapping lookup: "
  let (user,users) ← upsertUser e db providerID subject
  let (granted,access) ← adminBootstrapHook cfg e db providerID groups user.id
  if rolesOf db providerID groups granted=[] then .error ⟨"oidc: groups did not match any configured mapping",none⟩
  else do
    let session ← mintForUser e db user (rolesOf db providerID groups granted)
    .ok (⟨user,rolesOf db providerID groups granted,session.id⟩,⟨users,db.mappings,access,db.sessions++[session]⟩)

/-- The check of a request that carries a cookie. -/
def authorize (now : Time) (cookie permission : String) (scopeType : ScopeType) (scopeID : Option String) : Try Bool :=
  match db.sessions.find? (·.id=cookie) with
  | none => .ok false
  | some s => checkPermission db.access none now s.actorID s.actorType s.tenantID permission scopeType scopeID

/-- Some permission of the roles contains the requested scope. -/
def Confers (access : AccessDb) (roleIDs : List String) (permission : String) (scopeType : ScopeType)
    (scopeID : Option String) : Prop :=
  ∃ rp∈access.rolePermissions,rp.roleID∈roleIDs ∧ ∃ p∈access.permissions,p.id=rp.permissionID ∧ p.name=permission ∧
    rp.scope.contains scopeType scopeID

/-- Requests with the cookie may do all that the reported roles confer, and nothing that neither they nor a grant
confers. -/
def CarriesRoles (now : Time) (res : CallbackResult) : Prop :=
  ∀ permission scopeType scopeID, (Confers db.access res.roleIDs permission scopeType scopeID →
      authorize db now res.cookie permission scopeType scopeID=.ok true) ∧
    (¬Confers db.access res.roleIDs permission scopeType scopeID →
      ¬Granted db.access now res.user.id .user defaultTenantID permission scopeType scopeID →
      authorize db now res.cookie permission scopeType scopeID=.ok false)

variable {cfg e db providerID subject groups} {res : CallbackResult} {db' : LoginDb}

section

variable (h : handleCallback cfg e db providerID subject groups=.ok (res,db'))
include h

/-- A callback that succeeds has stored a session of the user. -/
theorem handleCallback_ok : ∃ users granted,upsertUser e db providerID subject=.ok (res.user,users) ∧
      adminBootstrapHook cfg e db providerID groups res.user.id=.ok (granted,db'.access) ∧
      res.roleIDs=rolesOf db providerID groups granted ∧
      db'.sessions.find? (·.id=res.cookie)=some ⟨res.cookie,res.user.id,.user,defaultTenantID⟩ := by
  obtain ⟨-,-,h⟩ := bind_ok.mp h
  obtain ⟨⟨user,users⟩,huser,h⟩ := bind_ok.mp h
  obtain ⟨⟨granted,access⟩,hhook,h⟩ := bind_ok.mp h
  dsimp only at h
  split_ifs at h
  obtain ⟨session,hmint,h⟩ := bind_ok.mp h
  obtain ⟨-,-,hmint⟩ := bind_ok.mp hmint
  split_ifs at hmint with hused
  cases hmint
  cases h
  refine ⟨users,granted,huser,hhook,rfl,?_⟩
  have hnew : db.sessions.find? (·.id=e.sessionID)=none := by simpa using hused
  simp [hnew]

theorem authorize_eq (now : Time) (permission : String) (scopeType : ScopeType) (scopeID : Option String) :
    ∃ held,authorize db' now res.cookie permission scopeType scopeID=.ok held ∧
      (held=true ↔ Granted db'.access now res.user.id .user defaultTenantID permission scopeType scopeID) := by
  obtain ⟨-,-,-,-,-,hsession⟩ := handleCallback_ok h
  rw [authorize,hsession]
  exact checkPermission_granted db'.access now .user defaultTenantID permission scopeType scopeID res.user.named

end

/-- A login carries its roles if and only if the grants that its user has when the callback has run, which are those
from before and at most a first administrator's, confer all that the roles confer. -/
theorem roles_carried_iff (h : handleCallback cfg e db providerID subject groups=.ok (res,db')) (now : Time) :
    CarriesRoles db' now res ↔ ∀ user users granted access,upsertUser e db providerID subject=.ok (user,users) →
      adminBootstrapHook cfg e db providerID groups user.id=.ok (granted,access) → ∀ permission scopeType scopeID,
        Confers access (rolesOf db providerID groups granted) permission scopeType scopeID →
          Granted access now user.id .user defaultTenantID permission scopeType scopeID := by
  obtain ⟨users,granted,huser,hhook,hroles,-⟩ := handleCallback_ok h
  constructor
  · intro hcarries user users' granted' access huser' hhook' permission scopeType scopeID hconfers
    cases huser.symm.trans huser'
    cases hhook.symm.trans hhook'
    obtain ⟨held,hheld,hiff⟩ := authorize_eq h now permission scopeType scopeID
    rw [← hroles] at hconfers
    have htrue := hheld.symm.trans ((hcarries permission scopeType scopeID).1 hconfers)
    exact hiff.mp (Except.ok.inj htrue)
  · intro hcovered permission scopeType scopeID
    obtain ⟨held,hheld,hiff⟩ := authorize_eq h now permission scopeType scopeID
    rw [hheld]
    refine ⟨fun hconfers => congrArg Except.ok (hiff.mpr ?_),fun _ hnot => congrArg Except.ok ?_⟩
    · exact hcovered _ _ _ _ huser hhook permission scopeType scopeID (hroles ▸ hconfers)
    · exact Bool.eq_false_iff.mpr fun hyes => hnot (hiff.mp hyes)

def sampleConfig : Config := ⟨[],"","",fun _ => true⟩

/-- A user who has logged in before, and one group that is mapped to a role that reads certificates. -/
def sampleDb (rows : List ActorRole) : LoginDb where
  users := [⟨"u-1","op-1","sub",none,by decide⟩]
  mappings := [⟨"op-1","readers","r-viewer"⟩]
  access := ⟨rows,[⟨"r-viewer","p-cert-read",everywhere⟩],[⟨"p-cert-read","cert.read"⟩]⟩
  sessions := []

def sampleCallback (rows : List ActorRole) : Try (CallbackResult×LoginDb) :=
  handleCallback sampleConfig {sessionID := "ses-1"} (sampleDb rows) "op-1" "sub" ["readers"]

def sampleGrant : ActorRole := ⟨"ar-1","u-1",.user,"r-viewer",none,defaultTenantID,everywhere⟩

/-- A user who was granted the mapped role before. -/
theorem roles_carried_iff_sample : ∃ res db',sampleCallback [sampleGrant]=.ok (res,db') ∧ CarriesRoles db' 0 res := by
  refine ⟨_,_,rfl,(roles_carried_iff (show sampleCallback [sampleGrant]=_ from rfl) 0).mpr ?_⟩
  intro user users granted access huser hhook permission scopeType scopeID hconfers
  cases huser
  cases hhook
  obtain ⟨rp,hrp,-,p,hp,hid,hname,hcontains⟩ := hconfers
  cases List.mem_singleton.mp hrp
  exact ⟨sampleGrant,List.mem_cons_self,⟨rfl,rfl,rfl,rfl⟩,_,hrp,rfl,p,hp,hid,hname,Or.inl rfl,hcontains⟩

/-- A user without grants is told the role and may not read. -/
theorem mapped_role_not_carried : ∃ res db',sampleCallback []=.ok (res,db') ∧ res.roleIDs=["r-viewer"] ∧
    ¬CarriesRoles db' 0 res := by
  refine ⟨_,_,rfl,rfl,fun hcarries => ?_⟩
  have hread := (hcarries "cert.read" .global none).1
    ⟨_,List.mem_cons_self,List.mem_cons_self,_,List.mem_cons_self,rfl,rfl,Or.inl rfl⟩
  exact absurd hread (by decide)

end Certctl.FederatedRoles
