import Certctl.OcspRequestTracking

/-!
# Status responses after a revocation

Any number of cache requests run beside one revocation. A signing that has
looked the revocation up before it was stored may still write a good
response into the cache after the invalidation, or hand one to requests
that join it. When the invalidation deletes the cached row at a moment at
which no unfinished request has decided that way, every request that starts
afterwards returns a response signed as revoked.
-/

namespace Certctl.OcspFreshness

open AtomicProgram AtomicInterleaving ControlPlaneTables ControlPlaneStore DomainRecords RecordTable
  SingleFlight OcspResponder RevocationService OcspRequestTracking Option Function
open List hiding lookup modify

section Tables

variable {key : String×String} {db₀ db db' : Db} {c : Choice} {g : Watch}

/-- Issuers, profiles and the profile of every certificate are as at the start, and no
revocation of the serial number is of an exempt certificate. -/
structure TablesKept (key : String×String) (db₀ db : Db) : Prop where
  issuers : db.issuers=db₀.issuers
  profiles : db.profiles=db₀.profiles
  certs : ∀ id,(lookup ManagedCertificate.id id db.certs).map (·.certificateProfileID)=
    (lookup ManagedCertificate.id id db₀.certs).map (·.certificateProfileID)
  rows : ∀ rev∈db.revocations,revocationKey rev=key → shortLivedCert db₀ rev.certificateID=false

def CacheRevoked (key : String×String) (db : Db) : Prop :=
  ∀ entry,lookup cacheKey key db.ocspCache=some entry → saysRevoked entry.responseDER=true

theorem certs_updateCertificate {cert : ManagedCertificate} (h : TablesKept key db₀ db)
    (hcert : (lookup ManagedCertificate.id cert.id db₀.certs).map (·.certificateProfileID)=
      some cert.certificateProfileID) (id : String) :
    (lookup ManagedCertificate.id id
      (modify ManagedCertificate.id cert.id (overwriteCertificate cert) db.certs)).map (·.certificateProfileID)=
      (lookup ManagedCertificate.id id db₀.certs).map (·.certificateProfileID) := by
  have hkeys : ∀ row,(overwriteCertificate cert row).id=row.id := fun _ => rfl
  rw [← h.certs id]
  by_cases hid : id=cert.id
  · have hrow := h.certs cert.id
    rw [hcert] at hrow
    obtain ⟨row,hfound,hprofile⟩ := map_eq_some_iff.mp hrow
    rw [hid,lookup_modify_self hkeys,hfound]
    exact congrArg some hprofile.symm
  · rw [lookup_modify_of_ne hkeys hid]

variable {w : Write}

theorem tablesKept_write (h : TablesKept key db₀ db) (hw : allowed key db₀ g w)
    (hok : applyWrite c db w=.ok db') : TablesKept key db₀ db' := by
  obtain ⟨-,rfl⟩ := applyWrite_ok hok
  cases w with
  | updateCertificate => exact ⟨h.issuers,h.profiles,certs_updateCertificate h hw,h.rows⟩
  | createRevocation =>
    simp only [written]
    split
    · exact h
    refine ⟨h.issuers,h.profiles,h.certs,?_⟩
    intro rev hrev hkey
    rcases mem_append_row.mp hrev with hold|rfl
    · exact h.rows rev hold hkey
    · exact hw hkey
  | markIssuerNotified =>
    refine ⟨h.issuers,h.profiles,h.certs,?_⟩
    intro rev hrev hkey
    rcases mem_modify.mp hrev with ⟨hold,-⟩|⟨old,hold,-,rfl⟩
    · exact h.rows rev hold hkey
    · exact h.rows old hold hkey
  | putOCSPResponse | deleteOCSPResponse => exact ⟨h.issuers,h.profiles,h.certs,h.rows⟩
  | _ => cases hw

theorem hasRow_write (h : HasRow key db) (hok : applyWrite c db w=.ok db') : HasRow key db' := by
  obtain ⟨-,rfl⟩ := applyWrite_ok hok
  obtain ⟨rev,hrev,hkey⟩ := h
  cases w with
  | createRevocation =>
    simp only [written]
    split
    · exact ⟨rev,hrev,hkey⟩
    · exact ⟨rev,mem_append_left _ hrev,hkey⟩
  | markIssuerNotified id =>
    by_cases hid : rev.id=id
    · exact ⟨notifiedRow rev,mem_modify.mpr (.inr ⟨rev,hrev,hid,rfl⟩),hkey⟩
    · exact ⟨rev,mem_modify.mpr (.inl ⟨hrev,hid⟩),hkey⟩
  | _ => exact ⟨rev,hrev,hkey⟩

theorem hasRow_revokes (hw : revokes key w=true) (hok : applyWrite c db w=.ok db') : HasRow key db' := by
  obtain ⟨-,rfl⟩ := applyWrite_ok hok
  cases w with
  | createRevocation revocation =>
    have hkey : revocationKey revocation=key := of_decide_eq_true hw
    simp only [written]
    split
    · rename_i hsome
      obtain ⟨row,hrow⟩ := isSome_iff_exists.mp hsome
      obtain ⟨hmem,hsame⟩ := lookup_some hrow
      exact ⟨row,hmem,hsame.trans hkey⟩
    · exact ⟨revocation,mem_append_right _ mem_cons_self,hkey⟩
  | _ => cases hw

/-- An allowed row write of a call that is not stale keeps the cached response revoked. -/
theorem cacheRevoked_write (h : CacheRevoked key db) (hw : allowed key db₀ g w)
    (hstale : g.stale=false) (hok : applyWrite c db w=.ok db') : CacheRevoked key db' := by
  obtain ⟨-,rfl⟩ := applyWrite_ok hok
  cases w with
  | putOCSPResponse =>
    intro found hfound
    simp only [written,lookup_upsert] at hfound
    split at hfound
    · rename_i hkey
      cases hfound
      exact (hw hkey).resolve_right (Bool.eq_false_iff.mp hstale)
    · exact h found hfound
  | deleteOCSPResponse i s =>
    intro found hfound
    by_cases hkey : key=(i,s)
    · rw [hkey] at hfound
      simp only [written,lookup_remove_self] at hfound
      cases hfound
    · simp only [written,lookup_remove_of_ne hkey] at hfound
      exact h found hfound
  | createRevocation =>
    simp only [written]
    split <;> exact h
  | _ => exact h

theorem cacheRevoked_delete (hok : applyWrite c db (.deleteOCSPResponse key.1 key.2)=.ok db') :
    CacheRevoked key db' := by
  obtain ⟨-,rfl⟩ := applyWrite_ok hok
  intro found hfound
  simp only [written,lookup_remove_self] at hfound
  cases hfound

theorem flight_write (hok : applyWrite c db w=.ok db') : db'.flight=db.flight := by
  obtain ⟨-,rfl⟩ := applyWrite_ok hok
  cases w with
  | createRevocation =>
    simp only [written]
    split <;> rfl
  | _ => rfl

end Tables

variable {f : ℕ}

section Steps

variable {svc : CAOperationsSvc} {key : String×String} {db₀ db db' : Db} {c : Choice} {g : Watch} {op : Op} {r : Res op}

/-- Calls whose failure the revocation only logs. -/
def mayFail : Op→Bool
  | .revokeCertificate _ _ _ => true
  | .sendRevocationNotification _ _ => true
  | _ => false

/-- The transaction meets every constraint. -/
def commits (c : Choice) (db : Db) : Op→Bool
  | .withinTx writes => (applyWrites c db writes).isOk
  | _ => true

/-- The call is answered without an error of the environment or of a constraint. -/
def answered (c : Choice) (db : Db) (op : Op) : Prop := mayFail op=true ∨ (c.fault=none ∧ commits c db op=true)

theorem answer_of_answered {α : Type} {a : α} {r : Try α} (hfault : c.fault=none)
    (h : answer c db a=(r,db')) : r=.ok a := by
  simp only [answer,fallible,hfault] at h
  exact (congrArg Prod.fst h).symm

theorem withinTx_answered {writes : List Write} {r : Try Unit}
    (hok : answered c db (.withinTx writes)) (h : effect c db (.withinTx writes)=(r,db')) :
    r=.ok () ∧ applyWrites c db writes=.ok db' := by
  obtain ⟨hfault,hcommits⟩ := hok.resolve_left nofun
  simp only [commits] at hcommits
  cases hall : applyWrites c db writes with
  | error =>
    rw [hall] at hcommits
    cases hcommits
  | ok =>
    simp only [effect,fallible,hfault,hall] at h
    cases h
    exact ⟨rfl,rfl⟩

/-- While the tables are kept, every answer is one the calls are followed with. -/
theorem answers_of_effect (hkept : TablesKept key db₀ db) (hok : answered c db op)
    (h : effect c db op=(r,db')) : answers key db₀ op r := by
  cases op with
  | getIssuer i =>
    have hr : db.issuers.contains i=r := congrArg Prod.fst h
    rw [hkept.issuers] at hr
    exact hr.symm
  | getCertificate id =>
    intro cert hr
    rw [hr] at h
    have hrow := (readRow_ok h).1
    refine ⟨(lookup_some hrow).2,?_⟩
    rw [← hkept.certs id,hrow]
    rfl
  | getProfile =>
    intro profile hr
    rw [hr] at h
    rw [← hkept.profiles]
    obtain ⟨row,hfound,rfl⟩ := map_eq_some_iff.mp (readRow_ok h).1
    exact ⟨row,hfound,rfl⟩
  | getRevocationByIssuerAndSerial =>
    intro rev hr hkey
    rw [hr] at h
    obtain ⟨hmem,hrev⟩ := lookup_some (readRow_ok h).1
    exact hkept.rows rev hmem (hrev.trans hkey)
  | getOCSPResponse => exact ⟨_,answer_of_answered (hok.resolve_left nofun).1 h⟩
  | signOCSPResponse => exact answer_of_answered (hok.resolve_left nofun).1 h
  | withinTx => exact (withinTx_answered hok h).1
  | _ => trivial

theorem tablesKept_effect (hkept : TablesKept key db₀ db)
    (hallowed : ∀ writes,op=.withinTx writes → ∀ w∈writes,allowed key db₀ g w) (h : effect c db op=(r,db')) :
    TablesKept key db₀ db' := by
  refine effect_keeps h ?_ ?_ hkept
  · intro a b hsame ha
    refine ⟨hsame.issuers.trans ha.issuers,hsame.profiles.trans ha.profiles,?_,?_⟩
    · rw [hsame.certs]
      exact ha.certs
    · rw [hsame.revocations]
      exact ha.rows
  · exact fun writes hop w hw a b ha hab => tablesKept_write ha (hallowed writes hop w hw) hab

theorem hasRow_step (hrow : HasRow key db) (h : effect c db op=(r,db')) : HasRow key db' := by
  refine effect_keeps h ?_ ?_ hrow
  · intro a b hsame ha
    unfold HasRow
    rw [hsame.revocations]
    exact ha
  · exact fun _ _ w _ a b ha hab => hasRow_write ha hab

/-- A call that has committed its revocation row finds it stored. -/
theorem committed_step (hbefore : g.committed=true → HasRow key db) (h : effect c db op=(r,db'))
    (hafter : (watch svc key g op r).committed=true) : HasRow key db' := by
  by_cases hg : g.committed=true
  · exact hasRow_step (hbefore hg) h
  cases op with
  | withinTx =>
    rcases withinTx_cases h with ⟨rfl,hall⟩|⟨err,rfl,-⟩
    · simp only [watch,Bool.or_eq_true] at hafter
      rcases hafter with hold|hany
      · exact absurd hold hg
      obtain ⟨w,hmem,hrevokes⟩ := any_eq_true.mp hany
      exact applyWrites_reaches (fun w _ a b ha hab => hasRow_write ha hab) hmem
        (fun a b hab => hasRow_revokes hrevokes hab) hall
    · exact absurd hafter hg
  | getRevocationByIssuerAndSerial | getOCSPResponse =>
    simp only [watch] at hafter
    split at hafter <;> exact absurd hafter hg
  | _ => exact absurd hafter hg

/-- The operation deletes the cached response of the serial number. -/
def invalidates (key : String×String) : Op→Bool
  | .withinTx writes => decide (.deleteOCSPResponse key.1 key.2∈writes)
  | _ => false

theorem cacheRevoked_step (hcache : CacheRevoked key db) (hobeys : obeys key db₀ g op r)
    (hstale : g.stale=false) (h : effect c db op=(r,db')) : CacheRevoked key db' := by
  refine effect_keeps h ?_ ?_ hcache
  · intro a b hsame ha
    unfold CacheRevoked
    rw [hsame.ocspCache]
    exact ha
  · intro writes hop w hw a b ha hab
    subst hop
    exact cacheRevoked_write ha (hobeys.1 w hw) hstale hab

theorem cacheRevoked_invalidates (hop : invalidates key op=true) (hobeys : obeys key db₀ g op r)
    (hstale : g.stale=false) (hok : answered c db op) (h : effect c db op=(r,db')) : CacheRevoked key db' := by
  cases op with
  | withinTx writes =>
    have hmem : .deleteOCSPResponse key.1 key.2∈writes := of_decide_eq_true hop
    exact applyWrites_reaches (fun w hw a b ha hab => cacheRevoked_write ha (hobeys.1 w hw) hstale hab) hmem
      (fun a b hab => cacheRevoked_delete hab) (withinTx_answered hok h).2
  | _ => cases hop

/-- What an operation can do to the signings in flight and to the lead of its call. -/
inductive FlightMove (key : String×String) (g g' : Watch)
    (fl fl' : Flights String (Try OCSPResponse)) : Prop where
  | stay (hfl : fl'=fl) (hleads : g'.leads=g.leads)
  /-- The call begins to lead a signing for a free key. -/
  | start {k : String} (hfree : fl.load k=none) (hidle : g.leads=none) (hrequest : g.revoker=false)
      (hfl : fl'=fl.store k) (hleads : g'.leads=some ⟨k,fl.entries.length,false⟩)
  /-- The call records the outcome of the signing it leads. -/
  | close {k : String} {f : ℕ} {b : Try OCSPResponse} (hlead : g.leads=some ⟨k,f,false⟩)
      (hb : k=flightKey key.1 key.2 → revokedOutcome b=true ∨ g.stale=true) (hfl : fl'=fl.close f b)
      (hleads : g'.leads=some ⟨k,f,true⟩)
  /-- The call takes its closed signing out of the map. -/
  | leave {k : String} {f : ℕ} (hlead : g.leads=some ⟨k,f,true⟩) (hfl : fl'=fl.delete k)
      (hleads : g'.leads=none)

def flies : Op→Bool
  | .flightLoad _ | .flightLoadOrStore _ | .flightClose _ _ | .flightDelete _ => true
  | _ => false

/-- Other operations leave what the call knows of signings in flight. -/
theorem watch_grounded (hop : flies op=false) : (watch svc key g op r).leads=g.leads ∧
    (watch svc key g op r).seen=g.seen ∧ (watch svc key g op r).led=g.led ∧
    (watch svc key g op r).mine=g.mine ∧ (watch svc key g op r).revoker=g.revoker := by
  cases op with
  | getRevocationByIssuerAndSerial | getOCSPResponse =>
    simp only [watch]
    split <;> exact ⟨rfl,rfl,rfl,rfl,rfl⟩
  | withinTx =>
    cases r with
    | ok | error => exact ⟨rfl,rfl,rfl,rfl,rfl⟩
  | flightLoad | flightLoadOrStore | flightClose | flightDelete => cases hop
  | _ => exact ⟨rfl,rfl,rfl,rfl,rfl⟩

/-- Every operation of a call that obeys the watch is such a move. -/
theorem flightMove_step (svc : CAOperationsSvc) (hobeys : obeys key db₀ g op r) (h : effect c db op=(r,db')) :
    FlightMove key g (watch svc key g op r) db.flight db'.flight := by
  have hread : op.readOnly=true → db'.flight=db.flight := by
    intro hro
    have hsame := effect_readOnly c db hro
    rw [h] at hsame
    exact congrArg Db.flight hsame
  cases op with
  | flightLoadOrStore k =>
    cases hload : db.flight.load k with
    | some =>
      simp only [effect,Flights.loadOrStore,hload] at h
      cases h
      exact .stay rfl rfl
    | none =>
      simp only [effect,Flights.loadOrStore,hload] at h
      cases h
      exact .start hload hobeys.1 hobeys.2.1 rfl rfl
  | flightClose =>
    obtain ⟨k,hlead,hb⟩ := hobeys
    cases h
    refine .close hlead hb rfl ?_
    simp only [watch,hlead,map_some]
  | flightDelete =>
    obtain ⟨f,hlead⟩ := hobeys
    cases h
    exact .leave hlead rfl rfl
  | withinTx =>
    refine .stay ?_ (watch_grounded rfl).1
    rcases withinTx_cases h with ⟨-,hall⟩|⟨err,-,rfl⟩
    · exact applyWrites_keeps (P := fun a => a.flight=db.flight)
        (fun w _ a b ha hab => (flight_write hab).trans ha) rfl hall
    · rfl
  | flightLoad | flightWait => exact .stay (hread rfl) rfl
  | _ => exact .stay (hread hobeys) (watch_grounded rfl).1

theorem stale_mono (hstale : g.stale=true) : (watch svc key g op r).stale=true := by
  cases op with
  | getRevocationByIssuerAndSerial =>
    simp only [watch]
    split
    · simp only [hstale,Bool.true_or]
    · exact hstale
  | getOCSPResponse =>
    simp only [watch]
    split <;> exact hstale
  | withinTx =>
    cases r with
    | ok | error => exact hstale
  | _ => exact hstale

/-- While the revocation is stored, no answered lookup makes a call stale. -/
theorem stale_step (hrow : HasRow key db) (hok : answered c db op) (h : effect c db op=(r,db'))
    (hstale : g.stale=false) : (watch svc key g op r).stale=false := by
  cases op with
  | getRevocationByIssuerAndSerial =>
    simp only [watch]
    split
    · rename_i hkey
      have hfault := (hok.resolve_left Bool.false_ne_true).1
      obtain ⟨rev,hmem,hrev⟩ := hrow
      obtain ⟨row,hlookup⟩ := lookup_isSome ⟨rev,hmem,hrev.trans hkey.symm⟩
      simp only [effect,readRow,fallible,hfault,hlookup] at h
      cases h
      simp only [hstale,foundNone,Bool.and_false,Bool.or_false]
    · exact hstale
  | getOCSPResponse =>
    simp only [watch]
    split <;> exact hstale
  | withinTx =>
    cases r with
    | ok | error => exact hstale
  | _ => exact hstale

/-- A signing seen for the first time is in flight for its key afterwards. -/
theorem seen_step (hobeys : obeys key db₀ g op r) (h : effect c db op=(r,db'))
    (hseen : (watch svc key g op r).seen=some f) :
    g.seen=some f ∨ ∃ k,(g.mine=true → k=flightKey key.1 key.2) ∧ db'.flight.load k=some f := by
  cases op with
  | flightLoad k =>
    cases h
    exact .inr ⟨k,hobeys,hseen⟩
  | flightLoadOrStore k =>
    refine .inr ⟨k,hobeys.2.2,?_⟩
    cases hload : db.flight.load k with
    | some =>
      simp only [effect,Flights.loadOrStore,hload] at h
      cases h
      cases hseen
      exact hload
    | none =>
      simp only [effect,Flights.loadOrStore,hload] at h
      cases h
      cases hseen
      rw [Flights.load_store,if_pos rfl]
  | flightClose | flightDelete => exact .inl hseen
  | _ => exact .inl ((watch_grounded rfl).2.1.symm.trans hseen)

theorem flightWait_outcome {b : Try OCSPResponse} (hopen : blocked c db (.flightWait f)=false)
    (h : effect c db (.flightWait f)=(b,db')) : db.flight.entries[f]?=some (some b) := by
  simp only [blocked,Flights.outcome] at hopen
  simp only [effect,Flights.outcome] at h
  cases he : db.flight.entries[f]? with
  | none => simp [he] at hopen
  | some out =>
    cases out with
    | none => simp [he] at hopen
    | some b' =>
      simp only [he,join_some] at h
      have hb : b'=b := congrArg Prod.fst h
      rw [hb]

/-- A request whose seen signings are safe is not misled while the cached response says revoked. -/
theorem misled_step {ι : Type} {leads : ι→Option (Lead String)} (hled : Led leads db.flight)
    (hcache : CacheRevoked key db) (hmisled : g.misled=false) (hsafe : ∀ f,g.seen=some f →
      Safe (revokedOutcome ·=true) leads db.flight (flightKey key.1 key.2) f)
    (hobeys : obeys key db₀ g op r) (hopen : blocked c db op=false) (hok : answered c db op)
    (h : effect c db op=(r,db')) : (watch svc key g op r).misled=false := by
  cases op with
  | getOCSPResponse =>
    simp only [watch]
    split
    · rename_i hkey
      rw [answer_of_answered (hok.resolve_left Bool.false_ne_true).1 h,hkey]
      cases hfound : lookup cacheKey key db.ocspCache with
      | none => simp only [hmisled,misleading,Bool.or_false]
      | some entry => simp only [hmisled,misleading,hcache entry hfound,Bool.not_true,Bool.or_false]
    · exact hmisled
  | flightWait f =>
    have hdone := flightWait_outcome hopen h
    have hrevoked : revokedOutcome r=true := by
      rcases hsafe f hobeys.2.2 with ⟨b,hb,hP⟩|⟨u,hu⟩
      · rw [hdone] at hb
        cases hb
        exact hP
      · rw [hled.isOpen hu] at hdone
        cases hdone
    simp only [watch,hmisled,hrevoked,Bool.not_true,Bool.or_false]
  | getRevocationByIssuerAndSerial => exact (same_lookup r).misled.trans hmisled
  | withinTx =>
    cases r with
    | ok | error => exact hmisled
  | _ => exact hmisled

end Steps

section Families

variable {ι : Type} [DecidableEq ι] {W : ι→Watch} {t : ι} {key : String×String} {g' : Watch}
  {fl fl' : Flights String (Try OCSPResponse)}

def leadsOf (W : ι→Watch) : ι→Option (Lead String) := fun u => (W u).leads

theorem leadsOf_update (W : ι→Watch) (t : ι) (g' : Watch) :
    leadsOf (Function.update W t g')=Function.update (leadsOf W) t g'.leads :=
  comp_update Watch.leads W t g'

theorem leadsOf_stay (hleads : g'.leads=(W t).leads) : leadsOf (Function.update W t g')=leadsOf W := by
  rw [leadsOf_update,hleads]
  exact update_eq_self t (leadsOf W)

theorem flight_move (h : Led (leadsOf W) fl) (hmove : FlightMove key (W t) g' fl fl') :
    Led (leadsOf (Function.update W t g')) fl' ∧ ((W t).stale=false →
      Safe (revokedOutcome ·=true) (leadsOf W) fl (flightKey key.1 key.2) f →
        Safe (revokedOutcome ·=true) (leadsOf (Function.update W t g')) fl' (flightKey key.1 key.2) f) := by
  cases hmove with
  | stay hfl hleads =>
    rw [leadsOf_stay hleads,hfl]
    exact ⟨h,fun _ hsafe => hsafe⟩
  | start hfree hidle hrequest hfl hleads =>
    rw [leadsOf_update,hleads,hfl]
    exact ⟨h.store hfree hidle,fun _ hsafe => hsafe.store h hidle _⟩
  | close hlead hb hfl hleads =>
    rw [leadsOf_update,hleads,hfl]
    refine ⟨h.close hlead _,fun hstale hsafe => hsafe.close h hlead fun hk => ?_⟩
    exact (hb hk).resolve_right (Bool.eq_false_iff.mp hstale)
  | leave hlead hfl hleads =>
    rw [leadsOf_update,hleads,hfl]
    exact ⟨h.delete hlead,fun _ hsafe => hsafe.delete hlead⟩

theorem length_move {g : Watch} (hmove : FlightMove key g g' fl fl') : fl.entries.length≤fl'.entries.length := by
  cases hmove with
  | stay hfl => rw [hfl]
  | start hfree hidle hrequest hfl =>
    rw [hfl,Flights.store,length_append]
    omega
  | close hlead hb hfl => rw [hfl,Flights.close,length_set]
  | leave hlead hfl => rw [hfl,Flights.delete]

/-- The outcome of a signing for the serial number that is still in the map says revoked,
unless its leader is stale. -/
def OutcomesKnown (key : String×String) (W : ι→Watch) (fl : Flights String (Try OCSPResponse)) : Prop :=
  ∀ u f b,(W u).leads=some ⟨flightKey key.1 key.2,f,true⟩ → fl.entries[f]?=some (some b) →
    revokedOutcome b=true ∨ (W u).stale=true

theorem outcomesKnown_move (h : Led (leadsOf W) fl) (hknown : OutcomesKnown key W fl)
    (hmove : FlightMove key (W t) g' fl fl') (hstale : (W t).stale=true → g'.stale=true) :
    OutcomesKnown key (Function.update W t g') fl' := by
  intro u f b hlead hb
  by_cases hu : u=t
  · subst hu
    rw [update_self] at hlead ⊢
    cases hmove with
    | stay hfl hleads =>
      rw [hleads] at hlead
      rw [hfl] at hb
      exact (hknown u f b hlead hb).imp_right hstale
    | start hfree hidle hrequest hfl hleads | leave hold hfl hleads =>
      rw [hleads] at hlead
      cases hlead
    | close hold hout hfl hleads =>
      rw [hleads] at hlead
      cases hlead
      have hlt : f<fl.entries.length := h.entry_lt hold
      rw [hfl,Flights.entries_close fl hlt,if_pos rfl] at hb
      cases hb
      exact (hout rfl).imp_right hstale
  · rw [update_of_ne hu] at hlead ⊢
    have hlt : f<fl.entries.length := h.entry_lt hlead
    refine hknown u f b hlead ?_
    cases hmove with
    | stay hfl | leave hold hfl =>
      rw [hfl] at hb
      exact hb
    | start hfree hidle hrequest hfl =>
      rw [hfl,Flights.entries_store,if_neg (by omega)] at hb
      exact hb
    | close hold hout hfl =>
      rw [hfl,Flights.entries_close fl (h.entry_lt hold),if_neg] at hb
      · exact hb
      · exact fun hsame => hu (h.same_entry hlead hold hsame.symm)

omit [DecidableEq ι] in
theorem safe_of_load (h : Led (leadsOf W) fl) (hknown : OutcomesKnown key W fl)
    (hfresh : ∀ u l,(W u).leads=some l → (W u).stale=false) (hload : fl.load (flightKey key.1 key.2)=some f) :
    Safe (revokedOutcome ·=true) (leadsOf W) fl (flightKey key.1 key.2) f := by
  obtain ⟨u,closed,hu⟩ := h.mapped hload
  cases closed with
  | false => exact .inr ⟨u,hu⟩
  | true =>
    obtain ⟨b,hb⟩ := h.isClosed hu
    exact .inl ⟨b,hb,(hknown u f b hu hb).resolve_right (Bool.eq_false_iff.mp (hfresh u _ hu))⟩

end Families

section Race

variable {ι : Type} [DecidableEq ι]

/-- Runs of requests beside one revocation. -/
abbrev Race (ι : Type) := Config controlPlane (Option ι) (Try (Option OCSPResponse))

abbrev RaceLog (ι : Type) := List (Event controlPlane (Option ι))

/-- Any family of requests, each for a serial number of its own, and one revocation. -/
def race (cache : OCSPResponseCacheService) (svc : RevocationSvc) (certID reason actor : String)
    (calls : ι→String×String) : Option ι→Service (Try (Option OCSPResponse))
  | none => revokeCall svc certID reason actor
  | some t => getCall cache (calls t).1 (calls t).2

def startWatch (key : String×String) (calls : ι→String×String) : Option ι→Watch
  | none => {revoker := true}
  | some t => {mine := decide (calls t=key)}

def watchOf (cache : OCSPResponseCacheService) (key : String×String) (calls : ι→String×String)
    (log : RaceLog ι) (t : Option ι) : Watch :=
  ghost (S := controlPlane) (watch cache.caSvc key) (startWatch key calls t) t log

/-- No call to a repository or to the signing connector fails. -/
def repositoriesAnswer : StepCondition controlPlane (Option ι) (Try (Option OCSPResponse)) :=
  fun cfg _ op c => answered c cfg.state op

/-- Besides, when the cached response of the serial number is deleted, no unfinished call
has decided on a status by a lookup that found no revocation. -/
def quietInvalidation (cache : OCSPResponseCacheService) (key : String×String) (calls : ι→String×String) :
    StepCondition controlPlane (Option ι) (Try (Option OCSPResponse)) :=
  fun cfg _ op c => answered c cfg.state op ∧
    (invalidates key op=true → ∀ u,(cfg.threads u).done=true ∨ (watchOf cache key calls cfg.log u).stale=false)

/-- The cached response of the serial number has been deleted. -/
def Invalidated (key : String×String) (log : RaceLog ι) : Prop := ∃ e∈log,invalidates key e.op=true

/-- The call has begun, if at all, after a deletion of the cached response. -/
def Late (key : String×String) (log : RaceLog ι) (t : Option ι) : Prop :=
  ∃ later e earlier,log=later++e::earlier ∧ invalidates key e.op=true ∧ own t (e::earlier)=[]

variable {cache : OCSPResponseCacheService} {key : String×String} {calls : ι→String×String}

theorem watchOf_cons (t : Option ι) (op : Op) (r : Res op) (log : RaceLog ι) :
    watchOf cache key calls (⟨t,op,r⟩::log)=Function.update (watchOf cache key calls log) t
      (watch cache.caSvc key (watchOf cache key calls log t) op r) :=
  ghost_cons (S := controlPlane) (watch cache.caSvc key) (startWatch key calls) t op r log

theorem watch_owner (svc : CAOperationsSvc) (g : Watch) (op : Op) (r : Res op) :
    (watch svc key g op r).mine=g.mine ∧ (watch svc key g op r).revoker=g.revoker := by
  cases op with
  | flightLoad | flightLoadOrStore | flightClose | flightDelete => exact ⟨rfl,rfl⟩
  | _ => exact (watch_grounded rfl).2.2.2

theorem watchOf_owner (log : RaceLog ι) (t : Option ι) :
    (watchOf cache key calls log t).mine=(startWatch key calls t).mine ∧
      (watchOf cache key calls log t).revoker=(startWatch key calls t).revoker :=
  ghost_keeps (P := fun g => g.mine=(startWatch key calls t).mine ∧
    g.revoker=(startWatch key calls t).revoker) ⟨rfl,rfl⟩
    (fun g op r h => ⟨(watch_owner _ g op r).1.trans h.1,(watch_owner _ g op r).2.trans h.2⟩) t log

theorem watch_led {svc : CAOperationsSvc} {g : Watch} {op : Op} {r : Res op} (h : g.led=true) :
    (watch svc key g op r).led=true := by
  cases op with
  | flightLoadOrStore =>
    obtain ⟨entry,loaded⟩ := r
    simp only [watch,h,Bool.true_or]
  | flightLoad | flightClose | flightDelete => exact h
  | _ => exact (watch_grounded rfl).2.2.1.trans h

variable {log : RaceLog ι} {l : Lead String} {t : Option ι}

/-- A call that leads a signing has begun to. -/
theorem watchOf_led (hlead : (watchOf cache key calls log t).leads=some l) : (watchOf cache key calls log t).led=true := by
  have hkept : (watchOf cache key calls log t).leads≠none → (watchOf cache key calls log t).led=true := by
    refine ghost_keeps (P := fun g : Watch => g.leads≠none → g.led=true) ?_ ?_ t log
    · cases t <;> exact fun h => absurd rfl h
    intro g op r h hne
    by_cases hg : g.leads=none
    · cases op with
      | flightLoadOrStore =>
        obtain ⟨entry,loaded⟩ := r
        cases loaded with
        | true => exact absurd hg hne
        | false => simp only [watch,Bool.not_false,Bool.or_true]
      | flightClose => exact absurd (by simp only [watch,hg,map_none]) hne
      | flightDelete => exact absurd rfl hne
      | flightLoad => exact absurd hg hne
      | _ => exact absurd ((watch_grounded rfl).1.trans hg) hne
    · exact watch_led (h hg)
  refine hkept ?_
  rw [hlead]
  exact Option.some_ne_none l

theorem late_cons {e : Event controlPlane (Option ι)} (h : Late key (e::log) t) : Late key log t ∨ (invalidates key e.op=true ∧ own t (e::log)=[]) := by
  obtain ⟨later,e',earlier,hlog,hop,hown⟩ := h
  cases later with
  | nil =>
    cases hlog
    exact .inr ⟨hop,hown⟩
  | cons e₀ later =>
    cases hlog
    exact .inl ⟨later,e',earlier,rfl,hop,hown⟩

theorem invalidated_of_late (h : Late key log t) : Invalidated key log := by
  obtain ⟨later,e,earlier,hlog,hop,-⟩ := h
  rw [hlog]
  exact ⟨e,mem_append_right _ mem_cons_self,hop⟩

theorem watchOf_of_own_nil (h : own t log=[]) : watchOf cache key calls log t=startWatch key calls t := by
  unfold watchOf ghost
  rw [h]
  rfl

variable {db₀ : Db}

/-- Every call of the run is followed by its watch. -/
abbrev RaceTracked (cache : OCSPResponseCacheService) (key : String×String) (calls : ι→String×String)
    (db₀ : Db) (cfg : Race ι) : Prop :=
  AllTracked (S := controlPlane) (answers key db₀) (obeys key db₀) (watch cache.caSvc key) settled
    (startWatch key calls) cfg

/-- What holds in every state of the run. -/
structure RaceInv (cache : OCSPResponseCacheService) (key : String×String) (calls : ι→String×String)
    (db₀ : Db) (cfg : Race ι) : Prop where
  kept : TablesKept key db₀ cfg.state
  committed : ∀ t,(watchOf cache key calls cfg.log t).committed=true → HasRow key cfg.state
  led : Led (leadsOf (watchOf cache key calls cfg.log)) cfg.state.flight
  known : OutcomesKnown key (watchOf cache key calls cfg.log) cfg.state.flight
  seen : ∀ t f,(watchOf cache key calls cfg.log t).seen=some f → f<cfg.state.flight.entries.length
  request : (watchOf cache key calls cfg.log none).leads=none
  row : Invalidated key cfg.log → HasRow key cfg.state
  cached : Invalidated key cfg.log → CacheRevoked key cfg.state
  fresh : Invalidated key cfg.log → ∀ t, (cfg.threads t).done=true ∨ (watchOf cache key calls cfg.log t).stale=false
  late : ∀ t,Late key cfg.log t → (watchOf cache key calls cfg.log t).mine=true →
    (watchOf cache key calls cfg.log t).misled=false ∧ (watchOf cache key calls cfg.log t).stale=false ∧
    ∀ f,(watchOf cache key calls cfg.log t).seen=some f →
      Safe (revokedOutcome ·=true) (leadsOf (watchOf cache key calls cfg.log)) cfg.state.flight
        (flightKey key.1 key.2) f

theorem not_done_of_leads {cfg : Race ι} (h : RaceTracked cache key calls db₀ cfg)
    (hlead : (watchOf cache key calls cfg.log t).leads=some l) : (cfg.threads t).done=false := by
  have ht := h t
  cases hp : cfg.threads t with
  | call => rfl
  | ret =>
    rw [hp] at ht
    have hnone : (watchOf cache key calls cfg.log t).leads=none := ht.1
    rw [hnone] at hlead
    cases hlead

section Step

variable {cfg : Race ι} {op : Op} {c : Choice} {r : Res op} {db' : Db} {k : Res op→Service (Try (Option OCSPResponse))}

theorem invalidated_step (h : RaceInv cache key calls db₀ cfg) (hok : quietInvalidation cache key calls cfg t op c)
    (hpre : obeys key db₀ (watchOf cache key calls cfg.log t) op r) (hinv : Invalidated key (⟨t,op,r⟩::cfg.log)) :
    HasRow key cfg.state ∧ ∀ u,(cfg.threads u).done=true ∨ (watchOf cache key calls cfg.log u).stale=false := by
  obtain ⟨e,he,hop⟩ := hinv
  rcases mem_cons.mp he with rfl|hold
  · refine ⟨?_,hok.2 hop⟩
    cases op with
    | withinTx => exact h.committed t (hpre.2.2 (of_decide_eq_true hop))
    | _ => cases hop
  · exact ⟨h.row ⟨e,hold,hop⟩,h.fresh ⟨e,hold,hop⟩⟩

theorem stepping_not_stale (hthread : cfg.threads t=.call op k)
    (hfresh : ∀ u,(cfg.threads u).done=true ∨ (watchOf cache key calls cfg.log u).stale=false) :
    (watchOf cache key calls cfg.log t).stale=false := by
  refine (hfresh t).resolve_left ?_
  rw [hthread]
  exact nofun

section

variable (h : RaceInv cache key calls db₀ cfg)
include h

section

variable (hmove : FlightMove key (watchOf cache key calls cfg.log t)
  (watch cache.caSvc key (watchOf cache key calls cfg.log t) op r) cfg.state.flight db'.flight)
include hmove

theorem led_step : Led (leadsOf (watchOf cache key calls (⟨t,op,r⟩::cfg.log))) db'.flight := by
  rw [watchOf_cons]
  exact (flight_move (f := 0) h.led hmove).1

theorem known_step : OutcomesKnown key (watchOf cache key calls (⟨t,op,r⟩::cfg.log)) db'.flight := by
  rw [watchOf_cons]
  exact outcomesKnown_move h.led h.known hmove stale_mono

theorem request_step : (watchOf cache key calls (⟨t,op,r⟩::cfg.log) none).leads=none := by
  rw [watchOf_cons]
  by_cases ht : none=t
  · subst ht
    cases hmove with
    | stay hfl hleads => exact hleads.trans h.request
    | start hfree hidle hrequest =>
      rw [(watchOf_owner _ _).2] at hrequest
      cases hrequest
    | close hlead =>
      rw [h.request] at hlead
      cases hlead
    | leave hlead hfl hleads => exact hleads
  · rw [update_of_ne ht]
    exact h.request

end

section

variable (hok : quietInvalidation cache key calls cfg t op c) (heff : effect c cfg.state op=(r,db'))
  (hpre : obeys key db₀ (watchOf cache key calls cfg.log t) op r) (hthread : cfg.threads t=.call op k)
include hok heff hpre hthread

theorem cached_step (hinv : Invalidated key (⟨t,op,r⟩::cfg.log)) : CacheRevoked key db' := by
  have hstale := stepping_not_stale hthread (invalidated_step h hok hpre hinv).2
  obtain ⟨e,he,hop⟩ := hinv
  rcases mem_cons.mp he with rfl|hold
  · exact cacheRevoked_invalidates hop hpre hstale hok.1 heff
  · exact cacheRevoked_step (h.cached ⟨e,hold,hop⟩) hpre hstale heff

theorem fresh_step (hinv : Invalidated key (⟨t,op,r⟩::cfg.log)) (u : Option ι) :
    ((cfg.advance t op r (k r) db').threads u).done=true ∨
      (watchOf cache key calls (⟨t,op,r⟩::cfg.log) u).stale=false := by
  obtain ⟨hrow,hfresh⟩ := invalidated_step h hok hpre hinv
  rw [watchOf_cons]
  by_cases hu : u=t
  · subst hu
    right
    rw [update_self]
    exact stale_step hrow hok.1 heff (stepping_not_stale hthread hfresh)
  · simp only [Config.advance,update_of_ne hu]
    exact hfresh u

/-- A late request is told nothing but revoked. -/
theorem late_step (hopen : blocked c cfg.state op=false)
    (htracked : RaceTracked cache key calls db₀ (cfg.advance t op r (k r) db'))
    {u : Option ι} (hlate : Late key (⟨t,op,r⟩::cfg.log) u)
    (hmine : (watchOf cache key calls (⟨t,op,r⟩::cfg.log) u).mine=true) :
    (watchOf cache key calls (⟨t,op,r⟩::cfg.log) u).misled=false ∧
    (watchOf cache key calls (⟨t,op,r⟩::cfg.log) u).stale=false ∧
    ∀ f,(watchOf cache key calls (⟨t,op,r⟩::cfg.log) u).seen=some f →
      Safe (revokedOutcome ·=true) (leadsOf (watchOf cache key calls (⟨t,op,r⟩::cfg.log))) db'.flight
        (flightKey key.1 key.2) f := by
  have hmove := flightMove_step cache.caSvc hpre heff
  have hinv := invalidated_of_late hlate
  obtain ⟨hrow,hfresh⟩ := invalidated_step h hok hpre hinv
  have hstale := stepping_not_stale hthread hfresh
  rcases late_cons hlate with hold|⟨-,hown⟩
  · have hmine₀ : (watchOf cache key calls cfg.log u).mine=true := by
      rw [(watchOf_owner _ _).1] at hmine ⊢
      exact hmine
    obtain ⟨hmisled,hstale₀,hsafe⟩ := h.late u hold hmine₀
    have hmoved : ∀ f,(watchOf cache key calls cfg.log u).seen=some f →
        Safe (revokedOutcome ·=true) (leadsOf (watchOf cache key calls (⟨t,op,r⟩::cfg.log))) db'.flight
          (flightKey key.1 key.2) f := by
      intro f hf
      rw [watchOf_cons]
      exact (flight_move h.led hmove).2 hstale (hsafe f hf)
    by_cases hu : u=t
    · subst hu
      have hself : watchOf cache key calls (⟨u,op,r⟩::cfg.log) u=
          watch cache.caSvc key (watchOf cache key calls cfg.log u) op r := by
        rw [watchOf_cons,update_self]
      rw [hself]
      refine ⟨misled_step h.led (h.cached (invalidated_of_late hold)) hmisled hsafe hpre hopen hok.1 heff,
        stale_step hrow hok.1 heff hstale₀,?_⟩
      intro f hf
      rcases seen_step hpre heff hf with hbefore|⟨k',hk',hload⟩
      · exact hmoved f hbefore
      rw [hk' hmine₀] at hload
      refine safe_of_load (led_step h hmove) (known_step h hmove) ?_ hload
      intro v l hlead
      exact (fresh_step h hok heff hpre hthread hinv v).resolve_left (Bool.eq_false_iff.mp (not_done_of_leads htracked hlead))
    · have hother : watchOf cache key calls (⟨t,op,r⟩::cfg.log) u=watchOf cache key calls cfg.log u := by
        rw [watchOf_cons,update_of_ne hu]
      rw [hother]
      exact ⟨hmisled,hstale₀,hmoved⟩
  · rw [watchOf_of_own_nil hown]
    cases u with
    | none | some => exact ⟨rfl,rfl,nofun⟩

end

/-- Every admitted step keeps what holds in the run. -/
theorem raceInv_step (htracked : RaceTracked cache key calls db₀ cfg)
    (hok : quietInvalidation cache key calls cfg t op c)
    (hperform : controlPlane.perform op c cfg.state=some (r,db'))
    (hpre : obeys key db₀ (watchOf cache key calls cfg.log t) op r) (hthread : cfg.threads t=.call op k) :
    RaceInv cache key calls db₀ (cfg.advance t op r (k r) db') := by
  have heff := effect_of_perform hperform
  have hopen := not_blocked_of_perform hperform
  have hmove := flightMove_step cache.caSvc hpre heff
  have hled := led_step h hmove
  have htracked' : RaceTracked cache key calls db₀ (cfg.advance t op r (k r) db') :=
    allTracked_advance htracked hthread (answers_of_effect h.kept hok.1 heff)
  refine ⟨tablesKept_effect (g := watchOf cache key calls cfg.log t) h.kept (fun writes hop => ?_) heff,?_,hled,known_step h hmove,?_,?_,?_,?_,?_,?_⟩
  · subst hop
    exact hpre.1
  · simp only [Config.advance,watchOf_cons]
    refine (forall_update_iff _ fun _ (g : Watch) => g.committed=true → HasRow key db').mpr ⟨?_,?_⟩
    · exact committed_step (h.committed t) heff
    · exact fun u _ hu => hasRow_step (h.committed u hu) heff
  · have hstays : ∀ u f,(watchOf cache key calls cfg.log u).seen=some f → f<db'.flight.entries.length :=
      fun u f hf => (h.seen u f hf).trans_le (length_move hmove)
    simp only [Config.advance,watchOf_cons]
    refine (forall_update_iff _ fun _ (g : Watch) => ∀ f,g.seen=some f → f<db'.flight.entries.length).mpr
      ⟨fun f hf => ?_,fun u _ => hstays u⟩
    rcases seen_step hpre heff hf with hbefore|⟨k',-,hload⟩
    · exact hstays t f hbefore
    obtain ⟨v,closed,hv⟩ := hled.mapped hload
    exact hled.entry_lt hv
  · exact request_step h hmove
  · exact fun hinv => hasRow_step (invalidated_step h hok hpre hinv).1 heff
  · exact fun hinv => cached_step h hok heff hpre hthread hinv
  · exact fun hinv u => fresh_step h hok heff hpre hthread hinv u
  · exact fun u hlate hmine => late_step h hok heff hpre hthread hopen htracked' hlate hmine

end

end Step

/-- What holds in every state of the run, together with the tracking of its calls. -/
def RaceGood (cache : OCSPResponseCacheService) (key : String×String) (calls : ι→String×String)
    (db₀ : Db) (cfg : Race ι) : Prop :=
  RaceInv cache key calls db₀ cfg ∧ RaceTracked cache key calls db₀ cfg

theorem raceGood_step (a b : Race ι) (h : RaceGood cache key calls db₀ a)
    (hstep : Step (quietInvalidation cache key calls) a b) : RaceGood cache key calls db₀ b := by
  obtain ⟨hthread,hok,hperform⟩ := hstep
  rename_i t op k c r db'
  have hanswers := answers_of_effect h.1.kept hok.1 (effect_of_perform hperform)
  have hcall := h.2 t
  rw [hthread] at hcall
  exact ⟨raceInv_step h.1 h.2 hok hperform (hcall r hanswers).1 hthread,allTracked_advance h.2 hthread hanswers⟩

section Progress

variable {cfg : Race ι} {op : Op} {k : Res op→Service (Try (Option OCSPResponse))}

section

variable (h : RaceGood cache key calls db₀ cfg)
include h

/-- A request's next operation, when it is not blocked, is admitted and takes effect. -/
theorem request_step_possible {t : ι}
    (hthread : cfg.threads (some t)=.call op k) (hopen : blocked noFault cfg.state op=false) :
    ∃ c r db',quietInvalidation cache key calls cfg (some t) op c ∧
      controlPlane.perform op c cfg.state=some (r,db') := by
  have hcall := h.2 (some t)
  rw [hthread] at hcall
  have hperform := perform_of_not_blocked hopen
  have hput : ∀ writes,op=.withinTx writes → ∃ entry,writes=[.putOCSPResponse entry] := by
    intro writes hop
    subst hop
    refine (hcall (.ok ()) rfl).1.2.1 ?_
    have hrevoker : (watchOf cache key calls cfg.log (some t)).revoker=_ := (watchOf_owner cfg.log (some t)).2
    exact hrevoker
  have hcommits : commits noFault cfg.state op=true := by
    cases op with
    | withinTx writes =>
      obtain ⟨entry,rfl⟩ := hput writes rfl
      rfl
    | _ => rfl
  have hquiet : invalidates key op=false := by
    cases op with
    | withinTx writes =>
      obtain ⟨entry,rfl⟩ := hput writes rfl
      simp only [invalidates,mem_singleton,reduceCtorEq,decide_false]
    | _ => rfl
  refine ⟨noFault,_,_,⟨.inr ⟨rfl,hcommits⟩,?_⟩,hperform⟩
  intro hbad
  rw [hquiet] at hbad
  cases hbad

theorem no_semAcquire {sem : ℕ} {k : Res (.semAcquire sem)→Service (Try (Option OCSPResponse))}
    (hthread : cfg.threads t=.call (.semAcquire sem) k) : False := by
  have hcall := h.2 t
  rw [hthread] at hcall
  exact absurd (hcall (.error ⟨"",none⟩) trivial).1 Bool.false_ne_true

theorem not_blocked_of_led (hthread : cfg.threads t=.call op k) (hled : (watchOf cache key calls cfg.log t).led=true) :
    blocked noFault cfg.state op=false := by
  have hcall := h.2 t
  rw [hthread] at hcall
  cases op with
  | flightWait =>
    have hnever : (watchOf cache key calls cfg.log t).led=false := (hcall (.error ⟨"",none⟩) trivial).1.1
    rw [hnever] at hled
    cases hled
  | semAcquire => exact (no_semAcquire h hthread).elim
  | _ => rfl

theorem leader_returns {v : ι} (hlead : (watchOf cache key calls cfg.log (some v)).leads=some l) :
    ∃ cfg' a,Reach (quietInvalidation cache key calls) cfg cfg' ∧ cfg'.threads (some v)=.ret a ∧
      ∀ u,u≠some v → cfg'.threads u=cfg.threads u ∧ own u cfg'.log=own u cfg.log := by
  refine reach_return_alone (I := fun b => RaceGood cache key calls db₀ b ∧
    (watchOf cache key calls b.log (some v)).led=true) ?_ ?_ ⟨h,watchOf_led hlead⟩
  · intro a b ha hstep
    refine ⟨raceGood_step a b ha.1 hstep,?_⟩
    obtain ⟨hthread,hok,hperform⟩ := hstep
    rename_i t op k c r db'
    simp only [Config.advance,watchOf_cons]
    by_cases ht : some v=t
    · subst ht
      rw [update_self]
      exact watch_led ha.2
    · rw [update_of_ne ht]
      exact ha.2
  · intro b op k hb hthread
    exact request_step_possible hb.1 hthread (not_blocked_of_led hb.1 hthread hb.2)

theorem wait_possible {t : ι} {k : Res (.flightWait f)→Service (Try (Option OCSPResponse))}
    (hthread : cfg.threads (some t)=.call (.flightWait f) k)
    (hblocked : blocked noFault cfg.state (.flightWait f)=true) :
    ∃ mid,Reach (quietInvalidation cache key calls) cfg mid ∧ mid.threads (some t)=.call (.flightWait f) k ∧
      blocked noFault mid.state (.flightWait f)=false := by
  have hcall := h.2 (some t)
  rw [hthread] at hcall
  obtain ⟨-,hidle,hseen⟩ := (hcall (.error ⟨"",none⟩) trivial).1
  have hlt := h.1.seen (some t) f hseen
  have hopen : cfg.state.flight.entries[f]?=some none := by
    simp only [blocked,Flights.outcome,getElem?_eq_getElem hlt,join_some,isNone_iff_eq_none] at hblocked
    rw [getElem?_eq_getElem hlt,hblocked]
  obtain ⟨u,key',hu⟩ := h.1.led.opened hopen
  have hlead : (watchOf cache key calls cfg.log u).leads=some ⟨key',f,false⟩ := hu
  cases u with
  | none =>
    rw [h.1.request] at hlead
    cases hlead
  | some v =>
    obtain ⟨mid,a,hreach,hret,hframe⟩ := leader_returns h hlead
    have hmid := reach_invariant h raceGood_step hreach
    have htv : some t≠some v := by
      intro heq
      rw [← heq] at hlead
      exact absurd (hidle.symm.trans hlead) nofun
    have hsame : ∀ w,w≠some v → watchOf cache key calls mid.log w=watchOf cache key calls cfg.log w := by
      intro w hw
      unfold watchOf ghost
      rw [(hframe _ hw).2]
    refine ⟨mid,hreach,(hframe _ htv).1.trans hthread,?_⟩
    have hlt' : f < mid.state.flight.entries.length := by
      refine hmid.1.seen (some t) f ?_
      rw [hsame _ htv]
      exact hseen
    simp only [blocked,Flights.outcome,getElem?_eq_getElem hlt']
    cases hout : mid.state.flight.entries[f] with
    | some => rfl
    | none =>
      -- an open entry has a leader; the old one has returned and a new one would be a second leader
      have hstill : mid.state.flight.entries[f]?=some none := by rw [getElem?_eq_getElem hlt',hout]
      obtain ⟨w,key'',hw⟩ := hmid.1.led.opened hstill
      have hleadw : (watchOf cache key calls mid.log w).leads=some ⟨key'',f,false⟩ := hw
      by_cases hwv : w=some v
      · subst hwv
        have hnot := not_done_of_leads hmid.2 hleadw
        rw [hret] at hnot
        cases hnot
      rw [hsame w hwv] at hleadw
      exact absurd (h.1.led.same_entry hleadw hu rfl) hwv

theorem request_returns (t : ι) :
    ∃ cfg' result,Reach (quietInvalidation cache key calls) cfg cfg' ∧ cfg'.threads (some t)=.ret result := by
  refine reach_return (I := RaceGood cache key calls db₀) raceGood_step ?_ h
  intro b op k hb hthread
  cases hblocked : blocked noFault b.state op with
  | false => exact ⟨b,Relation.ReflTransGen.refl,hthread,request_step_possible hb hthread hblocked⟩
  | true =>
    cases op with
    | flightWait =>
      obtain ⟨mid,hreach,hmid,hopen⟩ := wait_possible hb hthread hblocked
      exact ⟨mid,hreach,hmid,request_step_possible (reach_invariant hb raceGood_step hreach) hmid hopen⟩
    | semAcquire => exact (no_semAcquire hb hthread).elim
    | _ => cases hblocked

end

end Progress

/-- The assumptions on wiring, on the registry, on the keys that join signings and on the
certificates: none whose serial number is revoked has a short-lived profile. -/
structure RaceStart (cache : OCSPResponseCacheService) (svc : RevocationSvc) (certID : String)
    (calls : ι→String×String) (key : String×String) (db₀ : Db) : Prop where
  cacheRepo : cache.cacheRepo=true
  revocationRepo : cache.caSvc.revocationRepo=true
  issuerRegistry : cache.caSvc.issuerRegistry=true
  recorded : svc.revocationRepo=true
  issuer : db₀.issuers.contains key.1=true
  keys : ∀ t,flightKey (calls t).1 (calls t).2=flightKey key.1 key.2 → calls t=key
  long : shortLivedCert db₀ certID=false
  rows : ∀ rev∈db₀.revocations,revocationKey rev=key → shortLivedCert db₀ rev.certificateID=false
  idle : db₀.flight={}

variable {svc : RevocationSvc} {certID reason actor : String}

/-- What holds in every state holds at the start. -/
theorem raceGood_initial (h : RaceStart cache svc certID calls key db₀) :
    RaceGood cache key calls db₀ (initial (race cache svc certID reason actor calls) db₀) := by
  have hstart : ∀ t,watchOf cache key calls [] t=startWatch key calls t := fun t => watchOf_of_own_nil rfl
  have hleads : ∀ t,(startWatch key calls t).leads=none := by
    intro t
    cases t <;> rfl
  have hempty : leadsOf (watchOf cache key calls ([] : RaceLog ι))=fun _ => none := by
    funext t
    simp only [leadsOf,hstart,hleads]
  have hnever : ¬Invalidated key ([] : RaceLog ι) := by
    rintro ⟨e,he,-⟩
    cases he
  refine ⟨⟨?_,?_,?_,?_,?_,?_,?_,?_,?_,?_⟩,?_⟩
  · exact ⟨rfl,rfl,fun _ => rfl,h.rows⟩
  · intro t ht
    cases t <;> cases ht
  · simp only [initial,hempty,h.idle]
    exact led_empty
  · intro t f b hlead
    simp only [initial,hstart,hleads] at hlead
    cases hlead
  · intro t f hf
    cases t <;> cases hf
  · simp only [initial,hstart,hleads]
  · exact fun hinv => absurd hinv hnever
  · exact fun hinv => absurd hinv hnever
  · exact fun hinv => absurd hinv hnever
  · exact fun t hlate => absurd (invalidated_of_late hlate) hnever
  intro t
  cases t with
  | none => exact watched_revokeCall h.recorded h.long ⟨rfl,rfl,rfl⟩
  | some t =>
    refine watched_getCall ⟨h.cacheRepo,h.revocationRepo,h.issuerRegistry,?_,?_⟩ ⟨?_,rfl,rfl,rfl,rfl⟩
    · intro hkey
      have hissuer : (calls t).1=key.1 := congrArg Prod.fst hkey
      rw [hissuer]
      exact h.issuer
    · exact h.keys t
    · exact fun hmine => of_decide_eq_true hmine

/-- A request that starts after the invalidation has returned can always be driven to its
return, and returns a response signed as revoked, in every run in which no repository or
signing call fails and the invalidation finds no unfinished call that has decided on a
status by a lookup that found no revocation. -/
theorem get_revoked_after_invalidation (cache : OCSPResponseCacheService) (svc : RevocationSvc)
    (certID reason actor : String) (calls : ι→String×String) (key : String×String) (db₀ : Db)
    (hstart : RaceStart cache svc certID calls key db₀) (t : ι) (hcall : calls t=key) (mid cfg : Race ι)
    (hbefore : Reach (quietInvalidation cache key calls) (initial (race cache svc certID reason actor calls) db₀) mid)
    (hinvalidated : Invalidated key mid.log) (hfresh : own (some t) mid.log=[])
    (hafter : Reach (quietInvalidation cache key calls) mid cfg) :
    (∃ cfg' result,Reach (quietInvalidation cache key calls) cfg cfg' ∧ cfg'.threads (some t)=.ret result) ∧
    ∀ result,cfg.threads (some t)=.ret result →
      ∃ response,result=.ok (some response) ∧ response.content.certStatus=.revoked := by
  have hgood : RaceGood cache key calls db₀ cfg :=
    reach_invariant (raceGood_initial hstart) raceGood_step (hbefore.trans hafter)
  refine ⟨request_returns hgood t,?_⟩
  intro result hresult
  have hlate : Late key cfg.log (some t) := by
    obtain ⟨e,he,hop⟩ := hinvalidated
    obtain ⟨later,earlier,hsplit⟩ := append_of_mem he
    obtain ⟨newer,hnewer⟩ := log_suffix hafter
    refine ⟨newer++later,e,earlier,?_,hop,?_⟩
    · rw [← hnewer,hsplit,append_assoc]
    rw [hsplit,own,filter_append,append_eq_nil_iff] at hfresh
    exact hfresh.2
  have hmine : (watchOf cache key calls cfg.log (some t)).mine=true := by
    rw [(watchOf_owner _ _).1]
    exact decide_eq_true hcall
  obtain ⟨hmisled,hstale,-⟩ := hgood.1.late (some t) hlate hmine
  have hsettled := hgood.2 (some t)
  rw [hresult] at hsettled
  have hsaid : settled result (watchOf cache key calls cfg.log (some t)) := hsettled
  obtain ⟨response,hok,hrevoked⟩ := ((hsaid.2 hmine).resolve_left (Bool.eq_false_iff.mp hstale)).resolve_left
    (Bool.eq_false_iff.mp hmisled)
  exact ⟨response,hok,of_decide_eq_true hrevoked⟩

end Race

section Samples

instance (c : Choice) (db : Db) (op : Op) : Decidable (answered c db op) :=
  inferInstanceAs (Decidable (mayFail op=true ∨ (c.fault=none ∧ commits c db op=true)))

instance {ι : Type} [DecidableEq ι] (cfg : Race ι) (t : Option ι) (op : controlPlane.Op) (c : controlPlane.Choice) :
    Decidable (repositoriesAnswer cfg t op c) := inferInstanceAs (Decidable (answered c cfg.state op))

instance {ι : Type} [DecidableEq ι] [Fintype ι] (cache : OCSPResponseCacheService) (key : String×String)
    (calls : ι→String×String) (cfg : Race ι) (t : Option ι) (op : controlPlane.Op) (c : controlPlane.Choice) :
    Decidable (quietInvalidation cache key calls cfg t op c) :=
  inferInstanceAs (Decidable (answered c cfg.state op ∧ (invalidates key op=true →
    ∀ u,(cfg.threads u).done=true ∨ (watchOf cache key calls cfg.log u).stale=false)))

def sampleCache : OCSPResponseCacheService := {quote := id}

def sampleRevocation : RevocationSvc := {ocspCacheInvalidator := some sampleCache}

def sampleKey : String×String := ("iss-local","0a")

def sampleDb : Db where
  certs := [{id := "mc-1", issuerID := "iss-local", status := .active}]
  versions := [{id := "v-1", certificateID := "mc-1", serialNumber := "0a"}]
  issuers := ["iss-local"]

def sampleCalls : Bool→String×String := fun _ => sampleKey

def samplePool : Option Bool→Service (Try (Option OCSPResponse)) :=
  race sampleCache sampleRevocation "mc-1" "keyCompromise" "operator" sampleCalls

theorem sample_raceStart : RaceStart sampleCache sampleRevocation "mc-1" sampleCalls sampleKey sampleDb := by
  refine ⟨rfl,rfl,rfl,rfl,by decide,fun t _ => rfl,by decide,?_,rfl⟩
  intro rev hrev
  cases hrev

/-- What a sample run shows: whether the response was deleted, whether a request had begun
by then, and the status that the request returns in the end. -/
def sampleView (t : Bool) (mid cfg : Race Bool) : Bool×Bool×Option OCSPStatus :=
  (mid.log.any fun e => invalidates sampleKey e.op,(own (some t) mid.log).isEmpty,
    (cfg.threads (some t)).result?.bind fun result =>
      match result with
      | .ok (some response) => some response.content.certStatus
      | _ => none)

theorem of_sampleView {t : Bool} {mid cfg : Race Bool} {status : OCSPStatus}
    (h : sampleView t mid cfg=(true,true,some status)) : Invalidated sampleKey mid.log ∧ own (some t) mid.log=[] ∧
    ∃ response,cfg.threads (some t)=.ret (.ok (some response)) ∧ response.content.certStatus=status := by
  simp only [sampleView,Prod.mk.injEq,List.any_eq_true,List.isEmpty_iff,bind_eq_some_iff] at h
  obtain ⟨hinv,hown,result,hresult,hstatus⟩ := h
  refine ⟨hinv,hown,?_⟩
  split at hstatus
  · rename_i response
    cases hstatus
    exact ⟨response,Prog.eq_ret_of_result? hresult,rfl⟩
  · cases hstatus

/-- The revocation runs alone, and a request that starts afterwards returns revoked. -/
theorem get_revoked_after_invalidation_sample :
    ∃ mid cfg result,Reach (quietInvalidation sampleCache sampleKey sampleCalls) (initial samplePool sampleDb) mid ∧
      Invalidated sampleKey mid.log ∧ own (some true) mid.log=[] ∧
      Reach (quietInvalidation sampleCache sampleKey sampleCalls) mid cfg ∧
      cfg.threads (some true)=.ret result ∧
      ∃ response,result=.ok (some response) ∧ response.content.certStatus=.revoked := by
  have hrun : (((initial samplePool sampleDb).runSchedule (quietInvalidation sampleCache sampleKey sampleCalls)
      (List.replicate 10 (none,noFault))).bind fun mid =>
        (mid.runSchedule (quietInvalidation sampleCache sampleKey sampleCalls)
          (List.replicate 14 (some true,noFault))).map fun cfg => sampleView true mid cfg)=
      some (true,true,some .revoked) := by decide
  obtain ⟨mid,hmid,hrest⟩ := bind_eq_some_iff.mp hrun
  obtain ⟨cfg,hafter,hview⟩ := reach_of_view hrest
  obtain ⟨hinv,hown,response,hret,-⟩ := of_sampleView hview
  have hbefore := reach_of_runSchedule hmid
  refine ⟨mid,cfg,_,hbefore,hinv,hown,hafter,hret,?_⟩
  exact (get_revoked_after_invalidation sampleCache sampleRevocation "mc-1" "keyCompromise" "operator"
    sampleCalls sampleKey sampleDb sample_raceStart true rfl mid cfg hbefore hinv hown hafter).2 _ hret

/-- A request looks the revocation up before it is stored and writes its good response into
the cache after the invalidation; a request that starts afterwards returns it. -/
theorem get_good_after_invalidation :
    RaceStart sampleCache sampleRevocation "mc-1" sampleCalls sampleKey sampleDb ∧
    ∃ mid cfg response,Reach repositoriesAnswer (initial samplePool sampleDb) mid ∧
      Invalidated sampleKey mid.log ∧ own (some false) mid.log=[] ∧ Reach repositoriesAnswer mid cfg ∧
      cfg.threads (some false)=.ret (.ok (some response)) ∧ response.content.certStatus=.good := by
  refine ⟨sample_raceStart,?_⟩
  have hrun : (((initial samplePool sampleDb).runSchedule repositoriesAnswer
      (List.replicate 8 (some true,noFault)++List.replicate 10 (none,noFault))).bind fun mid =>
        (mid.runSchedule repositoriesAnswer
          (List.replicate 6 (some true,noFault)++List.replicate 2 (some false,noFault))).map fun cfg =>
            sampleView false mid cfg)=some (true,true,some .good) := by decide
  obtain ⟨mid,hmid,hrest⟩ := bind_eq_some_iff.mp hrun
  obtain ⟨cfg,hreach,hview⟩ := reach_of_view hrest
  obtain ⟨hinv,hown,response,hret,hstatus⟩ := of_sampleView hview
  exact ⟨mid,cfg,response,reach_of_runSchedule hmid,hinv,hown,hreach,hret,hstatus⟩

end Samples

end Certctl.OcspFreshness
