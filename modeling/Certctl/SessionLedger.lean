import Certctl.SessionService

/-!
# The ledger of sessions

The ledger is what the calls of a run say about the sessions: every session
that was ever handed out, with its latest request and whether it was
revoked. It knows nothing of tables, keys or sweeps. In every run in which
the clock does not go back, no operation fails and the random source does
not repeat itself, the table of sessions is the ledger without some of the
sessions that have ended, and the cookie of a session verifies under its
key for as long as the key is stored.
-/

namespace Certctl.SessionLedger

open AtomicProgram Prog DomainRecords RecordTable AuthTables SessionCookies SessionService Option

/-- The calls of the service. -/
inductive SessionCall where
  | ensureInitialSigningKey
  | create (actorID actorType ip userAgent : String)
  | createPreLogin
  | updateLastSeen (sessionID : String)
  | revoke (sessionID : String)
  | revokeAllForActor (actorID actorType : String)
  | rotateSigningKey
  | garbageCollect
deriving DecidableEq

/-- What a call hands out. -/
inductive Answer where
  /-- A session with its cookie and its token. -/
  | created (result : CreateResult)
  /-- The cookie of a login under way, and its identifier. -/
  | pending (cookieValue id : String)
  | done
  | failed (err : GoError)
deriving DecidableEq

/-- The answer to a call without a value. -/
def answerOf : Try Unit→Answer
  | .ok () => .done
  | .error err => .failed err

def createAnswer : Try CreateResult→Answer
  | .ok result => .created result
  | .error err => .failed err

def pendingAnswer : Try (String×String)→Answer
  | .ok (cookieValue,id) => .pending cookieValue id
  | .error err => .failed err

def sweepAnswer : ℕ×Err→Answer
  | (_,none) => .done
  | (_,some err) => .failed err

def program (svc : SessionServer) : SessionCall→Service Answer
  | .ensureInitialSigningKey => (ensureInitialSigningKey svc).bind fun r => .ret (answerOf r)
  | .create actorID actorType ip userAgent => (create svc actorID actorType ip userAgent).bind fun r => .ret (createAnswer r)
  | .createPreLogin => (createPreLogin svc).bind fun r => .ret (pendingAnswer r)
  | .updateLastSeen sessionID => (updateLastSeen sessionID).bind fun r => .ret (answerOf r)
  | .revoke sessionID => (revoke sessionID).bind fun r => .ret (answerOf r)
  | .revokeAllForActor actorID actorType => (revokeAllForActor svc actorID actorType).bind fun r => .ret (answerOf r)
  | .rotateSigningKey => (rotateSigningKey svc).bind fun r => .ret (answerOf r)
  | .garbageCollect => (garbageCollect svc).bind fun r => .ret (sweepAnswer r)

/-- The operation reads the random source. -/
def draws : Op→Bool
  | .readRand _ => true
  | _ => false

/-- No operation fails, the clock does not go back and the random source does not repeat itself. -/
def fresh : Prog.Allowed store := fun op c db => steady op c db ∧ (draws op=true → c.random∉db.drawn)

instance (op : store.Op) (c : store.Choice) (db : store.State) : Decidable (fresh op c db) :=
  inferInstanceAs (Decidable (((db : AuthDb).clock≤(c : Choice).now ∧ (c : Choice).fault=none) ∧
    (draws op=true → (c : Choice).random∉(db : AuthDb).drawn)))

/-- A call with its answer and the time of its last operation. -/
structure Entry where
  call : SessionCall
  answer : Answer
  ended : Time

/-- Runs of calls from empty tables, latest call first. -/
inductive History (svc : SessionServer) : List Entry→AuthDb→Prop where
  | start {db : AuthDb} (hsessions : db.sessions=[]) (hkeys : db.keys=[]) : History svc [] db
  | call {log : List Entry} {db db' : AuthDb} {request : SessionCall} {answer : Answer} (hbefore : History svc log db)
      (hexec : (program svc request).Exec fresh db answer db') : History svc (⟨request,answer,db'.clock⟩::log) db'

/-- A session that was handed out. -/
structure Minted where
  result : CreateResult
  lastSeen : Time
  revoked : Bool
deriving DecidableEq

def Minted.seen (id : String) (now : Time) (m : Minted) : Minted :=
  if m.result.session.id=id then {m with lastSeen := now} else m

def Minted.revokedIf (meant : Session→Bool) (m : Minted) : Minted :=
  if meant m.result.session then {m with revoked := true} else m

def Entry.applied (e : Entry) (sessions : List Minted) : List Minted :=
  match e.call,e.answer with
  | .create _ _ _ _,.created result => ⟨result,result.session.lastSeenAt,false⟩::sessions
  | .updateLastSeen id,.done => sessions.map (Minted.seen id e.ended)
  | .revoke id,.done => sessions.map (Minted.revokedIf fun s => s.id=id)
  | .revokeAllForActor actorID actorType,.done =>
    sessions.map (Minted.revokedIf fun s => s.actorID=actorID && s.actorType=actorType)
  | _,_ => sessions

/-- The sessions that the calls of a run have handed out. -/
def ledger : List Entry→List Minted
  | [] => []
  | e::log => e.applied (ledger log)

def updatedTo (s : Session) (lastSeenAt : Time) (revokedAt : Option Time) : Session :=
  {s with lastSeenAt := lastSeenAt, revokedAt := revokedAt}

def Mirrors (m : Minted) (row : Session) : Prop :=
  row=updatedTo m.result.session m.lastSeen row.revokedAt ∧ row.revokedAt.isSome=m.revoked

/-- The identifier was drawn from the random source. -/
def Drawn (front : String) (db : AuthDb) (id : String) : Prop :=
  ∃ b∈db.drawn,b.length=16 ∧ id=front++String.ofList (Base64Url.encode b)

/-- A session of the ledger is in the table or has ended. -/
structure Kept (svc : SessionServer) (db : AuthDb) (m : Minted) : Prop where
  session : Drawn "ses-" db m.result.session.id
  key : Drawn "sk-" db m.result.session.signingKeyID
  cookie : ∃ hmacKey,m.result.cookieValue=
    signCookie svc.crypto m.result.session.id m.result.session.signingKeyID hmacKey ∧
      ∀ k∈db.keys,k.id=m.result.session.signingKeyID →
        decryptKeyMaterial svc.crypto k.keyMaterialEncrypted svc.encryption=.ok hmacKey
  tenant : m.result.session.tenantID=svc.tenantID
  postLogin : m.result.session.isPreLogin=false
  token : ∃ b∈db.drawn,b.length=32 ∧ m.result.csrfToken=String.ofList (Base64Url.encode b)
  hash : m.result.session.csrfTokenHash=hashCSRFToken svc.crypto m.result.csrfToken ∧ m.result.session.csrfTokenHash≠""
  row : ∀ found,lookup Session.id m.result.session.id db.sessions=found →
    match found with
    | some row => Mirrors m row
    | none => m.result.session.absoluteExpiresAt<db.clock

/-- The tables agree with a ledger. -/
structure Sound (svc : SessionServer) (sessions : List Minted) (db : AuthDb) : Prop where
  sessionIDs : (db.sessions.map Session.id).Nodup
  keyIDs : (db.keys.map SessionSigningKey.id).Nodup
  keys : ∀ k∈db.keys,Drawn "sk-" db k.id
  /-- Every session of the ledger is in its table or has ended. -/
  minted : ∀ m∈sessions,Kept svc db m
  rows : ∀ row∈db.sessions,∃ m∈sessions,m.result.session.id=row.id

variable {front : String}

section Frames

/-- The store at a later time. -/
structure Later (db db' : AuthDb) : Prop where
  /-- The clock did not go back. -/
  clock : db.clock≤db'.clock
  drawn : ∀ b∈db.drawn,b∈db'.drawn

/-- Only the clock and the draws moved. -/
structure Same (db db' : AuthDb) : Prop extends Later db db' where
  sessions : db'.sessions=db.sessions
  keys : db'.keys=db.keys

theorem Later.refl (db : AuthDb) : Later db db := ⟨le_refl _,fun _ h => h⟩

variable {a b c : AuthDb}

theorem Later.trans (hab : Later a b) (hbc : Later b c) : Later a c :=
  ⟨le_trans hab.clock hbc.clock,fun x hx => hbc.drawn x (hab.drawn x hx)⟩

theorem Same.refl (db : AuthDb) : Same db db := ⟨Later.refl db,rfl,rfl⟩

theorem Same.trans (hab : Same a b) (hbc : Same b c) : Same a c :=
  ⟨hab.toLater.trans hbc.toLater,hbc.sessions.trans hab.sessions,hbc.keys.trans hab.keys⟩

theorem same_ticked {db : AuthDb} {now : Time} (h : db.clock≤now) : Same db (db.ticked now) :=
  ⟨⟨h,fun _ hb => hb⟩,rfl,rfl⟩

theorem Drawn.later {id : String} {db db' : AuthDb} (h : Drawn front db id) (hlater : Later db db') :
    Drawn front db' id := by
  obtain ⟨b,hb,hlength,hid⟩ := h
  exact ⟨b,hlater.drawn b hb,hlength,hid⟩

end Frames

section Programs

variable {svc : SessionServer}

theorem always_readRand (count : ℕ) (db : AuthDb) : (ask (.readRand count)).Always fresh (fun r db' => Same db db' ∧
      ∃ b,r=.ok b ∧ b.length=count ∧ b∉db.drawn ∧ b∈db'.drawn) db := by
  intro c r db' hok hperform
  have hnew : c.random∉db.drawn := hok.2 rfl
  by_cases hlength : c.random.length=count
  · obtain ⟨rfl,rfl⟩ := answered hok.1.2 ((if_pos hlength).symm.trans hperform)
    exact ⟨⟨⟨hok.1.1,fun b hb => List.mem_cons_of_mem _ hb⟩,rfl,rfl⟩,c.random,rfl,hlength,hnew,List.mem_cons_self⟩
  · cases (if_neg hlength).symm.trans hperform

theorem always_newOpaqueID (front : String) (db : AuthDb) : (newOpaqueID front).Always fresh (fun r db' => Same db db' ∧
      ∃ b,r=.ok (front++String.ofList (Base64Url.encode b)) ∧ b.length=16 ∧ b∉db.drawn ∧ b∈db'.drawn) db := by
  refine always_seq (always_readRand 16 db) fun r db' h => ?_
  obtain ⟨hsame,b,rfl,hlength,hnew,hdrawn⟩ := h
  exact ⟨hsame,b,rfl,hlength,hnew,hdrawn⟩

theorem always_newCSRFToken (db : AuthDb) : newCSRFToken.Always fresh (fun r db' => Same db db' ∧
      ∃ b,r=.ok (String.ofList (Base64Url.encode b)) ∧ b.length=32 ∧ b∉db.drawn ∧ b∈db'.drawn) db := by
  refine always_seq (always_readRand 32 db) fun r db' h => ?_
  obtain ⟨hsame,b,rfl,hlength,hnew,hdrawn⟩ := h
  exact ⟨hsame,b,rfl,hlength,hnew,hdrawn⟩

theorem always_getActiveKey (tenantID : String) (db : AuthDb) :
    (ask (.getActiveKey tenantID)).Always fresh (fun r db' => Same db db' ∧ ∀ k,r=.ok k → k∈db.keys) db := by
  intro c r db' hok hperform
  obtain ⟨rfl,rfl⟩ := answered hok.1.2 hperform
  refine ⟨same_ticked hok.1.1,fun k hk => ?_⟩
  cases hhead : (newestFirst SessionSigningKey.createdAt
      (db.keys.filter fun k => k.tenantID=tenantID && k.retiredAt=none)).head? with
  | none =>
    rw [hhead] at hk
    cases hk
  | some =>
    rw [hhead] at hk
    cases hk
    have hmem := List.mem_of_head? hhead
    rw [newestFirst,List.mem_insertionSort] at hmem
    exact (List.mem_filter.mp hmem).1

theorem always_clockNow (db : AuthDb) :
    (ask .clockNow).Always fresh (fun now db' => Same db db' ∧ db.clock≤now) db := by
  intro c r db' hok hperform
  cases hperform
  exact ⟨same_ticked hok.1.1,hok.1.1⟩

/-- A key was added. -/
structure KeyAdded (svc : SessionServer) (db db' : AuthDb) : Prop extends Later db db' where
  sessions : db'.sessions=db.sessions
  /-- There is one key more, with a new identifier. -/
  keys : ∃ k b,db'.keys=db.keys++[k] ∧ k.id="sk-"++String.ofList (Base64Url.encode b) ∧ b.length=16 ∧ b∉db.drawn ∧
    b∈db'.drawn ∧ lookup SessionSigningKey.id k.id db.keys=none

theorem validateKey_ok {k k' : SessionSigningKey} (h : validateKey k=.ok k') : k'.id=k.id := by
  unfold validateKey at h
  split_ifs at h <;> cases h <;> rfl

theorem always_addKey (key : SessionSigningKey) (db : AuthDb) :
    (ask (.addKey key)).Always fresh (fun r db' => Later db db' ∧ db'.sessions=db.sessions ∧
      ((∃ err,r=.error err ∧ db'.keys=db.keys) ∨
        ∃ now,r=.ok () ∧ db'.keys=db.keys++[key.stored now] ∧ lookup SessionSigningKey.id key.id db.keys=none)) db := by
  intro c r db' hok hperform
  by_cases habsent : (lookup SessionSigningKey.id key.id db.keys).isSome=true
  · obtain ⟨rfl,rfl⟩ := answered hok.1.2 ((if_pos habsent).symm.trans hperform)
    exact ⟨⟨hok.1.1,fun _ hb => hb⟩,rfl,.inl ⟨_,rfl,rfl⟩⟩
  · obtain ⟨rfl,rfl⟩ := answered hok.1.2 ((if_neg habsent).symm.trans hperform)
    exact ⟨⟨hok.1.1,fun _ hb => hb⟩,rfl,.inr ⟨c.now,rfl,rfl,not_isSome_iff_eq_none.mp habsent⟩⟩

theorem always_mintKey (svc : SessionServer) (failed : MintStage→GoError→GoError) (db : AuthDb) :
    (mintKey svc failed).Always fresh (fun _ db' => Same db db' ∨ KeyAdded svc db db') db := by
  refine always_seq (always_newOpaqueID "sk-" db) fun r db₁ h => ?_
  obtain ⟨hsame₁,b,rfl,hlength,hnew,hdrawn⟩ := h
  refine always_seq (always_readRand 32 db₁) fun r db₂ h => ?_
  obtain ⟨hsame₂,plaintext,rfl,-⟩ := h
  have hsame := hsame₁.trans hsame₂
  dsimp only
  cases encryptKeyMaterial svc.crypto plaintext svc.encryption with
  | error => exact .inl hsame
  | ok =>
    dsimp only
    generalize hvalid : validateKey _=valid
    cases valid with
    | error => exact .inl hsame
    | ok k =>
      refine always_seq (always_addKey k db₂) fun r db₃ h => ?_
      obtain ⟨hlater,hsessions,hkeys⟩ := h
      rcases hkeys with ⟨err,rfl,hkeys⟩|⟨now,rfl,hkeys,habsent⟩
      · exact .inl (hsame.trans ⟨hlater,hsessions,hkeys⟩)
      have hid : k.id="sk-"++String.ofList (Base64Url.encode b) := validateKey_ok hvalid
      refine .inr ⟨hsame.toLater.trans hlater,hsessions.trans hsame.sessions,?_⟩
      refine ⟨k.stored now,b,by rw [hkeys,hsame.keys],hid,hlength,hnew,?_,by rw [← hsame.keys]; exact habsent⟩
      exact hlater.drawn b (hsame₂.drawn b hdrawn)

end Programs

variable {m : Minted} {f : Session→Session} {g : Minted→Minted}

section Preservation

variable {svc : SessionServer} {sessions : List Minted} {db db' : AuthDb} {b : List UInt8}

theorem identifier_injective {b' : List UInt8}
    (h : front++String.ofList (Base64Url.encode b)=front++String.ofList (Base64Url.encode b')) : b=b' := by
  have htext := congrArg String.toList h
  rw [String.toList_append,String.toList_append,String.toList_ofList,String.toList_ofList] at htext
  have hdecoded := congrArg Base64Url.decode (List.append_cancel_left htext)
  rw [Base64Url.decode_encode,Base64Url.decode_encode] at hdecoded
  exact Except.ok.inj hdecoded

theorem not_drawn (hnew : b∉db.drawn) : ¬Drawn front db (front++String.ofList (Base64Url.encode b)) := by
  rintro ⟨b',hb',-,hid⟩
  exact hnew (identifier_injective hid ▸ hb')

/-- What the table shows of a session of the ledger: its row, or nothing after its end. -/
def Shown (m : Minted) (clock : Time) : Option Session→Prop
  | some row => Mirrors m row
  | none => m.result.session.absoluteExpiresAt<clock

theorem Kept.later {m' : Minted} (h : Kept svc db m) (hresult : m'.result=m.result) (hlater : Later db db')
    (hkeys : ∀ k∈db'.keys,k.id=m.result.session.signingKeyID →
      ∃ old∈db.keys,old.id=k.id ∧ old.keyMaterialEncrypted=k.keyMaterialEncrypted) (F : Session→Option Session)
    (hrows : lookup Session.id m.result.session.id db'.sessions=
      (lookup Session.id m.result.session.id db.sessions).bind F)
    (hF : ∀ row,Mirrors m row → Shown m' db'.clock (F row)) : Kept svc db' m' := by
  obtain ⟨result,lastSeen,revoked⟩ := m'
  cases hresult
  obtain ⟨hmacKey,hcookie,hverifies⟩ := h.cookie
  obtain ⟨b,hb,hlength,htoken⟩ := h.token
  refine ⟨h.session.later hlater,h.key.later hlater,⟨hmacKey,hcookie,?_⟩,h.tenant,h.postLogin,
    ⟨b,hlater.drawn b hb,hlength,htoken⟩,h.hash,?_⟩
  · intro k hk hid
    obtain ⟨old,hold,hsame,hmaterial⟩ := hkeys k hk hid
    rw [← hmaterial]
    exact hverifies old hold (hsame.trans hid)
  rintro found rfl
  have hrow := h.row _ rfl
  rw [hrows]
  cases hlookup : lookup Session.id m.result.session.id db.sessions with
  | none =>
    rw [hlookup] at hrow
    exact lt_of_lt_of_le hrow hlater.clock
  | some row =>
    rw [hlookup] at hrow
    exact hF row hrow

section

variable (h : Sound svc sessions db)
include h

/-- A new key leaves the sessions with theirs. -/
theorem Sound.keyAdded (hadd : KeyAdded svc db db') : Sound svc sessions db' := by
  obtain ⟨k,b,hkeys,hid,hlength,hnew,hdrawn,habsent⟩ := hadd.keys
  have hother : ∀ k'∈db.keys,k'.id≠k.id := lookup_eq_none.mp habsent
  refine ⟨by rw [hadd.sessions]; exact h.sessionIDs,?_,?_,?_,by rw [hadd.sessions]; exact h.rows⟩
  · rw [hkeys]
    exact keys_append h.keyIDs hother
  · intro k' hk'
    rw [hkeys] at hk'
    rcases mem_append_row.mp hk' with hold|rfl
    · exact (h.keys k' hold).later hadd.toLater
    · exact ⟨b,hdrawn,hlength,hid⟩
  intro m hm
  refine (h.minted m hm).later rfl hadd.toLater (fun k' hk' hsigns => ?_) some (by rw [hadd.sessions,bind_fun_some])
    fun _ hrow => hrow
  rw [hkeys] at hk'
  rcases mem_append_row.mp hk' with hold|rfl
  · exact ⟨k',hold,rfl,rfl⟩
  rw [hid] at hsigns
  exact absurd (hsigns ▸ (h.minted m hm).key) (not_drawn hnew)

theorem Sound.keysSubset (hlater : Later db db') (hsame : db'.sessions=db.sessions)
    (hnodup : (db'.keys.map SessionSigningKey.id).Nodup)
    (hkeys : ∀ k∈db'.keys,∃ old∈db.keys,old.id=k.id ∧ old.keyMaterialEncrypted=k.keyMaterialEncrypted) :
    Sound svc sessions db' := by
  refine ⟨by rw [hsame]; exact h.sessionIDs,hnodup,?_,?_,by rw [hsame]; exact h.rows⟩
  · intro k hk
    obtain ⟨old,hold,hid,-⟩ := hkeys k hk
    rw [← hid]
    exact (h.keys old hold).later hlater
  · intro m hm
    exact (h.minted m hm).later rfl hlater (fun k hk _ => hkeys k hk) some (by rw [hsame,bind_fun_some])
      fun _ hrow => hrow

theorem Sound.same (hsame : Same db db') : Sound svc sessions db' := by
  refine h.keysSubset hsame.toLater hsame.sessions (by rw [hsame.keys]; exact h.keyIDs) fun k hk => ?_
  rw [hsame.keys] at hk
  exact ⟨k,hk,rfl,rfl⟩

/-- Sessions that are rewritten in place, in the table and in the ledger. -/
theorem Sound.mapped (hlater : Later db db')
    (hkeys : db'.keys=db.keys) (hrows : db'.sessions=db.sessions.map f) (hid : ∀ row,(f row).id=row.id)
    (hresult : ∀ m,(g m).result=m.result)
    (hmirrors : ∀ m row,m.result.session.tenantID=svc.tenantID → Mirrors m row → Mirrors (g m) (f row)) :
    Sound svc (sessions.map g) db' := by
  have hids : db'.sessions.map Session.id=db.sessions.map Session.id := by
    rw [hrows,List.map_map]
    exact List.map_congr_left fun row _ => hid row
  refine ⟨by rw [hids]; exact h.sessionIDs,by rw [hkeys]; exact h.keyIDs,?_,?_,?_⟩
  · intro k hk
    rw [hkeys] at hk
    exact (h.keys k hk).later hlater
  · intro m' hm'
    obtain ⟨m,hm,rfl⟩ := List.mem_map.mp hm'
    refine (h.minted m hm).later (hresult m) hlater (fun k hk _ => ?_) (some ∘ f)
      (by rw [hrows,lookup_map hid,map_eq_bind]) fun row hrow => hmirrors m row (h.minted m hm).tenant hrow
    rw [hkeys] at hk
    exact ⟨k,hk,rfl,rfl⟩
  · intro row' hrow'
    rw [hrows] at hrow'
    obtain ⟨row,hrow,rfl⟩ := List.mem_map.mp hrow'
    obtain ⟨m,hm,hsame⟩ := h.rows row hrow
    exact ⟨g m,List.mem_map_of_mem hm,by rw [hresult,hsame,hid]⟩

/-- A sweep drops only sessions that have ended. -/
theorem Sound.collected (hlater : Later db db') (hkeys : db'.keys=db.keys)
    (hrows : db'.sessions=db.sessions.filter fun row => !row.expired db'.clock) : Sound svc sessions db' := by
  refine ⟨?_,by rw [hkeys]; exact h.keyIDs,?_,?_,?_⟩
  · rw [hrows]
    exact h.sessionIDs.sublist (List.filter_sublist.map _)
  · intro k hk
    rw [hkeys] at hk
    exact (h.keys k hk).later hlater
  · intro m hm
    have hkept := h.minted m hm
    refine hkept.later rfl hlater (fun k hk _ => ?_) (guard _)
      (by rw [hrows,lookup_filter h.sessionIDs,bind_guard]) fun row hrow => ?_
    · rw [hkeys] at hk
      exact ⟨k,hk,rfl,rfl⟩
    have hpending : row.isPreLogin=false := (congrArg Session.isPreLogin hrow.1).trans hkept.postLogin
    have hends : row.absoluteExpiresAt=(updatedTo m.result.session m.lastSeen row.revokedAt).absoluteExpiresAt :=
      congrArg Session.absoluteExpiresAt hrow.1
    unfold Option.guard
    split
    · exact hrow
    rename_i hexpired
    simp only [Session.expired,hpending,Bool.false_and,Bool.or_false,Bool.not_eq_true,Bool.not_eq_false',
      decide_eq_true_eq] at hexpired
    exact lt_of_eq_of_lt hends.symm hexpired
  · intro row hrow
    rw [hrows] at hrow
    exact h.rows row (List.mem_filter.mp hrow).1

end

/-- A session was created. -/
structure Created (svc : SessionServer) (db db' : AuthDb) (result : CreateResult) : Prop extends Later db db' where
  keys : db'.keys=db.keys
  sessions : db'.sessions=db.sessions++[result.session]
  absent : lookup Session.id result.session.id db.sessions=none
  id : ∃ b,result.session.id="ses-"++String.ofList (Base64Url.encode b) ∧ b.length=16 ∧ b∉db.drawn ∧ b∈db'.drawn
  key : ∃ k∈db.keys,∃ hmacKey,k.id=result.session.signingKeyID ∧
    decryptKeyMaterial svc.crypto k.keyMaterialEncrypted svc.encryption=.ok hmacKey ∧
      result.cookieValue=signCookie svc.crypto result.session.id result.session.signingKeyID hmacKey
  tenant : result.session.tenantID=svc.tenantID
  postLogin : result.session.isPreLogin=false
  active : result.session.revokedAt=none
  token : ∃ b∈db'.drawn,b.length=32 ∧ result.csrfToken=String.ofList (Base64Url.encode b)
  hash : result.session.csrfTokenHash=hashCSRFToken svc.crypto result.csrfToken ∧ result.session.csrfTokenHash≠""

/-- A new session is in the table and in the ledger. -/
theorem Sound.created {result : CreateResult} (h : Sound svc sessions db) (hnew : Created svc db db' result) :
    Sound svc (⟨result,result.session.lastSeenAt,false⟩::sessions) db' := by
  obtain ⟨b,hid,hlength,hfresh,hdrawn⟩ := hnew.id
  obtain ⟨k,hk,hmacKey,hkid,hdecrypt,hcookie⟩ := hnew.key
  have hothers : ∀ row∈db.sessions,row.id≠result.session.id := lookup_eq_none.mp hnew.absent
  refine ⟨?_,by rw [hnew.keys]; exact h.keyIDs,?_,?_,?_⟩
  · rw [hnew.sessions]
    exact keys_append h.sessionIDs hothers
  · intro k' hk'
    rw [hnew.keys] at hk'
    exact (h.keys k' hk').later hnew.toLater
  · intro m hm
    rcases List.mem_cons.mp hm with rfl|hold
    · refine ⟨⟨b,hdrawn,hlength,hid⟩,?_,⟨hmacKey,hcookie,?_⟩,hnew.tenant,hnew.postLogin,hnew.token,hnew.hash,?_⟩
      · rw [← hkid]
        exact (h.keys k hk).later hnew.toLater
      · intro k' hk' hsame
        rw [hnew.keys] at hk'
        rw [List.inj_on_of_nodup_map h.keyIDs hk' hk (hsame.trans hkid.symm)]
        exact hdecrypt
      intro found hfound
      rw [hnew.sessions,lookup_append,hnew.absent,if_pos rfl] at hfound
      subst hfound
      have hrevoked : result.session.revokedAt.isSome=false := by rw [hnew.active]; rfl
      exact ⟨rfl,hrevoked⟩
    have hkept := h.minted m hold
    have hother : ¬result.session.id=m.result.session.id := by
      intro heq
      rw [hid] at heq
      exact not_drawn hfresh (heq ▸ hkept.session)
    refine hkept.later rfl hnew.toLater (fun k' hk' _ => ?_) some
      (by rw [hnew.sessions,lookup_append,if_neg hother,or_none,bind_fun_some]) fun _ hrow => hrow
    rw [hnew.keys] at hk'
    exact ⟨k',hk',rfl,rfl⟩
  · intro row hrow
    rw [hnew.sessions] at hrow
    rcases mem_append_row.mp hrow with hold|rfl
    · obtain ⟨m,hm,hsame⟩ := h.rows row hold
      exact ⟨m,List.mem_cons_of_mem _ hm,hsame⟩
    · exact ⟨_,List.mem_cons_self,rfl⟩

end Preservation

section Calls

variable {svc : SessionServer} {sessions : List Minted} {db db' : AuthDb}

theorem validateSession_ok {s s' : Session} (h : validateSession s=.ok s') (hnamed : blank s.tenantID=false) :
    s'=s ∧ (s.isPreLogin=false → s.csrfTokenHash≠"") := by
  unfold validateSession at h
  simp only [hnamed,Bool.false_eq_true,if_false] at h
  split_ifs at h
  rename_i hhash _
  cases h
  refine ⟨rfl,fun hpending hempty => hhash ⟨hpending,?_⟩⟩
  rw [hempty]
  rfl

theorem always_createSession (row : Session) (db : AuthDb) :
    (ask (.createSession row)).Always fresh (fun r db' => (∃ err,r=.error err ∧ Same db db') ∨
      (r=.ok () ∧ Later db db' ∧ db'.keys=db.keys ∧ db'.sessions=db.sessions++[row.stored] ∧
        lookup Session.id row.id db.sessions=none)) db := by
  intro c r db' hok hperform
  by_cases hpresent : (lookup Session.id row.id db.sessions).isSome=true
  · obtain ⟨rfl,rfl⟩ := answered hok.1.2 ((if_pos hpresent).symm.trans hperform)
    exact .inl ⟨_,rfl,same_ticked hok.1.1⟩
  have hrest := (if_neg hpresent).symm.trans hperform
  by_cases hkey : (lookup SessionSigningKey.id row.signingKeyID db.keys).isSome=true
  · obtain ⟨rfl,rfl⟩ := answered hok.1.2 ((if_pos hkey).symm.trans hrest)
    exact .inr ⟨rfl,⟨hok.1.1,fun _ hb => hb⟩,rfl,rfl,not_isSome_iff_eq_none.mp hpresent⟩
  · obtain ⟨rfl,rfl⟩ := answered hok.1.2 ((if_neg hkey).symm.trans hrest)
    exact .inl ⟨_,rfl,same_ticked hok.1.1⟩

theorem always_create (svc : SessionServer) (actorID actorType ip userAgent : String) (db : AuthDb) :
    (create svc actorID actorType ip userAgent).Always fresh (fun r db' =>
      (∃ err,r=.error err ∧ Same db db') ∨ ∃ result,r=.ok result ∧ Created svc db db' result) db := by
  unfold create
  split
  · exact .inl ⟨_,rfl,Same.refl db⟩
  split
  · exact .inl ⟨_,rfl,Same.refl db⟩
  refine always_seq (always_getActiveKey svc.tenantID db) fun r db₁ h => ?_
  obtain ⟨hsame₁,hactive⟩ := h
  cases r with
  | error => exact .inl ⟨_,rfl,hsame₁⟩
  | ok active =>
    have hmem := hactive active rfl
    dsimp only
    cases hdecrypt : decryptKeyMaterial svc.crypto active.keyMaterialEncrypted svc.encryption with
    | error => exact .inl ⟨_,rfl,hsame₁⟩
    | ok hmacKey =>
      refine always_seq (always_newOpaqueID "ses-" db₁) fun r db₂ h => ?_
      obtain ⟨hsame₂,b,rfl,hlength,hnew,hdrawn⟩ := h
      refine always_seq (always_newCSRFToken db₂) fun r db₃ h => ?_
      obtain ⟨hsame₃,token,rfl,htlength,-,htoken⟩ := h
      refine always_seq (always_clockNow db₃) fun now db₄ h => ?_
      have hsame := ((hsame₁.trans hsame₂).trans hsame₃).trans h.1
      generalize hvalid : validateSession _=valid
      cases valid with
      | error => exact .inl ⟨_,rfl,hsame⟩
      | ok row =>
        obtain ⟨rfl,hhash⟩ := validateSession_ok hvalid svc.named
        refine always_seq (always_createSession _ db₄) fun r db₅ hdone => ?_
        rcases hdone with ⟨err,rfl,hsame₅⟩|⟨rfl,hlater,hkeys,hsessions,habsent⟩
        · exact .inl ⟨_,rfl,hsame.trans hsame₅⟩
        have hdrawn₅ : b∈db₅.drawn := hlater.drawn b (h.1.drawn b (hsame₃.drawn b hdrawn))
        have htoken₅ : token∈db₅.drawn := hlater.drawn token (h.1.drawn token htoken)
        have hfresh : b∉db.drawn := fun hb => hnew (hsame₁.drawn b hb)
        refine .inr ⟨_,rfl,⟨hsame.toLater.trans hlater,hkeys.trans hsame.keys,?_,?_,?_,?_,rfl,rfl,rfl,?_,?_⟩⟩
        · rw [hsessions,hsame.sessions]
          rfl
        · rw [← hsame.sessions]
          exact habsent
        · exact ⟨b,rfl,hlength,hfresh,hdrawn₅⟩
        · exact ⟨active,hmem,hmacKey,rfl,hdecrypt,rfl⟩
        · exact ⟨token,htoken₅,htlength,rfl⟩
        · exact ⟨rfl,hhash rfl⟩

section

variable (h : Sound svc sessions db)
include h

theorem always_deleteKey (id : String) :
    (ask (.deleteKey id)).Always fresh (fun _ db' => Sound svc sessions db') db := by
  intro c r db' hok hperform
  by_cases hused : (c.referenced || db.sessions.any fun row => row.signingKeyID=id)=true
  · obtain ⟨rfl,rfl⟩ := answered hok.1.2 ((if_pos hused).symm.trans hperform)
    exact h.same (same_ticked hok.1.1)
  obtain ⟨rfl,rfl⟩ := answered hok.1.2 ((if_neg hused).symm.trans hperform)
  refine h.keysSubset ⟨hok.1.1,fun _ hb => hb⟩ rfl (h.keyIDs.sublist (List.filter_sublist.map _)) ?_
  exact fun k hk => ⟨k,(List.mem_filter.mp hk).1,rfl,rfl⟩

theorem always_retireKey (id : String) :
    (ask (.retireKey id)).Always fresh (fun _ db' => Sound svc sessions db') db := by
  intro c r db' hok hperform
  obtain ⟨rfl,rfl⟩ := answered hok.1.2 hperform
  have hkept : ∀ k : SessionSigningKey,k.id=(k.retired c.now).id ∧
      k.keyMaterialEncrypted=(k.retired c.now).keyMaterialEncrypted := by
    intro k
    rw [SessionSigningKey.retired]
    split <;> exact ⟨rfl,rfl⟩
  refine h.keysSubset ⟨hok.1.1,fun _ hb => hb⟩ rfl ?_ ?_
  · have hids : (modify SessionSigningKey.id id (SessionSigningKey.retired c.now) db.keys).map SessionSigningKey.id=
        db.keys.map SessionSigningKey.id := map_modify (fun k => (hkept k).1.symm) db.keys
    exact hids ▸ h.keyIDs
  intro k hk
  rcases mem_modify.mp hk with ⟨hold,-⟩|⟨old,hold,-,rfl⟩
  · exact ⟨k,hold,rfl,rfl⟩
  · exact ⟨old,hold,hkept old⟩

theorem Sound.mintKey (failed : MintStage→GoError→GoError) :
    (mintKey svc failed).Always fresh (fun _ db' => Sound svc sessions db') db := by
  refine (always_mintKey svc failed db).mono fun r db₁ hdone => ?_
  rcases hdone with hsame|hadd
  · exact h.same hsame
  · exact h.keyAdded hadd

theorem Sound.rotateSigningKey : (rotateSigningKey svc).Always fresh (fun _ db' => Sound svc sessions db') db := by
  refine always_seq (always_getActiveKey svc.tenantID db) fun r db₁ hread => ?_
  have h₁ := h.same hread.1
  cases r with
  | error => exact h₁
  | ok currentActive =>
    refine always_seq (h₁.mintKey rotationFailed) fun r db₂ h₂ => ?_
    cases r with
    | error => exact h₂
    | ok => exact always_seq (always_retireKey h₂ currentActive.id) fun _ _ h₃ => h₃

theorem Sound.ensureInitialSigningKey :
    (ensureInitialSigningKey svc).Always fresh (fun _ db' => Sound svc sessions db') db := by
  refine always_seq (always_getActiveKey svc.tenantID db) fun r db₁ hread => ?_
  have h₁ := h.same hread.1
  cases r with
  | ok => exact h₁
  | error err =>
    dsimp only
    split
    · exact h₁
    refine always_seq (h₁.mintKey bootstrapFailed) fun r db₂ h₂ => ?_
    cases r with
    | error | ok => exact h₂

theorem Sound.sweepKey (now : Time) (stopped : Err) (k : SessionSigningKey) :
    (sweepKey svc now stopped k).Always fresh (fun _ db' => Sound svc sessions db') db := by
  unfold SessionService.sweepKey
  cases stopped with
  | some => exact h
  | none =>
    dsimp only
    split
    · exact h
    refine always_seq (always_deleteKey h k.id) fun r db₁ h₁ => ?_
    cases r with
    | ok => exact h₁
    | error =>
      dsimp only
      split <;> exact h₁

theorem Sound.garbageCollect : (garbageCollect svc).Always fresh (fun _ db' => Sound svc sessions db') db := by
  have hcollect : (ask .garbageCollectExpired).Always fresh (fun _ db' => Sound svc sessions db') db := by
    intro c r db' hok hperform
    obtain ⟨rfl,rfl⟩ := answered hok.1.2 hperform
    exact h.collected ⟨hok.1.1,fun _ hb => hb⟩ rfl rfl
  refine always_seq hcollect fun r db₁ h₁ => ?_
  cases r with
  | error => exact h₁
  | ok =>
    have hlist : (ask (.listKeys svc.tenantID)).Always fresh (fun _ db' => Same db₁ db') db₁ := by
      intro c r db' hok hperform
      obtain ⟨rfl,rfl⟩ := answered hok.1.2 hperform
      exact same_ticked hok.1.1
    refine always_seq hlist fun r db₂ hread => ?_
    have h₂ := h₁.same hread
    cases r with
    | error => exact h₂
    | ok keys =>
      refine always_seq (always_clockNow db₂) fun now db₃ hclock => ?_
      have h₃ := h₂.same hclock.1
      have hloop : (Prog.foldEach keys none (SessionService.sweepKey svc now)).Always fresh
          (fun _ db' => Sound svc sessions db') db₃ :=
        always_foldEach (I := fun (_ : List SessionSigningKey) (_ : Err) (db' : store.State) =>
          Sound svc sessions db') (fun k rest stopped db₄ h₄ => Sound.sweepKey h₄ now stopped k) h₃
      exact always_seq hloop fun _ _ h₄ => h₄

end

theorem always_createPreLogin (svc : SessionServer) (db : AuthDb) :
    (createPreLogin svc).Always fresh (fun r db' => Same db db' ∧ ∀ cookieValue id,r=.ok (cookieValue,id) →
      ∃ k∈db.keys,∃ hmacKey,cookieValue=signCookie svc.crypto id k.id hmacKey ∧ Drawn "pl-" db' id) db := by
  refine always_seq (always_getActiveKey svc.tenantID db) fun r db₁ h => ?_
  obtain ⟨hsame₁,hactive⟩ := h
  cases r with
  | error => exact ⟨hsame₁,nofun⟩
  | ok active =>
    have hmem := hactive active rfl
    dsimp only
    cases hdecrypt : decryptKeyMaterial svc.crypto active.keyMaterialEncrypted svc.encryption with
    | error => exact ⟨hsame₁,nofun⟩
    | ok hmacKey =>
      refine always_seq (always_newOpaqueID "pl-" db₁) fun r db₂ h => ?_
      obtain ⟨hsame₂,b,rfl,hlength,-,hdrawn⟩ := h
      have hinsert : (ask (.createPreLogin ("pl-"++String.ofList (Base64Url.encode b)) active.id)).Always fresh
          (fun _ db' => Same db₂ db') db₂ := by
        intro c r db' hok hperform
        obtain ⟨rfl,rfl⟩ := answered hok.1.2 hperform
        exact same_ticked hok.1.1
      refine always_seq hinsert fun r db₃ hsame₃ => ?_
      have hsame := (hsame₁.trans hsame₂).trans hsame₃
      cases r with
      | error => exact ⟨hsame,nofun⟩
      | ok =>
        refine ⟨hsame,fun cookieValue id heq => ?_⟩
        cases heq
        exact ⟨active,hmem,hmacKey,rfl,b,hsame₃.drawn b hdrawn,hlength,rfl⟩

variable {row : Session}

theorem Mirrors.id (h : Mirrors m row) : row.id=m.result.session.id := by
  have hid := congrArg Session.id h.1
  exact hid

theorem Sound.modified {id : String} (h : Sound svc sessions db)
    (hlater : Later db db') (hkeys : db'.keys=db.keys) (hrows : db'.sessions=modify Session.id id f db.sessions)
    (hid : ∀ row,(f row).id=row.id) (hresult : ∀ m,(g m).result=m.result)
    (hmirrors : ∀ m row,m.result.session.id=id → Mirrors m row → Mirrors (g m) (f row))
    (hothers : ∀ m,m.result.session.id≠id → g m=m) : Sound svc (sessions.map g) db' := by
  refine h.mapped hlater hkeys hrows (fun row => ?_) hresult (fun m row _ hrow => ?_)
  · split
    · exact hid row
    · rfl
  by_cases hsame : m.result.session.id=id
  · rw [if_pos (hrow.id.trans hsame)]
    exact hmirrors m row hsame hrow
  · rw [if_neg (hrow.id ▸ hsame),hothers m hsame]
    exact hrow

theorem Mirrors.revoked (h : Mirrors m row) (now : Time) : Mirrors {m with revoked := true} (row.revoked now) := by
  unfold Session.revoked
  split
  · exact ⟨congrArg (fun s : Session => {s with revokedAt := some now}) h.1,rfl⟩
  rename_i hset
  exact ⟨h.1,isSome_iff_ne_none.mpr hset⟩

theorem revoked_id (now : Time) (row : Session) : (row.revoked now).id=row.id := by
  unfold Session.revoked
  split <;> rfl

theorem revokedIf_result (meant : Session→Bool) (m : Minted) : (m.revokedIf meant).result=m.result := by
  unfold Minted.revokedIf
  split <;> rfl

theorem seen_result (id : String) (now : Time) (m : Minted) : (m.seen id now).result=m.result := by
  unfold Minted.seen
  split <;> rfl

section

variable (h : Sound svc sessions db)
include h

theorem Sound.updateLastSeen (id : String) : (program svc (.updateLastSeen id)).Always fresh (fun answer db' =>
      Sound svc (Entry.applied ⟨.updateLastSeen id,answer,db'.clock⟩ sessions) db') db := by
  intro c r db' hok hperform
  obtain ⟨rfl,rfl⟩ := answered hok.1.2 hperform
  cases hfound : lookup Session.id id db.sessions with
  | none =>
    have hrows := modify_of_lookup_none hfound fun row => {row with lastSeenAt := c.now}
    exact h.same ⟨⟨hok.1.1,fun _ hb => hb⟩,hrows,rfl⟩
  | some row =>
    refine h.modified ⟨hok.1.1,fun _ hb => hb⟩ rfl rfl (fun _ => rfl)
      (seen_result id c.now) (fun m row hid hrow => ?_) (fun m hid => if_neg hid)
    rw [Minted.seen,if_pos hid]
    exact ⟨congrArg (fun s : Session => {s with lastSeenAt := c.now}) hrow.1,hrow.2⟩

theorem Sound.revoke (id : String) : (program svc (.revoke id)).Always fresh (fun answer db' =>
      Sound svc (Entry.applied ⟨.revoke id,answer,db'.clock⟩ sessions) db') db := by
  intro c r db' hok hperform
  obtain ⟨rfl,rfl⟩ := answered hok.1.2 hperform
  cases hfound : lookup Session.id id db.sessions with
  | none =>
    have hrows := modify_of_lookup_none hfound (Session.revoked c.now)
    exact h.same ⟨⟨hok.1.1,fun _ hb => hb⟩,hrows,rfl⟩
  | some row =>
    refine h.modified ⟨hok.1.1,fun _ hb => hb⟩ rfl rfl (revoked_id c.now)
      (revokedIf_result _) (fun m row hid hrow => ?_) (fun m hid => if_neg (by simpa using hid))
    rw [Minted.revokedIf,if_pos (by simpa using hid)]
    exact hrow.revoked c.now

theorem Sound.revokeAllForActor (actorID actorType : String) :
    (program svc (.revokeAllForActor actorID actorType)).Always fresh (fun answer db' =>
      Sound svc (Entry.applied ⟨.revokeAllForActor actorID actorType,answer,db'.clock⟩ sessions) db') db := by
  intro c r db' hok hperform
  obtain ⟨rfl,rfl⟩ := answered hok.1.2 hperform
  refine h.mapped ⟨hok.1.1,fun _ hb => hb⟩ rfl rfl (fun row => ?_) (revokedIf_result _) (fun m row htenant hrow => ?_)
  · unfold Session.revokedFor
    split
    · exact revoked_id c.now row
    · rfl
  have hactor : row.ofActor actorID actorType svc.tenantID=
      (decide (m.result.session.actorID=actorID) && decide (m.result.session.actorType=actorType)) := by
    rw [hrow.1,Session.ofActor,updatedTo]
    simp only [htenant,decide_true,Bool.and_true]
  unfold Session.revokedFor Minted.revokedIf
  rw [hactor]
  split
  · exact hrow.revoked c.now
  · exact hrow

/-- The tables and the ledger agree after every call. -/
theorem Sound.call {request : SessionCall} {answer : Answer} (hexec : (program svc request).Exec fresh db answer db') :
    Sound svc (Entry.applied ⟨request,answer,db'.clock⟩ sessions) db' := by
  have halways : (program svc request).Always fresh (fun answer db' =>
      Sound svc (Entry.applied ⟨request,answer,db'.clock⟩ sessions) db') db := by
    cases request with
    | ensureInitialSigningKey => exact always_seq h.ensureInitialSigningKey fun _ _ hdone => hdone
    | create actorID actorType ip userAgent =>
      refine always_seq (always_create svc actorID actorType ip userAgent db) fun r db₁ hdone => ?_
      rcases hdone with ⟨err,rfl,hsame⟩|⟨result,rfl,hcreated⟩
      · exact h.same hsame
      · exact h.created hcreated
    | createPreLogin => exact always_seq (always_createPreLogin svc db) fun _ _ hdone => h.same hdone.1
    | updateLastSeen id => exact h.updateLastSeen id
    | revoke id => exact h.revoke id
    | revokeAllForActor actorID actorType => exact h.revokeAllForActor actorID actorType
    | rotateSigningKey => exact always_seq h.rotateSigningKey fun _ _ hdone => hdone
    | garbageCollect => exact always_seq h.garbageCollect fun _ _ hdone => hdone
  exact (always_iff_exec _ _ _).mp halways answer db' hexec

end

theorem sound_of_history {log : List Entry} (h : History svc log db) : Sound svc (ledger log) db := by
  induction h with
  | start hsessions hkeys =>
    exact ⟨by rw [hsessions]; exact List.nodup_nil,by rw [hkeys]; exact List.nodup_nil,
      by rw [hkeys]; exact List.forall_mem_nil _,List.forall_mem_nil _,
      by rw [hsessions]; exact List.forall_mem_nil _⟩
  | call hbefore hexec ih => exact ih.call hexec

/-- After every history of calls the session table is the ledger of what was handed out: identifiers are unique, every
row is of a session handed out, and every such session has its row, or has ended. -/
theorem table_refines_ledger {log : List Entry} (h : History svc log db) : (db.sessions.map Session.id).Nodup ∧
    (∀ row∈db.sessions,∃ m∈ledger log,m.result.session.id=row.id) ∧
      ∀ m∈ledger log,Shown m db.clock (lookup Session.id m.result.session.id db.sessions) := by
  have hsound := sound_of_history h
  refine ⟨hsound.sessionIDs,hsound.rows,fun m hm => ?_⟩
  have hrow := (hsound.minted m hm).row _ rfl
  cases hfound : lookup Session.id m.result.session.id db.sessions with
  | none | some =>
    rw [hfound] at hrow
    exact hrow

end Calls

end Certctl.SessionLedger
