import Certctl.SessionAcceptance

/-!
# Rotation of tokens for an actor

A change of an actor's roles gives every active session of the actor another
token. The rotation passes over a session whose first idle window is over,
while a request is let in as long as the latest request was recent. A session
that is kept alive beyond its first idle window so keeps its old token; every
other session loses it.
-/

namespace Certctl.CsrfRotation

open AtomicProgram Prog DomainRecords RecordTable AuthTables SessionCookies SessionService SessionLedger SessionAcceptance
open List hiding lookup

def readsClock : Op→Bool
  | .clockNow => true
  | _ => false

/-- As in a run, with a given reading of the clock. -/
def rotating (now : Time) : Prog.Allowed store := fun op c db => fresh op c db ∧ (readsClock op=true → c.now=now)

instance (now : Time) (op : store.Op) (c : store.Choice) (db : store.State) : Decidable (rotating now op c db) :=
  inferInstanceAs (Decidable (fresh op c db ∧ (readsClock op=true → (c : Choice).now=now)))

def tokenOf (b : List UInt8) : String := String.ofList (Base64Url.encode b)

/-- Different tokens have different hashes. -/
def CollisionFree (crypto : Cryptography) : Prop :=
  ∀ b b' : List UInt8,b.length=32 → b'.length=32 → hashCSRFToken crypto (tokenOf b)=hashCSRFToken crypto (tokenOf b') → b=b'

def AcceptedAt (svc : SessionServer) (db : AuthDb) (now : Time) (row : Session) : Prop :=
  ∃ req db',(validate svc req).Exec (reading now) db (.ok row) db'

def withHash (row : Session) (hash : String) : Session := {row with csrfTokenHash := hash}

def Renewed (svc : SessionServer) (db : AuthDb) (hash : String) : Prop :=
  ∃ b,b.length=32 ∧ b∉db.drawn ∧ hash=hashCSRFToken svc.crypto (tokenOf b)

/-- What runs that rotate tokens may change. -/
structure Rotated (svc : SessionServer) (start db : AuthDb) (renewed : String→Prop) : Prop extends Later start db where
  keys : db.keys=start.keys
  absent : ∀ id,lookup Session.id id start.sessions=none → lookup Session.id id db.sessions=none
  /-- The renewed sessions have a new hash, and the others have theirs. -/
  present : ∀ id row,lookup Session.id id start.sessions=some row →
    ∃ hash,lookup Session.id id db.sessions=some (withHash row hash) ∧ (renewed id → Renewed svc start hash) ∧
      (¬renewed id → hash=row.csrfTokenHash)

variable {b : List UInt8} {now : Time}

section Programs

variable {svc : SessionServer} {start db : AuthDb} {renewed : String→Prop}

theorem Rotated.refl (svc : SessionServer) (db : AuthDb) : Rotated svc db db fun _ => False :=
  ⟨Later.refl db,rfl,fun _ h => h,fun _ row h => ⟨row.csrfTokenHash,h,fun hfalse => hfalse.elim,fun _ => rfl⟩⟩

section

variable (h : Rotated svc start db renewed)
include h

theorem Rotated.congr {renewed' : String→Prop} (hiff : ∀ id,renewed id ↔ renewed' id) :
    Rotated svc start db renewed' := by
  refine ⟨h.toLater,h.keys,h.absent,fun id row hrow => ?_⟩
  obtain ⟨hash,hlookup,hnew,hold⟩ := h.present id row hrow
  exact ⟨hash,hlookup,fun hr => hnew ((hiff id).mpr hr),fun hr => hold fun hr' => hr ((hiff id).mp hr')⟩

theorem Rotated.same {db' : AuthDb} (hsame : Same db db') : Rotated svc start db' renewed := by
  refine ⟨h.toLater.trans hsame.toLater,hsame.keys.trans h.keys,?_,?_⟩
  · rw [hsame.sessions]
    exact h.absent
  · rw [hsame.sessions]
    exact h.present

theorem Rotated.before {start' : AuthDb} (hsame : Same start' start) : Rotated svc start' db renewed := by
  refine ⟨hsame.toLater.trans h.toLater,h.keys.trans hsame.keys,?_,?_⟩
  · rw [← hsame.sessions]
    exact h.absent
  intro id row hrow
  rw [← hsame.sessions] at hrow
  obtain ⟨hash,hlookup,hrenewed,hold⟩ := h.present id row hrow
  refine ⟨hash,hlookup,fun hr => ?_,hold⟩
  obtain ⟨b,hlength,hnew,hhash⟩ := hrenewed hr
  exact ⟨b,hlength,fun hb => hnew (hsame.drawn b hb),hhash⟩

theorem Rotated.updated {id : String} (hnow : db.clock≤now) (hlength : b.length=32) (hnew : b∉start.drawn) :
    Rotated svc start ((db.modifySession id fun row => withHash row (hashCSRFToken svc.crypto (tokenOf b))).ticked now)
      fun x => x=id ∨ renewed x := by
  have hid : ∀ row : Session,(withHash row (hashCSRFToken svc.crypto (tokenOf b))).id=row.id := fun _ => rfl
  refine ⟨⟨le_trans h.clock hnow,h.drawn⟩,h.keys,?_,?_⟩
  · intro x hx
    have hnone := h.absent x hx
    by_cases hsame : x=id
    · subst hsame
      exact (lookup_modify_self hid db.sessions).trans (by rw [hnone]; rfl)
    · exact (lookup_modify_of_ne hid hsame db.sessions).trans hnone
  intro x row hrow
  obtain ⟨hash,hlookup,hrenewed,hold⟩ := h.present x row hrow
  by_cases hsame : x=id
  · subst hsame
    refine ⟨_,(lookup_modify_self hid db.sessions).trans (by rw [hlookup]; rfl),fun _ => ⟨b,hlength,hnew,rfl⟩,?_⟩
    exact fun hr => absurd (Or.inl rfl) hr
  refine ⟨hash,(lookup_modify_of_ne hid hsame db.sessions).trans hlookup,?_,fun hr => hold fun hr' => hr (Or.inr hr')⟩
  rintro (heq|hr)
  · exact absurd heq hsame
  · exact hrenewed hr

theorem Rotated.rotateCSRFToken (id : String) :
    (rotateCSRFToken svc id).Always fresh (fun _ db' => Rotated svc start db' fun x => x=id ∨ renewed x) db := by
  refine always_seq (always_newCSRFToken db) fun r db₁ hdrawn => ?_
  obtain ⟨hsame,b,rfl,hlength,hnew,-⟩ := hdrawn
  have hupdate : (ask (.updateCSRFTokenHash id (hashCSRFToken svc.crypto (tokenOf b)))).Always fresh
      (fun _ db' => Rotated svc start db' fun x => x=id ∨ renewed x) db₁ := by
    intro c r db' hok hperform
    obtain ⟨rfl,rfl⟩ := answered hok.1.2 hperform
    exact (h.same hsame).updated hok.1.1 hlength fun hb => hnew (h.drawn b hb)
  refine always_seq hupdate fun r db₂ hdone => ?_
  cases r with
  | error | ok => exact hdone

theorem Rotated.rotateListed (now : Time) (rotated : ℕ) (sess : Session) :
    (rotateListed svc now rotated sess).Always fresh (fun _ db' =>
      Rotated svc start db' fun x => (sess.id=x ∧ rotationSkips now sess=false) ∨ renewed x) db := by
  unfold SessionService.rotateListed
  by_cases hskip : rotationSkips now sess=true
  · rw [if_pos hskip]
    refine h.congr fun x => ?_
    simp only [hskip,Bool.true_eq_false,and_false,false_or]
  rw [if_neg hskip]
  refine always_seq (h.rotateCSRFToken sess.id) fun r db₁ hdone => ?_
  have hrotated : Rotated svc start db₁ fun x => (sess.id=x ∧ rotationSkips now sess=false) ∨ renewed x := by
    refine hdone.congr fun x => ?_
    simp only [Bool.eq_false_iff.mpr hskip,and_true,eq_comm]
  cases r with
  | error | ok => exact hrotated

end

theorem Rotated.listed (h : Rotated svc start db fun _ => False) (now : Time) (rows : List Session) :
    (Prog.foldEach rows 0 (SessionService.rotateListed svc now)).Always fresh (fun _ db' =>
      Rotated svc start db' fun x => ∃ s∈rows,s.id=x ∧ rotationSkips now s=false) db := by
  have hloop : (Prog.foldEach rows 0 (SessionService.rotateListed svc now)).Always fresh (fun _ db' =>
      ∃ before,rows=before++[] ∧ Rotated svc start db' fun x => ∃ s∈before,s.id=x ∧ rotationSkips now s=false) db := by
    refine always_foldEach (I := fun (rest : List Session) (_ : ℕ) (db' : store.State) =>
      ∃ before,rows=before++rest ∧ Rotated svc start db' fun x => ∃ s∈before,s.id=x ∧ rotationSkips now s=false) ?_ ?_
    · rintro sess rest rotated db₁ ⟨before,hrows,h₁⟩
      refine (h₁.rotateListed now rotated sess).mono fun _ db₂ h₂ => ?_
      refine ⟨before++[sess],by rw [hrows,append_assoc]; rfl,h₂.congr fun x => ?_⟩
      simp only [mem_append,mem_singleton,or_and_right,exists_or,exists_eq_left]
      exact or_comm
    · refine ⟨[],rfl,h.congr fun x => ?_⟩
      simp only [not_mem_nil,false_and,exists_false]
  refine hloop.mono fun _ db' hdone => ?_
  obtain ⟨before,hrows,hrotated⟩ := hdone
  rw [append_nil] at hrows
  rw [hrows]
  exact hrotated

def selected (svc : SessionServer) (actorID actorType : String) (listedAt now : Time) (row : Session) : Bool :=
  row.ofActor actorID actorType svc.tenantID && row.revokedAt=none && !row.isPreLogin &&
    listedAt<row.absoluteExpiresAt && !rotationSkips now row

theorem always_rotateCSRFTokenForActor (svc : SessionServer) (actorID actorType : String) (now : Time) (db : AuthDb) :
    (rotateCSRFTokenForActor svc actorID actorType).Always (rotating now) (fun _ db' =>
      ∃ listedAt,listedAt≤now ∧ now≤db'.clock ∧ Rotated svc db db' fun x =>
        ∃ s∈db.sessions,s.id=x ∧ selected svc actorID actorType listedAt now s=true) db := by
  have hlist : (ask (.listByActor actorID actorType svc.tenantID)).Always (rotating now) (fun r db₁ =>
      r=.ok (newestFirst Session.createdAt (db.sessions.filter fun row => row.ofActor actorID actorType svc.tenantID &&
        row.revokedAt=none && !row.isPreLogin && db₁.clock<row.absoluteExpiresAt)) ∧ Same db db₁) db := by
    intro c r db₁ hok hperform
    obtain ⟨rfl,rfl⟩ := answered hok.1.1.2 hperform
    exact ⟨rfl,same_ticked hok.1.1.1⟩
  refine always_seq hlist fun r db₁ h => ?_
  obtain ⟨rfl,hsame₁⟩ := h
  have hclock : (ask .clockNow).Always (rotating now) (fun t db₂ => t=now ∧ db₁.clock≤now ∧ now=db₂.clock ∧
      Same db₁ db₂) db₁ := by
    intro c r db₂ hok hperform
    cases hperform
    have hnow : c.now=now := hok.2 rfl
    exact ⟨hnow,hnow ▸ hok.1.1.1,hnow.symm,same_ticked hok.1.1.1⟩
  refine always_seq hclock fun t db₂ h => ?_
  obtain ⟨rfl,hlisted,hread,hsame₂⟩ := h
  have hloop := (Rotated.refl svc db₂).listed t (newestFirst Session.createdAt
    (db.sessions.filter fun row => row.ofActor actorID actorType svc.tenantID && row.revokedAt=none &&
      !row.isPreLogin && db₁.clock<row.absoluteExpiresAt))
  refine Prog.Always.mono (fun _ db₃ hdone => ?_) (hloop.allow fun op c s hok => hok.1)
  refine ⟨db₁.clock,hlisted,hread ▸ hdone.clock,(hdone.before (hsame₁.trans hsame₂)).congr fun x => ?_⟩
  constructor
  · rintro ⟨s,hs,hid,hskip⟩
    rw [newestFirst,mem_insertionSort] at hs
    obtain ⟨hmem,hactive⟩ := mem_filter.mp hs
    refine ⟨s,hmem,hid,?_⟩
    unfold selected
    rw [hactive,hskip]
    rfl
  · rintro ⟨s,hmem,hid,hselected⟩
    unfold selected at hselected
    rw [Bool.and_eq_true] at hselected
    refine ⟨s,?_,hid,by simpa using hselected.2⟩
    rw [newestFirst,mem_insertionSort]
    exact mem_filter.mpr ⟨hmem,hselected.1⟩

end Programs

section Tokens

variable {svc : SessionServer} {db db' : AuthDb} {log : List Entry}

theorem acceptedAt_iff (hnow : db.clock≤now) (row : Session) :
    AcceptedAt svc db now row ↔ ∃ req,verdict svc db now req=.ok row := by
  constructor
  · rintro ⟨req,db',hexec⟩
    exact ⟨req,((total_validate svc req hnow).of_exec hexec).symm⟩
  · rintro ⟨req,hverdict⟩
    obtain ⟨r,db',hexec,hr⟩ := (total_validate svc req hnow).exists_exec
    exact ⟨req,db',by rw [hr,hverdict] at hexec; exact hexec⟩

theorem admitRow_withHash (now : Time) (req : ValidateInput) (row : Session) (hash : String) :
    admitRow svc now req (withHash row hash)=.ok (withHash row hash) ↔ admitRow svc now req row=.ok row := by
  unfold admitRow withHash
  split_ifs <;> simp

variable {req : ValidateInput} {row : Session}

theorem lookup_of_verdict (h : verdict svc db now req=.ok row) : lookup Session.id row.id db.sessions=some row := by
  obtain ⟨parsed,key,hmacKey,-,hverifies,-⟩ := (verdict_ok_iff svc db now req row).mp h
  have hrow := hverifies.row
  rw [(lookup_some hrow).2]
  exact hrow

theorem verdict_rotated {renewed : String→Prop} (now : Time) (req : ValidateInput) {hash : String}
    (h : Rotated svc db db' renewed) (hrow : lookup Session.id row.id db.sessions=some row)
    (hrow' : lookup Session.id row.id db'.sessions=some (withHash row hash)) :
    verdict svc db' now req=.ok (withHash row hash) ↔ verdict svc db now req=.ok row := by
  rw [verdict_ok_iff,verdict_ok_iff]
  refine exists_congr fun parsed => exists_congr fun key => exists_congr fun hmacKey => and_congr_right fun _ => ?_
  rw [admitRow_withHash]
  refine and_congr_left fun _ => ?_
  constructor
  · intro hv
    have hid : row.id=parsed.sessionID := (lookup_some hv.row).2
    exact ⟨hv.marked,h.keys ▸ hv.stored,hv.retained,hv.decrypted,hv.tag,hid ▸ hrow⟩
  · intro hv
    have hid : row.id=parsed.sessionID := (lookup_some hv.row).2
    exact ⟨hv.marked,h.keys.symm ▸ hv.stored,hv.retained,hv.decrypted,hv.tag,hid ▸ hrow'⟩

theorem blank_tokenOf (hlength : b.length=32) : blank (tokenOf b)=false := by
  have hchars : ∀ v<64,isSpace (Base64Url.sextetChar v)=false := by decide
  have hne : Base64Url.encode b≠[] := by
    rw [Ne,Base64Url.encode_eq_nil_iff]
    intro hnil
    rw [hnil] at hlength
    cases hlength
  obtain ⟨ch,rest,hencode⟩ := exists_cons_of_ne_nil hne
  have hmem : ch∈Base64Url.encode b := hencode ▸ mem_cons_self
  obtain ⟨v,hv,hch⟩ := mem_map.mp hmem
  have hspace : isSpace ch=false := hch ▸ hchars v (Base64Url.sextetsOf_lt b v hv)
  rw [blank,tokenOf,String.toList_ofList,hencode,all_cons,hspace,Bool.false_and]

theorem validateCSRF_ok_iff (hlength : b.length=32) (row : Session) : validateCSRF svc (tokenOf b) row=.ok () ↔
      row.csrfTokenHash≠"" ∧ hashCSRFToken svc.crypto (tokenOf b)=row.csrfTokenHash := by
  unfold validateCSRF
  rw [blank_tokenOf hlength]
  by_cases hempty : row.csrfTokenHash=""
  · rw [if_pos hempty]
    exact ⟨nofun,fun h => absurd hempty h.1⟩
  rw [if_neg hempty]
  by_cases heq : hashCSRFToken svc.crypto (tokenOf b)=row.csrfTokenHash
  · rw [if_neg (not_not.mpr heq)]
    exact ⟨fun _ => ⟨hempty,heq⟩,fun _ => rfl⟩
  · rw [if_pos heq]
    exact ⟨nofun,fun h => absurd h.2 heq⟩

/-- The token that was handed out with a session no longer passes for it. -/
def OldTokensRejected (svc : SessionServer) (log : List Entry) (actorID actorType : String) (db : AuthDb) (now : Time) :
    Prop :=
  ∀ row,AcceptedAt svc db now row → row.actorID=actorID → row.actorType=actorType →
    ∀ m∈ledger log,m.result.session.id=row.id → validateCSRF svc m.result.csrfToken row≠.ok ()

/-- Every session of the actor that is accepted at a time was, when the rotation read the clock, within its first
idle window. -/
def WithinFirstWindow (svc : SessionServer) (actorID actorType : String) (db : AuthDb) (read now : Time) : Prop :=
  ∀ row,AcceptedAt svc db now row → row.actorID=actorID → row.actorType=actorType → read≤row.idleExpiresAt

theorem selected_of_accepted {actorID actorType : String} {listedAt read : Time}
    {m : Minted} (hkept : Kept svc db m) (hmirrors : Mirrors m row)
    (halive : admitRow svc now req row=.ok row) (hactor : row.actorID=actorID) (htype : row.actorType=actorType)
    (hlisted : listedAt≤read) (hread : read≤now) (hwindow : read≤row.idleExpiresAt) :
    selected svc actorID actorType listedAt read row=true := by
  have htenant : row.tenantID=svc.tenantID := (congrArg Session.tenantID hmirrors.1).trans hkept.tenant
  have hpending : row.isPreLogin=false := (congrArg Session.isPreLogin hmirrors.1).trans hkept.postLogin
  have hlive : row.revokedAt=none ∧ now<row.absoluteExpiresAt := by
    unfold admitRow at halive
    split_ifs at halive with hrevoked habsolute
    exact ⟨not_not.mp hrevoked,habsolute⟩
  have hbefore : ¬row.absoluteExpiresAt<read := not_lt_of_ge (le_trans hread hlive.2.le)
  have hfirst : ¬row.idleExpiresAt<read := not_lt_of_ge hwindow
  have hstill : listedAt<row.absoluteExpiresAt := lt_of_le_of_lt (le_trans hlisted hread) hlive.2
  simp only [selected,Session.ofActor,rotationSkips,hactor,htype,htenant,hpending,hlive.1,hbefore,hfirst,hstill,
    decide_true,decide_false,Bool.and_true,Bool.not_false,Bool.or_false,ne_eq,not_true_eq_false]

end Tokens

section Rotation

variable {svc : SessionServer} {db db' : AuthDb} {log : List Entry} {actorID actorType : String} {read : Time} {count : ℕ}

/-- After a rotation for an actor has returned, the old tokens of the actor's accepted sessions are rejected exactly
if every such session was within its first idle window when the rotation read the clock. -/
theorem rotation_rejects_old_tokens_iff (hcollision : CollisionFree svc.crypto) (h : History svc log db)
    (hexec : (rotateCSRFTokenForActor svc actorID actorType).Exec (rotating read) db count db') {now : Time}
    (hnow : db'.clock≤now) :
    OldTokensRejected svc log actorID actorType db' now ↔ WithinFirstWindow svc actorID actorType db read now := by
  have hsound := sound_of_history h
  obtain ⟨listedAt,hlisted,hread,hrotated⟩ :=
    (always_iff_exec _ _ _).mp (always_rotateCSRFTokenForActor svc actorID actorType read db) count db' hexec
  have hnow₀ : db.clock≤now := le_trans hrotated.clock hnow
  have hreturn : read≤now := le_trans hread hnow
  constructor
  · intro hrejected row haccepted hactor htype
    by_contra hlate
    obtain ⟨req,hverdict⟩ := (acceptedAt_iff hnow₀ row).mp haccepted
    have hrow := lookup_of_verdict hverdict
    obtain ⟨hash,hrow',-,hold⟩ := hrotated.present row.id row hrow
    have hpassed : ¬∃ s∈db.sessions,s.id=row.id ∧ selected svc actorID actorType listedAt read s=true := by
      rintro ⟨s,hs,hid,hselected⟩
      have hsame := inj_on_of_nodup_map hsound.sessionIDs hs (lookup_some hrow).1 hid
      subst hsame
      simp only [selected,rotationSkips,lt_of_not_ge hlate,decide_true,Bool.or_true,Bool.not_true,Bool.and_false,
        Bool.false_eq_true] at hselected
    have hsame : withHash row hash=row := by rw [hold hpassed]; rfl
    have hverdict' : verdict svc db' now req=.ok row := by
      have hiff := verdict_rotated now req hrotated hrow (hsame.symm ▸ hrow')
      rw [hsame] at hiff
      exact hiff.mpr hverdict
    obtain ⟨m,hm,hid⟩ := hsound.rows row (lookup_some hrow).1
    have hkept := hsound.minted m hm
    have hmirrors := hkept.row (some row) (hid.symm ▸ hrow)
    obtain ⟨b,-,hlength,htoken⟩ := hkept.token
    have hhash : row.csrfTokenHash=m.result.session.csrfTokenHash := by
      have hfield := congrArg Session.csrfTokenHash hmirrors.1
      exact hfield
    refine hrejected row ((acceptedAt_iff hnow row).mpr ⟨req,hverdict'⟩) hactor htype m hm hid ?_
    have hpasses : validateCSRF svc (tokenOf b) row=.ok () := by
      rw [validateCSRF_ok_iff hlength,hhash]
      exact ⟨hkept.hash.2,by rw [hkept.hash.1,htoken]; rfl⟩
    rw [htoken]
    exact hpasses
  · intro hwindow row' haccepted hactor htype m hm hid hpasses
    obtain ⟨req,hverdict'⟩ := (acceptedAt_iff hnow row').mp haccepted
    have hrow' := lookup_of_verdict hverdict'
    cases hrow : lookup Session.id row'.id db.sessions with
    | none =>
      rw [hrotated.absent row'.id hrow] at hrow'
      cases hrow'
    | some row =>
      have hsameID : row.id=row'.id := (lookup_some hrow).2
      obtain ⟨hash,hfound,hrenewed,-⟩ := hrotated.present row'.id row hrow
      rw [hrow'] at hfound
      have hrow'_eq : row'=withHash row hash := Option.some.inj hfound
      have hlookup : lookup Session.id row.id db.sessions=some row := by rw [hsameID]; exact hrow
      have hlookup' : lookup Session.id row.id db'.sessions=some (withHash row hash) := by rw [hsameID,hrow',hrow'_eq]
      rw [hrow'_eq] at hverdict'
      have hverdict := (verdict_rotated now req hrotated hlookup hlookup').mp hverdict'
      have hactor₀ : row.actorID=actorID := by rw [← hactor,hrow'_eq]; rfl
      have htype₀ : row.actorType=actorType := by rw [← htype,hrow'_eq]; rfl
      have hfirst := hwindow row ((acceptedAt_iff hnow₀ row).mpr ⟨req,hverdict⟩) hactor₀ htype₀
      have hkept := hsound.minted m hm
      have hmirrors := hkept.row (some row) (hid.symm ▸ hrow)
      obtain ⟨parsed,key,hmacKey,-,-,halive⟩ := (verdict_ok_iff svc db now req row).mp hverdict
      have hselected := selected_of_accepted hkept hmirrors halive hactor₀ htype₀ hlisted hreturn hfirst
      obtain ⟨b,hlength,hnew,hhash⟩ := hrenewed ⟨row,(lookup_some hrow).1,hsameID,hselected⟩
      obtain ⟨b₀,hb₀,hlength₀,htoken⟩ := hkept.token
      have hold : validateCSRF svc (tokenOf b₀) row'=.ok () := by
        rw [htoken] at hpasses
        exact hpasses
      have hmatch := ((validateCSRF_ok_iff hlength₀ row').mp hold).2
      have hstored : row'.csrfTokenHash=hash := by rw [hrow'_eq]; rfl
      rw [hstored,hhash] at hmatch
      exact hnew (hcollision b₀ b hlength₀ hlength hmatch ▸ hb₀)

theorem sha256Hex_tokenOf (b : List UInt8) :
    hashCSRFToken sampleCrypto (tokenOf b)=String.ofList (b.flatMap hexByte) := by
  have hdecode : Base64Url.decode (tokenOf b).toList=.ok b := by
    rw [tokenOf,String.toList_ofList,Base64Url.decode_encode]
  simp only [hashCSRFToken,sampleCrypto,hdecode]

theorem hexByte_injective {a b : UInt8} (h : hexByte a=hexByte b) : a=b := by
  have hdigit : ∀ d<16,∀ e<16,Nat.digitChar d=Nat.digitChar e → d=e := by decide
  simp only [hexByte,List.cons.injEq,and_true] at h
  have ha := a.toNat_lt
  have hb := b.toNat_lt
  have hhigh := hdigit _ (by omega) _ (by omega) h.1
  have hlow := hdigit _ (by omega) _ (by omega) h.2
  exact UInt8.toNat_inj.mp (by omega)

theorem flatMap_hexByte_injective {b' : List UInt8} (h : b.flatMap hexByte=b'.flatMap hexByte) : b=b' := by
  induction b generalizing b' with
  | nil =>
    cases b' with
    | nil => rfl
    | cons => cases h
  | cons x rest ih =>
    cases b' with
    | nil => cases h
    | cons =>
      obtain ⟨hhead,htail⟩ := append_inj h rfl
      rw [hexByte_injective hhead,ih htail]

theorem sample_collisionFree : CollisionFree sampleCrypto := by
  intro b b' _ _ h
  rw [sha256Hex_tokenOf,sha256Hex_tokenOf,String.ofList_inj] at h
  exact flatMap_hexByte_injective h

def rotationChoices : List Choice :=
  [{now := 100*second},{now := 100*second},{now := 100*second,random := List.replicate 32 5},{now := 100*second}]

def rotatedDb : AuthDb :=
  ⟨[withHash sampleSession (String.ofList ((List.replicate 32 5).flatMap hexByte))],[sampleKey],[],100*second,
    [List.replicate 32 5,List.replicate 32 4,List.replicate 16 3,List.replicate 32 2,List.replicate 16 1],[]⟩

theorem sample_rotation :
    (rotateCSRFTokenForActor sampleServer "alice" "User").Exec (rotating (100*second)) sessionDb 1 rotatedDb :=
  exec_of_runAllowed (show Prog.runAllowed (rotating (100*second)) _ rotationChoices _=some ((1 : ℕ),rotatedDb) by rfl)

/-- A rotation soon after the session was made. -/
theorem rotation_rejects_old_tokens_iff_sample :
    CollisionFree sampleServer.crypto ∧ History sampleServer sampleLog sessionDb ∧
      (rotateCSRFTokenForActor sampleServer "alice" "User").Exec (rotating (100*second)) sessionDb 1 rotatedDb ∧
        (OldTokensRejected sampleServer sampleLog "alice" "User" rotatedDb (100*second) ↔
          WithinFirstWindow sampleServer "alice" "User" sessionDb (100*second) (100*second)) :=
  ⟨sample_collisionFree,sample_history,sample_rotation,
    rotation_rejects_old_tokens_iff sample_collisionFree sample_history sample_rotation (by decide)⟩

def seenSession : Session := updatedTo sampleSession (3000*second) none

def seenDb : AuthDb := {sessionDb with sessions := [seenSession],clock := 3000*second}

def seenLog : List Entry := ⟨.updateLastSeen sampleSession.id,.done,3000*second⟩::sampleLog

theorem seen_history : History sampleServer seenLog seenDb :=
  sample_history.call (exec_of_runAllowed
    (show Prog.runAllowed fresh (program sampleServer (.updateLastSeen sampleSession.id)) [{now := 3000*second}] _=
      some (Answer.done,seenDb) by rfl))

def lateDb : AuthDb := {seenDb with clock := 4000*second}

/-- The rotation passes over a session that is used beyond its first idle window, and its old token still passes. -/
theorem late_session_keeps_token :
    CollisionFree sampleServer.crypto ∧ History sampleServer seenLog seenDb ∧
      (rotateCSRFTokenForActor sampleServer "alice" "User").Exec (rotating (4000*second)) seenDb 0 lateDb ∧
        ¬OldTokensRejected sampleServer seenLog "alice" "User" lateDb (4000*second) := by
  refine ⟨sample_collisionFree,seen_history,?_,?_⟩
  · exact exec_of_runAllowed (show Prog.runAllowed (rotating (4000*second)) _
      [{now := 4000*second},{now := 4000*second}] _=some ((0 : ℕ),lateDb) by rfl)
  intro hrejected
  have hverdict : verdict sampleServer lateDb (4000*second) ⟨sampleResult.cookieValue,"",""⟩=.ok seenSession := by
    decide +kernel
  have haccepted : AcceptedAt sampleServer lateDb (4000*second) seenSession :=
    (acceptedAt_iff (by decide) seenSession).mpr ⟨_,hverdict⟩
  refine hrejected seenSession haccepted rfl rfl ⟨sampleResult,3000*second,false⟩ ?_ rfl ?_
  · exact mem_singleton.mpr rfl
  have hlength : (List.replicate 32 (4 : UInt8)).length=32 := rfl
  refine (validateCSRF_ok_iff hlength seenSession).mpr ⟨by decide,?_⟩
  exact sha256Hex_tokenOf _

end Rotation

end Certctl.CsrfRotation
