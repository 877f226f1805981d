import Certctl.RecordTable
import Certctl.DomainRecords
import Mathlib.Data.Finset.Card

/-!
# Replay of Intune challenges

A signed challenge is accepted while its issue and expiry times, widened by
a clock tolerance, and the operator's cap on its age allow it; its nonce is
remembered for the same cap from the time of first use. The two windows
begin at different times: a challenge that was used early in its window may
still be acceptable when its nonce is forgotten, and a challenge without
nonce is never remembered. The cache itself is an exact memory: its counter
is the number of its entries, and only a full cache forgets before the time.
-/

namespace Certctl.IntuneReplay

open RecordTable DomainRecords
open List hiding lookup

/-- The claims of a challenge that decide on its acceptance. -/
structure ChallengeClaim where
  audience : String := ""
  issuedAt : Option Time
  expiresAt : Option Time
  nonce : String
deriving DecidableEq

/-- The typed errors of a refusal. -/
inductive ChallengeError where
  | malformed
  | signature
  | unknownVersion
  | notYetValid
  | expired
  | wrongAudience
  | claimMismatch
  | replay
  | rateLimited
  | compliance
deriving DecidableEq

/-- The settings of a profile, and the decoding of a challenge. -/
structure SCEPService where
  intuneEnabled : Bool := true
  /-- The holder of the trust anchors is wired. -/
  intuneTrust : Bool := true
  intuneAudience : String := ""
  /-- The cap on the age of a challenge, and the time for which a nonce is remembered. -/
  intuneValidity : Time
  intuneClockSkew : Time := 0
  /-- The nonces that are kept at most. -/
  cap : ℕ
  parseChallenge : String→Except ChallengeError Unit
  unmarshal : String→Except ChallengeError ChallengeClaim

/-- One submission, with what the checks outside the challenge say. -/
structure Submission where
  challengePassword : String
  signatureValid : Bool := true
  csrParses : Bool := true
  deviceMatchesCSR : Bool := true
  rateLimitAllows : Bool := true
  compliant : Bool := true

def looksIntuneShaped (s : String) : Bool := 200<s.utf8ByteSize && s.toList.count '.'=2

/-- Nonces with the time until which they are remembered. -/
structure ReplayCache where
  entries : List (String×Time) := []
  size : ℕ := 0

def ReplayCache.delete (c : ReplayCache) (nonce : String) : ReplayCache :=
  if (lookup Prod.fst nonce c.entries).isSome then ⟨remove Prod.fst nonce c.entries,c.size-1⟩ else c

/-- The entry that is forgotten first. -/
def oldest (entries : List (String×Time)) : Option (String×Time) :=
  entries.foldl (fun best e => match best with
    | none => some e
    | some b => if e.2<b.2 then some e else some b) none

def ReplayCache.evictOldestLocked (c : ReplayCache) : ReplayCache :=
  match oldest c.entries with
  | none => c
  | some e => if e.1="" then c else c.delete e.1

/-- Make room where the cache is full, and store the nonce. -/
def ReplayCache.store (svc : SCEPService) (c : ReplayCache) (nonce : String) (now : Time) : ReplayCache :=
  let room := if svc.cap ≤ c.size then c.evictOldestLocked else c
  ⟨upsert Prod.fst (nonce,now+svc.intuneValidity) room.entries,room.size+1⟩

def ReplayCache.checkAndInsert (svc : SCEPService) (c : ReplayCache) (nonce : String) (now : Time) : Bool×ReplayCache :=
  if nonce="" then (true,c)
  else
    match lookup Prod.fst nonce c.entries with
    | none => (true,c.store svc nonce now)
    | some e => if now<e.2 then (false,c) else (true,(c.delete nonce).store svc nonce now)

/-- Forget the nonces whose time is over. -/
def ReplayCache.sweep (c : ReplayCache) (now : Time) : ReplayCache :=
  ⟨c.entries.filter (now<·.2),c.size-(c.entries.filter (·.2 ≤ now)).length⟩

/-- The tolerance without its sign. -/
def SCEPService.tolerance (svc : SCEPService) : Time :=
  if svc.intuneClockSkew<0 then -svc.intuneClockSkew else svc.intuneClockSkew

/-- The times and the audience of a challenge, checked in this order. -/
def checkClaim (svc : SCEPService) (now : Time) (claim : ChallengeClaim) : Option ChallengeError :=
  if claim.issuedAt.any (now+svc.tolerance<·) then some .notYetValid
  else if claim.expiresAt.any (· ≤ now-svc.tolerance) then some .expired
  else if svc.intuneAudience≠"" ∧ claim.audience≠"" ∧ claim.audience≠svc.intuneAudience then some .wrongAudience
  else none

def validateChallenge (svc : SCEPService) (sub : Submission) (now : Time) : Except ChallengeError ChallengeClaim := do
  svc.parseChallenge sub.challengePassword
  if !sub.signatureValid then .error .signature
  else
    let claim ← svc.unmarshal sub.challengePassword
    match checkClaim svc now claim with
    | some err => .error err
    | none => .ok claim

/-- How a submission ends. -/
inductive Outcome where
  | undecided
  | refused (err : ChallengeError)
  | accepted (claim : ChallengeClaim)
deriving DecidableEq

def Outcome.isAccepted : Outcome→Bool
  | .accepted _ => true
  | _ => false

def dispatchIntuneChallenge (svc : SCEPService) (sub : Submission) (now : Time) (c : ReplayCache) :
    Outcome×ReplayCache :=
  if !svc.intuneEnabled ∨ !looksIntuneShaped sub.challengePassword then (.undecided,c)
  else if !svc.intuneTrust then (.refused .signature,c)
  else
    match validateChallenge svc sub now with
    | .error err => (.refused err,c)
    | .ok claim =>
      if 0<svc.intuneValidity ∧ claim.issuedAt.any (svc.intuneValidity<now-·) then (.refused .expired,c)
      else if !sub.csrParses then (.refused .malformed,c)
      else if !sub.deviceMatchesCSR then (.refused .claimMismatch,c)
      else
        let (fresh,c') := c.checkAndInsert svc claim.nonce now
        if !fresh then (.refused .replay,c')
        else if !sub.rateLimitAllows then (.refused .rateLimited,c')
        else if !sub.compliant then (.refused .compliance,c')
        else (.accepted claim,c')

/-- A submission with its outcome, or a sweep. -/
structure Event where
  now : Time
  challenge : Option String := none
  accepted : Bool := false
deriving DecidableEq

/-- Submissions and sweeps at times that do not decrease, newest first. -/
inductive Run (svc : SCEPService) : List Event→ReplayCache→Prop where
  | start : Run svc [] {}
  | submit {log : List Event} {c : ReplayCache} (sub : Submission) (now : Time) (hlater : ∀ e∈log,e.now ≤ now) :
      Run svc log c →
      Run svc (⟨now,some sub.challengePassword,(dispatchIntuneChallenge svc sub now c).1.isAccepted⟩::log)
        (dispatchIntuneChallenge svc sub now c).2
  | sweep {log : List Event} {c : ReplayCache} (now : Time) (hlater : ∀ e∈log,e.now ≤ now) :
      Run svc log c → Run svc (⟨now,none,false⟩::log) (c.sweep now)

/-- The acceptances of a challenge. -/
def acceptances (raw : String) (log : List Event) : List Event := log.filter fun e => e.challenge=some raw && e.accepted

/-- The nonces of the submitted challenges. -/
def nonces (svc : SCEPService) (log : List Event) : List String :=
  log.filterMap fun e => e.challenge.bind fun raw => (svc.unmarshal raw).toOption.map (·.nonce)

section Runs

variable {svc : SCEPService} {sub : Submission} {now : Time} {c : ReplayCache} {claim : ChallengeClaim}
  {log accepted : List Event} {e : Event} {nonce raw : String} {iat exp : Time}

theorem validateChallenge_ok (h : validateChallenge svc sub now=.ok claim) :
    svc.unmarshal sub.challengePassword=.ok claim ∧ checkClaim svc now claim=none := by
  obtain ⟨-,-,h⟩ := bind_ok.mp h
  split at h
  · cases h
  obtain ⟨read,hread,h⟩ := bind_ok.mp h
  split at h
  · cases h
  rename_i hnone
  cases h
  exact ⟨hread,hnone⟩

/-- A submission leaves the cache alone, or its claims are within their times and its nonce is checked; it is
accepted only in the second case, and with a nonce that is not remembered. -/
theorem dispatch_cases (svc : SCEPService) (sub : Submission) (now : Time) (c : ReplayCache) :
    ((dispatchIntuneChallenge svc sub now c).2=c ∧ (dispatchIntuneChallenge svc sub now c).1.isAccepted=false) ∨
    ∃ claim,svc.unmarshal sub.challengePassword=.ok claim ∧ checkClaim svc now claim=none ∧
      (dispatchIntuneChallenge svc sub now c).2=(c.checkAndInsert svc claim.nonce now).2 ∧
      ((dispatchIntuneChallenge svc sub now c).1.isAccepted=true → (c.checkAndInsert svc claim.nonce now).1=true) := by
  unfold dispatchIntuneChallenge
  split
  · exact .inl ⟨rfl,rfl⟩
  split
  · exact .inl ⟨rfl,rfl⟩
  split
  · exact .inl ⟨rfl,rfl⟩
  rename_i claim hclaim
  obtain ⟨hread,hcheck⟩ := validateChallenge_ok hclaim
  split
  · exact .inl ⟨rfl,rfl⟩
  split
  · exact .inl ⟨rfl,rfl⟩
  split
  · exact .inl ⟨rfl,rfl⟩
  refine .inr ⟨claim,hread,hcheck,?_⟩
  cases hfresh : (c.checkAndInsert svc claim.nonce now).1 with
  | false =>
    dsimp only
    rw [hfresh]
    exact ⟨rfl,nofun⟩
  | true =>
    refine ⟨?_,fun _ => rfl⟩
    dsimp only
    split_ifs <;> rfl

theorem checkAndInsert_cases (svc : SCEPService) (c : ReplayCache) (now : Time) (hnonce : nonce≠"") :
    (∃ u,lookup Prod.fst nonce c.entries=some u ∧ now<u.2 ∧ c.checkAndInsert svc nonce now=(false,c)) ∨
    ((∀ u,lookup Prod.fst nonce c.entries=some u → u.2 ≤ now) ∧
      c.checkAndInsert svc nonce now=(true,(c.delete nonce).store svc nonce now)) := by
  unfold ReplayCache.checkAndInsert
  rw [if_neg hnonce]
  split
  · rename_i hnone
    refine .inr ⟨fun u hu => ?_,?_⟩
    · rw [hnone] at hu
      cases hu
    · rw [ReplayCache.delete,hnone]
      rfl
  rename_i u hu
  split
  · exact .inl ⟨u,hu,by assumption,rfl⟩
  rename_i hover
  refine .inr ⟨fun v hv => ?_,rfl⟩
  rw [hu] at hv
  cases hv
  exact not_lt.mp hover

variable {entries : List (String×Time)}

theorem remove_absent (h : nonce∉entries.map Prod.fst) : remove Prod.fst nonce entries=entries := by
  refine filter_eq_self.mpr fun u hu => ?_
  exact decide_eq_true fun hkey => h (mem_map.mpr ⟨u,hu,hkey⟩)

theorem entries_delete (c : ReplayCache) (nonce : String) : (c.delete nonce).entries=remove Prod.fst nonce c.entries := by
  unfold ReplayCache.delete
  split
  · rfl
  rename_i habsent
  refine (remove_absent fun hmem => habsent ?_).symm
  exact Option.isSome_iff_exists.mpr (lookup_isSome (mem_map.mp hmem))

/-- What holds of the cache between events: no nonce is kept twice, and the counter is no larger than the cache. -/
structure Tidy (svc : SCEPService) (log : List Event) (c : ReplayCache) : Prop where
  keys : (c.entries.map Prod.fst).Nodup
  size : c.size ≤ c.entries.length
  known : ∀ u∈c.entries,u.1∈nonces svc log

theorem nonces_cons (svc : SCEPService) (log : List Event) (e : Event) : nonces svc log ⊆ nonces svc (e::log) :=
  (sublist_cons_self e log).filterMap _ |>.subset

theorem tidy_cons (h : Tidy svc log c) (e : Event) : Tidy svc (e::log) c :=
  ⟨h.keys,h.size,fun u hu => nonces_cons svc log e (h.known u hu)⟩

theorem length_remove (hkeys : (entries.map Prod.fst).Nodup) (nonce : String) :
    entries.length ≤ (remove Prod.fst nonce entries).length+1 := by
  induction entries with
  | nil => exact Nat.zero_le _
  | cons u rest ih =>
    obtain ⟨hnot,hrest⟩ := nodup_cons.mp hkeys
    by_cases hu : u.1=nonce
    · rw [hu] at hnot
      have hself := remove_absent hnot
      rw [remove,filter_cons_of_neg (by simp [hu])]
      exact Nat.succ_le_succ (le_of_eq (congrArg List.length hself).symm)
    · rw [remove,filter_cons_of_pos (by simp [hu])]
      exact Nat.succ_le_succ (ih hrest)

/-- The counter goes down by the number of entries that a deletion removes. -/
theorem delete_counts (hkeys : (c.entries.map Prod.fst).Nodup) (nonce : String) :
    ∃ k,c.entries.length=(c.delete nonce).entries.length+k ∧ (c.delete nonce).size=c.size-k := by
  by_cases hfound : (lookup Prod.fst nonce c.entries).isSome=true
  · refine ⟨1,?_,by rw [ReplayCache.delete,if_pos hfound]⟩
    obtain ⟨e,he⟩ := Option.isSome_iff_exists.mp hfound
    have hless : (remove Prod.fst nonce c.entries).length<c.entries.length :=
      length_filter_lt_length_iff_exists.mpr ⟨e,(lookup_some he).1,by simp [(lookup_some he).2]⟩
    have hmost := length_remove hkeys nonce
    rw [entries_delete]
    omega
  · exact ⟨0,by rw [ReplayCache.delete,if_neg hfound]; exact ⟨rfl,rfl⟩⟩

theorem tidy_delete (h : Tidy svc log c) (nonce : String) : Tidy svc log (c.delete nonce) := by
  have hentries := entries_delete c nonce
  obtain ⟨k,hlength,hcounter⟩ := delete_counts h.keys nonce
  have hsize := h.size
  refine ⟨?_,by omega,?_⟩
  · rw [hentries]
    exact h.keys.sublist (filter_sublist.map _)
  · rw [hentries]
    exact fun u hu => h.known u (mem_filter.mp hu).1

section

variable (h : Tidy svc log c) (hcap : (nonces svc log).toFinset.card<svc.cap)
include h hcap

/-- With fewer nonces than it has room for, the cache evicts nothing. -/
theorem store_eq (hfresh : nonce∉c.entries.map Prod.fst) :
    c.store svc nonce now=⟨c.entries++[(nonce,now+svc.intuneValidity)],c.size+1⟩ := by
  have hsub : (c.entries.map Prod.fst).toFinset ⊆ (nonces svc log).toFinset := by
    intro n hn
    obtain ⟨u,hu,rfl⟩ := mem_map.mp (mem_toFinset.mp hn)
    exact mem_toFinset.mpr (h.known u hu)
  have hcard := Finset.card_le_card hsub
  rw [toFinset_card_of_nodup h.keys,length_map] at hcard
  have hsize := h.size
  unfold ReplayCache.store
  rw [if_neg (by omega)]
  simp only [upsert,remove_absent hfresh]

theorem store_delete : (c.delete nonce).store svc nonce now=
      ⟨remove Prod.fst nonce c.entries++[(nonce,now+svc.intuneValidity)],(c.delete nonce).size+1⟩ := by
  have habsent : nonce∉(c.delete nonce).entries.map Prod.fst := by
    rw [entries_delete]
    intro hmem
    obtain ⟨u,hu,hkey⟩ := mem_map.mp hmem
    exact of_decide_eq_true (mem_filter.mp hu).2 hkey
  rw [store_eq (tidy_delete h nonce) hcap habsent,entries_delete]

theorem tidy_insert (hnonce : nonce∈nonces svc log) : Tidy svc log (c.checkAndInsert svc nonce now).2 := by
  by_cases hempty : nonce=""
  · rw [ReplayCache.checkAndInsert,if_pos hempty]
    exact h
  rcases checkAndInsert_cases svc c now hempty with ⟨u,-,-,hr⟩|⟨-,hr⟩
  · rw [hr]
    exact h
  have hd := tidy_delete h nonce
  have hsize := hd.size
  have hkeys := hd.keys
  have hknown := hd.known
  rw [hr,store_delete h hcap]
  rw [entries_delete] at hsize hkeys hknown
  refine ⟨?_,?_,?_⟩
  · exact keys_append hkeys fun u hu => of_decide_eq_true (mem_filter.mp hu).2
  · rw [length_append]
    exact Nat.succ_le_succ hsize
  · exact forall_mem_append.mpr ⟨hknown,forall_mem_singleton.mpr hnonce⟩

end

theorem length_sweep (c : ReplayCache) (now : Time) :
    c.entries.length=(c.sweep now).entries.length+(c.entries.filter (·.2 ≤ now)).length := by
  rw [length_eq_length_filter_add (fun u => decide (now<u.2))]
  congr 3
  funext u
  rw [← decide_not]
  exact decide_eq_decide.mpr not_lt

theorem tidy_sweep (h : Tidy svc log c) (now : Time) : Tidy svc log (c.sweep now) := by
  refine ⟨h.keys.sublist (filter_sublist.map _),?_,fun u hu => h.known u (mem_filter.mp hu).1⟩
  have hlength := length_sweep c now
  have hcounter : (c.sweep now).size=c.size-(c.entries.filter (·.2 ≤ now)).length := rfl
  have hsize := h.size
  omega

/-- Acceptances are remembered, or their time in the cache is over. -/
def Remembered (svc : SCEPService) (nonce : String) (accepted log : List Event) (c : ReplayCache) : Prop :=
  ∀ a∈accepted,(∃ u,lookup Prod.fst nonce c.entries=some u ∧ a.now+svc.intuneValidity ≤ u.2) ∨
    ∃ later∈log,a.now+svc.intuneValidity ≤ later.now

theorem remembered_insert (htidy : Tidy svc log c) (hcap : (nonces svc log).toFinset.card<svc.cap)
    (h : Remembered svc nonce accepted log c) (checked : String) (he : e∈log) (hnow : e.now=now) :
    Remembered svc nonce accepted log (c.checkAndInsert svc checked now).2 := by
  by_cases hempty : checked=""
  · rw [ReplayCache.checkAndInsert,if_pos hempty]
    exact h
  rcases checkAndInsert_cases svc c now hempty with ⟨u,-,-,hr⟩|⟨hover,hr⟩
  · rw [hr]
    exact h
  rw [hr,store_delete htidy hcap]
  intro a ha
  rcases h a ha with ⟨u,hu,huntil⟩|hlater
  · by_cases hsame : checked=nonce
    · rw [← hsame] at hu
      exact .inr ⟨e,he,by rw [hnow]; exact huntil.trans (hover u hu)⟩
    · refine .inl ⟨u,?_,huntil⟩
      exact (lookup_upsert Prod.fst nonce (checked,now+svc.intuneValidity) c.entries).trans ((if_neg hsame).trans hu)
  · exact .inr hlater

theorem remembered_sweep (htidy : Tidy svc log c) (h : Remembered svc nonce accepted log c) (he : e∈log)
    (hnow : e.now=now) : Remembered svc nonce accepted log (c.sweep now) := by
  intro a ha
  rcases h a ha with ⟨u,hu,huntil⟩|hlater
  · by_cases hover : now<u.2
    · refine .inl ⟨u,?_,huntil⟩
      rw [ReplayCache.sweep,lookup_filter htidy.keys,hu]
      exact if_pos (decide_eq_true hover)
    · exact .inr ⟨e,he,by rw [hnow]; exact huntil.trans (not_lt.mp hover)⟩
  · exact .inr hlater

theorem checkClaim_times (hiat : claim.issuedAt=some iat) (hexp : claim.expiresAt=some exp)
    (h : checkClaim svc now claim=none) : iat ≤ now+svc.tolerance ∧ now-svc.tolerance<exp := by
  unfold checkClaim at h
  rw [hiat,hexp] at h
  split_ifs at h with hearly hlate
  exact ⟨not_lt.mp fun hlt => hearly (decide_eq_true hlt),not_le.mp fun hle => hlate (decide_eq_true hle)⟩

/-- What holds along a run: a challenge was accepted once at most, not before its time, and is remembered. -/
structure Once (svc : SCEPService) (raw nonce : String) (iat : Time) (log : List Event) (c : ReplayCache) : Prop where
  tidy : Tidy svc log c
  remembered : Remembered svc nonce (acceptances raw log) log c
  early : ∀ a∈acceptances raw log,iat ≤ a.now+svc.tolerance
  once : (acceptances raw log).length ≤ 1

theorem remembered_mono (h : Remembered svc nonce accepted log c) (e : Event) :
    Remembered svc nonce accepted (e::log) c :=
  fun a ha => (h a ha).imp_right fun ⟨later,hlater,hover⟩ => ⟨later,mem_cons_of_mem e hlater,hover⟩

theorem acceptances_skip (h : ¬(e.challenge=some raw ∧ e.accepted=true)) :
    acceptances raw (e::log)=acceptances raw log := by
  refine filter_cons_of_neg fun hacc => h ?_
  rwa [Bool.and_eq_true,decide_eq_true_eq] at hacc

/-- An event that is no acceptance of the challenge keeps what holds. -/
theorem once_skip {c' : ReplayCache} (h : Once svc raw nonce iat log c) (hskip : ¬(e.challenge=some raw ∧ e.accepted=true))
    (htidy : Tidy svc (e::log) c') (hremembered : Remembered svc nonce (acceptances raw log) (e::log) c') :
    Once svc raw nonce iat (e::log) c' := by
  obtain ⟨-,-,hearly,honce⟩ := h
  rw [← acceptances_skip hskip] at hremembered hearly honce
  exact ⟨htidy,hremembered,hearly,honce⟩

/-- The second acceptance of a challenge comes before its nonce is forgotten. -/
theorem not_accepted_again (h : Once svc raw claim.nonce iat log c) (hlater : ∀ e∈log,e.now ≤ now)
    (hwindow : exp+2*svc.tolerance ≤ iat+svc.intuneValidity) (hlate : now-svc.tolerance<exp)
    (hover : ∀ u,lookup Prod.fst claim.nonce c.entries=some u → u.2 ≤ now) : acceptances raw log=[] := by
  refine eq_nil_iff_forall_not_mem.mpr fun a ha => ?_
  have hearly := h.early a ha
  have hpassed : a.now+svc.intuneValidity ≤ now := by
    rcases h.remembered a ha with ⟨u,hu,huntil⟩|⟨later,hlog,huntil⟩
    · exact huntil.trans (hover u hu)
    · exact huntil.trans (hlater later hlog)
  have hsum : iat+svc.intuneValidity<exp+2*svc.tolerance := by
    unfold Time at *
    omega
  exact absurd hwindow (not_le.mpr hsum)

theorem once_submit (hclaim : svc.unmarshal raw=.ok claim) (hnonce : claim.nonce≠"") (hiat : claim.issuedAt=some iat)
    (hexp : claim.expiresAt=some exp) (hwindow : exp+2*svc.tolerance ≤ iat+svc.intuneValidity)
    (h : Once svc raw claim.nonce iat log c) (hlater : ∀ e∈log,e.now ≤ now) (hnow : e.now=now)
    (hchallenge : e.challenge=some sub.challengePassword)
    (haccepted : e.accepted=(dispatchIntuneChallenge svc sub now c).1.isAccepted)
    (hcap : (nonces svc (e::log)).toFinset.card<svc.cap) :
    Once svc raw claim.nonce iat (e::log) (dispatchIntuneChallenge svc sub now c).2 := by
  have htidy := tidy_cons h.tidy e
  have hkept := remembered_mono h.remembered e
  rcases dispatch_cases svc sub now c with ⟨hsame,hnot⟩|⟨claim',hclaim',hcheck,hcache,hfresh⟩
  · rw [hsame]
    refine once_skip h (fun hraw => ?_) htidy hkept
    rw [haccepted,hnot] at hraw
    cases hraw.2
  have hknown : claim'.nonce∈nonces svc (e::log) :=
    mem_filterMap.mpr ⟨e,mem_cons_self,by simp only [hchallenge,Option.bind_some,hclaim']; rfl⟩
  have htidy' : Tidy svc (e::log) (c.checkAndInsert svc claim'.nonce now).2 := tidy_insert htidy hcap hknown
  have hkept' := remembered_insert htidy hcap hkept claim'.nonce mem_cons_self hnow
  rw [hcache]
  by_cases hraw : e.challenge=some raw ∧ e.accepted=true
  · -- the challenge itself is accepted: it was not before, and is remembered from now on
    have hsame : sub.challengePassword=raw := Option.some.inj (hchallenge.symm.trans hraw.1)
    rw [hsame,hclaim] at hclaim'
    cases hclaim'
    obtain ⟨hearly,hlate⟩ := checkClaim_times hiat hexp hcheck
    have hacc : acceptances raw (e::log)=e::acceptances raw log :=
      filter_cons_of_pos (by simp only [hraw.1,hraw.2,decide_true,Bool.and_self])
    have hin := hfresh (haccepted.symm.trans hraw.2)
    rcases checkAndInsert_cases svc c now hnonce with ⟨u,-,-,hr⟩|⟨hover,hr⟩
    · rw [hr] at hin
      cases hin
    rw [not_accepted_again h hlater hwindow hlate hover] at hacc
    refine ⟨htidy',?_,?_,?_⟩
    all_goals rw [hacc]
    · refine forall_mem_singleton.mpr ?_
      rw [hr,store_delete htidy hcap,hnow]
      refine .inl ⟨(claim.nonce,now+svc.intuneValidity),?_,le_rfl⟩
      exact (lookup_upsert Prod.fst claim.nonce (claim.nonce,now+svc.intuneValidity) c.entries).trans (if_pos rfl)
    · exact forall_mem_singleton.mpr (hnow.symm ▸ hearly)
    · exact le_rfl
  · exact once_skip h hraw htidy' hkept'

/-- A challenge with a nonce and both times, whose times with twice the tolerance are no further apart than the cap,
is accepted at most once. -/
theorem challenge_accepted_once (hclaim : svc.unmarshal raw=.ok claim) (hnonce : claim.nonce≠"")
    (hiat : claim.issuedAt=some iat) (hexp : claim.expiresAt=some exp)
    (hwindow : exp+2*svc.tolerance ≤ iat+svc.intuneValidity) (hrun : Run svc log c)
    (hcap : (nonces svc log).toFinset.card<svc.cap) : (acceptances raw log).length ≤ 1 := by
  suffices h : Once svc raw claim.nonce iat log c from h.once
  have hfewer : ∀ {e : Event} {log : List Event},(nonces svc (e::log)).toFinset.card<svc.cap →
      (nonces svc log).toFinset.card<svc.cap := by
    intro e log h
    refine lt_of_le_of_lt (Finset.card_le_card fun n hn => ?_) h
    exact mem_toFinset.mpr (nonces_cons svc log e (mem_toFinset.mp hn))
  induction hrun with
  | start => exact ⟨⟨nodup_nil,le_rfl,forall_mem_nil _⟩,forall_mem_nil _,
      forall_mem_nil _,Nat.zero_le 1⟩
  | submit sub now hlater hrun ih =>
    exact once_submit hclaim hnonce hiat hexp hwindow (ih (hfewer hcap)) hlater rfl rfl rfl hcap
  | sweep now hlater hrun ih =>
    have h := ih (hfewer hcap)
    have htidy := tidy_cons h.tidy ⟨now,none,false⟩
    exact once_skip h (fun hraw => nomatch hraw.1) (tidy_sweep htidy now)
      (remembered_sweep htidy (remembered_mono h.remembered _) mem_cons_self rfl)

end Runs

def sampleText : String := String.ofList (List.replicate 199 'x'++['.','.'])

/-- A cap of an hour, a tolerance of a minute, and challenges with the given expiry and nonce. -/
def sampleService (exp : Time) (nonce : String) : SCEPService where
  intuneValidity := 3600*second
  intuneClockSkew := 60*second
  cap := 100000
  parseChallenge := fun _ => .ok ()
  unmarshal := fun _ => .ok ⟨"",some (1000*second),some exp,nonce⟩

/-- The challenge is submitted again ten seconds after it was accepted. -/
theorem challenge_accepted_once_sample : ∃ log c,Run (sampleService (4000*second) "n-1") log c ∧
    log.map Event.challenge=[some sampleText,some sampleText] ∧ log.map Event.accepted=[false,true] ∧
    (acceptances sampleText log).length ≤ 1 := by
  have hclaim : (sampleService (4000*second) "n-1").unmarshal sampleText=
      .ok ⟨"",some (1000*second),some (4000*second),"n-1"⟩ := rfl
  have hrun : Run (sampleService (4000*second) "n-1") _ _ :=
    .submit {challengePassword := sampleText} (1010*second) (forall_mem_singleton.mpr (by decide))
      (.submit {challengePassword := sampleText} (1000*second) (forall_mem_nil _) .start)
  refine ⟨_,_,hrun,rfl,by decide +kernel,?_⟩
  exact challenge_accepted_once hclaim (by decide) rfl rfl (by decide) hrun (by decide +kernel)

/-- Half a minute before its issue time a challenge is accepted, and again an hour later; one without nonce is
accepted twice within a second. -/
theorem challenge_accepted_twice :
    (∃ log c,Run (sampleService (8200*second) "n-1") log c ∧
      (nonces (sampleService (8200*second) "n-1") log).toFinset.card<100000 ∧ (acceptances sampleText log).length=2) ∧
    ∃ log c,Run (sampleService (8200*second) "") log c ∧
      (nonces (sampleService (8200*second) "") log).toFinset.card<100000 ∧ (acceptances sampleText log).length=2 := by
  refine ⟨⟨_,_,.submit {challengePassword := sampleText} (4570*second) ?_
    (.submit {challengePassword := sampleText} (970*second) ?_ .start),?_,?_⟩,
    ⟨_,_,.submit {challengePassword := sampleText} (1001*second) ?_
    (.submit {challengePassword := sampleText} (1000*second) ?_ .start),?_,?_⟩⟩
  all_goals decide +kernel

section Memory

/-- An admission, with the nonces that it evicts. -/
structure Admission where
  nonce : String
  now : Time
  evicted : List String

/-- The other nonces that are stored before a call and not after it. -/
def evicted (nonce : String) (c c' : ReplayCache) : List String :=
  (c.entries.map Prod.fst).filter fun n => n≠nonce ∧ n∉c'.entries.map Prod.fst

/-- Calls one after the other, with the admissions and the time of the last. The map lists its entries in any order. -/
inductive Calls (svc : SCEPService) : List Admission→ReplayCache→Time→Prop where
  | start (now : Time) : Calls svc [] {} now
  | later {log : List Admission} {c : ReplayCache} {now now' : Time} : Calls svc log c now → now ≤ now' →
      Calls svc log c now'
  | reorder {log : List Admission} {c : ReplayCache} {now : Time} {entries : List (String×Time)} :
      Calls svc log c now → entries.Perm c.entries → Calls svc log ⟨entries,c.size⟩ now
  | check {log : List Admission} {c c' : ReplayCache} {now : Time} {nonce : String} {admitted : Bool} :
      Calls svc log c now → nonce≠"" → c.checkAndInsert svc nonce now=(admitted,c') →
      Calls svc (if admitted then ⟨nonce,now,evicted nonce c c'⟩::log else log) c' now
  | sweep {log : List Admission} {c : ReplayCache} {now : Time} : Calls svc log c now → Calls svc log (c.sweep now) now

/-- The nonce was admitted at this time and has not been evicted since. -/
def Unevicted (nonce : String) (u : Time) : List Admission→Prop
  | [] => False
  | a::log => a.nonce=nonce ∧ a.now=u ∨ nonce∉a.evicted ∧ Unevicted nonce u log

variable {svc : SCEPService} {c : ReplayCache} {now : Time} {nonce : String} {log : List Admission}

/-- No nonce is kept twice or is empty, and the counter is exact and within the capacity. -/
structure Sized (svc : SCEPService) (c : ReplayCache) : Prop where
  keys : (c.entries.map Prod.fst).Nodup
  named : ∀ e∈c.entries,e.1≠""
  size : c.size=c.entries.length
  small : c.size ≤ svc.cap

theorem sized_delete (h : Sized svc c) (nonce : String) : Sized svc (c.delete nonce) := by
  have hsub : (c.delete nonce).entries.Sublist c.entries := entries_delete c nonce ▸ filter_sublist
  obtain ⟨k,hlength,hcounter⟩ := delete_counts h.keys nonce
  have hsize := h.size
  have hsmall := h.small
  exact ⟨h.keys.sublist (hsub.map _),fun e he => h.named e (hsub.subset he),by omega,by omega⟩

theorem oldest_min {entries : List (String×Time)} (hne : entries≠[]) :
    ∃ e,oldest entries=some e ∧ e∈entries ∧ ∀ u∈entries,e.2 ≤ u.2 := by
  induction entries using List.reverseRecOn with
  | nil => exact absurd rfl hne
  | append_singleton rest u ih =>
    by_cases hrest : rest=[]
    · subst hrest
      exact ⟨u,rfl,by simp,by simp⟩
    obtain ⟨e,holdest,hmem,hmin⟩ := ih hrest
    rw [oldest] at holdest ⊢
    rw [foldl_append,holdest,foldl_cons]
    dsimp only
    split_ifs with hlt
    · exact ⟨u,rfl,by simp,by grind⟩
    · exact ⟨e,rfl,by grind,by grind⟩

/-- Room is made by dropping one of the oldest entries of a full cache. -/
theorem room_spec (hcap : 0<svc.cap) (h : Sized svc c) :
    ∃ room : ReplayCache,(if svc.cap ≤ c.size then c.evictOldestLocked else c)=room ∧ Sized svc room ∧ room.size<svc.cap ∧
      (room=c ∨ c.size=svc.cap ∧ ∃ e∈c.entries,(∀ u∈c.entries,e.2 ≤ u.2) ∧ room.entries=remove Prod.fst e.1 c.entries) := by
  have hsize := h.size
  have hsmall := h.small
  refine ⟨_,rfl,?_⟩
  split_ifs with hfull
  · have hne : c.entries≠[] := fun hnil => by simp [hnil] at hsize; omega
    obtain ⟨e,holdest,hmem,hmin⟩ := oldest_min hne
    have hroom : c.evictOldestLocked=c.delete e.1 := by
      rw [ReplayCache.evictOldestLocked,holdest]
      exact if_neg (h.named e hmem)
    have hfound := lookup_of_mem h.keys hmem
    rw [hroom]
    refine ⟨sized_delete h e.1,?_,.inr ⟨by omega,e,hmem,hmin,entries_delete c e.1⟩⟩
    rw [ReplayCache.delete,hfound]
    simp only [Option.isSome_some,if_true]
    omega
  · exact ⟨h,by omega,.inl rfl⟩

/-- What holds between calls. -/
structure Exact (svc : SCEPService) (log : List Admission) (c : ReplayCache) (now : Time) : Prop where
  sized : Sized svc c
  sound : ∀ n x,(n,x)∈c.entries → ∃ u,Unevicted n u log ∧ x=u+svc.intuneValidity
  kept : ∀ n u,Unevicted n u log → (n,u+svc.intuneValidity)∈c.entries ∨ u+svc.intuneValidity ≤ now

theorem refuses_iff (h : Exact svc log c now) (hnonce : nonce≠"") :
    (c.checkAndInsert svc nonce now).1=false ↔ ∃ u,Unevicted nonce u log ∧ now<u+svc.intuneValidity := by
  rcases checkAndInsert_cases svc c now hnonce with ⟨e,he,hlt,hr⟩|⟨hover,hr⟩
  · obtain ⟨hmem,rfl⟩ := lookup_some he
    obtain ⟨u,hu,hx⟩ := h.sound e.1 e.2 hmem
    simpa [hr] using ⟨u,hu,hx ▸ hlt⟩
  simp only [hr,Bool.true_eq_false,false_iff,not_exists,not_and,not_lt]
  intro u hu
  rcases h.kept nonce u hu with hmem|hpast
  · exact hover _ (lookup_of_mem h.sized.keys hmem)
  · exact hpast

/-- At most one nonce is evicted, from a full cache, and it is one with the smallest expiry. -/
def EvictsOldest (svc : SCEPService) (c : ReplayCache) (dropped : List String) : Prop :=
  ∀ n∈dropped,c.entries.length=svc.cap ∧ (∀ m∈dropped,m=n) ∧ ∃ x,(n,x)∈c.entries ∧ ∀ e∈c.entries,x ≤ e.2

theorem exact_stored (hcap : 0<svc.cap) (h : Exact svc log c now) (hnonce : nonce≠"")
    (hover : ∀ e,lookup Prod.fst nonce c.entries=some e → e.2 ≤ now) {c' : ReplayCache}
    (hc' : (c.delete nonce).store svc nonce now=c') :
    Exact svc (⟨nonce,now,evicted nonce c c'⟩::log) c' now ∧ EvictsOldest svc c (evicted nonce c c') := by
  have hsized := sized_delete h.sized nonce
  have hdelete := entries_delete c nonce
  obtain ⟨room,hroom,hfits,hless,hdropped⟩ := room_spec hcap hsized
  have hsub : ∀ e∈room.entries,e∈c.entries ∧ e.1≠nonce := by
    rcases hdropped with rfl|⟨-,e,-,-,hrest⟩
    · simp [hdelete,remove]
    · simp +contextual [hrest,hdelete,remove]
  have hnew : nonce∉room.entries.map Prod.fst := by grind
  have hentries : c'.entries=room.entries++[(nonce,now+svc.intuneValidity)] := by
    rw [← hc',ReplayCache.store,hroom,upsert,remove_absent hnew]
  have hsize : c'.size=room.size+1 := by rw [← hc',ReplayCache.store,hroom]
  refine ⟨⟨⟨?_,?_,?_,?_⟩,?_,?_⟩,?_⟩
  · rw [hentries]
    exact keys_append hfits.keys fun e he => (hsub e he).2
  · have hnamed := hfits.named
    grind
  · rw [hsize,hentries,length_append,hfits.size,length_singleton]
  · omega
  · intro n x hx
    rw [hentries,mem_append_row] at hx
    rcases hx with hold|hx
    · obtain ⟨u,hu,hexpiry⟩ := h.sound n x (hsub _ hold).1
      refine ⟨u,.inr ⟨?_,hu⟩,hexpiry⟩
      grind [evicted]
    · obtain ⟨rfl,rfl⟩ := Prod.mk.inj hx
      exact ⟨now,.inl ⟨rfl,rfl⟩,rfl⟩
  · rintro n u (⟨rfl,rfl⟩|⟨hstays,hu⟩)
    · simp [hentries]
    rcases h.kept n u hu with hmem|hpast
    · by_cases hn : n=nonce
      · subst hn
        exact .inr (hover _ (lookup_of_mem h.sized.keys hmem))
      obtain ⟨e,he,rfl⟩ : ∃ e∈c'.entries,e.1=n := by grind [evicted]
      have hold : e∈c.entries := by grind
      rw [← inj_on_of_nodup_map h.sized.keys hold hmem rfl]
      exact .inl he
    · exact .inr hpast
  intro n hn
  rcases hdropped with rfl|⟨hfull,e,he,hmin,hrest⟩
  · grind [evicted,remove]
  have hall : (c.delete nonce).entries=c.entries := by
    have hlength := h.sized.small
    rw [h.sized.size] at hlength
    have hsublist : (c.delete nonce).entries.Sublist c.entries := hdelete ▸ filter_sublist
    exact hsublist.eq_of_length_le (by rw [← hsized.size,hfull]; exact hlength)
  have hone : ∀ m∈evicted nonce c c',m=e.1 := by grind [evicted,remove]
  rw [hall] at he hmin
  refine ⟨by rw [← hall,← hsized.size,hfull],fun m hm => (hone m hm).trans (hone n hn).symm,e.2,?_,hmin⟩
  rw [hone n hn]
  exact he

theorem exact_calls (hcap : 0<svc.cap) (h : Calls svc log c now) : Exact svc log c now := by
  induction h with
  | start now => exact ⟨⟨nodup_nil,forall_mem_nil _,rfl,Nat.zero_le _⟩,nofun,nofun⟩
  | later _ hle ih => exact ⟨ih.sized,ih.sound,fun n u hu => (ih.kept n u hu).imp_right hle.trans'⟩
  | reorder _ hperm ih =>
    obtain ⟨⟨hkeys,hnamed,hsize,hsmall⟩,hsound,hkept⟩ := ih
    refine ⟨⟨(hperm.map _).nodup_iff.mpr hkeys,?_,hsize.trans hperm.length_eq.symm,hsmall⟩,?_,?_⟩
    all_goals simpa only [hperm.mem_iff]
  | check _ hnonce hcall ih =>
    rcases checkAndInsert_cases svc _ _ hnonce with ⟨e,-,-,hr⟩|⟨hover,hr⟩
    · cases hcall.symm.trans hr
      exact ih
    · cases hcall.symm.trans hr
      exact (exact_stored hcap ih hnonce hover rfl).1
  | @sweep log c now _ ih =>
    have hsub : (c.sweep now).entries.Sublist c.entries := filter_sublist
    have hlength := length_sweep c now
    have hsize : (c.sweep now).size=c.size-(c.entries.filter (·.2 ≤ now)).length := rfl
    have hcounter := ih.sized.size
    have hsmall := ih.sized.small
    refine ⟨⟨ih.sized.keys.sublist (hsub.map _),fun e he => ih.sized.named e (hsub.subset he),?_,?_⟩,
      fun n x hx => ih.sound n x (hsub.subset hx),fun n u hu => ?_⟩
    · omega
    · omega
    rcases ih.kept n u hu with hmem|hpast
    · by_cases hlt : now<u+svc.intuneValidity
      · exact .inl (mem_filter.mpr ⟨hmem,decide_eq_true hlt⟩)
      · exact .inr (not_lt.mp hlt)
    · exact .inr hpast

/-- The counter is exact and bounded, a nonce is refused while an admission that was not evicted lasts, and only a
full cache evicts, the nonce with the smallest expiry. -/
theorem cache_exact (svc : SCEPService) (hcap : 0<svc.cap) (log : List Admission) (c : ReplayCache) (now : Time)
    (h : Calls svc log c now) : c.size=c.entries.length ∧ c.size ≤ svc.cap ∧ ∀ nonce≠"",
      ((c.checkAndInsert svc nonce now).1=false ↔ ∃ u,Unevicted nonce u log ∧ now<u+svc.intuneValidity) ∧
      EvictsOldest svc c (evicted nonce c (c.checkAndInsert svc nonce now).2) := by
  have hexact := exact_calls hcap h
  refine ⟨hexact.sized.size,hexact.sized.small,fun nonce hnonce => ⟨refuses_iff hexact hnonce,?_⟩⟩
  rcases checkAndInsert_cases svc c now hnonce with ⟨e,-,-,hr⟩|⟨hover,hr⟩
  · grind [EvictsOldest,evicted]
  · rw [hr]
    exact (exact_stored hcap hexact hnonce hover rfl).2

/-- A nonce is refused a moment after its first use. -/
theorem cache_exact_sample : ((ReplayCache.checkAndInsert (sampleService 0 "") {} "a" 5).2.checkAndInsert
    (sampleService 0 "") "a" 6).1=false := by
  have hrun : Calls (sampleService 0 "") _ _ 6 := .later (.check (.start 5) (by decide : "a"≠"") rfl) (by decide)
  exact ((cache_exact _ (by decide) _ _ _ hrun).2.2 "a" (by decide)).1.mpr ⟨5,.inl ⟨rfl,rfl⟩,by decide⟩

end Memory

end Certctl.IntuneReplay
