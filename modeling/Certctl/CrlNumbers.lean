import Certctl.RevocationPublication

/-!
# Numbers of revocation lists

The connector numbers a revocation list by the second in which it signs,
and keeps no record of the numbers it gave. Over any run of the servers
that share an authority the numbers of its lists rise as long as no two of
the lists are signed within one second, and only then.
-/

namespace Certctl.CrlNumbers

open AtomicInterleaving ControlPlaneTables ControlPlaneStore DomainRecords RevocationPublication
open List

/-- A list as it is signed. -/
structure X509RevocationList where
  revokedCertificateEntries : List CRLEntry
  number : ℤ
  thisUpdate : Time
  nextUpdate : Time

def unix (t : Time) : ℤ := t/second

/-- What the connector signs; the clock is read once for the validity and again for the number. -/
def generateCRL (now later : Time) (revokedCerts : List CRLEntry) : X509RevocationList where
  revokedCertificateEntries := revokedCerts
  number := unix later
  thisUpdate := now
  nextUpdate := now+24*3600*second

section Runs

variable {ι α : Type} [DecidableEq ι]

/-- The entries signed for the issuer by the operation, if that is what it did. -/
def signedEntries (issuerID : String) : Event controlPlane ι→Option (List CRLEntry)
  | ⟨_,.generateCRL id entries,.ok _⟩ => if id=issuerID then some entries else none
  | _ => none

/-- When the issuer signed a list along a schedule, and with which entries. -/
def generations (issuerID : String) (cfg : Config controlPlane ι α) : List (ι×Choice)→List (Time×List CRLEntry)
  | [] => []
  | (t,c)::rest =>
    match cfg.next anyStep t c with
    | none => []
    | some cfg' =>
      match cfg'.log.head?.bind (signedEntries issuerID) with
      | none => generations issuerID cfg' rest
      | some entries => (c.now,entries)::generations issuerID cfg' rest

/-- The lists signed for the issuer along a schedule, in their order. -/
def signedLists (issuerID : String) (cfg : Config controlPlane ι α) (schedule : List (ι×Choice)) :
    List X509RevocationList :=
  (generations issuerID cfg schedule).map fun g => generateCRL g.1 g.1 g.2

/-- Later lists have greater numbers, and lists that differ in what they revoke have different ones. -/
def NumbersIncrease (lists : List X509RevocationList) : Prop :=
  lists.Pairwise (fun a b => a.number<b.number) ∧
  lists.Pairwise fun a b => ¬(∀ e,e∈a.revokedCertificateEntries ↔ e∈b.revokedCertificateEntries) → a.number≠b.number

variable {issuerID : String}

theorem generations_times (cfg : Config controlPlane ι α) (schedule : List (ι×Choice)) :
    (generations issuerID cfg schedule).map Prod.fst<+schedule.map (·.2.now) := by
  induction schedule generalizing cfg with
  | nil => exact Sublist.slnil
  | cons step rest ih =>
    rw [generations,map_cons]
    split
    · exact nil_sublist _
    split
    · exact (ih _).cons _
    · exact (ih _).cons_cons _

/-- Along a run whose clock does not go back the numbers of an issuer's lists increase exactly
when no two of them are signed within one second. -/
theorem numbersIncrease_iff {issuerID : String} {cfg : Config controlPlane ι α} {schedule : List (ι×Choice)}
    (hclock : (schedule.map (·.2.now)).Pairwise (· ≤ ·)) :
    NumbersIncrease (signedLists issuerID cfg schedule) ↔
      (generations issuerID cfg schedule).Pairwise fun a b => unix a.1≠unix b.1 := by
  have htimes : (generations issuerID cfg schedule).Pairwise fun a b => unix a.1 ≤ unix b.1 := by
    refine (pairwise_map.mp (hclock.sublist (generations_times cfg schedule))).imp fun hle => ?_
    exact Int.ediv_le_ediv (by decide) hle
  rw [NumbersIncrease,signedLists,pairwise_map,pairwise_map]
  constructor
  · intro h
    exact h.1.imp fun hlt => Int.ne_of_lt hlt
  · intro h
    refine ⟨(htimes.and h).imp fun hboth => Int.lt_iff_le_and_ne.mpr hboth,h.imp ?_⟩
    exact fun hne _ => hne

end Runs

def sampleDb : Db where
  certs := [{id := "mc-1", issuerID := "iss-local", status := .active}]
  issuers := ["iss-local"]

/-- One server revokes a certificate while others sign lists. -/
def samplePool : ℕ→Service Unit
  | 1 => do
    let _ ← withinTx [.createRevocation ⟨"rev-1","mc-1","","","",0,"iss-local",false⟩]
  | _ => do
    let _ ← generateDERCRL {profileRepo := false} "iss-local"

/-- Two lists at the given time, with the revocation between them. -/
def sampleSchedule (now : Time) : List (ℕ×Choice) := [(0,{}),(0,{}),(0,{}),(1,{}),(2,{}),(2,{}),(2,{now := now})]

/-- Two lists signed a second apart. -/
theorem numbersIncrease_iff_apart :
    ((sampleSchedule second).map (·.2.now)).Pairwise (· ≤ ·) ∧
    NumbersIncrease (signedLists "iss-local" (initial samplePool sampleDb) (sampleSchedule second)) :=
  ⟨by decide,(numbersIncrease_iff (by decide)).mpr (by decide)⟩

/-- Two lists that differ carry one number when they are signed within one second. -/
theorem number_repeats :
    ((sampleSchedule 0).map (·.2.now)).Pairwise (· ≤ ·) ∧
    (generations "iss-local" (initial samplePool sampleDb) (sampleSchedule 0)).map (fun g => (g.1,g.2.length))=[(0,0),(0,1)] ∧
    ¬NumbersIncrease (signedLists "iss-local" (initial samplePool sampleDb) (sampleSchedule 0)) := by
  refine ⟨by decide,by decide,fun h => ?_⟩
  exact absurd h.1 (by decide)

end Certctl.CrlNumbers
