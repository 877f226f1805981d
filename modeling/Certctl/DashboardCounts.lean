import Certctl.CursorPagination

/-!
# Counts of the dashboard and of the digest

The services count over one page of a listing. They ask for ten thousand
rows, more than a page may have, and get the default size: the first fifty
rows are counted. Only the total comes from the database.
-/

namespace Certctl.DashboardCounts

open DomainRecords CursorPagination
open List

/-- Lower case, and the time thirty days later. -/
structure Calendar where
  toLower : String→String
  addDate : Time→Time

/-- The rows of a page, for the size that was asked for. -/
def pageSize (perPage : ℕ) : ℕ := if perPage=0 ∨ 500<perPage then 50 else perPage

/-- The first page of a listing of all certificates. -/
def Listed (C : Collation) (rows page : List CertRow) : Prop :=
  ∃ out,Listing C {} rows out ∧ page=out.take (pageSize 10000)

variable (lib : Calendar) (now : Time)

/-- The counters of the summary. -/
inductive SummaryClass where
  | revoked
  | expired
  | expiring
  | other
deriving DecidableEq

/-- The counter of the summary that a certificate goes to. -/
def summaryClass (cert : CertRow) : SummaryClass :=
  if lib.toLower cert.status="revoked" then .revoked
  else if lib.toLower cert.status="expired" ∨ (cert.expiresAt≠zeroTime ∧ cert.expiresAt<now) then .expired
  else if cert.expiresAt≠zeroTime ∧ cert.expiresAt<lib.addDate now ∧ now<cert.expiresAt then .expiring
  else .other

/-- The status that a certificate is counted under. -/
def normalizedStatus (cert : CertRow) : String :=
  match lib.toLower cert.status with
  | "" | "active" =>
    if cert.expiresAt=zeroTime then "Active"
    else if cert.expiresAt<now then "Expired"
    else if cert.expiresAt<lib.addDate now then "Expiring"
    else "Active"
  | "expiring" => "Expiring"
  | "expired" => "Expired"
  | "renewalinprogress" | "renewal_in_progress" => "RenewalInProgress"
  | "failed" => "Failed"
  | "revoked" => "Revoked"
  | "archived" => "Archived"
  | "pending" => "Pending"
  | _ => cert.status

/-- What the digest reports. -/
structure DigestData where
  totalCertificates : ℕ
  summary : SummaryClass→ℕ
  statusCounts : String→ℕ
  expiringCerts : List CertRow

/-- The digest, from the pages of its three listings and the total of the first. -/
def generateDigest (total : ℕ) (summaryPage statusPage digestPage : List CertRow) : DigestData where
  totalCertificates := total
  summary c := summaryPage.countP (summaryClass lib now ·=c)
  statusCounts status := statusPage.countP (normalizedStatus lib now ·=status)
  expiringCerts := digestPage.filter fun cert =>
    cert.expiresAt≠zeroTime ∧ now<cert.expiresAt ∧ cert.expiresAt<lib.addDate now

/-- The numbers are those of all rows, and the list has them in some order. -/
def TrueTotals (rows : List CertRow) (digest : DigestData) : Prop :=
  let whole := generateDigest lib now rows.length rows rows rows
  digest.totalCertificates=whole.totalCertificates ∧ digest.summary=whole.summary ∧
    digest.statusCounts=whole.statusCounts ∧ digest.expiringCerts.Perm whole.expiringCerts

variable {C : Collation} {rows page : List CertRow}

theorem Listed.perm (h : Listed C rows page) (hsmall : rows.length ≤ 50) : page.Perm rows := by
  obtain ⟨out,⟨hperm,-⟩,rfl⟩ := h
  have hall : out.take 50=out := take_of_length_le (hperm.length_eq.trans_le hsmall)
  exact hall.symm ▸ hperm

/-- A page misses the rows after it, and so one of their status. -/
theorem Listed.short (h : Listed C rows page) (hlarge : 50<rows.length) :
    ∃ status,page.countP (normalizedStatus lib now ·=status)<rows.countP (normalizedStatus lib now ·=status) := by
  obtain ⟨out,⟨hperm,-⟩,rfl⟩ := h
  have hbeyond : out.drop 50≠[] := by
    rw [ne_eq,drop_eq_nil_iff,hperm.length_eq]
    omega
  obtain ⟨cert,hcert⟩ := exists_mem_of_ne_nil _ hbeyond
  refine ⟨normalizedStatus lib now cert,?_⟩
  have hmissed : 0<(out.drop 50).countP (normalizedStatus lib now ·=normalizedStatus lib now cert) :=
    countP_pos_iff.mpr ⟨cert,hcert,decide_eq_true rfl⟩
  calc (out.take 50).countP _
    _ < (out.take 50).countP _+(out.drop 50).countP _ := Nat.lt_add_of_pos_right hmissed
    _ = out.countP _ := by rw [← countP_append,take_append_drop]
    _ = rows.countP _ := hperm.countP_eq _

/-- The reported numbers are those of the table exactly when it fits on a page. -/
theorem digest_true_iff {summaryPage statusPage digestPage : List CertRow} (hsummary : Listed C rows summaryPage)
    (hstatus : Listed C rows statusPage) (hdigest : Listed C rows digestPage) :
    TrueTotals lib now rows (generateDigest lib now rows.length summaryPage statusPage digestPage) ↔
      rows.length ≤ 50 := by
  constructor
  · rintro ⟨-,-,hcounts,-⟩
    by_contra hlarge
    obtain ⟨status,hless⟩ := hstatus.short lib now (not_le.mp hlarge)
    exact hless.ne (congrFun hcounts status)
  · intro hsmall
    refine ⟨rfl,funext fun c => ?_,funext fun status => ?_,(hdigest.perm hsmall).filter _⟩
    · exact (hsummary.perm hsmall).countP_eq _
    · exact (hstatus.perm hsmall).countP_eq _

def sampleCalendar : Calendar := ⟨id,(·+30)⟩

/-- Certificates created at one time, which expire one after the other. -/
def sampleRows (n : ℕ) : List CertRow := (range n).map fun i : ℕ => {id := "mc-"++toString i, expiresAt := i}

theorem sample_listed (n : ℕ) : Listed sampleCollation (sampleRows n) ((sampleRows n).take 50) :=
  ⟨_,⟨.refl _,pairwise_map.mpr (pairwise_of_forall fun _ _ => rfl)⟩,rfl⟩

/-- Forty certificates, of which the last ten are not about to expire. -/
theorem digest_true_small : TrueTotals sampleCalendar 0 (sampleRows 40)
    (generateDigest sampleCalendar 0 40 (sampleRows 40) (sampleRows 40) (sampleRows 40)) :=
  (digest_true_iff _ _ (sample_listed 40) (sample_listed 40) (sample_listed 40)).mpr (by decide)

/-- Of fifty-one certificates, fifty are counted. -/
theorem digest_misses_row : ∃ page,Listed sampleCollation (sampleRows 51) page ∧
    ((sampleRows 51).map CertRow.id).Nodup ∧
    ¬TrueTotals sampleCalendar 0 (sampleRows 51) (generateDigest sampleCalendar 0 51 page page page) := by
  refine ⟨_,sample_listed 51,by decide +kernel,fun h => ?_⟩
  exact absurd (congrFun h.2.2.1 "Active") (by decide +kernel)

end Certctl.DashboardCounts
