import Mathlib.Data.List.Sort
import Mathlib.Data.String.Basic

/-!
# Binding a request to the device of an Intune challenge

A challenge may pin the common name and the alternative names of the
request it is used with. Pinned and requested names are trimmed and
lower-cased, repeated ones are dropped, and the sorted lists are compared:
an equality of sets. The names of user principals are never read from a
request, so a challenge that pins one refuses the very request it was
issued for.
-/

namespace Certctl.DeviceBinding

open List

/-- What the challenge pins. -/
structure ChallengeClaim where
  deviceName : String := ""
  sanDNS : List String := []
  sanRFC822 : List String := []
  sanUPN : List String := []

/-- The names in a request. -/
structure CertificateRequest where
  commonName : String := ""
  dnsNames : List String := []
  emailAddresses : List String := []
  /-- The user principals among the encoded alternative names. -/
  userPrincipalNames : List String := []

/-- The typed errors, with the names on either side. -/
inductive ClaimError where
  | nilClaim
  | nilCSR
  | cnMismatch (claim csr : String)
  | sanDNSMismatch (claim csr : List String)
  | sanRFC822Mismatch (claim csr : List String)
  | sanUPNMismatch (claim csr : List String)
deriving DecidableEq

/-- The functions of the strings package. -/
structure Strings where
  toLower : String→String
  trimSpace : String→String

variable (lib : Strings)

/-- Keep a name that is not blank and was not seen before. -/
def collect (out : List String) (v : String) : List String :=
  let v := lib.toLower (lib.trimSpace v)
  if v="" then out else if v∈out then out else out++[v]

def normaliseSet (s : List String) : List String := (s.foldl (collect lib) []).insertionSort (· ≤ ·)

def equalSets (a b : List String) : Bool := a.length=b.length && (a.zip b).all fun p => p.1=p.2

/-- One dimension of alternative names, which a claim without such names leaves open. -/
def checkSet (pinned names : List String) (mismatch : List String→List String→ClaimError) : Except ClaimError Unit :=
  if 0<pinned.length ∧ !equalSets (normaliseSet lib names) (normaliseSet lib pinned) then
    .error (mismatch (normaliseSet lib pinned) (normaliseSet lib names))
  else .ok ()

/-- The extension that carries user principals is not decoded. -/
def extractUPNSans (_ : CertificateRequest) : List String := []

def deviceMatchesCSR : Option ChallengeClaim→Option CertificateRequest→Except ClaimError Unit
  | none,_ => .error .nilClaim
  | some _,none => .error .nilCSR
  | some c,some csr =>
    if c.deviceName≠"" ∧ c.deviceName≠csr.commonName then .error (.cnMismatch c.deviceName csr.commonName)
    else do
      checkSet lib c.sanDNS csr.dnsNames .sanDNSMismatch
      checkSet lib c.sanRFC822 csr.emailAddresses .sanRFC822Mismatch
      checkSet lib c.sanUPN (extractUPNSans csr) .sanUPNMismatch

/-- The name that is compared. -/
def Strings.normal (v : String) : String := lib.toLower (lib.trimSpace v)

/-- The set of names a list stands for. -/
def names (s : List String) : Set String := {v | v≠"" ∧ v∈s.map lib.normal}

variable {lib} {s s' out : List String} {v : String}

theorem mem_collected : v∈s.foldl (collect lib) out ↔ v∈out ∨ v∈names lib s := by
  induction s generalizing out with
  | nil => simp [names]
  | cons w rest ih =>
    have hcollect : v∈collect lib out w ↔ v∈out ∨ (v≠"" ∧ v=lib.normal w) := by
      simp only [collect,Strings.normal]
      split_ifs <;> grind
    rw [foldl_cons,ih,hcollect,or_assoc]
    simp [names,and_or_left]

theorem nodup_collected (hout : out.Nodup) : (s.foldl (collect lib) out).Nodup := by
  induction s generalizing out with
  | nil => exact hout
  | cons w rest ih =>
    refine ih ?_
    simp only [collect]
    split_ifs <;> grind [nodup_append]

/-- Sorted without repetition, the lists are equal when the sets are. -/
theorem normaliseSet_eq_iff : normaliseSet lib s=normaliseSet lib s' ↔ names lib s=names lib s' := by
  have hmem : ∀ s v,v∈normaliseSet lib s ↔ v∈names lib s := by simp [normaliseSet,mem_collected]
  have hnodup : ∀ s,(normaliseSet lib s).Nodup := fun s =>
    (perm_insertionSort _ _).nodup_iff.mpr (nodup_collected nodup_nil)
  constructor
  · intro h
    ext v
    rw [← hmem,h,hmem]
  · intro h
    have hperm : (normaliseSet lib s).Perm (normaliseSet lib s') := by
      rw [perm_ext_iff_of_nodup (hnodup s) (hnodup s')]
      simp [hmem,h]
    exact hperm.eq_of_pairwise (fun a b _ _ => le_antisymm) (pairwise_insertionSort _ _) (pairwise_insertionSort _ _)

theorem equalSets_iff {a b : List String} : equalSets a b=true ↔ a=b := by
  induction a generalizing b with
  | nil => cases b <;> simp [equalSets]
  | cons x rest ih =>
    cases b with
    | nil => simp [equalSets]
    | cons => simp_all [equalSets,← ih,and_left_comm]

theorem checkSet_ok {pinned : List String} {mismatch : List String→List String→ClaimError} :
    checkSet lib pinned s mismatch=.ok () ↔ (pinned≠[] → names lib s=names lib pinned) := by
  rw [checkSet,← normaliseSet_eq_iff,← equalSets_iff]
  split_ifs <;> simp_all [length_pos_iff]

variable (lib) (c : ChallengeClaim) (csr : CertificateRequest)

/-- A request names what is pinned. -/
def Agrees (pinned requested : List String) : Prop := pinned≠[] → names lib requested=names lib pinned

/-- The common name and the dimensions that are read from the request. -/
def BoundElsewhere : Prop := (c.deviceName≠"" → csr.commonName=c.deviceName) ∧
  Agrees lib c.sanDNS csr.dnsNames ∧ Agrees lib c.sanRFC822 csr.emailAddresses

/-- The binding the challenge asks for. -/
def Bound : Prop := BoundElsewhere lib c csr ∧ Agrees lib c.sanUPN csr.userPrincipalNames

theorem accepts_iff : deviceMatchesCSR lib (some c) (some csr)=.ok () ↔
    BoundElsewhere lib c csr ∧ (c.sanUPN≠[] → names lib c.sanUPN=∅) := by
  have hempty : names lib (extractUPNSans csr)=∅ := by simp [names,extractUPNSans]
  have hbind : ∀ a b : Except ClaimError Unit,(do a; b)=.ok () ↔ a=.ok () ∧ b=.ok () := by
    rintro (err|u) b
    · exact ⟨nofun,fun h => nomatch h.1⟩
    · exact ⟨fun h => ⟨rfl,h⟩,fun h => h.2⟩
  rw [deviceMatchesCSR,BoundElsewhere]
  split_ifs with hcn
  · exact ⟨nofun,fun h => absurd (h.1.1 hcn.1).symm hcn.2⟩
  rw [hbind,hbind,checkSet_ok,checkSet_ok,checkSet_ok]
  grind [Agrees]

/-- The entries of the second list are those of the first, reordered, repeated and re-cased. -/
def Respelt (s s' : List String) : Prop := ∀ v,v∈s'.map lib.normal ↔ v∈s.map lib.normal

/-- The same names up to spelling. -/
structure RespeltPair (c' : ChallengeClaim) (csr' : CertificateRequest) : Prop where
  common : c'.deviceName=c.deviceName ∧ csr'.commonName=csr.commonName
  dns : Respelt lib c.sanDNS c'.sanDNS ∧ Respelt lib csr.dnsNames csr'.dnsNames
  email : Respelt lib c.sanRFC822 c'.sanRFC822 ∧ Respelt lib csr.emailAddresses csr'.emailAddresses
  upn : Respelt lib c.sanUPN c'.sanUPN ∧ Respelt lib csr.userPrincipalNames csr'.userPrincipalNames

/-- The request is accepted when it is bound to the claim, so never with an extra name in a pinned dimension,
and however the entries of both are spelt. -/
def BindingExact : Prop :=
  (deviceMatchesCSR lib (some c) (some csr)=.ok () ↔ Bound lib c csr) ∧
  ∀ c' csr',RespeltPair lib c csr c' csr' →
    (deviceMatchesCSR lib (some c') (some csr')=.ok () ↔ deviceMatchesCSR lib (some c) (some csr)=.ok ())

theorem respelt_names (h : Respelt lib s s') : names lib s'=names lib s ∧ (s'=[] ↔ s=[]) := by
  have hnil : s'.map lib.normal=[] ↔ s.map lib.normal=[] := by simp only [eq_nil_iff_forall_not_mem,h _]
  exact ⟨Set.ext fun v => and_congr_right fun _ => h v,by simpa using hnil⟩

theorem respelt_verdict (c' : ChallengeClaim) (csr' : CertificateRequest) (h : RespeltPair lib c csr c' csr') :
    deviceMatchesCSR lib (some c') (some csr')=.ok () ↔ deviceMatchesCSR lib (some c) (some csr)=.ok () := by
  obtain ⟨⟨hname,hcommon⟩,hdns,hemail,hupn⟩ := h
  simp only [accepts_iff,BoundElsewhere,Agrees,ne_eq,hname,hcommon,respelt_names lib hdns.1,
    respelt_names lib hdns.2,respelt_names lib hemail.1,respelt_names lib hemail.2,respelt_names lib hupn.1]

/-- The common name and the dimensions that are read decide, a request counting as one without user principals,
and the verdict does not depend on the spelling. So the binding is exact unless pinned user principals decide; there
it is when the request differs from the pinned ones, or has none where only blank ones are pinned. -/
theorem bindingExact_iff : (deviceMatchesCSR lib (some c) (some csr)=.ok () ↔
      BoundElsewhere lib c csr ∧ (c.sanUPN≠[] → names lib c.sanUPN=∅)) ∧
    (∀ c' csr',RespeltPair lib c csr c' csr' →
      (deviceMatchesCSR lib (some c') (some csr')=.ok () ↔ deviceMatchesCSR lib (some c) (some csr)=.ok ())) ∧
    (BindingExact lib c csr ↔ (c.sanUPN≠[] → BoundElsewhere lib c csr →
      (names lib c.sanUPN=∅ ↔ names lib csr.userPrincipalNames=names lib c.sanUPN))) := by
  refine ⟨accepts_iff lib c csr,respelt_verdict lib c csr,?_⟩
  rw [BindingExact,accepts_iff,Bound,Agrees]
  constructor
  · rintro ⟨hexact,-⟩ hpins helse
    simpa [helse,hpins] using hexact
  · intro h
    refine ⟨and_congr_right fun helse => forall_congr' fun hpins => h hpins helse,?_⟩
    rw [← accepts_iff]
    exact respelt_verdict lib c csr

/-- A request with the pinned user principal is refused. -/
theorem pinned_principal_refused : ¬BindingExact ⟨id,id⟩ {sanUPN := ["u@x"]} {userPrincipalNames := ["u@x"]} := by
  rintro ⟨hexact,-⟩
  have hbound : Bound ⟨id,id⟩ {sanUPN := ["u@x"]} {userPrincipalNames := ["u@x"]} := by
    simp [Bound,BoundElsewhere,Agrees]
  exact absurd (hexact.mpr hbound) (by decide)

end Certctl.DeviceBinding
