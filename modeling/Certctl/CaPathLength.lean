import Certctl.CaHierarchy

/-!
# Path lengths in a hierarchy of authorities

A certificate that carries a path length allows that many levels of
authorities below it. A child's length is checked against the recorded
length of its parent, and the length of a root is read off its certificate.
Parsing reports an absent constraint as minus one, which is recorded as a
length; a parent of length zero gives a child without a request length
zero again; and a request may be negative. Without these three cases the
recorded lengths drop on every link.
-/

namespace Certctl.CaPathLength

open DomainRecords RecordTable ParentLinks CaHierarchy Option

def textPathLen (lib : X509Library) (certPEM : String) : Option ℕ := (lib.pemDecode certPEM).bind lib.pathLength

def carriedPathLen (lib : X509Library) (ca : IntermediateCA) : Option ℕ := textPathLen lib ca.certPEM

/-- No authority is deeper below another than the certificate of that one allows. -/
def PathLengthsHold (lib : X509Library) (rows : Table) : Prop :=
  ∀ d above below p,Above rows d above below → carriedPathLen lib above=some p → d≤p

/-- A root without a constraint refuses no request for a path length. -/
def UnconstrainedRootsAdmit (lib : X509Library) (rows : Table) : Prop :=
  ∀ root∈rows,root.parentCAID=none → carriedPathLen lib root=none →
    ∀ env name opts v,opts.pathLenConstraint=some v → 0≤v →
      createChild lib env root.id name (some opts) rows≠.error Sentinel.pathLenExceeded.error

/-- A requested length is not negative, and one is requested under a parent of length zero. -/
def RequestAllowed (requested parent : Option ℤ) : Prop :=
  match requested with
  | some v => 0≤v
  | none => parent≠some 0

instance (requested parent : Option ℤ) : Decidable (RequestAllowed requested parent) :=
  match requested with
  | some v => inferInstanceAs (Decidable (0≤v))
  | none => inferInstanceAs (Decidable (parent≠some 0))

/-- The condition on a call: roots carry a constraint, requested lengths are not negative, and a
child without a requested length is not signed under a parent of length zero. -/
def PathLengthStep (lib : X509Library) (rows : Table) : Call→Prop
  | .createRoot _ _ rootCertPEM _ _ => (textPathLen lib rootCertPEM).isSome=true
  | .createChild parentCAID _ options => ∀ opts∈options,∀ parent∈lookup IntermediateCA.id parentCAID rows,
      RequestAllowed opts.pathLenConstraint parent.pathLenConstraint
  | .retire _ _ => True

instance (lib : X509Library) (rows : Table) : (call : Call)→Decidable (PathLengthStep lib rows call)
  | .createRoot _ _ rootCertPEM _ _ => inferInstanceAs (Decidable ((textPathLen lib rootCertPEM).isSome=true))
  | .createChild parentCAID _ options => inferInstanceAs (Decidable (∀ opts∈options,
      ∀ parent∈lookup IntermediateCA.id parentCAID rows,
        RequestAllowed opts.pathLenConstraint parent.pathLenConstraint))
  | .retire _ _ => isTrue trivial

/-- The recorded path length is the one the certificate carries. -/
def Faithful (lib : X509Library) (ca : IntermediateCA) : Prop :=
  ∃ p : ℕ,ca.pathLenConstraint=some (p : ℤ) ∧ carriedPathLen lib ca=some p

def recordedLength (ca : IntermediateCA) : ℤ := ca.pathLenConstraint.getD 0

variable {lib : X509Library} {rows : Table} {rootCertPEM : String} {root : IntermediateCA}

theorem recorded_of_unconstrained (hlib : lib.Documented)
    (hroot : RootRow lib rootCertPEM root) (hnone : carriedPathLen lib root=none) :
    root.pathLenConstraint=some (-1) := by
  obtain ⟨der,cert,hder,hparse,hca,hpath,-⟩ := hroot.recorded
  have hvalid := hlib.isCA_basicConstraints der cert hparse hca
  have hreport := hlib.parse_pathLength der cert hparse hvalid
  rw [carriedPathLen,textPathLen,hroot.certificate,hder,bind_some] at hnone
  rw [hnone,Prod.mk.injEq] at hreport
  rw [hpath,pathLenFromCert,hvalid,hreport.1]
  rfl

theorem faithful_root (hlib : lib.Documented)
    (hroot : RootRow lib rootCertPEM root) (hsome : (textPathLen lib rootCertPEM).isSome=true) :
    Faithful lib root := by
  obtain ⟨der,cert,hder,hparse,hca,hpath,-⟩ := hroot.recorded
  have hvalid := hlib.isCA_basicConstraints der cert hparse hca
  have hreport := hlib.parse_pathLength der cert hparse hvalid
  obtain ⟨p,hp⟩ := isSome_iff_exists.mp hsome
  have hcarried : lib.pathLength der=some p := by
    rw [textPathLen,hder] at hp
    exact hp
  rw [hcarried,reportedPathLen,Prod.mk.injEq] at hreport
  refine ⟨p,?_,by rw [carriedPathLen,hroot.certificate,hp]⟩
  have hflag : ¬(cert.maxPathLen=0 ∧ cert.maxPathLenZero=false) := by
    rw [hreport.1,hreport.2]
    simp
  rw [hpath,pathLenFromCert,if_neg (by rw [hvalid]; exact Bool.noConfusion),if_neg hflag,hreport.1]

theorem requestedPathLen_self (q : ℕ) : requestedPathLen (q : ℤ) (decide (some (q : ℤ)=some 0))=some q := by
  have hkept : ¬((q : ℤ)=-1 ∨ ((q : ℤ)=0 ∧ decide (some (q : ℤ)=some 0)=false)) := by
    rw [decide_eq_false_iff_not,Option.some.injEq]
    omega
  rw [requestedPathLen,if_neg hkept,Int.toNat_natCast]

theorem childPathLen_lt {p : ℕ} {requested out : Option ℤ} (h : childPathLen (some (p : ℤ)) requested=.ok out)
    (hallowed : RequestAllowed requested (some (p : ℤ))) : ∃ q : ℕ,out=some (q : ℤ) ∧ q<p := by
  cases requested with
  | some v =>
    have hv : 0≤v := hallowed
    simp only [childPathLen] at h
    split_ifs at h with hge
    rw [Except.ok.injEq] at h
    refine ⟨v.toNat,?_,by omega⟩
    rw [← h,Int.toNat_of_nonneg hv]
  | none =>
    have hp : (p : ℤ)≠0 := fun hp => hallowed (congrArg some hp)
    simp only [childPathLen,Except.ok.injEq] at h
    refine ⟨p-1,?_,by omega⟩
    rw [← h]
    congr 1
    omega

variable {parentCAID name : String} {opts : CreateChildOptions} {parent : IntermediateCA}

theorem faithful_child (hlib : lib.Documented)
    {row : IntermediateCA} (hok : PathLengthStep lib rows (.createChild parentCAID name (some opts)))
    (hfound : lookup IntermediateCA.id parentCAID rows=some parent) (hparent : Faithful lib parent)
    (hrow : ChildRow lib opts parent row) : Faithful lib row ∧ recordedLength row+1≤recordedLength parent := by
  have hallowed := hok opts rfl parent hfound
  obtain ⟨p,hp,-⟩ := hparent
  have hpath := hrow.pathLen
  rw [hp] at hpath hallowed
  obtain ⟨q,hq,hlt⟩ := childPathLen_lt hpath hallowed
  obtain ⟨serial,notBefore,notAfter,parentCert,key,signer,entropy,der,hder,hpem⟩ := hrow.signed
  have hcarried : lib.pathLength der=some q := by
    have hcreate := hlib.create_pathLength _ _ _ _ _ _ hder
    simp only [childTemplate,hq,getD_some] at hcreate
    rw [hcreate (by omega),requestedPathLen_self]
  refine ⟨⟨q,hq,?_⟩,?_⟩
  · rw [carriedPathLen,textPathLen,hpem,hlib.pem_roundTrip,bind_some,hcarried]
  rw [recordedLength,recordedLength,hq,hp,getD_some,getD_some]
  omega

variable {env : Surroundings}

/-- A root whose certificate parses and, without a constraint, is recorded with length minus one. -/
def RootOnRecord (lib : X509Library) (ca : IntermediateCA) : Prop :=
  ca.parentCAID=none → (∃ cert,parseCertPEM lib ca.certPEM=.ok cert) ∧
    (carriedPathLen lib ca=none → ca.pathLenConstraint=some (-1))

theorem rootOnRecord_runCalls (hlib : lib.Documented) (history : List (Call×Surroundings)) :
    ∀ row∈runCalls lib [] history,RootOnRecord lib row := by
  refine (runCalls_links (P := RootOnRecord lib) (R := fun _ _ => True) (fun _ _ h => h) (fun _ _ _ _ h => h)
    ?_ ?_ (along_any lib [] history)).1
  · intro rows issuerID name rootCertPEM keyDriverID options row _ hroot _
    obtain ⟨der,cert,hder,hparse,-⟩ := hroot.recorded
    refine ⟨⟨cert,?_⟩,recorded_of_unconstrained hlib hroot⟩
    simp only [parseCertPEM,hroot.certificate,hder,hparse]
  · intro rows parentCAID name opts parent row _ _ _ hrow
    refine ⟨fun hnone => ?_,trivial⟩
    rw [hrow.below] at hnone
    cases hnone

theorem wrapped_ne_pathLenExceeded (err : GoError) :
    err.wrapped "CreateChild: get parent: "≠Sentinel.pathLenExceeded.error := by
  intro h
  have htext := congrArg (fun e : GoError => e.text.toList.head?) h
  simp only [GoError.wrapped,String.toList_append] at htext
  cases htext

theorem createChild_of_not_active (hfound : lookup IntermediateCA.id parentCAID rows=some parent)
    (hactive : parent.state≠.active) :
    createChild lib env parentCAID name (some opts) rows≠.error Sentinel.pathLenExceeded.error := by
  cases hget : env.getFault with
  | none =>
    simp only [createChild,fetch,CaHierarchy.get,hget,hfound,fails,refuse,if_pos hactive,bind,Except.bind]
    decide
  | some err =>
    simp only [createChild,fetch,CaHierarchy.get,hget,fails,bind,Except.bind]
    by_cases hnot : err.is .notFound=true
    · simp only [hnot,if_true]
      decide
    · simp only [if_neg hnot,ne_eq,Except.error.injEq]
      exact wrapped_ne_pathLenExceeded err

theorem unconstrainedRootsAdmit_iff (hlib : lib.Documented) (history : List (Call×Surroundings)) :
    UnconstrainedRootsAdmit lib (runCalls lib [] history) ↔
      ∀ root∈runCalls lib [] history,root.parentCAID=none → root.state=.active → carriedPathLen lib root≠none := by
  have hforest := hierarchy_runCalls lib history
  have hfound : ∀ root∈runCalls lib [] history,lookup IntermediateCA.id root.id (runCalls lib [] history)=some root :=
    fun root hroot => lookup_of_mem hforest.keys hroot
  constructor
  · intro hadmit root hroot hparent hactive hnone
    obtain ⟨⟨cert,hcert⟩,hlen⟩ := rootOnRecord_runCalls hlib history root hroot hparent
    have hrefused : createChild lib (sampleEnv "") root.id "" (some {pathLenConstraint := some 0})
        (runCalls lib [] history)=.error Sentinel.pathLenExceeded.error := by
      have hget : (sampleEnv "").getFault=none := rfl
      simp only [createChild,fetch,CaHierarchy.get,hget,hfound root hroot,fails,refuse,hactive,wrapping,hcert,hlen hnone,
        childPathLen,bind,Except.bind,Except.mapError,ne_eq,not_true_eq_false,if_false]
      rfl
    exact hadmit root hroot hparent hnone _ _ _ 0 rfl le_rfl hrefused
  · intro hnever root hroot hparent hnone env name opts v _ _
    have hactive : root.state≠.active := fun hactive => hnever root hroot hparent hactive hnone
    exact createChild_of_not_active (hfound root hroot) hactive

/-- The small library behaves as documented. -/
theorem sampleLibrary_documented : sampleLibrary.Documented where
  pem_roundTrip der := by
    simp only [sampleLibrary,String.toList_ofList,List.map_map,Option.some.injEq]
    conv_rhs => rw [← List.map_id der]
    refine List.map_congr_left fun b _ => ?_
    have hb := b.toNat_lt
    have hvalid : b.toNat.isValidChar := Or.inl (by omega)
    rw [Function.comp_apply,Char.ofNat,dif_pos hvalid]
    exact UInt8.ofNat_toNat
  isCA_basicConstraints der cert hparse _ := by
    cases hparse
    rfl
  parse_pathLength der cert hparse _ := by
    cases hparse
    rfl
  create_pathLength template parent key signer entropy der hcreate hge := by
    simp only [sampleLibrary,if_neg (not_lt.mpr hge),Except.ok.injEq] at hcreate ⊢
    rw [← hcreate]
    cases requestedPathLen template.maxPathLen template.maxPathLenZero with
    | none => rfl
    | some => simp only [List.replicate_succ,List.length_replicate]

/-- Path lengths hold in every hierarchy built by allowed calls, and there no root is without one. -/
theorem pathLengths_hold (hlib : lib.Documented) {history : List (Call×Surroundings)}
    (halong : Along lib (PathLengthStep lib) [] history) :
    PathLengthsHold lib (runCalls lib [] history) ∧ UnconstrainedRootsAdmit lib (runCalls lib [] history) := by
  obtain ⟨hrows,hlinks⟩ := runCalls_links (P := Faithful lib)
    (R := fun above below => recordedLength below+1≤recordedLength above) (fun _ _ h => h) (fun _ _ _ _ h => h)
    (fun _ _ _ _ _ _ _ hok hroot => faithful_root hlib hroot hok)
    (fun _ _ _ _ _ _ hok hfound hparent hrow => faithful_child hlib hok hfound hparent hrow) halong
  constructor
  · intro d above below p hbelow hp
    have hmeasure := below_measure hlinks hbelow
    obtain ⟨habove,hmem⟩ := hbelow.mem
    obtain ⟨m,hm,hcarried⟩ := hrows above habove
    obtain ⟨n,hn,-⟩ := hrows below hmem
    rw [hcarried,Option.some.injEq] at hp
    rw [recordedLength,recordedLength,hm,hn,getD_some,getD_some] at hmeasure
    omega
  · refine (unconstrainedRootsAdmit_iff hlib history).mpr fun root hroot _ _ hnone => ?_
    obtain ⟨p,-,hp⟩ := hrows root hroot
    rw [hnone] at hp
    cases hp

/-- A root of length two, its child by default and a grandchild of requested length zero. -/
def sampleChain : List (Call×Surroundings) :=
  [sampleRoot "xxx",sampleChild "ica-r" "a" {},sampleChild "ica-a" "b" {pathLenConstraint := some 0}]

/-- The calls of the chain are allowed, all three succeed, and the path lengths hold. -/
theorem pathLengths_hold_chain :
    (runCalls sampleLibrary [] sampleChain).map IntermediateCA.pathLenConstraint=[some 2,some 1,some 0] ∧
      PathLengthsHold sampleLibrary (runCalls sampleLibrary [] sampleChain) ∧
      UnconstrainedRootsAdmit sampleLibrary (runCalls sampleLibrary [] sampleChain) := by
  have hallowed : Along sampleLibrary (PathLengthStep sampleLibrary) [] sampleChain := by decide
  exact ⟨by decide,pathLengths_hold sampleLibrary_documented hallowed⟩

def clampedHistory : List (Call×Surroundings) := [sampleRoot "x",sampleChild "ica-r" "a" {}]

def unconstrainedHistory : List (Call×Surroundings) := [sampleRoot ""]

/-- Path lengths fail below a root of length zero, and a root without a constraint refuses requests. -/
theorem pathLengths_broken : sampleLibrary.Documented ∧
    ¬PathLengthsHold sampleLibrary (runCalls sampleLibrary [] clampedHistory) ∧
    ¬UnconstrainedRootsAdmit sampleLibrary (runCalls sampleLibrary [] unconstrainedHistory) := by
  refine ⟨sampleLibrary_documented,?_,?_⟩
  · intro h
    have hlinked : ∃ above∈runCalls sampleLibrary [] clampedHistory,∃ below∈runCalls sampleLibrary [] clampedHistory,
        below.parentCAID=some above.id ∧ carriedPathLen sampleLibrary above=some 0 := by decide
    obtain ⟨above,habove,below,hbelow,hnames,hzero⟩ := hlinked
    have hdeep := h 1 above below 0 (.link ⟨habove,hbelow,hnames⟩) hzero
    omega
  · intro h
    have hroot : ∃ root∈runCalls sampleLibrary [] unconstrainedHistory,root.parentCAID=none ∧
        root.state=.active ∧ carriedPathLen sampleLibrary root=none := by decide
    obtain ⟨root,hroot,hparent,hactive,hnone⟩ := hroot
    exact (unconstrainedRootsAdmit_iff sampleLibrary_documented _).mp h root hroot hparent hactive hnone

end Certctl.CaPathLength
