import Certctl.DeployPhases
import Mathlib.Algebra.Order.BigOperators.Group.List
import Mathlib.Algebra.Order.Ring.Nat

/-!
# All or nothing

A deployment with backups either puts every new file in place, or leaves
every destination as it was, or reports that its rollback failed. This
holds for every disk and every pattern of failures exactly for the plans
whose destinations are different files, or get the same bytes, and are
not named like backups of each other: the pruning at the end deletes by
the front of a name, and a destination with such a name can be deleted
after it was put in place.
-/

namespace Certctl.DeployAtomicity

open AtomicProgram Prog DeployFileSystem DeployApply DeployFileRules DeployPhases DomainRecords RecordTable
open List hiding lookup

def destinations (host : Host) (plan : Plan) : List Path :=
  plan.files.filterMap fun file => (host.abs file.path).toOption

/-- Success with all new bytes, an error with all old ones, or a rollback reported as failed. -/
def AllOrNothing (host : Host) (plan : Plan) (before : Disk) (out : Outcome) (after : Disk) : Prop :=
  (out.error=none ∧ ∀ file∈plan.files,∀ abs,host.abs file.path=.ok abs →
    after.held (host.place abs)=some (some file.bytes)) ∨
  (∃ err,out.error=some err ∧ err.is .deployRollbackFailed=false ∧ ∀ file∈plan.files,∀ abs,host.abs file.path=.ok abs →
      after.held (host.place abs)=before.held (host.place abs)) ∨
  ∃ err,out.error=some err ∧ err.is .deployRollbackFailed=true

def SamePlaceSameBytes (host : Host) (plan : Plan) : Prop :=
  ∀ f∈plan.files,∀ g∈plan.files,∀ a b,host.abs f.path=.ok a → host.abs g.path=.ok b →
    host.place a=host.place b → f.bytes=g.bytes

/-- No destination is named like a backup of a destination in the same directory. -/
def NoneNamedAsBackup (host : Host) (plan : Plan) : Prop :=
  ∀ f∈plan.files,∀ g∈plan.files,∀ a b,host.abs f.path=.ok a → host.abs g.path=.ok b →
    host.realDir a.dir=host.realDir b.dir → hasPrefix b.base (a.base++backupSuffix)=false

variable {host : Host} {dests : List Path} {ok : Prog.Allowed (fileSystem host)} {Faulty : Prop}
  {plan : Plan} {before disk : Disk}

theorem AllOrNothing.new {out : Outcome} {after : Disk} (h : AllOrNothing host plan before out after)
    (hout : out.error=none) {file : File} (hfile : file∈plan.files) {abs : Path} (habs : host.abs file.path=.ok abs) :
    after.held (host.place abs)=some (some file.bytes) := by
  rcases h with ⟨-,hnew⟩|⟨err,herr,-⟩|⟨err,herr,-⟩
  · exact hnew file hfile abs habs
  · cases hout.symm.trans herr
  · cases hout.symm.trans herr

/-- Validated files have absolute destinations, all different. -/
theorem absPaths_of_validateFiles {files : List File} {index : ℕ} {seen : List Path}
    (h : validateFiles host index seen files=none) : ∃ targets,absPaths host files=.ok targets ∧
      targets.map Prod.snd=files.filterMap (fun file => (host.abs file.path).toOption) ∧
      targets.map Prod.fst=files ∧ (∀ t∈targets,host.abs t.1.path=.ok t.2) ∧
      (targets.map Prod.snd).Nodup ∧ ∀ p∈targets.map Prod.snd,p∉seen := by
  induction files generalizing index seen with
  | nil =>
    exact ⟨[],rfl,rfl,rfl,forall_mem_nil _,nodup_nil,forall_mem_nil _⟩
  | cons file rest ih =>
    unfold validateFiles at h
    split at h
    · cases h
    cases habs : host.abs file.path with
    | error =>
      simp only [habs] at h
      cases h
    | ok abs =>
      simp only [habs] at h
      split at h
      · cases h
      rename_i hseen
      obtain ⟨targets,hok,hsnd,hfst,hall,hnodup,hfree⟩ := ih h
      have hnot : abs∉targets.map Prod.snd := fun hmem => hfree abs hmem mem_cons_self
      refine ⟨(file,abs)::targets,?_,?_,?_,fun t ht => ?_,?_,fun p hp => ?_⟩
      · simp only [absPaths,habs,hok]
      · simp only [map_cons,hsnd,filterMap_cons,habs,Except.toOption]
      · rw [map_cons,hfst]
      · rcases mem_cons.mp ht with rfl|ht
        · exact habs
        · exact hall t ht
      · exact nodup_cons.mpr ⟨hnot,hnodup⟩
      · rcases mem_cons.mp hp with rfl|hp
        · exact hseen
        · exact fun hmem => hfree p hp (mem_cons_of_mem abs hmem)

theorem files_of_validatePlan (h : validatePlan host plan=none) : validateFiles host 0 [] plan.files=none := by
  unfold validatePlan at h
  split at h
  · cases h
  · exact h

variable {d d' : Disk}

theorem held_congr (h : d'.entries=d.entries) (x : Path) : d'.held x=d.held x := by
  unfold Disk.held
  rw [h]

theorem total_lockAll (henv : Surroundings host dests ok Faulty) (ps : List Path) (hnodup : ps.Nodup)
    (hfree : ∀ p∈ps,p∉disk.locks) : (Prog.forEach ps fun p => (request (.lock p) : Files host Unit)).Total ok
      (fun _ disk' => disk'.entries=disk.entries) disk := by
  induction ps generalizing disk with
  | nil => rfl
  | cons p rest ih =>
    obtain ⟨hnot,hnodup'⟩ := nodup_cons.mp hnodup
    have hopen : blocked disk (.lock p)=false := by
      have hp := hfree p mem_cons_self
      simpa only [blocked,contains_eq_mem,decide_eq_false_iff_not] using hp
    have hperform : ∀ c,(fileSystem host).perform (.lock p) c disk=some ((),{disk with locks := p::disk.locks}) := by
      intro c
      simp only [hopen,Bool.false_eq_true,if_false,effect]
    constructor
    · obtain ⟨c,hc⟩ := henv.live (.lock p) disk
      exact ⟨c,(),_,hc,hperform c⟩
    · intro c r disk₁ _ hp
      rw [hperform c,Option.some.injEq] at hp
      have hdisk : ({disk with locks := p::disk.locks} : Disk)=disk₁ := congrArg Prod.snd hp
      subst hdisk
      have hfree' : ∀ q∈rest,q∉({disk with locks := p::disk.locks} : Disk).locks := by
        intro q hq hlocked
        rcases mem_cons.mp hlocked with rfl|hlocked
        · exact hnot hq
        · exact hfree q (mem_cons_of_mem p hq) hlocked
      exact ih hnodup' hfree'

theorem total_unlockAll (henv : Surroundings host dests ok Faulty) (ps : List Path) :
    (Prog.forEach ps fun p => (request (.unlock p) : Files host Unit)).Total ok
      (fun _ disk' => disk'.entries=disk.entries) disk := by
  refine total_forEach (S := fileSystem host) (I := fun disk' => disk'.entries=disk.entries) ps _
    (fun p _ disk₁ hsame => ?_) rfl
  exact total_request henv fun _ _ => hsame

theorem total_apply (henv : Surroundings host (destinations host plan) ok Faulty)
    (hsha : Function.Injective host.sha256) (hret : plan.backupRetention≠ -1)
    (hvalid : validatePlan host plan=none) (hfree : before.locks=[])
    (hdir : ∀ x,Dest host (destinations host plan) x → before.held x=some none → Faulty)
    {Q : Outcome→Disk→Prop} (hentries : ∀ out d d',d'.entries=d.entries → Q out d → Q out d')
    (hfail : ∀ out disk',Faulty → Failed host (destinations host plan) before out disk' → Q out disk')
    (hskip : ∀ res,(∀ file∈plan.files,∀ abs,host.abs file.path=.ok abs →
      before.held (host.place abs)=some (some file.bytes)) → Q ⟨some res,none⟩ before)
    (hprune : ∀ preps disk',(∀ p∈preps,p.file∈plan.files ∧ host.abs p.file.path=.ok p.abs) →
      (∀ file∈plan.files,∀ abs,host.abs file.path=.ok abs → ∃ p∈preps,p.abs=abs) →
      Deployed host (destinations host plan) preps disk' →
      Untouched host (destinations host plan) before disk' →
      (pruneAll (retention plan) preps).Total ok (fun _ disk'' => ∀ res,Q ⟨some res,none⟩ disk'') disk') :
    (apply host plan).Total ok Q before := by
  obtain ⟨targets,htargets,hdests,hfst,hall,hnodup,-⟩ := absPaths_of_validateFiles (files_of_validatePlan hvalid)
  have hmem : ∀ file∈plan.files,∀ abs,host.abs file.path=.ok abs → (file,abs)∈targets := by
    intro file hfile abs habs
    rw [← hfst] at hfile
    obtain ⟨t,ht,rfl⟩ := mem_map.mp hfile
    have heq : t.2=abs := Except.ok.inj ((hall t ht).symm.trans habs)
    rw [← heq]
    exact ht
  have hnodupLocks : (lockOrder targets).Nodup := (perm_insertionSort _ _).nodup_iff.mpr hnodup
  unfold apply
  simp only [hvalid,htargets]
  refine total_seq (total_lockAll henv (lockOrder targets) hnodupLocks fun p _ => ?_) fun _ disk₁ hsame => ?_
  · rw [hfree]
    exact not_mem_nil
  have hheld : ∀ x,disk₁.held x=before.held x := held_congr hsame
  rw [bind_eq_bind,total_bind]
  have hunlock : ∀ out disk',Q out disk' → (do
      Prog.forEach (lockOrder targets).reverse fun p => request (.unlock p)
      pure out : Files host Outcome).Total ok Q disk' := by
    intro out disk' hq
    exact total_seq (total_unlockAll henv _) fun _ disk'' h => hentries out disk' disk'' h hq
  refine total_applyLocked henv (fun x hx hnone => ?_) (fun out disk' hfaulty hfailed => ?_) hret hdests.symm
    (fun preps disk' hpreps hdeployed huntouched => ?_) hsha fun res hmatch => ?_
  · exact hdir x hx ((hheld x).symm.trans hnone)
  · refine hunlock out disk' (hfail out disk' hfaulty ?_)
    obtain ⟨err,herr,hstate⟩ := hfailed
    refine ⟨err,herr,hstate.imp_left fun hsame' x hx => ?_⟩
    rw [hsame' x hx,hheld x]
  · have hfrom : ∀ p∈preps,p.file∈plan.files ∧ host.abs p.file.path=.ok p.abs := by
      intro p hp
      have ht : target p∈targets := hpreps ▸ mem_map_of_mem hp
      refine ⟨?_,hall _ ht⟩
      rw [← hfst]
      exact mem_map_of_mem ht
    have hcover : ∀ file∈plan.files,∀ abs,host.abs file.path=.ok abs → ∃ p∈preps,p.abs=abs := by
      intro file hfile abs habs
      have ht := hmem file hfile abs habs
      rw [← hpreps] at ht
      obtain ⟨p,hp,hpt⟩ := mem_map.mp ht
      exact ⟨p,hp,congrArg Prod.snd hpt⟩
    have huntouched' : Untouched host (destinations host plan) before disk' := by
      intro x hplanned hapart hsome
      rw [← hheld] at hsome ⊢
      exact huntouched x hplanned hapart hsome
    refine (hprune preps disk' hfrom hcover hdeployed huntouched').mono fun _ disk'' hq res => ?_
    exact hunlock _ disk'' (hq res)
  · refine hunlock _ disk₁ (hentries _ before disk₁ hsame (hskip res fun file hfile abs habs => ?_))
    rw [← hheld]
    exact hmatch (file,abs) (hmem file hfile abs habs)

variable {x : Path}

theorem dest_iff : Dest host (destinations host plan) x ↔
    ∃ file∈plan.files,∃ abs,host.abs file.path=.ok abs ∧ host.place abs=x := by
  have htoOption : ∀ (file : File) (abs : Path),(host.abs file.path).toOption=some abs ↔
      host.abs file.path=.ok abs := by
    intro file abs
    cases host.abs file.path with
    | error | ok => simp [Except.toOption]
  constructor
  · rintro ⟨abs,habs,hplace⟩
    obtain ⟨file,hfile,hok⟩ := mem_filterMap.mp habs
    exact ⟨file,hfile,abs,(htoOption file abs).mp hok,hplace⟩
  · rintro ⟨file,hfile,abs,hok,hplace⟩
    exact ⟨abs,mem_filterMap.mpr ⟨file,hfile,(htoOption file abs).mpr hok⟩,hplace⟩

variable {keep : ℤ} {names : List String} {name : String}

theorem mem_of_mem_surplus (h : name∈surplus keep names) : name∈names := by
  unfold surplus at h
  split at h
  · exact absurd h not_mem_nil
  · exact (perm_insertionSort _ _).mem_iff.mp (mem_of_mem_take h)

variable {base : String}

theorem mem_backupNames {entries : List DirEntry} : name∈backupNames base entries ↔
      (⟨name,false⟩ : DirEntry)∈entries ∧ hasPrefix name (base++backupSuffix)=true := by
  unfold backupNames
  rw [mem_map]
  constructor
  · rintro ⟨⟨n,isDir⟩,he,rfl⟩
    obtain ⟨hmem,hcond⟩ := mem_filter.mp he
    rw [Bool.and_eq_true,Bool.not_eq_true'] at hcond
    obtain ⟨rfl,hfront⟩ := hcond
    exact ⟨hmem,hfront⟩
  · rintro ⟨hmem,hfront⟩
    refine ⟨⟨name,false⟩,mem_filter.mpr ⟨hmem,?_⟩,rfl⟩
    simp only [Bool.not_false,Bool.true_and,hfront]

variable {dir : String} {I : Disk→Prop}

theorem total_removeNames (henv : Surroundings host dests ok Faulty) (names : List String)
    (hkeep : ∀ name∈names,∀ d d',I d → SameOff (host.place ⟨dir,name⟩) d d' → I d')
    (firstErr : Err) (hi : I disk) :
    (removeNames dir firstErr names).Total ok (fun _ disk' => I disk') disk := by
  induction names generalizing firstErr disk with
  | nil => exact hi
  | cons name rest ih =>
    have hkeep' := fun n hn => hkeep n (mem_cons_of_mem name hn)
    refine total_discard henv ⟨dir,name⟩ fun r disk' hoff => ?_
    have hi' := hkeep name mem_cons_self disk disk' hi hoff
    cases r with
    | error | ok => exact ih hkeep' _ hi'

theorem total_pruneAll (henv : Surroundings host dests ok Faulty) (keep : ℤ) (preps : List FilePrep)
    (hkeep : ∀ p∈preps,∀ name,hasPrefix name (p.abs.base++backupSuffix)=true → ∀ d d',I d →
      SameOff (host.place ⟨p.abs.dir,name⟩) d d' → I d')
    (hi : I disk) : (pruneAll keep preps).Total ok (fun _ disk' => I disk') disk := by
  unfold pruneAll
  split
  · refine total_forEach (S := fileSystem host) preps _ (fun p hp disk₁ hi₁ => ?_) hi
    rw [bind_eq_bind,total_bind]
    unfold pruneBackups
    split
    · exact hi₁
    refine total_readDir henv p.abs.dir (fun err _ => hi₁) ?_
    refine total_removeNames henv _ (fun name hname => ?_) none hi₁
    exact hkeep p hp name (mem_backupNames.mp (mem_of_mem_surplus hname)).2
  · exact hi

theorem lt_length_nanosText (n : ℕ) : n<(nanosText (10^(n+1))).length := by
  have hdigits : ¬(Nat.toDigits 10 (10^(n+1))).length≤n+1 := by
    rw [Nat.length_toDigits_le_iff (by decide) (Nat.succ_pos n)]
    exact lt_irrefl _
  simp only [nanosText,String.length_ofList,length_append]
  omega

theorem exists_freshTime (host : Host) (dests : List Path) (disk : Disk) : ∃ nanos,FreshTime host dests disk nanos := by
  let lengths := disk.entries.map (fun e => e.place.base.length)++dests.map fun p => p.base.length
  have hbound : ∀ n∈lengths,n≤lengths.sum := fun n hn => le_sum_of_mem hn
  refine ⟨10^(lengths.sum+1),fun abs _ suffix _ => ?_⟩
  have hlong : ∀ base : String,base.length∈lengths →
      base≠(host.place (stamped abs suffix (10^(lengths.sum+1)))).base := by
    intro base hbase heq
    have hle := hbound _ hbase
    have hlt := lt_length_nanosText lengths.sum
    rw [heq] at hle
    simp only [Host.place,stamped,String.length_append] at hle
    omega
  constructor
  · cases hheld : disk.held (host.place (stamped abs suffix (10^(lengths.sum+1)))) with
    | none => rfl
    | some =>
      obtain ⟨e,he,-⟩ := Option.map_eq_some_iff.mp hheld
      obtain ⟨hmem,hplace⟩ := lookup_some he
      refine absurd (congrArg Path.base hplace) (hlong _ (mem_append_left _ ?_))
      exact mem_map.mpr ⟨e,hmem,rfl⟩
  · rintro ⟨p,hp,hplace⟩
    have hbase : (host.place p).base=_ := congrArg Path.base hplace
    exact hlong p.base (mem_append_right _ (mem_map.mpr ⟨p,hp,rfl⟩)) hbase

theorem surroundings_orderly (host : Host) (dests : List Path) : Surroundings host dests (Orderly host dests) True where
  live op disk := by
    cases op with
    | nowNanos =>
      obtain ⟨nanos,hfresh⟩ := exists_freshTime host dests disk
      exact ⟨{nanos := nanos},hfresh⟩
    | stat => exact ⟨{},rfl⟩
    | preCommit | postCommit => exact ⟨{},fun _ _ => rfl⟩
    | _ => exact ⟨{},trivial⟩
  orderly _ _ _ h := h
  charged _ _ _ _ _ _ := trivial

/-- A plan without clashes is deployed as a whole or not at all. -/
theorem allOrNothing_of_apart (hsha : Function.Injective host.sha256) (hret : plan.backupRetention≠ -1)
    (hvalid : validatePlan host plan=none) (hbytes : SamePlaceSameBytes host plan)
    (hnames : plan.backupRetention< -1 ∨ NoneNamedAsBackup host plan) (hfree : before.locks=[]) :
    (apply host plan).Total (Orderly host (destinations host plan)) (AllOrNothing host plan before) before := by
  have henv := surroundings_orderly host (destinations host plan)
  refine total_apply henv hsha hret hvalid hfree (fun _ _ _ => trivial) (fun out d d' hentries h => ?_)
    (fun out disk' _ hfailed => ?_) (fun res h => .inl ⟨rfl,h⟩) fun preps disk' hfrom _ hdeployed _ => ?_
  · unfold AllOrNothing at h ⊢
    simp only [held_congr hentries]
    exact h
  · obtain ⟨err,herr,hstate⟩ := hfailed
    cases hrollback : err.is .deployRollbackFailed with
    | true => exact .inr (.inr ⟨err,herr,hrollback⟩)
    | false =>
      rw [hrollback] at hstate
      have hsame := hstate.resolve_right Bool.false_ne_true
      refine .inr (.inl ⟨err,herr,hrollback,fun file hfile abs habs => ?_⟩)
      exact hsame _ (dest_iff.mpr ⟨file,hfile,abs,habs,rfl⟩)
  have hnew : ∀ res disk'',SameDests host (destinations host plan) disk' disk'' →
      AllOrNothing host plan before ⟨some res,none⟩ disk'' := by
    intro res disk'' hsame
    refine .inl ⟨rfl,fun file hfile abs habs => ?_⟩
    have hdest : Dest host (destinations host plan) (host.place abs) := dest_iff.mpr ⟨file,hfile,abs,habs,rfl⟩
    obtain ⟨p,hp,hplace,hheld⟩ := hdeployed _ hdest
    obtain ⟨hpfile,hpabs⟩ := hfrom p hp
    rw [hsame _ hdest,hheld,hbytes p.file hpfile file hfile p.abs abs hpabs habs hplace]
  have hstart : SameDests host (destinations host plan) disk' disk' := fun _ _ => rfl
  rcases hnames with hneg|hnames
  · have hret' : ¬0<retention plan := by
      unfold retention
      split
      · omega
      · omega
    unfold pruneAll
    rw [if_neg hret']
    exact fun res => hnew res disk' hstart
  refine (total_pruneAll henv (retention plan) preps (fun p hp name hfront d d' hsame hoff x hx => ?_)
    hstart).mono fun _ disk'' hsame res => hnew res disk'' hsame
  rw [hoff x ?_,hsame x hx]
  rintro rfl
  obtain ⟨file,hfile,abs,habs,hplace⟩ := dest_iff.mp hx
  obtain ⟨hpfile,hpabs⟩ := hfrom p hp
  have hdirs : host.realDir p.abs.dir=host.realDir abs.dir := (congrArg Path.dir hplace).symm
  have hbase : abs.base=name := congrArg Path.base hplace
  have hno := hnames p.file hpfile file hfile p.abs abs hpabs habs hdirs
  rw [hbase,hfront] at hno
  cases hno

/-- Orderly surroundings in which nothing fails but the removal of files other than one. -/
def Smooth (host : Host) (dests : List Path) (lost : Path) : Prog.Allowed (fileSystem host) :=
  fun op c disk => Orderly host dests op c disk ∧
    match op with
    | .remove p => c.fault=none ↔ host.place p=lost
    | _ => c.fault=none

theorem surroundings_smooth (host : Host) (dests : List Path) (lost : Path) :
    Surroundings host dests (Smooth host dests lost) False where
  live op disk := by
    cases op with
    | nowNanos =>
      obtain ⟨nanos,hfresh⟩ := exists_freshTime host dests disk
      exact ⟨{nanos := nanos},hfresh,rfl⟩
    | stat => exact ⟨{},rfl,rfl⟩
    | preCommit | postCommit => exact ⟨{},fun _ _ => rfl,rfl⟩
    | remove p =>
      by_cases hp : host.place p=lost
      · exact ⟨{},trivial,iff_of_true rfl hp⟩
      · exact ⟨{fault := some "operation not permitted"},trivial,iff_of_false (Option.some_ne_none _) hp⟩
    | _ => exact ⟨{},trivial,rfl⟩
  orderly _ _ _ h := h.1
  charged op c disk h hop hfault := by
    cases op with
    | remove p => exact hop p rfl
    | _ => exact hfault h.2

variable {lost : Path}

theorem total_remove_smooth {α : Type} {Q : α→Disk→Prop} (p : Path) {k : Try Unit→Files host α}
    (hself : host.place p=lost → ∀ r disk',disk'.held lost=none → SameOff lost disk disk' →
      (k r).Total (Smooth host dests lost) Q disk')
    (hother : host.place p≠lost → ∀ r,(k r).Total (Smooth host dests lost) Q disk) :
    ((request (.remove p)).bind k).Total (Smooth host dests lost) Q disk := by
  by_cases hp : host.place p=lost
  · subst hp
    refine total_request (surroundings_smooth host dests _) fun c hc => ?_
    have hnone : c.fault=none := hc.2.mpr rfl
    cases hheld : disk.held (host.place p) with
    | none =>
      have hentry : (disk.entry host p).isSome=false := by rw [isSome_entry,hheld]; rfl
      simp only [effect,attempt,unlessFault_none hnone,hentry,Bool.false_eq_true]
      exact hself rfl _ disk hheld fun _ _ => rfl
    | some =>
      have hentry : (disk.entry host p).isSome=true := by rw [isSome_entry,hheld]; rfl
      simp only [effect,attempt,unlessFault_none hnone,hentry,if_true]
      refine hself rfl _ _ ?_ fun x hx => ?_
      · rw [held_without]
        exact if_pos rfl
      · rw [held_without]
        exact if_neg (Ne.symm hx)
  · refine total_request (surroundings_smooth host dests _) fun c hc => ?_
    cases hf : c.fault with
    | none => exact absurd (hc.2.mp hf) hp
    | some =>
      simp only [effect,attempt,unlessFault_some hf]
      exact hother hp _

/-- A name with enough larger names beside it is given up. -/
theorem mem_surplus {larger : List String} (hkeep : 0<keep)
    (hmem : name∈names) (hnodup : larger.Nodup) (hlength : larger.length=keep.toNat)
    (hlarger : ∀ n∈larger,n∈names ∧ name<n) : name∈surplus keep names := by
  have hnodup' : (name::larger).Nodup := nodup_cons.mpr ⟨fun h => lt_irrefl name (hlarger name h).2,hnodup⟩
  have hsubset : ∀ n∈name::larger,n∈names := by
    intro n hn
    rcases mem_cons.mp hn with rfl|hn
    · exact hmem
    · exact (hlarger n hn).1
  have hmany : keep.toNat+1≤names.length := by
    have hle := (subperm_of_subset hnodup' hsubset).length_le
    rw [length_cons,hlength] at hle
    exact hle
  have hmore : ¬(names.length : ℤ)≤keep := by omega
  unfold surplus
  rw [if_neg hmore]
  have hperm := perm_insertionSort (·≤·) names
  have hsorted := pairwise_insertionSort (·≤·) names
  rw [← take_append_drop (names.length-keep.toNat) (names.insertionSort (·≤·))] at hperm hsorted
  obtain ⟨-,-,hcross⟩ := pairwise_append.mp hsorted
  by_contra hnot
  -- then the name and all larger ones are among the last, which are too few
  have hdrop : ∀ n∈name::larger,n∈(names.insertionSort (·≤·)).drop (names.length-keep.toNat) := by
    have hname : name∈(names.insertionSort (·≤·)).drop (names.length-keep.toNat) :=
      (mem_append.mp (hperm.mem_iff.mpr hmem)).resolve_left hnot
    intro n hn
    rcases mem_append.mp (hperm.mem_iff.mpr (hsubset n hn)) with hearly|hlate
    · rcases mem_cons.mp hn with rfl|hn
      · exact hname
      · exact absurd (hcross n hearly name hname) (not_le.mpr (hlarger n hn).2)
    · exact hlate
  have hle := (subperm_of_subset hnodup' hdrop).length_le
  rw [length_cons,length_drop,length_insertionSort] at hle
  omega

/-- Names that sort right after a given one. -/
def crowdName (base : String) (i : ℕ) : String := base++String.ofList (List.replicate (i+1) 'z')

theorem toList_crowdName (base : String) (i : ℕ) : (crowdName base i).toList=base.toList++List.replicate (i+1) 'z' := by
  rw [crowdName,String.toList_append,String.toList_ofList]

theorem lt_crowdName (base : String) (i : ℕ) : base<crowdName base i := by
  have hlt : ∀ chars : List Char,chars<chars++ 'z' ::List.replicate i 'z' := by
    intro chars
    induction chars with
    | nil => exact List.Lex.nil
    | cons ch rest ih => exact List.Lex.cons ih
  rw [String.lt_iff_toList_lt,toList_crowdName]
  exact hlt base.toList

theorem crowdName_injective (base : String) : Function.Injective (crowdName base) := by
  intro i j h
  have hlength := congrArg String.length h
  simp only [crowdName,String.length_append,String.length_ofList,length_replicate] at hlength
  omega

def crowdNames (base : String) (n : ℕ) : List String := (List.range n).map (crowdName base)

theorem crowdNames_nodup (base : String) (n : ℕ) : (crowdNames base n).Nodup :=
  nodup_range.map (crowdName_injective base)

/-- Empty files under the names of a crowd. -/
def crowd (dir base : String) (n : ℕ) : Disk :=
  {entries := (crowdNames base n).map fun name => ⟨⟨dir,name⟩,some [],0,0,0⟩}

theorem held_crowd {n : ℕ} {content : Option Bytes}
    (h : (crowd dir base n).held x=some content) : content=some [] ∧ x.base∈crowdNames base n := by
  obtain ⟨e,he,rfl⟩ := Option.map_eq_some_iff.mp h
  obtain ⟨hmem,rfl⟩ := lookup_some he
  obtain ⟨name,hname,rfl⟩ := mem_map.mp hmem
  exact ⟨rfl,hname⟩

theorem held_crowd_of_mem (dir : String) {n : ℕ} (h : name∈crowdNames base n) :
    (crowd dir base n).held ⟨dir,name⟩=some (some []) := by
  obtain ⟨e,he⟩ : ∃ e,lookup Entry.place ⟨dir,name⟩ (crowd dir base n).entries=some e :=
    lookup_isSome ⟨_,mem_map.mpr ⟨name,h,rfl⟩,rfl⟩
  have hheld : (crowd dir base n).held ⟨dir,name⟩=some e.content := by
    unfold Disk.held
    rw [he,Option.map_some]
  rw [hheld,(held_crowd hheld).1]

theorem total_removeNames_smooth
    (hkeep : ∀ d d',I d → d'.held lost=none → SameOff lost d d' → I d') (names : List String)
    (firstErr : Err) (hi : I disk) :
    (removeNames dir firstErr names).Total (Smooth host dests lost) (fun _ disk' => I disk' ∧
      ((∃ name∈names,host.place ⟨dir,name⟩=lost) ∨ disk.held lost=none → disk'.held lost=none)) disk := by
  induction names generalizing firstErr disk with
  | nil =>
    refine ⟨hi,fun h => h.resolve_left ?_⟩
    rintro ⟨name,hname,-⟩
    exact not_mem_nil hname
  | cons name rest ih =>
    refine total_remove_smooth ⟨dir,name⟩ (fun _ r disk₁ hgone hoff => ?_) fun hne r => ?_
    · have hrest := fun firstErr => ih firstErr (hkeep disk disk₁ hi hgone hoff)
      cases r with
      | error | ok => exact (hrest _).mono fun _ disk' h => ⟨h.1,fun _ => h.2 (.inr hgone)⟩
    have hrest : ∀ firstErr,(removeNames dir firstErr rest).Total (Smooth host dests lost) (fun _ disk' =>
        I disk' ∧ ((∃ n∈name::rest,host.place ⟨dir,n⟩=lost) ∨ disk.held lost=none → disk'.held lost=none)) disk := by
      intro firstErr
      refine (ih firstErr hi).mono fun _ disk' h => ⟨h.1,fun hwhy => h.2 (hwhy.imp_left ?_)⟩
      rintro ⟨n,hn,hplace⟩
      rcases mem_cons.mp hn with rfl|hn
      · exact absurd hplace hne
      · exact ⟨n,hn,hplace⟩
    cases r with
    | error | ok => exact hrest _

section Lost

variable {a b : Path} {n : ℕ}

/-- A crowd of files stands beside a file that is there or has been deleted. -/
structure Ripe (host : Host) (b : Path) (n : ℕ) (disk : Disk) : Prop where
  crowded : ∀ name∈crowdNames b.base n,∃ data,disk.held ⟨host.realDir b.dir,name⟩=some (some data)
  /-- Nothing but a file is at the place in question. -/
  single : disk.held (host.place b)=none ∨ ∃ data,disk.held (host.place b)=some (some data)

theorem Ripe.lose (h : Ripe host b n d) (hgone : d'.held (host.place b)=none)
    (hoff : SameOff (host.place b) d d') : Ripe host b n d' := by
  refine ⟨fun name hname => ?_,.inl hgone⟩
  rw [hoff]
  · exact h.crowded name hname
  intro heq
  obtain ⟨i,-,rfl⟩ := mem_map.mp hname
  exact (lt_crowdName b.base i).ne (congrArg Path.base heq).symm

section

variable (hdirs : host.realDir a.dir=host.realDir b.dir) (hfront : hasPrefix b.base (a.base++backupSuffix)=true)
  (hpos : 0<keep)
include hdirs hfront hpos

theorem total_pruneBackups_smooth (q : Path) (hripe : Ripe host b keep.toNat disk) :
    (pruneBackups q keep).Total (Smooth host dests (host.place b)) (fun _ disk' =>
      Ripe host b keep.toNat disk' ∧ (q=a ∨ disk.held (host.place b)=none → disk'.held (host.place b)=none)) disk := by
  unfold pruneBackups
  rw [if_neg (not_le.mpr hpos)]
  refine total_readDir (surroundings_smooth host dests _) q.dir (fun _ h => h.elim) ?_
  refine (total_removeNames_smooth (fun d d' h => h.lose) _ none hripe).mono fun _ disk' h => ?_
  refine ⟨h.1,fun hwhy => ?_⟩
  rcases hwhy with rfl|hgone
  · rcases hripe.single with hgone|⟨data,hdata⟩
    · exact h.2 (.inr hgone)
    have hplace : ∀ name,host.place ⟨q.dir,name⟩=⟨host.realDir b.dir,name⟩ := by
      intro name
      rw [Host.place,hdirs]
    have hlisted : ∀ name data,disk.held ⟨host.realDir b.dir,name⟩=some (some data) →
        hasPrefix name (q.base++backupSuffix)=true →
        name∈backupNames q.base (listing host disk q.dir) := by
      intro name data hheld hname
      rw [← hplace name] at hheld
      exact mem_backupNames.mpr ⟨mem_listing hheld,hname⟩
    refine h.2 (.inl ⟨b.base,?_,hplace b.base⟩)
    refine mem_surplus hpos (hlisted b.base data hdata hfront) (crowdNames_nodup b.base keep.toNat)
      ?_ fun name hname => ?_
    · rw [crowdNames,length_map,length_range]
    obtain ⟨bytes,hbytes⟩ := hripe.crowded name hname
    obtain ⟨i,-,rfl⟩ := mem_map.mp hname
    refine ⟨hlisted _ bytes hbytes ?_,lt_crowdName b.base i⟩
    rw [hasPrefix, isPrefixOf_iff_prefix] at hfront ⊢
    rw [toList_crowdName]
    exact hfront.trans (prefix_append _ _)
  · exact h.2 (.inr hgone)

theorem total_pruneAll_smooth (preps : List FilePrep) (hripe : Ripe host b keep.toNat disk)
    (hwhy : (∃ p∈preps,p.abs=a) ∨ disk.held (host.place b)=none) :
    (pruneAll keep preps).Total (Smooth host dests (host.place b))
      (fun _ disk' => disk'.held (host.place b)=none) disk := by
  unfold pruneAll
  rw [if_pos hpos]
  induction preps generalizing disk with
  | nil =>
    refine hwhy.resolve_left ?_
    rintro ⟨p,hp,-⟩
    exact not_mem_nil hp
  | cons p rest ih =>
    refine total_bind.mpr (total_seq (total_pruneBackups_smooth hdirs hfront hpos p.abs hripe) fun _ disk₁ h => ?_)
    refine ih h.1 ?_
    by_cases hp : p.abs=a
    · exact .inr (h.2 (.inl hp))
    rcases hwhy with ⟨q,hq,hqa⟩|hgone
    · rcases mem_cons.mp hq with rfl|hq
      · exact absurd hqa hp
      · exact .inl ⟨q,hq,hqa⟩
    · exact .inr (h.2 (.inr hgone))

end

theorem planned_crowdName (ha : a∈dests) (hdirs : host.realDir a.dir=host.realDir b.dir)
    (hfront : hasPrefix b.base (a.base++backupSuffix)=true) (i : ℕ) :
    Planned host dests ⟨host.realDir b.dir,crowdName b.base i⟩ := by
  rw [hasPrefix, isPrefixOf_iff_prefix] at hfront
  obtain ⟨chars,hchars⟩ := hfront
  refine ⟨a,ha,backupSuffix++String.ofList (chars++List.replicate (i+1) 'z'),?_,.inr (.inr ?_)⟩
  · rw [Host.place,hdirs,DeployFileSystem.Path.mk.injEq]
    refine ⟨rfl,?_⟩
    rw [← String.toList_inj,toList_crowdName,← hchars]
    simp only [String.toList_append,String.toList_ofList,append_assoc]
  · rw [hasPrefix, isPrefixOf_iff_prefix,String.toList_append]
    exact prefix_append _ _

section

variable (hsha : Function.Injective host.sha256) (hret : plan.backupRetention≠ -1)
  (hvalid : validatePlan host plan=none)
include hsha hret hvalid

theorem total_apply_smooth (hfree : before.locks=[])
    (hdir : ∀ x,Dest host (destinations host plan) x → before.held x≠some none) (lost : Path) :
    (apply host plan).Total (Smooth host (destinations host plan) lost) (fun out _ => out.error=none)
      before := by
  have henv := surroundings_smooth host (destinations host plan) lost
  refine total_apply henv hsha hret hvalid hfree hdir (fun _ _ _ _ h => h) (fun _ _ h => h.elim)
    (fun _ _ => rfl) fun preps disk' _ _ _ _ => ?_
  exact (total_pruneAll henv (retention plan) preps (fun _ _ _ _ _ _ _ _ => trivial)
    trivial).mono fun _ _ _ _ => rfl

theorem exists_lost_destination (hpos : 0<retention plan) {f g : File}
    (hf : f∈plan.files) (hg : g∈plan.files) (ha : host.abs f.path=.ok a) (hb : host.abs g.path=.ok b)
    (hdirs : host.realDir a.dir=host.realDir b.dir) (hfront : hasPrefix b.base (a.base++backupSuffix)=true) :
    ∃ out after,(apply host plan).Exec (Orderly host (destinations host plan))
      (crowd (host.realDir b.dir) b.base (retention plan).toNat) out after ∧
      out.error=none ∧ after.held (host.place b)=none := by
  have henv := surroundings_smooth host (destinations host plan) (host.place b)
  have hdestb : Dest host (destinations host plan) (host.place b) := dest_iff.mpr ⟨g,hg,b,hb,rfl⟩
  have hamem : a∈destinations host plan := by
    refine mem_filterMap.mpr ⟨f,hf,?_⟩
    rw [ha]
    rfl
  have hnocrowd : (crowd (host.realDir b.dir) b.base (retention plan).toNat).held (host.place b)=none := by
    cases hheld : (crowd (host.realDir b.dir) b.base (retention plan).toNat).held (host.place b) with
    | none => rfl
    | some =>
      obtain ⟨i,-,hi⟩ := mem_map.mp (held_crowd hheld).2
      exact absurd hi.symm (lt_crowdName b.base i).ne
  have htotal : (apply host plan).Total (Smooth host (destinations host plan) (host.place b))
      (fun out after => out.error=none ∧ after.held (host.place b)=none)
      (crowd (host.realDir b.dir) b.base (retention plan).toNat) := by
    refine total_apply henv hsha hret hvalid rfl (fun x _ hnone => ?_) (fun out d d' hentries h => ?_)
      (fun _ _ h => h.elim) (fun res hmatch => ?_) fun preps disk' hfrom hcover hdeployed huntouched => ?_
    · cases (held_crowd hnone).1
    · exact ⟨h.1,(held_congr hentries _).trans h.2⟩
    · have hheld := hmatch g hg b hb
      rw [hnocrowd] at hheld
      cases hheld
    have hripe : Ripe host b (retention plan).toNat disk' := by
      constructor
      · intro name hname
        by_cases hdest : Dest host (destinations host plan) ⟨host.realDir b.dir,name⟩
        · obtain ⟨p,-,-,hheld⟩ := hdeployed _ hdest
          exact ⟨_,hheld⟩
        have hold := held_crowd_of_mem (host.realDir b.dir) hname
        obtain ⟨i,-,rfl⟩ := mem_map.mp hname
        refine ⟨[],(huntouched _ (planned_crowdName hamem hdirs hfront i) hdest ?_).trans hold⟩
        rw [hold]
        rfl
      · obtain ⟨p,-,-,hheld⟩ := hdeployed _ hdestb
        exact .inr ⟨_,hheld⟩
    refine (total_pruneAll_smooth hdirs hfront hpos preps hripe (.inl (hcover f hf a ha))).mono ?_
    exact fun _ _ hgone _ => ⟨rfl,hgone⟩
  obtain ⟨out,after,hexec,hout⟩ := htotal.exists_exec
  exact ⟨out,after,hexec.mono fun _ _ _ h => h.1,hout⟩

end

end Lost

/-- The all-or-nothing guarantee holds for every disk and every pattern of failures
exactly for plans whose destinations do not clash as one place with different bytes,
nor, where backups are pruned, as a name and the name of its backup. -/
theorem apply_allOrNothing_iff (host : Host) (hsha : Function.Injective host.sha256) (plan : Plan)
    (hret : plan.backupRetention≠ -1) (hvalid : validatePlan host plan=none) :
    (∀ before : Disk,before.locks=[] → (apply host plan).Total (Orderly host (destinations host plan))
      (AllOrNothing host plan before) before) ↔
    SamePlaceSameBytes host plan ∧ (plan.backupRetention< -1 ∨ NoneNamedAsBackup host plan) := by
  constructor
  · intro hall
    constructor
    · intro f hf g hg a b ha hb hplace
      have hempty : ∀ x,Dest host (destinations host plan) x → (⟨[],[]⟩ : Disk).held x≠some none := nofun
      obtain ⟨out,after,hexec,hout⟩ :=
        (total_apply_smooth hsha hret hvalid (rfl : (⟨[],[]⟩ : Disk).locks=[]) hempty (host.place a)).exists_exec
      have hexec' : (apply host plan).Exec (Orderly host (destinations host plan)) ⟨[],[]⟩ out after :=
        hexec.mono fun _ _ _ h => h.1
      have hall' := (hall ⟨[],[]⟩ rfl).of_exec hexec'
      have hsame := hall'.new hout hf ha
      rw [hplace,hall'.new hout hg hb] at hsame
      simpa using hsame.symm
    · by_cases hneg : plan.backupRetention< -1
      · exact .inl hneg
      refine .inr fun f hf g hg a b ha hb hdirs => ?_
      by_contra hfront
      rw [Bool.not_eq_false] at hfront
      have hpos : 0<retention plan := by
        unfold retention defaultBackupRetention
        split
        · decide
        · omega
      obtain ⟨out,after,hexec,hout,hgone⟩ := exists_lost_destination hsha hret hvalid hpos hf hg ha hb hdirs hfront
      have hheld := ((hall _ rfl).of_exec hexec).new hout hg hb
      rw [hgone] at hheld
      cases hheld
  · rintro ⟨hbytes,hnames⟩ before hfree
    exact allOrNothing_of_apart hsha hret hvalid hbytes hnames hfree

def sampleHost : Host where
  abs text := .ok ⟨"/etc/tls",text⟩
  realDir dir := dir
  sha256 bytes := bytes
  masked perm := perm
  euid := 0
  egid := 0

def samplePlan : Plan where
  files := [{path := "cert.pem", bytes := [1]},{path := "chain.pem", bytes := [2]}]
  preCommit := true
  postCommit := true

/-- Two files and both hooks, from any disk without locks. -/
theorem apply_allOrNothing_sample : Function.Injective sampleHost.sha256 ∧
    samplePlan.backupRetention≠ -1 ∧ validatePlan sampleHost samplePlan=none ∧
    ∀ before : Disk,before.locks=[] → (apply sampleHost samplePlan).Total
      (Orderly sampleHost (destinations sampleHost samplePlan)) (AllOrNothing sampleHost samplePlan before)
      before := by
  have hsha : Function.Injective sampleHost.sha256 := fun _ _ h => h
  have hret : samplePlan.backupRetention≠ -1 := by decide
  have hvalid : validatePlan sampleHost samplePlan=none := by decide
  have hbytes : ∀ f∈samplePlan.files,∀ g∈samplePlan.files,f.path=g.path → f.bytes=g.bytes := by decide
  have hnames : ∀ f∈samplePlan.files,∀ g∈samplePlan.files,hasPrefix g.path (f.path++backupSuffix)=false := by decide
  refine ⟨hsha,hret,hvalid,(apply_allOrNothing_iff sampleHost hsha samplePlan hret hvalid).mpr ⟨?_,.inr ?_⟩⟩
  · intro f hf g hg a b ha hb hplace
    cases ha
    cases hb
    exact hbytes f hf g hg (congrArg Path.base hplace)
  · intro f hf g hg a b ha hb _
    cases ha
    cases hb
    exact hnames f hf g hg

/-- A file and a second one named like its backup. -/
def clashPlan : Plan where
  files := [{path := "cert.pem", bytes := [1]},{path := "cert.pem.certctl-bak.0", bytes := [2]}]
  backupRetention := 1

/-- The second file of this plan is put in place and then pruned, and no error is returned. -/
theorem apply_prunes_destination : clashPlan.backupRetention≠ -1 ∧
    validatePlan sampleHost clashPlan=none ∧ ∃ before out after,before.locks=[] ∧
      (apply sampleHost clashPlan).Exec (Orderly sampleHost (destinations sampleHost clashPlan)) before out after ∧
      ¬AllOrNothing sampleHost clashPlan before out after := by
  have hret : clashPlan.backupRetention≠ -1 := by decide
  have hvalid : validatePlan sampleHost clashPlan=none := by decide
  have hfront : hasPrefix "cert.pem.certctl-bak.0" ("cert.pem"++backupSuffix)=true := by decide
  have hsecond : (⟨"cert.pem.certctl-bak.0",[2],0,"",""⟩ : File)∈clashPlan.files := mem_cons_of_mem _ mem_cons_self
  obtain ⟨out,after,hexec,hout,hgone⟩ := exists_lost_destination (fun _ _ h => h) hret hvalid (by decide)
    (mem_cons_self : (⟨"cert.pem",[1],0,"",""⟩ : File)∈clashPlan.files) hsecond rfl rfl rfl hfront
  refine ⟨hret,hvalid,_,out,after,rfl,hexec,?_⟩
  intro hall
  have hheld := hall.new hout hsecond rfl
  rw [hgone] at hheld
  cases hheld

end Certctl.DeployAtomicity
