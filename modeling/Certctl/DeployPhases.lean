import Certctl.DeployFileRules

/-!
# The phases of a deployment

What each phase of a deployment leaves on the disk, for every failure.
The files of the plan are followed through the phases: backups hold the
old bytes, temporary files the new ones, neither stands at a destination,
and the renames move from the old to the new state one destination at a
time. Until the pruning of old backups the call has either put every new
file in place, or left every destination as it was, or reported that its
rollback failed.
-/

namespace Certctl.DeployPhases

open AtomicProgram Prog DeployFileSystem DeployApply DeployFileRules DomainRecords RecordTable
open List

variable {d₁ d₂ d₃ before after disk' : Disk} {y abs tempPath : Path} {err : GoError} {p : FilePrep}
  {preps done rest : List FilePrep} {res : Result} {targets : List (File×Path)}

variable {host : Host} {dests : List Path} {ok : Prog.Allowed (fileSystem host)} {Faulty : Prop} {disk : Disk}

def Kept (host : Host) (dests : List Path) (before after : Disk) : Prop :=
  ∀ x,Dest host dests x ∨ (before.held x).isSome=true → after.held x=before.held x

theorem Kept.refl (disk : Disk) : Kept host dests disk disk := fun _ _ => rfl

/-- A new file was made at a free place of the plan that is no destination. -/
structure Beside (host : Host) (dests : List Path) (before after : Disk) (y : Path) : Prop where
  free : before.held y=none
  apart : ¬Dest host dests y
  planned : Planned host dests y
  off : SameOff y before after

variable {x : Path}

theorem Beside.ne (h : Beside host dests before after y)
    (hx : Dest host dests x ∨ (before.held x).isSome=true) : x≠y := by
  rintro rfl
  rcases hx with hdest|hsome
  · exact h.apart hdest
  rw [h.free] at hsome
  cases hsome

theorem Beside.kept (h : Beside host dests before after y) :
    Kept host dests before after := fun x hx => h.off x (h.ne hx)

theorem planned_stamped (host : Host) (habs : abs∈dests) {suffix : String}
    (hsuffix : suffix=tempSuffix ∨ suffix=backupSuffix) (nanos : ℕ) :
    Planned host dests (host.place (stamped abs suffix nanos)) := by
  have hfront : hasPrefix (suffix++nanosText nanos) suffix=true := by
    rw [hasPrefix, isPrefixOf_iff_prefix,String.toList_append]
    exact prefix_append _ _
  refine ⟨abs,habs,suffix++nanosText nanos,?_,?_⟩
  · rw [stamped,String.append_assoc]
  rcases hsuffix with rfl|rfl
  · exact .inr (.inl hfront)
  · exact .inr (.inr hfront)

theorem planned_of_dest (h : Dest host dests x) : Planned host dests x := by
  obtain ⟨abs,habs,rfl⟩ := h
  exact ⟨abs,habs,"",by rw [String.append_empty],.inl rfl⟩

section

variable (henv : Surroundings host dests ok Faulty)
include henv

section

variable {path : Path} {res : ResolvedOwnership} {Q : Try Unit→Disk→Prop}
  (hsome : (disk.held (host.place path)).isSome=true)
  (herr : ∀ err disk',Faulty → SameHeld disk disk' → Q (.error err) disk')
  (hok : ∀ disk',SameHeld disk disk' → Q (.ok ()) disk')
include hsome herr hok

theorem total_applyOwner : (applyOwner host path res).Total ok Q disk := by
  unfold applyOwner
  split
  · refine total_chown henv hsome (fun err hfaulty => ?_) fun disk' hsame => ?_
    · dsimp only
      split
      · exact herr _ disk hfaulty fun _ => rfl
      · exact hok disk fun _ => rfl
    · exact hok disk' hsame
  · exact hok disk fun _ => rfl

theorem total_applyOwnership : (applyOwnership path res).Total ok Q disk := by
  unfold applyOwnership
  split
  · refine total_chmod henv hsome (fun err hfaulty => ?_) fun disk₁ hsame => ?_
    · exact herr _ disk hfaulty fun _ => rfl
    have hsome₁ : (disk₁.held (host.place path)).isSome=true := by rw [hsame]; exact hsome
    refine total_applyOwner henv hsome₁ (fun err disk' hfaulty h => ?_) fun disk' h => ?_
    · exact herr err disk' hfaulty fun x => (h x).trans (hsame x)
    · exact hok disk' fun x => (h x).trans (hsame x)
  · exact total_applyOwner henv hsome herr hok

end

variable {Q : Try Path→Disk→Prop}

theorem total_fillTempFile (data : Bytes) (hopen : (disk.held (host.place tempPath)).isSome=true)
    (herr : ∀ err disk',Faulty → SameOff (host.place tempPath) disk disk' → Q (.error err) disk')
    (hok : ∀ disk',disk'.held (host.place tempPath)=some (some data) →
      SameOff (host.place tempPath) disk disk' → Q (.ok tempPath) disk') :
    (fillTempFile tempPath data).Total ok Q disk := by
  have hdrop : ∀ err disk₁,Faulty → SameOff (host.place tempPath) disk disk₁ →
      (abandon tempPath err).Total ok Q disk₁ := by
    intro err disk₁ hfaulty hoff
    exact total_discard henv tempPath fun _ disk' h => herr err disk' hfaulty (hoff.trans h)
  refine total_write henv tempPath data hopen (fun err disk₁ hfaulty hoff => ?_) fun disk₁ hheld hoff => ?_
  · refine total_close henv tempPath (fun _ _ => ?_) ?_ <;> exact hdrop err disk₁ hfaulty hoff
  refine total_sync henv tempPath (fun err hfaulty => ?_) ?_
  · refine total_close henv tempPath (fun _ _ => ?_) ?_ <;> exact hdrop err disk₁ hfaulty hoff
  refine total_close henv tempPath (fun err hfaulty => ?_) ?_
  · exact hdrop err disk₁ hfaulty hoff
  · exact hok disk₁ hheld hoff

theorem total_writeTempFile (habs : abs∈dests) (data : Bytes)
    (herr : ∀ err disk',Faulty → Kept host dests disk disk' → Q (.error err) disk')
    (hok : ∀ tempPath disk',Beside host dests disk disk' (host.place tempPath) →
      disk'.held (host.place tempPath)=some (some data) → Q (.ok tempPath) disk') :
    (writeTempFile abs data).Total ok Q disk := by
  refine total_nowNanos henv fun nanos hfresh => ?_
  obtain ⟨hfree,hapart⟩ := hfresh abs habs tempSuffix mem_cons_self
  have hplanned := planned_stamped host habs (.inl rfl) nanos
  refine total_openExcl henv (stamped abs tempSuffix nanos) 384 hfree (fun err hfaulty => ?_)
    fun disk₁ hnew hoff => ?_
  · exact herr err disk hfaulty (Kept.refl disk)
  have hopen := Option.isSome_of_eq_some hnew
  refine total_fillTempFile henv data hopen (fun err disk' hfaulty h => ?_) fun disk' hheld h => ?_
  · exact herr err disk' hfaulty (Beside.kept ⟨hfree,hapart,hplanned,hoff.trans h⟩)
  · exact hok _ disk' ⟨hfree,hapart,hplanned,hoff.trans h⟩ hheld

end

def SameDests (host : Host) (dests : List Path) (before after : Disk) : Prop :=
  ∀ x,Dest host dests x → after.held x=before.held x

theorem SameDests.trans (h₁ : SameDests host dests d₁ d₂)
    (h₂ : SameDests host dests d₂ d₃) : SameDests host dests d₁ d₃ :=
  fun x hx => (h₂ x hx).trans (h₁ x hx)

theorem Kept.sameDests (h : Kept host dests before after) :
    SameDests host dests before after := fun x hx => h x (.inl hx)

/-- Files of the plan that existed and stand at no destination are as before. -/
def Untouched (host : Host) (dests : List Path) (before after : Disk) : Prop :=
  ∀ x,Planned host dests x → ¬Dest host dests x → (before.held x).isSome=true → after.held x=before.held x

theorem Untouched.trans_kept (h₁ : Untouched host dests d₁ d₂)
    (h₂ : Kept host dests d₂ d₃) : Untouched host dests d₁ d₃ := by
  intro x hplanned hapart hsome
  have hfirst := h₁ x hplanned hapart hsome
  rw [h₂ x (.inr (hfirst.symm ▸ hsome)),hfirst]

theorem Untouched.trans_planned (h₁ : Untouched host dests d₁ d₂)
    (h₂ : SamePlanned host dests d₂ d₃) : Untouched host dests d₁ d₃ :=
  fun x hplanned hapart hsome => (h₂ x hplanned).trans (h₁ x hplanned hapart hsome)

def tempPlace (host : Host) (p : FilePrep) : Option Path := p.tempPath.map host.place

def backupPlace (host : Host) (p : FilePrep) : Option Path := p.backupTo.map host.place

/-- A backup holds the old bytes, and there is none exactly where nothing existed. -/
def Backed (host : Host) (dests : List Path) (before disk : Disk) (p : FilePrep) : Prop :=
  match backupPlace host p with
  | none => before.held (host.place p.abs)=none
  | some y => ¬Dest host dests y ∧ Planned host dests y ∧ ∃ data,disk.held y=some (some data) ∧
      before.held (host.place p.abs)=some (some data)

/-- A temporary file holds the new bytes, at a place that was free. -/
def Staged (host : Host) (dests : List Path) (before disk : Disk) (p : FilePrep) : Prop :=
  ∃ y,tempPlace host p=some y ∧ ¬Dest host dests y ∧ Planned host dests y ∧
    disk.held y=some (some p.file.bytes) ∧ before.held y=none

theorem Backed.keep (h : Backed host dests before disk p)
    (hkeep : ∀ y,backupPlace host p=some y → ¬Dest host dests y → Planned host dests y →
      (disk.held y).isSome=true → disk'.held y=disk.held y) : Backed host dests before disk' p := by
  unfold Backed at h ⊢
  cases hy : backupPlace host p with
  | none =>
    simp only [hy] at h ⊢
    exact h
  | some y =>
    simp only [hy] at h ⊢
    obtain ⟨hapart,hplanned,data,hheld,hold⟩ := h
    refine ⟨hapart,hplanned,data,?_,hold⟩
    rw [hkeep y hy hapart hplanned (by rw [hheld]; rfl),hheld]

theorem Staged.keep (h : Staged host dests before disk p)
    (hkeep : ∀ y,tempPlace host p=some y → ¬Dest host dests y → Planned host dests y →
      (disk.held y).isSome=true → disk'.held y=disk.held y) : Staged host dests before disk' p := by
  obtain ⟨y,hy,hapart,hplanned,hheld,hfree⟩ := h
  refine ⟨y,hy,hapart,hplanned,?_,hfree⟩
  rw [hkeep y hy hapart hplanned (by rw [hheld]; rfl),hheld]

def KeptOff (host : Host) (dests : List Path) (y : Path) (before after : Disk) : Prop :=
  ∀ x,x≠y → Dest host dests x ∨ (before.held x).isSome=true → after.held x=before.held x

section

variable (henv : Surroundings host dests ok Faulty)
include henv

variable {Q : Err→Disk→Prop}

theorem total_restoreBytes (habs : p.abs∈dests) (bytes : Bytes)
    (herr : ∀ err disk',KeptOff host dests (host.place p.abs) disk disk' → Q (some err) disk')
    (hok : ∀ disk',KeptOff host dests (host.place p.abs) disk disk' →
      disk'.held (host.place p.abs)=some (some bytes) → Q none disk') :
    (restoreBytes p bytes).Total ok Q disk := by
  refine total_bind.mpr ?_
  refine total_writeTempFile henv habs bytes (fun err disk₁ _ hkept => ?_) fun tempPath disk₁ hbeside hheld => ?_
  · exact herr _ disk₁ fun x _ hx => hkept x hx
  have hsome := Option.isSome_of_eq_some hheld
  -- whatever happens to the temporary file, destinations and existing places keep their bytes
  have hdrop : ∀ disk₂ disk₃,SameHeld disk₁ disk₂ → SameOff (host.place tempPath) disk₂ disk₃ →
      KeptOff host dests (host.place p.abs) disk disk₃ := by
    intro disk₂ disk₃ hsame hoff x _ hx
    rw [hoff x (hbeside.ne hx),hsame x,hbeside.kept x hx]
  refine total_bind.mpr ?_
  refine total_applyOwnership henv hsome (fun err disk₂ _ hsame => ?_) fun disk₂ hsame => ?_
  · exact total_discard henv tempPath fun _ disk₃ hoff => herr _ disk₃ (hdrop disk₂ disk₃ hsame hoff)
  have hsrc : disk₂.held (host.place tempPath)=some (some bytes) := (hsame _).trans hheld
  refine total_rename henv tempPath p.abs hsrc (fun err _ => ?_) fun disk₃ hnew hoff => ?_
  · exact total_discard henv tempPath fun _ disk₃ hoff => herr _ disk₃ (hdrop disk₂ disk₃ hsame hoff)
  refine hok disk₃ (fun x hne hx => ?_) hnew
  rw [hoff x (hbeside.ne hx) hne,hsame x,hbeside.kept x hx]

theorem total_restoreOne (habs : p.abs∈dests) (hbacked : Backed host dests before disk p)
    (herr : ∀ err disk',KeptOff host dests (host.place p.abs) disk disk' → Q (some err) disk')
    (hok : ∀ disk',KeptOff host dests (host.place p.abs) disk disk' →
      disk'.held (host.place p.abs)=before.held (host.place p.abs) → Q none disk') :
    (restoreOne p).Total ok Q disk := by
  unfold restoreOne
  cases hb : p.backupTo with
  | none =>
    have hold : before.held (host.place p.abs)=none := by
      simpa only [Backed,backupPlace,hb,Option.map_none] using hbacked
    refine total_remove henv p.abs (fun err hexist => ?_) fun disk' hnone hoff => ?_
    · dsimp only
      split
      · rename_i his
        exact hok disk (fun _ _ _ => rfl) ((hexist his).trans hold.symm)
      · exact herr err disk fun _ _ _ => rfl
    · exact hok disk' (fun x hne _ => hoff x hne) (hnone.trans hold.symm)
  | some backupPath =>
    obtain ⟨data,hheld,hold⟩ : ∃ data,disk.held (host.place backupPath)=some (some data) ∧
        before.held (host.place p.abs)=some (some data) := by
      simp only [Backed,backupPlace,hb] at hbacked
      exact hbacked.2.2
    refine total_readFile henv backupPath (fun err _ => ?_) fun bytes hbytes => ?_
    · exact herr _ disk fun _ _ _ => rfl
    have heq : bytes=data := by
      rw [hheld] at hbytes
      simpa using hbytes.symm
    subst heq
    refine total_restoreBytes henv habs bytes herr fun disk' hkept hnew => ?_
    exact hok disk' hkept (hnew.trans hold.symm)

theorem total_restoreFrom (ps : List FilePrep)
    (hin : ∀ p∈ps,p.abs∈dests) (firstErr : Err) (hbacked : ∀ p∈ps,Backed host dests before disk p) :
    (restoreFrom firstErr ps).Total ok (fun r disk' =>
      (∀ x,(∀ p∈ps,host.place p.abs≠x) → Dest host dests x → disk'.held x=disk.held x) ∧
      (r=none → firstErr=none ∧ ∀ p∈ps,disk'.held (host.place p.abs)=before.held (host.place p.abs)))
      disk := by
  induction ps generalizing firstErr disk with
  | nil => exact ⟨fun _ _ _ => rfl,fun h => ⟨h,forall_mem_nil _⟩⟩
  | cons p rest ih =>
    refine total_bind.mpr ?_
    have hinrest : ∀ q∈rest,q.abs∈dests := fun q hq => hin q (mem_cons_of_mem p hq)
    have hnext : ∀ err disk₁,KeptOff host dests (host.place p.abs) disk disk₁ →
        (err=none → disk₁.held (host.place p.abs)=before.held (host.place p.abs)) →
        (restoreFrom (firstErr.or err) rest).Total ok (fun r disk' =>
          (∀ x,(∀ q∈p::rest,host.place q.abs≠x) → Dest host dests x → disk'.held x=disk.held x) ∧
          (r=none → firstErr=none ∧
            ∀ q∈p::rest,disk'.held (host.place q.abs)=before.held (host.place q.abs))) disk₁ := by
      intro err disk₁ hkept hrestored
      have hbacked₁ : ∀ q∈rest,Backed host dests before disk₁ q := by
        intro q hq
        refine (hbacked q (mem_cons_of_mem p hq)).keep fun y _ hapart _ hsome => ?_
        refine hkept y ?_ (.inr hsome)
        rintro rfl
        exact hapart ⟨p.abs,hin p mem_cons_self,rfl⟩
      refine (ih hinrest (firstErr.or err) hbacked₁).mono fun r disk' hr => ?_
      refine ⟨fun x hx hdest => ?_,fun hnone => ?_⟩
      · rw [hr.1 x (fun q hq => hx q (mem_cons_of_mem p hq)) hdest]
        exact hkept x (Ne.symm (hx p mem_cons_self)) (.inl hdest)
      obtain ⟨hor,hrest⟩ := hr.2 hnone
      obtain ⟨hfirst,herr⟩ := Option.or_eq_none_iff.mp hor
      refine ⟨hfirst,fun q hq => ?_⟩
      rcases mem_cons.mp hq with rfl|hq
      · by_cases hagain : ∃ q'∈rest,host.place q'.abs=host.place q.abs
        · obtain ⟨q',hq',hplace⟩ := hagain
          rw [← hplace]
          exact hrest q' hq'
        · rw [hr.1 _ (fun q' hq' h => hagain ⟨q',hq',h⟩) ⟨q.abs,hin q mem_cons_self,rfl⟩]
          exact hrestored herr
      · exact hrest q hq
    refine total_restoreOne henv (hin p mem_cons_self) (hbacked p mem_cons_self)
      (fun err disk₁ hkept => ?_) fun disk₁ hkept hheld => ?_
    · exact hnext (some err) disk₁ hkept nofun
    · exact hnext none disk₁ hkept fun _ => hheld

theorem total_removeEach {pick : FilePrep→Option Path}
    (hapart : ∀ p∈preps,∀ y,(pick p).map host.place=some y → ¬Dest host dests y) :
    (removeEach pick preps).Total ok (fun _ disk' => SameDests host dests disk disk') disk := by
  have hstart : SameDests host dests disk disk := fun _ _ => rfl
  refine total_forEach (S := fileSystem host) (I := fun disk' => SameDests host dests disk disk') preps _
    (fun p hp disk₁ hsame => ?_) hstart
  cases hpick : pick p with
  | none => exact hsame
  | some path =>
    have hne := hapart p hp (host.place path) (by rw [hpick,Option.map_some])
    refine total_discard henv path fun _ disk₂ hoff x hx => ?_
    rw [hoff x fun h => hne (h ▸ hx),hsame x hx]

end

theorem Backed.apart (h : Backed host dests before disk p) (hy : backupPlace host p=some y) : ¬Dest host dests y := by
  simp only [Backed,hy] at h
  exact h.1

theorem Backed.taken (h : Backed host dests before disk p)
    (hy : backupPlace host p=some y) : (disk.held y).isSome=true := by
  simp only [Backed,hy] at h
  obtain ⟨-,-,data,hheld,-⟩ := h
  rw [hheld]
  rfl

section

variable (henv : Surroundings host dests ok Faulty)
include henv

theorem total_resolveNames (res : ResolvedOwnership) {owner group : String} (howner : owner≠"") (hgroup : group≠"")
    {Q : Try ResolvedOwnership→Disk→Prop} (herr : ∀ err,Faulty → Q (.error err) disk)
    (hok : ∀ res,Q (.ok res) disk) : (resolveNames res owner group).Total ok Q disk := by
  have hgid : ∀ {P : Try ℤ→Disk→Prop},(∀ err,Faulty → P (.error err) disk) → (∀ gid,P (.ok gid) disk) →
      (lookupGID group : Files host _).Total ok P disk := by
    intro P hbad hgood
    simp only [lookupGID,lookupID,if_neg hgroup]
    split
    · exact hgood _
    · exact total_lookupGroup henv group hbad hgood
  refine total_bind.mpr ?_
  simp only [lookupUID,lookupID,if_neg howner]
  split
  · exact total_bind.mpr (hgid (fun err hfaulty => herr _ hfaulty) fun gid => hok _)
  · refine total_lookupUser henv owner (fun err hfaulty => herr _ hfaulty) fun uid => ?_
    exact total_bind.mpr (hgid (fun err hfaulty => herr _ hfaulty) fun gid => hok _)

theorem total_resolveOwnership (file : File) (defaults : FileDefaults) (existing : Option FileInfo)
    {Q : Try ResolvedOwnership→Disk→Prop} (herr : ∀ err,Faulty → Q (.error err) disk)
    (hok : ∀ res,Q (.ok res) disk) : (resolveOwnership file defaults existing).Total ok Q disk := by
  unfold resolveOwnership
  split
  · rename_i hnames
    exact total_resolveNames henv _ hnames.1 hnames.2 herr hok
  cases existing with
  | some => exact hok _
  | none =>
    dsimp only
    split
    · rename_i hnames
      exact total_resolveNames henv _ hnames.1 hnames.2 herr hok
    · exact hok _

/-- A file before anything is written for it. -/
structure Looked (host : Host) (disk : Disk) (p : FilePrep) : Prop where
  temp : p.tempPath=none
  backup : p.backupTo=none
  /-- It is known whether the destination exists. -/
  known : p.hadOrig=(disk.held (host.place p.abs)).isSome

def target (p : FilePrep) : File×Path := (p.file,p.abs)

theorem total_prepare (defaults : FileDefaults) (targets : List (File×Path)) {Q : Try (List FilePrep)→Disk→Prop}
    (herr : ∀ err,Faulty → Q (.error err) disk) (index : ℕ) (hdone : ∀ p∈done,Looked host disk p)
    (hok : ∀ preps,preps.map target=done.map target++targets → (∀ p∈preps,Looked host disk p) → Q (.ok preps) disk) :
    (prepare defaults index done targets).Total ok Q disk := by
  induction targets generalizing index done with
  | nil => exact hok done (append_nil _).symm hdone
  | cons item rest ih =>
    obtain ⟨file,abs⟩ := item
    have hnext : ∀ stat : Try FileInfo,stat.toOption.isSome=(disk.held (host.place abs)).isSome → ∀ owner,
        (prepare defaults (index+1) (done++[{abs := abs, file := file, owner := owner, hadOrig := stat.toOption.isSome}])
          rest).Total ok Q disk := by
      intro stat hstat owner
      refine ih (index+1) (fun p hp => ?_) fun preps htargets hlooked => ?_
      · rcases mem_append_row.mp hp with hp|rfl
        · exact hdone p hp
        · exact ⟨rfl,rfl,hstat⟩
      · refine hok preps ?_ hlooked
        rw [htargets,map_append,append_assoc]
        rfl
    refine total_stat henv abs (fun err hnone => ?_) fun info hsome => ?_
    · refine total_bind.mpr ?_
      refine total_resolveOwnership henv file defaults _ (fun err hfaulty => herr _ hfaulty) fun owner => ?_
      refine hnext (.error err) ?_ owner
      rw [hnone]
      rfl
    · refine total_bind.mpr ?_
      refine total_resolveOwnership henv file defaults _ (fun err hfaulty => herr _ hfaulty) fun owner => ?_
      exact hnext (.ok info) hsome.symm owner

theorem total_backupFile (habs : abs∈dests) {Q : Try Path→Disk→Prop} (hsome : (disk.held (host.place abs)).isSome=true)
    (hdir : disk.held (host.place abs)=some none → Faulty)
    (herr : ∀ err disk',Faulty → Kept host dests disk disk' → Q (.error err) disk')
    (hok : ∀ backupPath disk' data,Beside host dests disk disk' (host.place backupPath) →
      disk.held (host.place abs)=some (some data) →
      disk'.held (host.place backupPath)=some (some data) → Q (.ok backupPath) disk') :
    (backupFile abs).Total ok Q disk := by
  refine total_readFile henv abs (fun err hwhy => ?_) fun data hdata => ?_
  · have hfaulty : Faulty := by
      rcases hwhy with hfaulty|hnone|hnone
      · exact hfaulty
      · rw [hnone] at hsome
        cases hsome
      · exact hdir hnone
    exact herr _ disk hfaulty (Kept.refl disk)
  refine total_stat henv abs (fun err hnone => ?_) fun info _ => ?_
  · rw [hdata] at hnone
    cases hnone
  refine total_nowNanos henv fun nanos hfresh => ?_
  obtain ⟨hfree,hapart⟩ := hfresh abs habs backupSuffix (mem_cons_of_mem _ mem_cons_self)
  have hplanned := planned_stamped host habs (.inr rfl) nanos
  refine total_writeFile henv (stamped abs backupSuffix nanos) data info.perm hfree
    (fun err disk' hfaulty hoff => ?_) fun disk₁ hheld hoff => ?_
  · exact herr _ disk' hfaulty (Beside.kept ⟨hfree,hapart,hplanned,hoff⟩)
  have hdone : ∀ disk',SameHeld disk₁ disk' → Q (.ok (stamped abs backupSuffix nanos)) disk' := by
    intro disk' hsame
    refine hok _ disk' data ⟨hfree,hapart,hplanned,fun x hx => ?_⟩ hdata ?_
    · rw [hsame x,hoff x hx]
    · rw [hsame,hheld]
  have hsome₁ := Option.isSome_of_eq_some hheld
  refine total_chown henv hsome₁ (fun _ _ => ?_) fun disk' hsame => ?_
  · exact hdone disk₁ fun _ => rfl
  · exact hdone disk' hsame

theorem total_backupAll (rest : List FilePrep) (hrest : ∀ p∈rest,Looked host before p ∧ p.abs∈dests)
    (hdir : ∀ x,Dest host dests x → before.held x=some none → Faulty) {Q : Try (List FilePrep)→Disk→Prop}
    (herr : ∀ err disk',Faulty → SameDests host dests before disk' → Q (.error err) disk')
    (hsame : SameDests host dests before disk)
    (hothers : Untouched host dests before disk) (hdone : ∀ p∈done,Backed host dests before disk p)
    (hok : ∀ preps disk',preps.map target=done.map target++rest.map target →
      (∀ p∈preps,Backed host dests before disk' p) → SameDests host dests before disk' →
      Untouched host dests before disk' → Q (.ok preps) disk') :
    (backupAll done rest).Total ok Q disk := by
  induction rest generalizing done disk with
  | nil => exact hok done disk (append_nil _).symm hdone hsame hothers
  | cons p rest ih =>
    obtain ⟨hlooked,habs⟩ := hrest p mem_cons_self
    have hdest : Dest host dests (host.place p.abs) := ⟨p.abs,habs,rfl⟩
    have hrest' := fun q hq => hrest q (mem_cons_of_mem p hq)
    -- the induction goes on with the file in its new state
    have hnext : ∀ (p' : FilePrep) disk₁,target p'=target p → Backed host dests before disk₁ p' →
        Kept host dests disk disk₁ → (backupAll (done++[p']) rest).Total ok Q disk₁ := by
      intro p' disk₁ htarget hbacked hkept
      refine ih hrest' (hsame.trans hkept.sameDests) (hothers.trans_kept hkept) (fun q hq => ?_)
        fun preps disk' htargets => ?_
      · rcases mem_append_row.mp hq with hq|rfl
        · exact (hdone q hq).keep fun y _ _ _ hsome => hkept y (.inr hsome)
        · exact hbacked
      · refine hok preps disk' ?_
        rw [htargets,map_append,append_assoc,map_singleton,htarget,map_cons,singleton_append]
    unfold backupAll
    cases horig : p.hadOrig with
    | false =>
      refine hnext p disk rfl ?_ (Kept.refl disk)
      have hnone : before.held (host.place p.abs)=none := by
        have hknown := hlooked.known
        rw [horig] at hknown
        exact Option.isNone_iff_eq_none.mp (by rw [← Option.not_isSome,← hknown]; rfl)
      simpa only [Backed,backupPlace,hlooked.backup,Option.map_none] using hnone
    | true =>
      have hsome : (disk.held (host.place p.abs)).isSome=true := by rw [hsame _ hdest,← hlooked.known,horig]
      have hdir' : disk.held (host.place p.abs)=some none → Faulty := by
        rw [hsame _ hdest]
        exact hdir _ hdest
      refine total_bind.mpr ?_
      refine total_backupFile henv habs hsome hdir' (fun err disk₁ hfaulty hkept => ?_)
        fun backupPath disk₁ data hbeside hdata hheld => ?_
      · refine total_seq (total_removeEach henv fun q hq y hy => (hdone q hq).apart hy) fun _ disk₂ hclean => ?_
        exact herr _ disk₂ hfaulty ((hsame.trans hkept.sameDests).trans hclean)
      · refine hnext {p with hadOrig := true, backupTo := some backupPath} disk₁ rfl ?_ hbeside.kept
        refine ⟨hbeside.apart,hbeside.planned,data,hheld,?_⟩
        rw [← hsame _ hdest]
        exact hdata

end

/-- The temporary files of these prepared files stand at places of their own. -/
structure Separate (host : Host) (preps temps : List FilePrep) : Prop where
  distinct : temps.Pairwise fun p q => tempPlace host p≠tempPlace host q
  unlike : ∀ p∈temps,∀ q∈preps,∀ y,tempPlace host p=some y → backupPlace host q≠some y

/-- What holds while the temporary files are written. -/
structure Staging (host : Host) (dests : List Path) (before disk : Disk) (done rest : List FilePrep) :
    Prop where
  same : SameDests host dests before disk
  /-- No other existing file of the plan has changed. -/
  others : Untouched host dests before disk
  backed : ∀ p∈done++rest,Backed host dests before disk p
  /-- The temporary files written so far are in order. -/
  staged : ∀ p∈done,Staged host dests before disk p
  /-- They stand apart from each other and from the backups. -/
  separate : Separate host (done++rest) done

/-- One more temporary file has been written. -/
theorem Staging.step (h : Staging host dests before disk done (p::rest))
    (hbeside : Beside host dests disk disk' (host.place tempPath))
    (hheld : disk'.held (host.place tempPath)=some (some p.file.bytes)) :
    Staging host dests before disk' (done++[{p with tempPath := some tempPath}]) rest := by
  have hkept := hbeside.kept
  have hmem : ∀ q,q∈done++[{p with tempPath := some tempPath}]++rest →
      ∃ q'∈done++p::rest,backupPlace host q=backupPlace host q' ∧ q.abs=q'.abs := by
    intro q hq
    rw [append_assoc] at hq
    rcases mem_append.mp hq with hq|hq
    · exact ⟨q,mem_append_left _ hq,rfl,rfl⟩
    rcases mem_cons.mp hq with rfl|hq
    · exact ⟨p,mem_append_right _ mem_cons_self,rfl,rfl⟩
    · exact ⟨q,mem_append_right _ (mem_cons_of_mem p hq),rfl,rfl⟩
  have htaken : ∀ q∈done,∀ y,tempPlace host q=some y → y≠host.place tempPath := by
    intro q hq y hy
    obtain ⟨z,hz,-,-,hbytes,-⟩ := h.staged q hq
    have hyz : y=z := Option.some.inj (hy.symm.trans hz)
    refine hbeside.ne (.inr ?_)
    rw [hyz,hbytes]
    rfl
  have hfree : before.held (host.place tempPath)=none := by
    by_contra hsome
    have hold := h.others _ hbeside.planned hbeside.apart (Option.isSome_iff_ne_none.mpr hsome)
    exact hsome (hold.symm.trans hbeside.free)
  constructor
  · exact h.same.trans hkept.sameDests
  · exact h.others.trans_kept hkept
  · intro q hq
    obtain ⟨q',hq',hbackup,habs⟩ := hmem q hq
    have hold := (h.backed q' hq').keep fun y _ _ _ hsome => hkept y (.inr hsome)
    unfold Backed at hold ⊢
    rw [hbackup,habs]
    exact hold
  · intro q hq
    rcases mem_append_row.mp hq with hq|rfl
    · exact (h.staged q hq).keep fun y _ _ _ hsome => hkept y (.inr hsome)
    · exact ⟨host.place tempPath,rfl,hbeside.apart,hbeside.planned,hheld,hfree⟩
  · constructor
    · refine pairwise_append.mpr ⟨h.separate.distinct,pairwise_singleton _ _,fun q hq r hr => ?_⟩
      rw [mem_singleton.mp hr]
      intro hsame
      exact htaken q hq _ hsame rfl
    · intro q hq r hr y hy hbackup
      obtain ⟨r',hr',hplace,-⟩ := hmem r hr
      rw [hplace] at hbackup
      rcases mem_append_row.mp hq with hq|rfl
      · exact h.separate.unlike q hq r' hr' y hy hbackup
      cases hy
      exact hbeside.ne (.inr ((h.backed r' hr').taken hbackup)) rfl

theorem Staged.apart (h : Staged host dests before disk p) (hy : tempPlace host p=some y) : ¬Dest host dests y := by
  obtain ⟨z,hz,hapart,-,-,-⟩ := h
  rw [Option.some.inj (hy.symm.trans hz)]
  exact hapart

theorem Staging.apart (h : Staging host dests before disk done rest) :
    ∀ q∈done,∀ y,tempPlace host q=some y → ¬Dest host dests y :=
  fun q hq _ hy => (h.staged q hq).apart hy

theorem Staging.same_planned
    (h : Staging host dests before disk done rest) (hsame : SamePlanned host dests disk disk') :
    Staging host dests before disk' done rest where
  same := h.same.trans fun x hx => hsame x (planned_of_dest hx)
  others := h.others.trans_planned hsame
  backed p hp := (h.backed p hp).keep fun y _ _ hy _ => hsame y hy
  staged p hp := (h.staged p hp).keep fun y _ _ hy _ => hsame y hy
  separate := h.separate

theorem total_writeTemps (henv : Surroundings host dests ok Faulty) (rest : List FilePrep)
    (hrest : ∀ p∈rest,p.abs∈dests) {Q : Try (List FilePrep)→Disk→Prop}
    (herr : ∀ err disk',Faulty → SameDests host dests before disk' → Q (.error err) disk')
    (hstaging : Staging host dests before disk done rest)
    (hok : ∀ preps disk',preps.map target=done.map target++rest.map target →
      Staging host dests before disk' preps [] → Q (.ok preps) disk') :
    (writeTemps done rest).Total ok Q disk := by
  induction rest generalizing done disk with
  | nil => exact hok done disk (append_nil _).symm hstaging
  | cons p rest ih =>
    have hrest' := fun q hq => hrest q (mem_cons_of_mem p hq)
    refine total_bind.mpr ?_
    refine total_writeTempFile henv (hrest p mem_cons_self) p.file.bytes
      (fun err disk₁ hfaulty hkept => ?_) fun tempPath disk₁ hbeside hheld => ?_
    · refine total_seq (total_removeEach henv hstaging.apart) fun _ disk₂ hclean => ?_
      exact herr _ disk₂ hfaulty ((hstaging.same.trans hkept.sameDests).trans hclean)
    have hstep := hstaging.step hbeside hheld
    have hsome := Option.isSome_of_eq_some hheld
    refine total_bind.mpr ?_
    refine total_applyOwnership henv hsome (fun err disk₂ hfaulty hsame => ?_) fun disk₂ hsame => ?_
    · refine total_seq (total_removeEach henv hstep.apart) fun _ disk₃ hclean => ?_
      exact herr _ disk₃ hfaulty ((hstep.same.trans fun x _ => hsame x).trans hclean)
    · refine ih hrest' (hstep.same_planned fun x _ => hsame x) fun preps disk' htargets => ?_
      refine hok preps disk' ?_
      rw [htargets,map_append,append_assoc]
      rfl

/-- What holds while the temporary files are renamed into place. -/
structure Moving (host : Host) (dests : List Path) (before disk : Disk) (preps done rest : List FilePrep) :
    Prop where
  backed : ∀ p∈preps,Backed host dests before disk p
  /-- No existing file of the plan has changed that stands at no destination. -/
  others : Untouched host dests before disk
  /-- The temporary files not yet renamed are in order. -/
  staged : ∀ p∈rest,Staged host dests before disk p
  /-- They stand apart from each other and from the backups. -/
  separate : Separate host preps rest
  /-- Each destination holds new bytes of a renamed file, or what it held. -/
  moved : ∀ x,Dest host dests x → (∃ p∈done,host.place p.abs=x ∧ disk.held x=some (some p.file.bytes)) ∨
      (∀ p∈done,host.place p.abs≠x) ∧ disk.held x=before.held x

/-- One more temporary file has been renamed. -/
theorem Moving.step (h : Moving host dests before disk preps done (p::rest)) (habs : p.abs∈dests)
    (hy : tempPlace host p=some y) (hnew : disk'.held (host.place p.abs)=some (some p.file.bytes))
    (hoff : ∀ x,x≠y → x≠host.place p.abs → disk'.held x=disk.held x) :
    Moving host dests before disk' preps (done++[p]) rest := by
  have hplace : ∀ z,¬Dest host dests z → z≠host.place p.abs := fun z hz heq => hz ⟨p.abs,habs,heq.symm⟩
  obtain ⟨hhead,htail⟩ := pairwise_cons.mp h.separate.distinct
  obtain ⟨w,hw,hapart,-,-,hfree⟩ := h.staged p mem_cons_self
  obtain rfl : y=w := Option.some.inj (hy.symm.trans hw)
  constructor
  · intro q hq
    refine (h.backed q hq).keep fun z hz hdest _ _ => hoff z ?_ (hplace z hdest)
    rintro rfl
    exact h.separate.unlike p mem_cons_self q hq z hy hz
  · intro x hplanned hdest hsome
    rw [hoff x ?_ (hplace x hdest),h.others x hplanned hdest hsome]
    rintro rfl
    rw [hfree] at hsome
    cases hsome
  · intro q hq
    refine (h.staged q (mem_cons_of_mem p hq)).keep fun z hz hdest _ _ => hoff z ?_ (hplace z hdest)
    rintro rfl
    exact hhead q hq (hy.trans hz.symm)
  · exact ⟨htail,fun q hq => h.separate.unlike q (mem_cons_of_mem p hq)⟩
  · intro x hx
    by_cases hxp : host.place p.abs=x
    · subst hxp
      exact .inl ⟨p,mem_append_right _ (mem_singleton_self p),rfl,hnew⟩
    have hsame : disk'.held x=disk.held x := hoff x (fun heq => hapart (heq ▸ hx)) (Ne.symm hxp)
    rcases h.moved x hx with ⟨q,hq,hplaceq,hheld⟩|⟨hnot,hheld⟩
    · exact .inl ⟨q,mem_append_left _ hq,hplaceq,hsame.trans hheld⟩
    · exact .inr ⟨forall_mem_append.mpr ⟨hnot,forall_mem_singleton.mpr hxp⟩,hsame.trans hheld⟩

section

variable (henv : Surroundings host dests ok Faulty) (habs : ∀ q∈preps,q.abs∈dests)
  (hapart : ∀ q∈preps,∀ y,tempPlace host q=some y → ¬Dest host dests y)
  {Q : Try Unit→Disk→Prop}
include henv habs hapart

theorem total_undoRenames (hmoving : Moving host dests before disk preps done rest) (hdone : ∀ q∈done,q∈preps)
    (herr : ∀ err disk',SameDests host dests before disk' ∨ err.is .deployRollbackFailed=true → Q (.error err) disk') :
    (undoRenames preps done p err).Total ok Q disk := by
  have hbacked : ∀ q∈done,Backed host dests before disk q := fun q hq => hmoving.backed q (hdone q hq)
  refine total_seq (total_restoreFrom henv done (fun q hq => habs q (hdone q hq)) none hbacked)
    fun rollbackErr disk₁ hrestored => ?_
  refine total_seq (total_removeEach henv hapart) fun _ disk₂ hclean => ?_
  cases rollbackErr with
  | some => exact herr _ disk₂ (.inr rfl)
  | none =>
    refine herr _ disk₂ (.inl fun x hx => ?_)
    rw [hclean x hx]
    rcases hmoving.moved x hx with ⟨q,hq,rfl,-⟩|⟨hnot,hheld⟩
    · exact (hrestored.2 rfl).2 q hq
    · rw [hrestored.1 x hnot hx,hheld]

theorem total_renameAll (rest : List FilePrep) (hrest : ∀ p∈rest,p∈preps)
    (hdir : ∀ x,Dest host dests x → before.held x=some none → Faulty)
    (herr : ∀ err disk',Faulty → SameDests host dests before disk' ∨ err.is .deployRollbackFailed=true →
      Q (.error err) disk')
    (hdone : ∀ p∈done,p∈preps) (hmoving : Moving host dests before disk preps done rest)
    (hok : ∀ disk',Moving host dests before disk' preps (done++rest) [] → Q (.ok ()) disk') :
    (renameAll preps done rest).Total ok Q disk := by
  induction rest generalizing done disk with
  | nil =>
    rw [append_nil] at hok
    exact hok disk hmoving
  | cons p rest ih =>
    have hp := hrest p mem_cons_self
    obtain ⟨y,hy,-,-,hheld,-⟩ := hmoving.staged p mem_cons_self
    obtain ⟨tempPath,htemp,rfl⟩ := Option.map_eq_some_iff.mp hy
    have hdest : Dest host dests (host.place p.abs) := ⟨p.abs,habs p hp,rfl⟩
    unfold renameAll renameOne
    simp only [htemp]
    refine total_rename henv tempPath p.abs hheld (fun err hwhy => ?_) fun disk₁ hnew hoff => ?_
    · have hfaulty : Faulty := by
        rcases hwhy with hfaulty|hbad
        · exact hfaulty
        rcases hmoving.moved _ hdest with ⟨q,-,-,hbytes⟩|⟨-,hold⟩
        · rw [hbad] at hbytes
          cases hbytes
        · exact hdir _ hdest (hold.symm.trans hbad)
      exact total_undoRenames henv habs hapart hmoving hdone fun err' disk' h => herr err' disk' hfaulty h
    · have hstep := hmoving.step (habs p hp) hy hnew hoff
      refine ih (fun q hq => hrest q (mem_cons_of_mem p hq)) (fun q hq => ?_) hstep fun disk' h => ?_
      · rcases mem_append_row.mp hq with hq|rfl
        · exact hdone q hq
        · exact hp
      · rw [append_assoc] at h
        exact hok disk' h

end

/-- An error is returned, and the destinations are as before unless it says the rollback failed. -/
def Failed (host : Host) (dests : List Path) (before : Disk) (out : Outcome) (after : Disk) : Prop :=
  ∃ err,out.error=some err ∧ (SameDests host dests before after ∨ err.is .deployRollbackFailed=true)

def Deployed (host : Host) (dests : List Path) (preps : List FilePrep) (disk : Disk) : Prop :=
  ∀ x,Dest host dests x → ∃ p∈preps,host.place p.abs=x ∧ disk.held x=some (some p.file.bytes)

section

variable (henv : Surroundings host dests ok Faulty) (habs : ∀ p∈preps,p.abs∈dests)
  (hcover : ∀ x,Dest host dests x → ∃ p∈preps,host.place p.abs=x)
include henv habs hcover

theorem total_rollback (hbacked : ∀ p∈preps,Backed host dests before disk p)
    {Q : Outcome→Disk→Prop} (h : ∀ out disk',Failed host dests before out disk' → Q out disk') :
    (rollback preps res err).Total ok Q disk := by
  refine total_seq (total_restoreFrom henv preps habs none hbacked) fun rollbackErr disk₁ hrestored => ?_
  cases rollbackErr with
  | some => exact h _ disk₁ ⟨_,rfl,.inr rfl⟩
  | none =>
    refine total_postCommit henv (fun err2 disk₂ _ _ => ?_) fun disk₂ hplanned => ?_
    · exact h _ disk₂ ⟨_,rfl,.inr rfl⟩
    refine h _ disk₂ ⟨_,rfl,.inl fun x hx => ?_⟩
    rw [hplanned x (planned_of_dest hx)]
    obtain ⟨p,hp,rfl⟩ := hcover x hx
    exact (hrestored.2 rfl).2 p hp

theorem total_reload {plan : Plan} (hmoving : Moving host dests before disk preps preps []) {Q : Outcome→Disk→Prop}
    (hfail : ∀ out disk',Faulty → Failed host dests before out disk' → Q out disk')
    (hprune : ∀ disk',Deployed host dests preps disk' → Untouched host dests before disk' →
      (pruneAll (retention plan) preps).Total ok (fun _ disk'' => ∀ res,Q ⟨some res,none⟩ disk'') disk') :
    (reload plan preps res).Total ok Q disk := by
  have hdeployed : Deployed host dests preps disk := by
    intro x hx
    rcases hmoving.moved x hx with hnew|⟨hnot,-⟩
    · exact hnew
    obtain ⟨p,hp,hplace⟩ := hcover x hx
    exact absurd hplace (hnot p hp)
  have hfinish : ∀ disk',Deployed host dests preps disk' → Untouched host dests before disk' →
      (finish plan preps res).Total ok Q disk' := by
    intro disk' hnew hothers
    exact total_seq (hprune disk' hnew hothers) fun _ _ hq => hq _
  unfold reload
  split
  · refine total_postCommit henv (fun err disk₁ hfaulty hplanned => ?_) fun disk₁ hplanned => ?_
    · refine total_rollback henv habs hcover (fun p hp => ?_) fun out disk' => hfail out disk' hfaulty
      exact (hmoving.backed p hp).keep fun y _ _ hy _ => hplanned y hy
    refine hfinish disk₁ (fun x hx => ?_) (hmoving.others.trans_planned hplanned)
    obtain ⟨p,hp,hplace,hheld⟩ := hdeployed x hx
    exact ⟨p,hp,hplace,(hplanned x (planned_of_dest hx)).trans hheld⟩
  · exact hfinish disk hdeployed hmoving.others

end

/-- The files are those of the plan. -/
structure Covers (dests : List Path) (preps : List FilePrep) : Prop where
  /-- They go to destinations of the plan. -/
  within : ∀ p∈preps,p.abs∈dests
  /-- Every destination of the plan is among theirs. -/
  all : ∀ abs∈dests,∃ p∈preps,p.abs=abs

theorem covers_of_targets (h : preps.map target=targets) : Covers (targets.map Prod.snd) preps := by
  subst h
  constructor
  · intro p hp
    exact mem_map.mpr ⟨target p,mem_map_of_mem hp,rfl⟩
  · intro abs habs
    obtain ⟨t,ht,rfl⟩ := mem_map.mp habs
    obtain ⟨p,hp,rfl⟩ := mem_map.mp ht
    exact ⟨p,hp,rfl⟩

theorem eq_of_sha256Eq (hsha : Function.Injective host.sha256) {a b : Bytes} (h : sha256Eq host a b=true) : a=b := by
  unfold sha256Eq at h
  split at h
  · cases h
  · exact hsha (of_decide_eq_true h)

theorem total_allMatch (henv : Surroundings host dests ok Faulty) (hsha : Function.Injective host.sha256)
    (targets : List (File×Path)) {Q : Bool→Disk→Prop} (hno : Q false disk)
    (hyes : (∀ t∈targets,disk.held (host.place t.2)=some (some t.1.bytes)) → Q true disk) :
    (allMatch host targets).Total ok Q disk := by
  induction targets with
  | nil => exact hyes fun t ht => absurd ht not_mem_nil
  | cons t rest ih =>
    obtain ⟨file,abs⟩ := t
    refine total_readFile henv abs (fun err _ => hno) fun data hdata => ?_
    dsimp only
    split
    · rename_i hsame
      refine ih fun hrest => hyes fun t ht => ?_
      rcases mem_cons.mp ht with rfl|ht
      · rw [hdata,eq_of_sha256Eq hsha hsame]
      · exact hrest t ht
    · exact hno

section Commit

variable {plan : Plan} {Q : Outcome→Disk→Prop} (henv : Surroundings host dests ok Faulty)
  (hdir : ∀ x,Dest host dests x → before.held x=some none → Faulty)
  (hfail : ∀ out disk',Faulty → Failed host dests before out disk' → Q out disk')
include henv hdir hfail

section Staged

variable (hcovers : Covers dests preps) (hstaging : Staging host dests before disk preps [])
  (hprune : ∀ disk',Deployed host dests preps disk' → Untouched host dests before disk' →
    (pruneAll (retention plan) preps).Total ok (fun _ disk'' => ∀ res,Q ⟨some res,none⟩ disk'') disk')
include hcovers hstaging hprune

theorem total_install : (install plan preps res).Total ok Q disk := by
  have happend : preps++[]=preps := append_nil preps
  have hmoving : Moving host dests before disk preps [] preps := by
    refine ⟨fun p hp => hstaging.backed p (happend.symm ▸ hp),hstaging.others,hstaging.staged,?_,fun x hx => ?_⟩
    · have hseparate := hstaging.separate
      rw [happend] at hseparate
      exact hseparate
    · exact .inr ⟨forall_mem_nil _,hstaging.same x hx⟩
  refine total_bind.mpr ?_
  refine total_renameAll henv hcovers.within hstaging.apart preps (fun _ hp => hp) hdir
    (fun err disk' hfaulty h => ?_) (forall_mem_nil _) hmoving fun disk' h => ?_
  · exact hfail _ disk' hfaulty ⟨err,rfl,h⟩
  refine total_reload henv hcovers.within (fun x hx => ?_) h hfail hprune
  obtain ⟨abs,habs,rfl⟩ := hx
  obtain ⟨p,hp,rfl⟩ := hcovers.all abs habs
  exact ⟨p,hp,rfl⟩

theorem total_commit : (commit plan preps res).Total ok Q disk := by
  unfold commit
  split
  · refine total_preCommit henv (fun err disk₁ hfaulty hplanned => ?_) fun disk₁ hplanned => ?_
    · refine total_seq (total_removeEach henv hstaging.apart) fun _ disk₂ hclean => ?_
      refine hfail _ disk₂ hfaulty ⟨_,rfl,.inl ?_⟩
      exact (hstaging.same_planned hplanned).same.trans hclean
    · exact total_install henv hdir hfail hcovers (hstaging.same_planned hplanned) hprune
  · exact total_install henv hdir hfail hcovers hstaging hprune

end Staged

variable (hret : plan.backupRetention≠ -1) (hdests : dests=targets.map Prod.snd)
  (hprune : ∀ preps disk',preps.map target=targets → Deployed host dests preps disk' →
    Untouched host dests before disk' → (pruneAll (retention plan) preps).Total ok
      (fun _ disk'' => ∀ res,Q ⟨some res,none⟩ disk'') disk')
include hret hdests hprune

theorem total_deploy : (deploy plan targets).Total ok Q before := by
  have hcovers : ∀ preps,preps.map target=targets → Covers dests preps := by
    intro preps h
    rw [hdests]
    exact covers_of_targets h
  have hstart : SameDests host dests before before := fun _ _ => rfl
  refine total_bind.mpr ?_
  refine total_prepare henv plan.defaults targets (fun err hfaulty => ?_) 0
    (forall_mem_nil _) fun looked hlookedTargets hlooked => ?_
  · exact hfail _ before hfaulty ⟨err,rfl,.inl hstart⟩
  dsimp only
  unfold backupThenStage
  rw [if_pos hret,bind_eq_bind,total_bind]
  have hrest : ∀ p∈looked,Looked host before p ∧ p.abs∈dests :=
    fun p hp => ⟨hlooked p hp,(hcovers looked hlookedTargets).within p hp⟩
  refine total_backupAll henv looked hrest hdir (fun err disk' hfaulty hsame => ?_) hstart
    (fun _ _ _ _ => rfl) (forall_mem_nil _)
    fun backed disk₁ hbackedTargets hbacked hsame hothers => ?_
  · exact hfail _ disk' hfaulty ⟨err,rfl,.inl hsame⟩
  have htargets : backed.map target=targets := hbackedTargets.trans hlookedTargets
  have hstaging : Staging host dests before disk₁ [] backed :=
    ⟨hsame,hothers,hbacked,forall_mem_nil _,List.Pairwise.nil,forall_mem_nil _⟩
  refine total_bind.mpr ?_
  refine total_writeTemps henv backed (hcovers backed htargets).within (fun err disk' hfaulty h => ?_)
    hstaging fun preps disk₂ hpreps hstaged => ?_
  · exact hfail _ disk' hfaulty ⟨err,rfl,.inl h⟩
  have hprepsTargets : preps.map target=targets := hpreps.trans htargets
  exact total_commit henv hdir hfail (hcovers preps hprepsTargets) hstaged
    fun disk' h => hprune preps disk' hprepsTargets h

theorem total_applyLocked (hsha : Function.Injective host.sha256)
    (hskip : ∀ res,(∀ t∈targets,before.held (host.place t.2)=some (some t.1.bytes)) → Q ⟨some res,none⟩ before) :
    (applyLocked plan targets).Total ok Q before := by
  have hdeploy := total_deploy henv hdir hfail hret hdests hprune
  refine total_ctxErr henv (fun err hfaulty _ => ?_) ?_
  · exact hfail _ before hfaulty ⟨err,rfl,.inl fun _ _ => rfl⟩
  dsimp only
  split
  · exact hdeploy
  refine total_bind.mpr ?_
  refine total_allMatch henv hsha targets ?_ fun hmatch => ?_
  · exact hdeploy
  · exact hskip _ hmatch

end Commit

end Certctl.DeployPhases
