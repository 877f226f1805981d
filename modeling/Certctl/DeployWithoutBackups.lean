import Certctl.DeployAtomicity

/-!
# Deployments that take no backups

Without backups a rollback cannot tell a destination that was not there from
one that was not backed up, and it removes both. Files that existed are safe
only in runs that never roll back after a rename: the renames of all files
but the first succeed and the reload hook does not fail.
-/

namespace Certctl.DeployWithoutBackups

open AtomicProgram Prog DeployFileSystem DeployApply DeployFileRules DeployAtomicity DomainRecords RecordTable Option
open List

variable {host : Host} {α : Type} {Kept : Path→Prop} {ok : Prog.Allowed (fileSystem host)}
  {Q : α→Disk→Prop} {disk disk' : Disk} {plan : Plan}

def Present (Kept : Path→Prop) (disk : Disk) : Prop := ∀ x,Kept x → disk.held x≠none

/-- Operations that take none of the files away; hooks are left to their own conditions. -/
def Safe (host : Host) (Kept : Path→Prop) : Op→Prop
  | .remove p => ¬Kept (host.place p)
  | .rename src _ => ¬Kept (host.place src)
  | .preCommit _ => False
  | .postCommit => False
  | _ => True

theorem present_put (h : Present Kept disk) (entry : Entry) : Present Kept (disk.put entry) := by
  intro x hx
  rw [held_put]
  split
  · exact some_ne_none _
  · exact h x hx

theorem present_without (h : Present Kept disk) {y : Path} (hy : ¬Kept y) : Present Kept (disk.without y) := by
  intro x hx
  rw [held_without]
  split
  · rename_i heq
    exact absurd (heq ▸ hx) hy
  · exact h x hx

theorem present_alter (h : Present Kept disk) {f : Entry→Entry} (hf : ∀ e,(f e).place=e.place)
    (y : Path) : Present Kept (disk.alter y f) := by
  intro x hx
  by_cases heq : x=y
  · subst heq
    have hheld := h x hx
    rw [Disk.held,Ne,map_eq_none_iff] at hheld
    rw [held_alter_self hf,Ne,map_eq_none_iff]
    exact hheld
  · rw [held_alter_of_ne hf disk heq]
    exact h x hx

variable {c : Choice}

theorem present_attempt {outcome : Try Disk} (h : Present Kept disk)
    (hok : ∀ d,outcome=.ok d → Present Kept d) : Present Kept (attempt c disk outcome).2 := by
  unfold attempt unlessFault
  cases c.fault with
  | some => exact h
  | none =>
    cases outcome with
    | error => exact h
    | ok d => exact hok d rfl

theorem present_overwrite {p : Path} {data : Bytes} {perm : ℕ} (h : Present Kept disk) :
    ∀ d,overwrite host disk p data perm=.ok d → Present Kept d := by
  intro d hd
  unfold overwrite at hd
  split at hd
  · cases hd
    exact present_put h _
  · cases hd
  · cases hd
    exact present_alter h (Entry.rewritten_place _) _

variable {op : Op}

theorem present_effect (hop : Safe host Kept op) (c : Choice) (h : Present Kept disk) :
    Present Kept (effect host op c disk).2 := by
  have hattributes : ∀ name p f,(∀ e : Entry,(f e).place=e.place) →
      Present Kept (attempt c disk (withAttributes host disk name p f)).2 := by
    intro name p f hf
    refine present_attempt h fun d hd => ?_
    unfold withAttributes at hd
    split at hd
    · cases hd
    cases hd
    exact present_alter h hf _
  cases op with
  | openExcl =>
    refine present_attempt h fun d hd => ?_
    split at hd
    · cases hd
    cases hd
    exact present_put h _
  | write =>
    dsimp only [effect]
    split <;> exact present_alter h (Entry.rewritten_place _) _
  | sync | close => exact present_attempt h fun d hd => by cases hd; exact h
  | writeFile p data perm =>
    dsimp only [effect]
    split
    · cases hout : overwrite host disk p (data.take _) perm with
      | error => exact h
      | ok d => exact present_overwrite h d hout
    · exact present_attempt h (present_overwrite h)
  | remove =>
    refine present_attempt h fun d hd => ?_
    split at hd
    · cases hd
      exact present_without h hop
    · cases hd
  | rename =>
    refine present_attempt h fun d hd => ?_
    unfold moved at hd
    split at hd
    · cases hd
    split at hd
    · cases hd
    cases hd
    exact present_put (present_without h hop) _
  | chmod p => exact hattributes "chmod" p _ fun _ => rfl
  | chown p => exact hattributes "chown" p _ fun _ => rfl
  | preCommit | postCommit => exact absurd hop id
  | _ => exact h

theorem effect_of_perform {r : Res op}
    (h : (fileSystem host).perform op c disk=some (r,disk')) : effect host op c disk=(r,disk') := by
  dsimp only [fileSystem] at h
  split at h
  · cases h
  · exact Option.some.inj h

theorem present_of_perform {r : Res op} (hop : Safe host Kept op) (h : Present Kept disk)
    (hperform : (fileSystem host).perform op c disk=some (r,disk')) : Present Kept disk' := by
  have hd := present_effect hop c h
  rw [effect_of_perform hperform] at hd
  exact hd

theorem always_safe (op : Op) (hop : Safe host Kept op) {k : Res op→Files host α} (h : Present Kept disk)
    (hk : ∀ r d,Present Kept d → (k r).Always ok Q d) : ((request op).bind k).Always ok Q disk := by
  intro c r d _ hperform
  exact hk r d (present_of_perform hop h hperform)

abbrev Keeps (ok : Prog.Allowed (fileSystem host)) (Kept : Path→Prop) (p : Files host α) (disk : Disk) : Prop :=
  p.Always ok (fun _ d => Present Kept d) disk

abbrev Safely (host : Host) (Kept : Path→Prop) (p : Files host α) : Prop := p.Uses (Safe host Kept)

theorem keeps_of_safely {p : Files host α} (hp : Safely host Kept p) (h : Present Kept disk) : Keeps ok Kept p disk := by
  refine (always_iff_exec _ _ _).mpr fun a d hexec => ?_
  exact exec_keeps (fun op hop c r s s' hperform hs => present_of_perform hop hs hperform) hp hexec h

theorem safely_resolveOwnership (file : File) (defaults : FileDefaults) (existing : Option FileInfo) :
    Safely host Kept (resolveOwnership file defaults existing) := by
  have hlookup : ∀ empty name (p : Files host (Try ℤ)),Safely host Kept p → Safely host Kept (lookupID empty name p) := by
    intro empty name p hp
    unfold lookupID
    split
    · trivial
    split
    · trivial
    · exact hp
  have hnames : ∀ res owner group,Safely host Kept (resolveNames res owner group) := by
    intro res owner group
    refine uses_bind (hlookup _ _ _ ⟨trivial,fun _ => trivial⟩) (onAnswer fun uid => ?_)
    refine uses_bind (hlookup _ _ _ ⟨trivial,fun _ => trivial⟩) (onAnswer fun gid => ?_)
    trivial
  unfold resolveOwnership
  split
  · exact hnames _ _ _
  split
  · trivial
  split
  · exact hnames _ _ _
  · trivial

theorem safely_applyOwnership (path : Path) (res : ResolvedOwnership) : Safely host Kept (applyOwnership path res) := by
  have howner : Safely host Kept (applyOwner host path res) := by
    unfold applyOwner
    split
    · refine ⟨trivial,onAnswer (fun _ => trivial) fun err => ?_⟩
      dsimp only
      split <;> trivial
    · trivial
  unfold applyOwnership
  split
  · exact ⟨trivial,onAnswer fun _ => howner⟩
  · exact howner

theorem always_writeTempFile (abs : Path) (data : Bytes) (h : Present Kept disk) :
    (writeTempFile abs data).Always ok (fun r d => Present Kept d ∧ ∀ t,r=.ok t → ¬Kept (host.place t)) disk := by
  refine always_safe .nowNanos trivial h fun nanos d hd => ?_
  intro c r d₁ _ hperform
  have heff := effect_of_perform hperform
  have hsafe : Safe host Kept (.openExcl (stamped abs tempSuffix nanos) 384) := trivial
  have hd₁ := present_of_perform hsafe hd hperform
  cases r with
  | error => exact ⟨hd₁,nofun⟩
  | ok u =>
    have hfree : ¬Kept (host.place (stamped abs tempSuffix nanos)) := by
      intro hkept
      have hsome : (d.entry host (stamped abs tempSuffix nanos)).isSome=true := by
        rw [isSome_entry]
        exact isSome_iff_ne_none.mpr (hd _ hkept)
      simp only [effect,attempt,unlessFault,hsome] at heff
      split at heff
      · cases heff
      rename_i hout
      split at hout <;> cases hout
    have habandon : ∀ err d,Present Kept d → (abandon (stamped abs tempSuffix nanos) err).Always ok
        (fun r d => Present Kept d ∧ ∀ t,r=.ok t → ¬Kept (host.place t)) d :=
      fun err d hd => always_safe (.remove _) hfree hd fun _ d' hd' => ⟨hd',nofun⟩
    refine always_safe (.write _ data) trivial hd₁ fun r d₂ hd₂ => ?_
    cases r with
    | error err => exact always_safe (.close _) trivial hd₂ fun _ d hd => habandon err d hd
    | ok u =>
      refine always_safe (.sync _) trivial hd₂ fun r d₃ hd₃ => ?_
      cases r with
      | error err => exact always_safe (.close _) trivial hd₃ fun _ d hd => habandon err d hd
      | ok u =>
        refine always_safe (.close _) trivial hd₃ fun r d₄ hd₄ => ?_
        cases r with
        | error err => exact habandon err d₄ hd₄
        | ok =>
          refine ⟨hd₄,fun t ht => ?_⟩
          cases ht
          exact hfree

theorem safely_allMatch (targets : List (File×Path)) : Safely host Kept (allMatch host targets) := by
  induction targets with
  | nil => trivial
  | cons t rest ih =>
    refine ⟨trivial,onAnswer fun existing => ?_⟩
    dsimp only [Prog.bind]
    split
    · exact ih
    · trivial

theorem always_prepare (defaults : FileDefaults) {targets : List (File×Path)} (index : ℕ)
    (done : List FilePrep) (h : Present Kept disk) : (prepare defaults index done targets).Always ok
      (fun r d => Present Kept d ∧ ∀ preps,r=.ok preps → preps.map (·.abs)=done.map (·.abs)++targets.map Prod.snd) disk := by
  induction targets generalizing disk index done with
  | nil =>
    refine ⟨h,fun preps hpreps => ?_⟩
    cases hpreps
    exact (append_nil _).symm
  | cons t rest ih =>
    refine always_safe (.stat t.2) trivial h fun stat d hd => ?_
    refine always_seq (keeps_of_safely (safely_resolveOwnership t.1 defaults (ownershipStat stat)) hd) ?_
    rintro (err|owner) d' hd'
    · exact ⟨hd',nofun⟩
    refine (ih _ _ hd').mono fun r d'' hdone => ⟨hdone.1,fun preps hpreps => ?_⟩
    rw [hdone.2 preps hpreps,map_append,append_assoc]
    rfl

/-- The temporary file of a prepared file is there and is none of the files in question. -/
def TempApart (host : Host) (Kept : Path→Prop) (p : FilePrep) : Prop := ∃ t,p.tempPath=some t ∧ ¬Kept (host.place t)

theorem safely_cleanupTemps {preps : List FilePrep} (hpreps : ∀ p∈preps,TempApart host Kept p) :
    Safely host Kept (cleanupTemps preps) := by
  refine uses_forEach preps fun p hp => ?_
  obtain ⟨t,htemp,hapart⟩ := hpreps p hp
  simp only [htemp]
  exact ⟨hapart,fun _ => trivial⟩

theorem always_writeTemps (rest done : List FilePrep) (hdone : ∀ p∈done,TempApart host Kept p) (h : Present Kept disk) :
    (writeTemps done rest).Always ok (fun r d => Present Kept d ∧ ∀ preps,r=.ok preps →
      preps.map (·.abs)=(done++rest).map (·.abs) ∧ ∀ p∈preps,TempApart host Kept p) disk := by
  induction rest generalizing disk done with
  | nil =>
    refine ⟨h,fun preps hpreps => ?_⟩
    cases hpreps
    exact ⟨congrArg _ (append_nil done).symm,hdone⟩
  | cons p rest ih =>
    refine always_seq (always_writeTempFile p.abs p.file.bytes h) ?_
    rintro (err|t) d ⟨hd,htemp⟩
    · refine always_seq (keeps_of_safely (safely_cleanupTemps hdone) hd) fun _ d' hd' => ?_
      exact ⟨hd',nofun⟩
    have happended : ∀ q∈done++[{p with tempPath := some t}],TempApart host Kept q := by
      intro q hq
      rcases mem_append_row.mp hq with hq|rfl
      · exact hdone q hq
      · exact ⟨t,rfl,htemp t rfl⟩
    refine always_seq (keeps_of_safely (safely_applyOwnership t p.owner) hd) ?_
    rintro (err|u) d₁ hd₁
    · refine always_seq (keeps_of_safely (safely_cleanupTemps happended) hd₁) fun _ d' hd' => ?_
      exact ⟨hd',nofun⟩
    refine (ih _ happended hd₁).mono fun r d' hr => ⟨hr.1,fun preps hpreps => ?_⟩
    refine ⟨(hr.2 preps hpreps).1.trans ?_,(hr.2 preps hpreps).2⟩
    simp only [map_append,map_cons,append_assoc,cons_append,nil_append]

/-- A hook leaves the files in question there. -/
def HookKeeps (Kept : Path→Prop) (c : Choice) (disk : Disk) : Prop :=
  Present Kept disk → Present Kept {disk with entries := c.after disk.entries}

/-- No rename but the first file's fails, the reload hook does not fail, and hooks delete no destination. -/
def Unrolled (host : Host) (first : Option Path) (Kept : Path→Prop) : Prog.Allowed (fileSystem host) := fun op c disk =>
  match op with
  | .rename src dst => first=some dst ∨ (effect host (.rename src dst) c disk).1=.ok ()
  | .preCommit _ => HookKeeps Kept c disk
  | .postCommit => c.fault=none ∧ HookKeeps Kept c disk
  | _ => True

variable {first : Option Path}

theorem keeps_renameAll (preps : List FilePrep) (hpreps : ∀ p∈preps,TempApart host Kept p) (rest done : List FilePrep)
    (hsub : ∀ p∈rest,p∈preps) (hdone : done=[] ∨ ∀ p∈rest,first≠some p.abs) (hlater : ∀ p∈rest.tail,first≠some p.abs)
    (h : Present Kept disk) : Keeps (Unrolled host first Kept) Kept (renameAll preps done rest) disk := by
  induction rest generalizing disk done with
  | nil => exact h
  | cons p rest ih =>
    obtain ⟨t,htemp,hapart⟩ := hpreps p (hsub p mem_cons_self)
    unfold renameAll renameOne
    rw [htemp]
    intro c r d hok hperform
    have heff := effect_of_perform hperform
    have hsafe : Safe host Kept (.rename t p.abs) := hapart
    have hd := present_of_perform hsafe h hperform
    cases r with
    | error =>
      -- only the first rename may fail, and then there is nothing to undo
      rcases hdone with rfl|hnone
      · exact always_seq (p := cleanupTemps preps) (keeps_of_safely (safely_cleanupTemps hpreps) hd) fun _ _ hd => hd
      have hanswer := hok.resolve_left (hnone p mem_cons_self)
      rw [heff] at hanswer
      cases hanswer
    | ok =>
      refine ih _ (fun q hq => hsub q (mem_cons_of_mem p hq)) (.inr hlater) (fun q hq => ?_) hd
      exact hlater q (mem_of_mem_tail hq)

theorem keeps_commit (hret : plan.backupRetention= -1) {preps : List FilePrep} {res : Result}
    (hpreps : ∀ p∈preps,TempApart host Kept p) (hlater : ∀ p∈preps.tail,first≠some p.abs) (h : Present Kept disk) :
    Keeps (Unrolled host first Kept) Kept (commit plan preps res) disk := by
  have hfinish : ∀ res d,Present Kept d → Keeps (Unrolled host first Kept) Kept (finish plan preps res) d := by
    intro res d hd
    have hkeep : ¬0<retention plan := by
      rw [retention,hret]
      decide
    unfold finish pruneAll
    rw [if_neg hkeep]
    exact hd
  have hinstall : ∀ res d,Present Kept d → Keeps (Unrolled host first Kept) Kept (install plan preps res) d := by
    intro res d hd
    refine always_seq (keeps_renameAll preps hpreps preps [] (fun _ hp => hp) (.inl rfl) hlater hd) ?_
    rintro (err|u) d₁ hd₁
    · exact hd₁
    dsimp only
    unfold reload
    split
    · intro c r d₂ hok hperform
      have heff := effect_of_perform hperform
      simp only [effect,unlessFault,hok.1] at heff
      cases heff
      exact hfinish res _ (hok.2 hd₁)
    · exact hfinish res d₁ hd₁
  unfold commit
  split
  · intro c r d hok hperform
    have hd : Present Kept d := by
      have heff : {disk with entries := c.after disk.entries}=d := congrArg Prod.snd (effect_of_perform hperform)
      rw [← heff]
      exact hok h
    cases r with
    | error => exact always_seq (p := cleanupTemps preps) (keeps_of_safely (safely_cleanupTemps hpreps) hd) fun _ _ hd => hd
    | ok => exact hinstall _ d hd
  · exact hinstall _ disk h

def existing (host : Host) (plan : Plan) (before : Disk) (x : Path) : Prop :=
  Dest host (destinations host plan) x ∧ before.held x≠none

/-- Without backups, a run in which no rename but the first file's fails, the reload hook does not
fail and no hook deletes a destination leaves every destination there that was there. -/
theorem apply_without_backups_keeps (host : Host) (plan : Plan) (hret : plan.backupRetention= -1) {before after : Disk}
    {out : Outcome} (hrun : (apply host plan).Exec
      (Unrolled host (destinations host plan).head? (existing host plan before)) before out after) :
    ∀ abs∈destinations host plan,before.held (host.place abs)≠none → after.held (host.place abs)≠none := by
  suffices hkeeps : Keeps (Unrolled host (destinations host plan).head? (existing host plan before))
      (existing host plan before) (apply host plan) before by
    have hafter := (always_iff_exec _ _ _).mp hkeeps out after hrun
    exact fun abs habs hheld => hafter _ ⟨⟨abs,habs,rfl⟩,hheld⟩
  have hstart : Present (existing host plan before) before := fun x hx => hx.2
  unfold apply
  split
  · exact hstart
  rename_i hvalid
  obtain ⟨targets,htargets,hdests,-,-,hnodup,-⟩ := absPaths_of_validateFiles (files_of_validatePlan hvalid)
  rw [htargets]
  have hlater : ∀ preps : List FilePrep,preps.map (·.abs)=targets.map Prod.snd →
      ∀ p∈preps.tail,(destinations host plan).head?≠some p.abs := by
    intro preps hpreps p hp hhead
    rw [← hpreps] at hnodup
    rw [destinations,← hdests,← hpreps] at hhead
    cases preps with
    | nil => exact not_mem_nil hp
    | cons => exact (nodup_cons.mp hnodup).1 (mem_map.mpr ⟨p,hp,(Option.some.inj hhead).symm⟩)
  have hdeploy : ∀ d,Present (existing host plan before) d →
      Keeps (Unrolled host (destinations host plan).head? (existing host plan before)) (existing host plan before)
        (deploy plan targets) d := by
    intro d hd
    refine always_seq (always_prepare plan.defaults 0 [] hd) ?_
    rintro (err|looked) d₁ ⟨hd₁,hlooked⟩
    · exact hd₁
    unfold backupThenStage
    rw [hret]
    refine always_seq (always_writeTemps looked [] (forall_mem_nil _) hd₁) ?_
    rintro (err|preps) d₂ ⟨hd₂,hpreps⟩
    · exact hd₂
    obtain ⟨hsame,hapart⟩ := hpreps preps rfl
    exact keeps_commit hret hapart (hlater preps (hsame.trans (hlooked looked rfl))) hd₂
  refine always_seq (keeps_of_safely (uses_forEach _ fun _ _ => ⟨trivial,fun _ => trivial⟩) hstart) fun _ d hd => ?_
  refine always_bind.mpr (Prog.Always.mono (Q := fun _ d => Present (existing host plan before) d) ?_ ?_)
  · intro out d₁ hd₁
    exact always_seq (keeps_of_safely (uses_forEach _ fun _ _ => ⟨trivial,fun _ => trivial⟩) hd₁) fun _ d' hd' => hd'
  refine always_safe .ctxErr trivial hd fun r d₁ hd₁ => ?_
  cases r with
  | some => exact hd₁
  | none =>
    dsimp only
    split
    · exact hdeploy d₁ hd₁
    refine always_seq (keeps_of_safely (safely_allMatch targets) hd₁) fun same d₂ hd₂ => ?_
    split
    · exact hd₂
    · exact hdeploy d₂ hd₂

/-- Two files and the reload hook, without backups. -/
def barePlan : Plan where
  files := [{path := "cert.pem", bytes := [1]},{path := "key.pem", bytes := [2]}]
  postCommit := true
  backupRetention := -1

def barePath (name : String) : Path := ⟨"/etc/tls",name⟩

def bareDisk : Disk := ⟨[⟨barePath "cert.pem",some [0],420,0,0⟩,⟨barePath "key.pem",some [0],384,0,0⟩],[]⟩

/-- Renames succeed, and so does the reload hook, which changes no file. -/
def bareOk (op : Op) (c : Choice) (d : Disk) : Bool :=
  match op with
  | .rename src dst => (effect sampleHost (.rename src dst) c d).1.isOk
  | .preCommit _ => false
  | .postCommit => c.fault=none && c.after d.entries=d.entries
  | _ => true

instance (op : Op) (c : Choice) (d : Disk) :
    Decidable ((fun op c d => bareOk op c d=true : Prog.Allowed (fileSystem sampleHost)) op c d) :=
  inferInstanceAs (Decidable (bareOk op c d=true))

theorem unrolled_of_bareOk {first : Option Path} {Kept : Path→Prop} (op : Op) (c : Choice) (d : Disk)
    (h : bareOk op c d=true) : Unrolled sampleHost first Kept op c d := by
  cases op with
  | rename src dst =>
    have hok : ∀ r : Try Unit,r.isOk=true → r=.ok () := by
      rintro (err|⟨⟩) h
      · cases h
      · rfl
    exact .inr (hok _ h)
  | preCommit => cases h
  | postCommit =>
    obtain ⟨hfault,hafter⟩ := Bool.and_eq_true_iff.mp h
    refine ⟨of_decide_eq_true hfault,fun hpresent => ?_⟩
    rw [of_decide_eq_true hafter]
    exact hpresent
  | _ => trivial

/-- Both files are replaced and the services reloaded. -/
theorem apply_without_backups_sample : ∃ out after,barePlan.backupRetention= -1 ∧
    (apply sampleHost barePlan).Exec (Unrolled sampleHost (destinations sampleHost barePlan).head?
      (existing sampleHost barePlan bareDisk)) bareDisk out after ∧
    after.held (barePath "cert.pem")=some (some [1]) ∧ after.held (barePath "key.pem")≠none := by
  have hrun : ∃ out after,(apply sampleHost barePlan).runAllowed (fun op c d => bareOk op c d=true)
      (List.replicate 25 ({} : Choice)) bareDisk=some (out,after) ∧ after.held (barePath "cert.pem")=some (some [1]) :=
    ⟨_,_,rfl,rfl⟩
  obtain ⟨out,after,hrun,hcert⟩ := hrun
  have hexec : (apply sampleHost barePlan).Exec (Unrolled sampleHost (destinations sampleHost barePlan).head?
      (existing sampleHost barePlan bareDisk)) bareDisk out after :=
    Prog.Exec.mono unrolled_of_bareOk (exec_of_runAllowed hrun)
  exact ⟨out,after,rfl,hexec,hcert,apply_without_backups_keeps sampleHost barePlan rfl hexec (barePath "key.pem")
    (mem_cons_of_mem _ mem_cons_self) (some_ne_none _)⟩

/-- The reload hook fails, nothing else does, and the files are gone. -/
theorem failed_reload_loses_file : barePlan.backupRetention= -1 ∧ validatePlan sampleHost barePlan=none ∧
    bareDisk.held (barePath "cert.pem")=some (some [0]) ∧ ∃ out after,(apply sampleHost barePlan).run
      (List.replicate 22 ({} : Choice)++[({fault := some "reload"} : Choice)]++List.replicate 10 ({} : Choice)) bareDisk=
        some (out,after) ∧ after.held (barePath "cert.pem")=none := by
  refine ⟨rfl,by decide,rfl,_,_,rfl,rfl⟩

end Certctl.DeployWithoutBackups
