import Certctl.DeployApply

/-!
# Rules for the operations of a deployment

What is assumed of the surroundings of a deployment, and one rule for
each operation that says how it can answer and what it leaves on the
disk. The rules only speak about what is at which place, so the proofs
about the program never look into the list of entries. An error that is
not explained by the disk is charged to a proposition of the reader's
choice: with `True` the rules cover all failures, with `False` none.
-/

namespace Certctl.DeployFileRules

open AtomicProgram DeployFileSystem DeployApply DomainRecords RecordTable Option

variable {c : Choice} {host : Host} {dests : List Path} {ok : Prog.Allowed (fileSystem host)} {Faulty : Prop}

/-- A destination of the plan leads to this place. -/
def Dest (host : Host) (dests : List Path) (x : Path) : Prop := ∃ abs∈dests,host.place abs=x

/-- The place belongs to the plan: a destination, or beside one under a temporary or backup name. -/
def Planned (host : Host) (dests : List Path) (x : Path) : Prop :=
  ∃ abs∈dests,∃ tail,x=host.place ⟨abs.dir,abs.base++tail⟩ ∧
    (tail="" ∨ hasPrefix tail tempSuffix=true ∨ hasPrefix tail backupSuffix=true)

/-- No file has a temporary or backup name with this time, nor is a destination named so. -/
def FreshTime (host : Host) (dests : List Path) (disk : Disk) (nanos : ℕ) : Prop :=
  ∀ abs∈dests,∀ suffix∈[tempSuffix,backupSuffix], disk.held (host.place (stamped abs suffix nanos))=none ∧
      ¬Dest host dests (host.place (stamped abs suffix nanos))

/-- A hook does not touch the files of the plan. -/
def LeavesPlan (host : Host) (dests : List Path) (c : Choice) (disk : Disk) : Prop :=
  ∀ x,Planned host dests x → ({disk with entries := c.after disk.entries} : Disk).held x=disk.held x

/-- Looking at a file fails only if it is absent, names are fresh, hooks leave the plan's files alone. -/
def Orderly (host : Host) (dests : List Path) : Prog.Allowed (fileSystem host) := fun op c disk =>
  match op with
  | .stat _ => c.fault=none
  | .nowNanos => FreshTime host dests disk c.nanos
  | .preCommit _ => LeavesPlan host dests c disk
  | .postCommit => LeavesPlan host dests c disk
  | _ => True

/-- Surroundings that are orderly, never leave a call unanswered, and fail for a reason. -/
structure Surroundings (host : Host) (dests : List Path) (ok : Prog.Allowed (fileSystem host))
    (Faulty : Prop) : Prop where
  /-- Some choice is allowed at every operation. -/
  live : ∀ op disk,∃ c,ok op c disk
  orderly : ∀ op c disk,ok op c disk → Orderly host dests op c disk
  charged : ∀ op c disk,ok op c disk → (∀ p,op≠.remove p) → c.fault≠none → Faulty

def SameOff (y : Path) (before after : Disk) : Prop := ∀ x,x≠y → after.held x=before.held x

theorem SameOff.trans {y : Path} {d₁ d₂ d₃ : Disk} (h₁ : SameOff y d₁ d₂) (h₂ : SameOff y d₂ d₃) :
    SameOff y d₁ d₃ := fun x hx => (h₂ x hx).trans (h₁ x hx)

def SameHeld (before after : Disk) : Prop := ∀ x,after.held x=before.held x

theorem unlessFault_none {α : Type} (h : c.fault=none) (outcome : Try α) : unlessFault c outcome=outcome := by
  simp only [unlessFault,h]

theorem unlessFault_some {α : Type} {text : String} (h : c.fault=some text)
    (outcome : Try α) : unlessFault c outcome=.error ⟨text,none⟩ := by
  simp only [unlessFault,h]

variable {α : Type} {Q : α→Disk→Prop} {disk : Disk} {k : Try Unit→Files host α}

theorem total_request (henv : Surroundings host dests ok Faulty) {op : Op} {k : Res op→Files host α}
    (h : ∀ c,ok op c disk → (k (effect host op c disk).1).Total ok Q (effect host op c disk).2)
    (hlock : ∀ p,op≠.lock p := by rintro _ ⟨⟩) : ((request op).bind k).Total ok Q disk := by
  have hopen : blocked disk op=false := by
    cases op with
    | lock p => exact absurd rfl (hlock p)
    | _ => rfl
  have hperform : ∀ c,(fileSystem host).perform op c disk=some (effect host op c disk) := by
    intro c
    simp only [hopen,Bool.false_eq_true,if_false]
  constructor
  · obtain ⟨c,hc⟩ := henv.live op disk
    exact ⟨c,(effect host op c disk).1,(effect host op c disk).2,hc,hperform c⟩
  · intro c r disk' hc hp
    rw [hperform c,Option.some.injEq] at hp
    have hr : (effect host op c disk).1=r := congrArg Prod.fst hp
    have hdisk : (effect host op c disk).2=disk' := congrArg Prod.snd hp
    rw [← hr,← hdisk]
    exact h c hc

theorem total_attempt {outcome : Try Disk}
    (hfault : ∀ err,c.fault≠none → err.wraps=none → (k (.error err)).Total ok Q disk)
    (herr : ∀ err,outcome=.error err → (k (.error err)).Total ok Q disk)
    (hok : ∀ disk',outcome=.ok disk' → (k (.ok ())).Total ok Q disk') :
    (k (attempt c disk outcome).1).Total ok Q (attempt c disk outcome).2 := by
  cases hf : c.fault with
  | some text =>
    have hne : c.fault≠none := by
      rw [hf]
      exact some_ne_none text
    simp only [attempt,unlessFault_some hf]
    exact hfault ⟨text,none⟩ hne rfl
  | none =>
    cases ho : outcome with
    | error err =>
      simp only [attempt,unlessFault_none hf]
      exact herr err ho
    | ok disk' =>
      simp only [attempt,unlessFault_none hf]
      exact hok disk' ho

theorem total_answer {β : Type} {outcome : Try β} {k : Try β→Files host α}
    (hfault : ∀ err,c.fault≠none → (k (.error err)).Total ok Q disk)
    (h : c.fault=none → (k outcome).Total ok Q disk) : (k (unlessFault c outcome)).Total ok Q disk := by
  cases hf : c.fault with
  | some text =>
    have hne : c.fault≠none := by
      rw [hf]
      exact some_ne_none text
    rw [unlessFault_some hf]
    exact hfault ⟨text,none⟩ hne
  | none =>
    rw [unlessFault_none hf]
    exact h hf

section

variable (henv : Surroundings host dests ok Faulty)
include henv

/-- Failures of an operation that is not a removal are charged. -/
theorem total_charged {op : Op} {k : Res op→Files host α} (h : ∀ c,ok op c disk → (c.fault≠none → Faulty) →
      (k (effect host op c disk).1).Total ok Q (effect host op c disk).2)
    (hlock : ∀ p,op≠.lock p := by rintro _ ⟨⟩) (hremove : ∀ p,op≠.remove p := by rintro _ ⟨⟩) : ((request op).bind k).Total ok Q disk :=
  total_request henv (fun c hc => h c hc (henv.charged op c disk hc hremove)) hlock

theorem total_readFile (p : Path) {k : Try Bytes→Files host α}
    (herr : ∀ err,Faulty ∨ disk.held (host.place p)=none ∨ disk.held (host.place p)=some none →
      (k (.error err)).Total ok Q disk)
    (hok : ∀ data,disk.held (host.place p)=some (some data) → (k (.ok data)).Total ok Q disk) :
    ((request (.readFile p)).bind k).Total ok Q disk := by
  refine total_charged henv fun c _ hcharged => ?_
  refine total_answer (fun err hne => ?_) fun _ => ?_
  · exact herr err (.inl (hcharged hne))
  cases hheld : disk.held (host.place p) with
  | none =>
    simp only [contents,hheld]
    exact herr _ (.inr (.inl hheld))
  | some content =>
    cases content with
    | none =>
      simp only [contents,hheld]
      exact herr _ (.inr (.inr hheld))
    | some data =>
      simp only [contents,hheld]
      exact hok data hheld

theorem total_stat (p : Path) {k : Try FileInfo→Files host α}
    (habsent : ∀ err,disk.held (host.place p)=none → (k (.error err)).Total ok Q disk)
    (hpresent : ∀ info,(disk.held (host.place p)).isSome=true → (k (.ok info)).Total ok Q disk) :
    ((request (.stat p)).bind k).Total ok Q disk := by
  refine total_request henv fun c hc => ?_
  have hnone : c.fault=none := henv.orderly _ c disk hc
  refine total_answer (fun err hne => absurd hnone hne) fun _ => ?_
  cases hentry : disk.entry host p with
  | none =>
    simp only [information,hentry]
    refine habsent _ ?_
    rw [← not_isSome_iff_eq_none,← isSome_entry,hentry]
    exact Bool.false_ne_true
  | some =>
    simp only [information,hentry]
    refine hpresent _ ?_
    rw [← isSome_entry,hentry]
    rfl

theorem total_ctxErr {k : Err→Files host α}
    (herr : ∀ err : GoError,Faulty → err.wraps=none → (k (some err)).Total ok Q disk)
    (hok : (k none).Total ok Q disk) : ((request .ctxErr).bind k).Total ok Q disk := by
  refine total_charged henv fun c _ hcharged => ?_
  cases hf : c.fault with
  | none =>
    simp only [effect,hf]
    exact hok
  | some text =>
    rw [hf] at hcharged
    simp only [effect,hf]
    exact herr _ (hcharged (some_ne_none text)) rfl

theorem total_lookupUser (name : String)
    {k : Try ℤ→Files host α} (herr : ∀ err,Faulty → (k (.error err)).Total ok Q disk)
    (hok : ∀ id,(k (.ok id)).Total ok Q disk) : ((request (.lookupUser name)).bind k).Total ok Q disk := by
  refine total_charged henv fun c _ hcharged => ?_
  refine total_answer (fun err hne => ?_) fun _ => hok c.id
  exact herr err (hcharged hne)

theorem total_lookupGroup (name : String)
    {k : Try ℤ→Files host α} (herr : ∀ err,Faulty → (k (.error err)).Total ok Q disk)
    (hok : ∀ id,(k (.ok id)).Total ok Q disk) : ((request (.lookupGroup name)).bind k).Total ok Q disk := by
  refine total_charged henv fun c _ hcharged => ?_
  refine total_answer (fun err hne => ?_) fun _ => hok c.id
  exact herr err (hcharged hne)

theorem total_readDir (dir : String) {k : Try (List DirEntry)→Files host α}
    (herr : ∀ err,Faulty → (k (.error err)).Total ok Q disk)
    (hok : (k (.ok (listing host disk dir))).Total ok Q disk) :
    ((request (.readDir dir)).bind k).Total ok Q disk := by
  refine total_charged henv fun c _ hcharged => ?_
  refine total_answer (fun err hne => ?_) fun _ => hok
  exact herr err (hcharged hne)

theorem total_nowNanos {k : ℕ→Files host α} (h : ∀ nanos,FreshTime host dests disk nanos → (k nanos).Total ok Q disk) :
    ((request .nowNanos).bind k).Total ok Q disk := by
  refine total_request henv fun c hc => ?_
  exact h c.nanos (henv.orderly _ c disk hc)

theorem total_openExcl (p : Path) (perm : ℕ) (hfree : disk.held (host.place p)=none)
    (herr : ∀ err,Faulty → (k (.error err)).Total ok Q disk)
    (hok : ∀ disk',disk'.held (host.place p)=some (some []) → SameOff (host.place p) disk disk' →
      (k (.ok ())).Total ok Q disk') :
    ((request (.openExcl p perm)).bind k).Total ok Q disk := by
  refine total_charged henv fun c _ hcharged => ?_
  have hentry : (disk.entry host p).isSome=false := by rw [isSome_entry,hfree]; rfl
  simp only [effect,hentry,Bool.false_eq_true]
  refine total_attempt (fun err hne _ => ?_) nofun fun disk' h => ?_
  · exact herr err (hcharged hne)
  cases h
  refine hok _ ?_ fun x hx => ?_
  · rw [held_put]
    exact if_pos rfl
  · rw [held_put]
    exact if_neg (Ne.symm hx)

theorem total_write (p : Path) (data : Bytes) (hopen : (disk.held (host.place p)).isSome=true)
    (herr : ∀ err disk',Faulty → SameOff (host.place p) disk disk' → (k (.error err)).Total ok Q disk')
    (hok : ∀ disk',disk'.held (host.place p)=some (some data) → SameOff (host.place p) disk disk' →
      (k (.ok ())).Total ok Q disk') :
    ((request (.write p data)).bind k).Total ok Q disk := by
  refine total_charged henv fun c _ hcharged => ?_
  cases hf : c.fault with
  | some text =>
    have hne : c.fault≠none := by
      rw [hf]
      exact some_ne_none text
    simp only [effect,hf]
    refine herr _ _ (hcharged hne) fun x hx => ?_
    exact held_alter_of_ne (Entry.rewritten_place _) disk hx
  | none =>
    simp only [effect,hf]
    refine hok _ ?_ fun x hx => ?_
    · obtain ⟨content,hheld⟩ := isSome_iff_exists.mp hopen
      obtain ⟨e,he,-⟩ := entry_of_held hheld
      have hlookup : lookup Entry.place (host.place p) disk.entries=some e := he
      rw [held_alter_self (Entry.rewritten_place data),hlookup]
      rfl
    · exact held_alter_of_ne (Entry.rewritten_place _) disk hx

section

variable (p : Path) (herr : ∀ err,Faulty → (k (.error err)).Total ok Q disk) (hok : (k (.ok ())).Total ok Q disk)
include p herr hok

theorem total_sync : ((request (.sync p)).bind k).Total ok Q disk := by
  refine total_charged henv fun c _ hcharged => ?_
  refine total_attempt (fun err hne _ => ?_) nofun fun disk' h => ?_
  · exact herr err (hcharged hne)
  cases h
  exact hok

theorem total_close : ((request (.close p)).bind k).Total ok Q disk := by
  refine total_charged henv fun c _ hcharged => ?_
  refine total_attempt (fun err hne _ => ?_) nofun fun disk' h => ?_
  · exact herr err (hcharged hne)
  cases h
  exact hok

end

theorem total_writeFile (p : Path) (data : Bytes) (perm : ℕ) (hfree : disk.held (host.place p)=none)
    (herr : ∀ err disk',Faulty → SameOff (host.place p) disk disk' → (k (.error err)).Total ok Q disk')
    (hok : ∀ disk',disk'.held (host.place p)=some (some data) → SameOff (host.place p) disk disk' →
      (k (.ok ())).Total ok Q disk') :
    ((request (.writeFile p data perm)).bind k).Total ok Q disk := by
  have hnew : ∀ bytes,overwrite host disk p bytes perm=.ok (disk.put (newFile host p bytes perm)) := by
    intro bytes
    simp only [overwrite,Disk.entry,map_eq_none_iff.mp hfree]
  have hoff : ∀ bytes,SameOff (host.place p) disk (disk.put (newFile host p bytes perm)) := by
    intro bytes x hx
    rw [held_put]
    exact if_neg (Ne.symm hx)
  refine total_charged henv fun c _ hcharged => ?_
  cases hf : c.fault with
  | some text =>
    rw [hf] at hcharged
    have hfaulty := hcharged (some_ne_none text)
    cases hw : c.written with
    | some =>
      simp only [effect,hf,hw,hnew]
      exact herr _ _ hfaulty (hoff _)
    | none =>
      simp only [effect,hf,hw,attempt,unlessFault_some hf]
      exact herr _ _ hfaulty fun x _ => rfl
  | none =>
    simp only [effect,hf,hnew,attempt,unlessFault_none hf]
    refine hok _ ?_ (hoff data)
    rw [held_put]
    exact if_pos rfl

theorem total_remove (p : Path) (herr : ∀ err,(err.is .fileNotExist=true → disk.held (host.place p)=none) →
      (k (.error err)).Total ok Q disk)
    (hok : ∀ disk',disk'.held (host.place p)=none → SameOff (host.place p) disk disk' → (k (.ok ())).Total ok Q disk') :
    ((request (.remove p)).bind k).Total ok Q disk := by
  refine total_request henv fun c hc => ?_
  refine total_attempt (fun err _ hwraps => herr err fun his => ?_) (fun err h => ?_) fun disk' h => ?_
  · simp only [GoError.is,hwraps,reduceCtorEq,decide_false] at his
  · refine herr err fun _ => ?_
    cases hheld : disk.held (host.place p) with
    | none => rfl
    | some =>
      rw [isSome_entry,hheld] at h
      cases h
  split at h
  · cases h
    refine hok _ ?_ fun x hx => ?_
    · rw [held_without]
      exact if_pos rfl
    · rw [held_without]
      exact if_neg (Ne.symm hx)
  · cases h

theorem total_discard (p : Path) (h : ∀ r disk',SameOff (host.place p) disk disk' → (k r).Total ok Q disk') :
    ((request (.remove p)).bind k).Total ok Q disk :=
  total_remove henv p (fun _ _ => h _ disk fun _ _ => rfl) fun disk' _ hoff => h _ disk' hoff

theorem total_rename (src dst : Path) {content : Option Bytes} (hsrc : disk.held (host.place src)=some content)
    (herr : ∀ err,Faulty ∨ disk.held (host.place dst)=some none → (k (.error err)).Total ok Q disk)
    (hok : ∀ disk',disk'.held (host.place dst)=some content →
      (∀ x,x≠host.place src → x≠host.place dst → disk'.held x=disk.held x) →
      (k (.ok ())).Total ok Q disk') :
    ((request (.rename src dst)).bind k).Total ok Q disk := by
  obtain ⟨e,hentry,hcontent⟩ := entry_of_held hsrc
  refine total_charged henv fun c hc hcharged => ?_
  refine total_attempt (fun err hne _ => ?_) (fun err h => ?_) fun disk' h => ?_
  · exact herr err (.inl (hcharged hne))
  · simp only [moved,hentry] at h
    split at h
    · rename_i hdir
      exact herr err (.inr hdir)
    · cases h
  simp only [moved,hentry] at h
  split at h
  · cases h
  cases h
  refine hok _ ?_ fun x hxsrc hxdst => ?_
  · rw [held_put,if_pos rfl,hcontent]
  · rw [held_put,if_neg (Ne.symm hxdst),held_without,if_neg (Ne.symm hxsrc)]

end

theorem total_attributes {name : String} {p : Path} {f : Entry→Entry} (hplace : ∀ e,(f e).place=e.place)
    (hcontent : ∀ e,(f e).content=e.content) (hsome : (disk.held (host.place p)).isSome=true)
    (herr : ∀ err,c.fault≠none → (k (.error err)).Total ok Q disk)
    (hok : ∀ disk',SameHeld disk disk' → (k (.ok ())).Total ok Q disk') :
    (k (attempt c disk (withAttributes host disk name p f)).1).Total ok Q
      (attempt c disk (withAttributes host disk name p f)).2 := by
  obtain ⟨content,hheld⟩ := isSome_iff_exists.mp hsome
  obtain ⟨e,hentry,-⟩ := entry_of_held hheld
  have halter : withAttributes host disk name p f=.ok (disk.alter (host.place p) f) := by
    simp only [withAttributes,hentry]
  rw [halter]
  refine total_attempt (fun err hne _ => herr err hne) nofun fun disk' h => ?_
  cases h
  exact hok _ (held_alter_same hplace hcontent disk (host.place p))

section

variable (henv : Surroundings host dests ok Faulty) {p : Path} (hsome : (disk.held (host.place p)).isSome=true)
  (herr : ∀ err,Faulty → (k (.error err)).Total ok Q disk)
  (hok : ∀ disk',SameHeld disk disk' → (k (.ok ())).Total ok Q disk')
include henv hsome herr hok

theorem total_chmod {perm : ℕ} : ((request (.chmod p perm)).bind k).Total ok Q disk := by
  refine total_charged henv fun c _ hcharged => ?_
  refine total_attributes (fun _ => rfl) (fun _ => rfl) hsome (fun err hne => ?_) hok
  exact herr err (hcharged hne)

theorem total_chown {uid gid : ℤ} : ((request (.chown p uid gid)).bind k).Total ok Q disk := by
  refine total_charged henv fun c _ hcharged => ?_
  refine total_attributes (fun _ => rfl) (fun _ => rfl) hsome (fun err hne => ?_) hok
  exact herr err (hcharged hne)

end

def SamePlanned (host : Host) (dests : List Path) (before after : Disk) : Prop :=
  ∀ x,Planned host dests x → after.held x=before.held x

theorem total_hook (hleaves : LeavesPlan host dests c disk)
    (herr : ∀ err disk',c.fault≠none → SamePlanned host dests disk disk' → (k (.error err)).Total ok Q disk')
    (hok : ∀ disk',SamePlanned host dests disk disk' → (k (.ok ())).Total ok Q disk') :
    (k (unlessFault c (.ok ()))).Total ok Q {disk with entries := c.after disk.entries} :=
  total_answer (fun err hne => herr err _ hne hleaves) fun _ => hok _ hleaves

section

variable (henv : Surroundings host dests ok Faulty)
  (herr : ∀ err disk',Faulty → SamePlanned host dests disk disk' → (k (.error err)).Total ok Q disk')
  (hok : ∀ disk',SamePlanned host dests disk disk' → (k (.ok ())).Total ok Q disk')
include henv herr hok

theorem total_preCommit {temps : List (Path×Path)} : ((request (.preCommit temps)).bind k).Total ok Q disk := by
  refine total_charged henv fun c hc hcharged => ?_
  refine total_hook (henv.orderly _ c disk hc) (fun err disk' hne => ?_) hok
  exact herr err disk' (hcharged hne)

theorem total_postCommit : ((request .postCommit).bind k).Total ok Q disk := by
  refine total_charged henv fun c hc hcharged => ?_
  refine total_hook (henv.orderly _ c disk hc) (fun err disk' hne => ?_) hok
  exact herr err disk' (hcharged hne)

end

end Certctl.DeployFileRules
