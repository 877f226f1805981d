import Certctl.AtomicProgram
import Certctl.DomainRecords
import Certctl.RecordTable

/-!
# The file system under a deployment

A disk is the list of its entries, each at one place: a directory with
all links resolved, and a name in it. A path names a place through the
host's directory links, so two paths may name one place. Every operation
can fail; a failed write leaves any initial part of its bytes behind.
The hooks of a plan run outside and may rewrite the whole disk.
-/

namespace Certctl.DeployFileSystem

open AtomicProgram DomainRecords RecordTable Option

abbrev Bytes := List UInt8

/-- An absolute path, split into its directory and its last element. -/
structure Path where
  /-- Everything before the last separator. -/
  dir : String
  base : String
deriving DecidableEq

def Path.text (p : Path) : String := if p.dir="/" then "/"++p.base else p.dir++"/"++p.base

/-- A file or directory. -/
structure Entry where
  /-- Where it is, with all directory links resolved. -/
  place : Path
  content : Option Bytes
  perm : ℕ
  uid : ℤ
  gid : ℤ
deriving DecidableEq

def Entry.rewritten (data : Bytes) (e : Entry) : Entry := {e with content := some data}

@[simp] theorem Entry.rewritten_place (data : Bytes) (e : Entry) : (Entry.rewritten data e).place=e.place := rfl

def Entry.permitted (perm : ℕ) (e : Entry) : Entry := {e with perm := perm}

def Entry.owned (uid gid : ℤ) (e : Entry) : Entry := {e with uid := uid, gid := gid}

/-- What the machine and the process fix for the whole call. -/
structure Host where
  /-- Absolute form of a path as the plan spells it. -/
  abs : String→Try Path
  /-- The directory that a directory path leads to. -/
  realDir : String→String
  /-- The hash of the idempotency check. -/
  sha256 : Bytes→Bytes
  /-- Permission bits left by the process's mask. -/
  masked : ℕ→ℕ
  euid : ℤ
  egid : ℤ

def Host.place (host : Host) (p : Path) : Path := ⟨host.realDir p.dir,p.base⟩

/-- The files and the mutexes of the process. -/
structure Disk where
  entries : List Entry
  locks : List Path := []

/-- Its attributes. -/
structure FileInfo where
  perm : ℕ
  uid : ℤ
  gid : ℤ
deriving DecidableEq

/-- One line of a directory listing. -/
structure DirEntry where
  name : String
  /-- The entry is a directory itself. -/
  isDir : Bool
deriving DecidableEq

/-- Everything a deployment asks of its surroundings. -/
inductive Op where
  | lock (p : Path)
  | unlock (p : Path)
  | ctxErr
  | readFile (p : Path)
  | stat (p : Path)
  | lookupUser (name : String)
  | lookupGroup (name : String)
  | readDir (dir : String)
  | openExcl (p : Path) (perm : ℕ)
  | write (p : Path) (data : Bytes)
  | sync (p : Path)
  | close (p : Path)
  | writeFile (p : Path) (data : Bytes) (perm : ℕ)
  | remove (p : Path)
  | rename (src dst : Path)
  | chmod (p : Path) (perm : ℕ)
  | chown (p : Path) (uid gid : ℤ)
  | nowNanos
  | preCommit (tempPaths : List (Path×Path))
  | postCommit

@[reducible] def Res : Op→Type
  | .lock _ | .unlock _ => Unit
  | .ctxErr => Err
  | .readFile _ => Try Bytes
  | .stat _ => Try FileInfo
  | .lookupUser _ | .lookupGroup _ => Try ℤ
  | .readDir _ => Try (List DirEntry)
  | .nowNanos => ℕ
  | .openExcl _ _ | .write _ _ | .sync _ | .close _ | .writeFile _ _ _ | .remove _ | .rename _ _
  | .chmod _ _ | .chown _ _ _ | .preCommit _ | .postCommit => Try Unit

/-- What the surroundings decide at one operation. -/
structure Choice where
  /-- The operation fails, with this text. -/
  fault : Option String := none
  /-- Bytes that a failed write leaves; absent if the file was never opened. -/
  written : Option ℕ := none
  /-- The clock, in nanoseconds since the Unix epoch. -/
  nanos : ℕ := 0
  /-- The numeric identity a name resolves to. -/
  id : ℤ := 0
  /-- What a hook does to the files. -/
  after : List Entry→List Entry := fun entries => entries

def Disk.entry (host : Host) (disk : Disk) (p : Path) : Option Entry := lookup Entry.place (host.place p) disk.entries

/-- What is at a place: nothing, a directory, or a file with its bytes. -/
def Disk.held (disk : Disk) (x : Path) : Option (Option Bytes) := (lookup Entry.place x disk.entries).map Entry.content

def Disk.put (disk : Disk) (entry : Entry) : Disk := {disk with entries := upsert Entry.place entry disk.entries}

def Disk.without (disk : Disk) (x : Path) : Disk := {disk with entries := RecordTable.remove Entry.place x disk.entries}

def Disk.alter (disk : Disk) (x : Path) (f : Entry→Entry) : Disk :=
  {disk with entries := modify Entry.place x f disk.entries}

def pathError (op : String) (p : Path) (cause : String) (wraps : Option Sentinel := none) : GoError :=
  ⟨op++" "++p.text++": "++cause,wraps⟩

def notExist (op : String) (p : Path) : GoError := pathError op p "no such file or directory" (some .fileNotExist)

def unlessFault {α : Type} (c : Choice) (outcome : Try α) : Try α :=
  match c.fault with
  | some text => .error ⟨text,none⟩
  | none => outcome

/-- A change that happens as a whole or not at all. -/
def attempt (c : Choice) (disk : Disk) (outcome : Try Disk) : Try Unit×Disk :=
  match unlessFault c outcome with
  | .error err => (.error err,disk)
  | .ok disk' => (.ok (),disk')

def newFile (host : Host) (p : Path) (data : Bytes) (perm : ℕ) : Entry :=
  ⟨host.place p,some data,host.masked perm,host.euid,host.egid⟩

def overwrite (host : Host) (disk : Disk) (p : Path) (data : Bytes) (perm : ℕ) : Try Disk :=
  match disk.entry host p with
  | none => .ok (disk.put (newFile host p data perm))
  | some ⟨_,none,_,_,_⟩ => .error (pathError "open" p "is a directory")
  | some ⟨_,some _,_,_,_⟩ => .ok (disk.alter (host.place p) (Entry.rewritten data))

/-- Move an entry over whatever file is at the destination. -/
def moved (host : Host) (disk : Disk) (src dst : Path) : Try Disk :=
  match disk.entry host src with
  | none => .error (notExist "rename" src)
  | some e =>
    if disk.held (host.place dst)=some none then .error (pathError "rename" dst "file exists")
    else .ok ((disk.without (host.place src)).put {e with place := host.place dst})

def withAttributes (host : Host) (disk : Disk) (op : String) (p : Path) (f : Entry→Entry) : Try Disk :=
  match disk.entry host p with
  | none => .error (notExist op p)
  | some _ => .ok (disk.alter (host.place p) f)

def contents (host : Host) (disk : Disk) (p : Path) : Try Bytes :=
  match disk.held (host.place p) with
  | none => .error (notExist "open" p)
  | some none => .error (pathError "read" p "is a directory")
  | some (some data) => .ok data

def information (host : Host) (disk : Disk) (p : Path) : Try FileInfo :=
  match disk.entry host p with
  | none => .error (notExist "stat" p)
  | some e => .ok ⟨e.perm,e.uid,e.gid⟩

def listing (host : Host) (disk : Disk) (dir : String) : List DirEntry :=
  (disk.entries.filter (·.place.dir=host.realDir dir)).map fun e =>
    ⟨e.place.base,e.content.isNone⟩

/-- Answer and effect of each operation that is not blocked. -/
def effect (host : Host) : (op : Op)→Choice→Disk→Res op×Disk
  | .lock p,_,disk => ((),{disk with locks := p::disk.locks})
  | .unlock p,_,disk => ((),{disk with locks := disk.locks.erase p})
  | .ctxErr,c,disk => (c.fault.map fun text => ⟨text,none⟩,disk)
  | .readFile p,c,disk => (unlessFault c (contents host disk p),disk)
  | .stat p,c,disk => (unlessFault c (information host disk p),disk)
  | .lookupUser _,c,disk => (unlessFault c (.ok c.id),disk)
  | .lookupGroup _,c,disk => (unlessFault c (.ok c.id),disk)
  | .readDir dir,c,disk => (unlessFault c (.ok (listing host disk dir)),disk)
  | .openExcl p perm,c,disk =>
    attempt c disk (if (disk.entry host p).isSome then .error (pathError "open" p "file exists")
      else .ok (disk.put (newFile host p [] perm)))
  | .write p data,c,disk =>
    match c.fault with
    | none => (.ok (),disk.alter (host.place p) (Entry.rewritten data))
    | some text =>
      (.error ⟨text,none⟩, disk.alter (host.place p) (Entry.rewritten (data.take (c.written.getD 0))))
  | .sync _,c,disk => attempt c disk (.ok disk)
  | .close _,c,disk => attempt c disk (.ok disk)
  | .writeFile p data perm,c,disk =>
    match c.fault,c.written with
    | some text,some n => (.error ⟨text,none⟩,((overwrite host disk p (data.take n) perm).toOption).getD disk)
    | _,_ => attempt c disk (overwrite host disk p data perm)
  | .remove p,c,disk =>
    attempt c disk (if (disk.entry host p).isSome then .ok (disk.without (host.place p))
      else .error (notExist "remove" p))
  | .rename src dst,c,disk => attempt c disk (moved host disk src dst)
  | .chmod p perm,c,disk => attempt c disk (withAttributes host disk "chmod" p (Entry.permitted perm))
  | .chown p uid gid,c,disk => attempt c disk (withAttributes host disk "chown" p (Entry.owned uid gid))
  | .nowNanos,c,disk => (c.nanos,disk)
  | .preCommit _,c,disk => (unlessFault c (.ok ()),{disk with entries := c.after disk.entries})
  | .postCommit,c,disk => (unlessFault c (.ok ()),{disk with entries := c.after disk.entries})

/-- A mutex that is held makes its next taker wait. -/
def blocked (disk : Disk) : Op→Bool
  | .lock p => disk.locks.contains p
  | _ => false

abbrev fileSystem (host : Host) : Store where
  Op := Op
  Res := Res
  State := Disk
  Choice := Choice
  perform op c disk := if blocked disk op then none else some (effect host op c disk)

abbrev Files (host : Host) (α : Type) := Prog (fileSystem host) α

theorem held_put (disk : Disk) (entry : Entry) (x : Path) :
    (disk.put entry).held x=if entry.place=x then some entry.content else disk.held x := by
  unfold Disk.held Disk.put
  rw [lookup_upsert]
  by_cases hx : entry.place=x
  · rw [if_pos hx,if_pos hx,map_some]
  · rw [if_neg hx,if_neg hx]

theorem held_without (disk : Disk) (y x : Path) : (disk.without y).held x=if y=x then none else disk.held x := by
  unfold Disk.held Disk.without
  by_cases hx : y=x
  · rw [if_pos hx,hx,lookup_remove_self,map_none]
  · rw [if_neg hx,lookup_remove_of_ne (Ne.symm hx)]

variable {f : Entry→Entry}

section

variable (hf : ∀ e,(f e).place=e.place)
include hf

theorem held_alter_self (disk : Disk) (y : Path) :
    (disk.alter y f).held y=(lookup Entry.place y disk.entries).map fun e => (f e).content := by
  unfold Disk.held Disk.alter
  rw [lookup_modify_self hf,map_map]
  rfl

theorem held_alter_of_ne (disk : Disk) {y x : Path} (hx : x≠y) : (disk.alter y f).held x=disk.held x := by
  unfold Disk.held Disk.alter
  rw [lookup_modify_of_ne hf hx]

theorem held_alter_same
    (hcontent : ∀ e,(f e).content=e.content) (disk : Disk) (y x : Path) : (disk.alter y f).held x=disk.held x := by
  by_cases hx : x=y
  · subst hx
    simp only [held_alter_self hf,hcontent]
    rfl
  · exact held_alter_of_ne hf disk hx

end

theorem isSome_entry (host : Host) (disk : Disk) (p : Path) :
    (disk.entry host p).isSome=(disk.held (host.place p)).isSome := by
  unfold Disk.entry Disk.held
  rw [isSome_map]

variable {host : Host} {disk : Disk} {p : Path}

theorem entry_of_held {content : Option Bytes} (h : disk.held (host.place p)=some content) :
    ∃ e,disk.entry host p=some e ∧ e.content=content := by
  obtain ⟨e,he,hcontent⟩ := map_eq_some_iff.mp h
  exact ⟨e,he,hcontent⟩

theorem mem_listing {data : Bytes} (h : disk.held (host.place p)=some (some data)) :
    (⟨p.base,false⟩ : DirEntry)∈listing host disk p.dir := by
  obtain ⟨e,he,hcontent⟩ := map_eq_some_iff.mp h
  obtain ⟨hmem,hplace⟩ := lookup_some he
  have hdir : e.place.dir=host.realDir p.dir := congrArg Path.dir hplace
  have hbase : e.place.base=(host.place p).base := congrArg Path.base hplace
  have hline : (⟨e.place.base,e.content.isNone⟩ : DirEntry)=⟨p.base,false⟩ := by
    rw [hbase,hcontent]
    rfl
  refine List.mem_map.mpr ⟨e,?_,hline⟩
  exact List.mem_filter.mpr ⟨hmem,decide_eq_true hdir⟩

end Certctl.DeployFileSystem
