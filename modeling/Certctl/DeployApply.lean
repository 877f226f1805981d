import Certctl.DeployFileSystem
import Mathlib.Data.List.Sort
import Mathlib.Data.String.Basic
import Mathlib.Algebra.Group.Int.Defs

/-!
# Deploying a plan of files

The program of the deployment package: every file is backed up, written
beside its destination, validated, renamed into place and reloaded. A
failed rename or reload restores the files from their backups; a
successful call prunes old backups by the prefix of their names. Each
function follows its source step by step over the file system's
operations, so every failure path is part of the text.
-/

namespace Certctl.DeployApply

open AtomicProgram DeployFileSystem DomainRecords

/-- One file of a plan. -/
structure File where
  /-- Destination as the connector spells it. -/
  path : String
  bytes : Bytes
  /-- Wanted permission bits; zero keeps or defaults. -/
  mode : ℕ := 0
  /-- Wanted owner; empty keeps or defaults. -/
  owner : String := ""
  /-- Wanted group; empty keeps or defaults. -/
  group : String := ""

/-- Attributes of files that do not exist yet. -/
structure FileDefaults where
  mode : ℕ := 0
  owner : String := ""
  group : String := ""

/-- What is to be deployed, and how. -/
structure Plan where
  /-- All files, in the order of their renames. -/
  files : List File
  defaults : FileDefaults := {}
  preCommit : Bool := false
  postCommit : Bool := false
  /-- Backups to keep; zero is the default number and -1 takes none. -/
  backupRetention : ℤ := 0
  /-- Deploy even if every file already has its bytes. -/
  skipIdempotent : Bool := false

/-- What a deployment reports. -/
structure Result where
  /-- Every file already had its bytes. -/
  skippedAsIdempotent : Bool := false
  /-- Backup of each destination; absent where there was nothing to back up. -/
  backupPaths : List (Path×Option Path) := []
  /-- The validation hook did not fail. -/
  validateOK : Bool := false
  /-- The reload hook did not fail. -/
  reloaded : Bool := false
  /-- The reload hook failed and the files were restored. -/
  rolledBack : Bool := false
deriving DecidableEq

/-- Result and error of a call; both may be present. -/
structure Outcome where
  /-- The report, if one is returned. -/
  result : Option Result := none
  error : Err := none
deriving DecidableEq

/-- Attributes to give to a file. -/
structure ResolvedOwnership where
  mode : ℕ := 0
  /-- Owner; negative for no change. -/
  uid : ℤ := -1
  /-- Group; negative for no change. -/
  gid : ℤ := -1
  modeSet : Bool := false

/-- What is prepared for a file. -/
structure FilePrep where
  abs : Path
  file : File
  /-- The file written beside the destination. -/
  tempPath : Option Path := none
  owner : ResolvedOwnership
  hadOrig : Bool
  /-- Copy of the previous contents. -/
  backupTo : Option Path := none

/-- Infix of the names of files not yet in place. -/
def tempSuffix : String := ".certctl-tmp."

def backupSuffix : String := ".certctl-bak."

def defaultBackupRetention : ℤ := 3

variable {host : Host}

def request (op : Op) : Files host (Res op) := Prog.perform (S := fileSystem host) op

/-- The clock as a decimal numeral of at least nineteen digits. -/
def nanosText (nanos : ℕ) : String :=
  let digits := Nat.toDigits 10 nanos
  String.ofList (List.replicate (19-digits.length) '0'++digits)

/-- The name of a temporary or backup file. -/
def stamped (abs : Path) (suffix : String) (nanos : ℕ) : Path := ⟨abs.dir,abs.base++suffix++nanosText nanos⟩

/-- Equality of contents through their hashes. -/
def sha256Eq (host : Host) (a b : Bytes) : Bool :=
  if a.length≠b.length then false else decide (host.sha256 a=host.sha256 b)

/-- The number that decimal digits stand for. -/
def digitsValue (value : ℕ) : List Char→Option ℕ
  | [] => some value
  | ch::rest => if ch.isDigit then digitsValue (10*value+(ch.toNat- '0'.toNat)) rest else none

/-- A decimal numeral with an optional sign, in the range of a machine integer. -/
def atoi (text : String) : Option ℤ :=
  let (sign,digits) : ℤ×List Char :=
    match text.toList with
    | '-' ::rest => (-1,rest)
    | '+' ::rest => (1,rest)
    | chars => (1,chars)
  if digits=[] then none
  else
    match digitsValue 0 digits with
    | none => none
    | some n => if -2^63 ≤ sign*n ∧ sign*n<2^63 then some (sign*n) else none

/-- A user or group name as a number; numerals stand for themselves. -/
def lookupID (empty name : String) (op : Files host (Try ℤ)) : Files host (Try ℤ) :=
  if name="" then raise ⟨empty,none⟩
  else
    match atoi name with
    | some id => pure (.ok id)
    | none => op

def lookupUID (name : String) : Files host (Try ℤ) := lookupID "empty username" name (request (.lookupUser name))

def lookupGID (name : String) : Files host (Try ℤ) := lookupID "empty groupname" name (request (.lookupGroup name))

/-- Permission bits: the file's own, else the existing ones, else the default. -/
def resolveMode (file : File) (defaults : FileDefaults) (existing : Option FileInfo) :
    ResolvedOwnership :=
  if file.mode≠0 then {mode := file.mode, modeSet := true}
  else
    match existing with
    | some info => {mode := info.perm, modeSet := true}
    | none => if defaults.mode≠0 then {mode := defaults.mode, modeSet := true} else {}

def resolveNames (res : ResolvedOwnership) (owner group : String) : Files host (Try ResolvedOwnership) := do
  match ← lookupUID owner with
  | .error err => raise (err.wrapped ("resolve owner \""++owner++"\": "))
  | .ok uid =>
    match ← lookupGID group with
    | .error err => raise (err.wrapped ("resolve group \""++group++"\": "))
    | .ok gid => pure (.ok {res with uid := uid, gid := gid})

/-- Final attributes: the file's own, else the existing ones, else the defaults. -/
def resolveOwnership (file : File) (defaults : FileDefaults) (existing : Option FileInfo) :
    Files host (Try ResolvedOwnership) :=
  let res := resolveMode file defaults existing
  if file.owner≠"" ∧ file.group≠"" then resolveNames res file.owner file.group
  else
    match existing with
    | some info => pure (.ok {res with uid := info.uid, gid := info.gid})
    | none =>
      if defaults.owner≠"" ∧ defaults.group≠"" then resolveNames res defaults.owner defaults.group
      else pure (.ok res)

/-- Set the owner; without privileges a refusal is not an error. -/
def applyOwner (host : Host) (path : Path) (res : ResolvedOwnership) : Files host (Try Unit) :=
  if 0≤res.uid ∧ 0≤res.gid then do
    match ← request (.chown path res.uid res.gid) with
    | .error err =>
      if host.euid=0 then
        raise (err.wrapped ("chown "++path.text++" to "++toString res.uid++":"++toString res.gid++": "))
      else pure (.ok ())
    | .ok () => pure (.ok ())
  else pure (.ok ())

def applyOwnership (path : Path) (res : ResolvedOwnership) : Files host (Try Unit) :=
  if res.modeSet then do
    match ← request (.chmod path res.mode) with
    | .error err =>
      raise (err.wrapped ("chmod "++path.text++" to 0"++String.ofList (Nat.toDigits 8 res.mode)++": "))
    | .ok () => applyOwner host path res
  else applyOwner host path res

/-- Drop a half-written temporary file and report why. -/
def abandon (tempPath : Path) (err : GoError) : Files host (Try Path) := do
  let _ ← request (.remove tempPath)
  raise err

def fillTempFile (tempPath : Path) (data : Bytes) : Files host (Try Path) := do
  match ← request (.write tempPath data) with
  | .error err => do
    let _ ← request (.close tempPath)
    abandon tempPath err
  | .ok () =>
    match ← request (.sync tempPath) with
    | .error err => do
      let _ ← request (.close tempPath)
      abandon tempPath err
    | .ok () =>
      match ← request (.close tempPath) with
      | .error err => abandon tempPath err
      | .ok () => pure (.ok tempPath)

def writeTempFile (abs : Path) (data : Bytes) : Files host (Try Path) := do
  let nanos ← request .nowNanos
  let tempPath := stamped abs tempSuffix nanos
  match ← request (.openExcl tempPath 384) with
  | .error err => raise err
  | .ok () => fillTempFile tempPath data

/-- Copy the destination's current bytes to a new backup. -/
def backupFile (abs : Path) : Files host (Try Path) := do
  match ← request (.readFile abs) with
  | .error err => raise (err.wrapped "read for backup: ")
  | .ok src =>
    match ← request (.stat abs) with
    | .error err => raise (err.wrapped "stat for backup: ")
    | .ok srcStat =>
      let nanos ← request .nowNanos
      let backupPath := stamped abs backupSuffix nanos
      match ← request (.writeFile backupPath src srcStat.perm) with
      | .error err => raise (err.wrapped "write backup: ")
      | .ok () =>
        let _ ← request (.chown backupPath srcStat.uid srcStat.gid)
        pure (.ok backupPath)

def hasPrefix (name front : String) : Bool := front.toList.isPrefixOf name.toList

def backupNames (base : String) (entries : List DirEntry) : List String :=
  (entries.filter fun e => !e.isDir && hasPrefix e.name (base++backupSuffix)).map DirEntry.name

/-- Delete files of one directory; the first failure is reported. -/
def removeNames (dir : String) (firstErr : Err) : List String→Files host Err
  | [] => pure firstErr
  | name::names => do
    match ← request (.remove ⟨dir,name⟩) with
    | .error err => removeNames dir (firstErr.or (some err)) names
    | .ok () => removeNames dir firstErr names

/-- The names that retention gives up: all but the last ones in order. -/
def surplus (keep : ℤ) (names : List String) : List String :=
  if (names.length : ℤ)≤keep then []
  else (names.insertionSort (·≤·)).take (names.length-keep.toNat)

/-- Delete older backups of a destination. -/
def pruneBackups (abs : Path) (keep : ℤ) : Files host Err :=
  if keep≤0 then pure none
  else do
    match ← request (.readDir abs.dir) with
    | .error err => pure (some err)
    | .ok entries => removeNames abs.dir none (surplus keep (backupNames abs.base entries))

/-- Remove one kind of file of each prepared file that has it; failures are ignored. -/
def removeEach (pick : FilePrep→Option Path) (preps : List FilePrep) : Files host Unit :=
  Prog.forEach preps fun p =>
    match pick p with
    | none => pure ()
    | some path => do
      let _ ← request (.remove path)
      pure ()

def cleanupTemps (preps : List FilePrep) : Files host Unit := removeEach FilePrep.tempPath preps

/-- Remove whatever backups have been taken. -/
def cleanupBackups (preps : List FilePrep) : Files host Unit := removeEach FilePrep.backupTo preps

/-- Put the bytes of a backup in place of a destination. -/
def restoreBytes (p : FilePrep) (bytes : Bytes) : Files host Err := do
  match ← writeTempFile p.abs bytes with
  | .error err => pure (some (err.wrapped ("write restore temp for "++p.abs.text++": ")))
  | .ok tempPath =>
    match ← applyOwnership tempPath p.owner with
    | .error err => do
      let _ ← request (.remove tempPath)
      pure (some (err.wrapped ("apply ownership during restore for "++p.abs.text++": ")))
    | .ok () =>
      match ← request (.rename tempPath p.abs) with
      | .error err => do
        let _ ← request (.remove tempPath)
        pure (some (err.wrapped ("rename during restore for "++p.abs.text++": ")))
      | .ok () => pure none

/-- Undo one file: remove it, or put its backup back. -/
def restoreOne (p : FilePrep) : Files host Err :=
  match p.backupTo with
  | none => do
    match ← request (.remove p.abs) with
    | .error err => if err.is .fileNotExist then pure none else pure (some err)
    | .ok () => pure none
  | some backupPath => do
    match ← request (.readFile backupPath) with
    | .error err => pure (some (err.wrapped ("read backup "++backupPath.text++": ")))
    | .ok bytes => restoreBytes p bytes

/-- Undo files in order, past any failure; the first one is reported. -/
def restoreFrom (firstErr : Err) : List FilePrep→Files host Err
  | [] => pure firstErr
  | p::rest => do
    let err ← restoreOne p
    restoreFrom (firstErr.or err) rest

def restoreFromBackups (preps : List FilePrep) : Files host Err := restoreFrom none preps

/-- Every destination already holds its new bytes. -/
def allMatch (host : Host) : List (File×Path)→Files host Bool
  | [] => pure true
  | (file,abs)::rest => do
    match ← request (.readFile abs) with
    | .error _ => pure false
    | .ok existing => if sha256Eq host existing file.bytes then allMatch host rest else pure false

def ownershipStat : Try FileInfo→Option FileInfo
  | .ok info => some info
  | .error _ => none

/-- Look at each destination and resolve its attributes; files are numbered in errors. -/
def prepare (defaults : FileDefaults) (index : ℕ) (done : List FilePrep) :
    List (File×Path)→Files host (Try (List FilePrep))
  | [] => pure (.ok done)
  | (file,abs)::rest => do
    let stat ← request (.stat abs)
    match ← resolveOwnership file defaults (ownershipStat stat) with
    | .error err =>
      raise (err.wrapped ("file "++toString index++" ("++abs.text++"): resolve ownership: "))
    | .ok owner =>
      prepare defaults (index+1)
        (done++[{abs := abs, file := file, owner := owner, hadOrig := stat.toOption.isSome}]) rest

def backupAll (done : List FilePrep) : List FilePrep→Files host (Try (List FilePrep))
  | [] => pure (.ok done)
  | p::rest =>
    if !p.hadOrig then backupAll (done++[p]) rest
    else do
      match ← backupFile p.abs with
      | .error err => do
        cleanupBackups done
        raise (err.wrapped ("backup "++p.abs.text++": "))
      | .ok backupPath => backupAll (done++[{p with backupTo := some backupPath}]) rest

def writeTemps (done : List FilePrep) : List FilePrep→Files host (Try (List FilePrep))
  | [] => pure (.ok done)
  | p::rest => do
    match ← writeTempFile p.abs p.file.bytes with
    | .error err => do
      cleanupTemps done
      raise (err.wrapped ("write temp for "++p.abs.text++": "))
    | .ok tempPath =>
      match ← applyOwnership tempPath p.owner with
      | .error err => do
        cleanupTemps (done++[{p with tempPath := some tempPath}])
        raise (err.wrapped ("apply ownership to temp for "++p.abs.text++": "))
      | .ok () => writeTemps (done++[{p with tempPath := some tempPath}]) rest

def renameOne (p : FilePrep) : Files host (Try Unit) :=
  match p.tempPath with
  | none => raise (notExist "rename" ⟨"",""⟩)
  | some tempPath => request (.rename tempPath p.abs)

def undoRenames (preps done : List FilePrep) (p : FilePrep) (err : GoError) : Files host (Try Unit) := do
  let rollbackErr ← restoreFromBackups done
  cleanupTemps preps
  match rollbackErr with
  | some rollback =>
    raise (Sentinel.deployRollbackFailed.because ("rename "++p.abs.text++
      " mid-loop, rollback also failed: "++rollback.text++" (rename: "++err.text++")"))
  | none => raise (err.wrapped ("rename "++p.abs.text++": "))

def renameAll (preps done : List FilePrep) : List FilePrep→Files host (Try Unit)
  | [] => pure (.ok ())
  | p::rest => do
    match ← renameOne p with
    | .error err => undoRenames preps done p err
    | .ok () => renameAll preps (done++[p]) rest

/-- Restore all files after a failed reload, then reload again. -/
def rollback (preps : List FilePrep) (res : Result) (err : GoError) : Files host Outcome := do
  match ← restoreFromBackups preps with
  | some rollbackErr =>
    pure ⟨some res,some (Sentinel.deployRollbackFailed.because ("PostCommit failed ("++err.text++
      ") AND rollback restore failed ("++rollbackErr.text++")"))⟩
  | none =>
    match ← request .postCommit with
    | .error err2 =>
      pure ⟨some res,some (Sentinel.deployRollbackFailed.because ("PostCommit failed ("++err.text++
        ") AND second PostCommit after restore also failed ("++err2.text++")"))⟩
    | .ok () => pure ⟨some {res with rolledBack := true},some (Sentinel.deployReloadFailed.because err.text)⟩

/-- The number of backups to keep; none are pruned unless it is positive. -/
def retention (plan : Plan) : ℤ := if plan.backupRetention=0 then defaultBackupRetention else plan.backupRetention

/-- Prune the backups of every destination; failures are ignored. -/
def pruneAll (keep : ℤ) (preps : List FilePrep) : Files host Unit :=
  if 0<keep then
    Prog.forEach preps fun p => do
      let _ ← pruneBackups p.abs keep
      pure ()
  else pure ()

/-- The last step of a deployment that succeeded. -/
def finish (plan : Plan) (preps : List FilePrep) (res : Result) : Files host Outcome := do
  pruneAll (retention plan) preps
  pure {result := some {res with reloaded := true}}

/-- Reload, and roll back if that fails. -/
def reload (plan : Plan) (preps : List FilePrep) (res : Result) : Files host Outcome :=
  if plan.postCommit then do
    match ← request .postCommit with
    | .error err => rollback preps res err
    | .ok () => finish plan preps res
  else finish plan preps res

/-- Put all files in place and reload. -/
def install (plan : Plan) (preps : List FilePrep) (res : Result) : Files host Outcome := do
  match ← renameAll preps [] preps with
  | .error err => pure {result := some res, error := some err}
  | .ok () => reload plan preps res

/-- The temporary file of each destination, as the validation hook receives it. -/
def tempPaths (preps : List FilePrep) : List (Path×Path) :=
  preps.filterMap fun p => p.tempPath.map fun tempPath => (p.abs,tempPath)

/-- Validate the temporary files, then install them. -/
def commit (plan : Plan) (preps : List FilePrep) (res : Result) : Files host Outcome :=
  if plan.preCommit then do
    match ← request (.preCommit (tempPaths preps)) with
    | .error err => do
      cleanupTemps preps
      pure {error := some (Sentinel.deployValidateFailed.because err.text)}
    | .ok () => install plan preps {res with validateOK := true}
  else install plan preps {res with validateOK := true}

def backupPaths (preps : List FilePrep) : List (Path×Option Path) := preps.map fun p => (p.abs,p.backupTo)

/-- Write the temporary files and commit them. -/
def stage (plan : Plan) (preps : List FilePrep) (res : Result) : Files host Outcome := do
  match ← writeTemps [] preps with
  | .error err => pure {error := some err}
  | .ok preps => commit plan preps res

def backupThenStage (plan : Plan) (preps : List FilePrep) : Files host Outcome :=
  if plan.backupRetention≠ -1 then do
    match ← backupAll [] preps with
    | .error err => pure {error := some err}
    | .ok preps => stage plan preps {backupPaths := backupPaths preps}
  else stage plan preps {}

def deploy (plan : Plan) (targets : List (File×Path)) : Files host Outcome := do
  match ← prepare plan.defaults 0 [] targets with
  | .error err => pure {error := some err}
  | .ok preps => backupThenStage plan preps

def applyLocked (plan : Plan) (targets : List (File×Path)) : Files host Outcome := do
  match ← request .ctxErr with
  | some err => pure {error := some err}
  | none =>
    if plan.skipIdempotent then deploy plan targets
    else if ← allMatch host targets then pure {result := some {skippedAsIdempotent := true}}
    else deploy plan targets

/-- Check the files of a plan one after another. -/
def validateFiles (host : Host) (index : ℕ) (seen : List Path) : List File→Err
  | [] => none
  | file::rest =>
    if file.path="" then
      some (Sentinel.deployPlanInvalid.because ("file "++toString index++" has empty path"))
    else
      match host.abs file.path with
      | .error err =>
        some (Sentinel.deployPlanInvalid.because ("file "++toString index++" ("++file.path++"): "++err.text))
      | .ok abs =>
        if abs∈seen then
          some (Sentinel.deployPlanInvalid.because ("duplicate destination "++abs.text))
        else validateFiles host (index+1) (abs::seen) rest

/-- A plan has files, and their destinations are distinct paths. -/
def validatePlan (host : Host) (plan : Plan) : Err :=
  if plan.files.isEmpty then
    some (Sentinel.deployPlanInvalid.because "no files")
  else validateFiles host 0 [] plan.files

/-- Every file of a plan with its absolute destination. -/
def absPaths (host : Host) : List File→Try (List (File×Path))
  | [] => .ok []
  | file::rest =>
    match host.abs file.path with
    | .error err => .error (err.wrapped ("resolve path "++file.path++": "))
    | .ok abs =>
      match absPaths host rest with
      | .error err => .error err
      | .ok targets => .ok ((file,abs)::targets)

def lockOrder (targets : List (File×Path)) : List Path :=
  (targets.map Prod.snd).insertionSort (fun p q => p.text≤q.text)

def apply (host : Host) (plan : Plan) : Files host Outcome :=
  match validatePlan host plan with
  | some err => pure {error := some err}
  | none =>
    match absPaths host plan.files with
    | .error err => pure {error := some err}
    | .ok targets => do
      Prog.forEach (lockOrder targets) fun p => request (.lock p)
      let outcome ← applyLocked plan targets
      Prog.forEach (lockOrder targets).reverse fun p => request (.unlock p)
      pure outcome

end Certctl.DeployApply
