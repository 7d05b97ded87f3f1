import ActivityRelay.DirectoryConfig.Document
import ActivityRelay.Interaction.Program

/-!
# The editor of the configuration file

`DisableFile` and `RemoveFile` as programs of their system calls. The editor locks the file that the
path names and checks that the path still names it, edits the text, writes the new text to a
temporary file and renames it to the path. Before that it keeps the old text as a backup.
-/

namespace DirectoryConfig

open GoString Interaction

/-- The two files that are replaced by renaming. -/
inductive Target
  | config
  | backup
  deriving DecidableEq, Repr

/-- The names in the directory: those of the two files, and those of the temporary files for them.
-/
inductive Name
  | file (target : Target)
  | temp (target : Target) (id : ℕ)
  deriving DecidableEq, Repr

/-- The calls of an editor. Its descriptor is on the configuration file, and while it writes a
temporary file it has one on that, too. `backupExists` is called before the edit is written
(`early`) and before the backup is. -/
inductive EditOp
  | openPath
  | flock
  | samePath
  | read
  | close
  | backupExists (early : Bool)
  | createTemp (target : Target)
  | write (body : GoString)
  | chown
  | chmod
  | fsync
  | closeTemp
  | rename (target : Target) (id : ℕ)
  | remove (target : Target) (id : ℕ)
  | syncDirectory
  deriving DecidableEq

/-- The replies, with `false` or `none` for an error. -/
abbrev EditOp.Reply : EditOp → Type
  | openPath | flock | samePath | backupExists _ | write _ | chown | chmod | fsync | closeTemp |
    rename _ _ | syncDirectory => Bool
  | read => Option GoString
  | createTemp _ => Option ℕ
  | close | remove _ _ => Unit

abbrev EditM := Prog EditOp EditOp.Reply

def openPath : EditM Bool := .op EditOp.openPath
def flock : EditM Bool := .op EditOp.flock
def samePath : EditM Bool := .op EditOp.samePath
def readFile : EditM (Option GoString) := .op EditOp.read
def close : EditM Unit := .op EditOp.close
def backupExists (early : Bool) : EditM Bool := .op (EditOp.backupExists early)
def createTemp (target : Target) : EditM (Option ℕ) :=
  .op (EditOp.createTemp target)
def write (body : GoString) : EditM Bool := .op (EditOp.write body)
def chown : EditM Bool := .op EditOp.chown
def chmod : EditM Bool := .op EditOp.chmod
def fsync : EditM Bool := .op EditOp.fsync
def closeTemp : EditM Bool := .op EditOp.closeTemp
def rename (target : Target) (id : ℕ) : EditM Bool :=
  .op (EditOp.rename target id)
def remove (target : Target) (id : ℕ) : EditM Unit :=
  .op (EditOp.remove target id)
def syncDirectory : EditM Bool := .op EditOp.syncDirectory

def maximumConfigBytes : ℕ := 1024 * 1024

/-- `openLockedSnapshot`, with the number of attempts. It leaves the descriptor open and locked if
it returns a text. -/
def openLockedSnapshot : (attempts : ℕ) → EditM (Option GoString)
  | 0 => return none
  | attempts + 1 => do
      if ← openPath then
        if ← flock then
          if ← samePath then
            match ← readFile with
            | none =>
                close
                return none
            | some body =>
                if maximumConfigBytes < body.length then
                  close
                  return none
                else return some body
          else
            close
            openLockedSnapshot attempts
        else
          close
          return none
      else return none

/-- The part of `writeSyncedTemp` between the creation of the file and its closing. -/
def fillTemp (body : GoString) : EditM Bool := do
  if ← write body then
    if ← chown then
      if ← chmod then fsync else return false
    else return false
  else return false

/-- `writeSyncedTemp`, with the number of the temporary file. -/
def writeSyncedTemp (target : Target) (body : GoString) : EditM (Option ℕ) := do
  match ← createTemp target with
  | none => return none
  | some id =>
      let filled ← fillTemp body
      let closed ← closeTemp
      if filled && closed then return some id
      else
        remove target id
        return none

/-- The renaming of a temporary file to the backup, and the sync of the directory. -/
def commitBackup (id : ℕ) : EditM Bool := do
  if ← rename .backup id then syncDirectory else return false

/-- The renaming of a temporary file to the path, if the path still names the locked file, and the
sync of the directory. -/
def commitConfig (id : ℕ) : EditM Bool := do
  if ← samePath then
    if ← rename .config id then syncDirectory else return false
  else return false

/-- The part of `atomicReplace` that writes the backup, and goes on with the temporary file `id`. -/
def saveThenCommit (original : GoString) (id : ℕ) : EditM Bool := do
  match ← writeSyncedTemp .backup original with
  | none => return false
  | some backupTemp =>
      let saved ← commitBackup backupTemp
      let replaced ← if saved then commitConfig id else pure false
      remove .backup backupTemp
      return replaced

/-- The part of `atomicReplace` after the new text has been written to the temporary file `id`. -/
def replaceWith (original : GoString) (preserveBackup : Bool) (id : ℕ) : EditM Bool := do
  let kept ← if preserveBackup then backupExists false else pure false
  if kept then commitConfig id else saveThenCommit original id

/-- The temporary file is removed whether or not it was renamed. -/
def atomicReplace (original replacement : GoString) (preserveBackup : Bool) : EditM Bool := do
  match ← writeSyncedTemp .config replacement with
  | none => return false
  | some id =>
      let replaced ← replaceWith original preserveBackup id
      remove .config id
      return replaced

variable (U : CaseTable) (codec : Codec) (call : Call)

/-- The part of `editFile` that writes the edited tree. -/
def replaceEntry (original : GoString) (prepared : Prepared) : EditM (Except EditError Unit) :=
  match codec.encode prepared.root with
  | none => return .error .configuration
  | some replacement => do
      if ← atomicReplace original replacement (call.action = .remove || !prepared.wasEnabled) then
        return .ok ()
      else return .error .configuration

/-- The part of `editFile` that has the lock. -/
def editLocked (original : GoString) : EditM (Except EditError Unit) :=
  match prepare U codec call original with
  | .error e => return .error e
  | .ok prepared => do
      let done ←
        if call.action = .disable ∧ prepared.wasEnabled = false then backupExists true
        else pure false
      if done then return .ok () else replaceEntry codec call original prepared

/-- An edit reads, checks and replaces the file under its lock. -/
def editFile : EditM (Except EditError Unit) :=
  if Directory.validOrigin U call.origin then do
    match ← openLockedSnapshot 4 with
    | none => return .error .configuration
    | some original =>
        let result ← editLocked U codec call original
        close
        return result
  else return .error .configuration

end DirectoryConfig
